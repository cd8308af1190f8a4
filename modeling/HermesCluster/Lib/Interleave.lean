import HermesCluster.Lib.Machine
import HermesCluster.Lib.Program
/-!
# Programs that run at the same time

A pool is what is left of each of its programs. In a turn, one of them performs
its next operation; a list of turns is an interleaving, and what holds of every
such list holds of every interleaving of the programs, at the granularity of
their operations. Turns are also the inputs of a machine, for what is said of each
of them and the pool it finds.
-/

universe u v w

/-- A turn of the program at a position, in some circumstances. -/
structure Turn (E : Type w) where
  position : Nat
  env : E

namespace Program

variable {Op : Type u} {Res : Op → Type} {ε α : Type} {σ : Type v} {E : Type w}

/-- The programs that are still to run. -/
abbrev Pool (Op : Type u) (Res : Op → Type) (ε α : Type) := List (Program Op Res ε α)

namespace Pool

variable (step : E → (op : Op) → σ → Res op × σ) (P : σ → Op → σ → Prop)

/-- The pool and the state after some turns; the turn of a program that has
ended, or of none, changes nothing. -/
def run : List (Turn E) → Pool Op Res ε α → σ → Pool Op Res ε α × σ
  | [], ps, s => (ps, s)
  | turn :: turns, ps, s =>
      match ps[turn.position]? with
      | some (.call op next) =>
          run turns (ps.set turn.position (next (step turn.env op s).1)) (step turn.env op s).2
      | _ => run turns ps s

/-- `P` holds of every operation of some turns, with the states before and after
it. -/
def Along : List (Turn E) → Pool Op Res ε α → σ → Prop
  | [], _, _ => True
  | turn :: turns, ps, s =>
      match ps[turn.position]? with
      | some (.call op next) =>
          P s op (step turn.env op s).2 ∧
            Along turns (ps.set turn.position (next (step turn.env op s).1))
              (step turn.env op s).2
      | _ => Along turns ps s

instance decidableAlong [∀ s op s', Decidable (P s op s')] :
    (turns : List (Turn E)) → (ps : Pool Op Res ε α) → (s : σ) →
      Decidable (Along step P turns ps s)
  | [], _, _ => isTrue trivial
  | turn :: turns, ps, s => by
      unfold Along
      exact match ps[turn.position]? with
      | some (.call op next) =>
          have := decidableAlong turns (ps.set turn.position (next (step turn.env op s).1))
            (step turn.env op s).2
          inferInstanceAs (Decidable (_ ∧ _))
      | some (.pure _) => decidableAlong turns ps s
      | some (.raise _) => decidableAlong turns ps s
      | none => decidableAlong turns ps s

variable {step P}

/-- The rule for an invariant that every operation of the programs keeps, where
it meets the condition `A`. -/
theorem keeps_of_only {I : σ → Prop} {S : Op → Prop} {A : σ → Op → Prop}
    {turns : List (Turn E)} {ps : Pool Op Res ε α} {s : σ} (hps : ∀ p ∈ ps, p.Only S) (hs : I s)
    (halong : Along step (fun s op _ => A s op) turns ps s)
    (hstep : ∀ env s op, I s → S op → A s op → P s op (step env op s).2 ∧ I (step env op s).2) :
    Along step P turns ps s ∧ I (run step turns ps s).2 := by
  induction turns generalizing ps s with
  | nil => exact ⟨trivial, hs⟩
  | cons turn turns ih =>
      unfold Along at halong ⊢
      unfold run
      split at halong
      · rename_i op next hturn
        obtain ⟨hA, hrest⟩ := halong
        have honly : (call op next).Only S := hps _ (List.mem_of_getElem? hturn)
        obtain ⟨hP, hI⟩ := hstep turn.env s op hs honly.1 hA
        have hpool : ∀ p ∈ ps.set turn.position (next (step turn.env op s).1), p.Only S := by
          intro p hp
          rcases List.mem_or_eq_of_mem_set hp with hmem | rfl
          · exact hps p hmem
          · exact honly.2 _
        obtain ⟨hlater, hend⟩ := ih hpool hI hrest
        exact ⟨⟨hP, hlater⟩, hend⟩
      · exact ih hps hs halong

/-! ## Turns one by one -/

section Turns

variable (step)

/-- The machine that takes the turns. -/
def machine : Machine (Pool Op Res ε α × σ) (Turn E) Unit := fun turn s =>
  match s.1[turn.position]? with
  | some (.call op next) =>
      ((), s.1.set turn.position (next (step turn.env op s.2).1), (step turn.env op s.2).2)
  | _ => ((), s)

variable {step}

/-- Each program meets its own assertion, which may speak of what is left of it and of
the state. -/
def Asserts (A : Nat → Program Op Res ε α → σ → Prop) (s : Pool Op Res ε α × σ) : Prop :=
  ∀ i p, s.1[i]? = some p → A i p s.2

/-- The rule for assertions: an operation establishes the one of its own program, and
leaves those of the others true. -/
theorem asserts_after {A : Nat → Program Op Res ε α → σ → Prop}
    {cond : Turn E → Pool Op Res ε α × σ → Prop} {turns : List (Turn E)}
    {start : Pool Op Res ε α × σ} (hstart : Asserts A start)
    (hmeets : (machine step).Meets cond turns start)
    (hown : ∀ turn s op next, Asserts A s → cond turn s →
      s.1[turn.position]? = some (.call op next) →
        A turn.position (next (step turn.env op s.2).1) (step turn.env op s.2).2)
    (hothers : ∀ turn s op next, Asserts A s → cond turn s →
      s.1[turn.position]? = some (.call op next) →
        ∀ i p, i ≠ turn.position → s.1[i]? = some p → A i p (step turn.env op s.2).2) :
    Asserts A ((machine step).after turns start) := by
  refine Machine.tracks_of_step (I := fun _ s => Asserts A s) hstart hmeets ?_
  intro _ s turn hs hcond
  unfold machine
  split
  · rename_i op next hturn
    intro i p hp
    by_cases hi : i = turn.position
    · subst hi
      have hlt : turn.position < s.1.length := (List.getElem?_eq_some_iff.mp hturn).1
      rw [List.getElem?_set_self hlt] at hp
      obtain rfl := Option.some.inj hp
      exact hown turn s op next hs hcond hturn
    · rw [List.getElem?_set_ne (Ne.symm hi)] at hp
      exact hothers turn s op next hs hcond hturn i p hi hp
  · exact hs

end Turns

end Pool

end Program
