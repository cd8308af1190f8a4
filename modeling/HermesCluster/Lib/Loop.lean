import HermesCluster.Lib.History
/-!
# Loops

A loop hands each iteration what the one before it returned. What an iteration
keeps, in the states a condition lets it start from, every number of iterations
keeps.
-/

namespace Program

universe u v w

variable {Op : Type u} {Res : Op → Type} {ε α α' γ : Type} {σ : Type v}

/-- The first `n` iterations of a loop. -/
def iterate (body : γ → Program Op Res ε γ) : Nat → γ → Program Op Res ε γ
  | 0, c => Pure.pure c
  | n + 1, c => body c >>= iterate body n

/-- What a run returns, with the state at its end, meets `Q`. -/
def After (step : (op : Op) → σ → Res op × σ) (p : Program Op Res ε α) (s : σ)
    (Q : α → σ → Prop) : Prop :=
  match p.run step s with
  | (.ok a, s') => Q a s'
  | (.error _, _) => True

/-- Each of the first `n` iterations meets a condition on where it starts. -/
def IterationsMeet (step : (op : Op) → σ → Res op × σ) (body : γ → Program Op Res ε γ)
    (cond : γ → σ → Prop) : Nat → γ → σ → Prop
  | 0, _, _ => True
  | n + 1, c, s => cond c s ∧ After step (body c) s (IterationsMeet step body cond n)

/-- Each step of a fold meets a condition on where it starts. -/
def StepsMeet {ι : Type} (step : (op : Op) → σ → Res op × σ) (f : γ → ι → Program Op Res ε γ)
    (cond : γ → ι → σ → Prop) : List ι → γ → σ → Prop
  | [], _, _ => True
  | x :: xs, c, s => cond c x s ∧ After step (f c x) s (StepsMeet step f cond xs)

section After

variable {step : (op : Op) → σ → Res op × σ} {p : Program Op Res ε α} {s : σ}
  {Q Q' : α → σ → Prop}

instance decidableAfter [∀ a s, Decidable (Q a s)] : Decidable (After step p s Q) := by
  unfold After
  split
  · infer_instance
  · infer_instance

instance decidableIterationsMeet {body : γ → Program Op Res ε γ} {cond : γ → σ → Prop}
    [∀ c s, Decidable (cond c s)] :
    (n : Nat) → (c : γ) → (s : σ) → Decidable (IterationsMeet step body cond n c s)
  | 0, _, _ => isTrue trivial
  | n + 1, c, s =>
      have : ∀ c s, Decidable (IterationsMeet step body cond n c s) := decidableIterationsMeet n
      inferInstanceAs (Decidable (cond c s ∧
        After step (body c) s (IterationsMeet step body cond n)))

instance decidableStepsMeet {ι : Type} {f : γ → ι → Program Op Res ε γ}
    {cond : γ → ι → σ → Prop} [∀ c x s, Decidable (cond c x s)] :
    (xs : List ι) → (c : γ) → (s : σ) → Decidable (StepsMeet step f cond xs c s)
  | [], _, _ => isTrue trivial
  | x :: xs, c, s =>
      have : ∀ c s, Decidable (StepsMeet step f cond xs c s) := decidableStepsMeet xs
      inferInstanceAs (Decidable (cond c x s ∧
        After step (f c x) s (StepsMeet step f cond xs)))

theorem after_of_ok {a : α} (h : After step p s Q) (hrun : (p.run step s).1 = .ok a) :
    Q a (p.run step s).2 := by
  unfold After at h
  generalize p.run step s = out at h hrun
  obtain ⟨r, s'⟩ := out
  cases hrun
  exact h

theorem after_iff : After step p s Q ↔ ∀ a, (p.run step s).1 = .ok a → Q a (p.run step s).2 := by
  refine ⟨fun h a hrun => after_of_ok h hrun, fun h => ?_⟩
  unfold After
  generalize p.run step s = out at h
  obtain ⟨r, s'⟩ := out
  cases r with
  | ok a => exact h a rfl
  | error e => trivial

theorem After.mono (h : After step p s Q) (hQ : ∀ a s', Q a s' → Q' a s') : After step p s Q' :=
  after_iff.mpr (fun _ hrun => hQ _ _ (after_of_ok h hrun))

theorem after_of_returns {R : α → Prop} (h : p.Returns R) : After step p s (fun a _ => R a) := by
  induction p generalizing s with
  | pure a => exact h
  | raise e => trivial
  | call op next ih => exact ih _ (h _)

/-- Conditions that agree wherever `Q` holds. -/
theorem After.congr {P P' : α → σ → Prop} (h : After step p s Q)
    (hQ : ∀ a s', Q a s' → (P a s' ↔ P' a s')) : After step p s P ↔ After step p s P' :=
  ⟨fun hP => after_iff.mpr fun _ hrun =>
      (hQ _ _ (after_of_ok h hrun)).mp (after_of_ok hP hrun),
    fun hP => after_iff.mpr fun _ hrun =>
      (hQ _ _ (after_of_ok h hrun)).mpr (after_of_ok hP hrun)⟩

theorem after_perform {op : Op} {f : Res op → Program Op Res ε α} :
    After step (perform op >>= f) s Q ↔ After step (f (step op s).1) (step op s).2 Q := Iff.rfl

theorem along_perform {P : σ → Op → σ → Prop} {op : Op} {f : Res op → Program Op Res ε α} :
    (perform op >>= f).Along step P s ↔
      P s op (step op s).2 ∧ (f (step op s).1).Along step P (step op s).2 := Iff.rfl

/-- What is reached by two parts is reached by the second from where the first ends. -/
theorem after_bind {f : α → Program Op Res ε α'} {Q : α' → σ → Prop} :
    After step (p >>= f) s Q ↔ After step p s (fun a s' => After step (f a) s' Q) := by
  induction p generalizing s with
  | pure a => exact Iff.rfl
  | raise e => exact Iff.rfl
  | call op next ih => exact ih _

theorem along_bind {P : σ → Op → σ → Prop} {f : α → Program Op Res ε α'} :
    (p >>= f).Along step P s ↔
      p.Along step P s ∧ After step p s (fun a s' => (f a).Along step P s') := by
  induction p generalizing s with
  | pure a => exact (Iff.of_eq (true_and _)).symm
  | raise e => exact ⟨fun _ => ⟨trivial, trivial⟩, fun _ => trivial⟩
  | call op next ih => exact (and_congr_right fun _ => ih _).trans and_assoc.symm

/-- A condition that a history does not enter into. -/
theorem after_noting {η : Type v} {note : σ → Op → σ → η → η} {s : σ × η} :
    After (noting step note) p s (fun a s' => Q a s'.1) ↔ After step p s.1 Q := by
  rw [after_iff, after_iff, (run_noting p s).1, (run_noting p s).2]

/-- From a fact under a contract to where a run that meets it ends. -/
theorem after_of_wp {β : Type w} {abs : σ → β} {C : (op : Op) → β → Res op → β → Prop}
    {A : β → Op → Prop} {J : α → β → Prop}
    (h : p.Wp C A (abs s) (fun r b => ∃ a, r = .ok a ∧ J a b))
    (hC : p.Along step (fun s op s' => C op (abs s) (step op s).1 (abs s')) s) :
    p.Along step (fun s op _ => A (abs s) op) s ∧ After step p s (fun a s' => J a (abs s')) := by
  obtain ⟨halong, a, hrun, hJ⟩ := along_of_wp_of_along h hC
  refine ⟨halong, after_iff.mpr (fun a' hrun' => ?_)⟩
  rw [hrun] at hrun'
  cases hrun'
  exact hJ

end After

section Iterations

variable {step : (op : Op) → σ → Res op × σ} {body : γ → Program Op Res ε γ}
  {cond : γ → σ → Prop}

/-- From an iteration to the loop, in an environment that keeps `C` as long as
it is asked. -/
theorem iterate_of_body {C P : σ → Op → σ → Prop} {I : γ → σ → Prop}
    (hbody : ∀ c s, I c s → cond c s → (body c).Along step C s →
      (body c).Along step P s ∧ After step (body c) s I)
    {n : Nat} {c : γ} {s : σ} (hI : I c s) (hcond : IterationsMeet step body cond n c s)
    (hC : (iterate body n c).Along step C s) :
    (iterate body n c).Along step P s ∧ After step (iterate body n c) s I := by
  induction n generalizing c s with
  | zero => exact ⟨trivial, hI⟩
  | succ n ih =>
      obtain ⟨hhere, hlater⟩ := along_bind.mp hC
      obtain ⟨halong, hafter⟩ := hbody c s hI hcond.1 hhere
      have hrest : After step (body c) s (fun c' s' =>
          (iterate body n c').Along step P s' ∧ After step (iterate body n c') s' I) := by
        refine after_iff.mpr (fun c' hrun => ?_)
        exact ih (after_of_ok hafter hrun) (after_of_ok hcond.2 hrun) (after_of_ok hlater hrun)
      exact ⟨along_bind.mpr ⟨halong, hrest.mono fun _ _ h => h.1⟩,
        after_bind.mpr (hrest.mono fun _ _ h => h.2)⟩

/-- Conditions that agree wherever an invariant of the loop holds. -/
theorem iterationsMeet_congr {cond' : γ → σ → Prop} {I : γ → σ → Prop}
    (hbody : ∀ c s, I c s → (cond c s ↔ cond' c s) ∧ After step (body c) s I) {n : Nat} {c : γ}
    {s : σ} (hI : I c s) :
    IterationsMeet step body cond n c s ↔ IterationsMeet step body cond' n c s := by
  induction n generalizing c s with
  | zero => exact Iff.rfl
  | succ n ih =>
      obtain ⟨hhere, hafter⟩ := hbody c s hI
      exact and_congr hhere (hafter.congr fun c' s' hI' => ih hI')

/-- Conditions that agree wherever an invariant of the fold holds, which may speak
of the items that are left. -/
theorem stepsMeet_congr {ι : Type} {f : γ → ι → Program Op Res ε γ}
    {cond cond' : γ → ι → σ → Prop} {I : List ι → γ → σ → Prop}
    (hstep : ∀ x xs c s, I (x :: xs) c s →
      (cond c x s ↔ cond' c x s) ∧ After step (f c x) s (I xs))
    {xs : List ι} {c : γ} {s : σ} (hI : I xs c s) :
    StepsMeet step f cond xs c s ↔ StepsMeet step f cond' xs c s := by
  induction xs generalizing c s with
  | nil => exact Iff.rfl
  | cons x xs ih =>
      obtain ⟨hhere, hafter⟩ := hstep x xs c s hI
      exact and_congr hhere (hafter.congr fun c' s' hI' => ih hI')

/-- A condition that a history does not enter into. -/
theorem iterationsMeet_noting {η : Type v} {note : σ → Op → σ → η → η} {n : Nat} {c : γ}
    {s : σ × η} :
    IterationsMeet (noting step note) body (fun c s => cond c s.1) n c s ↔
      IterationsMeet step body cond n c s.1 := by
  induction n generalizing c s with
  | zero => exact Iff.rfl
  | succ n ih =>
      have hrest : After (noting step note) (body c) s
            (IterationsMeet (noting step note) body (fun c s => cond c s.1) n) ↔
          After (noting step note) (body c) s
            (fun c' s' => IterationsMeet step body cond n c' s'.1) := by
        rw [after_iff, after_iff]
        exact forall_congr' fun c' => imp_congr_right fun _ => ih
      exact and_congr_right fun _ => hrest.trans after_noting

end Iterations

end Program
