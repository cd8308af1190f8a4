import Mathlib.Data.List.Basic
/-!
# Programs over an interface of operations

A program asks its environment to perform operations, one at a time, and may
stop with an exception. Its meaning is given by an interpreter of the
operations on a state type: `run` is the outcome, and `Along` speaks of every
operation the run performs, with the states before and after it.

`Wp` reasons about a program under a *contract* of the operations, a relation
between the state before, the reply and the state after. It demands that every
operation issued is permitted in the state it is issued in. `along_of_wp`
carries a `Wp` fact to any interpreter that keeps the contract, through an
abstraction of its states; runs of many programs are treated in the last
section.
-/

universe u v w

/-- A program over the operations `Op` with replies `Res`, exceptions `ε` and
result `α`. -/
inductive Program (Op : Type u) (Res : Op → Type) (ε : Type) (α : Type) where
  | pure (a : α)
  | raise (e : ε)
  | call (op : Op) (next : Res op → Program Op Res ε α)

namespace Program

variable {Op : Type u} {Res : Op → Type} {ε α α' : Type}

/-- Sequencing; an exception skips what follows. -/
def bind : Program Op Res ε α → (α → Program Op Res ε α') → Program Op Res ε α'
  | .pure a, f => f a
  | .raise e, _ => .raise e
  | .call op next, f => .call op (fun r => (next r).bind f)

instance : Monad (Program Op Res ε) where
  pure := .pure
  bind := .bind

/-- Perform one operation and return its reply. -/
def perform (op : Op) : Program Op Res ε (Res op) :=
  .call op .pure

@[simp] theorem pure_bind (a : α) (f : α → Program Op Res ε α') :
    (Pure.pure a : Program Op Res ε α) >>= f = f a := rfl

@[simp] theorem perform_bind (op : Op) (f : Res op → Program Op Res ε α') :
    perform op >>= f = call op f := rfl

theorem bind_assoc {α'' : Type} (p : Program Op Res ε α)
    (f : α → Program Op Res ε α') (g : α' → Program Op Res ε α'') :
    p >>= f >>= g = p >>= fun a => f a >>= g := by
  induction p with
  | pure a => rfl
  | raise e => rfl
  | call op next ih => exact congrArg (call op) (funext ih)

theorem bind_pure (p : Program Op Res ε α) : p >>= Pure.pure = p := by
  induction p with
  | pure a => rfl
  | raise e => rfl
  | call op next ih => exact congrArg (call op) (funext ih)

instance : LawfulMonad (Program Op Res ε) :=
  LawfulMonad.mk' _ bind_pure (fun _ _ => rfl) (fun p f g => bind_assoc p f g)

/-! ## Runs under an interpreter -/

section Run

variable {σ : Type v}

/-- The outcome and the last state of a run. -/
def run (step : (op : Op) → σ → Res op × σ) :
    Program Op Res ε α → σ → Except ε α × σ
  | .pure a, s => (.ok a, s)
  | .raise e, s => (.error e, s)
  | .call op next, s => (next (step op s).1).run step (step op s).2

/-- A run of two parts, the first of which returns. -/
theorem run_bind_of_ok {step : (op : Op) → σ → Res op × σ} {p : Program Op Res ε α}
    {f : α → Program Op Res ε α'} {s : σ} {a : α} (h : (p.run step s).1 = .ok a) :
    (p >>= f).run step s = (f a).run step (p.run step s).2 := by
  induction p generalizing s with
  | pure b =>
      cases h
      rfl
  | raise e => cases h
  | call op next ih => exact ih _ h

theorem run_bind_of_eq {step : (op : Op) → σ → Res op × σ} {p : Program Op Res ε α}
    {f : α → Program Op Res ε α'} {s s' : σ} {a : α} (h : p.run step s = (.ok a, s')) :
    (p >>= f).run step s = (f a).run step s' := by
  rw [run_bind_of_ok (congrArg Prod.fst h), h]

/-- A run of two parts that returns. -/
theorem exists_of_run_bind_ok {step : (op : Op) → σ → Res op × σ} {p : Program Op Res ε α}
    {f : α → Program Op Res ε α'} {s : σ} {b : α'} (h : ((p >>= f).run step s).1 = .ok b) :
    ∃ a, (p.run step s).1 = .ok a ∧ ((f a).run step (p.run step s).2).1 = .ok b := by
  induction p generalizing s with
  | pure a => exact ⟨a, rfl, h⟩
  | raise e => cases h
  | call op next ih => exact ih _ h

/-- What a run returns is left out. -/
theorem run_discard (step : (op : Op) → σ → Res op × σ) (p : Program Op Res ε α) (a : α')
    (s : σ) : ((p >>= fun _ => Pure.pure a).run step s).2 = (p.run step s).2 := by
  induction p generalizing s with
  | pure b => rfl
  | raise e => rfl
  | call op next ih => exact ih _ _

theorem isOk_run_discard (step : (op : Op) → σ → Res op × σ) (p : Program Op Res ε α)
    (a : α') (s : σ) :
    ((p >>= fun _ => Pure.pure a).run step s).1.isOk = (p.run step s).1.isOk := by
  induction p generalizing s with
  | pure b => rfl
  | raise e => rfl
  | call op next ih => exact ih _ _

/-- `P` holds of every operation the run performs, with the state before it and
the state after it. -/
def Along (step : (op : Op) → σ → Res op × σ) (P : σ → Op → σ → Prop) :
    Program Op Res ε α → σ → Prop
  | .pure _, _ => True
  | .raise _, _ => True
  | .call op next, s =>
      P s op (step op s).2 ∧ (next (step op s).1).Along step P (step op s).2

instance decidableAlong (step : (op : Op) → σ → Res op × σ) (P : σ → Op → σ → Prop)
    [∀ s op s', Decidable (P s op s')] :
    (p : Program Op Res ε α) → (s : σ) → Decidable (p.Along step P s)
  | .pure _, _ => isTrue trivial
  | .raise _, _ => isTrue trivial
  | .call op next, s =>
      have := decidableAlong step P (next (step op s).1) (step op s).2
      inferInstanceAs (Decidable (P s op (step op s).2 ∧
        (next (step op s).1).Along step P (step op s).2))

theorem Along.mono {step : (op : Op) → σ → Res op × σ} {P P' : σ → Op → σ → Prop}
    {p : Program Op Res ε α} {s : σ} (h : p.Along step P s)
    (hP : ∀ s op s', P s op s' → P' s op s') : p.Along step P' s := by
  induction p generalizing s with
  | pure a => trivial
  | raise e => trivial
  | call op next ih => exact ⟨hP _ _ _ h.1, ih _ h.2⟩

/-- Along a run, `P` holds of every operation, and `I` holds at its end. -/
def Keeps (step : (op : Op) → σ → Res op × σ) (P : σ → Op → σ → Prop) (I : σ → Prop)
    (p : Program Op Res ε α) (s : σ) : Prop :=
  p.Along step P s ∧ I (p.run step s).2

variable {step : (op : Op) → σ → Res op × σ} {P : σ → Op → σ → Prop} {I : σ → Prop}

/-- What every operation keeps holds at the end of a run. -/
theorem run_of_step (p : Program Op Res ε α) {s : σ} (hs : I s)
    (hstep : ∀ s op, I s → I (step op s).2) : I (p.run step s).2 := by
  induction p generalizing s with
  | pure a => exact hs
  | raise e => exact hs
  | call op next ih => exact ih _ (hstep s op hs)

/-- From operations to runs: an invariant that every permitted operation keeps,
and a fact of those operations. -/
theorem keeps_of_along {A : σ → Op → Prop} {p : Program Op Res ε α} {s : σ}
    (h : p.Along step (fun s op _ => A s op) s) (hs : I s)
    (hstep : ∀ s op, I s → A s op → P s op (step op s).2 ∧ I (step op s).2) :
    p.Keeps step P I s := by
  induction p generalizing s with
  | pure a => exact ⟨trivial, hs⟩
  | raise e => exact ⟨trivial, hs⟩
  | call op next ih =>
      obtain ⟨hop, hnext⟩ := hstep s op hs h.1
      obtain ⟨halong, hend⟩ := ih _ h.2 hnext
      exact ⟨⟨hop, halong⟩, hend⟩

theorem keeps_pure {a : α} {s : σ} (hs : I s) :
    (Pure.pure a : Program Op Res ε α).Keeps step P I s :=
  ⟨trivial, hs⟩

theorem keeps_call {op : Op} {next : Res op → Program Op Res ε α} {s : σ}
    (hop : P s op (step op s).2) (h : (next (step op s).1).Keeps step P I (step op s).2) :
    (call op next).Keeps step P I s :=
  ⟨⟨hop, h.1⟩, h.2⟩

theorem keeps_perform {op : Op} {f : Res op → Program Op Res ε α} {s : σ}
    (hop : P s op (step op s).2) (h : (f (step op s).1).Keeps step P I (step op s).2) :
    (perform op >>= f).Keeps step P I s :=
  keeps_call hop h

theorem keeps_bind {p : Program Op Res ε α} {f : α → Program Op Res ε α'} {s : σ}
    (hp : p.Keeps step P I s)
    (hf : ∀ a, (p.run step s).1 = .ok a → (f a).Keeps step P I (p.run step s).2) :
    (p >>= f).Keeps step P I s := by
  induction p generalizing s with
  | pure a => exact hf a rfl
  | raise e => exact ⟨trivial, hp.2⟩
  | call op next ih =>
      obtain ⟨⟨hop, halong⟩, hend⟩ := hp
      exact keeps_call hop (ih _ ⟨halong, hend⟩ hf)

end Run

/-! ## Reasoning under a contract -/

section Wp

variable {β : Type w}

/-- Under the contract `C`, the program issues only operations that `A` permits
and ends with `Q`. -/
def Wp (C : (op : Op) → β → Res op → β → Prop) (A : β → Op → Prop) :
    Program Op Res ε α → β → (Except ε α → β → Prop) → Prop
  | .pure a, b, Q => Q (.ok a) b
  | .raise e, b, Q => Q (.error e) b
  | .call op next, b, Q =>
      A b op ∧ ∀ r b', C op b r b' → (next r).Wp C A b' Q

variable {C : (op : Op) → β → Res op → β → Prop} {A : β → Op → Prop}
  {Q Q' : Except ε α → β → Prop} {b : β}

theorem wp_perform {op : Op} {f : Res op → Program Op Res ε α} :
    (perform op >>= f).Wp C A b Q ↔ A b op ∧ ∀ r b', C op b r b' → (f r).Wp C A b' Q :=
  Iff.rfl

theorem Wp.mono {p : Program Op Res ε α} (h : p.Wp C A b Q)
    (hQ : ∀ r b', Q r b' → Q' r b') : p.Wp C A b Q' := by
  induction p generalizing b with
  | pure a => exact hQ _ _ h
  | raise e => exact hQ _ _ h
  | call op next ih => exact ⟨h.1, fun r b' hC => ih r (h.2 r b' hC)⟩

theorem Wp.mono_permit (A' : β → Op → Prop) {p : Program Op Res ε α} (h : p.Wp C A b Q)
    (hA : ∀ b op, A b op → A' b op) : p.Wp C A' b Q := by
  induction p generalizing b with
  | pure a => exact h
  | raise e => exact h
  | call op next ih => exact ⟨hA b op h.1, fun r b' hC => ih r (h.2 r b' hC)⟩

/-- What a program may assume after its first part: the postcondition passed
to the continuation, and an exception passed on. -/
theorem wp_bind {p : Program Op Res ε α} {f : α → Program Op Res ε α'}
    {Q : Except ε α' → β → Prop} :
    (p >>= f).Wp C A b Q ↔
      p.Wp C A b (fun r b' =>
        match r with
        | .ok a => (f a).Wp C A b' Q
        | .error e => Q (.error e) b') := by
  induction p generalizing b with
  | pure a => rfl
  | raise e => rfl
  | call op next ih =>
      exact and_congr Iff.rfl
        (forall_congr' fun r => forall_congr' fun b' => imp_congr_right fun _ => ih r)

/-- Sequencing through an intermediate assertion, for a first part that does
not raise. -/
theorem Wp.seq {p : Program Op Res ε α} {f : α → Program Op Res ε α'}
    {I : α → β → Prop} {Q : Except ε α' → β → Prop}
    (hp : p.Wp C A b (fun r b' => ∃ a, r = .ok a ∧ I a b'))
    (hf : ∀ a b', I a b' → (f a).Wp C A b' Q) : (p >>= f).Wp C A b Q := by
  rw [wp_bind]
  refine hp.mono ?_
  rintro _ b' ⟨a, rfl, hI⟩
  exact hf a b' hI

/-- What a program returns is left out. -/
theorem Wp.discard {p : Program Op Res ε α} (h : p.Wp C A b (fun _ _ => True)) {a : α'} :
    (p >>= fun _ => Pure.pure a).Wp C A b (fun _ _ => True) := by
  rw [wp_bind]
  refine h.mono (fun r _ _ => ?_)
  cases r with
  | ok => trivial
  | error => trivial

/-- The loop rule: an invariant kept by each iteration. -/
theorem wp_forM {ι : Type} {I : β → Prop} (xs : List ι)
    (f : ι → Program Op Res ε PUnit)
    (hbody : ∀ x ∈ xs, ∀ b, I b → (f x).Wp C A b (fun r b' => r = .ok ⟨⟩ ∧ I b'))
    (hI : I b) : (xs.forM f).Wp C A b (fun r b' => r = .ok ⟨⟩ ∧ I b') := by
  induction xs generalizing b with
  | nil => exact ⟨rfl, hI⟩
  | cons x xs ih =>
      change (f x >>= fun _ => xs.forM f).Wp C A b _
      refine Wp.seq (I := fun _ b' => I b')
        ((hbody x List.mem_cons_self b hI).mono ?_) (fun _ b' hb' => ?_)
      · rintro r b' ⟨rfl, hb'⟩
        exact ⟨⟨⟩, rfl, hb'⟩
      · exact ih (fun y hy => hbody y (List.mem_cons_of_mem x hy)) hb'

/-- The loop rule with an accumulator, which the invariant may speak of. -/
theorem wp_foldlM {ι γ : Type} {I : γ → β → Prop} (xs : List ι)
    (f : γ → ι → Program Op Res ε γ)
    (hbody : ∀ x ∈ xs, ∀ acc b, I acc b →
      (f acc x).Wp C A b (fun r b' => ∃ acc', r = .ok acc' ∧ I acc' b'))
    (acc : γ) (hI : I acc b) :
    (xs.foldlM f acc).Wp C A b (fun r b' => ∃ acc', r = .ok acc' ∧ I acc' b') := by
  induction xs generalizing acc b with
  | nil => exact ⟨acc, rfl, hI⟩
  | cons x xs ih =>
      rw [List.foldlM_cons]
      refine Wp.seq (I := I) (hbody x List.mem_cons_self acc b hI) (fun acc' b' hI' => ?_)
      exact ih (fun y hy => hbody y (List.mem_cons_of_mem x hy)) acc' hI'

/-- The loop rule for a loop that does something to each element, which later
iterations do not undo. -/
theorem wp_foldlM_each {ι γ : Type} {I : γ → β → Prop} {D : ι → β → Prop} (xs : List ι)
    (f : γ → ι → Program Op Res ε γ)
    (hbody : ∀ x ∈ xs, ∀ acc b, I acc b →
      (f acc x).Wp C A b (fun r b' => ∃ acc', r = .ok acc' ∧ I acc' b' ∧ D x b' ∧
        ∀ y, D y b → D y b'))
    (acc : γ) (hI : I acc b) :
    (xs.foldlM f acc).Wp C A b (fun r b' => ∃ acc', r = .ok acc' ∧ I acc' b' ∧
      (∀ x ∈ xs, D x b') ∧ ∀ y, D y b → D y b') := by
  induction xs generalizing acc b with
  | nil => exact ⟨acc, rfl, hI, List.forall_mem_nil _, fun _ h => h⟩
  | cons x xs ih =>
      rw [List.foldlM_cons]
      refine Wp.seq (I := fun acc' b' => I acc' b' ∧ D x b' ∧ ∀ y, D y b → D y b')
        (hbody x List.mem_cons_self acc b hI) ?_
      rintro acc' b' ⟨hI', hx, hkeep⟩
      refine (ih (fun y hy => hbody y (List.mem_cons_of_mem x hy)) acc' hI').mono ?_
      rintro r b'' ⟨acc'', hr, hI'', hrest, hkeep'⟩
      refine ⟨acc'', hr, hI'', ?_, fun y hy => hkeep' y (hkeep y hy)⟩
      exact List.forall_mem_cons.mpr ⟨hkeep' x hx, hrest⟩

/-- The loop rule for distinct elements: an iteration for one of them leaves the
others as ready as they were. -/
theorem wp_foldlM_distinct {ι γ κ : Type} {I : γ → β → Prop} {D : γ → ι → Prop} (k : ι → κ)
    (xs : List ι) (f : γ → ι → Program Op Res ε γ)
    (hbody : ∀ x acc b, I acc b → D acc x →
      (f acc x).Wp C A b (fun r b' => ∃ acc', r = .ok acc' ∧ I acc' b' ∧
        ∀ y, k y ≠ k x → D acc y → D acc' y))
    (hnodup : (xs.map k).Nodup) (acc : γ) (hI : I acc b) (hready : ∀ x ∈ xs, D acc x) :
    (xs.foldlM f acc).Wp C A b (fun r b' => ∃ acc', r = .ok acc' ∧ I acc' b' ∧
      ∀ y, k y ∉ xs.map k → D acc y → D acc' y) := by
  induction xs generalizing acc b with
  | nil => exact ⟨acc, rfl, hI, fun _ _ h => h⟩
  | cons x xs ih =>
      rw [List.map_cons, List.nodup_cons] at hnodup
      rw [List.forall_mem_cons] at hready
      rw [List.foldlM_cons]
      refine Wp.seq (I := fun acc' b' => I acc' b' ∧ ∀ y, k y ≠ k x → D acc y → D acc' y)
        (hbody x acc b hI hready.1) ?_
      rintro acc' b' ⟨hI', hothers⟩
      have hrest : ∀ y ∈ xs, D acc' y := by
        intro y hy
        refine hothers y (fun hkey => hnodup.1 ?_) (hready.2 y hy)
        exact hkey ▸ List.mem_map_of_mem hy
      refine (ih hnodup.2 acc' hI' hrest).mono ?_
      rintro r b'' ⟨acc'', hr, hI'', hothers'⟩
      refine ⟨acc'', hr, hI'', fun y hy hD => ?_⟩
      rw [List.map_cons, List.mem_cons, not_or] at hy
      exact hothers' y hy.2 (hothers y hy.1 hD)

/-- An interpreter on `σ` keeps the contract through the abstraction `abs`. -/
def Implements {σ : Type v} (step : (op : Op) → σ → Res op × σ) (abs : σ → β)
    (C : (op : Op) → β → Res op → β → Prop) : Prop :=
  ∀ op s, C op (abs s) (step op s).1 (abs (step op s).2)

/-- What an interpreter does at each operation, it does along a run. -/
theorem along_of_forall {σ : Type v} {step : (op : Op) → σ → Res op × σ} {P : σ → Op → σ → Prop}
    (h : ∀ op s, P s op (step op s).2) (p : Program Op Res ε α) (s : σ) : p.Along step P s := by
  induction p generalizing s with
  | pure a => trivial
  | raise e => trivial
  | call op next ih => exact ⟨h op s, ih _ _⟩

theorem along_of_implements {σ : Type v} {step : (op : Op) → σ → Res op × σ} {abs : σ → β}
    (h : Implements step abs C) (p : Program Op Res ε α) (s : σ) :
    p.Along step (fun s op s' => C op (abs s) (step op s).1 (abs s')) s :=
  along_of_forall (P := fun s op s' => C op (abs s) (step op s).1 (abs s')) h p s

/-- A `Wp` fact holds of a run that meets the contract at each of its operations: every
operation performed is permitted, and the postcondition holds of the outcome. -/
theorem along_of_wp_of_along {σ : Type v} {step : (op : Op) → σ → Res op × σ} {abs : σ → β}
    {p : Program Op Res ε α} {s : σ} (h : p.Wp C A (abs s) Q)
    (hC : p.Along step (fun s op s' => C op (abs s) (step op s).1 (abs s')) s) :
    p.Along step (fun s op _ => A (abs s) op) s ∧
      Q (p.run step s).1 (abs (p.run step s).2) := by
  induction p generalizing s with
  | pure a => exact ⟨trivial, h⟩
  | raise e => exact ⟨trivial, h⟩
  | call op next ih =>
      have hnext := h.2 _ _ hC.1
      exact ⟨⟨h.1, (ih _ hnext hC.2).1⟩, (ih _ hnext hC.2).2⟩

/-- The same of the run of any interpreter that keeps the contract. -/
theorem along_of_wp {σ : Type v} {step : (op : Op) → σ → Res op × σ} {abs : σ → β}
    (himpl : Implements step abs C) {p : Program Op Res ε α} {s : σ}
    (h : p.Wp C A (abs s) Q) :
    p.Along step (fun s op _ => A (abs s) op) s ∧
      Q (p.run step s).1 (abs (p.run step s).2) :=
  along_of_wp_of_along h (along_of_implements himpl p s)

end Wp

/-! ## Programs that return -/

section Meets

variable {β : Type w} {C : (op : Op) → β → Res op → β → Prop} {A : β → Op → Prop} {b : β}

/-- Under the contract the program issues only what `A` permits, and returns
with `Q` of what it returns. -/
def Meets (C : (op : Op) → β → Res op → β → Prop) (A : β → Op → Prop) (p : Program Op Res ε α)
    (b : β) (Q : α → β → Prop) : Prop :=
  p.Wp C A b (fun r b' => ∃ a, r = .ok a ∧ Q a b')

variable {Q Q' : α → β → Prop}

theorem meets_pure {a : α} (h : Q a b) : (Pure.pure a : Program Op Res ε α).Meets C A b Q :=
  ⟨a, rfl, h⟩

theorem meets_perform {op : Op} {f : Res op → Program Op Res ε α} (hop : A b op)
    (h : ∀ r b', C op b r b' → (f r).Meets C A b' Q) : (perform op >>= f).Meets C A b Q :=
  ⟨hop, h⟩

theorem meets_bind {p : Program Op Res ε α} {f : α → Program Op Res ε α'} {I : α → β → Prop}
    {Q : α' → β → Prop} (hp : p.Meets C A b I) (hf : ∀ a b', I a b' → (f a).Meets C A b' Q) :
    (p >>= f).Meets C A b Q :=
  Wp.seq hp hf

theorem Meets.mono {p : Program Op Res ε α} (h : p.Meets C A b Q)
    (hQ : ∀ a b', Q a b' → Q' a b') : p.Meets C A b Q' :=
  Wp.mono h (fun _ _ ⟨a, hr, ha⟩ => ⟨a, hr, hQ a _ ha⟩)

/-- What every reply keeps is kept as well. -/
theorem Meets.keeping {P : β → Prop} {p : Program Op Res ε α} (h : p.Meets C A b Q) (hP : P b)
    (hstep : ∀ op b r b', C op b r b' → P b → P b') :
    p.Meets C A b (fun a b' => Q a b' ∧ P b') := by
  induction p generalizing b with
  | pure a =>
      obtain ⟨a', ha, hQ⟩ := h
      exact ⟨a', ha, hQ, hP⟩
  | raise e =>
      obtain ⟨a', ha, -⟩ := h
      cases ha
  | call op next ih => exact ⟨h.1, fun r b' hC => ih r (h.2 r b' hC) (hstep op b r b' hC hP)⟩

/-- The loop rule, whose assertion may speak of the elements that remain. -/
theorem meets_foldlM {ι γ : Type} {I : List ι → γ → β → Prop} (f : γ → ι → Program Op Res ε γ)
    (hbody : ∀ x rest acc b, I (x :: rest) acc b → (f acc x).Meets C A b (I rest))
    {xs : List ι} {acc : γ} (h : I xs acc b) : (xs.foldlM f acc).Meets C A b (I []) := by
  induction xs generalizing acc b with
  | nil => exact meets_pure h
  | cons x xs ih =>
      rw [List.foldlM_cons]
      exact meets_bind (hbody x xs acc b h) (fun _ _ h' => ih h')

end Meets

/-! ## What a program can ask for -/

section Only

/-- Whatever the replies, the program performs only operations in `S`. -/
def Only (S : Op → Prop) : Program Op Res ε α → Prop
  | .pure _ => True
  | .raise _ => True
  | .call op next => S op ∧ ∀ r, (next r).Only S

variable {S S' : Op → Prop}

theorem only_pure (a : α) : (Pure.pure a : Program Op Res ε α).Only S := trivial

theorem Only.mono {p : Program Op Res ε α} (h : p.Only S) (hS : ∀ op, S op → S' op) :
    p.Only S' := by
  induction p with
  | pure a => trivial
  | raise e => trivial
  | call op next ih => exact ⟨hS op h.1, fun r => ih r (h.2 r)⟩

theorem only_perform {op : Op} {f : Res op → Program Op Res ε α} (hop : S op)
    (h : ∀ r, (f r).Only S) : (perform op >>= f).Only S :=
  ⟨hop, h⟩

theorem only_bind {p : Program Op Res ε α} {f : α → Program Op Res ε α'} (hp : p.Only S)
    (hf : ∀ a, (f a).Only S) : (p >>= f).Only S := by
  induction p with
  | pure a => exact hf a
  | raise e => trivial
  | call op next ih => exact ⟨hp.1, fun r => ih r (hp.2 r)⟩

theorem only_ite {c : Prop} [Decidable c] {p q : Program Op Res ε α} (hp : p.Only S)
    (hq : q.Only S) : (if c then p else q).Only S := by
  split
  · exact hp
  · exact hq

theorem only_forM {ι : Type} (xs : List ι) {f : ι → Program Op Res ε PUnit}
    (h : ∀ x, (f x).Only S) : (xs.forM f).Only S := by
  induction xs with
  | nil => trivial
  | cons x xs ih => exact only_bind (h x) (fun _ => ih)

theorem only_foldlM_of_mem {ι γ : Type} (xs : List ι) {f : γ → ι → Program Op Res ε γ}
    (h : ∀ acc, ∀ x ∈ xs, (f acc x).Only S) (acc : γ) : (xs.foldlM f acc).Only S := by
  induction xs generalizing acc with
  | nil => trivial
  | cons x xs ih =>
      rw [List.foldlM_cons]
      refine only_bind (h acc x List.mem_cons_self) (fun acc' => ?_)
      exact ih (fun acc y hy => h acc y (List.mem_cons_of_mem x hy)) acc'

theorem only_foldlM {ι γ : Type} (xs : List ι) {f : γ → ι → Program Op Res ε γ}
    (h : ∀ acc x, (f acc x).Only S) (acc : γ) : (xs.foldlM f acc).Only S :=
  only_foldlM_of_mem xs (fun acc x _ => h acc x) acc

/-- What a program can ask for is permitted, if that is. -/
theorem Only.wp {β : Type w} {C : (op : Op) → β → Res op → β → Prop} {A : β → Op → Prop}
    {p : Program Op Res ε α} {b : β} (h : p.Only S) (hA : ∀ b op, S op → A b op) :
    p.Wp C A b (fun _ _ => True) := by
  induction p generalizing b with
  | pure a => trivial
  | raise e => trivial
  | call op next ih => exact ⟨hA b op h.1, fun r b' _ => ih r (h.2 r)⟩

/-- What each permitted operation does to the state, a run of them does. -/
theorem Only.wp_of_step {β : Type w} {C : (op : Op) → β → Res op → β → Prop}
    {A : β → Op → Prop} {R : β → β → Prop} {p : Program Op Res ε α} {b : β} (h : p.Only S)
    (hA : ∀ b op, S op → A b op) (hrefl : ∀ b, R b b)
    (htrans : ∀ {b b' b''}, R b b' → R b' b'' → R b b'')
    (hstep : ∀ {op b r b'}, S op → C op b r b' → R b b') :
    p.Wp C A b (fun _ b' => R b b') := by
  induction p generalizing b with
  | pure a => exact hrefl b
  | raise e => exact hrefl b
  | call op next ih =>
      refine ⟨hA b op h.1, fun r b' hC => ?_⟩
      exact (ih r (h.2 r)).mono (fun _ _ hrest => htrans (hstep h.1 hC) hrest)

/-- Whatever the replies, what the program returns meets `Q`. -/
def Returns (Q : α → Prop) : Program Op Res ε α → Prop
  | .pure a => Q a
  | .raise _ => True
  | .call _ next => ∀ r, (next r).Returns Q

theorem returns_pure {Q : α → Prop} {a : α} (h : Q a) :
    (Pure.pure a : Program Op Res ε α).Returns Q := h

theorem returns_true (p : Program Op Res ε α) : p.Returns fun _ => True := by
  induction p with
  | pure a => trivial
  | raise e => trivial
  | call op next ih => exact ih

theorem Returns.mono {Q Q' : α → Prop} {p : Program Op Res ε α} (h : p.Returns Q)
    (hQ : ∀ a, Q a → Q' a) : p.Returns Q' := by
  induction p with
  | pure a => exact hQ a h
  | raise e => trivial
  | call op next ih => exact fun r => ih r (h r)

theorem returns_and {Q Q' : α → Prop} {p : Program Op Res ε α} (h : p.Returns Q)
    (h' : p.Returns Q') : p.Returns (fun a => Q a ∧ Q' a) := by
  induction p with
  | pure a => exact ⟨h, h'⟩
  | raise e => trivial
  | call op next ih => exact fun r => ih r (h r) (h' r)

theorem returns_perform {op : Op} {f : Res op → Program Op Res ε α} {Q : α → Prop}
    (h : ∀ r, (f r).Returns Q) : (perform op >>= f).Returns Q := h

theorem returns_bind {p : Program Op Res ε α} {f : α → Program Op Res ε α'} {I : α → Prop}
    {Q : α' → Prop} (hp : p.Returns I) (hf : ∀ a, I a → (f a).Returns Q) :
    (p >>= f).Returns Q := by
  induction p with
  | pure a => exact hf a hp
  | raise e => trivial
  | call op next ih => exact fun r => ih r (hp r)

theorem returns_foldlM {ι γ : Type} {I : γ → Prop} (xs : List ι)
    (f : γ → ι → Program Op Res ε γ) (hbody : ∀ acc x, I acc → (f acc x).Returns I) {acc : γ}
    (hI : I acc) : (xs.foldlM f acc).Returns I := by
  induction xs generalizing acc with
  | nil => exact hI
  | cons x xs ih =>
      rw [List.foldlM_cons]
      exact returns_bind (hbody acc x hI) (fun acc' h' => ih h')

/-- What a program returns, with an assertion that each of its operations keeps. -/
theorem Only.wp_of_returns {β : Type w} {C : (op : Op) → β → Res op → β → Prop}
    {A : β → Op → Prop} {I : β → Prop} {Q : α → Prop} {p : Program Op Res ε α} {b : β}
    (h : p.Only S) (hQ : p.Returns Q) (hI : I b) (hA : ∀ {b op}, I b → S op → A b op)
    (hstep : ∀ {op b r b'}, I b → S op → C op b r b' → I b') :
    p.Wp C A b (fun r b' => (∀ a, r = .ok a → Q a) ∧ I b') := by
  induction p generalizing b with
  | pure a =>
      refine ⟨fun a' ha => ?_, hI⟩
      cases ha
      exact hQ
  | raise e =>
      refine ⟨fun a ha => ?_, hI⟩
      cases ha
  | call op next ih => exact ⟨hA hI h.1, fun r b' hC => ih r (h.2 r) (hQ r) (hstep hI h.1 hC)⟩

variable {σ : Type v} {step : (op : Op) → σ → Res op × σ} {P P' : σ → Op → σ → Prop}

theorem along_of_only {p : Program Op Res ε α} {s : σ} (h : p.Only S) :
    p.Along step (fun _ op _ => S op) s := by
  induction p generalizing s with
  | pure a => trivial
  | raise e => trivial
  | call op next ih => exact ⟨h.1, ih _ (h.2 _)⟩

theorem along_and {p : Program Op Res ε α} {s : σ} (h : p.Along step P s)
    (h' : p.Along step P' s) : p.Along step (fun s op s' => P s op s' ∧ P' s op s') s := by
  induction p generalizing s with
  | pure a => trivial
  | raise e => trivial
  | call op next ih => exact ⟨⟨h.1, h'.1⟩, ih _ h.2 h'.2⟩

end Only

/-! ## Clock readings -/

section Clock

/-- A state with the clock readings still to come. -/
structure Timed (σ : Type v) where
  state : σ
  clock : Nat → Nat

variable {σ : Type v}

/-- Each operation is performed at the next reading. -/
def timed (step : Nat → (op : Op) → σ → Res op × σ) (op : Op) (w : Timed σ) :
    Res op × Timed σ :=
  ((step (w.clock 0) op w.state).1,
    ⟨(step (w.clock 0) op w.state).2, fun i => w.clock (i + 1)⟩)

/-- Every reading to come of `clock'` is one to come of `clock`. -/
def Later (clock clock' : Nat → Nat) : Prop :=
  ∃ j, ∀ i, clock' i = clock (i + j)

theorem Later.refl (clock : Nat → Nat) : Later clock clock :=
  ⟨0, fun _ => rfl⟩

theorem Later.next {clock clock' : Nat → Nat} (h : Later clock clock') :
    Later clock (fun i => clock' (i + 1)) := by
  obtain ⟨j, hj⟩ := h
  refine ⟨j + 1, fun i => ?_⟩
  have hnext := hj (i + 1)
  rwa [Nat.add_assoc, Nat.add_comm 1 j] at hnext

end Clock

/-! ## Runs of many programs -/

section Runs

variable {σ : Type v} {Call : Type w}

/-- The state after a list of calls, each run to its end; `enter` is what the
beginning of a call does to the state. -/
def runAll (step : (op : Op) → σ → Res op × σ) (enter : Call → σ → σ)
    (prog : Call → Program Op Res ε α) : List Call → σ → σ
  | [], s => s
  | c :: cs, s => runAll step enter prog cs ((prog c).run step (enter c s)).2

/-- `P` holds of every operation that any of the calls performs. -/
def AlongAll (step : (op : Op) → σ → Res op × σ) (enter : Call → σ → σ)
    (P : σ → Op → σ → Prop) (prog : Call → Program Op Res ε α) : List Call → σ → Prop
  | [], _ => True
  | c :: cs, s =>
      (prog c).Along step P (enter c s) ∧
        AlongAll step enter P prog cs ((prog c).run step (enter c s)).2

instance decidableAlongAll (step : (op : Op) → σ → Res op × σ) (enter : Call → σ → σ)
    (P : σ → Op → σ → Prop) [∀ s op s', Decidable (P s op s')]
    (prog : Call → Program Op Res ε α) :
    (cs : List Call) → (s : σ) → Decidable (AlongAll step enter P prog cs s)
  | [], _ => isTrue trivial
  | c :: cs, s =>
      have := decidableAlongAll step enter P prog cs ((prog c).run step (enter c s)).2
      inferInstanceAs (Decidable ((prog c).Along step P (enter c s) ∧
        AlongAll step enter P prog cs ((prog c).run step (enter c s)).2))

/-- Every call meets a condition on the state it starts in. -/
def CallsMeet (step : (op : Op) → σ → Res op × σ) (enter : Call → σ → σ)
    (prog : Call → Program Op Res ε α) (cond : Call → σ → Prop) : List Call → σ → Prop
  | [], _ => True
  | c :: cs, s =>
      cond c (enter c s) ∧
        CallsMeet step enter prog cond cs ((prog c).run step (enter c s)).2

theorem AlongAll.mono {step : (op : Op) → σ → Res op × σ} {enter : Call → σ → σ}
    {P P' : σ → Op → σ → Prop} {prog : Call → Program Op Res ε α} {cs : List Call} {s : σ}
    (h : AlongAll step enter P prog cs s) (hP : ∀ s op s', P s op s' → P' s op s') :
    AlongAll step enter P' prog cs s := by
  induction cs generalizing s with
  | nil => trivial
  | cons c cs ih => exact ⟨h.1.mono hP, ih h.2⟩

/-- The calls of which `P` holds in the state they start in. -/
def countCalls (step : (op : Op) → σ → Res op × σ) (enter : Call → σ → σ)
    (prog : Call → Program Op Res ε α) (P : Call → σ → Prop) [∀ c s, Decidable (P c s)] :
    List Call → σ → Nat
  | [], _ => 0
  | c :: cs, s =>
      (if P c (enter c s) then 1 else 0) +
        countCalls step enter prog P cs ((prog c).run step (enter c s)).2

/-- A measure that goes up by one at the calls that are counted. -/
theorem measure_of_calls {step : (op : Op) → σ → Res op × σ} {enter : Call → σ → σ}
    {prog : Call → Program Op Res ε α} {cond P : Call → σ → Prop} [∀ c s, Decidable (P c s)]
    {m : σ → Nat} (henter : ∀ c s, m (enter c s) = m s)
    (hcall : ∀ c s, cond c s → m ((prog c).run step s).2 = m s + if P c s then 1 else 0)
    {cs : List Call} {s : σ} (hcond : CallsMeet step enter prog cond cs s) :
    m (runAll step enter prog cs s) = m s + countCalls step enter prog P cs s := by
  induction cs generalizing s with
  | nil => rfl
  | cons c cs ih =>
      have hfirst := hcall c _ hcond.1
      rw [henter] at hfirst
      have hrest := ih hcond.2
      unfold runAll countCalls
      rw [hrest, hfirst, Nat.add_assoc]

theorem runAll_append {step : (op : Op) → σ → Res op × σ} {enter : Call → σ → σ}
    {prog : Call → Program Op Res ε α} (cs cs' : List Call) (s : σ) :
    runAll step enter prog (cs ++ cs') s =
      runAll step enter prog cs' (runAll step enter prog cs s) := by
  induction cs generalizing s with
  | nil => rfl
  | cons c cs ih => exact ih _

theorem callsMeet_append {step : (op : Op) → σ → Res op × σ} {enter : Call → σ → σ}
    {prog : Call → Program Op Res ε α} {cond : Call → σ → Prop} {cs cs' : List Call} {s : σ} :
    CallsMeet step enter prog cond (cs ++ cs') s ↔
      CallsMeet step enter prog cond cs s ∧
        CallsMeet step enter prog cond cs' (runAll step enter prog cs s) := by
  induction cs generalizing s with
  | nil => exact ⟨fun h => ⟨trivial, h⟩, And.right⟩
  | cons c cs ih => exact (and_congr_right fun _ => ih).trans and_assoc.symm

/-- A condition on calls alone. -/
theorem callsMeet_of_mem {step : (op : Op) → σ → Res op × σ} {enter : Call → σ → σ}
    {prog : Call → Program Op Res ε α} {cond : Call → Prop} {cs : List Call}
    (h : ∀ c ∈ cs, cond c) (s : σ) : CallsMeet step enter prog (fun c _ => cond c) cs s := by
  induction cs generalizing s with
  | nil => trivial
  | cons c cs ih =>
      rw [List.forall_mem_cons] at h
      exact ⟨h.1, ih h.2 _⟩

/-- A condition that always holds. -/
theorem callsMeet_of_forall {step : (op : Op) → σ → Res op × σ} {enter : Call → σ → σ}
    {prog : Call → Program Op Res ε α} {cond : Call → σ → Prop} (h : ∀ c s, cond c s)
    (cs : List Call) (s : σ) : CallsMeet step enter prog cond cs s := by
  induction cs generalizing s with
  | nil => trivial
  | cons c cs ih => exact ⟨h _ _, ih _⟩

/-- What follows at each call from its condition and an invariant. -/
theorem callsMeet_of_calls {step : (op : Op) → σ → Res op × σ} {enter : Call → σ → σ}
    {prog : Call → Program Op Res ε α} {cond cond' : Call → σ → Prop} {I : σ → Prop}
    (henter : ∀ c s, I s → I (enter c s))
    (hcall : ∀ c s, I s → cond c s → cond' c s ∧ I ((prog c).run step s).2)
    {cs : List Call} {s : σ} (hs : I s) (hcond : CallsMeet step enter prog cond cs s) :
    CallsMeet step enter prog cond' cs s := by
  induction cs generalizing s with
  | nil => trivial
  | cons c cs ih =>
      obtain ⟨hhere, hnext⟩ := hcall c _ (henter c s hs) hcond.1
      exact ⟨hhere, ih hnext hcond.2⟩

theorem callsMeet_take {step : (op : Op) → σ → Res op × σ} {enter : Call → σ → σ}
    {prog : Call → Program Op Res ε α} {cond : Call → σ → Prop} (n : Nat) {cs : List Call}
    {s : σ} (h : CallsMeet step enter prog cond cs s) :
    CallsMeet step enter prog cond (cs.take n) s := by
  induction cs generalizing n s with
  | nil =>
      rw [List.take_nil]
      trivial
  | cons c cs ih =>
      cases n with
      | zero => trivial
      | succ n => exact ⟨h.1, ih n h.2⟩

/-- A loop is a run of its iterations, as long as none raises. -/
theorem keeps_forM {ι : Type} {step : (op : Op) → σ → Res op × σ}
    {f : ι → Program Op Res ε PUnit} {cond : ι → σ → Prop} {I : σ → Prop}
    {P : σ → Op → σ → Prop}
    (hbody : ∀ x s, I s → cond x s → (f x).Keeps step P I s) {xs : List ι} {s : σ}
    (hs : I s) (hcond : CallsMeet step (fun _ s => s) f cond xs s) :
    (xs.forM f).Keeps step P I s := by
  induction xs generalizing s with
  | nil => exact keeps_pure hs
  | cons x xs ih =>
      have hfirst := hbody x s hs hcond.1
      exact keeps_bind hfirst (fun _ _ => ih hfirst.2 hcond.2)

/-- From calls to runs. -/
theorem alongAll_of_calls {step : (op : Op) → σ → Res op × σ} {enter : Call → σ → σ}
    {prog : Call → Program Op Res ε α} {cond : Call → σ → Prop}
    {I : σ → Prop} {P : σ → Op → σ → Prop} (henter : ∀ c s, I s → I (enter c s))
    (hcall : ∀ c s, I s → cond c s → (prog c).Keeps step P I s)
    {cs : List Call} {s : σ} (hs : I s) (hcond : CallsMeet step enter prog cond cs s) :
    AlongAll step enter P prog cs s ∧ I (runAll step enter prog cs s) := by
  induction cs generalizing s with
  | nil => exact ⟨trivial, hs⟩
  | cons c cs ih =>
      obtain ⟨halong, hend⟩ := hcall c _ (henter c s hs) hcond.1
      obtain ⟨hrest, hlast⟩ := ih hend hcond.2
      exact ⟨⟨halong, hrest⟩, hlast⟩

/-- From calls to runs, for what holds between calls. -/
theorem runAll_of_calls {step : (op : Op) → σ → Res op × σ} {enter : Call → σ → σ}
    {prog : Call → Program Op Res ε α} {cond : Call → σ → Prop} {I : σ → Prop}
    (henter : ∀ c s, I s → I (enter c s))
    (hcall : ∀ c s, I s → cond c s → I ((prog c).run step s).2)
    {cs : List Call} {s : σ} (hs : I s) (hcond : CallsMeet step enter prog cond cs s) :
    I (runAll step enter prog cs s) := by
  induction cs generalizing s with
  | nil => exact hs
  | cons c cs ih => exact ih (hcall c _ (henter c s hs) hcond.1) hcond.2

end Runs

end Program
