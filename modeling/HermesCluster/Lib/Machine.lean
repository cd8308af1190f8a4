import Mathlib.Data.List.DropRight
/-!
# Machines

A machine answers each input and moves to its next state. What is said of a run
is said of the inputs with their answers; what one step keeps, every run keeps.
-/

universe u v w

/-- What is answered to an input in a state, and the state that follows. -/
abbrev Machine (σ : Type u) (α : Type v) (β : Type w) : Type (max u v w) :=
  α → σ → β × σ

namespace Machine

variable {σ : Type u} {α : Type v} {β : Type w} (m : Machine σ α β)

/-- The state after some inputs. -/
def after (inputs : List α) (s : σ) : σ :=
  inputs.foldl (fun s a => (m a s).2) s

/-- The inputs with their answers. -/
def answers : List α → σ → List (α × β)
  | [], _ => []
  | a :: inputs, s => (a, (m a s).1) :: answers inputs (m a s).2

/-- Each input meets a condition on the state that it finds. -/
def Meets (P : α → σ → Prop) : List α → σ → Prop
  | [], _ => True
  | a :: inputs, s => P a s ∧ Meets P inputs (m a s).2

instance decidableMeets {P : α → σ → Prop} [∀ a s, Decidable (P a s)] :
    (inputs : List α) → (s : σ) → Decidable (m.Meets P inputs s)
  | [], _ => isTrue trivial
  | a :: inputs, s =>
      have : Decidable (m.Meets P inputs (m a s).2) := decidableMeets inputs _
      inferInstanceAs (Decidable (P a s ∧ m.Meets P inputs (m a s).2))

theorem after_concat (inputs : List α) (a : α) (s : σ) :
    m.after (inputs ++ [a]) s = (m a (m.after inputs s)).2 := by
  unfold after
  rw [List.foldl_append]
  rfl

theorem answers_concat (inputs : List α) (a : α) (s : σ) :
    m.answers (inputs ++ [a]) s = m.answers inputs s ++ [(a, (m a (m.after inputs s)).1)] := by
  induction inputs generalizing s with
  | nil => rfl
  | cons b inputs ih => exact congrArg (List.cons _) (ih _)

theorem fst_answers (inputs : List α) (s : σ) : (m.answers inputs s).map Prod.fst = inputs := by
  induction inputs generalizing s with
  | nil => rfl
  | cons a inputs ih => exact congrArg (List.cons a) (ih _)

theorem after_append (before after : List α) (s : σ) :
    m.after (before ++ after) s = m.after after (m.after before s) :=
  List.foldl_append

theorem answers_append (before after : List α) (s : σ) :
    m.answers (before ++ after) s = m.answers before s ++ m.answers after (m.after before s) := by
  induction before generalizing s with
  | nil => rfl
  | cons a before ih => exact congrArg (List.cons _) (ih _)

variable {m}

theorem meets_append {P : α → σ → Prop} {before after : List α} {s : σ} :
    m.Meets P (before ++ after) s ↔
      m.Meets P before s ∧ m.Meets P after (m.after before s) := by
  induction before generalizing s with
  | nil => exact (true_and _).symm.to_iff
  | cons a before ih => exact (and_congr_right fun _ => ih).trans and_assoc.symm

theorem meets_concat {P : α → σ → Prop} {inputs : List α} {a : α} {s : σ} :
    m.Meets P (inputs ++ [a]) s ↔ m.Meets P inputs s ∧ P a (m.after inputs s) :=
  meets_append.trans (and_congr_right fun _ => and_iff_left trivial)

/-- A condition on each input and the state after the inputs before it. -/
theorem meets_of_prefix {P : α → σ → Prop} {inputs : List α} {s : σ}
    (h : ∀ past a, past ++ [a] <+: inputs → P a (m.after past s)) : m.Meets P inputs s := by
  induction inputs using List.reverseRecOn with
  | nil => trivial
  | append_singleton inputs a ih =>
      refine meets_concat.mpr ⟨ih fun past b hpast => ?_, h inputs a List.prefix_rfl⟩
      exact h past b (hpast.trans (List.prefix_append _ _))

theorem Meets.of_prefix {P : α → σ → Prop} {past inputs : List α} {s : σ}
    (h : m.Meets P inputs s) (hpast : past <+: inputs) : m.Meets P past s := by
  obtain ⟨later, rfl⟩ := hpast
  exact (meets_append.mp h).1

/-- A condition on the inputs alone. -/
theorem meets_of_forall {P : α → Prop} {inputs : List α} {s : σ} (h : ∀ a ∈ inputs, P a) :
    m.Meets (fun a _ => P a) inputs s := by
  induction inputs generalizing s with
  | nil => trivial
  | cons a inputs ih =>
      exact ⟨h a List.mem_cons_self, ih (fun b hb => h b (List.mem_cons_of_mem a hb))⟩

theorem Meets.and {P Q : α → σ → Prop} {inputs : List α} {s : σ} (hP : m.Meets P inputs s)
    (hQ : m.Meets Q inputs s) : m.Meets (fun a s => P a s ∧ Q a s) inputs s := by
  induction inputs generalizing s with
  | nil => trivial
  | cons a inputs ih => exact ⟨⟨hP.1, hQ.1⟩, ih hP.2 hQ.2⟩

/-- A split of the answers is one of the inputs. -/
theorem of_answers_eq {inputs : List α} {s : σ} {before later : List (α × β)} {x : α × β}
    (h : m.answers inputs s = before ++ x :: later) :
    inputs = before.map Prod.fst ++ x.1 :: later.map Prod.fst ∧
      x.2 = (m x.1 (m.after (before.map Prod.fst) s)).1 := by
  induction before generalizing inputs s with
  | nil =>
      cases inputs with
      | nil => cases h
      | cons a inputs =>
          obtain ⟨rfl, rfl⟩ := List.cons.inj h
          exact ⟨congrArg (a :: ·) (m.fst_answers inputs _).symm, rfl⟩
  | cons y before ih =>
      cases inputs with
      | nil => cases h
      | cons a inputs =>
          obtain ⟨rfl, hrest⟩ := List.cons.inj h
          obtain ⟨hinputs, hx⟩ := ih hrest
          exact ⟨congrArg (a :: ·) hinputs, hx⟩

theorem fst_mem_of_mem_answers {inputs : List α} {s : σ} {x : α × β}
    (hx : x ∈ m.answers inputs s) : x.1 ∈ inputs := by
  rw [← m.fst_answers inputs s]
  exact List.mem_map_of_mem hx

/-- Every answer is one of the machine in some state. -/
theorem exists_of_mem_answers {inputs : List α} {s : σ} {x : α × β}
    (hx : x ∈ m.answers inputs s) : ∃ t, x.2 = (m x.1 t).1 := by
  induction inputs generalizing s with
  | nil => cases hx
  | cons a inputs ih =>
      rcases List.mem_cons.mp hx with rfl | hrest
      · exact ⟨s, rfl⟩
      · exact ih hrest

/-- The rule for an invariant of the answers so far and the state, where each
input meets a condition on the state it finds. -/
theorem tracks_of_step {I : List (α × β) → σ → Prop} {P : α → σ → Prop} {inputs : List α} {s : σ}
    (hbegin : I [] s) (hinputs : m.Meets P inputs s)
    (hstep : ∀ past s a, I past s → P a s → I (past ++ [(a, (m a s).1)]) (m a s).2) :
    I (m.answers inputs s) (m.after inputs s) := by
  induction inputs using List.reverseRecOn with
  | nil => exact hbegin
  | append_singleton inputs a ih =>
      rw [answers_concat, after_concat]
      obtain ⟨hpast, hlast⟩ := meets_concat.mp hinputs
      exact hstep _ _ _ (ih hpast) hlast

/-- A property of the inputs so far that each input keeps exactly if it meets a condition
on the state it finds: it holds all along if and only if all inputs meet it. -/
theorem always_iff {I : List α → Prop} {P : α → σ → Prop} {inputs : List α} {s : σ}
    (hbegin : I []) (hstep : ∀ past a, I past → (I (past ++ [a]) ↔ P a (m.after past s))) :
    (∀ past, past <+: inputs → I past) ↔ m.Meets P inputs s := by
  induction inputs using List.reverseRecOn with
  | nil =>
      refine iff_of_true (fun past hpast => ?_) trivial
      rw [List.prefix_nil.mp hpast]
      exact hbegin
  | append_singleton inputs a ih =>
      rw [meets_concat, ← ih]
      constructor
      · intro h
        have hpast : ∀ past, past <+: inputs → I past :=
          fun past hpast => h past (hpast.trans (List.prefix_append _ _))
        exact ⟨hpast, (hstep inputs a (hpast _ List.prefix_rfl)).mp (h _ List.prefix_rfl)⟩
      · rintro ⟨hpast, hlast⟩ past hprefix
        rcases List.prefix_concat_iff.mp hprefix with rfl | hprefix
        · exact (hstep inputs a (hpast _ List.prefix_rfl)).mpr hlast
        · exact hpast past hprefix

/-- Two states that a simulation relates are answered alike for ever. -/
theorem answers_congr {R : σ → σ → Prop} {inputs : List α} {s t : σ} (hR : R s t)
    (hstep : ∀ a s t, R s t → (m a s).1 = (m a t).1 ∧ R (m a s).2 (m a t).2) :
    m.answers inputs s = m.answers inputs t := by
  induction inputs generalizing s t with
  | nil => rfl
  | cons a inputs ih =>
      obtain ⟨hanswer, hnext⟩ := hstep a s t hR
      unfold answers
      rw [hanswer, ih hnext]

end Machine

/-! ## The latest streak -/

namespace List

variable {α : Type u} {p : α → Bool} {xs : List α}

/-- Where the latest streak begins. -/
theorem head?_rtakeWhile_concat {x : α} (hx : p x = true) :
    ((xs ++ [x]).rtakeWhile p).head? = some (((xs.rtakeWhile p).head?).getD x) := by
  rw [rtakeWhile_concat_pos _ _ x hx]
  cases xs.rtakeWhile p with
  | nil => rfl
  | cons y ys => rfl

end List
