import HermesCluster.Lib.Machine
/-!
# Suppressing what was sent last

A machine to which something may be due with each input, and which sends it unless
it is what it remembers. It remembers what was due last, so that something is sent
again only if something else was due in between.
-/

universe u v w t

namespace Machine

variable {σ : Type u} {α : Type v} {β : Type w} {κ : Type t} {m : Machine σ α β}

/-- On inputs with `P` the machine sends what is due, unless it remembers just that,
and remembers it. -/
structure Suppresses [DecidableEq κ] (m : Machine σ α β) (P : α → σ → Prop)
    (due : α → σ → Option κ) (memory : σ → Option κ) (sent : β → Option κ) : Prop where
  sent_eq : ∀ a s, P a s → sent (m a s).1 = if due a s = memory s then none else due a s
  memory_eq : ∀ a s, P a s → memory (m a s).2 = (due a s).or (memory s)

section Suppression

variable [DecidableEq κ] {P : α → σ → Prop} {due : α → σ → Option κ} {memory : σ → Option κ}
  {sent : β → Option κ} {inputs : List α} {s : σ} {k : κ}

/-- What is remembered is forgotten only when something else is due. -/
theorem Suppresses.exists_other_due (h : m.Suppresses P due memory sent)
    (hP : m.Meets P inputs s) (hs : memory s = some k)
    (hafter : memory (m.after inputs s) ≠ some k) :
    ∃ before a later k', inputs = before ++ a :: later ∧
      due a (m.after before s) = some k' ∧ k' ≠ k := by
  induction inputs generalizing s with
  | nil => exact absurd hs hafter
  | cons a inputs ih =>
      by_cases hkept : memory (m a s).2 = some k
      · obtain ⟨before, b, later, k', rfl, hdue, hne⟩ := ih hP.2 hkept hafter
        exact ⟨a :: before, b, later, k', rfl, hdue, hne⟩
      · rw [h.memory_eq a s hP.1, hs] at hkept
        cases hdue : due a s with
        | none =>
            rw [hdue] at hkept
            exact absurd rfl hkept
        | some k' =>
            refine ⟨[], a, inputs, k', rfl, hdue, ?_⟩
            rintro rfl
            rw [hdue] at hkept
            exact hkept rfl

/-- What becomes due and is not remembered is sent by then. -/
theorem Suppresses.exists_sent (h : m.Suppresses P due memory sent) {a : α}
    (hP : m.Meets P (inputs ++ [a]) s) (hs : memory s ≠ some k)
    (hdue : due a (m.after inputs s) = some k) :
    ∃ before b later, inputs ++ [a] = before ++ b :: later ∧
      sent (m b (m.after before s)).1 = some k := by
  induction inputs generalizing s with
  | nil =>
      refine ⟨[], a, [], rfl, ?_⟩
      have hdue : due a s = some k := hdue
      change sent (m a s).1 = some k
      rw [h.sent_eq a s hP.1, if_neg (fun heq => hs (heq.symm.trans hdue)), hdue]
  | cons b inputs ih =>
      by_cases hkept : memory (m b s).2 = some k
      · refine ⟨[], b, inputs ++ [a], rfl, ?_⟩
        rw [h.memory_eq b s hP.1] at hkept
        have hdue' : due b s = some k := by
          cases hb : due b s with
          | none =>
              rw [hb] at hkept
              exact absurd hkept hs
          | some k' =>
              rw [hb] at hkept
              exact hkept
        change sent (m b s).1 = some k
        rw [h.sent_eq b s hP.1, if_neg (fun heq => hs (heq.symm.trans hdue')), hdue']
      · obtain ⟨before, c, later, hsplit, hsent⟩ := ih hP.2 hkept hdue
        exact ⟨b :: before, c, later, congrArg (b :: ·) hsplit, hsent⟩

/-- What is sent is due, and is not what is remembered. -/
theorem Suppresses.due_of_sent (h : m.Suppresses P due memory sent) {a : α} (hP : P a s)
    (hsent : sent (m a s).1 = some k) : due a s = some k ∧ memory s ≠ some k := by
  rw [h.sent_eq a s hP] at hsent
  split at hsent
  · cases hsent
  · rename_i hne
    exact ⟨hsent, fun hmemory => hne (hsent.trans hmemory.symm)⟩

end Suppression

end Machine
