import Mathlib.Data.List.DropRight
/-!
# Bounded logs

A log that keeps at most `cap` entries and forgets the oldest first: it is always the
last `cap` entries of the whole history.
-/

universe u

namespace BoundedLog

variable {α : Type u}

/-- Room is made, then the entry is added. -/
def push (cap : Nat) (log : List α) (a : α) : List α :=
  if cap ≤ log.length then log.tail ++ [a] else log ++ [a]

/-! ## The last entries of a list -/

theorem rtake_eq_drop (cap : Nat) (xs : List α) : xs.rtake cap = xs.drop (xs.length - cap) := rfl

theorem length_rtake (cap : Nat) (xs : List α) : (xs.rtake cap).length = min cap xs.length := by
  rw [rtake_eq_drop, List.length_drop]
  omega

theorem rtake_of_length_le {cap : Nat} {xs : List α} (h : xs.length ≤ cap) : xs.rtake cap = xs := by
  have hnone : xs.length - cap = 0 := by omega
  simp [rtake_eq_drop, hnone]

theorem tail_rtake_concat {cap : Nat} {xs : List α} (a : α) (h : cap < xs.length) :
    (xs.rtake (cap + 1)).tail ++ [a] = (xs ++ [a]).rtake (cap + 1) := by
  have hdrop : xs.length - (cap + 1) + 1 = xs.length - cap := by omega
  have hpast : xs.length - cap ≤ xs.length := by omega
  rw [List.rtake_concat_succ, rtake_eq_drop, rtake_eq_drop, List.tail_drop, hdrop]

/-! ## Runs -/

theorem push_rtake {cap : Nat} (hcap : 0 < cap) (xs : List α) (a : α) :
    push cap (xs.rtake cap) a = (xs ++ [a]).rtake cap := by
  obtain ⟨cap, rfl⟩ : ∃ n, cap = n + 1 := ⟨cap - 1, by omega⟩
  unfold push
  rw [length_rtake]
  by_cases hfull : cap + 1 ≤ xs.length
  · rw [if_pos (by omega), tail_rtake_concat a (by omega)]
  · have hlength : (xs ++ [a]).length ≤ cap + 1 := by
      simp only [List.length_append, List.length_singleton]
      omega
    rw [if_neg (by omega), rtake_of_length_le (by omega), rtake_of_length_le hlength]

end BoundedLog
