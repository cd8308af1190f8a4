import HermesCluster.Lib.SlidingWindow
import Mathlib.Algebra.Order.Ring.Rat
/-!
# The rate limit on policy writes

`_policy_write_rate_limited` of `routers/intake.py`, the first thing a `PUT /policy`
is put to. The times are those of `time.monotonic()`; they are taken to be exact.
-/

namespace HermesCluster

namespace PolicyWriteLimit

open SlidingWindow

/-! ## The model -/

/-- `_RATE_LIMIT_WINDOW`, in seconds. -/
def rateLimitWindow : Rat := 60

/-- `_RATE_LIMIT_COUNT`. -/
def rateLimitCount : Nat := 20

/-- `_policy_write_attempts`; an address that is not there has no attempts. -/
abbrev PolicyWriteAttempts := String → List Rat

/-- `_policy_write_rate_limited`, with the attempts recorded after it. -/
def policyWriteRateLimited (ip : String) (now : Rat) (attempts : PolicyWriteAttempts) :
    Bool × PolicyWriteAttempts :=
  let dq := (attempts ip).dropWhile (fun t => decide (rateLimitWindow < now - t))
  -- An attempt is recorded before it is evaluated.
  let dq := dq ++ [now]
  (decide (rateLimitCount < dq.length), Function.update attempts ip dq)

/-- The attempts of clients, by their address, are put to the limit one after another. -/
def policyWrites : Machine PolicyWriteAttempts (Attempt Rat String) Bool :=
  fun a => policyWriteRateLimited a.key a.time

/-- Before any attempt, and after `_reset_policy_rate_limiter`. -/
def noAttempts : PolicyWriteAttempts :=
  fun _ => []

/-- The attempts of an address in the window before a time. -/
def attemptsBefore (ip : String) (now : Rat) (past : List (Attempt Rat String)) : Nat :=
  past.countP (fun b => decide (b.key = ip ∧ now - b.time ≤ 60))

/-- The attempts of an address that were allowed from `start` to 60 seconds later. -/
def allowedFrom (start : Rat) (ip : String) (answered : List (Attempt Rat String × Bool)) : Nat :=
  answered.countP (fun x =>
    decide (x.1.key = ip ∧ x.2 = false ∧ start ≤ x.1.time ∧ x.1.time ≤ start + 60))

/-! ## The limit -/

theorem policyWrites_eq : policyWrites = limiter rateLimitWindow rateLimitCount := rfl

/-- However the attempts of clients are mixed, no 60 seconds see more than 20 allowed
attempts of one address; an attempt is refused exactly if the 60 seconds before it saw
20 attempts of its address, refused ones included; and an address is answered as if it
were alone. -/
theorem policy_writes_limited (writes : List (Attempt Rat String)) (h : InOrder writes) :
    (∀ ip start, allowedFrom start ip (policyWrites.answers writes noAttempts) ≤ 20) ∧
      (∀ before a later, writes = before ++ a :: later →
        ((policyWrites a (policyWrites.after before noAttempts)).1 = true ↔
          20 ≤ attemptsBefore a.key a.time before)) ∧
      ∀ ip, (policyWrites.answers writes noAttempts).filter (fun x => decide (x.1.key = ip)) =
        policyWrites.answers (writes.filter (fun a => decide (a.key = ip))) noAttempts := by
  have hwindow : 0 ≤ rateLimitWindow := by decide
  rw [policyWrites_eq]
  refine ⟨fun ip start => ?_, fun before a later hwrites => ?_, fun ip => ?_⟩
  · exact allowed_le hwindow h ip start
  · have hprefix : InOrder (before ++ [a]) := by
      rw [hwrites, List.append_cons] at h
      exact h.sublist (List.sublist_append_left _ _)
    exact refused_iff hwindow hprefix
  · exact answers_filter rfl

/-- The attempt after twenty within a minute is refused. -/
theorem policy_writes_limited_minute :
    (policyWrites ⟨"10.0.0.1", 60⟩ (policyWrites.after
      (⟨"10.0.0.2", 0⟩ :: List.replicate 20 ⟨"10.0.0.1", 0⟩) noAttempts)).1 = true :=
  ((policy_writes_limited
    ((⟨"10.0.0.2", 0⟩ :: List.replicate 20 ⟨"10.0.0.1", 0⟩) ++ [⟨"10.0.0.1", 60⟩])
    (by unfold InOrder; decide)).2.1 _ ⟨"10.0.0.1", 60⟩ [] rfl).mpr (by decide +kernel)

end PolicyWriteLimit

end HermesCluster
