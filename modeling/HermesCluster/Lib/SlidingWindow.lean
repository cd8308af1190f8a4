import HermesCluster.Lib.Machine
import Mathlib.Algebra.Order.Group.Defs
import Mathlib.Data.List.Count
/-!
# Limits over a sliding window

A limiter keeps a queue of times for each key. An attempt drops what lies too far
back from the front of its queue, is put at the end itself, and is refused if the
queue is then longer than a limit. On attempts in the order of their times the queue
is what lies in the window before the attempt, and so no window of that length holds
more allowed attempts than the limit.
-/

universe u v

namespace SlidingWindow

variable {T : Type u} {K : Type v}

section Definitions

variable [AddCommGroup T] [LinearOrder T]

/-- The queue without what lies more than `window` before `now` at its front. -/
def prune (window now : T) (queue : List T) : List T :=
  queue.dropWhile (fun t => decide (window < now - t))

/-- Those of some times that lie at most `window` before `now`. -/
def recent (window now : T) (times : List T) : List T :=
  times.filter (fun t => decide (now - t ≤ window))

/-- An attempt under a key at a time. -/
structure Attempt (T : Type u) (K : Type v) where
  key : K
  time : T

/-- The attempts under each key are counted in a queue of its own; the answer says
whether the attempt is refused. -/
def limiter [DecidableEq K] (window : T) (limit : Nat) :
    Machine (K → List T) (Attempt T K) Bool :=
  fun a queues =>
    let queue := prune window a.time (queues a.key) ++ [a.time]
    (decide (limit < queue.length), Function.update queues a.key queue)

/-- The queues before any attempt. -/
def empty : K → List T :=
  fun _ => []

end Definitions

/-- The attempts come in the order of their times. -/
def InOrder [LE T] (attempts : List (Attempt T K)) : Prop :=
  attempts.Pairwise (fun a b => a.time ≤ b.time)

/-- The times of the attempts under a key. -/
def timesOf [DecidableEq K] (key : K) (attempts : List (Attempt T K)) : List T :=
  (attempts.filter (fun a => decide (a.key = key))).map Attempt.time

/-! ## Pruning -/

section Pruning

variable [AddCommGroup T] [LinearOrder T] [IsOrderedAddMonoid T] {window now now' : T}
  {times : List T}

/-- Of times in order, the ones pruned at the front are all that lie too far back. -/
theorem prune_eq_recent (h : times.Pairwise (· ≤ ·)) :
    prune window now times = recent window now times := by
  unfold prune recent
  induction times with
  | nil => rfl
  | cons t times ih =>
      obtain ⟨hfirst, hrest⟩ := List.pairwise_cons.mp h
      by_cases hold : window < now - t
      · have hnot : ¬now - t ≤ window := not_le.mpr hold
        rw [List.dropWhile_cons_of_pos (by simpa using hold), ih hrest,
          List.filter_cons_of_neg (by simpa using hnot)]
      · have hkept : ∀ t' ∈ t :: times, decide (now - t' ≤ window) = true := by
          intro t' ht'
          have hle : t ≤ t' := by
            rcases List.mem_cons.mp ht' with rfl | ht'
            · exact le_rfl
            · exact hfirst t' ht'
          exact decide_eq_true ((sub_le_sub_left hle now).trans (not_lt.mp hold))
        rw [List.dropWhile_cons_of_neg (by simpa using hold), List.filter_eq_self.mpr hkept]

/-- What lies too far back now lies too far back later. -/
theorem recent_recent (h : now ≤ now') :
    recent window now' (recent window now times) = recent window now' times := by
  unfold recent
  rw [List.filter_filter]
  refine List.filter_congr fun t _ => ?_
  rw [Bool.and_eq_left_iff_imp]
  intro hlater
  exact decide_eq_true ((sub_le_sub_right h t).trans (of_decide_eq_true hlater))

omit [IsOrderedAddMonoid T] in
theorem recent_concat_self (h : 0 ≤ window) :
    recent window now (times ++ [now]) = recent window now times ++ [now] := by
  unfold recent
  rw [List.filter_append]
  rw [List.filter_cons_of_pos (by simpa using h), List.filter_nil]

end Pruning

/-! ## Attempts under a key -/

section Keys

variable {key : K} {a : Attempt T K} {attempts : List (Attempt T K)}

theorem inOrder_concat [LE T] :
    InOrder (attempts ++ [a]) ↔ InOrder attempts ∧ ∀ b ∈ attempts, b.time ≤ a.time := by
  unfold InOrder
  rw [List.pairwise_append]
  simp

variable [DecidableEq K]

theorem timesOf_concat_same (h : a.key = key) :
    timesOf key (attempts ++ [a]) = timesOf key attempts ++ [a.time] := by
  unfold timesOf
  rw [List.filter_append, List.filter_cons_of_pos (by simpa using h), List.map_append]
  rfl

theorem timesOf_concat_other (h : a.key ≠ key) :
    timesOf key (attempts ++ [a]) = timesOf key attempts := by
  unfold timesOf
  rw [List.filter_append, List.filter_cons_of_neg (by simpa using h), List.filter_nil,
    List.append_nil]

theorem length_recent_timesOf [AddCommGroup T] [LinearOrder T] {window now : T} :
    (recent window now (timesOf key attempts)).length =
      attempts.countP (fun b => decide (b.key = key ∧ now - b.time ≤ window)) := by
  unfold recent timesOf
  rw [List.filter_map, List.length_map, List.filter_filter, ← List.countP_eq_length_filter]
  refine List.countP_congr fun b _ => ?_
  simp [and_comm]

end Keys

/-! ## Runs -/

section Runs

variable [DecidableEq K] [AddCommGroup T] [LinearOrder T] [IsOrderedAddMonoid T] {window : T}
  {limit : Nat} {attempts before : List (Attempt T K)} {a : Attempt T K}

/-- Seen from any later time, a queue is as good as all the times it was given. -/
theorem recent_after (hwindow : 0 ≤ window) (h : InOrder attempts) (key : K) {now : T}
    (hnow : ∀ b ∈ attempts, b.time ≤ now) :
    recent window now ((limiter window limit).after attempts empty key) =
        recent window now (timesOf key attempts) ∧
      ((limiter window limit).after attempts empty key).Pairwise (· ≤ ·) ∧
      ∀ t ∈ (limiter window limit).after attempts empty key, t ≤ now := by
  induction attempts using List.reverseRecOn generalizing now with
  | nil => exact ⟨rfl, List.Pairwise.nil, fun t ht => absurd ht List.not_mem_nil⟩
  | append_singleton attempts b ih =>
      obtain ⟨hpast, hlast⟩ := inOrder_concat.mp h
      have hb : b.time ≤ now := hnow b (List.mem_append_right _ List.mem_cons_self)
      obtain ⟨hrecent, hsorted, hle⟩ := ih hpast hlast
      rw [Machine.after_concat]
      by_cases hkey : b.key = key
      · have hqueue : (limiter window limit b
            ((limiter window limit).after attempts empty)).2 key =
            recent window b.time ((limiter window limit).after attempts empty key) ++ [b.time] := by
          simp only [limiter]
          rw [hkey, Function.update_self, prune_eq_recent hsorted]
        rw [hqueue, timesOf_concat_same hkey]
        refine ⟨?_, ?_, ?_⟩
        · rw [hrecent, ← recent_concat_self hwindow, recent_recent hb]
        · refine List.pairwise_append.mpr ⟨List.Pairwise.filter _ hsorted,
            List.pairwise_singleton _ _, ?_⟩
          rintro t ht t' ht'
          rw [List.mem_singleton.mp ht']
          exact hle t (List.mem_of_mem_filter ht)
        · intro t ht
          rcases List.mem_append.mp ht with ht | ht
          · exact (hle t (List.mem_of_mem_filter ht)).trans hb
          · rw [List.mem_singleton.mp ht]
            exact hb
      · have hqueue : (limiter window limit b
            ((limiter window limit).after attempts empty)).2 key =
            (limiter window limit).after attempts empty key := by
          simp only [limiter]
          rw [Function.update_of_ne (Ne.symm hkey)]
        rw [hqueue, timesOf_concat_other hkey]
        exact ih hpast (fun c hc => (hlast c hc).trans hb)

/-- An attempt is refused exactly if the window before it holds the limit already. -/
theorem refused_iff (hwindow : 0 ≤ window) (h : InOrder (before ++ [a])) :
    (limiter window limit a ((limiter window limit).after before empty)).1 = true ↔
      limit ≤ before.countP (fun b => decide (b.key = a.key ∧ a.time - b.time ≤ window)) := by
  obtain ⟨hpast, hlast⟩ := inOrder_concat.mp h
  have hrecent : recent window a.time ((limiter window limit).after before empty a.key) =
      recent window a.time (timesOf a.key before) := (recent_after hwindow hpast a.key hlast).1
  have hsorted : ((limiter window limit).after before empty a.key).Pairwise (· ≤ ·) :=
    (recent_after hwindow hpast a.key hlast).2.1
  rw [← length_recent_timesOf, ← hrecent]
  simp only [limiter, decide_eq_true_eq]
  rw [prune_eq_recent hsorted, List.length_append, List.length_singleton, Nat.lt_succ_iff]

/-- No window of that length, wherever it begins, holds more allowed attempts under a
key than the limit. -/
theorem allowed_le (hwindow : 0 ≤ window) (h : InOrder attempts) (key : K) (start : T) :
    ((limiter window limit).answers attempts empty).countP (fun x =>
      decide (x.1.key = key ∧ x.2 = false ∧ start ≤ x.1.time ∧ x.1.time ≤ start + window)) ≤
      limit := by
  induction attempts using List.reverseRecOn with
  | nil => exact Nat.zero_le limit
  | append_singleton attempts a ih =>
      obtain ⟨hpast, -⟩ := inOrder_concat.mp h
      rw [Machine.answers_concat, List.countP_append, List.countP_singleton]
      split
      · rename_i hcounted
        obtain ⟨hkey, hallowed, -, hend⟩ := of_decide_eq_true hcounted
        -- What is in the window with an allowed attempt was in the window before it.
        have hearlier : ((limiter window limit).answers attempts empty).countP (fun x =>
            decide (x.1.key = key ∧ x.2 = false ∧ start ≤ x.1.time ∧
              x.1.time ≤ start + window)) ≤
            attempts.countP (fun b => decide (b.key = a.key ∧ a.time - b.time ≤ window)) := by
          conv_rhs => rw [← (limiter window limit).fst_answers attempts empty, List.countP_map]
          refine List.countP_mono_left fun x _ hx => ?_
          obtain ⟨hxkey, -, hstart, -⟩ := of_decide_eq_true hx
          have hspan : a.time - x.1.time ≤ window :=
            (sub_le_sub_left hstart a.time).trans (sub_le_iff_le_add'.mpr hend)
          exact decide_eq_true ⟨hxkey.trans hkey.symm, hspan⟩
        have hroom : attempts.countP
            (fun b => decide (b.key = a.key ∧ a.time - b.time ≤ window)) < limit := by
          refine not_le.mp fun hfull => ?_
          rw [(refused_iff hwindow h).mpr hfull] at hallowed
          cases hallowed
        omega
      · exact ih hpast

omit [IsOrderedAddMonoid T] in
/-- The attempts under other keys change no decision. -/
theorem answers_filter {key : K} {queues queues' : K → List T} (h : queues key = queues' key) :
    ((limiter window limit).answers attempts queues).filter (fun x => decide (x.1.key = key)) =
      (limiter window limit).answers (attempts.filter (fun a => decide (a.key = key))) queues' := by
  induction attempts generalizing queues queues' with
  | nil => rfl
  | cons a attempts ih =>
      rw [Machine.answers]
      by_cases hkey : a.key = key
      · have hsame : (limiter window limit a queues).1 = (limiter window limit a queues').1 := by
          simp only [limiter, hkey, h]
        have hnext : (limiter window limit a queues).2 key =
            (limiter window limit a queues').2 key := by
          simp only [limiter, hkey, h, Function.update_self]
        rw [List.filter_cons_of_pos (by simpa using hkey),
          List.filter_cons_of_pos (by simpa using hkey), Machine.answers, ih hnext, hsame]
      · have hnext : (limiter window limit a queues).2 key = queues' key := by
          simp only [limiter]
          rw [Function.update_of_ne (Ne.symm hkey), h]
        rw [List.filter_cons_of_neg (by simpa using hkey),
          List.filter_cons_of_neg (by simpa using hkey), ih hnext]

end Runs

end SlidingWindow
