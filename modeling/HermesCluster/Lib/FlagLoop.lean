import HermesCluster.Lib.Machine
import Mathlib.Logic.Function.Iterate
/-!
# Loops that watch a flag

A component runs its work in a loop on a thread of its own. To stop the loop a
flag is set, and the next loop begins with the flag cleared. The flag is one for
all the loops of the component, so a loop that has not looked at it in between
does not learn that it was told to stop.
-/

universe u v w

/-- The program of a loop. Its steps read the flag; setting the flag wakes those
that wait for it. A loop is leaving if it begins no further cycle, whatever
becomes of the flag. -/
structure FlagLoop (P : Type u) where
  first : P
  finished : P
  next : Bool → P → P
  wake : P → P
  begins : Bool → P → Bool
  Leaving : P → Prop
  next_finished : ∀ flag, next flag finished = finished
  leaving_finished : Leaving finished
  leaving_next : ∀ flag p, Leaving p → Leaving (next flag p)
  leaving_wake : ∀ p, Leaving p → Leaving (wake p)
  not_begins : ∀ flag p, Leaving p → begins flag p = false
  returns : ∀ p, ¬Leaving p → ∃ n, begins false ((next false)^[n] p) = true

/-- The loops a component has begun, in order, and the flag. -/
structure LoopPool (P : Type u) where
  flag : Bool := false
  loops : List P := []
  /-- How many of them have been told to stop. -/
  told : Nat := 0
  /-- How many had been told when the last one began. -/
  old : Nat := 0

/-- What can happen to the loops and the flag. -/
inductive PoolOp where
  | idle
  | arm
  | tell
  | advance (i : Nat)
  | halt (i : Nat)
  deriving DecidableEq

namespace LoopPool

variable {P : Type u} (prog : FlagLoop P)

def apply (s : LoopPool P) : PoolOp → LoopPool P
  | .idle => s
  | .arm => { s with flag := false, loops := s.loops ++ [prog.first], old := s.told }
  | .tell => { s with flag := true, loops := s.loops.map prog.wake, told := s.loops.length }
  | .advance i => { s with loops := s.loops.modify i (prog.next s.flag) }
  | .halt i => { s with loops := s.loops.modify i (fun _ => prog.finished) }

/-- The loop has not ended, and nobody told it to stop. -/
def Active (s : LoopPool P) (i : Nat) : Prop :=
  s.told ≤ i ∧ ∃ p ∈ s.loops[i]?, p ≠ prog.finished

def AtMostOne (s : LoopPool P) : Prop :=
  ∀ i j, s.Active prog i → s.Active prog j → i = j

/-- A loop begins a cycle that was told to stop before a later one began. -/
def Revives (s : LoopPool P) : PoolOp → Prop
  | .advance i => i < s.old ∧ ∃ p ∈ s.loops[i]?, prog.begins s.flag p = true
  | _ => False

instance (s : LoopPool P) : (op : PoolOp) → Decidable (s.Revives prog op)
  | .advance i => inferInstanceAs (Decidable (i < s.old ∧ ∃ p ∈ s.loops[i]?, _))
  | .idle | .arm | .tell | .halt _ => inferInstanceAs (Decidable False)

/-- The first `n` loops are leaving. -/
def Left (n : Nat) (s : LoopPool P) : Prop :=
  ∀ i < n, ∀ p ∈ s.loops[i]?, prog.Leaving p

/-- Every loop that was told to stop is leaving. -/
def Quiet (s : LoopPool P) : Prop :=
  s.Left prog s.told

/-- The counts are in order. -/
structure Counted (s : LoopPool P) : Prop where
  old : s.old ≤ s.told
  told : s.told ≤ s.loops.length

variable {prog} {s : LoopPool P} {n : Nat}

theorem Counted.apply (h : s.Counted) (op : PoolOp) : (s.apply prog op).Counted := by
  obtain ⟨hold, htold⟩ := h
  cases op with
  | idle => exact ⟨hold, htold⟩
  | arm =>
      refine ⟨Nat.le_refl _, ?_⟩
      change s.told ≤ (s.loops ++ [prog.first]).length
      rw [List.length_append]
      omega
  | tell =>
      refine ⟨hold.trans htold, ?_⟩
      change s.loops.length ≤ (s.loops.map prog.wake).length
      rw [List.length_map]
  | advance i | halt i =>
      refine ⟨hold, ?_⟩
      change s.told ≤ (s.loops.modify i _).length
      rwa [List.length_modify]

/-- Loops that are leaving stay so. -/
theorem Left.apply (h : s.Left prog n) (hn : n ≤ s.loops.length) (op : PoolOp) :
    (s.apply prog op).Left prog n := by
  intro i hi p hp
  cases op with
  | idle => exact h i hi p hp
  | arm =>
      change p ∈ (s.loops ++ [prog.first])[i]? at hp
      rw [List.getElem?_append_left (Nat.lt_of_lt_of_le hi hn)] at hp
      exact h i hi p hp
  | tell =>
      change p ∈ (s.loops.map prog.wake)[i]? at hp
      rw [List.getElem?_map] at hp
      obtain ⟨q, hq, rfl⟩ := Option.map_eq_some_iff.mp hp
      exact prog.leaving_wake q (h i hi q hq)
  | advance j =>
      change p ∈ (s.loops.modify j (prog.next s.flag))[i]? at hp
      rw [List.getElem?_modify] at hp
      obtain ⟨q, hq, rfl⟩ := Option.map_eq_some_iff.mp hp
      have hleaving := h i hi q hq
      split_ifs
      · exact prog.leaving_next s.flag q hleaving
      · exact hleaving
  | halt j =>
      change p ∈ (s.loops.modify j (fun _ => prog.finished))[i]? at hp
      rw [List.getElem?_modify] at hp
      obtain ⟨q, hq, rfl⟩ := Option.map_eq_some_iff.mp hp
      split_ifs
      · exact prog.leaving_finished
      · exact h i hi q hq

theorem not_revives (h : s.Left prog s.old) (op : PoolOp) : ¬s.Revives prog op := by
  cases op with
  | advance i =>
      rintro ⟨hi, p, hp, hbegins⟩
      rw [prog.not_begins s.flag p (h i hi p hp)] at hbegins
      cases hbegins
  | idle | arm | tell | halt => exact id

/-- Every loop there is has been told. -/
theorem not_active_tell (i : Nat) : ¬(s.apply prog .tell).Active prog i := by
  rintro ⟨hi, p, hp, -⟩
  change p ∈ (s.loops.map prog.wake)[i]? at hp
  rw [List.getElem?_eq_none (by rw [List.length_map]; exact hi)] at hp
  cases hp

/-- No step makes a loop active but the one that begins it. -/
theorem Active.of_apply {op : PoolOp} {i : Nat} (h : (s.apply prog op).Active prog i) :
    s.Active prog i ∨ op = .arm ∧ i = s.loops.length := by
  have hmodify : ∀ {f : P → P} {j : Nat}, f prog.finished = prog.finished →
      ∀ p ∈ (s.loops.modify j f)[i]?, p ≠ prog.finished → ∃ q ∈ s.loops[i]?, q ≠ prog.finished := by
    intro f j hf p hp hne
    rw [List.getElem?_modify] at hp
    obtain ⟨q, hq, rfl⟩ := Option.map_eq_some_iff.mp hp
    refine ⟨q, hq, ?_⟩
    rintro rfl
    split_ifs at hne
    · exact hne hf
    · exact hne rfl
  obtain ⟨hi, p, hp, hne⟩ := h
  cases op with
  | idle => exact .inl ⟨hi, p, hp, hne⟩
  | arm =>
      change p ∈ (s.loops ++ [prog.first])[i]? at hp
      rcases Nat.lt_trichotomy i s.loops.length with hlt | heq | hgt
      · rw [List.getElem?_append_left hlt] at hp
        exact .inl ⟨hi, p, hp, hne⟩
      · exact .inr ⟨rfl, heq⟩
      · rw [List.getElem?_eq_none (by rw [List.length_append]; exact hgt)] at hp
        cases hp
  | tell => exact absurd ⟨hi, p, hp, hne⟩ (not_active_tell i)
  | advance j => exact .inl ⟨hi, hmodify (prog.next_finished s.flag) p hp hne⟩
  | halt j => exact .inl ⟨hi, hmodify rfl p hp hne⟩

/-- A new loop is the only one, if no other was active. -/
theorem AtMostOne.apply (h : s.AtMostOne prog) {op : PoolOp}
    (hlone : op = .arm → ∀ i, ¬s.Active prog i) : (s.apply prog op).AtMostOne prog := by
  intro i j hi hj
  rcases hi.of_apply with hi | ⟨harm, hi⟩
  · rcases hj.of_apply with hj | ⟨harm, -⟩
    · exact h i j hi hj
    · exact absurd hi (hlone harm i)
  · rcases hj.of_apply with hj | ⟨-, hj⟩
    · exact absurd hj (hlone harm j)
    · exact hi.trans hj.symm

end LoopPool

/-! ## Components -/

/-- A component that owns such loops: its steps are steps of the pool, and it
begins a loop only if no other is active. -/
structure LoopOwner {P : Type u} (prog : FlagLoop P) (σ : Type v) (α : Type w) where
  step : α → σ → σ
  pool : σ → LoopPool P
  op : α → σ → PoolOp
  pool_step : ∀ a s, pool (step a s) = (pool s).apply prog (op a s)
  loop : Nat → α
  op_loop : ∀ i s, op (loop i) s = .advance i
  Inv : σ → Prop
  inv_step : ∀ a s, Inv s → Inv (step a s)
  lone : ∀ a s, Inv s → op a s = .arm → ∀ i, ¬(pool s).Active prog i

namespace LoopOwner

variable {P : Type u} {σ : Type v} {α : Type w} {prog : FlagLoop P} (o : LoopOwner prog σ α)

/-- The component answers with what it does to the loops. -/
def machine : Machine σ α PoolOp :=
  fun a s => (o.op a s, o.step a s)

/-- A loop is begun only when all that were told to stop are leaving. -/
def InTurn (a : α) (s : σ) : Prop :=
  o.op a s = .arm → (o.pool s).Quiet prog

/-- No loop comes back, and at most one goes on. -/
def OneLoop (a : α) (s : σ) : Prop :=
  ¬(o.pool s).Revives prog (o.op a s) ∧ (o.pool (o.step a s)).AtMostOne prog

/-- What every reachable state has. -/
structure Sound (s : σ) : Prop where
  inv : o.Inv s
  counted : (o.pool s).Counted
  one : (o.pool s).AtMostOne prog

variable {o} {s : σ}

theorem Sound.step (h : o.Sound s) (a : α) : o.Sound (o.step a s) where
  inv := o.inv_step a s h.inv
  counted := o.pool_step a s ▸ h.counted.apply _
  one := o.pool_step a s ▸ h.one.apply (o.lone a s h.inv)

theorem Sound.after (h : o.Sound s) (acts : List α) : o.Sound (o.machine.after acts s) := by
  induction acts generalizing s with
  | nil => exact h
  | cons a acts ih => exact ih (h.step a)

/-- As long as loops are begun in turn, those that are old are leaving. -/
theorem oneLoop_of_inTurn {acts : List α} (h : o.Sound s)
    (hold : (o.pool s).Left prog (o.pool s).old) (hturn : o.machine.Meets o.InTurn acts s) :
    o.machine.Meets o.OneLoop acts s := by
  induction acts generalizing s with
  | nil => trivial
  | cons a acts ih =>
      obtain ⟨ha, hrest⟩ := hturn
      refine ⟨⟨LoopPool.not_revives hold _, (h.step a).one⟩, ih (h.step a) ?_ hrest⟩
      rw [show (o.machine a s).2 = o.step a s from rfl, o.pool_step]
      have hlength := h.counted.old.trans h.counted.told
      by_cases harm : o.op a s = .arm
      · have hquiet := LoopPool.Left.apply (ha harm) h.counted.told (o.op a s)
        rw [harm] at hquiet ⊢
        exact hquiet
      · have hsame : ((o.pool s).apply prog (o.op a s)).old = (o.pool s).old := by
          cases hop : o.op a s with
          | arm => exact absurd hop harm
          | idle | tell | advance | halt => rfl
        rw [hsame]
        exact hold.apply hlength _

/-- A loop that is not leaving, and the flag cleared: it comes back. -/
theorem not_oneLoop_of_loop {i : Nat} {p : P} (hflag : (o.pool s).flag = false)
    (hi : i < (o.pool s).old) (hp : p ∈ (o.pool s).loops[i]?) (hstays : ¬prog.Leaving p) :
    ∃ n, ¬o.machine.Meets o.OneLoop (List.replicate n (o.loop i)) s := by
  obtain ⟨n, hn⟩ := prog.returns p hstays
  refine ⟨n + 1, ?_⟩
  clear hstays
  induction n generalizing s p with
  | zero =>
      rintro ⟨⟨hrevives, -⟩, -⟩
      rw [o.op_loop] at hrevives
      refine hrevives ⟨hi, p, hp, ?_⟩
      rw [hflag]
      exact hn
  | succ n ih =>
      rintro ⟨-, hrest⟩
      have hpool : (o.pool (o.step (o.loop i) s)) =
          { o.pool s with loops := (o.pool s).loops.modify i (prog.next false) } := by
        rw [o.pool_step, o.op_loop, ← hflag]
        rfl
      refine ih (s := o.step (o.loop i) s) (p := prog.next false p) ?_ ?_ ?_ hn hrest
      · rw [hpool]
        exact hflag
      · rw [hpool]
        exact hi
      · rw [hpool]
        change prog.next false p ∈ ((o.pool s).loops.modify i _)[i]?
        rw [List.getElem?_modify_eq, hp]
        rfl

/-- The steps of the loops begin none. -/
theorem inTurn_loops (loops : List Nat) (s : σ) :
    o.machine.Meets o.InTurn (loops.map o.loop) s := by
  induction loops generalizing s with
  | nil => trivial
  | cons i loops ih =>
      refine ⟨fun harm => ?_, ih _⟩
      rw [o.op_loop] at harm
      cases harm

/-- Loops are begun in turn, exactly if whenever only loops go on from then, at
most one does and none comes back. -/
theorem inTurn_iff {acts : List α} (h : o.Sound s)
    (hold : (o.pool s).Left prog (o.pool s).old) :
    o.machine.Meets o.InTurn acts s ↔
      ∀ (before : List α) (loops : List Nat), before <+: acts →
        o.machine.Meets o.OneLoop (before ++ loops.map o.loop) s := by
  constructor
  · rintro hturn before loops ⟨rest, rfl⟩
    refine oneLoop_of_inTurn h hold (Machine.meets_append.mpr ⟨?_, inTurn_loops loops _⟩)
    exact (Machine.meets_append.mp hturn).1
  · intro hall
    induction acts using List.reverseRecOn with
    | nil => trivial
    | append_singleton acts a ih =>
        refine Machine.meets_concat.mpr
          ⟨ih fun before loops hbegins => hall before loops (hbegins.trans (acts.prefix_append _)),
            fun harm => ?_⟩
        by_contra hloud
        obtain ⟨i, hi, p, hp, hstays⟩ : ∃ i < (o.pool (o.machine.after acts s)).told,
            ∃ p ∈ (o.pool (o.machine.after acts s)).loops[i]?, ¬prog.Leaving p := by
          unfold LoopPool.Quiet LoopPool.Left at hloud
          simpa only [not_forall, exists_prop] using hloud
        -- the new loop has cleared the flag
        have hcounted := (h.after acts).counted
        have hpool : o.pool (o.machine.after (acts ++ [a]) s) =
            (o.pool (o.machine.after acts s)).apply prog .arm := by
          rw [Machine.after_concat, ← harm]
          exact o.pool_step a _
        obtain ⟨n, hn⟩ := not_oneLoop_of_loop (o := o) (s := o.machine.after (acts ++ [a]) s)
          (i := i) (p := p) (by rw [hpool]; rfl) (by rw [hpool]; exact hi)
          (by
            rw [hpool]
            change p ∈ (_ ++ [prog.first])[i]?
            rw [List.getElem?_append_left (Nat.lt_of_lt_of_le hi hcounted.told)]
            exact hp) hstays
        have hruns := hall (acts ++ [a]) (List.replicate n i) (List.prefix_refl _)
        rw [List.map_replicate] at hruns
        exact hn (Machine.meets_append.mp hruns).2

end LoopOwner
