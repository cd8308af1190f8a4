import Mathlib.Data.List.Basic
import Mathlib.Logic.Function.Basic
/-!
# Greedy placement

Items are served in order; each is given to the slot a chooser names, whose
load then grows by one, or is passed over. The chooser may keep a state of its
own (a round-robin cursor). When the chooser only names slots that are eligible
and have room, no slot is overfilled; when it passes an item over only for want
of room, an item passed over once has no place at the end either, because loads
only grow. A chooser that names a least loaded slot keeps the loads level, and one
that breaks ties by the pick longest ago rotates.
-/

universe u v w

/-- A chooser of slots `κ` for items `ι`, with a state `φ`. -/
structure Chooser (ι : Type u) (κ : Type v) (φ : Type w) where
  choose : φ → (κ → Nat) → ι → Option κ
  picked : φ → κ → φ

namespace Chooser

variable {ι : Type u} {κ : Type v} {φ : Type w} [DecidableEq κ]

/-- One more item on the slot `k`. -/
def bump (load : κ → Nat) (k : κ) : κ → Nat :=
  Function.update load k (load k + 1)

/-- The placements made for a list of items, in order. -/
def place (c : Chooser ι κ φ) : List ι → φ → (κ → Nat) → List (ι × κ)
  | [], _, _ => []
  | i :: is, f, load =>
      match c.choose f load i with
      | none => c.place is f load
      | some k => (i, k) :: c.place is (c.picked f k) (bump load k)

/-- The loads after some placements. -/
def loadAfter (load : κ → Nat) (ps : List (ι × κ)) (k : κ) : Nat :=
  load k + ps.countP (fun p => decide (p.2 = k))

theorem le_loadAfter (load : κ → Nat) (ps : List (ι × κ)) (k : κ) :
    load k ≤ loadAfter load ps k :=
  Nat.le_add_right _ _

@[simp] theorem loadAfter_nil (load : κ → Nat) :
    loadAfter load ([] : List (ι × κ)) = load := by
  funext k
  simp [loadAfter]

theorem loadAfter_cons (load : κ → Nat) (i : ι) (k : κ) (ps : List (ι × κ)) :
    loadAfter load ((i, k) :: ps) = loadAfter (bump load k) ps := by
  funext k'
  by_cases h : k' = k
  · subst h
    simp [loadAfter, bump]
    omega
  · simp [loadAfter, bump, h, Ne.symm h]

variable {c : Chooser ι κ φ}

theorem place_cons_none {i : ι} {is : List ι} {f : φ} {load : κ → Nat}
    (h : c.choose f load i = none) : c.place (i :: is) f load = c.place is f load := by
  rw [place, h]

theorem place_cons_some {i : ι} {is : List ι} {f : φ} {load : κ → Nat} {k : κ}
    (h : c.choose f load i = some k) :
    c.place (i :: is) f load = (i, k) :: c.place is (c.picked f k) (bump load k) := by
  rw [place, h]

/-- The items placed are some of the items served, in the same order. -/
theorem place_sublist (is : List ι) (f : φ) (load : κ → Nat) :
    ((c.place is f load).map Prod.fst).Sublist is := by
  induction is generalizing f load with
  | nil => exact List.Sublist.slnil
  | cons i is ih =>
      cases hchoose : c.choose f load i with
      | none =>
          rw [place_cons_none hchoose]
          exact (ih f load).cons i
      | some k =>
          rw [place_cons_some hchoose]
          exact (ih _ _).cons_cons i

/-- The chooser only names eligible slots with room. -/
def Sound (c : Chooser ι κ φ) (Eligible : ι → κ → Prop) (Room : κ → Nat → Prop) : Prop :=
  ∀ f load i k, c.choose f load i = some k → Eligible i k ∧ Room k (load k)

/-- The chooser passes an item over only when no eligible slot has room. -/
def Complete (c : Chooser ι κ φ) (Eligible : ι → κ → Prop) (Room : κ → Nat → Prop) : Prop :=
  ∀ f load i, c.choose f load i = none → ∀ k, Eligible i k → ¬Room k (load k)

/-- A slot with room at some load has room at every smaller one. -/
def Antitone (Room : κ → Nat → Prop) : Prop :=
  ∀ k m n, m ≤ n → Room k n → Room k m

variable {Eligible : ι → κ → Prop} {Room : κ → Nat → Prop}

theorem eligible_of_mem_place (hc : c.Sound Eligible Room) {is : List ι} {f : φ}
    {load : κ → Nat} {i : ι} {k : κ} (h : (i, k) ∈ c.place is f load) :
    Eligible i k := by
  induction is generalizing f load with
  | nil => cases h
  | cons j is ih =>
      cases hchoose : c.choose f load j with
      | none =>
          rw [place_cons_none hchoose] at h
          exact ih h
      | some k' =>
          rw [place_cons_some hchoose] at h
          rcases List.mem_cons.mp h with heq | hmem
          · cases heq
            exact (hc _ _ _ _ hchoose).1
          · exact ih hmem

/-- Nothing is placed when no item finds an eligible slot with room, as the loads
are. -/
theorem place_eq_nil_iff (hsound : c.Sound Eligible Room) (hcomplete : c.Complete Eligible Room)
    {is : List ι} {f : φ} {load : κ → Nat} :
    c.place is f load = [] ↔ ∀ i ∈ is, ∀ k, Eligible i k → ¬Room k (load k) := by
  induction is generalizing f with
  | nil => exact iff_of_true rfl (List.forall_mem_nil _)
  | cons i is ih =>
      rw [List.forall_mem_cons]
      cases hchoose : c.choose f load i with
      | none =>
          rw [place_cons_none hchoose, ih]
          exact (and_iff_right (hcomplete f load i hchoose)).symm
      | some k =>
          obtain ⟨heligible, hroom⟩ := hsound f load i k hchoose
          rw [place_cons_some hchoose]
          exact iff_of_false (List.cons_ne_nil _ _) (fun h => h.1 k heligible hroom)

/-- A slot that was given an item had room just before its last one. -/
theorem room_of_mem_place (hc : c.Sound Eligible Room) {is : List ι} {f : φ}
    {load : κ → Nat} {i : ι} {k : κ} (h : (i, k) ∈ c.place is f load) :
    ∃ n, loadAfter load (c.place is f load) k = n + 1 ∧ Room k n := by
  induction is generalizing f load i with
  | nil => cases h
  | cons j is ih =>
      cases hchoose : c.choose f load j with
      | none =>
          rw [place_cons_none hchoose] at h ⊢
          exact ih h
      | some k' =>
          rw [place_cons_some hchoose] at h ⊢
          rw [loadAfter_cons]
          by_cases hlater : ∃ i', (i', k) ∈ c.place is (c.picked f k') (bump load k')
          · obtain ⟨i', hi'⟩ := hlater
            exact ih hi'
          · rcases List.mem_cons.mp h with heq | hmem
            · cases heq
              have hzero : (c.place is (c.picked f k) (bump load k)).countP
                  (fun p => decide (p.2 = k)) = 0 := by
                rw [List.countP_eq_zero]
                rintro ⟨i', k''⟩ hmem hk
                obtain rfl := of_decide_eq_true hk
                exact hlater ⟨i', hmem⟩
              refine ⟨load k, ?_, (hc _ _ _ _ hchoose).2⟩
              rw [loadAfter, hzero]
              simp [bump]
            · exact absurd ⟨i, hmem⟩ hlater

/-- Work conservation: an item that was served and not placed has no eligible
slot with room at the end. -/
theorem no_room_of_not_placed (hc : c.Complete Eligible Room) (hanti : Antitone Room)
    {is : List ι} {f : φ} {load : κ → Nat} {i : ι} (hi : i ∈ is)
    (hnot : ∀ k, (i, k) ∉ c.place is f load) {k : κ} (hk : Eligible i k) :
    ¬Room k (loadAfter load (c.place is f load) k) := by
  induction is generalizing f load with
  | nil => cases hi
  | cons j is ih =>
      cases hchoose : c.choose f load j with
      | none =>
          rw [place_cons_none hchoose] at hnot ⊢
          rcases List.mem_cons.mp hi with rfl | hmem
          · intro hroom
            exact hc _ _ _ hchoose k hk (hanti k _ _ (le_loadAfter _ _ _) hroom)
          · exact ih hmem hnot
      | some k' =>
          rw [place_cons_some hchoose] at hnot ⊢
          rw [loadAfter_cons]
          rcases List.mem_cons.mp hi with rfl | hmem
          · exact absurd List.mem_cons_self (hnot k')
          · exact ih hmem (fun k'' hmem' => hnot k'' (List.mem_cons_of_mem _ hmem'))

theorem le_bump (load : κ → Nat) (k k' : κ) : load k' ≤ bump load k k' := by
  by_cases h : k' = k
  · subst h
    simp [bump]
  · simp [bump, h]

/-- An item without an eligible slot with room is never placed. -/
theorem not_placed_of_full (hc : c.Sound Eligible Room) (hanti : Antitone Room)
    {is : List ι} {f : φ} {load : κ → Nat} {j : ι}
    (hfull : ∀ k, Eligible j k → ¬Room k (load k)) :
    ∀ k, (j, k) ∉ c.place is f load := by
  induction is generalizing f load with
  | nil =>
      intro k h
      cases h
  | cons i is ih =>
      intro k h
      cases hchoose : c.choose f load i with
      | none =>
          rw [place_cons_none hchoose] at h
          exact ih hfull k h
      | some k' =>
          rw [place_cons_some hchoose] at h
          rcases List.mem_cons.mp h with heq | hmem
          · cases heq
            obtain ⟨helig, hroom⟩ := hc _ _ _ _ hchoose
            exact hfull k helig hroom
          · refine ih (fun k'' helig hroom => hfull k'' helig ?_) k hmem
            exact hanti k'' _ _ (le_bump load k' k'') hroom

/-- Order: an item whose slots are all eligible for an earlier item that was
passed over is passed over too. -/
theorem not_placed_of_earlier (before after : List ι) (f : φ) (load : κ → Nat)
    (hsound : c.Sound Eligible Room) (hcomplete : c.Complete Eligible Room)
    (hanti : Antitone Room) {i j : ι} (hj : j ∉ before)
    (hsame : ∀ k, Eligible j k → Eligible i k)
    (hnot : ∀ k, (i, k) ∉ c.place (before ++ i :: after) f load) :
    ∀ k, (j, k) ∉ c.place (before ++ i :: after) f load := by
  induction before generalizing f load with
  | nil =>
      rw [List.nil_append] at hnot ⊢
      cases hchoose : c.choose f load i with
      | none =>
          rw [place_cons_none hchoose]
          refine not_placed_of_full hsound hanti (fun k hk => ?_)
          exact hcomplete _ _ _ hchoose k (hsame k hk)
      | some k' =>
          rw [place_cons_some hchoose] at hnot
          exact absurd List.mem_cons_self (hnot k')
  | cons i' before ih =>
      rw [List.cons_append] at hnot ⊢
      obtain ⟨hji', hjb⟩ := not_or.mp (mt List.mem_cons.mpr hj)
      intro k hmem
      cases hchoose : c.choose f load i' with
      | none =>
          rw [place_cons_none hchoose] at hnot hmem
          exact ih _ _ hjb hnot k hmem
      | some k' =>
          rw [place_cons_some hchoose] at hnot hmem
          rcases List.mem_cons.mp hmem with heq | hmem
          · cases heq
            exact hji' rfl
          · exact ih _ _ hjb (fun k'' h => hnot k'' (List.mem_cons_of_mem _ h)) k hmem

/-! ## The moment of one placement -/

/-- The chooser's state after some placements. -/
def pickedAll (c : Chooser ι κ φ) (f : φ) (ps : List (ι × κ)) : φ :=
  ps.foldl (fun f p => c.picked f p.2) f

theorem loadAfter_append (load : κ → Nat) (ps qs : List (ι × κ)) (k : κ) :
    loadAfter load (ps ++ qs) k = loadAfter load ps k + qs.countP (fun p => decide (p.2 = k)) := by
  rw [loadAfter, loadAfter, List.countP_append, Nat.add_assoc]

/-- Each placement is the chooser's answer at its moment. -/
theorem choose_of_place {is : List ι} {f : φ} {load : κ → Nat} {before after : List (ι × κ)}
    {i : ι} {k : κ} (h : c.place is f load = before ++ (i, k) :: after) :
    i ∈ is ∧ c.choose (c.pickedAll f before) (loadAfter load before) i = some k := by
  induction is generalizing f load before with
  | nil => cases before <;> cases h
  | cons j is ih =>
      cases hchoose : c.choose f load j with
      | none =>
          rw [place_cons_none hchoose] at h
          obtain ⟨hmem, hpick⟩ := ih h
          exact ⟨List.mem_cons_of_mem _ hmem, hpick⟩
      | some k' =>
          rw [place_cons_some hchoose] at h
          cases before with
          | nil =>
              obtain ⟨hhead, -⟩ := List.cons.inj h
              cases hhead
              rw [loadAfter_nil]
              exact ⟨List.mem_cons_self, hchoose⟩
          | cons p before =>
              obtain ⟨rfl, htail⟩ := List.cons.inj h
              obtain ⟨hmem, hpick⟩ := ih htail
              rw [loadAfter_cons]
              exact ⟨List.mem_cons_of_mem _ hmem, hpick⟩

/-- A slot that was given an item was given a last one. -/
theorem exists_last_placement {ps : List (ι × κ)} {i : ι} {k : κ} (h : (i, k) ∈ ps) :
    ∃ before i' after, ps = before ++ (i', k) :: after ∧
      after.countP (fun p => decide (p.2 = k)) = 0 := by
  induction ps generalizing i with
  | nil => cases h
  | cons p ps ih =>
      by_cases hlater : ∃ i', (i', k) ∈ ps
      · obtain ⟨i', hi'⟩ := hlater
        obtain ⟨before, i'', after, rfl, hzero⟩ := ih hi'
        exact ⟨p :: before, i'', after, rfl, hzero⟩
      · rcases List.mem_cons.mp h with rfl | hmem
        · refine ⟨[], i, ps, rfl, List.countP_eq_zero.mpr ?_⟩
          rintro ⟨i', k'⟩ hmem hk
          obtain rfl := of_decide_eq_true hk
          exact hlater ⟨i', hmem⟩
        · exact absurd ⟨i, hmem⟩ hlater

/-! ## The least loaded slot -/

/-- The chooser names a slot that no eligible slot with room undercuts. -/
def Least (c : Chooser ι κ φ) (Eligible : ι → κ → Prop) (Room : κ → Nat → Prop) : Prop :=
  ∀ f load i k, c.choose f load i = some k →
    ∀ k', Eligible i k' → Room k' (load k') → load k ≤ load k'

/-- When a slot is eligible for every item, none that was given an item ends more
than one above it while it has room. -/
theorem balanced_of_place (hc : c.Least Eligible Room) (hanti : Antitone Room) {is : List ι}
    {f : φ} {load : κ → Nat} {i : ι} {k k' : κ} (hk : (i, k) ∈ c.place is f load)
    (hslot : ∀ i ∈ is, Eligible i k')
    (hroom : Room k' (loadAfter load (c.place is f load) k')) :
    loadAfter load (c.place is f load) k ≤ loadAfter load (c.place is f load) k' + 1 := by
  obtain ⟨before, i', after, hsplit, hlast⟩ := exists_last_placement hk
  obtain ⟨hmem, hpick⟩ := choose_of_place hsplit
  have hgrown : ∀ k'', loadAfter load before k'' ≤
      loadAfter load (c.place is f load) k'' := by
    intro k''
    rw [hsplit, loadAfter_append]
    exact Nat.le_add_right _ _
  -- at its last placement the slot was a least loaded one
  have hleast : loadAfter load before k ≤ loadAfter load before k' :=
    hc _ _ _ _ hpick k' (hslot i' hmem) (hanti k' _ _ (hgrown k') hroom)
  calc loadAfter load (c.place is f load) k
      = loadAfter load before k + 1 := by
        rw [hsplit, loadAfter_append, List.countP_cons, hlast]
        simp
    _ ≤ loadAfter load before k' + 1 := Nat.add_le_add_right hleast 1
    _ ≤ loadAfter load (c.place is f load) k' + 1 := Nat.add_le_add_right (hgrown k') 1

/-! ## Rotation -/

/-- A chooser that remembers when each slot was picked last, in states that are
`InTurn`, and prefers the one picked longest ago among equally loaded slots. -/
structure Rotates (c : Chooser ι κ φ) (Eligible : ι → κ → Prop) (Room : κ → Nat → Prop)
    (InTurn : φ → Prop) (last : φ → κ → Int) : Prop where
  keeps : ∀ f k, InTurn f → InTurn (c.picked f k)
  newest : ∀ f k k', InTurn f → last f k' < last (c.picked f k) k
  others : ∀ f k k', k' ≠ k → last (c.picked f k) k' = last f k'
  longest : ∀ f load i k, c.choose f load i = some k →
    ∀ k', Eligible i k' → Room k' (load k') → load k' = load k → last f k ≤ last f k'

section Rotates

variable {InTurn : φ → Prop} {last : φ → κ → Int}

omit [DecidableEq κ] in
theorem Rotates.keepsAll (h : c.Rotates Eligible Room InTurn last) {f : φ} (hf : InTurn f)
    (ps : List (ι × κ)) : InTurn (c.pickedAll f ps) := by
  induction ps generalizing f with
  | nil => exact hf
  | cons p ps ih => exact ih (h.keeps f p.2 hf)

/-- A slot stays ahead of one that is not picked meanwhile. -/
theorem Rotates.ahead (h : c.Rotates Eligible Room InTurn last) {f : φ} (hf : InTurn f) {k k' : κ}
    (hless : last f k' < last f k) {ps : List (ι × κ)} (hnot : ∀ p ∈ ps, p.2 ≠ k') :
    last (c.pickedAll f ps) k' < last (c.pickedAll f ps) k := by
  induction ps generalizing f with
  | nil => exact hless
  | cons p ps ih =>
      rw [List.forall_mem_cons] at hnot
      refine ih (h.keeps f p.2 hf) ?_ hnot.2
      rw [h.others f p.2 k' (Ne.symm hnot.1)]
      by_cases hself : k = p.2
      · rw [hself]
        exact h.newest f p.2 k' hf
      · rw [h.others f p.2 k hself]
        exact hless

/-- Between two picks of a slot, every other slot that is equally loaded at some
moment from just before the first to just before the second, eligible and with room
there, is picked too. -/
theorem Rotates.between (h : c.Rotates Eligible Room InTurn last) (hleast : c.Least Eligible Room)
    {is : List ι} {f : φ} (hf : InTurn f) {load : κ → Nat}
    {before mid after : List (ι × κ)} {i i' : ι} {k k' : κ} (hne : k' ≠ k)
    (hplace : c.place is f load = before ++ (i, k) :: (mid ++ (i', k) :: after))
    (hslot : ∀ i ∈ is, Eligible i k') {done rest : List (ι × κ)}
    (hmoment : (i, k) :: mid = done ++ rest)
    (hequal : loadAfter load (before ++ done) k' = loadAfter load (before ++ done) k)
    (hroom : Room k' (loadAfter load (before ++ done) k')) :
    ∃ p ∈ mid, p.2 = k' := by
  by_contra hnone
  have hmid : ∀ p ∈ mid, p.2 ≠ k' := fun p hp heq => hnone ⟨p, hp, heq⟩
  have hstart : ∀ p ∈ (i, k) :: mid, p.2 ≠ k' :=
    List.forall_mem_cons.mpr ⟨Ne.symm hne, hmid⟩
  have hsplit : c.place is f load = (before ++ (i, k) :: mid) ++ (i', k) :: after := by
    rw [hplace, List.append_assoc, List.cons_append]
  obtain ⟨hmem, hpick⟩ := choose_of_place hsplit
  -- the other slot has the same load at the second pick
  have hsame : loadAfter load (before ++ (i, k) :: mid) k' =
      loadAfter load (before ++ done) k' := by
    have hzero : rest.countP (fun p => decide (p.2 = k')) = 0 := by
      refine List.countP_eq_zero.mpr (fun p hp hk => ?_)
      refine hstart p ?_ (of_decide_eq_true hk)
      rw [hmoment]
      exact List.mem_append_right _ hp
    rw [hmoment, ← List.append_assoc, loadAfter_append, hzero, Nat.add_zero]
  have hgrown : loadAfter load (before ++ (i, k) :: mid) k =
      loadAfter load (before ++ done) k + rest.countP (fun p => decide (p.2 = k)) := by
    rw [hmoment, ← List.append_assoc, loadAfter_append]
  have hroom' : Room k' (loadAfter load (before ++ (i, k) :: mid) k') := hsame.symm ▸ hroom
  have hle := hleast _ _ _ _ hpick k' (hslot i' hmem) hroom'
  have htie : loadAfter load (before ++ (i, k) :: mid) k' =
      loadAfter load (before ++ (i, k) :: mid) k := by omega
  have hlongest := h.longest _ _ _ _ hpick k' (hslot i' hmem) hroom' htie
  have hturn : InTurn (c.pickedAll f before) := h.keepsAll hf before
  have hahead : last (c.pickedAll (c.pickedAll f before) ((i, k) :: mid)) k' <
      last (c.pickedAll (c.pickedAll f before) ((i, k) :: mid)) k := by
    refine h.ahead (h.keeps _ k hturn) ?_ hmid
    rw [h.others _ k k' hne]
    exact h.newest _ k k' hturn
  have hfold : c.pickedAll f (before ++ (i, k) :: mid) =
      c.pickedAll (c.pickedAll f before) ((i, k) :: mid) := by
    unfold Chooser.pickedAll
    rw [List.foldl_append]
  rw [hfold] at hlongest
  exact absurd hlongest (Int.not_le.mpr hahead)

end Rotates

end Chooser
