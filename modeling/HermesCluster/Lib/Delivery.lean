import Mathlib.Data.List.MinMax
import Mathlib.Data.List.Perm.Subperm
import Mathlib.Logic.Function.Basic
import Mathlib.Order.Basic
/-!
# Delivery behind a version gate

Messages with versions are delivered one after another to a state. A message is
let through if its version is above the last one that was, and dropped otherwise;
so what a run applies is a chain of messages with rising versions. The order of
delivery is free if every order ends in the same state.
-/

universe u v w

namespace Delivery

section Gate

variable {μ : Type u} {σ : Type v} {ν : Type w} [LinearOrder ν]
  (ver : μ → ν) (eff : μ → σ → σ)

/-- One message; the gate holds the version it let through last. -/
def receive (x : ν × σ) (m : μ) : ν × σ :=
  if ver m ≤ x.1 then x else (ver m, eff m x.2)

def deliver (x : ν × σ) (ms : List μ) : ν × σ :=
  ms.foldl (receive ver eff) x

/-- What a chain of messages does, each of them let through. -/
def applyAll (y : σ) (ms : List μ) : σ :=
  ms.foldl (fun y m => eff m y) y

/-- Every order of delivery ends in the same state. -/
def OrderFree (x : ν × σ) (ms : List μ) : Prop :=
  ∀ l₁ l₂ : List μ, l₁.Perm ms → l₂.Perm ms → (deliver ver eff x l₁).2 = (deliver ver eff x l₂).2

/-- A live message of the highest version. -/
structure IsTop (version : ν) (ms : List μ) (t : μ) : Prop where
  mem : t ∈ ms
  live : version < ver t
  top : ∀ m ∈ ms, ver m ≤ ver t

/-- A chain that the gate lets through when it is delivered first, and behind
which it lets nothing through. -/
structure IsChain (version : ν) (ms c : List μ) : Prop where
  subset : c ⊆ ms
  rising : c.Pairwise (fun m m' => ver m < ver m')
  live : ∀ m ∈ c, version < ver m
  top : ∀ m ∈ ms, version < ver m → ∃ t ∈ c, ver m ≤ ver t

variable {ver eff} {x : ν × σ} {ms : List μ} {m t : μ}

theorem receive_stale (h : ver m ≤ x.1) : receive ver eff x m = x :=
  if_pos h

theorem receive_live (h : x.1 < ver m) : receive ver eff x m = (ver m, eff m x.2) :=
  if_neg (not_le_of_gt h)

@[simp] theorem deliver_nil : deliver ver eff x [] = x := rfl

@[simp] theorem deliver_cons :
    deliver ver eff x (m :: ms) = deliver ver eff (receive ver eff x m) ms := rfl

theorem deliver_append (ms ms' : List μ) :
    deliver ver eff x (ms ++ ms') = deliver ver eff (deliver ver eff x ms) ms' :=
  List.foldl_append

theorem deliver_stale (h : ∀ m ∈ ms, ver m ≤ x.1) : deliver ver eff x ms = x := by
  induction ms with
  | nil => rfl
  | cons m ms ih =>
      rw [List.forall_mem_cons] at h
      rw [deliver_cons, receive_stale h.1]
      exact ih h.2

theorem le_receive (x : ν × σ) (m : μ) : x.1 ≤ (receive ver eff x m).1 := by
  rcases le_or_gt (ver m) x.1 with h | h
  · rw [receive_stale h]
  · rw [receive_live h]
    exact h.le

theorem ver_le_receive (x : ν × σ) (m : μ) : ver m ≤ (receive ver eff x m).1 := by
  rcases le_or_gt (ver m) x.1 with h | h
  · rw [receive_stale h]
    exact h
  · rw [receive_live h]

theorem le_deliver (x : ν × σ) (ms : List μ) : x.1 ≤ (deliver ver eff x ms).1 := by
  induction ms generalizing x with
  | nil => exact le_rfl
  | cons m ms ih => exact (le_receive x m).trans (ih _)

theorem ver_le_deliver (x : ν × σ) (hm : m ∈ ms) : ver m ≤ (deliver ver eff x ms).1 := by
  induction ms generalizing x with
  | nil => cases hm
  | cons m' ms ih =>
      cases hm with
      | head => exact (ver_le_receive x m).trans (le_deliver _ ms)
      | tail _ hm => exact ih _ hm

/-- A batch that is delivered twice. -/
theorem deliver_again (x : ν × σ) (ms : List μ) :
    deliver ver eff (deliver ver eff x ms) ms = deliver ver eff x ms :=
  deliver_stale (fun _ hm => ver_le_deliver x hm)

/-- What each live message keeps, a delivery keeps. -/
theorem deliver_of_step {Inv : ν → σ → Prop} (hstart : Inv x.1 x.2)
    (hstep : ∀ m ∈ ms, ∀ version y, version < ver m → x.1 < ver m → Inv version y →
      Inv (ver m) (eff m y)) :
    Inv (deliver ver eff x ms).1 (deliver ver eff x ms).2 := by
  suffices hrun : ∀ (l : List μ) (z : ν × σ), l ⊆ ms → x.1 ≤ z.1 → Inv z.1 z.2 →
      Inv (deliver ver eff z l).1 (deliver ver eff z l).2 from
    hrun ms x (List.Subset.refl ms) le_rfl hstart
  intro l
  induction l with
  | nil => exact fun _ _ _ hz => hz
  | cons m l ih =>
      intro z hl hxz hz
      rw [List.cons_subset] at hl
      refine ih _ hl.2 (hxz.trans (le_receive z m)) ?_
      rcases le_or_gt (ver m) z.1 with h | h
      · rw [receive_stale h]
        exact hz
      · rw [receive_live h]
        exact hstep m hl.1 z.1 z.2 h (hxz.trans_lt h) hz

/-- A chain is let through as a whole. -/
theorem deliver_rising {c : List μ} (hrising : c.Pairwise (fun m m' => ver m < ver m'))
    (hlive : ∀ m ∈ c, x.1 < ver m) : (deliver ver eff x c).2 = applyAll eff x.2 c := by
  induction c generalizing x with
  | nil => rfl
  | cons m c ih =>
      rw [List.pairwise_cons] at hrising
      rw [List.forall_mem_cons] at hlive
      rw [deliver_cons, receive_live hlive.1]
      exact ih hrising.2 (fun m' hm' => hrising.1 m' hm')

variable (eff) in
/-- What a delivery applies is a chain. -/
theorem exists_chain (x : ν × σ) (ms : List μ) :
    ∃ c, IsChain ver x.1 ms c ∧ (deliver ver eff x ms).2 = applyAll eff x.2 c := by
  induction ms generalizing x with
  | nil =>
      refine ⟨[], ⟨List.Subset.refl _, List.Pairwise.nil, List.forall_mem_nil _, ?_⟩, rfl⟩
      exact List.forall_mem_nil _
  | cons m ms ih =>
      rcases le_or_gt (ver m) x.1 with h | h
      · obtain ⟨c, hc, hrun⟩ := ih x
        refine ⟨c, ⟨List.subset_cons_of_subset _ hc.subset, hc.rising, hc.live, ?_⟩, ?_⟩
        · rw [List.forall_mem_cons]
          exact ⟨fun hlive => absurd h (not_le_of_gt hlive), hc.top⟩
        · rw [deliver_cons, receive_stale h]
          exact hrun
      · obtain ⟨c, hc, hrun⟩ := ih (ver m, eff m x.2)
        refine ⟨m :: c, ⟨?_, ?_, ?_, ?_⟩, ?_⟩
        · exact List.cons_subset_cons m hc.subset
        · exact List.pairwise_cons.mpr ⟨hc.live, hc.rising⟩
        · rw [List.forall_mem_cons]
          exact ⟨h, fun m' hm' => h.trans (hc.live m' hm')⟩
        · rw [List.forall_mem_cons]
          refine ⟨fun _ => ⟨m, List.mem_cons_self, le_rfl⟩, fun m' hm' _ => ?_⟩
          rcases le_or_gt (ver m') (ver m) with hle | hgt
          · exact ⟨m, List.mem_cons_self, hle⟩
          · obtain ⟨t, ht, htop⟩ := hc.top m' hm' hgt
            exact ⟨t, List.mem_cons_of_mem m ht, htop⟩
        · rw [deliver_cons, receive_live h]
          exact hrun

variable (eff) in
/-- Every chain is what some order applies. -/
theorem IsChain.exists_order {c : List μ} (h : IsChain ver x.1 ms c) :
    ∃ l, l.Perm ms ∧ (deliver ver eff x l).2 = applyAll eff x.2 c := by
  have hnodup : c.Nodup := h.rising.imp (fun hlt heq => hlt.ne (congrArg ver heq))
  obtain ⟨c', hperm, hsub⟩ := hnodup.subperm h.subset
  obtain ⟨rest, hrest⟩ := hsub.exists_perm_append
  refine ⟨c ++ rest, (hperm.symm.append_right rest).trans hrest.symm, ?_⟩
  have hdropped : ∀ m ∈ rest, ver m ≤ (deliver ver eff x c).1 := by
    intro m hm
    have hmem : m ∈ ms := hrest.mem_iff.mpr (List.mem_append_right c' hm)
    rcases le_or_gt (ver m) x.1 with hle | hlive
    · exact hle.trans (le_deliver x c)
    · obtain ⟨t, ht, htop⟩ := h.top m hmem hlive
      exact htop.trans (ver_le_deliver x ht)
  rw [deliver_append, deliver_stale hdropped]
  exact deliver_rising h.rising h.live

theorem IsChain.of_perm {version : ν} {l c : List μ} (h : IsChain ver version l c)
    (hperm : l.Perm ms) : IsChain ver version ms c where
  subset := List.Subset.trans h.subset hperm.subset
  rising := h.rising
  live := h.live
  top := fun m hm => h.top m (hperm.symm.subset hm)

/-- The order is free if and only if all chains do the same. -/
theorem orderFree_iff_chains :
    OrderFree ver eff x ms ↔ ∀ c c', IsChain ver x.1 ms c → IsChain ver x.1 ms c' →
      applyAll eff x.2 c = applyAll eff x.2 c' := by
  constructor
  · intro h c c' hc hc'
    obtain ⟨l, hl, hrun⟩ := hc.exists_order eff
    obtain ⟨l', hl', hrun'⟩ := hc'.exists_order eff
    rw [← hrun, ← hrun']
    exact h l l' hl hl'
  · intro h l l' hl hl'
    obtain ⟨c, hc, hrun⟩ := exists_chain eff x l
    obtain ⟨c', hc', hrun'⟩ := exists_chain eff x l'
    rw [hrun, hrun']
    exact h c c' (hc.of_perm hl) (hc'.of_perm hl')

/-! ## Short chains -/

theorem exists_top {version : ν} (hm : m ∈ ms) (hlive : version < ver m) :
    ∃ t, IsTop ver version ms t := by
  have hsome : List.argmax ver ms ≠ none := fun hnone =>
    List.ne_nil_of_mem hm (List.argmax_eq_none.mp hnone)
  obtain ⟨t, ht⟩ := Option.ne_none_iff_exists'.mp hsome
  have htop : ∀ m' ∈ ms, ver m' ≤ ver t := fun m' hm' => List.le_of_mem_argmax hm' ht
  exact ⟨t, List.argmax_mem ht, hlive.trans_le (htop m hm), htop⟩

theorem IsTop.chain {version : ν} (ht : IsTop ver version ms t) : IsChain ver version ms [t] where
  subset := List.cons_subset.mpr ⟨ht.mem, List.nil_subset ms⟩
  rising := List.pairwise_singleton _ _
  live := List.forall_mem_singleton.mpr ht.live
  top := fun m hm _ => ⟨t, List.mem_singleton_self t, ht.top m hm⟩

/-- A chain with one more message in front. -/
theorem IsChain.cons {version : ν} {c : List μ} (hc : IsChain ver version ms c) (hm : m ∈ ms)
    (hlive : version < ver m) (hbelow : ∀ m' ∈ c, ver m < ver m') :
    IsChain ver version ms (m :: c) where
  subset := List.cons_subset.mpr ⟨hm, hc.subset⟩
  rising := List.pairwise_cons.mpr ⟨hbelow, hc.rising⟩
  live := List.forall_mem_cons.mpr ⟨hlive, hc.live⟩
  top := by
    intro m' hm' hlive'
    obtain ⟨t, ht, htop⟩ := hc.top m' hm' hlive'
    exact ⟨t, List.mem_cons_of_mem m ht, htop⟩

/-- Behind a message below a top one, the top one does what it does alone. -/
theorem OrderFree.below_top (h : OrderFree ver eff x ms) (hm : m ∈ ms) (hlive : x.1 < ver m)
    (ht : IsTop ver x.1 ms t) (hbelow : ver m < ver t) : eff t (eff m x.2) = eff t x.2 :=
  orderFree_iff_chains.mp h [m, t] [t]
    (ht.chain.cons hm hlive (List.forall_mem_singleton.mpr hbelow)) ht.chain

/-- The same behind two messages with rising versions. -/
theorem OrderFree.below_below (h : OrderFree ver eff x ms) {m' : μ} (hm : m ∈ ms)
    (hlive : x.1 < ver m) (hm' : m' ∈ ms) (hrising : ver m < ver m') (ht : IsTop ver x.1 ms t)
    (hbelow : ver m' < ver t) : eff t (eff m' (eff m x.2)) = eff t x.2 := by
  have htwo : IsChain ver x.1 ms [m', t] :=
    ht.chain.cons hm' (hlive.trans hrising) (List.forall_mem_singleton.mpr hbelow)
  have hthree : IsChain ver x.1 ms [m, m', t] := by
    refine htwo.cons hm hlive ?_
    rw [List.forall_mem_cons]
    exact ⟨hrising, List.forall_mem_singleton.mpr (hrising.trans hbelow)⟩
  exact orderFree_iff_chains.mp h [m, m', t] [t] hthree ht.chain

theorem OrderFree.tops (h : OrderFree ver eff x ms) {t' : μ} (ht : IsTop ver x.1 ms t)
    (ht' : IsTop ver x.1 ms t') : eff t x.2 = eff t' x.2 :=
  orderFree_iff_chains.mp h [t] [t'] ht.chain ht'.chain

end Gate

/-! ## Registers

Each message is about one register at most, but there is one gate for all. -/

section Registers

variable {μ : Type u} {ν : Type w} [LinearOrder ν] {ι : Type v} [DecidableEq ι] {ρ : Type u}
  (ver : μ → ν) (target : μ → Option ι) (write : μ → ρ → ρ)

/-- What a message does to the registers. -/
def act (m : μ) (y : ι → ρ) : ι → ρ :=
  match target m with
  | none => y
  | some i => Function.update y i (write m (y i))

/-- A message that leaves the registers as they are. -/
def Inert (y : ι → ρ) (m : μ) : Prop :=
  ∀ i, target m = some i → write m (y i) = y i

/-- The messages about one register. -/
def about (i : ι) (ms : List μ) : List μ :=
  ms.filter (fun m => decide (target m = some i))

variable {ver target write} {y : ι → ρ} {x : ν × (ι → ρ)} {ms : List μ} {m : μ} {i : ι}

theorem mem_about : m ∈ about target i ms ↔ m ∈ ms ∧ target m = some i := by
  rw [about, List.mem_filter, decide_eq_true_eq]

theorem act_of_target (h : target m = some i) : act target write m y i = write m (y i) := by
  rw [act, h]
  exact Function.update_self i _ y

theorem act_of_ne (h : target m ≠ some i) : act target write m y i = y i := by
  rw [act]
  cases hj : target m with
  | none => rfl
  | some j =>
      have hne : i ≠ j := fun hij => h (hij ▸ hj)
      exact Function.update_of_ne hne _ y

theorem Inert.act_eq (h : Inert target write y m) : act target write m y = y := by
  funext i
  by_cases hi : target m = some i
  · rw [act_of_target hi, h i hi]
  · exact act_of_ne hi

theorem applyAll_act_apply (c : List μ) :
    applyAll (act target write) y c i = applyAll write (y i) (about target i c) := by
  induction c generalizing y with
  | nil => rfl
  | cons m c ih =>
      change applyAll (act target write) (act target write m y) c i = _
      rw [ih]
      by_cases hi : target m = some i
      · have habout : about target i (m :: c) = m :: about target i c :=
          List.filter_cons_of_pos (decide_eq_true hi)
        rw [habout, act_of_target hi]
        rfl
      · have habout : about target i (m :: c) = about target i c :=
          List.filter_cons_of_neg (fun hdec => hi (of_decide_eq_true hdec))
        rw [habout, act_of_ne hi]

omit [DecidableEq ι] in
theorem applyAll_idle {c : List μ} (h : ∀ m ∈ c, write m (y i) = y i) :
    applyAll write (y i) c = y i := by
  induction c with
  | nil => rfl
  | cons m c ih =>
      rw [List.forall_mem_cons] at h
      change applyAll write (write m (y i)) c = y i
      rw [h.1]
      exact ih h.2

/-- A live message that is not about the register of every top message does
nothing. -/
theorem OrderFree.idle (h : OrderFree ver (act target write) x ms) (hm : m ∈ ms)
    (hlive : x.1 < ver m) {t : μ} (ht : IsTop ver x.1 ms t) (hi : target m = some i)
    (hti : target t ≠ some i) : write m (x.2 i) = x.2 i := by
  rcases (ht.top m hm).lt_or_eq with hbelow | hsame
  · have hboth := congrFun (h.below_top hm hlive ht hbelow) i
    rwa [act_of_ne hti, act_of_ne hti, act_of_target hi] at hboth
  · have hmtop : IsTop ver x.1 ms m := ⟨hm, hlive, fun m' hm' => (ht.top m' hm').trans hsame.ge⟩
    have hboth := congrFun (h.tops hmtop ht) i
    rwa [act_of_ne hti, act_of_target hi] at hboth

/-- A chain of messages about the one register that all top messages are about is
a chain of all. -/
theorem IsChain.of_about {version : ν} {c : List μ}
    (htops : ∀ t, IsTop ver version ms t → target t = some i)
    (hc : IsChain ver version (about target i ms) c) : IsChain ver version ms c where
  subset := fun m hm => (mem_about.mp (hc.subset hm)).1
  rising := hc.rising
  live := hc.live
  top := by
    intro m hm hlive
    obtain ⟨t, ht⟩ := exists_top hm hlive
    obtain ⟨t', ht', htop⟩ := hc.top t (mem_about.mpr ⟨ht.mem, htops t ht⟩) ht.live
    exact ⟨t', ht', (ht.top m hm).trans htop⟩

theorem IsChain.about {version : ν} {c : List μ}
    (htops : ∀ t, IsTop ver version ms t → target t = some i) (hc : IsChain ver version ms c) :
    IsChain ver version (about target i ms) (about target i c) where
  subset := by
    intro m hm
    have hmem := mem_about.mp hm
    exact mem_about.mpr ⟨hc.subset hmem.1, hmem.2⟩
  rising := hc.rising.filter _
  live := fun m hm => hc.live m (mem_about.mp hm).1
  top := by
    intro m hm hlive
    obtain ⟨t, ht⟩ := exists_top (mem_about.mp hm).1 hlive
    obtain ⟨t', ht', htop⟩ := hc.top t ht.mem ht.live
    have htop' : IsTop ver version ms t' :=
      ⟨hc.subset ht', hc.live t' ht', fun m' hm' => (ht.top m' hm').trans htop⟩
    exact ⟨t', mem_about.mpr ⟨ht', htops t' htop'⟩, (ht.top m (mem_about.mp hm).1).trans htop⟩

/-- The order is free if and only if no live message does anything at the start, or
only those about one register do, all top messages are about that one, and the
order of the messages about it is free. -/
theorem orderFree_act_iff :
    OrderFree ver (act target write) x ms ↔
      (∀ m ∈ ms, x.1 < ver m → Inert target write x.2 m) ∨
        ∃ i, (∀ m ∈ ms, x.1 < ver m → target m ≠ some i → Inert target write x.2 m) ∧
          (∀ t, IsTop ver x.1 ms t → target t = some i) ∧
          OrderFree ver write (x.1, x.2 i) (about target i ms) := by
  constructor
  · intro h
    by_cases hone : ∃ i, ∀ t, IsTop ver x.1 ms t → target t = some i
    · obtain ⟨i, htops⟩ := hone
      refine .inr ⟨i, fun m hm hlive hne j hj => ?_, htops, ?_⟩
      · obtain ⟨t, ht⟩ := exists_top hm hlive
        have htj : target t ≠ some j := by
          rw [htops t ht, ← hj]
          exact Ne.symm hne
        exact h.idle hm hlive ht hj htj
      · rw [orderFree_iff_chains]
        intro c c' hc hc'
        have hsame := orderFree_iff_chains.mp h c c' (hc.of_about htops) (hc'.of_about htops)
        have hall : ∀ l, IsChain ver x.1 (about target i ms) l → about target i l = l := by
          intro l hl
          exact List.filter_eq_self.mpr
            (fun m hm => decide_eq_true (mem_about.mp (hl.subset hm)).2)
        have hrow := congrFun hsame i
        rwa [applyAll_act_apply, applyAll_act_apply, hall c hc, hall c' hc'] at hrow
    · refine .inl (fun m hm hlive i hi => ?_)
      rw [not_exists] at hone
      obtain ⟨t, ht⟩ := not_forall.mp (hone i)
      rw [Classical.not_imp] at ht
      exact h.idle hm hlive ht.1 hi ht.2
  · rintro (hidle | ⟨i, hidle, htops, hrow⟩)
    · rw [orderFree_iff_chains]
      have hnothing : ∀ c, IsChain ver x.1 ms c → applyAll (act target write) x.2 c = x.2 := by
        intro c hc
        funext i
        rw [applyAll_act_apply]
        refine applyAll_idle (fun m hm => ?_)
        have hmem := mem_about.mp hm
        exact hidle m (hc.subset hmem.1) (hc.live m hmem.1) i hmem.2
      intro c c' hc hc'
      rw [hnothing c hc, hnothing c' hc']
    · rw [orderFree_iff_chains] at hrow ⊢
      intro c c' hc hc'
      funext j
      rw [applyAll_act_apply, applyAll_act_apply]
      by_cases hij : i = j
      · subst hij
        exact hrow _ _ (hc.about htops) (hc'.about htops)
      · have hnothing : ∀ l, IsChain ver x.1 ms l →
            applyAll write (x.2 j) (about target j l) = x.2 j := by
          intro l hl
          refine applyAll_idle (fun m hm => ?_)
          have hmem := mem_about.mp hm
          have hne : target m ≠ some i := by
            rw [hmem.2]
            exact fun heq => hij (Option.some.inj heq).symm
          exact hidle m (hl.subset hmem.1) (hl.live m hmem.1) hne j hmem.2
        rw [hnothing c hc, hnothing c' hc']

end Registers

end Delivery
