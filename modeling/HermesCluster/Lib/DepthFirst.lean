import Mathlib.Logic.Relation
/-!
# Depth-first walks of bounded depth

A walk through a graph from the nodes of a list. It follows each node once, and
none below its depth; what it finds are the nodes next to those it follows. So
what it finds can be reached in as many steps as it is deep, and it finds all
that can be reached if no path of distinct nodes takes more steps than that.
-/

universe u

open Relation

section DepthFirst

/-- A walk from the nodes of a list, with `n` levels left: what was followed
before it, and what is followed after it. -/
inductive DepthFirst {κ : Type u} (next : κ → List κ) :
    Nat → List κ → List κ → List κ → Prop
  | done {n seen} : DepthFirst next n [] seen seen
  | deep {x xs seen seen'} (h : DepthFirst next 0 xs seen seen') :
      DepthFirst next 0 (x :: xs) seen seen'
  | again {n x xs seen seen'} (hx : x ∈ seen) (h : DepthFirst next n xs seen seen') :
      DepthFirst next n (x :: xs) seen seen'
  | follow {n x xs seen seen₁ seen₂} (hx : x ∉ seen)
      (hbelow : DepthFirst next n (next x) (x :: seen) seen₁)
      (h : DepthFirst next (n + 1) xs seen₁ seen₂) :
      DepthFirst next (n + 1) (x :: xs) seen seen₂

namespace DepthFirst

variable {κ : Type u} {next : κ → List κ} {root : κ} {n : Nat} {xs seen seen' : List κ}

theorem of_zero (h : DepthFirst next 0 xs seen seen') : seen' = seen := by
  generalize hn : 0 = n at h
  induction h with
  | done => rfl
  | deep _ ih => exact ih hn
  | again _ _ ih => exact ih hn
  | follow => cases hn

/-- The same nodes are followed whatever the derivation. -/
theorem unique {seen'' : List κ} (h : DepthFirst next n xs seen seen')
    (h' : DepthFirst next n xs seen seen'') : seen'' = seen' := by
  induction h generalizing seen'' with
  | done =>
      cases h'
      rfl
  | deep _ ih =>
      cases h' with
      | deep h' => exact ih h'
      | again _ h' => exact ih h'
  | again hx _ ih =>
      cases h' with
      | deep h' => exact ih h'
      | again _ h' => exact ih h'
      | follow hnot _ _ => exact absurd hx hnot
  | follow hnot _ _ ihbelow ih =>
      cases h' with
      | again hx _ => exact absurd hx hnot
      | follow _ hbelow h' =>
          cases ihbelow hbelow
          exact ih h'

/-- One more node in front of those of a walk. -/
theorem cons {x : κ} {seen₁ : List κ} (hx : DepthFirst next n [x] seen seen₁)
    (h : DepthFirst next n xs seen₁ seen') : DepthFirst next n (x :: xs) seen seen' := by
  cases hx with
  | deep hnil =>
      cases hnil
      exact .deep h
  | again hx hnil =>
      cases hnil
      exact .again hx h
  | follow hnot hbelow hnil =>
      cases hnil
      exact .follow hnot hbelow h

theorem subset (h : DepthFirst next n xs seen seen') : ∀ x ∈ seen, x ∈ seen' := by
  induction h with
  | done => exact fun _ hx => hx
  | deep _ ih => exact ih
  | again _ _ ih => exact ih
  | follow _ _ _ ihbelow ih => exact fun x hx => ih x (ihbelow x (List.mem_cons_of_mem _ hx))

/-- A node that is followed was given, or is next to one that is followed. -/
theorem found_of_mem (h : DepthFirst next n xs seen seen') :
    ∀ y ∈ seen', y ∈ seen ∨ y ∈ xs ∨ ∃ x ∈ seen', y ∈ next x := by
  induction h with
  | done => exact fun y hy => .inl hy
  | deep _ ih =>
      exact fun y hy => (ih y hy).imp_right (Or.imp_left (List.mem_cons_of_mem _))
  | again _ _ ih =>
      exact fun y hy => (ih y hy).imp_right (Or.imp_left (List.mem_cons_of_mem _))
  | @follow n x xs seen seen₁ seen₂ hnot hbelow hrest ihbelow ih =>
      intro y hy
      rcases ih y hy with hmem | hmem | hfound
      · rcases ihbelow y hmem with hmem | hmem | ⟨z, hz, hyz⟩
        · rcases List.mem_cons.mp hmem with rfl | hmem
          · exact .inr (.inl List.mem_cons_self)
          · exact .inl hmem
        · exact .inr (.inr ⟨x, hrest.subset x (hbelow.subset x List.mem_cons_self), hmem⟩)
        · exact .inr (.inr ⟨z, hrest.subset z hz, hyz⟩)
      · exact .inr (.inl (List.mem_cons_of_mem _ hmem))
      · exact .inr (.inr hfound)

/-! ### What is found is near -/

/-- At most `n` steps lead from the first node to the second. -/
def Within (next : κ → List κ) : Nat → κ → κ → Prop
  | 0, x, y => x = y
  | n + 1, x, y => x = y ∨ ∃ z ∈ next x, Within next n z y

theorem within_of_mem (h : DepthFirst next n xs seen seen') :
    ∀ y ∈ seen', y ∈ seen ∨ ∃ x ∈ xs, ∃ m < n, Within next m x y := by
  induction h with
  | done => exact fun y hy => .inl hy
  | deep h _ =>
      intro y hy
      rw [h.of_zero] at hy
      exact .inl hy
  | again _ _ ih =>
      intro y hy
      refine (ih y hy).imp_right ?_
      rintro ⟨x, hx, hnear⟩
      exact ⟨x, List.mem_cons_of_mem _ hx, hnear⟩
  | @follow n x xs seen seen₁ seen₂ _ _ _ ihbelow ih =>
      intro y hy
      rcases ih y hy with hmem | ⟨z, hz, hnear⟩
      · rcases ihbelow y hmem with hmem | ⟨z, hz, m, hm, hnear⟩
        · rcases List.mem_cons.mp hmem with rfl | hmem
          · exact .inr ⟨y, List.mem_cons_self, 0, Nat.succ_pos n, rfl⟩
          · exact .inl hmem
        · exact .inr ⟨x, List.mem_cons_self, m + 1, Nat.succ_lt_succ hm, .inr ⟨z, hz, hnear⟩⟩
      · exact .inr ⟨z, List.mem_cons_of_mem _ hz, hnear⟩

/-! ### All is found if no path is long -/

/-- A path from the root, its last node first. -/
inductive Trail (next : κ → List κ) (root : κ) : List κ → Prop
  | start : Trail next root [root]
  | step {x y : κ} {p : List κ} (h : Trail next root (x :: p)) (hy : y ∈ next x) :
      Trail next root (y :: x :: p)

/-- No path of distinct nodes takes more than `n` steps from the root. -/
def Shallow (next : κ → List κ) (n : Nat) (root : κ) : Prop :=
  ∀ p, Trail next root p → p.Nodup → p.length ≤ n + 1

/-- A node that is followed, or that leads nowhere else than to such nodes. -/
def Settled (next : κ → List κ) (seen : List κ) (y : κ) : Prop :=
  y ∈ seen ∨ ∀ z ∈ next y, z = y ∨ z ∈ seen

theorem Settled.mono {y : κ} (hsub : ∀ x ∈ seen, x ∈ seen') (h : Settled next seen y) :
    Settled next seen' y :=
  h.imp (hsub y) (fun h z hz => (h z hz).imp_right (hsub z))

/-- The walk, with the branch that led to it, leaves nothing unsettled. -/
theorem settled {depth : Nat} (hshallow : Shallow next depth root)
    (h : DepthFirst next n xs seen seen') (branch : List κ)
    (htrail : ∀ x ∈ xs, Trail next root (x :: branch)) (hnodup : branch.Nodup)
    (hbranch : ∀ x ∈ branch, x ∈ seen) (hdepth : n + branch.length = depth) :
    (∀ x ∈ xs, Settled next seen' x) ∧
      ∀ x ∈ seen', x ∉ seen → ∀ y ∈ next x, Settled next seen' y := by
  induction h generalizing branch with
  | done => exact ⟨fun x hx => (by cases hx), fun x hx hnot => absurd hx hnot⟩
  | @deep x xs seen seen' h ih =>
      rw [List.forall_mem_cons] at htrail
      obtain ⟨hrest, hnew⟩ := ih branch htrail.2 hnodup hbranch hdepth
      refine ⟨List.forall_mem_cons.mpr ⟨?_, hrest⟩, hnew⟩
      by_cases hx : x ∈ seen
      · exact .inl (h.subset x hx)
      -- a node further down would make the branch too long
      refine .inr (fun z hz => Classical.byContradiction (fun hfar => ?_))
      obtain ⟨hne, hz'⟩ := not_or.mp hfar
      have hxbranch : (x :: branch).Nodup :=
        List.nodup_cons.mpr ⟨fun hmem => hx (hbranch x hmem), hnodup⟩
      have hzbranch : z ∉ x :: branch := by
        intro hmem
        rcases List.mem_cons.mp hmem with rfl | hmem
        · exact hne rfl
        · exact hz' (h.subset z (hbranch z hmem))
      have hlong := hshallow (z :: x :: branch) (htrail.1.step hz)
        (List.nodup_cons.mpr ⟨hzbranch, hxbranch⟩)
      simp only [List.length_cons] at hlong
      omega
  | @again n x xs seen seen' hx h ih =>
      rw [List.forall_mem_cons] at htrail
      obtain ⟨hrest, hnew⟩ := ih branch htrail.2 hnodup hbranch hdepth
      exact ⟨List.forall_mem_cons.mpr ⟨.inl (h.subset x hx), hrest⟩, hnew⟩
  | @follow n x xs seen seen₁ seen₂ hx hbelow h ihbelow ih =>
      rw [List.forall_mem_cons] at htrail
      have hsub : ∀ y ∈ seen, y ∈ seen₁ :=
        fun y hy => hbelow.subset y (List.mem_cons_of_mem _ hy)
      obtain ⟨hnext, hnew₁⟩ := ihbelow (x :: branch)
        (fun y hy => htrail.1.step hy)
        (List.nodup_cons.mpr ⟨fun hmem => hx (hbranch x hmem), hnodup⟩)
        (List.forall_mem_cons.mpr
          ⟨List.mem_cons_self, fun y hy => List.mem_cons_of_mem _ (hbranch y hy)⟩)
        (by rw [List.length_cons]; omega)
      obtain ⟨hrest, hnew₂⟩ := ih branch htrail.2 hnodup (fun y hy => hsub y (hbranch y hy)) hdepth
      have hxseen : x ∈ seen₂ := h.subset x (hbelow.subset x List.mem_cons_self)
      refine ⟨List.forall_mem_cons.mpr ⟨.inl hxseen, hrest⟩, fun u hu hnot y hy => ?_⟩
      by_cases hu₁ : u ∈ seen₁
      · refine Settled.mono h.subset ?_
        rcases Classical.em (u = x) with rfl | hne
        · exact hnext y hy
        · refine hnew₁ u hu₁ (fun hmem => ?_) y hy
          exact (List.mem_cons.mp hmem).elim hne hnot
      · exact hnew₂ u hu hu₁ y hy

/-- A walk as deep as the longest path of distinct nodes finds all that can be
reached from the root. -/
theorem found_of_shallow (hshallow : Shallow next (n + 1) root)
    (h : DepthFirst next (n + 1) [root] [] seen) {y : κ}
    (hy : TransGen (fun x y => y ∈ next x) root y) (hne : y ≠ root) :
    ∃ x ∈ seen, y ∈ next x := by
  obtain ⟨-, hsettled⟩ := h.settled hshallow []
    (fun x hx => List.mem_singleton.mp hx ▸ .start) .nil (fun x hx => by cases hx) rfl
  have hroot : root ∈ seen := by
    cases h with
    | again hx _ => cases hx
    | follow _ hbelow h =>
        cases h
        exact hbelow.subset root List.mem_cons_self
  have hfound : ∀ z ∈ seen, z = root ∨ ∃ x ∈ seen, z ∈ next x := by
    intro z hz
    rcases h.found_of_mem z hz with hnil | hmem | hfound
    · cases hnil
    · exact .inl (List.mem_singleton.mp hmem)
    · exact .inr hfound
  have hall : ∀ z, ReflTransGen (fun x y => y ∈ next x) root z →
      z = root ∨ ∃ x ∈ seen, z ∈ next x := by
    intro z hz
    induction hz with
    | refl => exact .inl rfl
    | @tail u z _ hz ih =>
        by_cases hu : u ∈ seen
        · exact .inr ⟨u, hu, hz⟩
        rcases ih with rfl | ⟨x, hx, hux⟩
        · exact absurd hroot hu
        · rcases (hsettled x hx List.not_mem_nil u hux).resolve_left hu z hz with rfl | hz
          · exact .inr ⟨x, hx, hux⟩
          · exact hfound z hz
  exact (hall y hy.to_reflTransGen).resolve_left hne

end DepthFirst

end DepthFirst
