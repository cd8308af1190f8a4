import HermesCluster.State.Promotion
/-!
# Promotion is exact

What a promotion pass counts, that a second pass finds nothing to do, and that the
order in which the rows are stored shows only where two reviewer rounds tie for the
latest one.
-/

namespace HermesCluster

section Exact

variable [Unicode]

/-! ## The count -/

section Count

variable {now : Nat} {tasks : Table Task}

/-- An iteration counts the row that it promotes. -/
theorem promoteStep_snd {st : Table Task × Nat} {t : Task} (hget : st.1.get? t.id = some t) :
    (ClusterState.promoteStep now st t.id).2 =
      st.2 + if Promotable st.1 t then 1 else 0 := by
  rw [ClusterState.promoteStep, hget]
  dsimp only
  split
  · rename_i hother
    rw [if_neg (fun h => hother h.1), Nat.add_zero]
  · rename_i hpending
    rw [not_not] at hpending
    split
    · rename_i hwaits
      rw [if_neg (fun h => hwaits h.2.1), Nat.add_zero]
    · rename_i hdeps
      rw [not_not] at hdeps
      cases hhold : LandingGate.holdReason st.1.rows t with
      | none =>
          have hprom : Promotable st.1 t := ⟨hpending, hdeps, hhold⟩
          rw [if_pos hprom]
      | some reason =>
          have hnot : ¬Promotable st.1 t := fun h => by
            rw [h.2.2] at hhold
            cases hhold
          rw [if_neg hnot, Nat.add_zero]
          dsimp only
          split <;> rfl

theorem count_foldl_promoteStep (rest : List Task) (st : Table Task × Nat) {done : List String}
    (hrows : st.1.rows = tasks.rows.map (promotedOnly now tasks done))
    (hmem : ∀ t ∈ rest, t ∈ tasks.rows) (hnodup : (rest.map Task.id).Nodup)
    (hfresh : ∀ t ∈ rest, t.id ∉ done) :
    ((rest.map Task.id).foldl (ClusterState.promoteStep now) st).2 =
      st.2 + rest.countP (fun t => decide (Promotable tasks t)) := by
  induction rest generalizing st done with
  | nil => rfl
  | cons t rest ih =>
      rw [List.map_cons, List.nodup_cons] at hnodup
      rw [List.forall_mem_cons] at hmem hfresh
      obtain ⟨hget, hstep⟩ := promoteStep_rows hrows hmem.1 hfresh.1
      have hlater : ∀ u ∈ rest, u.id ∉ done ++ [t.id] := by
        intro u hu hdone
        rcases List.mem_append.mp hdone with hold | hsame
        · exact hfresh.2 u hu hold
        · rw [List.mem_singleton] at hsame
          exact hnodup.1 (hsame ▸ List.mem_map_of_mem hu)
      have hgate : List.Forall₂ LandingGate.GateSame tasks.rows st.1.rows := by
        rw [hrows, List.forall₂_map_right_iff, List.forall₂_same]
        exact fun u _ => gateSame_promotedOnly now tasks done u
      rw [List.map_cons, List.foldl_cons, ih _ hstep hmem.2 hnodup.2 hlater, promoteStep_snd hget,
        List.countP_cons, if_congr (promotable_congr hgate t) rfl rfl]
      simp only [decide_eq_true_eq]
      omega

theorem ClusterState.count_triggerPendingTasks (now : Nat) (s : ClusterState) :
    (s.triggerPendingTasks now).1 =
      s.tasks.rows.countP (fun t => decide (Promotable s.tasks t)) := by
  have hbegin : s.tasks.rows = s.tasks.rows.map (promotedOnly now s.tasks []) := by
    have hnone : promotedOnly now s.tasks [] = id :=
      funext (fun _ => if_neg List.not_mem_nil)
    rw [hnone, List.map_id]
  have hloop := count_foldl_promoteStep s.tasks.rows (s.tasks, 0) hbegin
    (fun _ ht => ht) s.tasks.nodup (fun _ _ h => by cases h)
  rw [Nat.zero_add] at hloop
  exact hloop

/-- Every store counts the tasks that it makes ready. -/
theorem count_triggerPendingTasks (k : Backend) (now : Nat) (s : k.Store) :
    (k.step now .triggerPendingTasks s).1 =
      (k.board s).tasks.rows.countP (fun t => decide (Promotable (k.board s).tasks t)) := by
  cases k with
  | memory => exact ClusterState.count_triggerPendingTasks now s
  | sql d =>
      let m : ClusterState := { ClusterState.empty with tasks := s.tasks }
      have hsame : (ClusterStore.triggerPendingTasks d now s).1 = (m.triggerPendingTasks now).1 :=
        (triggerPendingTasks_eq d now rfl).1
      exact hsame.trans (ClusterState.count_triggerPendingTasks now m)

end Count

/-! ## A second pass -/

/-- What a pass has made of a row, it leaves alone the next time. -/
theorem promoted_promoted (now later : Nat) (tasks : Table Task) (t : Task) :
    promoted later tasks (promoted now tasks t) = promoted now tasks t := by
  have hsame := List.forall₂_same.mpr
    (fun u (_ : u ∈ tasks.rows) => LandingGate.GateSame.refl u)
  by_cases hopen : t.status = .pending ∧ DepsCompleted tasks t
  · cases hhold : LandingGate.holdReason tasks.rows t with
    | none =>
        have hfirst : promoted now tasks t = t.promote now := by
          rw [promoted, if_pos hopen, hhold]
        rw [hfirst]
        exact if_neg (fun h => by cases h.1)
    | some reason =>
        by_cases hrecorded : t.failReason = some reason
        · have hkept : ∀ time, promoted time tasks t = t := by
            intro time
            rw [promoted, if_pos hopen, hhold]
            exact if_pos hrecorded
          rw [hkept, hkept]
        · have hfirst : promoted now tasks t = t.hold now reason := by
            rw [promoted, if_pos hopen, hhold]
            exact if_neg hrecorded
          have hagain : LandingGate.holdReason tasks.rows (t.hold now reason) = some reason := by
            rw [← hhold]
            exact LandingGate.holdReason_congr hsame rfl rfl rfl
          have hopen' : (t.hold now reason).status = .pending ∧
              DepsCompleted tasks (t.hold now reason) := hopen
          rw [hfirst, promoted, if_pos hopen', hagain]
          exact if_pos rfl
  · have hkept : ∀ time, promoted time tasks t = t := fun time => if_neg hopen
    rw [hkept, hkept]

theorem triggerPendingTasks_again (k : Backend) (now later : Nat) (s : k.Store) :
    (k.step later .triggerPendingTasks (k.step now .triggerPendingTasks s).2).1 = 0 ∧
      k.board (k.step later .triggerPendingTasks (k.step now .triggerPendingTasks s).2).2 =
        k.board (k.step now .triggerPendingTasks s).2 := by
  have hgate : List.Forall₂ LandingGate.GateSame (k.board s).tasks.rows
      ((k.board s).tasks.mapRows (promoted now (k.board s).tasks)
        (keepsKey_promoted now (k.board s).tasks)).rows := by
    change List.Forall₂ _ _ ((k.board s).tasks.rows.map _)
    rw [List.forall₂_map_right_iff, List.forall₂_same]
    exact fun v _ => gateSame_promoted now _ v
  constructor
  · rw [count_triggerPendingTasks, board_triggerPendingTasks]
    refine List.countP_eq_zero.mpr (fun u hu hprom => ?_)
    obtain ⟨t, -, rfl⟩ := List.mem_map.mp hu
    exact not_promotable_promoted now _ t
      ((promotable_congr hgate _).mp (of_decide_eq_true hprom))
  · rw [board_triggerPendingTasks k later, board_triggerPendingTasks k now]
    refine congrArg (fun tasks => { k.board s with tasks := tasks }) (Table.ext ?_)
    change ((k.board s).tasks.rows.map _).map _ = (k.board s).tasks.rows.map _
    rw [List.map_map]
    refine List.map_congr_left (fun t _ => ?_)
    rw [Function.comp_apply, promoted_congr later hgate, promoted_promoted]

/-! ## The order of the rows -/

namespace LandingGate

omit [Unicode] in
/-- The round that is taken is one of the latest. -/
theorem latestRound_spec {rounds : List Task} {r : Task} (h : latestRound rounds = some r) :
    r ∈ rounds ∧ ∀ u ∈ rounds, ¬LaterRound u r := by
  have hfold : ∀ (ts : List Task) (best : Task),
      ts.foldl (fun best t => if LaterRound t best then t else best) best ∈ best :: ts ∧
        ∀ u ∈ best :: ts,
          ¬LaterRound u (ts.foldl (fun best t => if LaterRound t best then t else best) best) := by
    intro ts
    induction ts with
    | nil =>
        intro best
        refine ⟨List.mem_singleton_self best, fun u hu => ?_⟩
        rw [List.mem_singleton.mp hu]
        change ¬LaterRound best best
        unfold LaterRound
        omega
    | cons t ts ih =>
        intro best
        rw [List.foldl_cons]
        by_cases hlater : LaterRound t best
        · rw [if_pos hlater]
          obtain ⟨hmem, hmost⟩ := ih t
          refine ⟨List.mem_cons_of_mem _ hmem, List.forall_mem_cons.mpr ⟨fun hbest => ?_, hmost⟩⟩
          have ht := hmost t List.mem_cons_self
          unfold LaterRound at *
          omega
        · rw [if_neg hlater]
          obtain ⟨hmem, hmost⟩ := ih best
          have hbest := hmost best List.mem_cons_self
          refine ⟨?_, List.forall_mem_cons.mpr ⟨hbest, List.forall_mem_cons.mpr ⟨fun ht => ?_,
            fun u hu => hmost u (List.mem_cons_of_mem _ hu)⟩⟩⟩
          · rcases List.mem_cons.mp hmem with heq | hrest
            · rw [heq]
              exact List.mem_cons_self
            · exact List.mem_cons_of_mem _ (List.mem_cons_of_mem _ hrest)
          · unfold LaterRound at *
            omega
  cases rounds with
  | nil => cases h
  | cons t ts =>
      obtain rfl := Option.some.inj h
      exact hfold ts t

/-- No two completed rounds of the artifact tie for the latest one. -/
def OneLatest (rows : List Task) (repo n : String) : Prop :=
  ∀ a ∈ rows, ∀ b ∈ rows, reviewerOf a repo n = true → reviewerOf b repo n = true →
    (∀ u ∈ rows, reviewerOf u repo n = true → ¬LaterRound u a) →
    (∀ u ∈ rows, reviewerOf u repo n = true → ¬LaterRound u b) → a = b

variable {rows rows' : List Task}

theorem latestReviewerVerdict_perm (h : rows'.Perm rows) {repo n : String}
    (hone : OneLatest rows repo n) :
    latestReviewerVerdict rows' repo n = latestReviewerVerdict rows repo n := by
  have hperm : (rows'.filter (fun t => reviewerOf t repo n)).Perm
      (rows.filter (fun t => reviewerOf t repo n)) := h.filter _
  have hround : latestRound (rows'.filter (fun t => reviewerOf t repo n)) =
      latestRound (rows.filter (fun t => reviewerOf t repo n)) := by
    cases hlatest : latestRound (rows.filter (fun t => reviewerOf t repo n)) with
    | none =>
        have hnil : rows.filter (fun t => reviewerOf t repo n) = [] := by
          cases hrows : rows.filter (fun t => reviewerOf t repo n) with
          | nil => rfl
          | cons t ts =>
              rw [hrows] at hlatest
              cases hlatest
        rw [hnil] at hperm
        rw [hperm.eq_nil]
        rfl
    | some r =>
        obtain ⟨hr, hmost⟩ := latestRound_spec hlatest
        cases hlatest' : latestRound (rows'.filter (fun t => reviewerOf t repo n)) with
        | none =>
            cases hrows : rows'.filter (fun t => reviewerOf t repo n) with
            | nil =>
                rw [hrows] at hperm
                rw [hperm.symm.eq_nil] at hr
                cases hr
            | cons t ts =>
                rw [hrows] at hlatest'
                cases hlatest'
        | some r' =>
            obtain ⟨hr', hmost'⟩ := latestRound_spec hlatest'
            have hreviews := List.mem_filter.mp hr
            have hreviews' := List.mem_filter.mp (hperm.mem_iff.mp hr')
            refine congrArg some (hone r' hreviews'.1 r hreviews.1 hreviews'.2 hreviews.2 ?_ ?_)
            · exact fun u hu hround =>
                hmost' u (hperm.mem_iff.mpr (List.mem_filter.mpr ⟨hu, hround⟩))
            · exact fun u hu hround => hmost u (List.mem_filter.mpr ⟨hu, hround⟩)
  rw [latestReviewerVerdict, latestReviewerVerdict, hround]

theorem mem_authoringLanes_perm (h : rows'.Perm rows) (repo n excluded lane : String) :
    lane ∈ authoringLanes rows' repo n excluded ↔ lane ∈ authoringLanes rows repo n excluded := by
  unfold authoringLanes
  exact (((h.filter _).map _).filter _).mem_iff

/-- The gate does not depend on the order of the rows. -/
theorem holdReason_perm (h : rows'.Perm rows) {t : Task}
    (hone : ∀ repo n, landingArtifact t = some (repo, n) → OneLatest rows repo n) :
    holdReason rows' t = holdReason rows t := by
  unfold holdReason
  cases hartifact : landingArtifact t with
  | none => rfl
  | some artifact =>
      obtain ⟨repo, n⟩ := artifact
      dsimp only
      rw [latestReviewerVerdict_perm h (hone repo n hartifact)]
      simp only [mem_authoringLanes_perm h]

end LandingGate

section Order

variable {tasks tasks' : Table Task}

omit [Unicode] in
theorem Table.get?_perm (h : tasks'.rows.Perm tasks.rows) (taskId : String) :
    tasks'.get? taskId = tasks.get? taskId := by
  refine Option.ext (fun t => ?_)
  rw [Table.get?_eq_some_iff, Table.get?_eq_some_iff, h.mem_iff]

/-- Every landing that waits has one latest round of its artifact. -/
def Untied (tasks : Table Task) : Prop :=
  ∀ t ∈ tasks.rows, t.status = .pending → ∀ repo n,
    LandingGate.landingArtifact t = some (repo, n) → LandingGate.OneLatest tasks.rows repo n

theorem promotable_perm (h : tasks'.rows.Perm tasks.rows) (huntied : Untied tasks) {t : Task}
    (ht : t ∈ tasks.rows) : Promotable tasks' t ↔ Promotable tasks t := by
  refine and_congr_right (fun hpending => ?_)
  rw [LandingGate.holdReason_perm h (huntied t ht hpending)]
  refine and_congr_left' (forall₂_congr (fun dep _ => ?_))
  rw [Table.get?_perm h]

theorem promoted_perm (now : Nat) (h : tasks'.rows.Perm tasks.rows) (huntied : Untied tasks)
    {t : Task} (ht : t ∈ tasks.rows) : promoted now tasks' t = promoted now tasks t := by
  have hdeps : DepsCompleted tasks' t ↔ DepsCompleted tasks t :=
    forall₂_congr (fun dep _ => by rw [Table.get?_perm h])
  unfold promoted
  by_cases hpending : t.status = .pending
  · rw [LandingGate.holdReason_perm h (huntied t ht hpending)]
    simp only [hdeps]
  · rw [if_neg (fun hopen => hpending hopen.1), if_neg (fun hopen => hpending hopen.1)]

/-- Stores with the same rows in another order promote alike. -/
theorem triggerPendingTasks_perm (k : Backend) (now : Nat) (s s' : k.Store)
    (h : (k.board s').tasks.rows.Perm (k.board s).tasks.rows) (huntied : Untied (k.board s).tasks) :
    (k.step now .triggerPendingTasks s').1 = (k.step now .triggerPendingTasks s).1 ∧
      (k.board (k.step now .triggerPendingTasks s').2).tasks.rows.Perm
        (k.board (k.step now .triggerPendingTasks s).2).tasks.rows := by
  constructor
  · rw [count_triggerPendingTasks, count_triggerPendingTasks, h.countP_eq]
    exact List.countP_congr (fun t ht => by
      rw [decide_eq_true_eq, decide_eq_true_eq]
      exact promotable_perm h huntied ht)
  · rw [board_triggerPendingTasks, board_triggerPendingTasks]
    change ((k.board s').tasks.rows.map _).Perm ((k.board s).tasks.rows.map _)
    have hsame : (k.board s).tasks.rows.map (promoted now (k.board s').tasks) =
        (k.board s).tasks.rows.map (promoted now (k.board s).tasks) :=
      List.map_congr_left (fun t ht => promoted_perm now h huntied ht)
    rw [← hsame]
    exact h.map _

end Order

/-! ## Every backend, every state -/

/-- A pass from `b` to `b'` that returns `n` and promotes exactly what can be promoted. -/
structure PromotesExactly (now : Nat) (b : Board) (n : Nat) (b' : Board) : Prop where
  ready : ∀ t ∈ b.tasks.rows, Promotable b.tasks t →
    b'.tasks.get? t.id = some (t.promote now)
  others : ∀ t ∈ b.tasks.rows, ¬Promotable b.tasks t →
    b'.tasks.get? t.id = some t ∨
      ∃ reason, t.status = .pending ∧ DepsCompleted b.tasks t ∧
        LandingGate.holdReason b.tasks.rows t = some reason ∧
        b'.tasks.get? t.id = some (t.hold now reason)
  ids : b'.tasks.rows.map Task.id = b.tasks.rows.map Task.id
  rest : { b' with tasks := b.tasks } = b
  count : n = b.tasks.rows.countP (fun t => decide (Promotable b.tasks t))

theorem promotesExactly (k : Backend) (now : Nat) (s : k.Store) :
    PromotesExactly now (k.board s) (k.step now .triggerPendingTasks s).1
      (k.board (k.step now .triggerPendingTasks s).2) := by
  have hrow : ∀ t ∈ (k.board s).tasks.rows,
      (k.board (k.step now .triggerPendingTasks s).2).tasks.get? t.id =
        some (promoted now (k.board s).tasks t) := by
    intro t ht
    rw [board_triggerPendingTasks]
    have hget := (k.board s).tasks.get?_mapRows t.id (promoted now (k.board s).tasks)
      (keepsKey_promoted now (k.board s).tasks)
    have hstored : (k.board s).tasks.get? t.id = some t := Table.get?_of_mem ht
    rw [hstored] at hget
    exact hget
  constructor
  · intro t ht hprom
    rw [hrow t ht, promoted, if_pos ⟨hprom.1, hprom.2.1⟩, hprom.2.2]
  · intro t ht hnot
    rw [hrow t ht]
    by_cases hopen : t.status = .pending ∧ DepsCompleted (k.board s).tasks t
    · rw [promoted, if_pos hopen]
      cases hhold : LandingGate.holdReason (k.board s).tasks.rows t with
      | none => exact absurd ⟨hopen.1, hopen.2, hhold⟩ hnot
      | some reason =>
          dsimp only
          by_cases hrecorded : t.failReason = some reason
          · rw [if_pos hrecorded]
            exact .inl rfl
          · rw [if_neg hrecorded]
            exact .inr ⟨reason, hopen.1, hopen.2, rfl, rfl⟩
    · rw [promoted, if_neg hopen]
      exact .inl rfl
  · rw [board_triggerPendingTasks]
    change ((k.board s).tasks.rows.map _).map Task.id = _
    rw [List.map_map]
    exact List.map_congr_left (fun t _ => keepsKey_promoted now _ t)
  · rw [board_triggerPendingTasks]
  · exact count_triggerPendingTasks k now s

/-- One pass over any store state promotes exactly, a second one does nothing, and the
order of the rows does not show. -/
theorem triggerPendingTasks_exact (k : Backend) (now later : Nat) (s : k.Store) :
    PromotesExactly now (k.board s) (k.step now .triggerPendingTasks s).1
        (k.board (k.step now .triggerPendingTasks s).2) ∧
      ((k.step later .triggerPendingTasks (k.step now .triggerPendingTasks s).2).1 = 0 ∧
        k.board (k.step later .triggerPendingTasks (k.step now .triggerPendingTasks s).2).2 =
          k.board (k.step now .triggerPendingTasks s).2) ∧
      ∀ s' : k.Store, (k.board s').tasks.rows.Perm (k.board s).tasks.rows →
        Untied (k.board s).tasks →
        (k.step now .triggerPendingTasks s').1 = (k.step now .triggerPendingTasks s).1 ∧
          (k.board (k.step now .triggerPendingTasks s').2).tasks.rows.Perm
            (k.board (k.step now .triggerPendingTasks s).2).tasks.rows :=
  ⟨promotesExactly k now s, triggerPendingTasks_again k now later s,
    fun s' h huntied => triggerPendingTasks_perm k now s s' h huntied⟩

end Exact

section Example

local instance asciiPromotion : Unicode := Unicode.ascii

/-- A landing, and two rounds of its artifact completed at one time. -/
def tiedRounds : ClusterState where
  tasks := ⟨[{ id := "land", title := "LAND r!1 at abc1234", laneKey := "r#land-1",
               createdAt := 1, updatedAt := 1 },
             { id := "v1", title := "review", role := "reviewer", laneKey := "r!1",
               status := .completed, result := some "Verdict: PASS, SHA: abc1234",
               createdAt := 1, updatedAt := 2 },
             { id := "v2", title := "review", role := "reviewer", laneKey := "r!1-rev2",
               status := .completed, result := some "Verdict: NEEDS-CHANGES",
               createdAt := 1, updatedAt := 2 }], by decide⟩
  index_ok := indexOk_initial

/-- The same rows, the second round before the first. -/
def tiedRoundsSwapped : ClusterState where
  tasks := ⟨[{ id := "land", title := "LAND r!1 at abc1234", laneKey := "r#land-1",
               createdAt := 1, updatedAt := 1 },
             { id := "v2", title := "review", role := "reviewer", laneKey := "r!1-rev2",
               status := .completed, result := some "Verdict: NEEDS-CHANGES",
               createdAt := 1, updatedAt := 2 },
             { id := "v1", title := "review", role := "reviewer", laneKey := "r!1",
               status := .completed, result := some "Verdict: PASS, SHA: abc1234",
               createdAt := 1, updatedAt := 2 }], by decide⟩
  index_ok := indexOk_initial

/-- Of two rounds that tie, the one stored first decides. -/
theorem storage_order_decides_tie :
    ¬∀ (s s' : ClusterState) (now : Nat), s'.tasks.rows.Perm s.tasks.rows →
      (ClusterState.step now .triggerPendingTasks s').1 =
        (ClusterState.step now .triggerPendingTasks s).1 := by
  intro h
  have hperm : tiedRoundsSwapped.tasks.rows.Perm tiedRounds.tasks.rows := by decide
  have hcount := h tiedRounds tiedRoundsSwapped 3 hperm
  clear h hperm
  revert hcount
  decide +kernel

end Example

end HermesCluster
