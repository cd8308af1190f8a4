import HermesCluster.Models
import HermesCluster.Lib.Regex
import Mathlib.Data.List.Forall2
/-!
# Landing-verdict gate

`core/landing_gate.py`: a landing task merges the artifact `<repo>!<n>` and may
become ready only on the latest completed reviewer verdict of that artifact.
-/

namespace HermesCluster

namespace LandingGate

open Regex

variable [Unicode]

/-! ## Patterns -/

/-- `_LAND_LANE_RE`: `^(?P<repo>.+)#land-(?P<n>\d+)$`. -/
def landLaneRe : Regex :=
  seqs [group (plus dot), lit "#land-", group (plus digit), eos]

/-- `_LAND_TITLE_RE`: `^\W*(LAND|LANDING)\b`, ignoring case. -/
def landTitleRe : Regex :=
  seqs [star nonWord, group (alt (litI "LAND") (litI "LANDING")), wordBoundary]

/-- An artifact reference in a title: word characters, dots, slashes and
hyphens, then `!` and a number. -/
def titleRefRe : Regex :=
  seqs [group (plus (chr (fun c => Unicode.isWord c || c = '.' || c = '/' || c = '-'))),
    lit "!", group (plus digit)]

/-- `_SHA_RE`: a run of 7 to 40 hexadecimal digits. -/
def shaRe : Regex :=
  seqs [notBefore isHex, group (rep (chr isHex) 7 (some 40) true), notAfter isHex]

/-- `\*{0,2}`. -/
def stars : Regex := upTo 2 (oneOf "*")

/-- `verdict[^a-zA-Z]{0,4}\*{0,2}\s*:?\s*\*{0,2}\s*`, ignoring case. -/
def verdictLabel : Regex :=
  seqs [litI "verdict", upTo 4 (chr (fun c => !isLetterI c)), stars, star space,
    opt (lit ":"), star space, stars, star space]

/-- `_VERDICT_RE`. -/
def verdictRe : Regex :=
  seqs [verdictLabel,
    group (alts [litI "PASS", litI "NEEDS-CHANGES", litI "NEEDS_CHANGES",
      litI "NEEDS-HUMAN", litI "INCOMPLETE-ROSTER"])]

/-- `_VERDICT_SHA_RE`. -/
def verdictShaRe : Regex :=
  seqs [alts [litI "SHA", litI "Head sha", litI "Head"], stars, star space,
    upTo 12 (chr isLetterI), stars, star space, opt (lit ":"), star space, stars, star space,
    rep (lit ":") 0 (some 1) false, star space, star (oneOf "*"), star space,
    opt (lit "\x60"), group (rep (chr isHexI) 7 (some 40) true), opt (lit "\x60")]

/-- The full reference of an artifact in a reviewer's title. -/
def artifactRefRe (repo tail n : String) : Regex :=
  seqs [alt (lit repo) (lit tail), lit "!", lit n, wordBoundary]

/-- `\b(?:MR|PR)\s*[#!]?\s*<n>\b`. -/
def mergeRequestRe (n : String) : Regex :=
  seqs [wordBoundary, alt (lit "MR") (lit "PR"), star space, opt (oneOf "#!"), star space,
    lit n, wordBoundary]

/-! ## The gate -/

/-- `landing_artifact`: `(repo, mr_iid)` when the task is a landing. -/
def landingArtifact (task : Task) : Option (String × String) :=
  match (landLaneRe.matchStart task.laneKey).map Cursor.captures with
  | some [repo, n] => some (Text.strip repo, n)
  | _ =>
      if (landTitleRe.matchStart (Text.strip task.title)).isSome then
        match (titleRefRe.search task.title).map Cursor.captures with
        | some [repo, n] => some (Text.rstripChar '/' repo, n)
        | _ => none
      else none

/-- `parse_reviewer_verdict`: the last verdict word and the last pinned sha. -/
def parseReviewerVerdict (result : String) : Option String × Option String :=
  match (verdictRe.findall result).getLast? with
  | none => (none, none)
  | some word =>
      (some (Text.replaceChar '_' '-' (Unicode.upper word)),
        ((verdictShaRe.findall result).getLast?).map Unicode.lower)

/-- The number a lane names after its first `!`. -/
def laneNumber (laneNum : String) : Option String :=
  ((seqs [group (plus digit)]).matchStart laneNum).bind (fun c => c.captures.head?)

/-- `_reviewer_of`: a completed reviewer task of the artifact `<repo>!<n>`. -/
def reviewerOf (t : Task) (repo n : String) : Bool :=
  let tail := Text.lastSegment '/' (Text.rstripChar '/' repo)
  if Unicode.lower (Text.strip t.role) ≠ "reviewer" then false
  else if t.status ≠ .completed then false
  else
    let lane := Text.partition '!' t.laneKey
    if Text.contains t.laneKey "!" && laneNumber lane.2 = some n &&
        Text.lastSegment '/' (Text.rstripChar '/' lane.1) = tail then true
    else if (artifactRefRe repo tail n).found t.title then true
    else
      (mergeRequestRe n).found t.title &&
        (Text.contains t.laneKey tail || Text.contains t.title tail)

/-- The key of `latest_reviewer_verdict`, compared lexicographically. -/
def LaterRound (a b : Task) : Prop :=
  b.updatedAt < a.updatedAt ∨ (a.updatedAt = b.updatedAt ∧ b.version < a.version)

instance : DecidableRel LaterRound := fun a b =>
  inferInstanceAs (Decidable
    (b.updatedAt < a.updatedAt ∨ (a.updatedAt = b.updatedAt ∧ b.version < a.version)))

/-- `max(done, key=…)`: the first of the latest rounds. -/
def latestRound : List Task → Option Task
  | [] => none
  | t :: ts => some (ts.foldl (fun best t' => if LaterRound t' best then t' else best) t)

/-- `latest_reviewer_verdict`. -/
def latestReviewerVerdict (allTasks : List Task) (repo n : String) :
    Option String × Option String × String :=
  match latestRound (allTasks.filter (fun t => reviewerOf t repo n)) with
  | none => (none, none, "")
  | some latest =>
      let parsed := parseReviewerVerdict (latest.result.getD "")
      (parsed.1, parsed.2, latest.id)

/-- `authoring_lanes`: lanes of the other tasks that carry the artifact in
their `issues`. -/
def authoringLanes (allTasks : List Task) (repo n excludeTaskId : String) : List String :=
  ((allTasks.filter (fun t => decide (t.id ≠ excludeTaskId) &&
      t.issues.contains (repo ++ "!" ++ n))).map (fun t => Text.strip t.laneKey)).filter
    (fun lane => decide (lane ≠ ""))

/-- The shas a landing names in its title. -/
def namedShas (title : String) : List String :=
  (shaRe.findall title).map Unicode.lower

/-- `hold_reason`: why a landing must not reach ready now; `none` = proceed. -/
def holdReason (allTasks : List Task) (task : Task) : Option String :=
  match landingArtifact task with
  | none => none
  | some (repo, n) =>
      let lane := Text.strip task.laneKey
      let target := repo ++ "!" ++ n
      if lane = target then
        some ("landing held (#914): the lander lane " ++ Text.repr lane ++ " is the " ++
          "reviewer lane of " ++ target ++ " — a reviewer never lands what " ++
          "it reviewed (RV-1)")
      else if lane ≠ "" ∧ lane ∈ authoringLanes allTasks repo n task.id then
        some ("landing held (#914): lane " ++ Text.repr lane ++ " authored " ++ target ++
          " (carries it in issues) — author != lander (RV-1)")
      else
        match latestReviewerVerdict allTasks repo n with
        | (none, _, _) =>
            some ("landing held (#914): no completed reviewer verdict on " ++ target ++
              " carries a verdict word — 'completed' is not a pass (#871); re-review or " ++
              "cite the PASS note's sha")
        | (some verdict, vsha, rid) =>
            if verdict ≠ "PASS" then
              some ("landing held (#914): the LATEST reviewer verdict on " ++ target ++
                " is " ++ verdict ++ " (task " ++ rid ++ ") — a rejected review is never " ++
                "overridden by a landing brief's claim")
            else
              match vsha with
              | none =>
                  some ("landing held (#914): the PASS on " ++ target ++ " (task " ++ rid ++
                    ") pins no head sha — a sha-less verdict certifies no head")
              | some sha =>
                  let named := namedShas task.title
                  if named.any (fun s => Text.startsWith sha s || Text.startsWith s sha) then
                    none
                  else
                    some ("landing held (#914): reviewer PASS pins sha " ++ sha ++ " (" ++
                      target ++ ", task " ++ rid ++ ") but the landing names " ++
                      (if named = [] then "(no sha)" else Text.join ", " (Text.sortedSet named)) ++
                      " — a verdict at one head does not certify another " ++
                      "(stale/merge-forward supersede)")

/-- A task the gate has something to say about. -/
def IsLanding (task : Task) : Prop :=
  landingArtifact task ≠ none

instance : DecidablePred IsLanding := fun task =>
  inferInstanceAs (Decidable (landingArtifact task ≠ none))

/-! ## What the gate reads of a board -/

omit [Unicode] in
/-- Rows the gate cannot tell apart: the columns it reads of every row, and the
whole row of a completed task. -/
structure GateSame (t t' : Task) : Prop where
  id : t'.id = t.id
  title : t'.title = t.title
  laneKey : t'.laneKey = t.laneKey
  issues : t'.issues = t.issues
  completed : t.status = .completed ∨ t'.status = .completed → t' = t

omit [Unicode] in
theorem GateSame.refl (t : Task) : GateSame t t := ⟨rfl, rfl, rfl, rfl, fun _ => rfl⟩

omit [Unicode] in
theorem GateSame.trans {t t' t'' : Task} (h : GateSame t t') (h' : GateSame t' t'') :
    GateSame t t'' where
  id := h'.id.trans h.id
  title := h'.title.trans h.title
  laneKey := h'.laneKey.trans h.laneKey
  issues := h'.issues.trans h.issues
  completed := by
    rintro (hc | hc)
    · have heq := h.completed (.inl hc)
      subst heq
      exact h'.completed (.inl hc)
    · have heq := h'.completed (.inr hc)
      subst heq
      exact h.completed (.inr hc)

theorem reviewerOf_completed {t : Task} {repo n : String} (h : reviewerOf t repo n = true) :
    t.status = .completed := by
  by_contra hne
  simp [reviewerOf, hne] at h

variable {rows rows' : List Task}

theorem filter_reviewerOf_congr (h : List.Forall₂ GateSame rows rows') (repo n : String) :
    rows'.filter (fun t => reviewerOf t repo n) =
      rows.filter (fun t => reviewerOf t repo n) := by
  induction h with
  | nil => rfl
  | @cons t t' _ _ hsame _ ih =>
      by_cases hc : t.status = .completed ∨ t'.status = .completed
      · have heq := hsame.completed hc
        subst heq
        rw [List.filter_cons, List.filter_cons, ih]
      · obtain ⟨hc₁, hc₂⟩ := not_or.mp hc
        have hno : ¬reviewerOf t repo n = true := fun h => hc₁ (reviewerOf_completed h)
        have hno' : ¬reviewerOf t' repo n = true := fun h => hc₂ (reviewerOf_completed h)
        rw [List.filter_cons, List.filter_cons, if_neg hno, if_neg hno', ih]

theorem authoringLanes_congr (h : List.Forall₂ GateSame rows rows') (repo n excluded : String) :
    authoringLanes rows' repo n excluded = authoringLanes rows repo n excluded := by
  have hlanes : (rows'.filter (fun t => decide (t.id ≠ excluded) &&
        t.issues.contains (repo ++ "!" ++ n))).map (fun t => Text.strip t.laneKey) =
      (rows.filter (fun t => decide (t.id ≠ excluded) &&
        t.issues.contains (repo ++ "!" ++ n))).map (fun t => Text.strip t.laneKey) := by
    induction h with
    | nil => rfl
    | cons hsame _ ih =>
        simp only [List.filter_cons, hsame.id, hsame.issues]
        split
        · rw [List.map_cons, List.map_cons, ih, hsame.laneKey]
        · exact ih
  rw [authoringLanes, hlanes, authoringLanes]

theorem landingArtifact_congr {t t' : Task} (htitle : t'.title = t.title)
    (hlane : t'.laneKey = t.laneKey) : landingArtifact t' = landingArtifact t := by
  rw [landingArtifact, landingArtifact, htitle, hlane]

/-- The gate answers alike on boards it cannot tell apart, for a task with the
same id, title and lane. -/
theorem holdReason_congr (h : List.Forall₂ GateSame rows rows') {t t' : Task}
    (hid : t'.id = t.id) (htitle : t'.title = t.title) (hlane : t'.laneKey = t.laneKey) :
    holdReason rows' t' = holdReason rows t := by
  have hverdict : ∀ repo n,
      latestReviewerVerdict rows' repo n = latestReviewerVerdict rows repo n := by
    intro repo n
    rw [latestReviewerVerdict, latestReviewerVerdict, filter_reviewerOf_congr h]
  simp only [holdReason, landingArtifact_congr htitle hlane, hverdict,
    authoringLanes_congr h, hid, htitle, hlane]

theorem passes_congr {t t' : Task} (hid : t'.id = t.id) (htitle : t'.title = t.title)
    (hlane : t'.laneKey = t.laneKey) (h : holdReason rows t = none) :
    holdReason rows t' = none := by
  have hsame := List.forall₂_same.mpr (fun u (_ : u ∈ rows) => GateSame.refl u)
  rw [holdReason_congr hsame hid htitle hlane, h]

theorem holdReason_of_not_isLanding {t : Task} (h : ¬IsLanding t) : holdReason rows t = none := by
  have hnone : landingArtifact t = none := by simpa [IsLanding] using h
  rw [holdReason, hnone]

/-- Every reason says something. -/
theorem holdReason_ne_empty {t : Task} {reason : String} (h : holdReason rows t = some reason) :
    reason ≠ "" := by
  unfold holdReason at h
  split at h
  · cases h
  · dsimp only at h
    split at h
    · cases h
      simp [String.append_eq_empty_iff]
    · split at h
      · cases h
        simp [String.append_eq_empty_iff]
      · split at h
        · cases h
          simp [String.append_eq_empty_iff]
        · split at h
          · cases h
            simp [String.append_eq_empty_iff]
          · split at h
            · cases h
              simp [String.append_eq_empty_iff]
            · split at h
              · cases h
              · cases h
                simp [String.append_eq_empty_iff]

end LandingGate

end HermesCluster
