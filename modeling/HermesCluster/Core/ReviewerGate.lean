import HermesCluster.Core.LandingGate
/-!
# Reviewer-completion verdict gate

`core/reviewer_gate.py`: the completion of a reviewer task that is not a
landing row is refused when the delivered result carries no verdict.
-/

namespace HermesCluster

namespace ReviewerGate

open Regex

variable [Unicode]

/-! ## Patterns -/

/-- `_NOT_READY_RE`. -/
def notReadyRe : Regex :=
  seqs [LandingGate.verdictLabel, group (litI "NOT-READY")]

/-- `_PROMOTED_RE`. -/
def promotedRe : Regex := litI "TRANSCRIPT-PROMOTED"

/-- The vocabulary as exact tokens. -/
def verdictTokens : Regex :=
  group (alts (["PASS", "NEEDS-CHANGES", "NEEDS_CHANGES", "NEEDS-HUMAN", "NEEDS_HUMAN",
    "INCOMPLETE-ROSTER", "INCOMPLETE_ROSTER", "NOT-READY", "NOT_READY", "APPROVE",
    "APPROVED"].map lit))

/-- `[A-Za-z0-9_-]`. -/
def isTokenChar (c : Char) : Bool :=
  ('A' ≤ c && c ≤ 'Z') || ('a' ≤ c && c ≤ 'z') || ('0' ≤ c && c ≤ '9') || c = '_' || c = '-'

/-- `_TOKEN_WORD_RE`. -/
def tokenWordRe : Regex :=
  seqs [notBefore isTokenChar, verdictTokens, notAfter isTokenChar]

/-- `_LINE_TOKEN_RE`. -/
def lineTokenRe : Regex :=
  seqs [lineStart, star space, star (chr (fun c => !Unicode.isWord c || c = '_')),
    rep dot 0 (some 80) false, tokenWordRe, upTo 120 dot, lineEnd]

/-- `_VERDICT_LINE_RE`. -/
def verdictLineRe : Regex := litI "verdict"

/-- `\blands?\b`. -/
def landWordRe : Regex :=
  seqs [wordBoundary, lit "land", opt (lit "s"), wordBoundary]

/-! ## The gate -/

/-- `_is_landing_row`: a landing artifact, or a `land` word in the lane. -/
def isLandingRow (task : Task) : Bool :=
  (LandingGate.landingArtifact task).isSome ||
    landWordRe.found (Text.replaceChar '_' '-' (Unicode.lower task.laneKey))

/-- A token of the vocabulary in the landing gate's words. -/
def verdictOfToken (token : String) : String :=
  let v := Text.replaceChar '_' '-' (Unicode.upper token)
  if v = "APPROVE" ∨ v = "APPROVED" then "PASS" else v

/-- The last token on the first line that says `verdict` and has one. -/
def verdictLineToken (lines : List String) : Option String :=
  lines.findSome? (fun line =>
    if verdictLineRe.found line then (tokenWordRe.findall line).getLast?.map verdictOfToken
    else none)

/-- `reviewer_verdict`: the verdict word a delivered body carries. -/
def reviewerVerdict (result : Option String) : Option String :=
  match result with
  | none => none
  | some body =>
      if Text.isBlank body then none
      else if promotedRe.found body then none
      else
        match (LandingGate.parseReviewerVerdict body).1 with
        | some verdict => some verdict
        | none =>
            match (notReadyRe.findall body).getLast? with
            | some word => some (Unicode.upper word)
            | none =>
                match (lineTokenRe.findall body).getLast? with
                | some token => some (verdictOfToken token)
                | none => verdictLineToken (Text.splitlines body)

def noVerdictReason : String :=
  "reviewer completed with no verdict (#919): status=completed " ++
    "is not evidence a review happened — the delivered result " ++
    "carries no PASS / NEEDS-CHANGES / NEEDS-HUMAN / " ++
    "INCOMPLETE-ROSTER / NOT-READY verdict word (or is a #871 " ++
    "transcript promotion). The completion is refused; the task " ++
    "is re-queued for another delivery under the retry cap."

/-- `reviewer_completion_veto`: why a completion must be refused. -/
def reviewerCompletionVeto (task : Task) (result : Option String) : Option String :=
  if Unicode.lower (Text.strip task.role) ≠ "reviewer" then none
  else if isLandingRow task then none
  else if reviewerVerdict result = none then some noVerdictReason
  else none

end ReviewerGate

end HermesCluster
