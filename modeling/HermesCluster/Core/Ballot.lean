import HermesCluster.Models
import HermesCluster.Lib.Regex
/-!
# Decision ballots

`core/ballot.py` and `core/ballot_wiring.py`: building a ballot from a lane's
question, recording the owner's answer, and the formal directive that every
answered ballot carries.
-/

namespace HermesCluster

namespace BallotRules

open Regex

variable [Unicode]

def ballotClasses : List String := ["technical", "product"]
def defaultClass : String := "technical"
def maxQuestion : Nat := 4000
def maxOption : Nat := 500
def maxOptions : Nat := 10
def maxAnswer : Nat := 4000

/-! ## Formal references -/

/-- `_REF_RE`: path segments, then `#<iid>`. -/
def refRe : Regex :=
  let segment := plus (chr (fun c => Unicode.isWord c || c = '.' || c = '-'))
  seqs [group (seqs [segment, plus (seqs [lit "/", segment])]), lit "#",
    group (plus digit), eos]

/-- `_ID_RE`. -/
def idRe : Regex :=
  seqs [plus (chr (fun c => ('A' ≤ c && c ≤ 'Z') || ('a' ≤ c && c ≤ 'z') ||
    ('0' ≤ c && c ≤ '9') || c = '_' || c = '.' || c = '-')), eos]

/-- `int(s)` of a run of decimal digits. -/
def intOfDigits (s : String) : Nat :=
  s.toList.foldl (fun n c => 10 * n + (Unicode.decimal c).getD 0) 0

/-- `parse_decision_ref`: absent or blank is no reference; malformed is an error. -/
def parseDecisionRef (raw : Option String) : Except String (Option DecisionRef) :=
  match raw with
  | none => .ok none
  | some raw =>
      let s := Text.strip raw
      if s = "" then .ok none
      else
        match (refRe.matchStart s).map Cursor.captures with
        | some [project, iid] =>
            .ok (some { project := project, issueIid := intOfDigits iid, raw := s })
        | _ =>
            .error ("ballot.decision_ref " ++ Text.repr raw ++
              " must be 'group[/subgroup]/project#<iid>' " ++
              "— the issue carrying the FORMAL ballot (decision_create tier)")

/-- `validate_decision_id`. -/
def validateDecisionId (raw : Option String) : Except String (Option String) :=
  match raw with
  | none => .ok none
  | some raw =>
      let s := Text.strip raw
      if s = "" then .ok none
      else if (idRe.matchStart s).isSome then .ok (some s)
      else .error ("ballot.decision_id " ++ Text.repr raw ++ " must be an identifier")

/-- `formal_actuation`: the directive computed at answer time. -/
def formalActuation (ballot : Ballot) (taskId : String) : FormalActuation :=
  let out : FormalActuation :=
    { state := "needs-actuation"
      formalRef := none
      decisionId := none
      carrierTask := if taskId ≠ "" then taskId else ballot.laneKey
      answer := ballot.answer.getD ""
      answeredBy := ballot.answeredBy
      answeredAt := ballot.answeredAt
      question := ballot.question
      detail := none }
  match parseDecisionRef (some ballot.decisionRef) with
  | .error _ =>
      { out with
        state := "unformalizable-ref"
        detail := some ("decision_ref " ++ Text.repr ballot.decisionRef ++ " is malformed") }
  | .ok parsed =>
      let out :=
        match parsed with
        | none => out
        | some ref => { out with formalRef := some ref, state := "formal-resolvable" }
      match validateDecisionId (some ballot.decisionId) with
      | .ok did => { out with decisionId := did }
      | .error _ =>
          { out with
            state := "unformalizable-ref"
            detail := some ("decision_id " ++ Text.repr ballot.decisionId ++ " is malformed") }

/-- `attach_formal`. -/
def attachFormal (ballot : Ballot) (taskId : String) : Ballot :=
  { ballot with formal := some (formalActuation ballot taskId) }

/-! ## Building and answering -/

/-- The options are checked in order; the first bad one is the error. -/
def checkOptions : List String → Except String Unit
  | [] => .ok ()
  | o :: os =>
      if Text.isBlank o then .error "ballot.options entries must be non-empty strings"
      else if maxOption < o.toList.length then
        .error "ballot.options entry exceeds 500 chars"
      else checkOptions os

/-- `_validate_core`, on a ballot whose class may still be missing. -/
def validateCore (b : Ballot) : Except String Ballot := do
  if Text.isBlank b.question then
    throw "ballot.question is required"
  if maxQuestion < b.question.toList.length then
    throw "ballot.question exceeds 4000 chars"
  if b.options = [] then
    throw "ballot.options must be a non-empty list"
  if maxOptions < b.options.length then
    throw "ballot.options exceeds 10 choices"
  checkOptions b.options
  let cls := if b.cls = "" then defaultClass else b.cls
  if cls ∉ ballotClasses then
    throw ("ballot.class must be one of ['technical', 'product']; " ++
      "the relay never guesses the destination chat")
  return { b with cls := cls }

/-- `build_ballot`, at the time `now`. -/
def buildBallot (now : Nat) (question : String) (options : List String)
    (cls : Option String) (laneKey : String) (decisionRef decisionId : Option String) :
    Except String Ballot := do
  let parsedRef ← parseDecisionRef decisionRef
  let parsedId ← validateDecisionId decisionId
  validateCore
    { question := Text.strip question
      options := options.map Text.strip
      cls := cls.getD defaultClass
      laneKey := laneKey
      askedAt := now
      decisionRef := (parsedRef.map DecisionRef.raw).getD ""
      decisionId := parsedId.getD ""
      answer := none
      answeredAt := none
      answeredBy := "" }

/-- `validate_answer`: the clean answer, if there is one. -/
def validateAnswer (raw : String) : Option String :=
  let a := Text.strip raw
  if a = "" ∨ maxAnswer < a.toList.length then none else some a

/-- A ballot that already carries an answer. -/
def IsAnswered (ballot : Ballot) : Prop :=
  ballot.answer ≠ none ∧ ballot.answer ≠ some ""

instance : DecidablePred IsAnswered := fun ballot =>
  inferInstanceAs (Decidable (ballot.answer ≠ none ∧ ballot.answer ≠ some ""))

/-- `record_answer`: one decision, one record. -/
def recordAnswer (now : Nat) (ballot : Ballot) (answer answeredBy : String) :
    Except String Ballot :=
  if IsAnswered ballot then .error "ballot already answered"
  else
    match validateAnswer answer with
    | none => .error "answer must be a non-empty string"
    | some clean =>
        .ok { ballot with
          answer := some clean
          answeredAt := some now
          answeredBy := Text.take 120 answeredBy }

end BallotRules

end HermesCluster
