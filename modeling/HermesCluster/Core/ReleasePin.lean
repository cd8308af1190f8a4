import HermesCluster.Lib.LinePatterns
/-!
# The release pin

The manifest pins the deployed commit in a `newTag` line. `extract_pinned_sha` of
`core/release_drift.py` reads it, and `render_release_text` of
`.github/scripts/release-pr-917.py` puts the next commit in its place.
-/

namespace HermesCluster

namespace ReleasePin

open Regex

/-- `[ \t]` -/
def isBlank (c : Char) : Bool :=
  c = ' ' || c = '\t'

def isNewline (c : Char) : Bool :=
  c = '\n'

def isQuote (c : Char) : Bool :=
  c = '"'

/-- `[ \t]*` -/
def blanks : Regex := star (chr isBlank)

/-- `\"?` -/
def quote : Regex := opt (chr isQuote)

/-- `[^\n]*` -/
def restOfLine : Regex := star dot

/-- `[0-9a-f]{40}` -/
def hex40 : Regex := rep (chr isHex) 40 (some 40) true

section Reader

variable [Unicode]

/-! ## The reader -/

/-- `^\s*-\s*name:\s*hermes-cluster-main\s*$` -/
def imageName : Regex :=
  seqs [lineStart, star space, lit "-", star space, lit "name:", star space,
    lit "hermes-cluster-main", star space, lineEnd]

/-- `[ \t]*\n[ \t]+\S.*` -/
def indentedLine : Regex :=
  seqs [blanks, chr isNewline, plus (chr isBlank), chr (fun c => !Unicode.isSpace c), restOfLine]

/-- `[ \t]*\n[ \t]*newTag:\s*\"?([0-9a-fA-F]+)\"?` -/
def newTag : Regex :=
  seqs [blanks, chr isNewline, blanks, lit "newTag:", star space, quote,
    group (plus (chr isHexI)), quote]

/-- The pattern of `extract_pinned_sha`. -/
def pinRe : Regex :=
  seqs [imageName, rep indentedLine 0 none false, newTag]

/-- `FULL_SHA_RE` of the reader. -/
def fullShaRe : Regex :=
  seqs [bos, hex40, eos]

/-- `.lower()` of ASCII text. -/
def asciiLower (s : String) : String :=
  String.ofList (s.toList.map Unicode.asciiLowerChar)

def extractPinnedSha (kustomizationText : String) : Option String :=
  match pinRe.search kustomizationText with
  | none => none
  | some block =>
      let sha := asciiLower (block.captures.head?.getD "")
      if (fullShaRe.matchStart sha).isSome then some sha else none

end Reader

/-! ## The writer -/

/-- `NEW_TAG_BLOCK` -/
def newTagBlock : Regex :=
  seqs [lineStart, blanks, lit "newTag:", blanks, quote, hex40, quote, restOfLine,
    star (seqs [chr isNewline, plus (chr isBlank), lit "#", restOfLine])]

/-- `NEW_TAG_LINE` -/
def newTagLine : Regex :=
  seqs [lineStart, group blanks, lit "newTag:", blanks, quote, group hex40, quote, restOfLine,
    lineEnd]

/-- `sha256:[0-9a-f]{64}`, to be matched in full. -/
def digestRe : Regex :=
  seqs [lit "sha256:", rep (chr isHex) 64 (some 64) true, look (fun _ after => after = [])]

/-- A commit of the comparison; what is absent or null is `none`. -/
structure Commit where
  sha : Option String := none
  message : Option String := none

/-- The comparison of the two commits; `aheadBy` as `str` writes it. -/
structure Compare where
  aheadBy : Option String := none
  commits : List Commit := []

/-- `s.split("\n")` -/
def splitNewlines : List Char → List (List Char)
  | [] => [[]]
  | c :: cs =>
      if c = '\n' then [] :: splitNewlines cs
      else
        match splitNewlines cs with
        | [] => [[c]]
        | line :: lines => (c :: line) :: lines

/-- The `pad` of `indent_comment`. -/
def commentPad : String := "      # "

/-- `indent_comment`: every line gets the comment prefix. -/
def indentComment (lines : List String) : String :=
  Text.join "\n" (lines.flatMap (fun ln =>
    (splitNewlines ln.toList).map (fun piece => commentPad ++ String.ofList piece)))

def formatBullets (commits : List Commit) : String :=
  let lines := commits.map (fun c =>
    "  * `" ++ Text.take 9 (c.sha.getD "") ++ "` " ++
      (Text.splitlines (c.message.getD "")).head?.getD "")
  if lines.isEmpty then "  * (see compare link)" else Text.join "\n" lines

/-- The comment under the new pin. -/
def trainComment (pin newSha digest runUrl : String) (compare : Compare) : String :=
  indentComment [
    "Ships " ++ compare.aheadBy.getD "?" ++ " ALREADY-MERGED cluster commit(s) " ++
      "(fork diff " ++ Text.take 9 pin ++ ".." ++ Text.take 9 newSha ++
      ", paths hermes_cluster/**).",
    "",
    "OPENED AUTOMATICALLY by the fork's cluster-image.yml on the push " ++
      "that built this image (shared/claude-plugins#917 option 1: auto-OPEN, " ++
      "never auto-MERGE). A human or reviewer lane still reviews and merges " ++
      "this PR; nothing about the GitOps or review gate changed.",
    "",
    "Merged-but-not-running commits this train carries:",
    formatBullets compare.commits,
    "",
    "Image published by fork run " ++ runUrl,
    "digest " ++ digest,
    "(tag -> digest resolved live against Artifact Registry before " ++
      "pinning, same discipline as trains 4, 5 and 6.)"]

/-- The line with the new pin. -/
def newPinLine (indent pin newSha : String) : String :=
  indent ++ "newTag: \"" ++ newSha ++ "\"  # RELEASE TRAIN " ++
    "(auto, #917) — rolls the hosted main " ++ Text.take 9 pin ++ " -> " ++ Text.take 9 newSha ++
    " (hermes-agent-cluster fork main)."

/-- `text.replace(old, new, 1)` -/
def replaceFirst (old new : List Char) : List Char → List Char
  | [] => if old = [] then new else []
  | c :: cs =>
      if old.isPrefixOf (c :: cs) then new ++ (c :: cs).drop old.length
      else c :: replaceFirst old new cs

/-- The commits of `NEW_TAG_LINE.findall(text)`. -/
def newTags (text : String) : List String :=
  (findallFrom newTagLine (text.toList.length + 1) [] text.toList).map
    (fun m => m.2.captures.getD 1 "")

/-- `render_release_text`; an error is the text of the `Refuse`. -/
def renderReleaseText [Unicode] (curText newSha digest runUrl : String) (compare : Compare) :
    Except String String :=
  if (hex40.matchStart newSha).isNone then
    .error ("new sha not 40-hex: " ++ Text.repr newSha)
  else if (digestRe.matchStart digest).isNone then
    .error ("digest not sha256:<64hex> — refusing to open a release " ++
      "PR without a digest RESOLVED from Artifact Registry " ++
      "(acceptance #917: resolved, not copied).")
  else
    match searchFrom newTagBlock [] curText.toList, newTagLine.search curText with
    | some block, some line =>
        let pin := line.captures.getD 1 ""
        let indent := line.captures.getD 0 ""
        if pin = newSha then .error "ALREADY_RELEASED"
        else
          let newText := String.ofList (replaceFirst (block.1.between block.2).toList
            (newPinLine indent pin newSha ++ "\n" ++
              trainComment pin newSha digest runUrl compare).toList curText.toList)
          let tags := newTags newText
          if tags.length ≠ 1 then
            .error ("rendered kustomization has " ++ toString tags.length ++ " newTag lines " ++
              "(expected exactly 1) — refusing to commit")
          else if tags.head? ≠ some newSha then
            .error "rendered newTag does not carry the new sha — refusing"
          else if Text.contains newText digest = false then
            .error "rendered block lost the resolved digest — refusing"
          else .ok newText
    | _, _ =>
        .error ("could not locate the images.newTag block in the live " ++
          "kustomization — refusing to guess the edit shape")

end ReleasePin

end HermesCluster
