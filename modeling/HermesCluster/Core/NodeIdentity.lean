import HermesCluster.Core.AgentExecutor
import HermesCluster.Core.LaneAffinity
import HermesCluster.Core.PinPatterns
/-!
# Who a node id names

Main compares node ids with `same_node`, an executor with `_node_ids_match` and
`_is_assigned_to_me`. When the three agree on two node ids.
-/

namespace HermesCluster

open AgentExecutor ReleasePin

/-- The registered spelling of a node. -/
def registered (name : String) : String :=
  "node_" ++ name

theorem toList_registered (name : String) :
    (registered name).toList = "node_".toList ++ name.toList :=
  String.toList_append

theorem registered_inj {a b : String} : registered a = registered b ↔ a = b := by
  rw [← String.toList_inj, toList_registered, toList_registered, List.append_cancel_left_eq,
    String.toList_inj]

theorem length_registered (name : String) :
    (registered name).toList.length = 5 + name.toList.length := by
  rw [toList_registered, List.length_append]
  rfl

theorem registered_ne_self (a : String) : registered a ≠ a := by
  intro h
  have hlength := length_registered a
  rw [h] at hlength
  omega

theorem registered_ne_empty (a : String) : registered a ≠ "" := by
  intro h
  have hlist := congrArg String.toList h
  rw [toList_registered] at hlist
  cases hlist

theorem startsWith_node_iff {s : String} :
    Text.startsWith s "node_" = true ↔ ∃ name, s = registered name := by
  unfold Text.startsWith
  rw [List.isPrefixOf_iff_prefix]
  constructor
  · rintro ⟨rest, hrest⟩
    refine ⟨String.ofList rest, ?_⟩
    rw [← String.toList_inj, toList_registered]
    exact hrest.symm.trans (congrArg ("node_".toList ++ ·) String.toList_ofList.symm)
  · rintro ⟨name, rfl⟩
    exact ⟨name.toList, (toList_registered name).symm⟩

theorem drop_registered (name : String) : Text.drop 5 (registered name) = name := by
  unfold Text.drop
  rw [toList_registered]
  exact String.ofList_toList

theorem removePrefix_registered (name : String) :
    Text.removePrefix "node_" (registered name) = name := by
  unfold Text.removePrefix
  rw [if_pos (startsWith_node_iff.mpr ⟨name, rfl⟩)]
  exact drop_registered name

theorem removePrefix_of_not {s : String} (h : ¬Text.startsWith s "node_" = true) :
    Text.removePrefix "node_" s = s :=
  if_neg h

/-! ## The executor's comparisons -/

theorem removePrefix_or_iff (s name : String) :
    (s = name ∨ Text.removePrefix "node_" s = name) ↔ s = name ∨ s = registered name := by
  refine or_congr_right' (fun hne => ?_)
  by_cases hstarts : Text.startsWith s "node_" = true
  · obtain ⟨rest, rfl⟩ := startsWith_node_iff.mp hstarts
    rw [removePrefix_registered, registered_inj]
  · rw [removePrefix_of_not hstarts]
    refine iff_of_false hne (fun h => hstarts (startsWith_node_iff.mpr ⟨name, h⟩))

theorem nodeIdsMatch_iff {a b : String} : nodeIdsMatch a b = true ↔
    (a ≠ "" ∧ b ≠ "") ∧ (a = b ∨ a = registered b ∨ b = registered a) := by
  have hfirst := removePrefix_or_iff a b
  have hsecond := removePrefix_or_iff b a
  unfold nodeIdsMatch
  rw [Bool.and_eq_true, Bool.and_eq_true, Bool.or_eq_true, Bool.or_eq_true]
  simp only [decide_eq_true_eq]
  refine and_congr_right' ?_
  rw [hfirst, or_assoc]
  constructor
  · rintro (h | h | h)
    · exact .inl h
    · exact .inr (.inl h)
    · exact (hsecond.mp (.inr h)).elim (fun h => .inl h.symm) (fun h => .inr (.inr h))
  · rintro (h | h | h)
    · exact .inl h
    · exact .inr (.inl h)
    · exact (hsecond.mpr (.inr h)).elim (fun h => .inl h.symm) (fun h => .inr (.inr h))

theorem isAssignedToMe_iff {e : Executor} {assignedTo : String} :
    isAssignedToMe e (some assignedTo) = true ↔
      assignedTo ≠ "" ∧ (assignedTo = e.nodeId ∨ assignedTo = registered e.nodeId) := by
  by_cases hempty : assignedTo = ""
  · subst hempty
    exact iff_of_false (fun h => by cases h) (fun h => h.1 rfl)
  · have hmatch : isAssignedToMe e (some assignedTo) =
        (assignedTo = e.nodeId || assignedTo = registered e.nodeId ||
          Text.removePrefix "node_" assignedTo = e.nodeId) := by
      unfold isAssignedToMe
      split
      · rename_i h
        cases h
      · rename_i h
        exact absurd (Option.some.inj h) hempty
      · rename_i h
        cases h
        rfl
    have hspelt := removePrefix_or_iff assignedTo e.nodeId
    rw [hmatch, Bool.or_eq_true, Bool.or_eq_true, and_iff_right hempty]
    simp only [decide_eq_true_eq]
    constructor
    · rintro (h | h)
      · exact h
      · exact hspelt.mp (.inr h)
    · exact .inl

theorem isAssignedToMe_none {e : Executor} : isAssignedToMe e none = false := rfl

/-- Two executors take the same task when one has the other's registered spelling. -/
theorem both_assigned_iff {e e' : Executor} (hne : ¬(e.nodeId = e'.nodeId ∧ e.nodeId ≠ "")) :
    (∃ assignedTo, isAssignedToMe e assignedTo = true ∧ isAssignedToMe e' assignedTo = true) ↔
      e.nodeId = registered e'.nodeId ∨ e'.nodeId = registered e.nodeId ∨
        (e.nodeId = "" ∧ e'.nodeId = "") := by
  constructor
  · rintro ⟨assignedTo, h, h'⟩
    cases assignedTo with
    | none =>
        rw [isAssignedToMe_none] at h
        cases h
    | some assignedTo =>
        obtain ⟨hset, hmine⟩ := isAssignedToMe_iff.mp h
        obtain ⟨-, htheirs⟩ := isAssignedToMe_iff.mp h'
        have hsame : e.nodeId = e'.nodeId → e.nodeId = "" ∧ e'.nodeId = "" := by
          intro heq
          have hempty : e.nodeId = "" := by
            by_contra hnamed
            exact hne ⟨heq, hnamed⟩
          exact ⟨hempty, heq ▸ hempty⟩
        rcases hmine with hmine | hmine <;> rcases htheirs with htheirs | htheirs
        · exact .inr (.inr (hsame (hmine.symm.trans htheirs)))
        · exact .inl (hmine.symm.trans htheirs)
        · exact .inr (.inl (htheirs.symm.trans hmine))
        · exact .inr (.inr (hsame (registered_inj.mp (hmine.symm.trans htheirs))))
  · rintro (h | h | ⟨h, h'⟩)
    · refine ⟨some e.nodeId, isAssignedToMe_iff.mpr ⟨?_, .inl rfl⟩, isAssignedToMe_iff.mpr
        ⟨?_, .inr h⟩⟩ <;> exact h ▸ registered_ne_empty _
    · refine ⟨some e'.nodeId, isAssignedToMe_iff.mpr ⟨?_, .inr h⟩, isAssignedToMe_iff.mpr
        ⟨?_, .inl rfl⟩⟩ <;> exact h ▸ registered_ne_empty _
    · refine ⟨some (registered ""), isAssignedToMe_iff.mpr ⟨registered_ne_empty _, .inr ?_⟩,
        isAssignedToMe_iff.mpr ⟨registered_ne_empty _, .inr ?_⟩⟩
      · rw [h]
      · rw [h']

/-! ## Main's comparison -/

section Main

variable [Unicode]

/-- Two names without white space around them that stand for one node: the same, or
the registered and the bare spelling of one name. -/
def OneName (a b : String) : Prop :=
  a = b ∨ (a = registered b ∧ Text.startsWith b "node_" = false) ∨
    (b = registered a ∧ Text.startsWith a "node_" = false)

instance (a b : String) : Decidable (OneName a b) :=
  inferInstanceAs (Decidable (a = b ∨ (a = registered b ∧ Text.startsWith b "node_" = false) ∨
    (b = registered a ∧ Text.startsWith a "node_" = false)))

theorem canonicalNodeId_eq_iff {a b : String} :
    canonicalNodeId a = canonicalNodeId b ↔ OneName (Text.strip a) (Text.strip b) := by
  unfold canonicalNodeId
  dsimp only
  generalize Text.strip a = s
  generalize Text.strip b = t
  unfold OneName
  by_cases hs : Text.startsWith s "node_" = true <;> by_cases ht : Text.startsWith t "node_" = true
  · rw [if_pos hs, if_pos ht]
    obtain ⟨x, rfl⟩ := startsWith_node_iff.mp hs
    obtain ⟨y, rfl⟩ := startsWith_node_iff.mp ht
    rw [drop_registered, drop_registered, registered_inj, hs, ht]
    simp
  · rw [if_pos hs, if_neg ht]
    obtain ⟨x, rfl⟩ := startsWith_node_iff.mp hs
    rw [Bool.not_eq_true] at ht
    rw [drop_registered, registered_inj]
    constructor
    · rintro rfl
      exact .inr (.inl ⟨rfl, ht⟩)
    · rintro (h | ⟨h, -⟩ | ⟨-, h⟩)
      · rw [← h, hs] at ht
        cases ht
      · exact h
      · rw [hs] at h
        cases h
  · rw [if_neg hs, if_pos ht]
    obtain ⟨y, rfl⟩ := startsWith_node_iff.mp ht
    rw [Bool.not_eq_true] at hs
    rw [drop_registered, registered_inj]
    constructor
    · rintro rfl
      exact .inr (.inr ⟨rfl, hs⟩)
    · rintro (h | ⟨-, h⟩ | ⟨h, -⟩)
      · rw [h, ht] at hs
        cases hs
      · rw [ht] at h
        cases h
      · exact h.symm
  · rw [if_neg hs, if_neg ht]
    constructor
    · exact .inl
    · rintro (h | ⟨h, -⟩ | ⟨h, -⟩)
      · exact h
      · exact absurd (startsWith_node_iff.mpr ⟨t, h⟩) hs
      · exact absurd (startsWith_node_iff.mpr ⟨s, h⟩) ht

theorem sameNode_eq_true_iff {a b : String} : sameNode a b = true ↔
    (a ≠ "" ∧ b ≠ "") ∧ OneName (Text.strip a) (Text.strip b) := by
  rw [← canonicalNodeId_eq_iff]
  unfold sameNode
  split
  · rename_i hempty
    refine iff_of_false (fun h => by cases h) (fun h => ?_)
    exact hempty.elim h.1.1 h.1.2
  · rename_i hset
    rw [not_or] at hset
    rw [decide_eq_true_eq, and_iff_right hset]

end Main

/-! ## White space -/

section Spaces

variable [AsciiSpaces]

/-- A name with nothing in front that main drops: no white space, unless the whole
name is blank, and no prefix of a registered name. -/
def Bare (name : String) : Prop :=
  (Text.isBlank name = true ∨ (name.toList.head?.all (fun c => !Unicode.isSpace c)) = true) ∧
    Text.startsWith (Text.strip name) "node_" = false

instance (name : String) : Decidable (Bare name) :=
  inferInstanceAs (Decidable ((Text.isBlank name = true ∨
    (name.toList.head?.all (fun c => !Unicode.isSpace c)) = true) ∧
      Text.startsWith (Text.strip name) "node_" = false))

/-- The text without the white space at its end. -/
def rstrip (s : String) : String :=
  String.ofList (Text.rstripList Unicode.isSpace s.toList)

omit [AsciiSpaces] in
/-- Nothing is taken off a word, and nothing of it with what stands behind it. -/
theorem strip_word {p : Char → Bool} {word rest : List Char} (hword : ∀ c ∈ word, p c = false)
    (hne : word ≠ []) :
    Text.rstripList p ((word ++ rest).dropWhile p) = word ++ Text.rstripList p rest := by
  have hkeeps : ∀ cs : List Char, (∀ c ∈ cs, p c = false) → cs ≠ [] → ∀ rest,
      (cs ++ rest).dropWhile p = cs ++ rest := by
    intro cs hcs hcsne rest
    cases cs with
    | nil => exact absurd rfl hcsne
    | cons c cs =>
        rw [List.cons_append, List.dropWhile_cons_of_neg]
        rw [hcs c List.mem_cons_self]
        exact Bool.false_ne_true
  have hback : word.reverse.dropWhile p = word.reverse := by
    have h := hkeeps word.reverse (fun c hc => hword c (List.mem_reverse.mp hc))
      (mt List.reverse_eq_nil_iff.mp hne) []
    rwa [List.append_nil] at h
  rw [hkeeps word hword hne]
  unfold Text.rstripList
  rw [List.reverse_append, List.dropWhile_append]
  split
  · rename_i hblank
    rw [List.isEmpty_iff] at hblank
    rw [hblank, hback, List.reverse_reverse, List.reverse_nil, List.append_nil]
  · rw [List.reverse_append, List.reverse_reverse]

theorem strip_registered (name : String) :
    Text.strip (registered name) = registered (rstrip name) := by
  have hword : ∀ c ∈ "node_".toList, Unicode.isSpace c = false := by
    intro c hc
    have hascii : "node_".toList.all
        (fun c => decide (c.toNat < 128) && !Unicode.asciiIsSpace c) = true := by decide
    have hboth := List.all_eq_true.mp hascii c hc
    rw [Bool.and_eq_true, decide_eq_true_eq, Bool.not_eq_true'] at hboth
    rw [AsciiSpaces.isSpace_ascii c hboth.1, hboth.2]
  have hrest : (rstrip name).toList = Text.rstripList Unicode.isSpace name.toList :=
    String.toList_ofList
  have hstrip : (Text.strip (registered name)).toList =
      Text.rstripList Unicode.isSpace ((registered name).toList.dropWhile Unicode.isSpace) :=
    String.toList_ofList
  rw [← String.toList_inj, hstrip, toList_registered, toList_registered, hrest]
  exact strip_word hword (by simp)

/-- Where nothing is dropped in front. -/
theorem strip_eq_rstrip_iff {name : String} : Text.strip name = rstrip name ↔
    Text.isBlank name = true ∨ (name.toList.head?.all (fun c => !Unicode.isSpace c)) = true := by
  unfold Text.strip rstrip Text.isBlank
  rw [← String.toList_inj, String.toList_ofList, String.toList_ofList]
  generalize name.toList = cs
  let p : Char → Bool := Unicode.isSpace
  change Text.rstripList p (cs.dropWhile p) = Text.rstripList p cs ↔
    cs.all p = true ∨ (cs.head?.all (fun c => !p c)) = true
  have hall : ∀ xs : List Char, xs.all p = true → Text.rstripList p xs = [] := by
    intro xs hxs
    have hnil : xs.reverse.dropWhile p = [] :=
      List.dropWhile_eq_nil_iff.mpr (fun c hc =>
        List.all_eq_true.mp hxs c (List.mem_reverse.mp hc))
    unfold Text.rstripList
    rw [hnil, List.reverse_nil]
  cases cs with
  | nil => exact iff_of_true rfl (.inl rfl)
  | cons c rest =>
      by_cases hc : p c = true
      · rw [List.dropWhile_cons_of_pos hc]
        constructor
        · intro h
          refine .inl ?_
          by_contra hnot
          -- the two sides begin with a space and with a character that is none
          have hne : Text.rstripList p (c :: rest) ≠ [] := fun hnil =>
            hnot (List.all_eq_true.mpr (List.rdropWhile_eq_nil_iff.mp hnil))
          have hstarts : Text.rstripList p (c :: rest) <+: c :: rest := List.rdropWhile_prefix p _
          have hstarts' : Text.rstripList p (rest.dropWhile p) <+: rest.dropWhile p :=
            List.rdropWhile_prefix p _
          rw [h] at hstarts'
          cases hleft : Text.rstripList p (c :: rest) with
          | nil => exact hne hleft
          | cons x xs =>
              rw [hleft] at hstarts hstarts'
              obtain ⟨rfl, -⟩ := List.cons_prefix_cons.mp hstarts
              obtain ⟨ys, hys⟩ := hstarts'
              have hsome : rest.dropWhile p ≠ [] := by
                rw [← hys]
                exact List.cons_ne_nil _ _
              have hhead : p ((rest.dropWhile p).head hsome) = false :=
                List.head_dropWhile_not p hsome
              have hx : (rest.dropWhile p).head hsome = x := by
                simp only [← hys, List.cons_append, List.head_cons]
              rw [hx, hc] at hhead
              cases hhead
        · rintro (h | h)
          · rw [hall _ h, hall]
            refine List.all_eq_true.mpr (fun x hx => ?_)
            exact List.all_eq_true.mp h x (List.mem_cons_of_mem _ (List.dropWhile_subset p hx))
          · rw [List.head?_cons, Option.all_some, hc] at h
            cases h
      · rw [List.dropWhile_cons_of_neg hc]
        refine iff_of_true rfl (.inr ?_)
        rw [List.head?_cons, Option.all_some, Bool.not_eq_true] at *
        rw [hc]
        rfl

theorem length_strip_le (name : String) :
    (Text.strip name).toList.length ≤ (rstrip name).toList.length := by
  unfold Text.strip rstrip
  rw [String.toList_ofList, String.toList_ofList]
  generalize name.toList = cs
  let p : Char → Bool := Unicode.isSpace
  have hsplit : cs.reverse = (cs.dropWhile p).reverse ++ (cs.takeWhile p).reverse := by
    rw [← List.reverse_append, List.takeWhile_append_dropWhile]
  change (Text.rstripList p (cs.dropWhile p)).length ≤ (Text.rstripList p cs).length
  unfold Text.rstripList
  rw [hsplit, List.dropWhile_append]
  split
  · rename_i hblank
    rw [List.isEmpty_iff] at hblank
    rw [hblank]
    exact Nat.zero_le _
  · rw [List.length_reverse, List.length_reverse, List.length_append]
    exact Nat.le_add_right _ _

theorem sameNode_registered_iff {name : String} (hne : name ≠ "") :
    sameNode (registered name) name = true ↔ Bare name := by
  rw [sameNode_eq_true_iff, and_iff_right ⟨registered_ne_empty name, hne⟩, strip_registered]
  have hle := length_strip_le name
  unfold Bare OneName
  rw [← strip_eq_rstrip_iff]
  constructor
  · rintro (h | ⟨h, hplain⟩ | ⟨h, -⟩)
    · have hlength := length_registered (rstrip name)
      rw [h] at hlength
      omega
    · exact ⟨(registered_inj.mp h).symm, hplain⟩
    · have hlength := length_registered (registered (rstrip name))
      have hinner := length_registered (rstrip name)
      rw [← h] at hlength
      omega
  · rintro ⟨hsame, hplain⟩
    exact .inr (.inl ⟨by rw [hsame], hplain⟩)

theorem sameNode_comm (a b : String) : sameNode a b = sameNode b a := by
  unfold sameNode
  simp only [or_comm (a := a = ""), eq_comm (a := canonicalNodeId a)]

/-! ## Where the three agree -/

/-- What main and the executors must agree on about two node ids: whether they are
one node, and that a task is taken by one node only. -/
structure IdentityAgrees (a b : String) : Prop where
  matches_same : nodeIdsMatch a b = true ↔ sameNode a b = true
  one_taker : sameNode a b = false → ∀ e e' : Executor, e.nodeId = a → e'.nodeId = b →
    ∀ assignedTo, ¬(isAssignedToMe e assignedTo = true ∧ isAssignedToMe e' assignedTo = true)

/-- Two node ids that are the same, or the two spellings of a bare name, or of two
nodes whichever way they are compared. -/
def PlainlySpelled (a b : String) : Prop :=
  (a = b ∧ a ≠ "") ∨ (a = registered b ∧ b ≠ "" ∧ Bare b) ∨
    (b = registered a ∧ a ≠ "" ∧ Bare a) ∨
    (a ≠ b ∧ a ≠ registered b ∧ b ≠ registered a ∧
      (a = "" ∨ b = "" ∨ ¬OneName (Text.strip a) (Text.strip b)))

theorem IdentityAgrees.symm {a b : String} (h : IdentityAgrees a b) : IdentityAgrees b a where
  matches_same := by
    rw [sameNode_comm, ← h.matches_same, nodeIdsMatch_iff, nodeIdsMatch_iff]
    tauto
  one_taker hother e e' he he' assignedTo hboth :=
    h.one_taker (sameNode_comm a b ▸ hother) e' e he' he assignedTo hboth.symm

/-- An executor that runs under a node id. -/
def executorOf (nodeId : String) : Executor :=
  { nodeId := nodeId }

theorem not_identityAgrees {a b assignedTo : String} (hother : sameNode a b = false)
    (ha : assignedTo = a ∨ assignedTo = registered a)
    (hb : assignedTo = b ∨ assignedTo = registered b) (hset : assignedTo ≠ "") :
    ¬IdentityAgrees a b := fun h =>
  h.one_taker hother (executorOf a) (executorOf b) rfl rfl (some assignedTo)
    ⟨isAssignedToMe_iff.mpr ⟨hset, ha⟩, isAssignedToMe_iff.mpr ⟨hset, hb⟩⟩

theorem sameNode_empty {a b : String} (h : a = "" ∨ b = "") : sameNode a b = false :=
  if_pos h

theorem identityAgrees_registered_iff {name : String} :
    IdentityAgrees (registered name) name ↔ name ≠ "" ∧ Bare name := by
  by_cases hempty : name = ""
  · refine iff_of_false ?_ (fun h => h.1 hempty)
    exact not_identityAgrees (sameNode_empty (.inr hempty)) (.inl rfl) (.inr rfl)
      (registered_ne_empty name)
  · have hmatch : nodeIdsMatch (registered name) name = true :=
      nodeIdsMatch_iff.mpr ⟨⟨registered_ne_empty name, hempty⟩, .inr (.inl rfl)⟩
    rw [and_iff_right hempty, ← sameNode_registered_iff hempty]
    constructor
    · intro h
      exact h.matches_same.mp hmatch
    · intro h
      exact ⟨iff_of_true hmatch h, fun hother => by rw [h] at hother; cases hother⟩

/-- Exactly when main and the executors agree. -/
theorem identityAgrees_iff (a b : String) : IdentityAgrees a b ↔ PlainlySpelled a b := by
  by_cases hsame : a = b
  · subst hsame
    by_cases hempty : a = ""
    · refine iff_of_false ?_ ?_
      · exact not_identityAgrees (sameNode_empty (.inl hempty)) (.inr rfl) (.inr rfl)
          (registered_ne_empty a)
      · rintro (⟨-, h⟩ | ⟨h, -⟩ | ⟨h, -⟩ | ⟨h, -⟩)
        · exact h hempty
        · exact registered_ne_self a h.symm
        · exact registered_ne_self a h.symm
        · exact h rfl
    · have hself : sameNode a a = true := sameNode_eq_true_iff.mpr ⟨⟨hempty, hempty⟩, .inl rfl⟩
      have hmatch : nodeIdsMatch a a = true := nodeIdsMatch_iff.mpr ⟨⟨hempty, hempty⟩, .inl rfl⟩
      refine iff_of_true ⟨iff_of_true hmatch hself, fun hother => ?_⟩ (.inl ⟨rfl, hempty⟩)
      rw [hself] at hother
      cases hother
  by_cases hleft : a = registered b
  · subst hleft
    rw [identityAgrees_registered_iff]
    constructor
    · rintro ⟨hne, hbare⟩
      exact .inr (.inl ⟨rfl, hne, hbare⟩)
    · rintro (⟨h, -⟩ | ⟨-, h⟩ | ⟨h, -⟩ | ⟨-, h, -⟩)
      · exact absurd h hsame
      · exact h
      · have hlength := length_registered (registered b)
        have hinner := length_registered b
        rw [← h] at hlength
        omega
      · exact absurd rfl h
  by_cases hright : b = registered a
  · subst hright
    have hflip : IdentityAgrees a (registered a) ↔ IdentityAgrees (registered a) a :=
      ⟨IdentityAgrees.symm, IdentityAgrees.symm⟩
    rw [hflip, identityAgrees_registered_iff]
    constructor
    · rintro ⟨hne, hbare⟩
      exact .inr (.inr (.inl ⟨rfl, hne, hbare⟩))
    · rintro (⟨h, -⟩ | ⟨h, -⟩ | ⟨-, h⟩ | ⟨-, -, h, -⟩)
      · exact absurd h hsame
      · exact absurd h hleft
      · exact h
      · exact absurd rfl h
  -- the executors compare the texts and tell these two apart
  have hmatch : ¬nodeIdsMatch a b = true := fun h =>
    (nodeIdsMatch_iff.mp h).2.elim hsame (fun h => h.elim hleft hright)
  have htaker : ∀ e e' : Executor, e.nodeId = a → e'.nodeId = b →
      ∀ assignedTo,
        ¬(isAssignedToMe e assignedTo = true ∧ isAssignedToMe e' assignedTo = true) := by
    rintro e e' rfl rfl assignedTo hboth
    rcases (both_assigned_iff (fun h => hsame h.1)).mp ⟨assignedTo, hboth⟩ with h | h | h
    · exact hleft h
    · exact hright h
    · exact hsame (h.1.trans h.2.symm)
  have hagrees : IdentityAgrees a b ↔ ¬sameNode a b = true :=
    ⟨fun h hnode => hmatch (h.matches_same.mpr hnode),
      fun h => ⟨iff_of_false hmatch h, fun _ => htaker⟩⟩
  rw [hagrees, sameNode_eq_true_iff, not_and_or, not_and_or, not_not, not_not, or_assoc]
  constructor
  · exact fun h => .inr (.inr (.inr ⟨hsame, hleft, hright, h⟩))
  · rintro (⟨h, -⟩ | ⟨h, -⟩ | ⟨h, -⟩ | ⟨-, -, -, h⟩)
    · exact absurd h hsame
    · exact absurd h hleft
    · exact absurd h hright
    · exact h

end Spaces

section Examples

local instance asciiIdentity : AsciiSpaces := AsciiSpaces.ascii

theorem identityAgrees_iff_nodeX : IdentityAgrees "node_x" "x" :=
  (identityAgrees_iff "node_x" "x").mpr (.inr (.inl ⟨rfl, by decide, by decide⟩))

/-- Main tells `node_x` and `node_node_x` apart, and the executor takes them for one
node. -/
theorem doubled_prefix_matches : ¬∀ a b : String, IdentityAgrees a b := by
  intro h
  have hmatch := (h "node_x" "node_node_x").matches_same
  clear h
  revert hmatch
  decide

end Examples

end HermesCluster
