import Mathlib.Data.List.Forall2
import HermesCluster.Lib.Url
/-!
# Query strings

`quote`, `quote_plus` and `urlencode` of `urllib.parse`, and how a form decoder reads a
query string. A text is encoded byte by byte; an encoder that writes each byte so that
it is read back, and none as a separator, writes fields that are read back.
-/

namespace FormCodec

/-! ## Bytes -/

/-- `s.encode("utf-8")`. -/
def utf8 (s : String) : List UInt8 :=
  s.toByteArray.data.toList

/-- The text of some bytes, if they are UTF-8. -/
def text? (bytes : List UInt8) : Option String :=
  String.fromUTF8? ⟨bytes.toArray⟩

theorem text?_utf8 (s : String) : text? (utf8 s) = some s :=
  dif_pos s.isValidUTF8

/-- `"%%%02X" % b`. -/
def escape (b : UInt8) : List Char :=
  '%' :: (Text.hex 2 b.toNat).map Char.toUpper

/-! ## Encoding -/

/-- `_ALWAYS_SAFE`. -/
def isAlwaysSafe (c : Char) : Bool :=
  Url.isAlpha c || Url.isDigit c || ['_', '.', '-', '~'].contains c

def quoteByte (safe : List Char) (b : UInt8) : List Char :=
  let c := Char.ofNat b.toNat
  if isAlwaysSafe c || safe.contains c then [c] else escape b

/-- `quote(s, safe)`. -/
def quote (safe : List Char) (s : String) : String :=
  String.ofList ((utf8 s).flatMap (quoteByte safe))

/-- `quote_plus(s)`. -/
def quotePlus (s : String) : String :=
  if ' ' ∈ s.toList then Text.replaceChar ' ' '+' (quote [' '] s) else quote [] s

/-- A name and its value, encoded. -/
def field (w : String × String) : String :=
  w.1 ++ "=" ++ w.2

def form (ws : List (String × String)) : String :=
  Text.join "&" (ws.map field)

/-- `urlencode`, of pairs of texts. -/
def urlencode (pairs : List (String × String)) : String :=
  form (pairs.map fun p => (quotePlus p.1, quotePlus p.2))

/-! ## Decoding -/

/-- The bytes that a name or a value stands for. -/
def unescape : List Char → List UInt8
  | '%' :: a :: b :: cs =>
      if Url.isHexDigit a && Url.isHexDigit b then
        UInt8.ofNat (16 * Url.hexValue a + Url.hexValue b) :: unescape cs
      else String.utf8EncodeChar '%' ++ unescape (a :: b :: cs)
  | '+' :: cs => 0x20 :: unescape cs
  | c :: cs => String.utf8EncodeChar c ++ unescape cs
  | [] => []

def component (cs : List Char) : Option String :=
  text? (unescape cs)

/-- A name and its value, around the first `=`. -/
def pair (cs : List Char) : Option (String × String) := do
  let name ← component (cs.takeWhile (fun c => c ≠ '='))
  let value ← component ((cs.dropWhile (fun c => c ≠ '=')).drop 1)
  pure (name, value)

/-- The pairs of a query string. A blank value stays, an empty field does not. -/
def decode (query : String) : Option (List (String × String)) :=
  ((query.toList.splitOn '&').filter (fun cs => cs ≠ [])).mapM pair

/-! ## One byte -/

theorem unescape_of_plain {c : Char} (hpercent : c ≠ '%') (hplus : c ≠ '+') (cs : List Char) :
    unescape (c :: cs) = String.utf8EncodeChar c ++ unescape cs := by
  rw [unescape]
  · exact fun _ _ _ hc => absurd hc hpercent
  · exact hplus

theorem escape_spec : ∀ n : Fin 256, ∃ a b, escape (UInt8.ofNat n.val) = ['%', a, b] ∧
    (Url.isHexDigit a && Url.isHexDigit b) = true ∧
    16 * Url.hexValue a + Url.hexValue b = n.val ∧
    '&' ∉ escape (UInt8.ofNat n.val) ∧ '=' ∉ escape (UInt8.ofNat n.val) := by
  intro n
  refine ⟨(Text.hexDigit (n.val / 16 % 16)).toUpper, (Text.hexDigit (n.val % 16)).toUpper, ?_⟩
  revert n
  decide +kernel

/-- An encoding of bytes that is read back, whatever follows, and holds no separator. -/
structure Faithful (enc : UInt8 → List Char) : Prop where
  reads : ∀ b rest, unescape (enc b ++ rest) = b :: unescape rest
  plain : ∀ b, '&' ∉ enc b ∧ '=' ∉ enc b

/-- Characters that stand for themselves, one byte each. -/
def Plain (c : Char) (b : UInt8) : Prop :=
  (c ≠ '%' ∧ c ≠ '+' ∧ c ≠ '&' ∧ c ≠ '=') ∧ String.utf8EncodeChar c = [b]

/-- A byte may be written as itself, as a `+` for a blank, or escaped. -/
theorem faithful_of_cases {enc : UInt8 → List Char}
    (h : ∀ b, (∃ c, enc b = [c] ∧ Plain c b) ∨ (enc b = ['+'] ∧ b = 0x20) ∨ enc b = escape b) :
    Faithful enc := by
  refine ⟨fun b rest => ?_, fun b => ?_⟩
  · obtain ⟨c, henc, ⟨hpercent, hplus, -⟩, hbyte⟩ | ⟨henc, rfl⟩ | henc := h b
    · rw [henc, List.singleton_append, unescape_of_plain hpercent hplus, hbyte]
      rfl
    · rw [henc]
      rfl
    · obtain ⟨x, y, htext, hdigits, hvalue, -⟩ := escape_spec ⟨b.toNat, b.toNat_lt⟩
      rw [henc, ← UInt8.ofNat_toNat (x := b), htext]
      change unescape ('%' :: x :: y :: rest) = _
      rw [unescape, if_pos hdigits, hvalue]
  · obtain ⟨c, henc, ⟨-, -, hamp, heq⟩, -⟩ | ⟨henc, -⟩ | henc := h b
    · rw [henc, List.mem_singleton, List.mem_singleton]
      exact ⟨hamp.symm, heq.symm⟩
    · rw [henc]
      decide
    · obtain ⟨-, -, -, -, -, hplain⟩ := escape_spec ⟨b.toNat, b.toNat_lt⟩
      rw [henc, ← UInt8.ofNat_toNat (x := b)]
      exact hplain

theorem plain_of_alwaysSafe : ∀ n : Fin 256, isAlwaysSafe (Char.ofNat n.val) = true →
    (Char.ofNat n.val ≠ '%' ∧ Char.ofNat n.val ≠ '+' ∧ Char.ofNat n.val ≠ '&' ∧
      Char.ofNat n.val ≠ '=' ∧ Char.ofNat n.val ≠ ' ') ∧
    String.utf8EncodeChar (Char.ofNat n.val) = [UInt8.ofNat n.val] := by
  decide +kernel

theorem plain_of_safe {b : UInt8} (h : isAlwaysSafe (Char.ofNat b.toNat) = true) :
    Plain (Char.ofNat b.toNat) b := by
  obtain ⟨⟨hpercent, hplus, hamp, heq, -⟩, hbyte⟩ := plain_of_alwaysSafe ⟨b.toNat, b.toNat_lt⟩ h
  exact ⟨⟨hpercent, hplus, hamp, heq⟩, hbyte.trans (by rw [UInt8.ofNat_toNat])⟩

theorem quoteByte_cases (safe : List Char) (b : UInt8) :
    (∃ c, quoteByte safe b = [c] ∧ c = Char.ofNat b.toNat ∧ isAlwaysSafe c = true) ∨
    (∃ c ∈ safe, quoteByte safe b = [c] ∧ c = Char.ofNat b.toNat) ∨
    quoteByte safe b = escape b := by
  unfold quoteByte
  dsimp only
  by_cases h : (isAlwaysSafe (Char.ofNat b.toNat) || safe.contains (Char.ofNat b.toNat)) = true
  · rw [if_pos h]
    obtain hsafe | hsafe := (Bool.or_eq_true ..).mp h
    · exact .inl ⟨_, rfl, rfl, hsafe⟩
    · exact .inr (.inl ⟨_, List.contains_iff_mem.mp hsafe, rfl, rfl⟩)
  · rw [if_neg h]
    exact .inr (.inr rfl)

theorem faithful_quote : Faithful (quoteByte []) := by
  refine faithful_of_cases (fun b => ?_)
  obtain ⟨c, henc, rfl, hsafe⟩ | ⟨c, hc, -⟩ | henc := quoteByte_cases [] b
  · exact .inl ⟨_, henc, plain_of_safe hsafe⟩
  · cases hc
  · exact .inr (.inr henc)

/-- `quote_plus` on one byte. -/
def plusByte (b : UInt8) : List Char :=
  (quoteByte [' '] b).map (fun c => if c = ' ' then '+' else c)

theorem blank_spec : ∀ n : Fin 256, ' ' ∉ escape (UInt8.ofNat n.val) ∧
    (Char.ofNat n.val = ' ' → UInt8.ofNat n.val = 0x20) := by
  decide +kernel

theorem faithful_plus : Faithful plusByte := by
  have hkeep : ∀ cs : List Char, ' ' ∉ cs → cs.map (fun c => if c = ' ' then '+' else c) = cs := by
    intro cs hcs
    have hsame : ∀ c ∈ cs, (if c = ' ' then '+' else c) = c :=
      fun c hc => if_neg (fun heq : c = ' ' => hcs (heq ▸ hc))
    exact (List.map_congr_left hsame).trans (List.map_id' cs)
  refine faithful_of_cases (fun b => ?_)
  obtain ⟨hescape, hblank⟩ := blank_spec ⟨b.toNat, b.toNat_lt⟩
  rw [UInt8.ofNat_toNat] at hescape hblank
  unfold plusByte
  obtain ⟨c, henc, rfl, hsafe⟩ | ⟨c, hc, henc, rfl⟩ | henc := quoteByte_cases [' '] b
  · obtain ⟨⟨-, -, -, -, hc⟩, -⟩ := plain_of_alwaysSafe ⟨b.toNat, b.toNat_lt⟩ hsafe
    refine .inl ⟨_, ?_, plain_of_safe hsafe⟩
    rw [henc, hkeep _ (fun hmem => hc (List.mem_singleton.mp hmem).symm)]
  · have hc : Char.ofNat b.toNat = ' ' := List.mem_singleton.mp hc
    refine .inr (.inl ⟨?_, hblank hc⟩)
    rw [henc, hc]
    rfl
  · refine .inr (.inr ?_)
    rw [henc, hkeep _ hescape]

/-! ## Texts -/

/-- An encoded name or value, and the text it stands for. -/
structure Encoded (w s : String) : Prop where
  reads : component w.toList = some s
  plain : '&' ∉ w.toList ∧ '=' ∉ w.toList

namespace Faithful

variable {enc : UInt8 → List Char} (h : Faithful enc)

include h

theorem unescape_flatMap (bytes : List UInt8) : unescape (bytes.flatMap enc) = bytes := by
  induction bytes with
  | nil => rfl
  | cons b bytes ih => rw [List.flatMap_cons, h.reads, ih]

/-- A text whose bytes are encoded one by one is read back. -/
theorem encoded (s : String) : Encoded (String.ofList ((utf8 s).flatMap enc)) s := by
  refine ⟨?_, ?_⟩
  · unfold component
    rw [String.toList_ofList, h.unescape_flatMap, text?_utf8]
  · rw [String.toList_ofList, List.mem_flatMap, List.mem_flatMap]
    exact ⟨fun ⟨b, _, hb⟩ => (h.plain b).1 hb, fun ⟨b, _, hb⟩ => (h.plain b).2 hb⟩

end Faithful

theorem encoded_quotePlus (s : String) : Encoded (quotePlus s) s := by
  unfold quotePlus
  split
  · have hplus : Text.replaceChar ' ' '+' (quote [' '] s) =
        String.ofList ((utf8 s).flatMap plusByte) := by
      unfold Text.replaceChar quote
      rw [String.toList_ofList, List.map_flatMap]
      rfl
    rw [hplus]
    exact faithful_plus.encoded s
  · exact faithful_quote.encoded s

/-! ## Forms -/

/-- An encoded pair, and the pair it stands for. -/
def Written (w p : String × String) : Prop :=
  Encoded w.1 p.1 ∧ Encoded w.2 p.2

variable {w p : String × String} {ws ps : List (String × String)}

theorem toList_field : (field w).toList = w.1.toList ++ '=' :: w.2.toList := by
  unfold field
  rw [String.toList_append, String.toList_append, List.append_assoc]
  rfl

theorem pair_field (h : Written w p) : pair (field w).toList = some p := by
  have hname : (field w).toList.takeWhile (fun c => c ≠ '=') = w.1.toList := by
    rw [toList_field, List.takeWhile_append_of_pos (fun c hc => ?_)]
    · simp
    · exact decide_eq_true (fun heq => h.1.plain.2 (heq ▸ hc))
  have hvalue : ((field w).toList.dropWhile (fun c => c ≠ '=')).drop 1 = w.2.toList := by
    rw [toList_field, List.dropWhile_append_of_pos (fun c hc => ?_)]
    · simp
    · exact decide_eq_true (fun heq => h.1.plain.2 (heq ▸ hc))
  unfold pair
  rw [hname, hvalue, h.1.reads, h.2.reads]
  rfl

theorem plain_field (h : Written w p) : '&' ∉ (field w).toList := by
  rw [toList_field, List.mem_append, List.mem_cons]
  rintro (hmem | heq | hmem)
  · exact h.1.plain.1 hmem
  · exact absurd heq (by decide)
  · exact h.2.plain.1 hmem

theorem toList_join (sep : String) (xs : List String) :
    (Text.join sep xs).toList = sep.toList.intercalate (xs.map String.toList) := by
  match xs with
  | [] => rfl
  | [x] => simp [Text.join]
  | x :: y :: xs =>
      rw [Text.join, String.toList_append, String.toList_append, toList_join sep (y :: xs)]
      simp [List.intercalate_cons_cons]

theorem plain_of_forall₂ (h : List.Forall₂ Written ws ps) :
    ∀ cs ∈ ws.map (fun w => (field w).toList), '&' ∉ cs := by
  induction h with
  | nil => exact fun cs hcs => by cases hcs
  | cons hw _ ih =>
      intro cs hcs
      obtain rfl | hcs := List.mem_cons.mp hcs
      · exact plain_field hw
      · exact ih cs hcs

theorem mapM_pair (h : List.Forall₂ Written ws ps) :
    (ws.map fun w => (field w).toList).mapM pair = some ps := by
  induction h with
  | nil => rfl
  | cons hw _ ih =>
      rw [List.map_cons, List.mapM_cons, pair_field hw, ih]
      rfl

/-- A form of encoded pairs is read back. -/
theorem decode_form (h : List.Forall₂ Written ws ps) : decode (form ws) = some ps := by
  have hfields : (form ws).toList =
      ['&'].intercalate (ws.map fun w => (field w).toList) := by
    unfold form
    rw [toList_join, List.map_map]
    rfl
  cases ws with
  | nil =>
      cases h
      rfl
  | cons w ws =>
      unfold decode
      rw [hfields, List.splitOn_intercalate _ (plain_of_forall₂ h) (by simp),
        List.filter_eq_self.mpr (fun cs hcs => ?_), mapM_pair h]
      obtain ⟨w', -, rfl⟩ := List.mem_map.mp hcs
      rw [toList_field]
      simp

end FormCodec
