import Mathlib.Data.List.Basic
import HermesCluster.Lib.Text
/-!
# `LIKE`, and lists as JSON text

The patterns of Postgres, in which `%` stands for any text, `_` for one character,
and a backslash takes away the meaning of the next; and what `json.dumps` writes of
a list of strings, in ASCII. A query that looks for a string between its quotes in
such a text finds it, unless `json.dumps` had to escape it.
-/

namespace Like

/-- `text LIKE pattern`. An escape at the end of the pattern, which Postgres refuses,
matches nothing. -/
def accepts : List Char → List Char → Bool
  | [], text => text = []
  | '%' :: pattern, text => text.tails.any (accepts pattern)
  | '_' :: pattern, text =>
      match text with
      | [] => false
      | _ :: rest => accepts pattern rest
  | ['\\'], _ => false
  | '\\' :: c :: pattern, text =>
      match text with
      | [] => false
      | x :: rest => x = c && accepts pattern rest
  | c :: pattern, text =>
      match text with
      | [] => false
      | x :: rest => x = c && accepts pattern rest

theorem accepts_percent {pattern text : List Char} :
    accepts ('%' :: pattern) text = true ↔ ∃ rest, rest <:+ text ∧ accepts pattern rest = true := by
  simp [accepts, List.any_eq_true]

/-- Without an escape, a text matches itself. -/
theorem accepts_append {lit pattern rest : List Char} (hplain : '\\' ∉ lit)
    (h : accepts pattern rest = true) : accepts (lit ++ pattern) (lit ++ rest) = true := by
  induction lit with
  | nil => exact h
  | cons c lit ih =>
      obtain ⟨hc, hlit⟩ := List.ne_and_not_mem_of_not_mem_cons hplain
      by_cases hany : c = '%'
      · rw [hany]
        exact accepts_percent.mpr ⟨lit ++ rest, List.suffix_cons _ _, ih hlit⟩
      by_cases hone : c = '_'
      · rw [hone]
        exact ih hlit
      · have hslash : c ≠ '\\' := Ne.symm hc
        simp [accepts, hslash, ih hlit]

/-- A text that stands anywhere is found between two `%`. -/
theorem accepts_between {lit text : List Char} (hplain : '\\' ∉ lit) (h : lit <:+: text) :
    accepts ('%' :: (lit ++ ['%'])) text = true := by
  obtain ⟨before, after, rfl⟩ := h
  refine accepts_percent.mpr ⟨lit ++ after, ⟨before, by rw [List.append_assoc]⟩, ?_⟩
  refine accepts_append hplain (accepts_percent.mpr ⟨[], List.nil_suffix, rfl⟩)

end Like

namespace JsonText

/-- `\uXXXX`. -/
def codeUnit (n : Nat) : List Char :=
  '\\' :: 'u' :: Text.hex 4 n

/-- One character of a string, in `json.dumps`. -/
def escaped (c : Char) : List Char :=
  if c = '"' ∨ c = '\\' then ['\\', c]
  else if c = '\n' then ['\\', 'n']
  else if c = '\r' then ['\\', 'r']
  else if c = '\t' then ['\\', 't']
  else if c.toNat = 12 then ['\\', 'f']
  else if c.toNat = 8 then ['\\', 'b']
  else if ' ' ≤ c ∧ c ≤ '~' then [c]
  else if c.toNat < 0x10000 then codeUnit c.toNat
  else
    let offset := c.toNat - 0x10000
    codeUnit (0xd800 + offset / 0x400) ++ codeUnit (0xdc00 + offset % 0x400)

/-- A string, in its quotes. -/
def string (s : String) : List Char :=
  '"' :: (s.toList.flatMap escaped ++ ['"'])

/-- `json.dumps` of a list of strings. -/
def strings (items : List String) : List Char :=
  '[' :: (List.intercalate [',', ' '] (items.map string) ++ [']'])

/-- A character that `json.dumps` writes as it is. -/
def IsPlain (c : Char) : Prop :=
  ' ' ≤ c ∧ c ≤ '~' ∧ c ≠ '"' ∧ c ≠ '\\'

instance (c : Char) : Decidable (IsPlain c) :=
  inferInstanceAs (Decidable (_ ∧ _))

theorem escaped_of_plain {c : Char} (h : IsPlain c) : escaped c = [c] := by
  obtain ⟨hlow, hhigh, hquote, hslash⟩ := h
  have hcode : 32 ≤ c.toNat := hlow
  have hline : c ≠ '\n' := by rintro rfl; exact absurd hcode (by decide)
  have hreturn : c ≠ '\r' := by rintro rfl; exact absurd hcode (by decide)
  have htab : c ≠ '\t' := by rintro rfl; exact absurd hcode (by decide)
  have hfeed : c.toNat ≠ 12 := by omega
  have hback : c.toNat ≠ 8 := by omega
  simp only [escaped, hquote, hslash, hline, hreturn, htab, hfeed, hback, hlow, hhigh, or_self,
    and_self, if_true, if_false]

theorem string_of_plain {s : String} (h : ∀ c ∈ s.toList, IsPlain c) :
    string s = '"' :: (s.toList ++ ['"']) := by
  have hsame : s.toList.flatMap escaped = s.toList := by
    rw [List.flatMap_congr (fun c hc => escaped_of_plain (h c hc))]
    exact List.flatMap_singleton' _
  rw [string, hsame]

theorem infix_intercalate {α : Type} {sep l : List α} {ls : List (List α)} (h : l ∈ ls) :
    l <:+: sep.intercalate ls := by
  induction ls with
  | nil => cases h
  | cons first ls ih =>
      cases ls with
      | nil =>
          rw [List.mem_singleton.mp h, List.intercalate_singleton]
      | cons next ls =>
          rw [List.intercalate_cons_cons]
          rcases List.mem_cons.mp h with rfl | hrest
          · exact (List.prefix_append l sep).isInfix.trans (List.prefix_append _ _).isInfix
          · exact (ih hrest).trans (List.suffix_append _ _).isInfix

theorem string_infix {s : String} {items : List String} (h : s ∈ items) :
    string s <:+: strings items := by
  have hitems : string s <:+: List.intercalate [',', ' '] (items.map string) :=
    infix_intercalate (List.mem_map_of_mem h)
  exact (hitems.trans (List.prefix_append _ [']']).isInfix).trans (List.suffix_cons _ _).isInfix

end JsonText
