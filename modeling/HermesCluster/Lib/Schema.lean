import HermesCluster.Lib.Json
/-!
# Models of JSON documents

What a validating model makes of a document: each field is checked against its
type, missing ones get their default, unknown ones are dropped or kept. How a
scalar is coerced is a parameter. A model that is lawful leaves alone what it has
validated.
-/

/-- The scalar types. -/
inductive ScalarKind where
  | str | int | float | bool
  deriving DecidableEq, Repr

/-- How a value, or the text of a key, is coerced to a scalar type. -/
class Coercion where
  value : ScalarKind → Json → Option Json
  key : ScalarKind → String → Option String
  value_again : ∀ {kind j w}, value kind j = some w → value kind w = some w
  key_again : ∀ {kind k l}, key kind k = some l → key kind l = some l
  value_scalar : ∀ {kind j w}, value kind j = some w → j.IsScalar ∧ w.IsScalar
  value_str : ∀ s, value .str (.str s) = some (.str s)
  value_int : ∀ n : Int, value .int (.num n) = some (.num n)
  value_bool : ∀ b, value .bool (.bool b) = some (.bool b)

namespace Coercion

/-- A value of the type, as it is. -/
def ofKind : ScalarKind → Json → Option Json
  | .str, .str s => some (.str s)
  | .int, .num q => if q.den = 1 then some (.num q) else none
  | .float, .num q => some (.num q)
  | .bool, .bool b => some (.bool b)
  | _, _ => none

def keyOfKind : ScalarKind → String → Option String
  | .str, k => some k
  | .int, k => if k ≠ "" ∧ k.toList.all Char.isDigit = true then some k else none
  | _, _ => none

theorem ofKind_eq {kind : ScalarKind} {j w : Json} (h : ofKind kind j = some w) :
    w = j ∧ j.IsScalar := by
  unfold ofKind at h
  split at h
  case h_2 =>
    split at h
    · exact ⟨(Option.some.inj h).symm, trivial⟩
    · cases h
  case h_1 | h_3 | h_4 => exact ⟨(Option.some.inj h).symm, trivial⟩
  case h_5 => cases h

theorem keyOfKind_eq {kind : ScalarKind} {k l : String} (h : keyOfKind kind k = some l) :
    l = k := by
  unfold keyOfKind at h
  split at h
  · exact (Option.some.inj h).symm
  · split at h
    · exact (Option.some.inj h).symm
    · cases h
  · cases h

/-- Nothing is converted. -/
@[reducible]
def strict : Coercion where
  value := ofKind
  key := keyOfKind
  value_again h := (ofKind_eq h).1 ▸ h
  key_again h := keyOfKind_eq h ▸ h
  value_scalar h := ⟨(ofKind_eq h).2, (ofKind_eq h).1 ▸ (ofKind_eq h).2⟩
  value_str _ := rfl
  value_int _ := rfl
  value_bool _ := rfl

end Coercion

/-- The type of a field. -/
inductive Schema where
  | scalar (kind : ScalarKind)
  | optional (s : Schema)
  | list (s : Schema)
  | dict (key : ScalarKind) (s : Schema)
  /-- A type with a validator that runs after it. -/
  | checked (s : Schema) (check : Json → Option Json)
  /-- A model, which may keep unknown keys; a field has its type and its default. -/
  | model (extra : Bool) (fields : List (String × Schema × Json))

namespace Schema

/-- The fields of a model. -/
abbrev Fields : Type := List (String × Schema × Json)

def names (known : Fields) : List String :=
  known.map Prod.fst

/-- The fields that a model has when nothing is given. -/
def defaults (known : Fields) : List (String × Json) :=
  known.map fun f => (f.1, f.2.2)

/-- A validator that only checks. -/
def ensure (p : Json → Bool) (j : Json) : Option Json :=
  if p j then some j else none

section Validation

variable [Coercion]

/-- A dictionary from its entries; of two with one key the later counts. -/
def dictOf (entries : List (String × Json)) : List (String × Json) :=
  entries.foldl (fun fields f => Json.insert fields f.1 f.2) []

mutual

/-- `model_validate`, dumped. -/
def validate : Schema → Json → Option Json
  | .scalar kind, j => Coercion.value kind j
  | .optional s, j =>
      match j with
      | .null => some .null
      | j => validate s j
  | .list s, .arr items => (items.mapM (validate s)).map .arr
  | .dict key s, .obj fields =>
      (fields.mapM fun f : String × Json => (Coercion.key key f.1).bind fun k =>
        (validate s f.2).map fun v => (k, v)).map fun entries => .obj (dictOf entries)
  | .checked s check, j => (validate s j).bind check
  | .model extra known, .obj fields =>
      (validateFields known fields).map fun values =>
        .obj (values ++ if extra then fields.filter (fun f => decide (f.1 ∉ names known)) else [])
  | _, _ => none

/-- The values of the fields of a model. -/
def validateFields : Fields → List (String × Json) → Option (List (String × Json))
  | [], _ => some []
  | (name, s, default) :: rest, fields =>
      (match fields.lookup name with
        | none => some default
        | some j => validate s j).bind fun value =>
      (validateFields rest fields).map fun values => (name, value) :: values

end

mutual

/-- Validators leave alone what they have let through, no two fields have one
name, and each default passes its own type. -/
def Lawful : Schema → Prop
  | .scalar _ => True
  | .optional s => s.Lawful
  | .list s => s.Lawful
  | .dict _ s => s.Lawful
  | .checked s check => s.Lawful ∧ ∀ w y, validate s w = some w → check w = some y →
      validate s y = some y ∧ check y = some y
  | .model _ known => (names known).Nodup ∧ LawfulFields known

def LawfulFields : Fields → Prop
  | [] => True
  | (_, s, default) :: rest => s.Lawful ∧ validate s default = some default ∧ LawfulFields rest

end

/-! ## The fields of a model -/

/-- What a field is validated to. -/
def fieldValue (field : Schema × Json) (given : Option Json) : Option Json :=
  match given with
  | none => some field.2
  | some j => validate field.1 j

theorem validateFields_nil (fields : List (String × Json)) :
    validateFields [] fields = some [] := rfl

theorem validateFields_cons (f : String × Schema × Json) (rest : Fields)
    (fields : List (String × Json)) :
    validateFields (f :: rest) fields =
      (fieldValue f.2 (fields.lookup f.1)).bind fun value =>
        (validateFields rest fields).map fun values => (f.1, value) :: values := rfl

variable {known : Fields} {fields values : List (String × Json)}

theorem keys_validateFields (h : validateFields known fields = some values) :
    values.map Prod.fst = names known := by
  induction known generalizing values with
  | nil =>
      rw [validateFields_nil] at h
      cases h
      rfl
  | cons f rest ih =>
      rw [validateFields_cons] at h
      obtain ⟨value, -, h⟩ := Option.bind_eq_some_iff.mp h
      obtain ⟨others, hothers, rfl⟩ := Option.map_eq_some_iff.mp h
      rw [List.map_cons, ih hothers]
      rfl

/-- Each field has the value that its own type makes of what is given. -/
theorem lookup_validateFields (hnodup : (names known).Nodup)
    (h : validateFields known fields = some values) {f : String × Schema × Json} (hf : f ∈ known) :
    ∃ value, fieldValue f.2 (fields.lookup f.1) = some value ∧
      values.lookup f.1 = some value := by
  induction known generalizing values with
  | nil => cases hf
  | cons g rest ih =>
      rw [validateFields_cons] at h
      obtain ⟨value, hvalue, h⟩ := Option.bind_eq_some_iff.mp h
      obtain ⟨others, hothers, rfl⟩ := Option.map_eq_some_iff.mp h
      obtain ⟨hnew, hnodup⟩ := List.nodup_cons.mp hnodup
      rw [Json.lookup_cons]
      rcases List.mem_cons.mp hf with rfl | hrest
      · exact ⟨value, hvalue, if_pos rfl⟩
      · have hne : f.1 ≠ g.1 := fun heq => hnew (heq ▸ List.mem_map_of_mem hrest)
        rw [if_neg hne]
        exact ih hnodup hothers hrest

theorem validateFields_isSome
    (h : ∀ f ∈ known, ∃ value, fieldValue f.2 (fields.lookup f.1) = some value) :
    ∃ values, validateFields known fields = some values := by
  induction known with
  | nil => exact ⟨[], validateFields_nil fields⟩
  | cons f rest ih =>
      rw [List.forall_mem_cons] at h
      obtain ⟨value, hvalue⟩ := h.1
      obtain ⟨others, hothers⟩ := ih h.2
      rw [validateFields_cons, hvalue, hothers]
      exact ⟨_, rfl⟩

/-- The fields are validated to given values where each of them is. -/
theorem validateFields_eq (hnodup : (names known).Nodup)
    (hkeys : values.map Prod.fst = names known)
    (h : ∀ f ∈ known, fieldValue f.2 (fields.lookup f.1) = values.lookup f.1) :
    validateFields known fields = some values := by
  have hsome : ∀ f ∈ known, ∃ value, fieldValue f.2 (fields.lookup f.1) = some value := by
    intro f hf
    rw [h f hf]
    refine Option.isSome_iff_exists.mp (Json.lookup_isSome_iff.mpr ?_)
    rw [hkeys]
    exact List.mem_map_of_mem hf
  obtain ⟨values', hvalues'⟩ := validateFields_isSome hsome
  have hkeys' := keys_validateFields hvalues'
  rw [hvalues']
  refine congrArg some (Json.eq_of_lookup (hkeys'.trans hkeys.symm) (hkeys' ▸ hnodup) (fun k => ?_))
  by_cases hk : k ∈ names known
  · obtain ⟨f, hf, rfl⟩ := List.mem_map.mp hk
    obtain ⟨value, hvalue, hlookup⟩ := lookup_validateFields hnodup hvalues' hf
    rw [hlookup, ← hvalue, h f hf]
  · have hnone : ∀ {vs : List (String × Json)}, vs.map Prod.fst = names known →
        vs.lookup k = none := by
      intro vs hvs
      rw [← Option.not_isSome_iff_eq_none, Json.lookup_isSome_iff, hvs]
      exact hk
    rw [hnone hkeys', hnone hkeys]

/-! ## What is validated is left alone -/

omit [Coercion] in
/-- No entry is lost from entries with distinct keys. -/
theorem dictOf_eq_self {entries : List (String × Json)} (h : (entries.map Prod.fst).Nodup) :
    dictOf entries = entries := by
  have hinsert : ∀ (fs : List (String × Json)) (f : String × Json), f.1 ∉ fs.map Prod.fst →
      Json.insert fs f.1 f.2 = fs ++ [f] := by
    intro fs f hnew
    induction fs with
    | nil => rfl
    | cons g fs ih =>
        rw [List.map_cons, List.mem_cons, not_or] at hnew
        unfold Json.insert
        rw [if_neg (Ne.symm hnew.1), ih hnew.2]
        rfl
  have hfold : ∀ (entries fs : List (String × Json)), ((fs ++ entries).map Prod.fst).Nodup →
      entries.foldl (fun fields f => Json.insert fields f.1 f.2) fs = fs ++ entries := by
    intro entries
    induction entries with
    | nil => exact fun fs _ => (List.append_nil fs).symm
    | cons f entries ih =>
        intro fs hnodup
        have hnew : f.1 ∉ fs.map Prod.fst := by
          rw [List.map_append, List.map_cons, List.nodup_append] at hnodup
          exact fun hmem => hnodup.2.2 _ hmem _ List.mem_cons_self rfl
        rw [List.foldl_cons, hinsert fs f hnew, ih _ (by simpa using hnodup), List.append_assoc]
        rfl
  exact hfold entries [] h

omit [Coercion] in
/-- The keys of a dictionary are distinct and its entries were given. -/
theorem dictOf_spec (entries : List (String × Json)) :
    ((dictOf entries).map Prod.fst).Nodup ∧ ∀ f ∈ dictOf entries, f ∈ entries := by
  have hinsert : ∀ (fs : List (String × Json)) (f : String × Json), (fs.map Prod.fst).Nodup →
      ((Json.insert fs f.1 f.2).map Prod.fst).Nodup ∧
        (∀ g ∈ Json.insert fs f.1 f.2, g = f ∨ g ∈ fs) ∧
        ∀ k ∈ (Json.insert fs f.1 f.2).map Prod.fst, k = f.1 ∨ k ∈ fs.map Prod.fst := by
    intro fs f hnodup
    induction fs with
    | nil => simp [Json.insert]
    | cons g fs ih =>
        rw [List.map_cons, List.nodup_cons] at hnodup
        obtain ⟨hrest, hmem, hkeys⟩ := ih hnodup.2
        unfold Json.insert
        by_cases hg : g.1 = f.1
        · rw [if_pos hg]
          refine ⟨List.nodup_cons.mpr hnodup, fun g' hg' => ?_, fun k hk => .inr hk⟩
          rcases List.mem_cons.mp hg' with rfl | hold
          · exact .inl (Prod.ext hg rfl)
          · exact .inr (List.mem_cons_of_mem _ hold)
        · rw [if_neg hg]
          refine ⟨List.nodup_cons.mpr ⟨fun hk => ?_, hrest⟩, fun g' hg' => ?_, fun k hk => ?_⟩
          · exact (hkeys _ hk).elim hg hnodup.1
          · rcases List.mem_cons.mp hg' with rfl | hold
            · exact .inr List.mem_cons_self
            · exact (hmem g' hold).imp id (List.mem_cons_of_mem _)
          · rcases List.mem_cons.mp hk with rfl | hold
            · exact .inr List.mem_cons_self
            · exact (hkeys k hold).imp id (List.mem_cons_of_mem _)
  have hfold : ∀ (entries fs : List (String × Json)), (fs.map Prod.fst).Nodup →
      ((entries.foldl (fun fields f => Json.insert fields f.1 f.2) fs).map Prod.fst).Nodup ∧
        ∀ g ∈ entries.foldl (fun fields f => Json.insert fields f.1 f.2) fs,
          g ∈ entries ∨ g ∈ fs := by
    intro entries
    induction entries with
    | nil => exact fun fs hnodup => ⟨hnodup, fun g hg => .inr hg⟩
    | cons f entries ih =>
        intro fs hnodup
        obtain ⟨hnew, hmem, -⟩ := hinsert fs f hnodup
        obtain ⟨hall, hgiven⟩ := ih _ hnew
        refine ⟨hall, fun g hg => ?_⟩
        rcases hgiven g hg with hrest | hhere
        · exact .inl (List.mem_cons_of_mem _ hrest)
        · rcases hmem g hhere with rfl | hold
          · exact .inl List.mem_cons_self
          · exact .inr hold
  obtain ⟨hnodup, hgiven⟩ := hfold entries [] List.nodup_nil
  exact ⟨hnodup, fun f hf => (hgiven f hf).resolve_right List.not_mem_nil⟩

omit [Coercion] in
/-- A list whose items are left alone is left alone. -/
theorem mapM_eq_self {α : Type} {f : α → Option α} {xs : List α} (h : ∀ x ∈ xs, f x = some x) :
    xs.mapM f = some xs := by
  induction xs with
  | nil => rfl
  | cons x xs ih =>
      rw [List.forall_mem_cons] at h
      rw [List.mapM_cons, h.1, ih h.2]
      rfl

omit [Coercion] in
theorem mem_of_mapM {α β : Type} {f : α → Option β} {xs : List α} {ys : List β}
    (h : xs.mapM f = some ys) {y : β} (hy : y ∈ ys) : ∃ x, f x = some y := by
  induction xs generalizing ys with
  | nil =>
      cases h
      cases hy
  | cons x xs ih =>
      rw [List.mapM_cons] at h
      obtain ⟨y', hy', h⟩ := Option.bind_eq_some_iff.mp h
      obtain ⟨ys', hys', heq⟩ := Option.bind_eq_some_iff.mp h
      cases heq
      rcases List.mem_cons.mp hy with rfl | hrest
      · exact ⟨x, hy'⟩
      · exact ih hys' hrest

/-- The values of fields are validated to themselves. -/
def Settled (s : Schema) : Prop :=
  ∀ j w, validate s j = some w → validate s w = some w

theorem validate_scalar (kind : ScalarKind) (j : Json) :
    validate (.scalar kind) j = Coercion.value kind j := rfl

theorem validate_null (s : Schema) : validate (.optional s) .null = some .null := rfl

theorem validate_optional {s : Schema} {j : Json} (h : j ≠ .null) :
    validate (.optional s) j = validate s j := by
  cases j with
  | null => exact absurd rfl h
  | bool | num | str | arr | obj => rfl

theorem validate_arr (s : Schema) (items : List Json) :
    validate (.list s) (.arr items) = (items.mapM (validate s)).map .arr := rfl

theorem validate_checked (s : Schema) (check : Json → Option Json) (j : Json) :
    validate (.checked s check) j = (validate s j).bind check := rfl

theorem validate_dict (key : ScalarKind) (s : Schema) (fields : List (String × Json)) :
    validate (.dict key s) (.obj fields) =
      (fields.mapM fun f : String × Json => (Coercion.key key f.1).bind fun k =>
        (validate s f.2).map fun v => (k, v)).map fun entries => .obj (dictOf entries) := rfl

theorem validate_model (extra : Bool) (known : Fields) (fields : List (String × Json)) :
    validate (.model extra known) (.obj fields) =
      (validateFields known fields).map fun values =>
        .obj (values ++ if extra then fields.filter (fun f => decide (f.1 ∉ names known)) else [])
    := rfl

theorem lawful_checked_iff {s : Schema} {check : Json → Option Json} :
    (Schema.checked s check).Lawful ↔ s.Lawful ∧ ∀ w y, validate s w = some w → check w = some y →
      validate s y = some y ∧ check y = some y := Iff.rfl

theorem lawful_model_iff {extra : Bool} {known : Fields} :
    (Schema.model extra known).Lawful ↔ (names known).Nodup ∧ LawfulFields known := Iff.rfl

theorem lawfulFields_cons_iff {f : String × Schema × Json} {rest : Fields} :
    LawfulFields (f :: rest) ↔
      f.2.1.Lawful ∧ validate f.2.1 f.2.2 = some f.2.2 ∧ LawfulFields rest := Iff.rfl

theorem settled_dict {key : ScalarKind} {s : Schema} (hs : s.Settled) :
    (Schema.dict key s).Settled := by
  intro j w h
  cases j with
  | obj fields =>
      rw [validate_dict] at h
      obtain ⟨entries, hentries, rfl⟩ := Option.map_eq_some_iff.mp h
      obtain ⟨hnodup, hgiven⟩ := dictOf_spec entries
      have hself : ∀ f ∈ dictOf entries, ((Coercion.key key f.1).bind fun k =>
          (validate s f.2).map fun v => (k, v)) = some f := by
        intro f hf
        obtain ⟨g, hg⟩ := mem_of_mapM hentries (hgiven f hf)
        obtain ⟨k, hk, hg⟩ := Option.bind_eq_some_iff.mp hg
        obtain ⟨v, hv, rfl⟩ := Option.map_eq_some_iff.mp hg
        rw [Coercion.key_again hk, Option.bind_some, hs _ _ hv]
        rfl
      rw [validate_dict, mapM_eq_self hself, Option.map_some, dictOf_eq_self hnodup]
  | null | bool | num | str | arr =>
      change none = some w at h
      cases h

theorem settled_model {extra : Bool} {known : Fields} (hnodup : (names known).Nodup)
    (hfields : ∀ f ∈ known, f.2.1.Settled ∧ validate f.2.1 f.2.2 = some f.2.2) :
    (Schema.model extra known).Settled := by
  intro j w h
  cases j with
  | obj fields =>
      rw [validate_model] at h
      obtain ⟨values, hvalues, rfl⟩ := Option.map_eq_some_iff.mp h
      have hkeys := keys_validateFields hvalues
      let others := if extra then fields.filter (fun f => decide (f.1 ∉ names known)) else []
      have hothers : ∀ f ∈ others, f.1 ∉ names known := by
        intro f hf
        dsimp only [others] at hf
        split at hf
        · exact of_decide_eq_true (List.mem_filter.mp hf).2
        · cases hf
      have hagain : validateFields known (values ++ others) = some values := by
        refine validateFields_eq hnodup hkeys (fun f hf => ?_)
        obtain ⟨value, hvalue, hlookup⟩ := lookup_validateFields hnodup hvalues hf
        rw [Json.lookup_append, hlookup, Option.some_or]
        change validate f.2.1 value = some value
        unfold fieldValue at hvalue
        split at hvalue
        · cases hvalue
          exact (hfields f hf).2
        · exact (hfields f hf).1 _ _ hvalue
      rw [validate_model, hagain, Option.map_some]
      refine congrArg (fun fs => some (Json.obj (values ++ fs))) ?_
      change (if extra then (values ++ others).filter _ else []) = others
      dsimp only [others]
      split
      · rw [List.filter_append, List.filter_filter, List.filter_eq_nil_iff.mpr, List.nil_append]
        · simp
        · intro f hf
          rw [decide_eq_true_eq, not_not, ← hkeys]
          exact List.mem_map_of_mem hf
      · rfl
  | null | bool | num | str | arr =>
      change none = some w at h
      cases h

mutual

/-- A lawful type leaves alone what it has validated. -/
theorem settled_of_lawful : (s : Schema) → s.Lawful → s.Settled
  | .scalar kind, _ => fun j w h => by
      rw [validate_scalar] at h ⊢
      exact Coercion.value_again h
  | .optional s, hlaw => fun j w h => by
      have hs : s.Settled := settled_of_lawful s hlaw
      by_cases hnull : w = .null
      · rw [hnull, validate_null]
      · have hgiven : j ≠ .null := by
          rintro rfl
          rw [validate_null] at h
          exact hnull (Option.some.inj h).symm
        rw [validate_optional hgiven] at h
        rw [validate_optional hnull]
        exact hs _ _ h
  | .list s, hlaw => fun j w h => by
      have hs : s.Settled := settled_of_lawful s hlaw
      cases j with
      | arr items =>
          rw [validate_arr] at h
          obtain ⟨values, hvalues, rfl⟩ := Option.map_eq_some_iff.mp h
          have hself : ∀ v ∈ values, validate s v = some v := by
            intro v hv
            obtain ⟨item, hitem⟩ := mem_of_mapM hvalues hv
            exact hs _ _ hitem
          rw [validate_arr, mapM_eq_self hself]
          rfl
      | null | bool | num | str | obj =>
          change none = some w at h
          cases h
  | .dict key s, hlaw => settled_dict (settled_of_lawful s hlaw)
  | .checked s check, hlaw => fun j w h => by
      rw [lawful_checked_iff] at hlaw
      have hs : s.Settled := settled_of_lawful s hlaw.1
      rw [validate_checked] at h
      obtain ⟨v, hv, hw⟩ := Option.bind_eq_some_iff.mp h
      obtain ⟨hagain, hcheck⟩ := hlaw.2 v w (hs _ _ hv) hw
      rw [validate_checked, hagain]
      exact hcheck
  | .model extra known, hlaw => by
      rw [lawful_model_iff] at hlaw
      exact settled_model hlaw.1 (settled_of_lawfulFields known hlaw.2)

theorem settled_of_lawfulFields : (known : Fields) → LawfulFields known →
    ∀ f ∈ known, f.2.1.Settled ∧ validate f.2.1 f.2.2 = some f.2.2
  | [], _ => fun f hf => by cases hf
  | (name, s, default) :: rest, hlaw => fun f hf => by
      rw [lawfulFields_cons_iff] at hlaw
      rcases List.mem_cons.mp hf with rfl | hrest
      · exact ⟨settled_of_lawful s hlaw.1, hlaw.2.1⟩
      · exact settled_of_lawfulFields rest hlaw.2.2 f hrest

end

/-! ## Defaults -/

theorem validate_str (s : String) : validate (.scalar .str) (.str s) = some (.str s) := by
  rw [validate_scalar, Coercion.value_str]

theorem validate_int {q : Rat} (h : q.den = 1) :
    validate (.scalar .int) (.num q) = some (.num q) := by
  rw [validate_scalar, ← Rat.coe_int_num_of_den_eq_one h, Coercion.value_int]

theorem validate_bool (b : Bool) : validate (.scalar .bool) (.bool b) = some (.bool b) := by
  rw [validate_scalar, Coercion.value_bool]

theorem validate_list {s : Schema} {items : List Json}
    (h : ∀ j ∈ items, validate s j = some j) :
    validate (.list s) (.arr items) = some (.arr items) := by
  rw [validate_arr, mapM_eq_self h]
  rfl

theorem validate_dict_nil (key : ScalarKind) (s : Schema) :
    validate (.dict key s) (.obj []) = some (.obj []) := by
  rw [validate_dict]
  rfl

theorem validate_ensure {s : Schema} {p : Json → Bool} {j : Json}
    (hs : validate s j = some j) (hp : p j = true) :
    validate (.checked s (ensure p)) j = some j := by
  rw [validate_checked, hs]
  exact if_pos hp

theorem lawful_scalar (kind : ScalarKind) : (Schema.scalar kind).Lawful := trivial

theorem lawful_list {s : Schema} (hs : s.Lawful) : (Schema.list s).Lawful := hs

theorem lawful_dict (key : ScalarKind) {s : Schema} (hs : s.Lawful) :
    (Schema.dict key s).Lawful := hs

theorem lawful_model (extra : Bool) {known : Fields} (hnodup : (names known).Nodup)
    (h : ∀ f ∈ known, f.2.1.Lawful ∧ validate f.2.1 f.2.2 = some f.2.2) :
    (Schema.model extra known).Lawful := by
  refine lawful_model_iff.mpr ⟨hnodup, ?_⟩
  clear hnodup
  induction known with
  | nil => exact trivial
  | cons f rest ih =>
      rw [List.forall_mem_cons] at h
      exact lawfulFields_cons_iff.mpr ⟨h.1.1, h.1.2, ih h.2⟩

theorem lawful_ensure {s : Schema} (hs : s.Lawful) (p : Json → Bool) :
    (Schema.checked s (ensure p)).Lawful := by
  refine lawful_checked_iff.mpr ⟨hs, fun w y hw hy => ?_⟩
  unfold ensure at hy ⊢
  split at hy
  case isTrue hp =>
    cases hy
    exact ⟨hw, if_pos hp⟩
  case isFalse => cases hy

omit [Coercion] in
theorem lookup_defaults {known : Fields} (hnodup : (names known).Nodup)
    {f : String × Schema × Json} (hf : f ∈ known) :
    (defaults known).lookup f.1 = some f.2.2 := by
  have hkeys : (defaults known).map Prod.fst = names known := by
    simp [defaults, names, Function.comp_def]
  exact Json.lookup_of_mem (hkeys ▸ hnodup) (List.mem_map.mpr ⟨f, hf, rfl⟩)

/-- The defaults of a model are one of its values. -/
theorem validate_defaults {extra : Bool} {known : Fields} (h : (Schema.model extra known).Lawful) :
    validate (.model extra known) (.obj (defaults known)) = some (.obj (defaults known)) := by
  rw [lawful_model_iff] at h
  have hkeys : (defaults known).map Prod.fst = names known := by
    simp [defaults, names, Function.comp_def]
  have hfields : validateFields known (defaults known) = some (defaults known) := by
    refine validateFields_eq h.1 hkeys (fun f hf => ?_)
    rw [lookup_defaults h.1 hf]
    exact (settled_of_lawfulFields known h.2 f hf).2
  have hnone : (defaults known).filter (fun f => decide (f.1 ∉ names known)) = [] := by
    rw [List.filter_eq_nil_iff]
    intro f hf
    rw [decide_eq_true_eq, not_not, ← hkeys]
    exact List.mem_map_of_mem hf
  rw [validate_model, hfields, hnone, ite_self, Option.map_some, List.append_nil]

end Validation

end Schema
