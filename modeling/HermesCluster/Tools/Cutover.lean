import HermesCluster.Tools.ImportSqlite
/-!
# The cutover

The SQLite store is written to while the importer runs now and then, and runs a
last time when the writing has ended. What the Postgres store then holds.
-/

namespace HermesCluster

open ImportSqlite

/-! ## What is to hold -/

/-- The same value in both stores: date-times as instants, flags as booleans. -/
def SameValue : PgType → Cell → PgValue → Prop
  | .timestamptz, v, p =>
      (v = .null ∨ v = .text "") ∧ p = .null ∨
        ∃ d : IsoTime.DateTime, v = .text (String.ofList d.1.isoformat) ∧ p = .instant d.1.instant
  | .boolean, v, p => v = .null ∧ p = .null ∨ ∃ n, v = .int n ∧ p = .bool (n ≠ 0)
  | _, v, p => p = passThrough v

def SameRow {table : ClusterTable} (r : SqliteRow table) (p : PgRow table) : Prop :=
  ∀ c ∈ table.columns, SameValue c.2 (r.cells c.1) (p.cells c.1)

/-- The Postgres store holds the rows of the SQLite store, and no others. -/
def Faithful (db : SqliteDb) (pg : PgDb) : Prop :=
  ∀ table, (∀ r ∈ (db table).rows, ∃ p ∈ (pg.tables table).rows, SameRow r p) ∧
    ∀ p ∈ (pg.tables table).rows, ∃ r ∈ (db table).rows, SameRow r p

/-! ## The history -/

/-- A row is written, a row is deleted, or the importer runs. -/
inductive CutoverEvent where
  | put (table : ClusterTable) (row : SqliteRow table)
  | delete (table : ClusterTable) (key : Cell)
  | runImport

/-- Both stores. -/
structure Cutover where
  sqlite : SqliteDb
  postgres : PgDb

section Runs

variable [Unicode] (accepts : PgType → PgValue → Bool)

def CutoverEvent.apply (s : Cutover) : CutoverEvent → Cutover
  | put table row =>
      { s with sqlite := Function.update s.sqlite table ((s.sqlite table).upsert row) }
  | delete table key =>
      { s with sqlite := Function.update s.sqlite table ((s.sqlite table).erase key) }
  | runImport => { s with postgres := (importSqlite accepts s.sqlite s.postgres).2 }

def Cutover.after (events : List CutoverEvent) (s : Cutover) : Cutover :=
  events.foldl (fun s e => e.apply accepts s) s

def isCopyable (db : SqliteDb) (table : ClusterTable) : Bool :=
  decide (AllCopyable accepts db table)

/-- The tables that a run of the importer gets through. -/
def copied (db : SqliteDb) : List ClusterTable :=
  TABLES.takeWhile (isCopyable accepts db)

/-- No row that was copied once is missing now. -/
def NoneGone (events : List CutoverEvent) (s : Cutover) : Prop :=
  ∀ before rest, events = before ++ .runImport :: rest →
    ∀ table ∈ copied accepts (s.after accepts before).sqlite,
      ∀ r ∈ ((s.after accepts before).sqlite table).rows,
        ∃ r' ∈ ((s.after accepts events).sqlite table).rows, HasKey.key r' = HasKey.key r

end Runs

/-! ## Values -/

theorem mem_TABLES (table : ClusterTable) : table ∈ TABLES := by
  cases table <;> decide

theorem nodup_TABLES : TABLES.Nodup := by
  decide

theorem columns_listed (table : ClusterTable) : ∀ c ∈ table.columns,
    (c.1 ∈ dtColumns table ↔ c.2 = .timestamptz) ∧ (c.1 ∈ boolColumns table ↔ c.2 = .boolean) ∧
      (table = .syncLog ∧ c.1 = "timestamp" → c.2 = .bigint) := by
  cases table <;> decide

theorem pk_listed (table : ClusterTable) : table.pk ∈ table.columns.map Prod.fst ∧
    table.pk ∉ dtColumns table ∧ table.pk ∉ boolColumns table ∧
      ¬(table = .syncLog ∧ table.pk = "timestamp") := by
  cases table <;> decide

theorem passThrough_injective {v w : Cell} (h : passThrough v = passThrough w) : v = w := by
  cases v <;> cases w <;> first | rfl | cases h <;> rfl

section Values

variable [Unicode] {table : ClusterTable}

omit [Unicode] in
theorem parseDt_isoformat (d : IsoTime.DateTime) :
    parseDt (.text (String.ofList d.1.isoformat)) = .instant d.1.instant := by
  have hne : String.ofList d.1.isoformat ≠ "" := by
    intro hempty
    have hnil : d.1.isoformat = [] := by
      rw [← String.toList_ofList (l := d.1.isoformat), hempty]
      rfl
    have hread := IsoTime.fromisoformat_isoformat d
    rw [hnil] at hread
    cases hread
  simp only [parseDt]
  rw [if_neg hne, String.toList_ofList, IsoTime.fromisoformat_isoformat]

omit [Unicode] in
theorem sameValue_timestamptz {v : Cell} {p : PgValue} (h : Typed .timestamptz v) :
    SameValue .timestamptz v p ↔ parseDt v = p := by
  constructor
  · rintro (⟨rfl | rfl, rfl⟩ | ⟨d, rfl, rfl⟩)
    · rfl
    · rfl
    · exact parseDt_isoformat d
  · rintro rfl
    rcases h with rfl | rfl | ⟨d, rfl⟩
    · exact .inl ⟨.inl rfl, rfl⟩
    · exact .inl ⟨.inr rfl, rfl⟩
    · exact .inr ⟨d, rfl, parseDt_isoformat d⟩

omit [Unicode] in
theorem sameValue_boolean {v : Cell} {p : PgValue} (h : Typed .boolean v) :
    SameValue .boolean v p ↔ boolOf v = p := by
  constructor
  · rintro (⟨rfl, rfl⟩ | ⟨n, rfl, rfl⟩) <;> rfl
  · rintro rfl
    rcases h with rfl | ⟨n, rfl⟩
    · exact .inl ⟨rfl, rfl⟩
    · exact .inr ⟨n, rfl, rfl⟩

omit [Unicode] in
theorem sameValue_other {type : PgType} {v : Cell} {p : PgValue} (hdt : type ≠ .timestamptz)
    (hbool : type ≠ .boolean) : SameValue type v p ↔ passThrough v = p := by
  cases type with
  | timestamptz => exact absurd rfl hdt
  | boolean => exact absurd rfl hbool
  | text | integer | bigint | bigserial | double => exact eq_comm

/-- What is the same in Postgres is what the conversion gives. -/
theorem sameValue_iff_convert {c : String × PgType} (hc : c ∈ table.columns) {v : Cell}
    (htyped : Typed c.2 v) {p : PgValue} :
    SameValue c.2 v p ↔ convert table c.1 v = some p := by
  obtain ⟨hdt, hbool, hepoch⟩ := columns_listed table c hc
  unfold convert
  by_cases hstamp : c.2 = .timestamptz
  · rw [if_pos (hdt.mpr hstamp), Option.some.injEq]
    rw [hstamp] at htyped ⊢
    exact sameValue_timestamptz htyped
  rw [if_neg (fun h => hstamp (hdt.mp h))]
  by_cases hflag : c.2 = .boolean
  · rw [if_pos (hbool.mpr hflag), Option.some.injEq]
    rw [hflag] at htyped ⊢
    exact sameValue_boolean htyped
  rw [if_neg (fun h => hflag (hbool.mp h)), sameValue_other hstamp hflag]
  by_cases htime : table = .syncLog ∧ c.1 = "timestamp"
  · rw [if_pos htime]
    rw [hepoch htime] at htyped
    obtain ⟨n, rfl⟩ := htyped
    exact (Option.some.injEq _ _).symm.to_iff
  · rw [if_neg htime, Option.some.injEq]

theorem key_toPg (r : SqliteRow table) :
    (HasKey.key (toPg r) : PgValue) = passThrough (HasKey.key r : Cell) := by
  obtain ⟨-, hdt, hbool, hepoch⟩ := pk_listed table
  change (convert table table.pk (r.cells table.pk)).getD .null = passThrough (r.cells table.pk)
  rw [convert, if_neg hdt, if_neg hbool, if_neg hepoch]
  rfl

end Values

/-! ## Upserts -/

section Upserts

variable {table : ClusterTable}

/-- Two rows with the same values in the columns of the table. -/
def SameCells (p q : PgRow table) : Prop :=
  ∀ c ∈ table.columns, p.cells c.1 = q.cells c.1

theorem sameCells_excluded (new old : PgRow table)
    (hkey : (HasKey.key old : PgValue) = HasKey.key new) : SameCells (new.excluded old) new := by
  intro c hc
  by_cases hpk : c.1 = table.pk
  · rw [hpk]
    exact (new.keepsKey_excluded old).trans hkey
  · exact if_pos ⟨List.mem_map_of_mem hc, hpk⟩

theorem excluded_of_sameCells {new old : PgRow table} (h : SameCells old new) :
    new.excluded old = old := by
  have hcells : (new.excluded old).cells = old.cells := by
    funext name
    change (if _ then _ else _) = _
    split_ifs with hname
    · obtain ⟨c, hc, rfl⟩ := List.mem_map.mp hname.1
      exact (h c hc).symm
    · rfl
  cases old
  exact congrArg PgRow.mk hcells

theorem get?_upsert_self (t : Table (PgRow table)) (new : PgRow table) :
    ∃ p, (upsert t new).get? (HasKey.key new) = some p ∧ SameCells p new := by
  unfold upsert
  split
  · rename_i hfresh
    exact ⟨new, by rw [Table.get?_append, if_pos rfl], fun _ _ => rfl⟩
  · rename_i hthere
    obtain ⟨old, hold⟩ := Option.ne_none_iff_exists'.mp hthere
    refine ⟨new.excluded old, ?_, sameCells_excluded new old (Table.key_of_get? hold)⟩
    rw [Table.get?_modify_self, hold]
    rfl

theorem get?_upsert_other (t : Table (PgRow table)) (new : PgRow table) {k : PgValue}
    (hk : k ≠ HasKey.key new) : (upsert t new).get? k = t.get? k := by
  unfold upsert
  split
  · rw [Table.get?_append, if_neg (Ne.symm hk)]
  · exact t.get?_modify_ne (HasKey.key new) _ _ hk

theorem upsert_of_sameCells {t : Table (PgRow table)} {new p : PgRow table}
    (hget : t.get? (HasKey.key new) = some p) (h : SameCells p new) : upsert t new = t := by
  have hthere : ¬t.get? (HasKey.key new) = none := by
    rw [hget]
    exact Option.some_ne_none p
  rw [upsert, dif_neg hthere]
  exact Table.modify_of_fixed hget (excluded_of_sameCells h)

variable {rows : List (PgRow table)} {t : Table (PgRow table)}

theorem get?_foldl_upsert_other {k : PgValue} (hk : ∀ r ∈ rows, k ≠ HasKey.key r) :
    (rows.foldl upsert t).get? k = t.get? k := by
  induction rows generalizing t with
  | nil => rfl
  | cons r rows ih =>
      rw [List.foldl_cons, ih fun q hq => hk q (List.mem_cons_of_mem r hq)]
      exact get?_upsert_other t r (hk r List.mem_cons_self)

/-- Every row that is sent is there in the end. -/
theorem get?_foldl_upsert_of_mem (hnodup : (rows.map (HasKey.key (κ := PgValue))).Nodup)
    {r : PgRow table} (hr : r ∈ rows) :
    ∃ p, (rows.foldl upsert t).get? (HasKey.key r) = some p ∧ SameCells p r := by
  induction rows generalizing t with
  | nil => cases hr
  | cons q rows ih =>
      obtain ⟨hfirst, hrest⟩ := List.nodup_cons.mp hnodup
      rw [List.foldl_cons]
      rcases List.mem_cons.mp hr with rfl | hmem
      · have hother : ∀ x ∈ rows, (HasKey.key r : PgValue) ≠ HasKey.key x := by
          intro x hx heq
          rw [heq] at hfirst
          exact hfirst (List.mem_map_of_mem hx)
        rw [get?_foldl_upsert_other hother]
        exact get?_upsert_self t r
      · exact ih hrest hmem

/-- Sent again, they change nothing. -/
theorem foldl_upsert_of_sameCells
    (h : ∀ r ∈ rows, ∃ p, t.get? (HasKey.key r) = some p ∧ SameCells p r) :
    rows.foldl upsert t = t := by
  induction rows with
  | nil => rfl
  | cons r rows ih =>
      obtain ⟨p, hget, hcells⟩ := h r List.mem_cons_self
      rw [List.foldl_cons, upsert_of_sameCells hget hcells]
      exact ih fun q hq => h q (List.mem_cons_of_mem r hq)

end Upserts

/-! ## One run of the importer -/

section Runs

variable [Unicode] {accepts : PgType → PgValue → Bool} {db : SqliteDb} {pg : PgDb}
  {table : ClusterTable}

theorem nodup_keys_toPg (rows : Table (SqliteRow table)) :
    ((rows.rows.map toPg).map (HasKey.key (κ := PgValue))).Nodup := by
  have hkeys : (rows.rows.map toPg).map (HasKey.key (κ := PgValue)) =
      (rows.rows.map (HasKey.key (κ := Cell))).map passThrough := by
    rw [List.map_map, List.map_map]
    exact List.map_congr_left fun r _ => key_toPg r
  rw [hkeys]
  exact rows.nodup.map fun _ _ => passThrough_injective

/-- The rows of a table after a run that gets through it. -/
def imported (db : SqliteDb) (pg : PgDb) (table : ClusterTable) : Table (PgRow table) :=
  ((db table).rows.map toPg).foldl upsert (pg.tables table)

theorem importTable_tables {pg' : PgDb} (h : importTable accepts db table pg = some pg')
    (other : ClusterTable) :
    pg'.tables other = if other = table then imported db pg other else pg.tables other := by
  unfold importTable at h
  split at h
  · rw [← Option.some.inj h]
    by_cases heq : other = table
    · subst heq
      rw [if_pos rfl]
      exact Function.update_self ..
    · rw [if_neg heq]
      exact Function.update_of_ne heq ..
  · cases h

theorem importTable_eq_none_iff :
    importTable accepts db table pg = none ↔ ¬AllCopyable accepts db table := by
  by_cases hall : AllCopyable accepts db table
  · rw [importTable, if_pos hall]
    exact iff_of_false (Option.some_ne_none _) (not_not.mpr hall)
  · rw [importTable, if_neg hall]
    exact iff_of_true rfl hall

/-- A run gets as far as all rows can be copied. -/
theorem tables_importTables {ts : List ClusterTable} (hnodup : ts.Nodup) (table : ClusterTable) :
    (importTables accepts db ts pg).2.tables table =
      if table ∈ ts.takeWhile (isCopyable accepts db) then imported db pg table
      else pg.tables table := by
  induction ts generalizing pg with
  | nil => rfl
  | cons t ts ih =>
      obtain ⟨hfirst, hrest⟩ := List.nodup_cons.mp hnodup
      unfold importTables
      cases himport : importTable accepts db t pg with
      | none =>
          have hstop : ¬isCopyable accepts db t = true := fun hcopyable =>
            importTable_eq_none_iff.mp himport (of_decide_eq_true hcopyable)
          rw [List.takeWhile_cons_of_neg hstop]
          rfl
      | some pg' =>
          have hgoes : isCopyable accepts db t = true := by
            refine decide_eq_true (by_contra fun hstop => ?_)
            rw [importTable_eq_none_iff.mpr hstop] at himport
            cases himport
          rw [List.takeWhile_cons_of_pos hgoes]
          refine (ih hrest).trans ?_
          have htables := importTable_tables himport
          by_cases heq : table = t
          · subst heq
            have hnot : table ∉ ts.takeWhile (isCopyable accepts db) :=
              fun hmem => hfirst (List.takeWhile_subset _ hmem)
            rw [if_neg hnot, if_pos List.mem_cons_self, htables, if_pos rfl]
          · have hsame : pg'.tables table = pg.tables table := by
              rw [htables, if_neg heq]
            have hmem : table ∈ t :: ts.takeWhile (isCopyable accepts db) ↔
                table ∈ ts.takeWhile (isCopyable accepts db) :=
              List.mem_cons.trans (or_iff_right heq)
            simp only [imported, hsame, hmem]

theorem tables_importSqlite (table : ClusterTable) :
    (importSqlite accepts db pg).2.tables table =
      if table ∈ copied accepts db then imported db pg table else pg.tables table :=
  tables_importTables nodup_TABLES table

theorem allCopyable_of_copied (h : table ∈ copied accepts db) : AllCopyable accepts db table := by
  have hall := List.all_takeWhile (p := isCopyable accepts db) (l := TABLES)
  exact of_decide_eq_true (List.all_eq_true.mp hall table h)

theorem copied_of_forall (h : ∀ table, AllCopyable accepts db table) (table : ClusterTable) :
    table ∈ copied accepts db := by
  have hwhole : copied accepts db = TABLES :=
    List.takeWhile_eq_self_iff.mpr fun t _ => decide_eq_true (h t)
  rw [hwhole]
  exact mem_TABLES table

theorem get?_imported (pg : PgDb) {r : SqliteRow table} (hr : r ∈ (db table).rows) :
    ∃ p, (imported db pg table).get? (passThrough (HasKey.key r : Cell)) = some p ∧
      SameCells p (toPg r) := by
  rw [← key_toPg]
  exact get?_foldl_upsert_of_mem (nodup_keys_toPg _) (List.mem_map_of_mem hr)

/-- A key is there if a row has it, or it was there. -/
theorem mem_imported_keys {k : PgValue} :
    ((imported db pg table).get? k).isSome ↔
      (∃ r ∈ (db table).rows, passThrough (HasKey.key r : Cell) = k) ∨
        ((pg.tables table).get? k).isSome := by
  by_cases hk : ∃ r ∈ (db table).rows, passThrough (HasKey.key r : Cell) = k
  · obtain ⟨r, hr, rfl⟩ := hk
    obtain ⟨p, hp, -⟩ := get?_imported pg hr
    rw [hp]
    exact iff_of_true rfl (.inl ⟨r, hr, rfl⟩)
  · rw [or_iff_right hk]
    have hother : ∀ p ∈ (db table).rows.map toPg, k ≠ HasKey.key p := by
      intro p hp heq
      obtain ⟨r, hr, rfl⟩ := List.mem_map.mp hp
      exact hk ⟨r, hr, (key_toPg r).symm.trans heq.symm⟩
    rw [imported, get?_foldl_upsert_other hother]

theorem sameRow_of_sameCells {r : SqliteRow table} (hr : Copyable accepts r) {p : PgRow table}
    (h : SameCells p (toPg r)) : SameRow r p := by
  intro c hc
  obtain ⟨v, hv, -⟩ := hr c hc
  have hsent : (toPg r).cells c.1 = v := by
    change (convert table c.1 (r.cells c.1)).getD .null = v
    rw [hv]
    rfl
  rw [sameValue_iff_convert hc (r.typed c hc), h c hc, hsent]
  exact hv

theorem key_of_sameRow {r : SqliteRow table} {p : PgRow table} (h : SameRow r p) :
    (HasKey.key p : PgValue) = passThrough (HasKey.key r : Cell) := by
  obtain ⟨hcolumn, hdt, hbool, hepoch⟩ := pk_listed table
  obtain ⟨c, hc, hpk⟩ := List.mem_map.mp hcolumn
  have hconvert := (sameValue_iff_convert hc (r.typed c hc)).mp (h c hc)
  rw [hpk, convert, if_neg hdt, if_neg hbool, if_neg hepoch] at hconvert
  exact (Option.some.inj hconvert).symm

/-! ## Again -/

/-- A run that meets its own rows does nothing. -/
theorem importTables_of_settled {ts : List ClusterTable}
    (h : ∀ t ∈ ts.takeWhile (isCopyable accepts db),
      imported db pg t = pg.tables t ∧
        ((t = .syncLog ∨ t = .schedulingDecisions) ∧ (db t).rows ≠ [] →
          pg.sequences t = maxId (pg.tables t))) :
    (importTables accepts db ts pg).2 = pg := by
  induction ts with
  | nil => rfl
  | cons t ts ih =>
      unfold importTables
      by_cases hgoes : AllCopyable accepts db t
      · have hcopyable : isCopyable accepts db t = true := decide_eq_true hgoes
        rw [List.takeWhile_cons_of_pos hcopyable] at h
        obtain ⟨hrows, hsequence⟩ := h t List.mem_cons_self
        have himport : importTable accepts db t pg = some pg := by
          rw [importTable, if_pos hgoes]
          refine congrArg some ?_
          have htables : Function.update pg.tables t (imported db pg t) = pg.tables := by
            rw [hrows]
            exact Function.update_eq_self t pg.tables
          refine PgDb.ext htables ?_
          change (if _ then Function.update pg.sequences t (maxId (imported db pg t))
            else pg.sequences) = pg.sequences
          split_ifs with hserial
          · rw [hrows, ← hsequence hserial]
            exact Function.update_eq_self t pg.sequences
          · rfl
        rw [himport]
        exact ih fun u hu => h u (List.mem_cons_of_mem t hu)
      · rw [importTable_eq_none_iff.mpr hgoes]

theorem importTable_sequences {pg' : PgDb} (h : importTable accepts db table pg = some pg')
    {other : ClusterTable} (hother : other ≠ table) : pg'.sequences other = pg.sequences other := by
  unfold importTable at h
  split at h
  · rw [← Option.some.inj h]
    change (if _ then Function.update pg.sequences table _ else pg.sequences) other = _
    split
    · exact Function.update_of_ne hother ..
    · rfl
  · cases h

theorem sequences_of_not_mem {ts : List ClusterTable} (h : table ∉ ts) :
    (importTables accepts db ts pg).2.sequences table = pg.sequences table := by
  induction ts generalizing pg with
  | nil => rfl
  | cons t ts ih =>
      unfold importTables
      cases himport : importTable accepts db t pg with
      | none => rfl
      | some pg' =>
          refine (ih fun hmem => h (List.mem_cons_of_mem t hmem)).trans ?_
          exact importTable_sequences himport fun heq => h (heq ▸ List.mem_cons_self)

/-- A sequence stands at the last id. -/
theorem sequences_importTables {ts : List ClusterTable} (hnodup : ts.Nodup)
    (hcopied : table ∈ ts.takeWhile (isCopyable accepts db))
    (hserial : (table = .syncLog ∨ table = .schedulingDecisions) ∧ (db table).rows ≠ []) :
    (importTables accepts db ts pg).2.sequences table = maxId (imported db pg table) := by
  induction ts generalizing pg with
  | nil => cases hcopied
  | cons t ts ih =>
      obtain ⟨hfirst, hrest⟩ := List.nodup_cons.mp hnodup
      have hgoes : isCopyable accepts db t = true := by
        by_contra hstop
        rw [List.takeWhile_cons_of_neg hstop] at hcopied
        cases hcopied
      rw [List.takeWhile_cons_of_pos hgoes] at hcopied
      unfold importTables
      cases himport : importTable accepts db t pg with
      | none => exact absurd (of_decide_eq_true hgoes) (importTable_eq_none_iff.mp himport)
      | some pg' =>
          by_cases heq : table = t
          · subst heq
            refine (sequences_of_not_mem hfirst).trans ?_
            rw [importTable, if_pos (of_decide_eq_true hgoes)] at himport
            rw [← Option.some.inj himport]
            change (if _ then Function.update pg.sequences table _ else pg.sequences) table = _
            rw [if_pos hserial]
            exact Function.update_self ..
          · refine (ih hrest ((List.mem_cons.mp hcopied).resolve_left heq)).trans ?_
            rw [imported, imported, importTable_tables himport, if_neg heq]

theorem counts_importTables (ts : List ClusterTable) (pg pg' : PgDb) :
    (importTables accepts db ts pg).1 = (importTables accepts db ts pg').1 := by
  induction ts generalizing pg pg' with
  | nil => rfl
  | cons t ts ih =>
      unfold importTables importTable
      by_cases hgoes : AllCopyable accepts db t
      · simp only [if_pos hgoes]
        exact congrArg (Option.map _) (ih _ _)
      · simp only [if_neg hgoes]

/-- A run after a run finds everything there. -/
theorem importSqlite_again (accepts : PgType → PgValue → Bool) (db : SqliteDb) (pg : PgDb) :
    importSqlite accepts db (importSqlite accepts db pg).2 = importSqlite accepts db pg := by
  refine Prod.ext (counts_importTables TABLES _ _) (importTables_of_settled fun t ht => ?_)
  have htable : (importSqlite accepts db pg).2.tables t = imported db pg t := by
    rw [tables_importSqlite]
    exact if_pos ht
  have hsettled : imported db (importSqlite accepts db pg).2 t = imported db pg t := by
    rw [imported, htable]
    refine foldl_upsert_of_sameCells fun p hp => ?_
    obtain ⟨r, hr, rfl⟩ := List.mem_map.mp hp
    rw [key_toPg]
    exact get?_imported pg hr
  refine ⟨hsettled.trans htable.symm, fun hserial => ?_⟩
  rw [htable]
  exact sequences_importTables nodup_TABLES ht hserial

/-! ## All runs -/

theorem after_concat (s : Cutover) (events : List CutoverEvent) (e : CutoverEvent) :
    s.after accepts (events ++ [e]) = e.apply accepts (s.after accepts events) := by
  unfold Cutover.after
  rw [List.foldl_append]
  rfl

/-- An earlier run has copied a row with this key. -/
def CopiedKey (accepts : PgType → PgValue → Bool) (events : List CutoverEvent) (s : Cutover)
    (table : ClusterTable) (k : PgValue) : Prop :=
  ∃ before rest, events = before ++ .runImport :: rest ∧
    table ∈ copied accepts (s.after accepts before).sqlite ∧
      ∃ r ∈ ((s.after accepts before).sqlite table).rows, passThrough (HasKey.key r : Cell) = k

theorem copiedKey_concat {events : List CutoverEvent} {e : CutoverEvent} {s : Cutover}
    {k : PgValue} : CopiedKey accepts (events ++ [e]) s table k ↔
      CopiedKey accepts events s table k ∨
        e = .runImport ∧ table ∈ copied accepts (s.after accepts events).sqlite ∧
          ∃ r ∈ ((s.after accepts events).sqlite table).rows,
            passThrough (HasKey.key r : Cell) = k := by
  constructor
  · rintro ⟨before, rest, heq, hcopied⟩
    rcases List.eq_nil_or_concat rest with rfl | ⟨rest, last, rfl⟩
    · obtain ⟨rfl, hlast⟩ := List.append_inj' heq rfl
      obtain rfl := List.singleton_inj.mp hlast
      exact .inr ⟨rfl, hcopied⟩
    · rw [List.concat_eq_append, ← List.cons_append, ← List.append_assoc] at heq
      obtain ⟨rfl, -⟩ := List.append_inj' heq rfl
      exact .inl ⟨before, rest, rfl, hcopied⟩
  · rintro (⟨before, rest, rfl, hcopied⟩ | ⟨rfl, hcopied⟩)
    · exact ⟨before, rest ++ [e], by rw [List.append_assoc]; rfl, hcopied⟩
    · exact ⟨events, [], rfl, hcopied⟩

/-- What the Postgres store holds of a history. -/
structure HoldsCopies (accepts : PgType → PgValue → Bool) (events : List CutoverEvent) (s : Cutover)
    (pg : PgDb) : Prop where
  keys : ∀ table k, ((pg.tables table).get? k).isSome ↔ CopiedKey accepts events s table k
  accepted : ∀ table, ∀ p ∈ (pg.tables table).rows, ∀ c ∈ table.columns,
    accepts c.2 (p.cells c.1) = true

theorem accepted_of_sameCells {r : SqliteRow table} (hr : Copyable accepts r) {p : PgRow table}
    (h : SameCells p (toPg r)) : ∀ c ∈ table.columns, accepts c.2 (p.cells c.1) = true := by
  intro c hc
  obtain ⟨v, hv, haccepts⟩ := hr c hc
  have hsent : (toPg r).cells c.1 = v := by
    change (convert table c.1 (r.cells c.1)).getD .null = v
    rw [hv]
    rfl
  rw [h c hc, hsent]
  exact haccepts

/-- A row in a table that was imported was sent, or was there. -/
theorem mem_imported {p : PgRow table} (hp : p ∈ (imported db pg table).rows) :
    (∃ r ∈ (db table).rows, SameCells p (toPg r)) ∨ p ∈ (pg.tables table).rows := by
  have hget := Table.get?_of_mem hp
  by_cases hk : ∃ r ∈ (db table).rows, passThrough (HasKey.key r : Cell) = HasKey.key p
  · obtain ⟨r, hr, hkey⟩ := hk
    obtain ⟨q, hq, hcells⟩ := get?_imported pg hr
    rw [hkey, hget] at hq
    rw [← Option.some.inj hq] at hcells
    exact .inl ⟨r, hr, hcells⟩
  · have hother : ∀ q ∈ (db table).rows.map toPg, (HasKey.key p : PgValue) ≠ HasKey.key q := by
      intro q hq heq
      obtain ⟨r, hr, rfl⟩ := List.mem_map.mp hq
      exact hk ⟨r, hr, (key_toPg r).symm.trans heq.symm⟩
    rw [imported, get?_foldl_upsert_other hother] at hget
    exact .inr (Table.mem_of_get? hget)

theorem HoldsCopies.runImport {events : List CutoverEvent} {s : Cutover}
    (h : HoldsCopies accepts events s (s.after accepts events).postgres) :
    HoldsCopies accepts (events ++ [.runImport]) s
      (importSqlite accepts (s.after accepts events).sqlite
        (s.after accepts events).postgres).2 where
  keys table k := by
    rw [tables_importSqlite, copiedKey_concat]
    split
    · rename_i hcopied
      rw [mem_imported_keys, h.keys, or_comm]
      exact or_congr_right ⟨fun hk => ⟨rfl, hcopied, hk⟩, fun hk => hk.2.2⟩
    · rename_i hcopied
      rw [h.keys]
      exact (or_iff_left fun hk => hcopied hk.2.1).symm
  accepted table p hp := by
    rw [tables_importSqlite] at hp
    split at hp
    · rename_i hcopied
      rcases mem_imported hp with ⟨r, hr, hcells⟩ | hold
      · exact accepted_of_sameCells (allCopyable_of_copied hcopied r hr) hcells
      · exact h.accepted table p hold
    · exact h.accepted table p hp

theorem holds_after (accepts : PgType → PgValue → Bool) (start : SqliteDb)
    (events : List CutoverEvent) :
    HoldsCopies accepts events ⟨start, .empty⟩
      ((Cutover.mk start .empty).after accepts events).postgres := by
  induction events using List.reverseRecOn with
  | nil =>
      refine ⟨fun table k => iff_of_false Bool.false_ne_true ?_, fun table p hp => by cases hp⟩
      rintro ⟨before, rest, heq, -⟩
      cases before <;> cases heq
  | append_singleton events e ih =>
      rw [after_concat]
      cases e with
      | runImport => exact ih.runImport
      | put table row | delete table key =>
          refine ⟨fun other k => (ih.keys other k).trans ?_, ih.accepted⟩
          rw [copiedKey_concat]
          exact (or_iff_left fun hk => by cases hk.1).symm

theorem sameRow_of_key (hall : AllCopyable accepts db table) {r : SqliteRow table}
    (hr : r ∈ (db table).rows) {p : PgRow table} (hp : p ∈ (imported db pg table).rows)
    (hkey : passThrough (HasKey.key r : Cell) = HasKey.key p) : SameRow r p := by
  obtain ⟨q, hq, hcells⟩ := get?_imported pg hr
  rw [hkey, Table.get?_of_mem hp] at hq
  rw [← Option.some.inj hq] at hcells
  exact sameRow_of_sameCells (hall r hr) hcells

/-- The stores when the importer has run after a history; Postgres begins empty. -/
def Cutover.final (accepts : PgType → PgValue → Bool) (start : SqliteDb)
    (events : List CutoverEvent) : Cutover :=
  (Cutover.mk start .empty).after accepts (events ++ [.runImport])

/-- Whatever was written to the SQLite store, and whenever the importer ran
before: after a last run the Postgres store holds the rows of the SQLite store,
exactly if Postgres takes all their values and no row that was copied before is
missing; and one more run changes nothing. -/
theorem faithful_iff (accepts : PgType → PgValue → Bool) (start : SqliteDb)
    (events : List CutoverEvent) :
    (Faithful (Cutover.final accepts start events).sqlite
        (Cutover.final accepts start events).postgres ↔
      (∀ table, AllCopyable accepts (Cutover.final accepts start events).sqlite table) ∧
        NoneGone accepts events ⟨start, .empty⟩) ∧
      CutoverEvent.runImport.apply accepts (Cutover.final accepts start events) =
        Cutover.final accepts start events := by
  have hholds := (holds_after accepts start events).runImport
  unfold Cutover.final
  rw [after_concat]
  generalize hbefore : (Cutover.mk start .empty).after accepts events = s at hholds
  have hsqlite : (CutoverEvent.runImport.apply accepts s).sqlite = s.sqlite := rfl
  refine ⟨⟨fun hfaithful => ⟨fun table r hr c hc => ?_, ?_⟩, ?_⟩,
    congrArg (Cutover.mk s.sqlite) (congrArg Prod.snd (importSqlite_again accepts s.sqlite _))⟩
  · obtain ⟨p, hp, hsame⟩ := (hfaithful table).1 r hr
    exact ⟨p.cells c.1, (sameValue_iff_convert hc (r.typed c hc)).mp (hsame c hc),
      hholds.accepted table p hp c hc⟩
  · intro before rest hevents table hcopied r hr
    have hkey : CopiedKey accepts (events ++ [.runImport]) ⟨start, .empty⟩ table
        (passThrough (HasKey.key r : Cell)) :=
      copiedKey_concat.mpr (.inl ⟨before, rest, hevents, hcopied, r, hr, rfl⟩)
    obtain ⟨p, hp⟩ := Option.isSome_iff_exists.mp ((hholds.keys table _).mpr hkey)
    obtain ⟨r', hr', hsame⟩ := (hfaithful table).2 p (Table.mem_of_get? hp)
    rw [hbefore]
    refine ⟨r', hr', passThrough_injective ?_⟩
    rw [← key_of_sameRow hsame]
    exact Table.key_of_get? hp
  · rintro ⟨hall, hgone⟩ table
    have htable : (CutoverEvent.runImport.apply accepts s).postgres.tables table =
        imported s.sqlite s.postgres table := by
      refine (tables_importSqlite table).trans (if_pos ?_)
      exact copied_of_forall hall table
    rw [htable]
    refine ⟨fun r hr => ?_, fun p hp => ?_⟩
    · obtain ⟨p, hp, hcells⟩ := get?_imported s.postgres hr
      exact ⟨p, Table.mem_of_get? hp, sameRow_of_sameCells (hall table r hr) hcells⟩
    · have hthere : CopiedKey accepts (events ++ [.runImport]) ⟨start, .empty⟩ table
          (HasKey.key p) := by
        rw [← hholds.keys]
        refine Option.isSome_iff_exists.mpr ⟨p, ?_⟩
        exact (congrArg (fun t => Table.get? t _) htable).trans (Table.get?_of_mem hp)
      rcases copiedKey_concat.mp hthere with ⟨before, rest, hevents, hcopied, r, hr, hkey⟩ |
        ⟨-, -, r, hr, hkey⟩
      · obtain ⟨r', hr', hsame⟩ := hgone before rest hevents table hcopied r hr
        rw [hbefore] at hr'
        rw [← hsame] at hkey
        exact ⟨r', hr', sameRow_of_key (hall table) hr' hp hkey⟩
      · rw [hbefore] at hr
        exact ⟨r, hr, sameRow_of_key (hall table) hr hp hkey⟩

end Runs

/-! ## Lanes and spawn records -/

section Writes

/-- The cells of a row that is written out. -/
def cellsOf (values : List (String × Cell)) (column : String) : Cell :=
  (values.lookup column).getD .null

/-- `record_lane`: the first `created_at` stays. -/
def recordLane (laneKey sessionId profile role node : String) (createdAt lastActiveAt : Option Rat)
    (lastTaskId : String) (now : Rat) (db : SqliteDb) : CutoverEvent :=
  .put .lanes {
    cells := cellsOf [
      ("lane_key", .text laneKey), ("session_id", .text sessionId), ("profile", .text profile),
      ("role", .text role), ("node", .text node),
      ("created_at",
        match (db .lanes).get? (.text laneKey) with
        | some row => row.cells "created_at"
        | none => .real (createdAt.getD now)),
      ("last_active_at", .real (lastActiveAt.getD now)), ("last_task_id", .text lastTaskId)]
    typed := by
      have hpassed : ∀ c ∈ ClusterTable.lanes.columns, c.2 = .text ∨ c.2 = .double := by
        decide
      intro c hc
      rcases hpassed c hc with h | h
      · rw [h]
        trivial
      · rw [h]
        trivial }

/-- `delete_lane`. -/
def deleteLane (laneKey : String) : CutoverEvent :=
  .delete .lanes (.text laneKey)

/-- `record_task_spawn`. -/
def recordTaskSpawn (taskId mode jobId : String) (pid : Int) (startedAt : Rat)
    (leaseId laneName resultPath laneKey role sessionId : String) (attempt : Int) : CutoverEvent :=
  .put .taskSpawns {
    cells := cellsOf [
      ("task_id", .text taskId), ("mode", .text mode), ("job_id", .text jobId), ("pid", .int pid),
      ("started_at", .real startedAt), ("lease_id", .text leaseId), ("lane_name", .text laneName),
      ("result_path", .text resultPath), ("lane_key", .text laneKey), ("role", .text role),
      ("session_id", .text sessionId), ("attempt", .int attempt)]
    typed := by
      have hpassed : ∀ c ∈ ClusterTable.taskSpawns.columns,
          c = ("pid", .bigint) ∨ c.2 = .text ∨ c.2 = .double ∨ c.2 = .integer := by
        decide
      intro c hc
      rcases hpassed c hc with rfl | h | h | h
      · exact ⟨pid, rfl⟩
      · rw [h]
        trivial
      · rw [h]
        trivial
      · rw [h]
        trivial }

/-- `delete_task_spawn`. -/
def deleteTaskSpawn (taskId : String) : CutoverEvent :=
  .delete .taskSpawns (.text taskId)

end Writes

section Example

local instance asciiCutover : Unicode := Unicode.ascii

/-- A lane is recorded, the importer runs, and the lane is reaped. -/
def reapedLane : List CutoverEvent :=
  [recordLane "repo#br" "s" "p" "author" "n" none none "t" 1 (fun _ => Table.empty), .runImport,
    deleteLane "repo#br"]

/-- The same with the record of a spawn. -/
def reapedSpawn : List CutoverEvent :=
  [recordTaskSpawn "t" "hermes" "" 7 1 "" "" "" "repo#br" "author" "s" 0, .runImport,
    deleteTaskSpawn "t"]

theorem not_faithful_of_left {db : SqliteDb} {pg : PgDb} (table : ClusterTable)
    (hgone : (db table).rows.length = 0) (hleft : (pg.tables table).rows.length = 1) :
    ¬Faithful db pg := by
  intro h
  obtain ⟨p, hp⟩ := List.exists_mem_of_length_pos (Nat.lt_of_lt_of_eq Nat.one_pos hleft.symm)
  obtain ⟨r, hr, -⟩ := (h table).2 p hp
  rw [List.eq_nil_of_length_eq_zero hgone] at hr
  cases hr

/-- The last run leaves the lane, or the record, in Postgres. -/
theorem reaped_rows_stay :
    ¬Faithful (Cutover.final (fun _ _ => true) (fun _ => Table.empty) reapedLane).sqlite
        (Cutover.final (fun _ _ => true) (fun _ => Table.empty) reapedLane).postgres ∧
      ¬Faithful (Cutover.final (fun _ _ => true) (fun _ => Table.empty) reapedSpawn).sqlite
        (Cutover.final (fun _ _ => true) (fun _ => Table.empty) reapedSpawn).postgres :=
  ⟨not_faithful_of_left .lanes (by decide +kernel) (by decide +kernel),
    not_faithful_of_left .taskSpawns (by decide +kernel) (by decide +kernel)⟩

end Example

end HermesCluster
