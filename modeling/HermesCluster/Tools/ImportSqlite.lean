import HermesCluster.Lib.Decimal
import HermesCluster.Lib.IsoTime
import HermesCluster.Lib.Table
import Mathlib.Logic.Function.Basic
/-!
# The importer

`tools/import_sqlite.py`: the rows of the SQLite store are copied into the
Postgres store, table by table, with an upsert for each row.
-/

namespace HermesCluster

/-! ## Tables and values -/

/-- The tables of a cluster store. -/
inductive ClusterTable where
  | nodes
  | tasks
  | lanes
  | leases
  | syncLog
  | recoveryEvents
  | schedulingDecisions
  | federationClusters
  | hooks
  | deliveries
  | kvStore
  | taskSpawns
  deriving DecidableEq, Repr

/-- A value in a column of a SQLite table. -/
inductive Cell where
  | null
  | int (n : Int)
  | real (x : Rat)
  | text (s : String)
  deriving DecidableEq

/-- The types of the Postgres columns. -/
inductive PgType where
  | text
  | integer
  | bigint
  | bigserial
  | double
  | boolean
  | timestamptz
  deriving DecidableEq, Repr

/-- A value in a column of a Postgres table; an instant is in microseconds. -/
inductive PgValue where
  | null
  | int (n : Int)
  | real (x : Rat)
  | text (s : String)
  | bool (b : Bool)
  | instant (micros : Int)
  deriving DecidableEq

namespace ClusterTable

/-- `_SCHEMA_SQL` of `postgres_store.py`; the SQLite tables have the same columns. -/
def columns : ClusterTable → List (String × PgType)
  | .nodes =>
      [("id", .text), ("name", .text), ("capabilities", .text), ("status", .text),
       ("last_heartbeat", .timestamptz), ("load", .double), ("max_concurrent", .integer),
       ("disk_free_gb", .double), ("status_reason", .text), ("instance_token", .text),
       ("drained", .boolean), ("cpu_load_pct", .double), ("lane_count", .integer),
       ("duplicate_executor", .boolean)]
  | .tasks =>
      [("id", .text), ("title", .text), ("requires", .text), ("depends_on", .text),
       ("priority", .integer), ("status", .text), ("assigned_to", .text),
       ("created_at", .timestamptz), ("updated_at", .timestamptz), ("version", .integer),
       ("fail_reason", .text), ("attempts", .integer), ("lane_key", .text), ("role", .text),
       ("result", .text), ("description", .text), ("issues", .text), ("ballot", .text),
       ("cancel_requeue", .boolean)]
  | .lanes =>
      [("lane_key", .text), ("session_id", .text), ("profile", .text), ("role", .text),
       ("node", .text), ("created_at", .double), ("last_active_at", .double),
       ("last_task_id", .text)]
  | .leases =>
      [("id", .text), ("task_id", .text), ("node_id", .text), ("created_at", .timestamptz),
       ("expires_at", .timestamptz), ("status", .text)]
  | .syncLog =>
      [("id", .bigserial), ("version", .integer), ("sender_node", .text), ("task_state", .text),
       ("event_type", .text), ("timestamp", .bigint)]
  | .recoveryEvents =>
      [("id", .text), ("task_id", .text), ("node_id", .text), ("action", .text),
       ("status", .text), ("message", .text), ("timestamp", .timestamptz)]
  | .schedulingDecisions =>
      [("id", .bigserial), ("task_id", .text), ("task_title", .text), ("priority", .integer),
       ("node_id", .text), ("score", .double), ("reason", .text), ("timestamp", .timestamptz)]
  | .federationClusters =>
      [("id", .text), ("name", .text), ("endpoint", .text), ("status", .text),
       ("registered_at", .timestamptz), ("last_ping", .timestamptz), ("ping_latency", .double)]
  | .hooks =>
      [("id", .text), ("url", .text), ("events", .text), ("secret", .text),
       ("active", .integer), ("created_at", .timestamptz), ("updated_at", .timestamptz)]
  | .deliveries =>
      [("id", .text), ("hook_id", .text), ("event_type", .text), ("payload", .text),
       ("status", .text), ("created_at", .timestamptz)]
  | .kvStore =>
      [("key", .text), ("value", .text)]
  | .taskSpawns =>
      [("task_id", .text), ("mode", .text), ("job_id", .text), ("pid", .bigint),
       ("started_at", .double), ("lease_id", .text), ("lane_name", .text),
       ("result_path", .text), ("lane_key", .text), ("role", .text), ("session_id", .text),
       ("attempt", .integer)]

/-- `_PK`. -/
def pk : ClusterTable → String
  | .lanes => "lane_key"
  | .kvStore => "key"
  | .taskSpawns => "task_id"
  | _ => "id"

end ClusterTable

namespace ImportSqlite

/-- `TABLES`. -/
def TABLES : List ClusterTable :=
  [.nodes, .tasks, .lanes, .leases, .syncLog, .recoveryEvents, .schedulingDecisions,
    .federationClusters, .hooks, .deliveries, .kvStore, .taskSpawns]

/-- `_BOOL_COLUMNS`. -/
def boolColumns : ClusterTable → List String
  | .nodes => ["drained", "duplicate_executor"]
  | .tasks => ["cancel_requeue"]
  | _ => []

/-- `_DT_COLUMNS`. -/
def dtColumns : ClusterTable → List String
  | .nodes => ["last_heartbeat"]
  | .tasks => ["created_at", "updated_at"]
  | .leases => ["created_at", "expires_at"]
  | .recoveryEvents => ["timestamp"]
  | .schedulingDecisions => ["timestamp"]
  | .federationClusters => ["registered_at", "last_ping"]
  | .hooks => ["created_at", "updated_at"]
  | .deliveries => ["created_at"]
  | _ => []

/-! ## One value -/

/-- `_parse_dt`; to Python 3.10 no text of a number is a date-time, as `20260309` is from
3.11 on. -/
def parseDt : Cell → PgValue
  | .null => .null
  | .int _ | .real _ => .instant 0
  | .text s =>
      if s = "" then .null
      else
        match IsoTime.fromisoformat s.toList with
        | some d => .instant d.1.instant
        | none => .instant 0

/-- `None if v is None else bool(v)`. -/
def boolOf : Cell → PgValue
  | .null => .null
  | .int n => .bool (n ≠ 0)
  | .real x => .bool (x ≠ 0)
  | .text s => .bool (s ≠ "")

/-- A value that is passed on. -/
def passThrough : Cell → PgValue
  | .null => .null
  | .int n => .int n
  | .real x => .real x
  | .text s => .text s

section Copy

variable [Unicode]

/-- `int(v or 0)`, which may raise. -/
def epochOf : Cell → Option PgValue
  | .null => some (.int 0)
  | .int n => some (.int n)
  | .real x => some (.int (x.num.tdiv x.den))
  | .text s => if s = "" then some (.int 0) else (Decimal.int s).map .int

/-- The value of a column on its way to Postgres. -/
def convert (table : ClusterTable) (column : String) (v : Cell) : Option PgValue :=
  if column ∈ dtColumns table then some (parseDt v)
  else if column ∈ boolColumns table then some (boolOf v)
  else if table = .syncLog ∧ column = "timestamp" then epochOf v
  else some (passThrough v)

end Copy

/-! ## Rows -/

/-- What the SQLite store writes to a column: `_dt_to_str` of a date-time or of
`None`, a flag as an integer, an epoch. -/
def Typed : PgType → Cell → Prop
  | .timestamptz, v =>
      v = .null ∨ v = .text "" ∨ ∃ d : IsoTime.DateTime, v = .text (String.ofList d.1.isoformat)
  | .boolean, v => v = .null ∨ ∃ n, v = .int n
  | .bigint, v => ∃ n, v = .int n
  | _, _ => True

/-- A row of a SQLite table. -/
structure SqliteRow (table : ClusterTable) where
  cells : String → Cell
  typed : ∀ c ∈ table.columns, Typed c.2 (cells c.1)

instance (table : ClusterTable) : HasKey (SqliteRow table) Cell :=
  ⟨fun r => r.cells table.pk⟩

abbrev SqliteDb : Type := (table : ClusterTable) → Table (SqliteRow table)

/-- A row of a Postgres table. -/
structure PgRow (table : ClusterTable) where
  cells : String → PgValue

instance (table : ClusterTable) : HasKey (PgRow table) PgValue :=
  ⟨fun r => r.cells table.pk⟩

/-- The Postgres store: its tables, and where the sequences of ids stand. -/
@[ext] structure PgDb where
  tables : (table : ClusterTable) → Table (PgRow table)
  sequences : ClusterTable → Option Int

def PgDb.empty : PgDb where
  tables _ := Table.empty
  sequences _ := none

section Copy

variable [Unicode] {table : ClusterTable}

/-- `ON CONFLICT … DO UPDATE SET c = EXCLUDED.c` for each column but the key. -/
def PgRow.excluded (new old : PgRow table) : PgRow table where
  cells c := if c ∈ table.columns.map Prod.fst ∧ c ≠ table.pk then new.cells c else old.cells c

omit [Unicode] in
theorem PgRow.keepsKey_excluded (new : PgRow table) : Table.KeepsKey new.excluded :=
  fun _ => if_neg (fun h => h.2 rfl)

/-- The statement of `_upsert_sql`. -/
def upsert (t : Table (PgRow table)) (new : PgRow table) : Table (PgRow table) :=
  if h : t.get? (HasKey.key new) = none then t.append new h
  else t.modify (HasKey.key new) new.excluded new.keepsKey_excluded

/-- A row as it is sent. -/
def toPg (r : SqliteRow table) : PgRow table where
  cells c := (convert table c (r.cells c)).getD .null

/-- Every value converts, and Postgres takes it in its column. -/
def Copyable (accepts : PgType → PgValue → Bool) (r : SqliteRow table) : Prop :=
  ∀ c ∈ table.columns, ∃ v ∈ convert table c.1 (r.cells c.1), accepts c.2 v = true

instance (accepts : PgType → PgValue → Bool) :
    DecidablePred (Copyable accepts : SqliteRow table → Prop) :=
  fun _ => inferInstanceAs (Decidable (∀ c ∈ _, _))

/-- Every row of the table can be copied. -/
def AllCopyable (accepts : PgType → PgValue → Bool) (db : SqliteDb) (table : ClusterTable) : Prop :=
  ∀ r ∈ (db table).rows, Copyable accepts r

instance (accepts : PgType → PgValue → Bool) (db : SqliteDb) :
    DecidablePred (AllCopyable accepts db) :=
  fun _ => inferInstanceAs (Decidable (∀ r ∈ _, _))

/-! ## The run -/

/-- `SELECT MAX(id)`. -/
def maxId (t : Table (PgRow table)) : Option Int :=
  (t.rows.filterMap fun r =>
    match r.cells "id" with
    | .int n => some n
    | _ => none).max?

/-- One table, in one transaction: `executemany`, and `setval` where the ids are
a sequence. A table without rows is left alone. -/
def importTable (accepts : PgType → PgValue → Bool) (db : SqliteDb) (table : ClusterTable)
    (pg : PgDb) : Option PgDb :=
  if AllCopyable accepts db table then
    let rows := ((db table).rows.map toPg).foldl upsert (pg.tables table)
    some {
      tables := Function.update pg.tables table rows
      sequences :=
        if (table = .syncLog ∨ table = .schedulingDecisions) ∧ (db table).rows ≠ [] then
          Function.update pg.sequences table (maxId rows)
        else pg.sequences }
  else none

/-- The loop over `TABLES`, with the counts. A table whose copy raises ends it;
the tables before are committed. -/
def importTables (accepts : PgType → PgValue → Bool) (db : SqliteDb) :
    List ClusterTable → PgDb → Option (List (ClusterTable × Nat)) × PgDb
  | [], pg => (some [], pg)
  | table :: rest, pg =>
      match importTable accepts db table pg with
      | none => (none, pg)
      | some pg' =>
          let run := importTables accepts db rest pg'
          (run.1.map ((table, (db table).rows.length) :: ·), run.2)

/-- `import_sqlite`. -/
def importSqlite (accepts : PgType → PgValue → Bool) (db : SqliteDb) (pg : PgDb) :
    Option (List (ClusterTable × Nat)) × PgDb :=
  importTables accepts db TABLES pg

end Copy

end ImportSqlite

end HermesCluster
