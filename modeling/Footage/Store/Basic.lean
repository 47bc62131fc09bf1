import Footage.Query.Events
import Footage.Query.Files
import Footage.Query.Recordings
import Footage.Store.Row
import Footage.Store.Trigger

/-!
The store: its tables, the schema version, and the triggers that a deletion of recordings sets off.
An operation that fails leaves no trace, because its result is a new store.
-/

namespace Footage

/-- The bare word among the values of a statement that would have to be a column. -/
def Sql.Insert.unknownColumn? (insert : Sql.Insert) : Option String :=
  insert.assignments.findSome? fun (_, v) =>
    match v with
    | .real .nan => some "NaN"
    | .real x => if x.isFinite then none else some "inf"
    | _ => none

/-- Refuses a statement whose text ends inside a literal. -/
def Sql.accept (pieces : List Sql.Piece) : Except Error Unit :=
  match Sql.openLiteral? pieces with
  | none => .ok ()
  | some token => .error (.store (.openLiteral token))

/-- Refuses also a statement with a bare word among its values. -/
def Sql.Insert.check (insert : Sql.Insert) : Except Error Unit := do
  Sql.accept insert.pieces
  match insert.unknownColumn? with
  | none => .ok ()
  | some name => .error (.store (.unknownColumn name))

/-- Rows in the order of their ids, and the last id handed out. -/
structure Table (ρ : Type) where
  rows : List ρ
  lastId : Int
  deriving DecidableEq, Repr

namespace Table

def empty : Table ρ := ⟨[], 0⟩

def filter (t : Table ρ) (keep : ρ → Bool) : Table ρ := { t with rows := t.rows.filter keep }

def map (t : Table ρ) (change : ρ → ρ) : Table ρ := { t with rows := t.rows.map change }

/-- The greatest id among the rows and those handed out. -/
def greatestId [Row ρ κ] (t : Table ρ) : Int :=
  t.rows.foldr (fun r n => max (Row.id r) n) t.lastId

/-- Adds the row that is made of the next id. -/
def add [Row ρ κ] (t : Table ρ) (row : Int → ρ) : Except Error (Int × Table ρ) :=
  let id := t.greatestId + 1
  if Numeral.greatestWord < id then .error (.store .noFreeId)
  else .ok (id, ⟨t.rows ++ [row id], id⟩)

/-- The rows that a statement selects. -/
def select [Row ρ κ] [Sql.Named κ] (t : Table ρ) (query : Sql.Select κ) : Except Error (List ρ) := do
  Sql.accept query.pieces
  return query.rows Row.value t.rows

/-- Whether a row satisfies a condition. -/
def has [Row ρ κ] (t : Table ρ) (condition : Sql.Condition κ) : Bool :=
  t.rows.any fun r => condition.holds (Row.value r)

/-- Changes the rows that satisfy a condition. -/
def update [Row ρ κ] (t : Table ρ) (condition : Sql.Condition κ) (change : ρ → ρ) : Table ρ :=
  t.map fun r => if condition.holds (Row.value r) then change r else r

end Table

structure Store where
  files : Table FileRow
  filesMeta : Table MetaRow
  recordings : Table RecordingRow
  objects : Table ObjectRow
  motion : Table MotionRow
  /-- The schema version, once it is set. -/
  version : Option String
  /-- In the order in which they are set off. -/
  triggers : List Trigger
  deriving DecidableEq, Repr

namespace Store

/-- A database without any table. -/
def empty : Store := ⟨.empty, .empty, .empty, .empty, .empty, none, []⟩

/-- Makes sure that the schema is there: an absent version is set, another one refused. -/
def withSchema (s : Store) : Except Error Store :=
  match s.version with
  | none => .ok { s with version := some Footage.schemaVersion }
  | some found => if found = Footage.schemaVersion then .ok s else .error (.schemaVersion found)

/-- A store that takes no changes: it has to have its schema, and no recording can be deleted. -/
def protect (s : Store) : Except Error Store := do
  if s.version.isNone then .error (.store .unavailable)
  else return { ← s.withSchema with triggers := .block :: s.triggers }

/-- A new database. -/
def fresh : Store := { empty with version := some Footage.schemaVersion }

end Store

end Footage
