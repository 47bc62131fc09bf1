import Footage.Store.Files

/-!
Setting single columns of rows from outside the operations of the store. The definitions of the
tables still hold: a column converts what it is given, a required column takes no `null`, an id is an
integer, ids and paths belong to one row, and metadata to a file.
-/

namespace Footage

open Sql

/-! ### Columns -/

/-- What a column of a table holds once it is given a value. -/
def Sql.ColumnDefinition.accept (table : String) (d : ColumnDefinition) (v : Value) :
    Except Error Value :=
  let v := d.type.affinity.convert v
  if .numberedPrimaryKey ∈ d.constraints then
    match v with
    | .integer n => .ok (.integer n)
    | _ => .error (.store .typeMismatch)
  else if .required ∈ d.constraints ∧ v = .null then
    .error (.store (.isNull (table ++ "." ++ d.name)))
  else .ok v

/-- Whether no two rows agree in a column. -/
def Sql.ColumnDefinition.isKey (d : ColumnDefinition) : Bool :=
  d.constraints.any fun c => c = .numberedPrimaryKey || c = .unique

/-- Names are the same in capitals and in small letters. -/
def Schema.sameName (a b : String) : Bool := a.toLower = b.toLower

/-- The names that the ids of every table go by. -/
def Schema.idNames : List String := ["rowid", "oid", "_rowid_"]

/-- The column of a table that is called by a name. -/
def Row.column (ρ : Type) [Row ρ κ] (name : String) : Except Error (κ × ColumnDefinition) :=
  let columns := (Row.columns ρ).zip (Row.definition ρ).columns
  let found := columns.find? fun (_, d) =>
    Schema.sameName d.name name ||
      (.numberedPrimaryKey ∈ d.constraints && Schema.idNames.any (Schema.sameName name))
  match found with
  | some column => .ok column
  | none => .error (.store (.unknownColumn name))

/-! ### Rows -/

/-- Sets a column, called by name, of the row of an id, and gives this row as it was and as it is. -/
def Table.set [Row ρ κ] (t : Table ρ) (id : Int) (column : String) (v : Value) :
    Except Error (Option (ρ × ρ) × Table ρ) := do
  let table := (Row.definition ρ).name
  let (c, d) ← Row.column ρ column
  match t.rows.find? fun r => Row.id r = id with
  | none => return (none, t)
  | some r =>
    let r' := Row.put r c (← d.accept table v)
    if d.isKey && t.rows.any fun q => Row.id q ≠ id ∧ Row.value q c = Row.value r' c then
      .error (.store (.notUnique (table ++ "." ++ d.name)))
    else
      let rows := t.rows.map fun q => if Row.id q = id then r' else q
      return (some (r, r'), { t with rows := rows.mergeSort fun a b => Row.id a ≤ Row.id b })

namespace Store

/-- Sets a column of a file, whose metadata follows its path. -/
def setFile (s : Store) (id : Int) (column : String) (v : Value) :
    Except Error (Bool × Store) := do
  match ← s.files.set id column v with
  | (none, _) => return (false, s)
  | (some (r, r'), files) =>
    return (true, { s with
      files, filesMeta := s.filesMeta.map (MetaRow.follow r.path r'.path) })

/-- Sets a column of a metadata row, whose path stays that of a file. -/
def setMeta (s : Store) (id : Int) (column : String) (v : Value) :
    Except Error (Bool × Store) := do
  match ← s.filesMeta.set id column v with
  | (none, _) => return (false, s)
  | (some (_, r'), filesMeta) =>
    if s.hasFile r'.path then return (true, { s with filesMeta })
    else .error (.store .foreignKey)

/-- The tables without ids, whose rows cannot be called by one, with their columns: the settings, and
the last ids that were handed out. -/
def tablesWithoutIds : List (String × List String) :=
  [(Schema.settings, Schema.settingsTable.columns.map (·.name)),
    ("sqlite_sequence", ["name", "seq"])]

/-- The tables that hold the definitions of tables, and what they are called in messages. -/
def definitionTables : List (String × String) :=
  [("sqlite_master", "sqlite_master"), ("sqlite_schema", "sqlite_master"),
    ("sqlite_temp_master", "sqlite_temp_master"), ("sqlite_temp_schema", "sqlite_temp_master")]

/-- Why a column of another table than those with ids is not set. -/
def otherFault (table column : String) : StoreFault :=
  match tablesWithoutIds.find? fun t => Schema.sameName table t.1 with
  | some (_, columns) =>
    let isKnown := (columns ++ Schema.idNames).any (Schema.sameName column)
    .unknownColumn (if isKnown then "id" else column)
  | none =>
    match definitionTables.find? fun t => Schema.sameName table t.1 with
    | some (_, name) => .definition name
    | none => .unknownTable table

/-- Sets a column of the row of an id in a table, both called by name, and tells whether there is such
a row. -/
def setCell (s : Store) (table column : String) (id : Int) (v : Value) :
    Except Error (Bool × Store) := do
  let isCalled (name : String) : Bool := Schema.sameName table name
  if isCalled Schema.files then s.setFile id column v
  else if isCalled Schema.filesMeta then s.setMeta id column v
  else if isCalled Schema.recordings then
    let (change, recordings) ← s.recordings.set id column v
    return (change.isSome, { s with recordings })
  else if isCalled Schema.objects then
    let (change, objects) ← s.objects.set id column v
    return (change.isSome, { s with objects })
  else if isCalled Schema.motion then
    let (change, motion) ← s.motion.set id column v
    return (change.isSome, { s with motion })
  else .error (.store (otherFault table column))

/-- Changes the schema version that is there. -/
def setVersion (s : Store) (version : String) : Store :=
  { s with version := s.version.map fun _ => version }

def dropVersion (s : Store) : Store := { s with version := none }

end Store

end Footage
