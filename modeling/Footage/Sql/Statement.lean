import Footage.Sql.Affinity
import Footage.Sql.Piece

/-!
Statements and their text. A selection also says which rows of a relation it lists and in what
order.
-/

namespace Footage.Sql

inductive Direction where
  | ascending
  | descending
  deriving DecidableEq, Repr

inductive Output (κ : Type) where
  | column (c : κ)
  | one
  | count (c : κ)
  deriving DecidableEq, Repr

/-- A second table whose rows are put beside those that agree in a column. -/
structure Join (κ : Type) where
  table : String
  left : κ
  right : κ
  deriving DecidableEq, Repr

structure Select (κ : Type) where
  outputs : List (Output κ)
  table : String
  join : Option (Join κ) := none
  condition : Condition κ
  order : List (κ × Direction) := []
  limit : Option Nat := none
  deriving DecidableEq, Repr

structure Insert where
  table : String
  assignments : List (String × Value)
  deriving DecidableEq, Repr

structure Update (κ : Type) where
  table : String
  assignments : List (String × Value)
  condition : Condition κ
  deriving DecidableEq, Repr

structure Delete (κ : Type) where
  table : String
  condition : Condition κ
  deriving DecidableEq, Repr

/-! ### Definitions of tables -/

inductive Constraint where
  | primaryKey
  | numberedPrimaryKey
  | required
  | optional
  | unique
  deriving DecidableEq, Repr

inductive ColumnType where
  | integer
  | bigint
  | double
  | varchar
  | text
  deriving DecidableEq, Repr

def ColumnType.name : ColumnType → String
  | .integer => "integer"
  | .bigint => "bigint"
  | .double => "double"
  | .varchar => "varchar"
  | .text => "text"

def ColumnType.affinity : ColumnType → Affinity
  | .integer | .bigint => .integer
  | .double => .real
  | .varchar | .text => .text

structure ColumnDefinition where
  name : String
  type : ColumnType
  constraints : List Constraint
  deriving DecidableEq, Repr

/-- A column whose values occur in a column of another table, and follow its changes. -/
structure Reference where
  column : String
  table : String
  target : String
  deriving DecidableEq, Repr

structure CreateTable where
  name : String
  columns : List ColumnDefinition
  reference : Option Reference := none
  deriving DecidableEq, Repr

structure CreateIndex where
  name : String
  table : String
  columns : List String
  deriving DecidableEq, Repr

/-! ### Rows of a selection -/

def Direction.apply : Direction → Ordering → Ordering
  | .ascending, o => o
  | .descending, o => o.swap

/-- Compares two rows by the columns of an order, the first difference counting. -/
def compareBy (order : List (κ × Direction)) (a b : κ → Value) : Ordering :=
  order.foldr (fun (c, d) rest => (d.apply ((a c).order (b c))).then rest) .eq

/-- The rows that a selection lists, where `value` gives the columns of a row. Rows that the order
does not tell apart stay in the order they have. -/
def Select.rows (query : Select κ) (value : ρ → κ → Value) (rows : List ρ) : List ρ :=
  let selected := rows.filter fun r => query.condition.holds (value r)
  let sorted := selected.mergeSort fun a b => (compareBy query.order (value a) (value b)).isLE
  match query.limit with
  | none => sorted
  | some n => sorted.take n

/-! ### Text -/

def identifiers (names : List String) : List Piece :=
  commaSeparated (names.map fun name => [.identifier name])

def Output.pieces [Named κ] : Output κ → List Piece
  | .column c => columnPieces c
  | .one => [.numeral "1"]
  | .count c => .word "COUNT" :: parenthesized (columnPieces c)

def wherePieces [Named κ] (condition : Condition κ) : List Piece :=
  .blank :: words ["WHERE"] ++ condition.pieces

def Direction.word : Direction → String
  | .ascending => "ASC"
  | .descending => "DESC"

def orderPieces [Named κ] : List (κ × Direction) → List Piece
  | [] => []
  | order =>
    .blank :: words ["ORDER", "BY"] ++
      commaSeparated (order.map fun (c, d) => columnPieces c ++ [.blank, .word d.word])

def Join.pieces [Named κ] (join : Join κ) : List Piece :=
  .blank :: words ["LEFT", "JOIN"] ++ .identifier join.table :: .blank :: words ["ON"] ++
    columnPieces join.left ++ [.blank, .symbol "=", .blank] ++ columnPieces join.right

def Select.pieces [Named κ] (query : Select κ) : List Piece :=
  words ["SELECT"] ++ commaSeparated (query.outputs.map Output.pieces) ++
    .blank :: words ["FROM"] ++ [.identifier query.table] ++
    query.join.elim [] Join.pieces ++ wherePieces query.condition ++ orderPieces query.order ++
    query.limit.elim [] fun n => .blank :: words ["LIMIT"] ++ [.numeral (Numeral.natural n)]

def Insert.pieces (insert : Insert) : List Piece :=
  words ["INSERT", "INTO"] ++ .identifier insert.table :: .blank ::
    parenthesized (identifiers (insert.assignments.map (·.1))) ++
    .blank :: words ["VALUES"] ++
    parenthesized (commaSeparated (insert.assignments.map (·.2.pieces)))

def Update.pieces [Named κ] (update : Update κ) : List Piece :=
  words ["UPDATE"] ++ .identifier update.table :: .blank :: words ["SET"] ++
    commaSeparated (update.assignments.map fun (name, v) =>
      [.identifier name, .blank, .symbol "=", .blank] ++ v.pieces) ++
    wherePieces update.condition

def Delete.pieces [Named κ] (delete : Delete κ) : List Piece :=
  words ["DELETE", "FROM"] ++ .identifier delete.table :: wherePieces delete.condition

def Constraint.words : Constraint → List String
  | .primaryKey => ["PRIMARY", "KEY"]
  | .numberedPrimaryKey => ["PRIMARY", "KEY", "AUTOINCREMENT"]
  | .required => ["NOT", "NULL"]
  | .optional => ["NULL"]
  | .unique => ["UNIQUE"]

def ColumnDefinition.pieces (c : ColumnDefinition) : List Piece :=
  separatedBy [.blank] ([.identifier c.name] :: [.word c.type.name] ::
    (c.constraints.flatMap Constraint.words).map fun w => [.word w])

def Reference.pieces (reference : Reference) : List Piece :=
  words ["FOREIGN", "KEY"] ++ parenthesized [.identifier reference.column] ++
    .blank :: words ["REFERENCES"] ++ .identifier reference.table :: .blank ::
    parenthesized [.identifier reference.target] ++
    .blank :: words ["ON", "DELETE", "CASCADE", "ON", "UPDATE"] ++ [.word "CASCADE"]

def CreateTable.pieces (table : CreateTable) : List Piece :=
  words ["CREATE", "TABLE", "IF", "NOT", "EXISTS"] ++ [.identifier table.name, .blank] ++
    parenthesized (.blank ::
      commaSeparated (table.columns.map ColumnDefinition.pieces ++
        table.reference.toList.map Reference.pieces) ++ [.blank])

def CreateIndex.pieces (index : CreateIndex) : List Piece :=
  words ["CREATE", "INDEX", "IF", "NOT", "EXISTS"] ++ .identifier index.name :: .blank ::
    words ["ON"] ++ .identifier index.table :: .blank :: parenthesized (identifiers index.columns)

end Footage.Sql
