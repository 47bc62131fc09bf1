import Footage.Error
import Footage.Sql.Condition
import Footage.Store.Row

/-!
Triggers on deletions of recordings. A row that is deleted sets off triggers before it goes and after
it has gone, and rows that they delete set off triggers in turn. None is set off while it is at work
already, and they set each other off to a limited depth.
-/

namespace Footage

/-- Whether a row sets off a trigger before it goes, or after it has gone. -/
inductive Timing where
  | before
  | after
  deriving DecidableEq, Repr

/-- One statement of a trigger. -/
inductive Reaction where
  /-- Refuses the whole deletion. -/
  | abort (message : String)
  /-- Refuses it and ends the transaction. -/
  | rollback (message : String)
  /-- Passes over the row that has set off the trigger. What is done by then stays done. -/
  | ignore
  /-- Deletes rows. -/
  | delete (condition : Sql.Condition RecordingColumn)
  deriving DecidableEq, Repr

structure Trigger where
  name : String
  timing : Timing
  /-- The rows that set it off. Without a condition all rows do. -/
  condition : Option (Sql.Condition RecordingColumn)
  reactions : List Reaction
  deriving DecidableEq, Repr

/-- Work on the rows: whether it is done to the end, and the rows that it leaves. -/
abbrev Work := List RecordingRow → Except Error (Bool × List RecordingRow)

/-- Work piece by piece, up to a piece that is not done to the end. -/
def Work.inTurn : List Work → Work
  | [], rows => .ok (true, rows)
  | w :: ws, rows => do
    let (done, rows) ← w rows
    if done then inTurn ws rows else return (false, rows)

/-! ### Statements -/

/-- Deletes rows by their ids, and counts those that this has deleted. -/
def deleteIds (deleteRow : Int → Work) :
    List Int → List RecordingRow → Except Error (Nat × List RecordingRow)
  | [], rows => .ok (0, rows)
  | id :: ids, rows => do
    let (gone, rows) ← deleteRow id rows
    let (n, rows) ← deleteIds deleteRow ids rows
    return (gone.toNat + n, rows)

def idsWhere (condition : Sql.Condition RecordingColumn) (rows : List RecordingRow) : List Int :=
  (rows.filter fun r => condition.holds (Row.value r)).map RecordingRow.id

/-- Deletes the rows that satisfy a condition. They are chosen before the first one goes. -/
def deleteWhere (deleteRow : Int → Work) (condition : Sql.Condition RecordingColumn)
    (rows : List RecordingRow) : Except Error (Nat × List RecordingRow) :=
  deleteIds deleteRow (idsWhere condition rows) rows

def Reaction.work (deleteRow : Int → Work) : Reaction → Work
  | .abort message, _ => .error (.store (.raised message))
  | .rollback message, _ => .error (.store (.rolledBack message))
  | .ignore, rows => .ok (false, rows)
  | .delete condition, rows => do
    let (_, rows) ← deleteWhere deleteRow condition rows
    return (true, rows)

namespace Trigger

def isSetOffBy (t : Trigger) (row : RecordingRow) : Bool :=
  t.condition.all fun c => c.holds (Row.value row)

/-- What a trigger does on account of a row. -/
def work (deleteRow : Int → Work) (t : Trigger) (row : RecordingRow) : Work := fun rows =>
  if t.isSetOffBy row then Work.inTurn (t.reactions.map (·.work deleteRow)) rows
  else .ok (true, rows)

/-- What the triggers of a timing do on account of a row. -/
def setOff (work : Trigger → RecordingRow → Work) (triggers : List Trigger) (timing : Timing)
    (row : RecordingRow) : Work :=
  .inTurn ((triggers.filter (·.timing = timing)).map fun t => work t row)

/-- Deletes the row of an id, if there is one and no trigger before it passes over the row or deletes it
itself, and tells whether it has. -/
def deleteRowBy (work : Trigger → RecordingRow → Work) (triggers : List Trigger) (id : Int) : Work :=
  fun rows =>
    match rows.find? fun r => r.id = id with
    | none => .ok (false, rows)
    | some row => do
      let (goesOn, rows) ← setOff work triggers .before row rows
      if goesOn && rows.any (·.id = id) then
        let (_, rows) ← setOff work triggers .after row (rows.filter (·.id ≠ id))
        return (true, rows)
      else return (false, rows)

/-- How deep triggers may set each other off. -/
def greatestDepth : Nat := 1000

/-- Deletes the row of an id, with some more levels to go and some triggers at work. -/
def deleteRow (triggers : List Trigger) : (levels : Nat) → (atWork : List Trigger) → Int → Work
  | 0, atWork =>
    deleteRowBy (fun _ _ _ => .error (.store .triggerDepth)) (triggers.filter (· ∉ atWork))
  | levels + 1, atWork =>
    deleteRowBy (fun t => t.work (deleteRow triggers levels (t :: atWork)))
      (triggers.filter (· ∉ atWork))

/-- Refuses every deletion. -/
def block : Trigger where
  name := "block_delete"
  timing := .before
  condition := none
  reactions := [.abort "blocked"]

/-- With the row of the first id goes the row of the second. -/
def pair (first second : Int) : Trigger where
  name := "pair_" ++ Numeral.integer first ++ "_" ++ Numeral.integer second
  timing := .after
  condition := some (.equals .id (.integer first))
  reactions := [.delete (.equals .id (.integer second))]

end Trigger

end Footage
