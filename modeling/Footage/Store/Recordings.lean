import Footage.Store.Basic

/-!
Recordings: adding, finishing and reading them, and deleting a row with all that triggers take along.
-/

namespace Footage.Store

def recording? (s : Store) (id : Int) : Except Error (Option Recording) := do
  (← s.recordings.select (Query.Recordings.byId id)).head?.mapM RecordingRow.read

/-- The recording of an id that has to be there. -/
def recording (s : Store) (id : Int) : Except Error Recording := do
  match ← s.recording? id with
  | some r => return r
  | none => .error (.notFound (.recording id))

/-- Adds a recording that still goes on. -/
def insertRecording (s : Store) (r : NewRecording) (now : Time) : Except Error (Int × Store) := do
  (Query.Recordings.insert r r.start.seconds now.seconds).check
  let (id, recordings) ← s.recordings.add (RecordingRow.ofNew r now.seconds)
  return (id, { s with recordings })

/-- Ends a recording at a time that may not precede its start. -/
def finishRecording (s : Store) (id : Int) (stop now : Time) : Except Error (Recording × Store) := do
  let r ← s.recording id
  if !r.start.le stop then .error (.invalidArgument (.endPrecedesStart stop r.start id))
  else
    let finish := Query.Recordings.finish id stop.seconds now.seconds
    let s := { s with
      recordings := s.recordings.update finish.condition fun row =>
        { row with endTime := .integer stop.seconds, updatedAt := .integer now.seconds } }
    return (← s.recording id, s)

/-! ### Deleting rows -/

/-- Deletes the row of a recording and tells how many rows this has deleted, not counting those that
triggers have deleted. -/
def deleteRecordingRow (s : Store) (id : Int) : Except Error (Nat × Store) := do
  let (removed, rows) ← deleteWhere (Trigger.deleteRow s.triggers Trigger.greatestDepth [])
    (Query.Recordings.delete id).condition s.recordings.rows
  return (removed, { s with recordings.rows := rows })

/-! ### Triggers -/

/-- Adds a trigger, which is set off before those that are there. -/
def addTrigger (s : Store) (t : Trigger) : Except Error Store :=
  if s.triggers.any (·.name = t.name) then .error (.store (.triggerExists t.name))
  else .ok { s with triggers := t :: s.triggers }

/-- Refuses every deletion of a recording from now on. -/
def blockDeletion (s : Store) : Except Error Store := s.addTrigger .block

/-- Pairs two recordings. The name of the trigger holds no sign. -/
def pairDeletion (s : Store) (first second : Int) : Except Error Store :=
  if first < 0 ∨ second < 0 then .error (.store (.unexpected "-"))
  else s.addTrigger (.pair first second)

end Footage.Store
