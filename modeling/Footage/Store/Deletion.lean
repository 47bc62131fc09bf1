import Footage.Scope
import Footage.Store.Fragments
import Footage.Store.Listing

/-!
Deleting recordings with their footage. A recording takes along its thumbnail and its fragments, but
those fragments stay that another recording of the camera resolves too. Each recording goes whole or
not at all.
-/

namespace Footage

structure Deletion where
  recording : Int
  /-- The files that were deleted, fragments and thumbnail. -/
  filesRemoved : Nat
  /-- The fragments that stay because another recording has them. -/
  fragmentsShared : Nat
  deriving DecidableEq, Repr

structure DeletionReport where
  deleted : List Deletion
  deriving DecidableEq, Repr

def DeletionReport.filesRemoved (report : DeletionReport) : Nat :=
  report.deleted.foldr (fun d n => d.filesRemoved + n) 0

/-- The second by which a fragment has stopped playing; its start, if its length is not known. -/
def Fragment.lastSecond (f : Fragment) : Int :=
  match f.stop? with
  | some x => x.ceilWithin Numeral.leastWord Numeral.greatestWord
  | none => f.start.seconds

namespace Store

/-- The recordings of a camera, other than `r`, that may have one of the fragments. -/
def siblings (s : Store) (r : Recording) (fragments : List Fragment) (lookback : Nat) :
    Except Error (List RecordingRow) :=
  match (fragments.map fun f => (f.start.seconds : Int)).min?,
      (fragments.map Fragment.lastSecond).max? with
  | some first, some last =>
    s.recordings.select (Query.Recordings.siblings r.camera r.id first last
      (Numeral.clamped lookback))
  | _, _ => .ok []

/-- The paths among those of `fragments` that another recording of the camera resolves too. -/
def sharedPaths (s : Store) (r : Recording) (fragments : List Fragment) (lookback : Nat)
    (now : Time) : Except Error (List String) := do
  let others ← (← s.siblings r fragments lookback).mapM fun row => do
    s.fragmentsOf (← row.read) lookback now
  return (fragments.map Fragment.path).filter fun path =>
    others.any fun theirs => theirs.any fun f => f.path = path

/-- Deletes the recording of an id with its footage. -/
def deleteRecording (s : Store) (id : Int) (lookback : Nat) (now : Time) :
    Except Error (Deletion × Store) := do
  let r ← s.recording id
  let fragments ← s.fragmentsOf r lookback now
  let shared ← s.sharedPaths r fragments lookback now
  let ours := (fragments.map Fragment.path).filter fun path => !shared.contains path
  let paths := if r.thumbnail = "" then ours else ours ++ [r.thumbnail]
  let s ← s.deleteMetas paths
  let (filesRemoved, s) ← s.deleteFiles paths
  let (removed, s) ← s.deleteRecordingRow id
  if removed = 0 then .error (.notFound (.recording id))
  else return (⟨id, filesRemoved, shared.length⟩, s)

/-! ### Several recordings -/

/-- The recordings that a scope selects. A scope of one recording has to select some. -/
def targets (s : Store) (camera : String) : Scope → Except Error (List Recording)
  | .camera => s.recordingsOf camera none
  | .date d => s.recordingsOf camera (some d)
  | .recording d filename => do
    let start ← startOfFilename filename
    let found ← (← s.recordings.select
      (Query.Recordings.byStart camera start.seconds)).mapM RecordingRow.read
    match found.filter fun r => r.date = d with
    | [] => .error (.notFound (.namedRecording camera d filename))
    | found => return found

/-- Deletes the recording of an id; a failure leaves the store. -/
def tryDeletion (lookback : Nat) (now : Time) (id : Int) (s : Store) :
    Except Error Deletion × Store :=
  match s.deleteRecording id lookback now with
  | .ok (d, s) => (.ok d, s)
  | .error e => (.error e, s)

/-- Deletes recordings one after the other. One that is not found at its turn is passed over, unless it
was asked for by name; any other failure ends the deletion, and what is gone by then stays gone. -/
def deleteEach (delete : Int → σ → Except Error Deletion × σ) (byName : Bool) :
    List Int → σ → Except Error (List Deletion) × σ
  | [], s => (.ok [], s)
  | id :: ids, s =>
    match delete id s with
    | (.ok d, s) =>
      let (rest, s) := deleteEach delete byName ids s
      (rest.map (d :: ·), s)
    | (.error e, s) =>
      if e.isNotFound ∧ !byName then deleteEach delete byName ids s
      else (.error (.deleteFailure id e), s)

/-- Deletes the recordings of a camera that a scope selects. -/
def deleteRecordings (s : Store) (camera : String) (scope : Scope) (lookback : Nat) (now : Time) :
    Except Error DeletionReport × Store :=
  match s.targets camera scope with
  | .error e => (.error e, s)
  | .ok found =>
    let (deleted, s) :=
      deleteEach (tryDeletion lookback now) scope.isByName (found.map (·.id)) s
    (deleted.map DeletionReport.mk, s)

end Store

end Footage
