import Footage.Store.Recordings

/-!
Listing recordings: all of them, the latest, and the latest of every date.
-/

namespace Footage.Store

open Query.Recordings (StartRange)

/-- The recordings of a camera, of one date if it is given, the oldest first. -/
def recordingsOf (s : Store) (camera : String) (date : Option Date) :
    Except Error (List Recording) := do
  (← s.recordings.select
    (Query.Recordings.oldestFirst camera (date.map StartRange.ofDate))).mapM RecordingRow.read

/-- The recording that started last, of one date if it is given. -/
def latestOf (s : Store) (camera : String) (date : Option Date) :
    Except Error (Option Recording) := do
  (← s.recordings.select
    (Query.Recordings.latest camera (date.map StartRange.ofDate))).head?.mapM RecordingRow.read

/-- Of the recordings of each date the first. -/
def firstOfDates : List Recording → List Recording
  | [] => []
  | r :: rs => r :: (firstOfDates rs).filter fun q => q.date ≠ r.date

/-- For every date with a recording the one that started last, the oldest date first. -/
def latestByDate (s : Store) (camera : String) : Except Error (List (Date × Recording)) := do
  let newestFirst ← (← s.recordings.select
    (Query.Recordings.newestFirst camera none)).mapM RecordingRow.read
  return (firstOfDates newestFirst).reverse.map fun r => (r.date, r)

/-- An answer for each of several cameras. The first camera without one fails all. -/
def forCameras (cameras : List String) (answer : String → Except Error α) :
    Except Error (List (String × α)) :=
  cameras.mapM fun camera => return (camera, ← answer camera)

end Footage.Store
