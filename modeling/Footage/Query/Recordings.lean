import Footage.Record
import Footage.Schema

/-!
Statements on recordings.
-/

namespace Footage.Query.Recordings

open Sql

/-- Start seconds from the first bound up to, and not including, the second. -/
structure StartRange where
  first : Int
  past : Int
  deriving DecidableEq, Repr

/-- The seconds of a date. -/
def StartRange.ofDate (date : Date) : StartRange := ⟨date.day * 86400, date.day * 86400 + 86400⟩

def insert (recording : NewRecording) (start createdAt : Int) : Insert where
  table := Schema.recordings
  assignments := [
    (RecordingColumn.camera.name, .text recording.camera),
    (RecordingColumn.startTime.name, .integer start),
    (RecordingColumn.triggerType.name, .ofOption .text recording.triggerType),
    (RecordingColumn.triggerId.name, .ofOption .integer recording.triggerId),
    (RecordingColumn.thumbnail.name, .text recording.thumbnail),
    (RecordingColumn.createdAt.name, .integer createdAt)]

private def selecting (condition : Condition RecordingColumn)
    (order : List (RecordingColumn × Direction)) : Select RecordingColumn where
  outputs := RecordingColumn.all.map .column
  table := Schema.recordings
  condition
  order

def byId (id : Int) : Select RecordingColumn := selecting (.equals .id (.integer id)) []

/-- Recordings of a camera, limited to a range of starts if there is one. -/
def ofCamera (camera : String) (range : Option StartRange) : Condition RecordingColumn :=
  let whole := Condition.equals RecordingColumn.camera (.text camera)
  match range with
  | none => whole
  | some r =>
    .and (.and whole (.compare (.column .startTime) .ge (.integer r.first)))
      (.compare (.column .startTime) .lt (.integer r.past))

def oldestFirst (camera : String) (range : Option StartRange) : Select RecordingColumn :=
  selecting (ofCamera camera range) [(.startTime, .ascending), (.id, .ascending)]

def newestFirst (camera : String) (range : Option StartRange) : Select RecordingColumn :=
  selecting (ofCamera camera range) [(.startTime, .descending), (.id, .descending)]

def latest (camera : String) (range : Option StartRange) : Select RecordingColumn :=
  { newestFirst camera range with limit := some 1 }

def byStart (camera : String) (start : Int) : Select RecordingColumn :=
  selecting (.and (ofCamera camera none) (.equals .startTime (.integer start))) [(.id, .ascending)]

/-- Recordings of a camera other than one, whose windows can reach the seconds from `first` to `last`
when their starts are pulled back by `lookback`. -/
def siblings (camera : String) (other first last lookback : Int) : Select RecordingColumn :=
  selecting
    (.and
      (.and
        (.and (ofCamera camera none) (.compare (.column .id) .ne (.integer other)))
        (.compare (.column .startTime) .le (.integer (Numeral.clamped (last + lookback)))))
      (.or (.isNull .endTime) (.compare (.column .endTime) .ge (.integer first))))
    [(.startTime, .ascending)]

def finish (id stop updatedAt : Int) : Update RecordingColumn where
  table := Schema.recordings
  assignments := [
    (RecordingColumn.endTime.name, .integer stop),
    (RecordingColumn.updatedAt.name, .integer updatedAt)]
  condition := .equals .id (.integer id)

def delete (id : Int) : Delete RecordingColumn where
  table := Schema.recordings
  condition := .equals .id (.integer id)

end Footage.Query.Recordings
