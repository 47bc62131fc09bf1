import Footage.Record
import Footage.Schema

/-!
Statements on detected objects and motion events, and on the settings of the database.
-/

namespace Footage.Query

open Sql

namespace Objects

def insert (d : Detection) (createdAt : Int) : Insert where
  table := Schema.objects
  assignments := [
    (ObjectColumn.camera.name, .text d.camera),
    (ObjectColumn.label.name, .text d.label),
    (ObjectColumn.confidence.name, .real d.confidence),
    (ObjectColumn.width.name, .real d.width),
    (ObjectColumn.height.name, .real d.height),
    (ObjectColumn.x1.name, .real d.x1),
    (ObjectColumn.y1.name, .real d.y1),
    (ObjectColumn.x2.name, .real d.x2),
    (ObjectColumn.y2.name, .real d.y2),
    (ObjectColumn.zone.name, .ofOption .text d.zone),
    (ObjectColumn.createdAt.name, .integer createdAt)]

def between (camera : String) (first last : Int) : Select ObjectColumn where
  outputs := ObjectColumn.all.map .column
  table := Schema.objects
  condition :=
    .and (.equals .camera (.text camera))
      (.between (.column .createdAt) (.integer first) (.integer last))
  order := [(.createdAt, .ascending), (.id, .ascending)]

end Objects

namespace Motion

def insert (camera : String) (start createdAt : Int) : Insert where
  table := Schema.motion
  assignments := [
    (MotionColumn.camera.name, .text camera),
    (MotionColumn.startTime.name, .integer start),
    (MotionColumn.createdAt.name, .integer createdAt)]

def between (camera : String) (first last : Int) : Select MotionColumn where
  outputs := MotionColumn.all.map .column
  table := Schema.motion
  condition :=
    .and (.equals .camera (.text camera))
      (.between (.column .startTime) (.integer first) (.integer last))
  order := [(.startTime, .ascending), (.id, .ascending)]

end Motion

namespace Settings

/-- The name under which the schema version is kept. -/
def versionKey : String := "version"

def byKey (key : String) : Select SettingColumn where
  outputs := [.column .value]
  table := Schema.settings
  condition := .equals .key (.text key)

def insert (key value : String) : Insert where
  table := Schema.settings
  assignments := [(SettingColumn.key.name, .text key), (SettingColumn.value.name, .text value)]

end Settings

end Footage.Query
