import Footage.Json.Reader
import Footage.Record
import Footage.Schema

/-!
Rows of the tables: the values of their columns, and the records they are read as. A column of
numbers can hold a value of another kind, times are stored as seconds that need not be times, and
metadata as a text that need not be an object; reading a row fails then.
-/

namespace Footage

open Sql

structure FileRow where
  id : Int
  tier : Value
  camera : String
  category : String
  path : String
  directory : String
  filename : String
  size : Value
  createdAt : Value
  updatedAt : Value
  deriving DecidableEq, Repr

structure MetaRow where
  id : Int
  path : String
  duration : Value
  content : String
  createdAt : Value
  updatedAt : Value
  deriving DecidableEq, Repr

structure RecordingRow where
  id : Int
  camera : String
  startTime : Value
  endTime : Value
  triggerType : Option String
  triggerId : Value
  thumbnail : String
  createdAt : Value
  updatedAt : Value
  deriving DecidableEq, Repr

structure ObjectRow where
  id : Int
  camera : String
  label : String
  confidence : Value
  width : Value
  height : Value
  x1 : Value
  y1 : Value
  x2 : Value
  y2 : Value
  zone : Option String
  createdAt : Value
  updatedAt : Value
  deriving DecidableEq, Repr

structure MotionRow where
  id : Int
  camera : String
  startTime : Value
  createdAt : Value
  updatedAt : Value
  deriving DecidableEq, Repr

/-! ### New rows -/

/-- What a column of doubles holds once it is given one. -/
def storedReal (x : Binary64) : Value := Affinity.real.convert (Value.real x).asWritten

def FileRow.ofNew (file : NewFile) (createdAt : Int) (id : Int) : FileRow where
  id
  tier := .integer file.placement.tier
  camera := file.camera
  category := file.category
  path := file.placement.path
  directory := file.placement.directory
  filename := file.placement.filename
  size := .integer file.size
  createdAt := .integer createdAt
  updatedAt := .null

def MetaRow.ofNew (metadata : NewMeta) (content : String) (createdAt : Int) (id : Int) :
    MetaRow where
  id
  path := metadata.path
  duration := .ofOption storedReal metadata.duration
  content
  createdAt := .integer createdAt
  updatedAt := .null

def RecordingRow.ofNew (r : NewRecording) (createdAt : Int) (id : Int) : RecordingRow where
  id
  camera := r.camera
  startTime := .integer r.start.seconds
  endTime := .null
  triggerType := r.triggerType
  triggerId := .ofOption .integer r.triggerId
  thumbnail := r.thumbnail
  createdAt := .integer createdAt
  updatedAt := .null

def ObjectRow.ofNew (d : Detection) (createdAt : Int) (id : Int) : ObjectRow where
  id
  camera := d.camera
  label := d.label
  confidence := storedReal d.confidence
  width := storedReal d.width
  height := storedReal d.height
  x1 := storedReal d.x1
  y1 := storedReal d.y1
  x2 := storedReal d.x2
  y2 := storedReal d.y2
  zone := d.zone
  createdAt := .integer createdAt
  updatedAt := .null

def MotionRow.ofNew (camera : String) (start : Time) (createdAt : Int) (id : Int) :
    MotionRow where
  id
  camera
  startTime := .integer start.seconds
  createdAt := .integer createdAt
  updatedAt := .null

/-- Gives a file the place it has moved to. -/
def FileRow.moved (placement : Placement) (updatedAt : Int) (r : FileRow) : FileRow :=
  { r with
    tier := .integer placement.tier, path := placement.path, directory := placement.directory
    filename := placement.filename, updatedAt := .integer updatedAt }

/-- Gives a metadata row the new path of its file. -/
def MetaRow.follow (oldPath newPath : String) (r : MetaRow) : MetaRow :=
  if r.path = oldPath then { r with path := newPath } else r

/-! ### Values of columns -/

def FileRow.value (r : FileRow) : FileColumn → Value
  | .id => .integer r.id
  | .tier => r.tier
  | .camera => .text r.camera
  | .category => .text r.category
  | .path => .text r.path
  | .directory => .text r.directory
  | .filename => .text r.filename
  | .size => r.size
  | .createdAt => r.createdAt
  | .updatedAt => r.updatedAt

def MetaRow.value (r : MetaRow) : MetaColumn → Value
  | .id => .integer r.id
  | .path => .text r.path
  | .duration => r.duration
  | .content => .text r.content
  | .createdAt => r.createdAt
  | .updatedAt => r.updatedAt

def RecordingRow.value (r : RecordingRow) : RecordingColumn → Value
  | .id => .integer r.id
  | .camera => .text r.camera
  | .startTime => r.startTime
  | .endTime => r.endTime
  | .triggerType => .ofOption .text r.triggerType
  | .triggerId => r.triggerId
  | .thumbnail => .text r.thumbnail
  | .createdAt => r.createdAt
  | .updatedAt => r.updatedAt

def ObjectRow.value (r : ObjectRow) : ObjectColumn → Value
  | .id => .integer r.id
  | .camera => .text r.camera
  | .label => .text r.label
  | .confidence => r.confidence
  | .width => r.width
  | .height => r.height
  | .x1 => r.x1
  | .y1 => r.y1
  | .x2 => r.x2
  | .y2 => r.y2
  | .zone => .ofOption .text r.zone
  | .createdAt => r.createdAt
  | .updatedAt => r.updatedAt

def MotionRow.value (r : MotionRow) : MotionColumn → Value
  | .id => .integer r.id
  | .camera => .text r.camera
  | .startTime => r.startTime
  | .createdAt => r.createdAt
  | .updatedAt => r.updatedAt

/-! ### Putting values into columns -/

/-- The integer of a value, or else the one given. -/
def Sql.Value.integerOr (other : Int) : Value → Int
  | .integer n => n
  | _ => other

def Sql.Value.text? : Value → Option String
  | .text s => some s
  | _ => none

def FileRow.put (r : FileRow) (c : FileColumn) (v : Value) : FileRow :=
  match c with
  | .id => { r with id := v.integerOr r.id }
  | .tier => { r with tier := v }
  | .camera => { r with camera := v.text?.getD r.camera }
  | .category => { r with category := v.text?.getD r.category }
  | .path => { r with path := v.text?.getD r.path }
  | .directory => { r with directory := v.text?.getD r.directory }
  | .filename => { r with filename := v.text?.getD r.filename }
  | .size => { r with size := v }
  | .createdAt => { r with createdAt := v }
  | .updatedAt => { r with updatedAt := v }

def MetaRow.put (r : MetaRow) (c : MetaColumn) (v : Value) : MetaRow :=
  match c with
  | .id => { r with id := v.integerOr r.id }
  | .path => { r with path := v.text?.getD r.path }
  | .duration => { r with duration := v }
  | .content => { r with content := v.text?.getD r.content }
  | .createdAt => { r with createdAt := v }
  | .updatedAt => { r with updatedAt := v }

def RecordingRow.put (r : RecordingRow) (c : RecordingColumn) (v : Value) : RecordingRow :=
  match c with
  | .id => { r with id := v.integerOr r.id }
  | .camera => { r with camera := v.text?.getD r.camera }
  | .startTime => { r with startTime := v }
  | .endTime => { r with endTime := v }
  | .triggerType => { r with triggerType := v.text? }
  | .triggerId => { r with triggerId := v }
  | .thumbnail => { r with thumbnail := v.text?.getD r.thumbnail }
  | .createdAt => { r with createdAt := v }
  | .updatedAt => { r with updatedAt := v }

def ObjectRow.put (r : ObjectRow) (c : ObjectColumn) (v : Value) : ObjectRow :=
  match c with
  | .id => { r with id := v.integerOr r.id }
  | .camera => { r with camera := v.text?.getD r.camera }
  | .label => { r with label := v.text?.getD r.label }
  | .confidence => { r with confidence := v }
  | .width => { r with width := v }
  | .height => { r with height := v }
  | .x1 => { r with x1 := v }
  | .y1 => { r with y1 := v }
  | .x2 => { r with x2 := v }
  | .y2 => { r with y2 := v }
  | .zone => { r with zone := v.text? }
  | .createdAt => { r with createdAt := v }
  | .updatedAt => { r with updatedAt := v }

def MotionRow.put (r : MotionRow) (c : MotionColumn) (v : Value) : MotionRow :=
  match c with
  | .id => { r with id := v.integerOr r.id }
  | .camera => { r with camera := v.text?.getD r.camera }
  | .startTime => { r with startTime := v }
  | .createdAt => { r with createdAt := v }
  | .updatedAt => { r with updatedAt := v }

/-! ### What the tables have in common -/

/-- Rows of a table with the columns `κ`. -/
class Row (ρ : Type) (κ : outParam Type) where
  definition : CreateTable
  columns : List κ
  id : ρ → Int
  value : ρ → κ → Value
  /-- Gives a column a value that it can hold. -/
  put : ρ → κ → Value → ρ

instance : Row FileRow FileColumn where
  definition := Schema.filesTable
  columns := FileColumn.all
  id := FileRow.id
  value := FileRow.value
  put := FileRow.put

instance : Row MetaRow MetaColumn where
  definition := Schema.filesMetaTable
  columns := MetaColumn.all
  id := MetaRow.id
  value := MetaRow.value
  put := MetaRow.put

instance : Row RecordingRow RecordingColumn where
  definition := Schema.recordingsTable
  columns := RecordingColumn.all
  id := RecordingRow.id
  value := RecordingRow.value
  put := RecordingRow.put

instance : Row ObjectRow ObjectColumn where
  definition := Schema.objectsTable
  columns := ObjectColumn.all
  id := ObjectRow.id
  value := ObjectRow.value
  put := ObjectRow.put

instance : Row MotionRow MotionColumn where
  definition := Schema.motionTable
  columns := MotionColumn.all
  id := MotionRow.id
  value := MotionRow.value
  put := MotionRow.put

/-! ### Reading records -/

/-- Reads a column of integers that has to hold one. -/
def Sql.Value.readInteger : Value → Except Error Int
  | .integer n => .ok n
  | _ => .error (.store .unavailable)

/-- Reads a column of doubles that has to hold one. -/
def Sql.Value.readReal : Value → Except Error Binary64
  | .real x => .ok x
  | _ => .error (.store .unavailable)

/-- Reads a column that may hold nothing. -/
def Sql.Value.optionally (read : Value → Except Error α) : Value → Except Error (Option α)
  | .null => .ok none
  | v => (read v).map some

def Sql.Value.readTime (v : Value) : Except Error Time := v.readInteger.bind Time.ofStored

def FileRow.read (r : FileRow) : Except Error File := do
  let tier ← r.tier.readInteger
  let size ← r.size.readInteger
  let createdAt ← r.createdAt.readTime
  let updatedAt ← r.updatedAt.optionally Value.readTime
  return {
    placement := ⟨tier, r.path, r.directory, r.filename⟩, camera := r.camera
    category := r.category, size, id := r.id, createdAt, updatedAt }

/-- Reads the metadata before the columns around it. -/
def MetaRow.read (r : MetaRow) : Except Error FileMeta := do
  match Json.read? Json.metadataDepth r.content with
  | none => .error .json
  | some (.object content) =>
    let duration ← r.duration.optionally Value.readReal
    let createdAt ← r.createdAt.readTime
    let updatedAt ← r.updatedAt.optionally Value.readTime
    return { path := r.path, duration, content, id := r.id, createdAt, updatedAt }
  | some v => .error (.dataIntegrity (.metadataNotObject r.path v))

def RecordingRow.read (r : RecordingRow) : Except Error Recording := do
  let start ← r.startTime.readTime
  let stop ← r.endTime.optionally Value.readTime
  let triggerId ← r.triggerId.optionally Value.readInteger
  let createdAt ← r.createdAt.readTime
  let updatedAt ← r.updatedAt.optionally Value.readTime
  return {
    camera := r.camera, start, triggerType := r.triggerType, triggerId
    thumbnail := r.thumbnail, id := r.id, stop, createdAt, updatedAt }

def ObjectRow.read (r : ObjectRow) : Except Error DetectedObject := do
  let confidence ← r.confidence.readReal
  let width ← r.width.readReal
  let height ← r.height.readReal
  let x1 ← r.x1.readReal
  let y1 ← r.y1.readReal
  let x2 ← r.x2.readReal
  let y2 ← r.y2.readReal
  let createdAt ← r.createdAt.readTime
  let updatedAt ← r.updatedAt.optionally Value.readTime
  return {
    camera := r.camera, label := r.label, confidence, width, height, x1, y1, x2, y2
    zone := r.zone, id := r.id, createdAt, updatedAt }

def MotionRow.read (r : MotionRow) : Except Error MotionEvent := do
  let start ← r.startTime.readTime
  let createdAt ← r.createdAt.readTime
  let updatedAt ← r.updatedAt.optionally Value.readTime
  return { id := r.id, camera := r.camera, start, createdAt, updatedAt }

end Footage
