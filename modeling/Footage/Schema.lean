import Footage.Sql.Statement

/-!
The tables of the store: their columns, and the statements that create them.
-/

namespace Footage

open Sql

inductive FileColumn where
  | id
  | tier
  | camera
  | category
  | path
  | directory
  | filename
  | size
  | createdAt
  | updatedAt
  deriving DecidableEq, Repr

inductive MetaColumn where
  | id
  | path
  | duration
  | content
  | createdAt
  | updatedAt
  deriving DecidableEq, Repr

inductive RecordingColumn where
  | id
  | camera
  | startTime
  | endTime
  | triggerType
  | triggerId
  | thumbnail
  | createdAt
  | updatedAt
  deriving DecidableEq, Repr

inductive ObjectColumn where
  | id
  | camera
  | label
  | confidence
  | width
  | height
  | x1
  | y1
  | x2
  | y2
  | zone
  | createdAt
  | updatedAt
  deriving DecidableEq, Repr

inductive MotionColumn where
  | id
  | camera
  | startTime
  | createdAt
  | updatedAt
  deriving DecidableEq, Repr

/-- Settings of the database by name. -/
inductive SettingColumn where
  | key
  | value
  deriving DecidableEq, Repr

/-- A column of a file or of the metadata row beside it. -/
inductive FragmentColumn where
  | file (c : FileColumn)
  | metadata (c : MetaColumn)
  deriving DecidableEq, Repr

/-! ### Names -/

namespace Schema

def settings : String := "metadata"
def files : String := "files"
def filesMeta : String := "files_meta"
def recordings : String := "recordings"
def objects : String := "objects"
def motion : String := "motion"

end Schema

def FileColumn.name : FileColumn → String
  | .id => "id"
  | .tier => "tier_id"
  | .camera => "camera_identifier"
  | .category => "category"
  | .path => "path"
  | .directory => "directory"
  | .filename => "filename"
  | .size => "size"
  | .createdAt => "created_at"
  | .updatedAt => "updated_at"

def MetaColumn.name : MetaColumn → String
  | .id => "id"
  | .path => "path"
  | .duration => "duration"
  | .content => "meta"
  | .createdAt => "created_at"
  | .updatedAt => "updated_at"

def RecordingColumn.name : RecordingColumn → String
  | .id => "id"
  | .camera => "camera_identifier"
  | .startTime => "start_time"
  | .endTime => "end_time"
  | .triggerType => "trigger_type"
  | .triggerId => "trigger_id"
  | .thumbnail => "thumbnail_path"
  | .createdAt => "created_at"
  | .updatedAt => "updated_at"

def ObjectColumn.name : ObjectColumn → String
  | .id => "id"
  | .camera => "camera_identifier"
  | .label => "label"
  | .confidence => "confidence"
  | .width => "width"
  | .height => "height"
  | .x1 => "x1"
  | .y1 => "y1"
  | .x2 => "x2"
  | .y2 => "y2"
  | .zone => "zone"
  | .createdAt => "created_at"
  | .updatedAt => "updated_at"

def MotionColumn.name : MotionColumn → String
  | .id => "id"
  | .camera => "camera_identifier"
  | .startTime => "start_time"
  | .createdAt => "created_at"
  | .updatedAt => "updated_at"

def SettingColumn.name : SettingColumn → String
  | .key => "key"
  | .value => "value"

instance : Named FileColumn := ⟨fun c => [c.name]⟩
instance : Named MetaColumn := ⟨fun c => [c.name]⟩
instance : Named RecordingColumn := ⟨fun c => [c.name]⟩
instance : Named ObjectColumn := ⟨fun c => [c.name]⟩
instance : Named MotionColumn := ⟨fun c => [c.name]⟩
instance : Named SettingColumn := ⟨fun c => [c.name]⟩

instance : Named FragmentColumn where
  names
    | .file c => [Schema.files, c.name]
    | .metadata c => [Schema.filesMeta, c.name]

/-! ### Columns in the order of their tables -/

def FileColumn.all : List FileColumn :=
  [.id, .tier, .camera, .category, .path, .directory, .filename, .size, .createdAt, .updatedAt]

def MetaColumn.all : List MetaColumn :=
  [.id, .path, .duration, .content, .createdAt, .updatedAt]

def RecordingColumn.all : List RecordingColumn :=
  [.id, .camera, .startTime, .endTime, .triggerType, .triggerId, .thumbnail, .createdAt, .updatedAt]

def ObjectColumn.all : List ObjectColumn :=
  [.id, .camera, .label, .confidence, .width, .height, .x1, .y1, .x2, .y2, .zone, .createdAt,
    .updatedAt]

def MotionColumn.all : List MotionColumn := [.id, .camera, .startTime, .createdAt, .updatedAt]

/-! ### Definitions -/

namespace Schema

private def number (name : String) : ColumnDefinition := ⟨name, .bigint, [.required]⟩
private def number? (name : String) : ColumnDefinition := ⟨name, .bigint, [.optional]⟩
private def string (name : String) : ColumnDefinition := ⟨name, .varchar, [.required]⟩
private def string? (name : String) : ColumnDefinition := ⟨name, .varchar, [.optional]⟩
private def real (name : String) : ColumnDefinition := ⟨name, .double, [.required]⟩

private def identity (name : String) : ColumnDefinition := ⟨name, .integer, [.numberedPrimaryKey]⟩

def settingsTable : CreateTable where
  name := settings
  columns := [⟨SettingColumn.key.name, .varchar, [.primaryKey]⟩, string SettingColumn.value.name]

def filesTable : CreateTable where
  name := files
  columns := FileColumn.all.map fun c =>
    match c with
    | .id => identity c.name
    | .tier | .size | .createdAt => number c.name
    | .updatedAt => number? c.name
    | .path => ⟨c.name, .varchar, [.required, .unique]⟩
    | .camera | .category | .directory | .filename => string c.name

def filesMetaTable : CreateTable where
  name := filesMeta
  columns := MetaColumn.all.map fun c =>
    match c with
    | .id => identity c.name
    | .path => ⟨c.name, .varchar, [.required, .unique]⟩
    | .duration => ⟨c.name, .double, [.optional]⟩
    | .content => ⟨c.name, .text, [.required]⟩
    | .createdAt => number c.name
    | .updatedAt => number? c.name
  reference := some ⟨MetaColumn.path.name, files, FileColumn.path.name⟩

def recordingsTable : CreateTable where
  name := recordings
  columns := RecordingColumn.all.map fun c =>
    match c with
    | .id => identity c.name
    | .camera | .thumbnail => string c.name
    | .startTime | .createdAt => number c.name
    | .endTime | .triggerId | .updatedAt => number? c.name
    | .triggerType => string? c.name

def objectsTable : CreateTable where
  name := objects
  columns := ObjectColumn.all.map fun c =>
    match c with
    | .id => identity c.name
    | .camera | .label => string c.name
    | .confidence | .width | .height | .x1 | .y1 | .x2 | .y2 => real c.name
    | .zone => string? c.name
    | .createdAt => number c.name
    | .updatedAt => number? c.name

def motionTable : CreateTable where
  name := motion
  columns := MotionColumn.all.map fun c =>
    match c with
    | .id => identity c.name
    | .camera => string c.name
    | .startTime | .createdAt => number c.name
    | .updatedAt => number? c.name

def tables : List CreateTable :=
  [settingsTable, filesTable, filesMetaTable, recordingsTable, objectsTable, motionTable]

def indexes : List CreateIndex :=
  [ ⟨"idx_files_fragments", files,
      [FileColumn.camera.name, FileColumn.category.name, FileColumn.filename.name]⟩,
    ⟨"idx_recordings_camera_start", recordings,
      [RecordingColumn.camera.name, RecordingColumn.startTime.name]⟩,
    ⟨"idx_objects_camera_created", objects,
      [ObjectColumn.camera.name, ObjectColumn.createdAt.name]⟩,
    ⟨"idx_motion_camera_start", motion, [MotionColumn.camera.name, MotionColumn.startTime.name]⟩ ]

/-- All statements, in the order in which they are carried out. -/
def statements : List (List Piece) := tables.map (·.pieces) ++ indexes.map (·.pieces)

end Schema

end Footage
