import Footage.Record
import Footage.Schema
import Footage.Window

/-!
Statements on files and their metadata.
-/

namespace Footage.Query

open Sql

namespace Files

def byPath (path : String) : Select FileColumn where
  outputs := FileColumn.all.map .column
  table := Schema.files
  condition := .equals .path (.text path)

def exist (path : String) : Select FileColumn where
  outputs := [.one]
  table := Schema.files
  condition := .equals .path (.text path)

def countFor (camera : String) : Select FileColumn where
  outputs := [.count .id]
  table := Schema.files
  condition := .equals .camera (.text camera)

def insert (file : NewFile) (createdAt : Int) : Insert where
  table := Schema.files
  assignments := [
    (FileColumn.tier.name, .integer file.placement.tier),
    (FileColumn.camera.name, .text file.camera),
    (FileColumn.category.name, .text file.category),
    (FileColumn.path.name, .text file.placement.path),
    (FileColumn.directory.name, .text file.placement.directory),
    (FileColumn.filename.name, .text file.placement.filename),
    (FileColumn.size.name, .integer file.size),
    (FileColumn.createdAt.name, .integer createdAt)]

def move (oldPath : String) (placement : Placement) (updatedAt : Int) : Update FileColumn where
  table := Schema.files
  assignments := [
    (FileColumn.tier.name, .integer placement.tier),
    (FileColumn.path.name, .text placement.path),
    (FileColumn.directory.name, .text placement.directory),
    (FileColumn.filename.name, .text placement.filename),
    (FileColumn.updatedAt.name, .integer updatedAt)]
  condition := .equals .path (.text oldPath)

def deletePaths (paths : List String) : Delete FileColumn where
  table := Schema.files
  condition := .oneOf .path (paths.map .text)

/-- The characters of a filename that write its start. -/
def startText : Term FragmentColumn := .leading Timestamp.width (.column (.file .filename))

/-- Files of a camera that may belong to a window, by the text of their start: it lies between the
texts of the bounds, or before the first while the length of play reaches it. -/
def inWindow (camera : String) (w : Window) : Select FragmentColumn where
  outputs :=
    FileColumn.all.map (fun c => .column (.file c)) ++
      MetaColumn.all.map fun c => .column (.metadata c)
  table := Schema.files
  join := some ⟨Schema.filesMeta, .file .path, .metadata .path⟩
  condition :=
    .and
      (.and
        (.and (.equals (.file .camera) (.text camera))
          (.equals (.file .category) (.text recorderCategory)))
        (.like (.file .path) ("%" ++ fragmentExtension)))
      (.or (.between startText (.text w.start.encode) (.text w.stop.encode))
        (.and (.compare startText .lt (.text w.start.encode))
          (.compare (.sum (.asInteger startText) (.column (.metadata .duration))) .ge
            (.integer w.start.seconds))))
  order := [(.file .filename, .ascending)]

end Files

namespace FilesMeta

def insert (entry : MetaEntry) (content : String) (createdAt : Int) : Insert where
  table := Schema.filesMeta
  assignments := [
    (MetaColumn.path.name, .text entry.path),
    (MetaColumn.duration.name, .ofOption .real entry.duration),
    (MetaColumn.content.name, .text content),
    (MetaColumn.createdAt.name, .integer createdAt)]

def byPath (path : String) : Select MetaColumn where
  outputs := MetaColumn.all.map .column
  table := Schema.filesMeta
  condition := .equals .path (.text path)

def deletePaths (paths : List String) : Delete MetaColumn where
  table := Schema.filesMeta
  condition := .oneOf .path (paths.map .text)

end FilesMeta

end Footage.Query
