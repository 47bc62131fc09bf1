import Footage.Store.Basic

/-!
Files and their metadata. A path belongs to one file, and a metadata row to the file whose path it
has: it follows the file when the file moves, and goes with it.
-/

namespace Footage.Store

/-! ### Reading -/

def file? (s : Store) (path : String) : Except Error (Option File) := do
  (← s.files.select (Query.Files.byPath path)).head?.mapM FileRow.read

def fileMeta? (s : Store) (path : String) : Except Error (Option FileMeta) := do
  (← s.filesMeta.select (Query.FilesMeta.byPath path)).head?.mapM MetaRow.read

def countFiles (s : Store) (camera : String) : Except Error Nat :=
  return (← s.files.select (Query.Files.countFor camera)).length

def hasFile (s : Store) (path : String) : Bool := s.files.rows.any fun r => r.path = path

/-- The metadata row of a file. -/
def metaRow? (s : Store) (path : String) : Option MetaRow :=
  s.filesMeta.rows.find? fun r => r.path = path

/-! ### Writing -/

def insertFile (s : Store) (file : NewFile) (now : Time) : Except Error (Int × Store) := do
  (Query.Files.insert file now.seconds).check
  let (id, files) ← s.files.add (FileRow.ofNew file now.seconds)
  if s.hasFile file.placement.path then .error (.store (.notUnique "files.path"))
  else return (id, { s with files })

/-- Adds metadata to a file that is there. -/
def insertMeta (s : Store) (metadata : NewMeta) (now : Time) : Except Error (Int × Store) := do
  if (← s.files.select (Query.Files.exist metadata.path)).isEmpty then
    .error (.integrityViolation (.fileAbsent metadata.path))
  let content := (Json.Value.object metadata.content).text
  (Query.FilesMeta.insert metadata content now.seconds).check
  let (id, filesMeta) ← s.filesMeta.add (MetaRow.ofNew metadata content now.seconds)
  if (s.metaRow? metadata.path).isSome then .error (.store (.notUnique "files_meta.path"))
  else return (id, { s with filesMeta })

/-- Adds a file and its metadata, or neither. -/
def insertFragment (s : Store) (file : NewFile) (metadata : NewMeta) (now : Time) :
    Except Error ((Int × Int) × Store) := do
  if file.placement.path ≠ metadata.path then
    .error (.integrityViolation (.pathsDiffer file.placement.path metadata.path))
  let (fileId, s) ← s.insertFile file now
  let (metaId, s) ← s.insertMeta metadata now
  return ((fileId, metaId), s)

/-- Records that the file at `oldPath` now lives at `placement`. -/
def moveFile (s : Store) (oldPath : String) (placement : Placement) (now : Time) :
    Except Error Store := do
  let move := Query.Files.move oldPath placement now.seconds
  Sql.accept move.pieces
  if !s.files.has move.condition then .error (.notFound (.file oldPath))
  else if placement.path ≠ oldPath ∧ s.hasFile placement.path then
    .error (.store (.notUnique "files.path"))
  else
    return { s with
      files := s.files.update move.condition (FileRow.moved placement now.seconds)
      filesMeta := s.filesMeta.map (MetaRow.follow oldPath placement.path) }

/-! ### Deleting -/

/-- Deletes the metadata rows with one of the paths. -/
def deleteMetas (s : Store) (paths : List String) : Except Error Store := do
  let delete := Query.FilesMeta.deletePaths paths
  Sql.accept delete.pieces
  return { s with filesMeta := s.filesMeta.filter fun r => !delete.condition.holds r.value }

/-- Deletes the files with one of the paths, their metadata with them, and counts the files. -/
def deleteFiles (s : Store) (paths : List String) : Except Error (Nat × Store) := do
  let delete := Query.Files.deletePaths paths
  Sql.accept delete.pieces
  let gone := s.files.rows.filter fun r => delete.condition.holds r.value
  return (gone.length,
    { s with
      files := s.files.filter fun r => !delete.condition.holds r.value
      filesMeta := s.filesMeta.filter fun r => !gone.any fun f => f.path = r.path })

end Footage.Store
