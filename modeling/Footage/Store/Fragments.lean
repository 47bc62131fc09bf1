import Footage.Fragment
import Footage.Store.Files
import Footage.Store.Recordings

/-!
Resolving the fragments of a window. The query narrows the rows by the text of their names; each row
is then read and admitted by the rule of the window. A row that breaks the contract on names, times
or metadata is left out, so that it hides no other.
-/

namespace Footage

/-- A file beside its metadata row, if there is one. -/
structure FragmentRow where
  file : FileRow
  metadata : Option MetaRow
  deriving DecidableEq, Repr

namespace FragmentRow

def value (r : FragmentRow) : FragmentColumn → Sql.Value
  | .file c => r.file.value c
  | .metadata c => r.metadata.elim .null fun m => m.value c

/-- Reads the metadata of a file that has to have some. -/
def readMeta (r : FragmentRow) : Except Error FileMeta :=
  match r.metadata with
  | none => .error (.dataIntegrity (.metadataAbsent r.file.path))
  | some m =>
    match m.read with
    | .error .json => .error (.dataIntegrity (.metadataUnreadable r.file.path))
    | result => result

/-- The fragment of a row, if its path ends as those of fragments do and the window admits it. -/
def read (w : Window) (r : FragmentRow) : Except Error (Option Fragment) := do
  let file ← r.file.read
  if !fragmentExtension.toList.isSuffixOf file.placement.path.toList then return none
  let start ← (Timestamp.decode file.placement.filename).mapError fun cause =>
    .dataIntegrity (.undecodableName file.placement.path cause)
  let metadata ← r.readMeta
  return (w.admits start metadata.duration).map fun inclusion => { file, metadata, start, inclusion }

end FragmentRow

namespace Store

def fragmentRows (s : Store) : List FragmentRow :=
  s.files.rows.map fun r => ⟨r, s.metaRow? r.path⟩

/-- The fragments of rows, those rows left out that break the contract. -/
def readFragments (w : Window) : List FragmentRow → Except Error (List Fragment)
  | [] => .ok []
  | r :: rs =>
    match r.read w with
    | .ok found => (readFragments w rs).map (found.toList ++ ·)
    | .error (.dataIntegrity _) => readFragments w rs
    | .error e => .error e

/-- The fragments of a camera that belong to a window. -/
def fragmentsIn (s : Store) (camera : String) (w : Window) : Except Error (List Fragment) := do
  let query := Query.Files.inWindow camera w
  Sql.accept query.pieces
  let rows := query.rows FragmentRow.value s.fragmentRows
  return (← readFragments w rows).mergeSort Fragment.le

/-- The fragments of a recording whose start is pulled back by `lookback` seconds. -/
def fragmentsOf (s : Store) (r : Recording) (lookback : Nat) (now : Time) :
    Except Error (List Fragment) :=
  s.fragmentsIn r.camera (.ofInterval r.start r.stop lookback now)

end Store

end Footage
