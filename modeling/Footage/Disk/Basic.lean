import Footage.Disk.Place
import Footage.Store.Basic

/-!
What is on the disk, as far as it is known: directories, texts and databases, each at its place. A
path that is read is followed from directory to directory.
-/

namespace Footage

open Text (Bytes)

structure Database where
  store : Store
  /-- Changes go through a log, which takes locks. -/
  isLogged : Bool
  deriving DecidableEq, Repr

namespace Disk

inductive Entry where
  | directory
  | text (content : String)
  | database (d : Database)
  /-- A file that is neither a text nor a database. -/
  | unknown
  deriving DecidableEq, Repr

/-- The directories under the root that every disk has. -/
def standardDirectories : List String :=
  ["bin", "dev", "etc", "home", "lib", "mnt", "opt", "proc", "root", "run", "sbin", "srv", "sys",
    "tmp", "usr", "var"]

/-- What every disk has at a place. -/
def Place.standard? (p : Place) : Option Entry :=
  let isCalled (name : String) : Bool := p = .ofPath (Text.bytes name.toList)
  if p = .root || standardDirectories.any isCalled then some .directory
  else if isCalled "dev/null" then some (.text "")
  else none

end Disk

structure Disk where
  /-- The working directory, where paths start that do not start from the root. -/
  working : Disk.Place
  entries : List (Disk.Place × Disk.Entry)
  deriving DecidableEq, Repr

namespace Disk

/-- A disk with some entries in its working directory. -/
def ofEntries (working : Place) (entries : List (String × Entry)) : Disk :=
  ⟨working, entries.map fun (name, e) => (.within working (Text.bytes name.toList), e)⟩

def lookup? (d : Disk) (p : Place) : Option Entry :=
  match d.entries.find? fun e => e.1 = p with
  | some e => some e.2
  | none => if p ∈ d.working.upwards then some .directory else p.standard?

/-- Where a path starts from. -/
def start (d : Disk) (path : Bytes) : Place :=
  if path.head? = some slash then .root else d.working

/-- Puts an entry at a place. -/
def put (d : Disk) (p : Place) (e : Entry) : Disk :=
  { d with entries := (p, e) :: d.entries.filter fun other => other.1 ≠ p }

/-- The longest name, and the length that a whole path stays below, in bytes. -/
def nameLimit : Nat := 255
def pathLimit : Nat := 4096

/-! ### Following paths -/

/-- Where a piece of a path leads from a place, which has to be a directory. -/
def step (d : Disk) (p : Place) (piece : Bytes) : Except ReadFault Place :=
  match d.lookup? p with
  | none => .error .absent
  | some .directory =>
    if nameLimit < piece.length then .error .nameTooLong else .ok (p.enter piece)
  | some _ => .error .notDirectory

/-- The place that a path leads to. -/
def follow (d : Disk) (path : Bytes) : Except ReadFault Place :=
  if path = [] then .error .absent
  else if pathLimit ≤ path.length then .error .nameTooLong
  else (pieces path).foldlM d.step (d.start path)

/-- Whether there is anything that a path leads to. -/
def isThere (d : Disk) (path : Bytes) : Bool :=
  match d.follow path with
  | .ok p => (d.lookup? p).isSome
  | .error _ => false

/-- Reads the text that a path leads to. -/
def readText (d : Disk) (path : String) : Except ReadFault String := do
  match d.lookup? (← d.follow (Text.bytes path.toList)) with
  | none => .error .absent
  | some .directory => .error .isDirectory
  | some (.text content) => .ok content
  | some _ => .error .notText

@[simp] theorem lookup?_put (d : Disk) (p : Place) (e : Entry) : (d.put p e).lookup? p = some e := by
  simp [lookup?, put]

end Disk

end Footage
