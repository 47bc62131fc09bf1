import Footage.Disk.Basic
import Footage.Disk.DatabaseName

/-!
Opening the databases of a disk by their names. A path to a database is followed by its pieces alone:
the directories on it need not be there, unless the database lies in them. But at no place may the
path from the root be too long.
-/

namespace Footage.Disk

open Text (Bytes)

/-- The longest name of a new database, in bytes: the names of the files beside it are longer. -/
def databaseNameLimit : Nat := nameLimit - 8

/-- The longest path from the root that is followed, and the longest path to a database, in bytes. -/
def followedLimit : Nat := 511
def databasePathLimit : Nat := 504

/-- Whether nothing can have a name at a place: nothing lies within a file, and no directory takes a
name that is too long. -/
def refuses (d : Disk) (p : Place) (name : Bytes) : Bool :=
  followedLimit < (Place.within p name).path.length ||
    match d.lookup? p with
    | none => false
    | some .directory => nameLimit < name.length
    | some _ => true

/-- The place that a path to a database leads to. -/
def databasePlace (d : Disk) (path : Bytes) : Except Error Place := do
  let p ← (pieces path).foldlM
    (fun p piece =>
      if isName piece && d.refuses p piece then .error (.store .unavailable)
      else .ok (p.enter piece))
    (d.start path)
  if databasePathLimit < p.path.length then .error (.store .unavailable) else return p

/-- Whether a new database can be made at a place. -/
def takesDatabase (d : Disk) : Place → Bool
  | .within directory name =>
    d.lookup? directory = some .directory && name.length ≤ databaseNameLimit
  | _ => false

/-- The database at a place, which is made if the name allows it. One with a log needs locks, if it
may change, and what permissions are taken from has to be there. -/
def databaseAt (d : Disk) (name : DatabaseName) (p : Place) : Except Error Database :=
  if !name.model?.all d.isThere then .error (.store .unavailable)
  else
    match d.lookup? p with
    | some (.database db) =>
      if name.access = .unlocked && !name.isFixed && db.isLogged then
        .error (.store .unavailable)
      else .ok db
    | some _ => .error (.store .unavailable)
    | none =>
      if name.mode = .creating && d.takesDatabase p then .ok ⟨.empty, false⟩
      else .error (.store .unavailable)

/-- A store with its schema, under the rights that a name gives. -/
def prepare (name : DatabaseName) (s : Store) : Except Error Store :=
  if name.isProtected then s.protect else s.withSchema

/-- A database that is open, and the place at which what becomes of it is kept, if it is. -/
structure Opened where
  database : Database
  place : Option Place
  deriving DecidableEq, Repr

/-- Opens the database of a name. A run has several connections: those that do not have a temporary
database in common do not find the schema in it, and each follows the path, also when the one before
has made the database. -/
def openDatabase (d : Disk) (name : String) : Except Error Opened :=
  match DatabaseName.read? name with
  | none => .error (.store .unavailable)
  | some n =>
    if n.isTemporary then
      if n.isCommon then do return ⟨⟨← prepare n .empty, false⟩, none⟩
      else .error (.store .unavailable)
    else do
      let p ← d.databasePlace n.path
      let db ← d.databaseAt n p
      discard ((d.put p (.database db)).databasePlace n.path)
      let store ← prepare n db.store
      return ⟨⟨store, n.access = .locked⟩, if n.isProtected then none else some p⟩

/-- Keeps what has become of the store of an open database. -/
def keep (d : Disk) (o : Opened) (s : Store) : Disk :=
  match o.place with
  | none => d
  | some p => d.put p (.database { o.database with store := s })

end Footage.Disk
