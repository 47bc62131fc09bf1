import Footage.Disk.Place

/-!
Names of databases. A name is a path, or `file:` and a path in which bytes may be escaped, with
options after a question mark: what may be done with the database, whether the connections of a run
share it, and how files are dealt with.
-/

namespace Footage.Disk

open Text (Bytes bytes)

/-- What may be done with a database. -/
inductive Mode where
  | reading
  | writing
  /-- A database that is not there is made. -/
  | creating
  /-- The database is held in memory, and its path is only a name. -/
  | memory
  deriving DecidableEq, Repr

namespace Mode

def rank : Mode → Nat
  | .reading => 1
  | .writing => 2
  | .creating => 3
  | .memory => 4

/-- An option may take rights away, not add any. Memory can always be used. -/
def allows (m new : Mode) : Bool := new = .memory || new.rank ≤ m.rank

end Mode

/-- How files are dealt with. -/
inductive Access where
  | locked
  /-- Without the locks that a log needs. -/
  | unlocked
  /-- No file is touched. -/
  | memory
  deriving DecidableEq, Repr

structure DatabaseName where
  path : Bytes
  mode : Mode
  access : Access
  /-- The connections of a run share what is held in memory. -/
  isShared : Bool
  /-- The file is taken not to change. -/
  isFixed : Bool
  /-- The path of what the file has its permissions from, if they are taken from anything. -/
  model? : Option Bytes
  deriving DecidableEq, Repr

namespace DatabaseName

def ofPath (path : Bytes) : DatabaseName :=
  { path, mode := .creating, access := .locked, isShared := false, isFixed := false,
    model? := none }

/-! ### Options -/

/-- What a word stands for. -/
def meaning? (meanings : List (String × α)) (word : Bytes) : Option α :=
  (meanings.find? fun m => bytes m.1.toList = word).map (·.2)

def modes : List (String × Mode) :=
  [("ro", .reading), ("rw", .writing), ("rwc", .creating), ("memory", .memory)]

def sharings : List (String × Bool) := [("shared", true), ("private", false)]

def accesses : List (String × Access) :=
  [("unix", .locked), ("unix-excl", .locked), ("unix-none", .unlocked), ("unix-dotfile", .unlocked),
    ("memdb", .memory)]

/-- The number that a word starts with, in base ten or sixteen. -/
def leadingNumber? : List Char → Option Nat
  | '0' :: x :: rest =>
    let digits := rest.takeWhile fun c => (Numeral.digitValue? 16 c).isSome
    if x.toLower = 'x' ∧ digits ≠ [] then Numeral.valueIn? 16 digits
    else some (Numeral.value ((x :: rest).takeWhile Char.isDigit))
  | cs =>
    match cs.takeWhile Char.isDigit with
    | [] => none
    | digits => some (Numeral.value digits)

/-- Whether a word says yes, or starts with a number of 31 bits whose last eight are not all zero. -/
def isTrue (word : Bytes) : Bool :=
  let cs := word.map fun b => Char.ofNat b.toNat
  match leadingNumber? cs with
  | some n => n < 0x80000000 && n % 0x100 ≠ 0
  | none => ["yes", "true", "on"].contains (String.ofList (cs.map Char.toLower))

/-- The word of the first option of a name. -/
def wordOf? (options : List (Bytes × Bytes)) (name : String) : Option Bytes :=
  (options.find? fun option => option.1 = bytes name.toList).map (·.2)

def isSet (options : List (Bytes × Bytes)) (name : String) : Bool :=
  (wordOf? options name).any isTrue

/-- What a name means with a further option. Options that are not known do nothing. -/
def follow? (n : DatabaseName) (option : Bytes × Bytes) : Option DatabaseName :=
  let (name, word) := option
  if name = bytes "mode".toList then do
    let mode ← meaning? modes word
    if n.mode.allows mode then some { n with mode } else none
  else if name = bytes "cache".toList then do
    return { n with isShared := ← meaning? sharings word }
  else some n

/-- The access that the last option on it names. -/
def accessOf? (options : List (Bytes × Bytes)) : Option Access :=
  match wordOf? options.reverse "vfs" with
  | none => some .locked
  | some word => meaning? accesses word

/-- What a path means with options. -/
def ofOptions? (path : Bytes) (options : List (Bytes × Bytes)) : Option DatabaseName := do
  let access ← accessOf? options
  let n := ofPath path
  options.foldlM follow? { n with
    access := if access = .locked ∧ isSet options "nolock" then .unlocked else access
    isFixed := isSet options "immutable"
    model? := wordOf? options "modeof" }

/-! ### Reading -/

/-- What is left behind an authority, which has to be empty or this machine. -/
def afterAuthority? : List Char → Option (List Char)
  | '/' :: '/' :: rest =>
    let authority := rest.takeWhile (· ≠ '/')
    if authority = [] ∨ authority = "localhost".toList then some (rest.dropWhile (· ≠ '/'))
    else none
  | rest => some rest

/-- The options in a text. One without a name is passed over. -/
def readOptions (cs : List Char) : List (Bytes × Bytes) :=
  let options := (Text.pieces '&' cs).map fun piece =>
    let (name, word) := Text.cut '=' piece
    (Text.unescaped name, Text.unescaped word)
  options.filter fun option => option.1 ≠ []

/-- Reads a name; what stands after a number sign does not count. -/
def read? (name : String) : Option DatabaseName :=
  if '\x00' ∈ name.toList then none
  else
    match name.toList with
    | 'f' :: 'i' :: 'l' :: 'e' :: ':' :: rest => do
      let rest ← afterAuthority? rest
      let (path, options) := Text.cut '?' (rest.takeWhile (· ≠ '#'))
      ofOptions? (Text.unescaped path) (readOptions options)
    | path => some (ofPath (bytes path))

/-! ### What a name means -/

/-- Whether a name asks for memory by its mode or its path. -/
def asksForMemory (n : DatabaseName) : Bool :=
  n.mode = .memory || n.path = bytes ":memory:".toList

/-- Whether the database lasts no longer than a run. -/
def isTemporary (n : DatabaseName) : Bool :=
  n.path = [] || n.asksForMemory || n.access = .memory

/-- Whether a path of two bytes or more starts with a slash or a backslash. -/
def isRooted (path : Bytes) : Bool :=
  1 < path.length && (path.head? = some slash || path.head? = some 0x5C)

/-- Whether the connections of a run have a temporary database in common: one that they share, or one
that is accessed in memory under a rooted path. -/
def isCommon (n : DatabaseName) : Bool :=
  n.path ≠ [] &&
    (n.isShared || (n.mode ≠ .memory && n.access = .memory && isRooted n.path))

/-- Whether the database cannot be changed. -/
def isProtected (n : DatabaseName) : Bool :=
  n.mode = .reading || (n.isFixed && !n.asksForMemory)

end DatabaseName

end Footage.Disk
