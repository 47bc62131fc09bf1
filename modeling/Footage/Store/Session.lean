import Footage.Store.Deletion

/-!
A session: a store and the two connections over which it is used by turns. When a table has no id left
for a row of a transaction, or a trigger rolls back, the store itself ends the transaction. The
connection does not hear of it and begins no other one, while single statements go on over it as
before.
-/

namespace Footage

/-- Whether a scope has no filename, or one that tells a start. -/
def Scope.isReadable : Scope → Bool
  | .recording _ filename => (startOfFilename filename).isOk
  | _ => true

structure Session where
  store : Store
  /-- The connection whose turn it is begins no transaction. -/
  isStuck : Bool
  /-- The other connection begins none. -/
  isOtherStuck : Bool
  deriving DecidableEq, Repr

namespace Session

def ofStore (s : Store) : Session := ⟨s, false, false⟩

/-- The session after one use. -/
def turn (x : Session) : Session := ⟨x.store, x.isOtherStuck, x.isStuck⟩

/-- The session after some uses. -/
def turns (x : Session) : Nat → Session
  | 0 => x
  | n + 1 => x.turn.turns n

@[simp] theorem store_turns (x : Session) (n : Nat) : (x.turns n).store = x.store := by
  induction n generalizing x with
  | zero => rfl
  | succ n ih => exact ih x.turn

/-- Reads the store by some statements. -/
def read (x : Session) (uses : Nat) (act : Store → Except Error α) : Except Error α × Session :=
  (act x.store, x.turns uses)

/-- Changes the store outside of any transaction. -/
def change (x : Session) (act : Store → Except Error (α × Store)) : Except Error α × Session :=
  match act x.store with
  | .ok (a, s) => (.ok a, { x.turn with store := s })
  | .error e => (.error e, x.turn)

/-- Changes the store in a transaction. -/
def transact (x : Session) (act : Store → Except Error (α × Store)) : Except Error α × Session :=
  if x.isStuck then (.error (.store .unavailable), x.turn)
  else
    match act x.store with
    | .ok (a, s) => (.ok a, { x.turn with store := s })
    | .error e => (.error e, { x.turn with isOtherStuck := e.endsTransaction })

/-- Adds a file and its metadata. Paths that differ are refused before a transaction is begun. -/
def insertFragment (x : Session) (file : NewFile) (metadata : NewMeta) (now : Time) :
    Except Error (Int × Int) × Session :=
  if file.placement.path = metadata.path then x.transact (·.insertFragment file metadata now)
  else (.error (.integrityViolation (.pathsDiffer file.placement.path metadata.path)), x)

def deleteRecording (x : Session) (id : Int) (lookback : Nat) (now : Time) :
    Except Error Deletion × Session :=
  x.transact (·.deleteRecording id lookback now)

/-- Deletes the recordings of a camera that a scope selects, each in a transaction. A filename that
is none is refused before the store is asked for recordings. -/
def deleteRecordings (x : Session) (camera : String) (scope : Scope) (lookback : Nat) (now : Time) :
    Except Error DeletionReport × Session :=
  match x.store.targets camera scope with
  | .error e => (.error e, if scope.isReadable then x.turn else x)
  | .ok found =>
    let (deleted, x) := Store.deleteEach (fun id x => x.deleteRecording id lookback now)
      scope.isByName (found.map (·.id)) x.turn
    (deleted.map DeletionReport.mk, x)

end Session

end Footage
