import Footage.Command
import Footage.Config
import Footage.Failure
import Footage.Json.Printer
import Footage.Record.Encoding

/-!
Carrying out commands on a store. What a command shows is a JSON value over several lines.
-/

namespace Footage

open Json (Value)

/-- The cameras that a command is for: one that is registered, or all there are. -/
def Config.select (config : Config) : Option String → Except Failure (List String)
  | some identifier =>
    if (config.camera? identifier).isSome then .ok [identifier]
    else .error (.unknownCamera identifier)
  | none => if config.cameras.isEmpty then .error .noCameras else .ok config.identifiers

namespace Command

def shown (v : Value) : String := v.lines ++ "\n"

/-- Shows an answer for each of the selected cameras. -/
def showCameras (config : Config) (camera : Option String) (answer : String → Except Error α)
    (encode : α → Value) : Except Failure String := do
  let cameras ← config.select camera
  let answers ← (Store.forCameras cameras answer).mapError .error
  return shown (encodeByName encode answers)

def showFragments (config : Config) (s : Store) (id : Int) (lookback : Option Nat) (now : Time) :
    Except Failure String := do
  match ← (s.recording? id).mapError .error with
  | none => .error (.unknownRecording id)
  | some r =>
    let fragments ← (s.fragmentsOf r (lookback.getD config.lookback) now).mapError .error
    return shown (.list (fragments.map (Fragment.summary config.tiers)))

def showDeletion (config : Config) (s : Store) (camera : String) (scope : Scope)
    (lookback : Option Nat) (now : Time) : Except Failure String × Store :=
  match config.select (some camera) with
  | .error f => (.error f, s)
  | .ok _ =>
    let (result, s) := s.deleteRecordings camera scope (lookback.getD config.lookback) now
    ((result.mapError .error).map fun report => shown report.encode, s)

/-- What a command shows, or how it fails, and the store that it leaves. -/
def perform (config : Config) (now : Time) (s : Store) : Command → Except Failure String × Store
  | .init => (.ok ("Database ready: " ++ config.database ++ "\n"), s)
  | .list camera date =>
    (showCameras config camera (s.recordingsOf · date) fun rs => .list (rs.map Recording.encode), s)
  | .latest camera date =>
    (showCameras config camera (s.latestOf · date) (.ofOption Recording.encode), s)
  | .daily camera => (showCameras config camera s.latestByDate encodeByDate, s)
  | .delete camera scope lookback => showDeletion config s camera scope lookback now
  | .fragments recording lookback => (showFragments config s recording lookback now, s)

end Command

end Footage
