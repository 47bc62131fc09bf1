import Footage.Program
import Footage.Store.Snapshot
import Std.Time.DateTime.Timestamp

/-!
The command line: looks up what a run needs of the disk, runs the program, writes the database back
and prints.
-/

namespace Footage.Main

open Disk (Place Entry)

/-- What is found at a path. What can be opened and not read is a directory. -/
def look (path : String) : IO (Option Entry) := do
  try discard (IO.FS.Handle.mk path .read)
  catch _ => return none
  try
    let some text := String.fromUTF8? (← IO.FS.readBinFile path) | return some .unknown
    match Store.ofSnapshot? text with
    | some store => return some (.database ⟨store, true⟩)
    | none => return some (.text text)
  catch _ => return some .directory

/-- The text of a path to a place. -/
def pathText? (p : Place) : Option String := String.fromUTF8? ⟨p.path.toArray⟩

/-- What is found at the places that a path leads through. -/
def survey (d : Disk) (path : Text.Bytes) : IO (List (Place × Entry)) :=
  (Disk.passed (d.start path) (Disk.pieces path)).filterMapM fun p => do
    if p = .root then return none
    let some text := pathText? p | return none
    return (← look text).map fun e => (p, e)

/-- The disk as far as the settings that the arguments lead to and the database that these name. -/
def gather (args : List String) : IO Disk := do
  let working := (← IO.currentDir).toString
  let empty : Disk := ⟨.ofPath (Text.bytes working.toList), []⟩
  let .run invocation := Command.Request.of args | return empty
  let disk := { empty with entries := ← survey empty (Text.bytes invocation.settings.toList) }
  let .ok config := Program.settings disk invocation.settings | return disk
  let some name := Disk.DatabaseName.read? config.database | return disk
  let paths := name.path :: name.model?.toList
  return { disk with entries := disk.entries ++ (← paths.flatMapM (survey disk)) }

/-- Writes the databases that a run has changed. -/
def writeBack (before after : Disk) : IO Unit := do
  for (p, e) in after.entries do
    if before.lookup? p ≠ some e then
      if let (.database db, some path) := (e, pathText? p) then
        IO.FS.writeFile path db.store.snapshot

def now : IO Time := do
  let seconds := (← Std.Time.Timestamp.now).toSecondsSinceUnixEpoch.val
  match Time.ofSeconds? seconds with
  | some t => return t
  | none => throw (IO.userError "the clock is out of range")

def report (outcome : Outcome) : IO Unit := do
  IO.print outcome.output
  match outcome.failure with
  | some failure => IO.eprintln ("Error: " ++ failure.account)
  | none => if outcome.code ≠ 0 then IO.eprint Program.helpText

end Footage.Main

open Footage in
def main (args : List String) : IO UInt32 := do
  let before ← Main.gather args
  let (outcome, after) := Program.run before (← Main.now) args
  Main.writeBack before after
  Main.report outcome
  return outcome.code.toUInt32
