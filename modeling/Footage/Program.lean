import Footage.Command.Arguments
import Footage.Command.Perform
import Footage.Disk.Databases

/-!
A run of the program: its arguments and the disk that it finds determine what it prints, how it ends
and the disk that it leaves.
-/

namespace Footage

/-- How a run ends: its exit code, what it prints, and the failure that it gives an account of. -/
structure Outcome where
  code : Nat
  output : String
  failure : Option Failure
  deriving DecidableEq, Repr

namespace Outcome

def success (output : String) : Outcome := ⟨0, output, none⟩

def failed (failure : Failure) : Outcome := ⟨1, "", some failure⟩

def misuse : Outcome := ⟨2, "", none⟩

def ofResult : Except Failure String → Outcome
  | .ok output => success output
  | .error failure => failed failure

end Outcome

namespace Program

def versionText : String := "camera_recordings 0.1.0\n"

def helpText : String :=
  "Usage: camera_recordings --config <CONFIG> <init|list|latest|delete|fragments>\n"

/-- The settings that a path leads to. -/
def settings (d : Disk) (path : String) : Except Error Config := do
  let text ← (d.readText path).mapError fun fault => .config (.unreadable path fault)
  (Config.read text).mapError .config

/-- Runs a command with its settings. -/
def runCommand (d : Disk) (now : Time) (invocation : Invocation) : Outcome × Disk :=
  match settings d invocation.settings with
  | .error e => (.failed (.error e), d)
  | .ok config =>
    match d.openDatabase config.database with
    | .error e => (.failed (.error e), d)
    | .ok opened =>
      let (result, s) := invocation.command.perform config now opened.database.store
      (.ofResult result, d.keep opened s)

/-- Runs the program at a time with some arguments. -/
def run (d : Disk) (now : Time) (args : List String) : Outcome × Disk :=
  match Command.Request.of args with
  | .misuse => (.misuse, d)
  | .help => (.success helpText, d)
  | .version => (.success versionText, d)
  | .run invocation => runCommand d now invocation

end Program

end Footage
