import Footage.Calendar.Date
import Footage.Scope

/-!
What a user can ask for on the command line.
-/

namespace Footage

inductive Command where
  /-- Sets up the database. -/
  | init
  /-- Lists the recordings of one camera or of all, of a date if one is given. -/
  | list (camera : Option String) (date : Option Date)
  /-- Shows the latest recording of one camera or of each, of a date if one is given. -/
  | latest (camera : Option String) (date : Option Date)
  /-- Shows the latest recording of every date. -/
  | daily (camera : Option String)
  | delete (camera : String) (scope : Scope) (lookback : Option Nat)
  /-- Shows the fragments of a recording. -/
  | fragments (recording : Int) (lookback : Option Nat)
  deriving DecidableEq, Repr

/-- A command and the path of the settings that it is run with. -/
structure Invocation where
  settings : String
  command : Command
  deriving DecidableEq, Repr

end Footage
