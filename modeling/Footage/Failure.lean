import Footage.Error
import Footage.Text.Quoted

/-!
How a command fails, and the account that is given of it.
-/

namespace Footage

inductive Failure where
  | unknownCamera (identifier : String)
  | noCameras
  | unknownRecording (id : Int)
  | error (e : Error)
  deriving DecidableEq, Repr

/-- An error by its kind, with what it is about in quotes where that can be told in a line. -/
def Error.account (e : Error) : String :=
  let about (text : String) : String := e.kind ++ "(" ++ Text.quoted text ++ ")"
  match e with
  | .notFound what => about what.text
  | .invalidArgument argument => about argument.text
  | .config fault => fault.text?.elim e.kind about
  | _ => e.kind

def Failure.account : Failure → String
  | .unknownCamera identifier => Text.quoted ("Camera " ++ identifier ++ " not found")
  | .noCameras => Text.quoted "No cameras found"
  | .unknownRecording id => Text.quoted ("Recording " ++ Numeral.integer id ++ " not found")
  | .error e => e.account

end Footage
