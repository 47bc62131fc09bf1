import Footage.Error
import Footage.Path

/-!
Where a file lives: its tier and full path, and the directory and filename that the path splits into.
-/

namespace Footage

structure Placement where
  tier : Int
  path : String
  directory : String
  filename : String
  deriving DecidableEq, Repr

/-- The placement of a path whose last component is a name. -/
def Placement.ofPath (tier : Int) (path : String) : Except Error Placement :=
  match Path.filename? path.toList with
  | none => .error (.invalidArgument (.noFilename path))
  | some filename =>
    .ok {
      tier
      path
      directory := String.ofList (Path.directory path.toList)
      filename := String.ofList filename }

end Footage
