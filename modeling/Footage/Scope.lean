import Footage.Error

/-!
Which recordings of a camera a deletion is for.
-/

namespace Footage

inductive Scope where
  | camera
  | date (d : Date)
  /-- The recordings of a date that go by one filename. -/
  | recording (d : Date) (filename : String)
  deriving DecidableEq, Repr

/-- The scope that an optional date and an optional filename describe. -/
def Scope.ofParts : Option Date → Option String → Except Error Scope
  | none, none => .ok .camera
  | some d, none => .ok (.date d)
  | some d, some filename => .ok (.recording d filename)
  | none, some filename => .error (.invalidArgument (.filenameWithoutDate filename))

/-- Whether the scope asks for one recording, which then has to be there. -/
def Scope.isByName : Scope → Bool
  | .recording _ _ => true
  | _ => false

end Footage
