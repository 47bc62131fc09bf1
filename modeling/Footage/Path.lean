import Footage.Text.Pieces

/-!
Paths as sequences of components. Slashes separate; empty pieces and dots mean nothing, apart from a
slash in front, which is the root, and a dot in front of a relative path.
-/

namespace Footage.Path

inductive Component where
  | root
  | current
  | parent
  | name (text : List Char)
  deriving DecidableEq, Repr

def pieces (path : List Char) : List (List Char) := Text.pieces '/' path

/-- The component that a piece after the first stands for. -/
def component? (piece : List Char) : Option Component :=
  if piece = [] ∨ piece = ['.'] then none
  else if piece = ['.', '.'] then some .parent
  else some (.name piece)

/-- The component that the first piece stands for: an empty one before a slash is the root. -/
def firstComponent? (piece : List Char) (isLast : Bool) : Option Component :=
  if piece = [] then (if isLast then none else some .root)
  else if piece = ['.'] then some .current
  else component? piece

def components (path : List Char) : List Component :=
  match pieces path with
  | [] => []
  | p :: ps => (firstComponent? p ps.isEmpty).toList ++ ps.filterMap component?

/-- The name in the last place. -/
def filename? (path : List Char) : Option (List Char) :=
  match (components path).getLast? with
  | some (.name text) => some text
  | _ => none

/-- The pieces up to the last that stands for a component. -/
def dropEmptyEnd (ps : List (List Char)) : List (List Char) :=
  (ps.reverse.dropWhile fun p => (component? p).isNone).reverse

/-- The text of the path before its last component. -/
def directory (path : List Char) : List Char :=
  match pieces path with
  | [] => []
  | p :: ps =>
    let before := dropEmptyEnd ps
    if before.isEmpty then []
    else
      let above := dropEmptyEnd before.dropLast
      if above.isEmpty then (if p = [] then ['/'] else p)
      else ['/'].intercalate (p :: above)

/-- Whether the components of `root` begin those of `path`. -/
def startsWith (path root : List Char) : Bool := (components root).isPrefixOf (components path)

end Footage.Path
