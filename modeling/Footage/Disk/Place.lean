import Footage.Text.Bytes
import Footage.Text.Pieces

/-!
Places on a disk, as paths lead to them. A path is a sequence of pieces between slashes: empty pieces
and single dots stay where they are, two dots go up, and any other piece is a name.
-/

namespace Footage.Disk

open Text (Bytes)

inductive Place where
  | root
  | within (directory : Place) (name : Bytes)
  deriving DecidableEq, Repr

def slash : UInt8 := 0x2F
def dot : UInt8 := 0x2E

/-- Whether a piece of a path is a name. -/
def isName (piece : Bytes) : Bool := piece ≠ [] && piece ≠ [dot] && piece ≠ [dot, dot]

def pieces (path : Bytes) : List Bytes := Text.pieces slash path

namespace Place

/-- The root has nothing above it. -/
def up : Place → Place
  | .root => .root
  | .within directory _ => directory

/-- Where a piece of a path leads from a place. -/
def enter (p : Place) (piece : Bytes) : Place :=
  if isName piece then .within p piece
  else if piece = [dot, dot] then p.up
  else p

/-- Where a path leads that starts from the root. -/
def ofPath (path : Bytes) : Place := (pieces path).foldl enter .root

/-- The path from the root to a place, without a slash at its end. -/
def path : Place → Bytes
  | .root => []
  | .within directory name => directory.path ++ slash :: name

/-- A place and those above it. -/
def upwards : Place → List Place
  | .root => [.root]
  | .within directory name => .within directory name :: directory.upwards

end Place

/-- The places that pieces lead through, from the first place to the last. -/
def passed (p : Place) : List Bytes → List Place
  | [] => [p]
  | piece :: rest => p :: passed (p.enter piece) rest

end Footage.Disk
