import Footage.Placement

/-!
Storage tiers: what a file's tier is called, and whether the file lies where its tier keeps files.
-/

namespace Footage

structure Tier where
  id : Int
  name : String
  /-- The directory under which the tier's files lie. -/
  path : String
  deriving DecidableEq, Repr

namespace Tier

/-- The tier that a placement names. -/
def of? (tiers : List Tier) (placement : Placement) : Option Tier :=
  tiers.find? fun tier => tier.id = placement.tier

/-- Whether a path lies under the directory of its own tier. -/
def contains (tiers : List Tier) (placement : Placement) : Bool :=
  match of? tiers placement with
  | none => false
  | some tier => Path.startsWith placement.path.toList tier.path.toList

end Tier

end Footage
