/-!
Double-precision numbers. The magnitudes that a double can have are numbered upwards from zero, so
a number is a sign and a rank: rank 0 is zero, rank 1 the least positive magnitude and
`infinityRank` infinity. Every finite magnitude is a whole number of units of 2⁻¹⁰⁷⁴, and
arithmetic is exact in units before it rounds.
-/

namespace Footage

/-- The rank of infinity. -/
def Binary64.infinityRank : Nat := 0x7FF0000000000000

inductive Binary64 where
  | nan
  | number (negative : Bool) (rank : Fin (Binary64.infinityRank + 1))
  deriving DecidableEq, Repr

namespace Binary64

/-- How many ranks lie between a power of two and the next: 2⁵². -/
def binadeSize : Nat := 0x10000000000000

/-- The magnitude of a rank in units. At the rank of infinity this is the magnitude that would
follow the greatest finite one, which is what rounding compares with. -/
def units (rank : Nat) : Nat :=
  if rank < binadeSize then rank
  else (binadeSize + rank % binadeSize) * Nat.pow 2 (rank / binadeSize - 1)

/-- The number one in units. -/
def unitsOfOne : Nat := Nat.pow 2 1074

/-- The rank nearest to `num / den` units; of two equally near ranks the even one. -/
def nearest (num den : Nat) : Fin (infinityRank + 1) :=
  let binade := (num / den).log2 - 52
  let step := den * Nat.pow 2 binade
  let quotient := num / step
  let excess := 2 * (num % step)
  let rounded :=
    if step < excess ∨ (excess = step ∧ quotient % 2 = 1) then quotient + 1 else quotient
  ⟨min (binade * binadeSize + rounded) infinityRank, Nat.lt_succ_of_le (Nat.min_le_right _ _)⟩

def signedZero (negative : Bool) : Binary64 := .number negative ⟨0, by decide⟩

def signedInfinity (negative : Bool) : Binary64 := .number negative ⟨infinityRank, by decide⟩

def zero : Binary64 := signedZero false

def infinity : Binary64 := signedInfinity false

instance : Inhabited Binary64 := ⟨zero⟩

def isFinite : Binary64 → Bool
  | .nan => false
  | .number _ r => r.val < infinityRank

/-- The signed number of units of a finite double. -/
def signedUnits : Binary64 → Int
  | .nan => 0
  | .number s r => if s then -(units r : Int) else units r

/-- Rounds a whole number of units; `zeroNegative` is the sign of a zero. -/
def ofUnits (zeroNegative : Bool) (n : Int) : Binary64 :=
  if n = 0 then signedZero zeroNegative else .number (n < 0) (nearest n.natAbs 1)

/-- The double nearest to an integer. -/
def ofInt (n : Int) : Binary64 := ofUnits false (n * unitsOfOne)

/-- The double nearest to `± num / den`. -/
def ofRatio (negative : Bool) (num den : Nat) : Binary64 :=
  .number negative (nearest (num * unitsOfOne) den)

/-! ### Arithmetic and order -/

/-- The rank nearest to the product of two finite magnitudes. -/
def product (a b : Nat) : Fin (infinityRank + 1) := nearest (units a * units b) unitsOfOne

/-- The rank nearest to the quotient of a finite magnitude by a positive one. -/
def quotient (a b : Nat) : Fin (infinityRank + 1) := nearest (units a * unitsOfOne) (units b)

def add : Binary64 → Binary64 → Binary64
  | .nan, _ => .nan
  | _, .nan => .nan
  | .number s a, .number t b =>
    if a.val = infinityRank then
      if b.val = infinityRank ∧ s ≠ t then .nan else .number s a
    else if b.val = infinityRank then .number t b
    else ofUnits (s && t) (signedUnits (.number s a) + signedUnits (.number t b))

/-- The position on the line of doubles; the two zeros share one. -/
def position : Binary64 → Option Int
  | .nan => none
  | .number s r => some (if s then -(r.val : Int) else r.val)

/-- A comparison with `nan` does not hold. -/
def le (x y : Binary64) : Bool :=
  match x.position, y.position with
  | some a, some b => a ≤ b
  | _, _ => false

/-- The least integer that is not below a double, held within the bounds given. -/
def ceilWithin (least greatest : Int) : Binary64 → Int
  | .nan => 0
  | .number s r =>
    if r.val = infinityRank then (if s then least else greatest)
    else max least (min greatest (-(-(signedUnits (.number s r)) / (unitsOfOne : Int))))

/-- The integer that a double is, if it is one. -/
def whole? (x : Binary64) : Option Int :=
  if x.isFinite ∧ x.signedUnits % unitsOfOne = 0 then some (x.signedUnits / unitsOfOne) else none

def neg : Binary64 → Binary64
  | .nan => .nan
  | .number s r => .number (!s) r

end Binary64

end Footage
