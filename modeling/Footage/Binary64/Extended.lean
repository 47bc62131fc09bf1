import Footage.Binary64.Shortest

/-!
Numbers with a significand of 64 bits. The store scales decimals in them, step by step, on the way to
a double and back, so that what it reads or writes can miss the nearest number by a little.
-/

namespace Footage

/-- The number `significand · 2 ^ exponent`. -/
structure Extended where
  significand : Nat
  exponent : Int
  deriving DecidableEq, Repr

namespace Extended

/-- How many bits a significand has. -/
def width : Nat := 64

/-- The nearest number to `significand · 2 ^ exponent`; of two equally near the even one. -/
def round (significand : Nat) (exponent : Int) : Extended :=
  let excess := significand.log2 + 1 - width
  let step := Nat.pow 2 excess
  let quotient := significand / step
  let rest := 2 * (significand % step)
  let rounded :=
    if step < rest ∨ (rest = step ∧ quotient % 2 = 1) then quotient + 1 else quotient
  ⟨rounded, exponent + excess⟩

def ofNat (n : Nat) : Extended := round n 0

/-- The nearest number to `1 / den`. The quotient has more bits than a significand, and its last one
stands for a remainder. -/
def reciprocal (den : Nat) : Extended :=
  let shift := width + 2 + den.log2
  let num := Nat.pow 2 shift
  round (2 * (num / den) + (if num % den = 0 then 0 else 1)) (-(shift + 1 : Int))

/-- The nearest number to a power of ten. -/
def power (n : Int) : Extended :=
  if 0 ≤ n then ofNat (Nat.pow 10 n.toNat) else reciprocal (Nat.pow 10 n.natAbs)

def mul (x y : Extended) : Extended :=
  round (x.significand * y.significand) (x.exponent + y.exponent)

/-- Multiplies by a power of ten: first by hundredth powers, then by tenth powers, then by tens. -/
def scale (x : Extended) (n : Int) : Extended :=
  let k := n.natAbs
  let steps : List Int :=
    List.replicate (k / 100) 100 ++ List.replicate (k % 100 / 10) 10 ++ List.replicate (k % 10) 1
  steps.foldl (fun x step => x.mul (power (if n < 0 then -step else step))) x

/-- Numerator and denominator. -/
def ratio (x : Extended) : Nat × Nat :=
  if 0 ≤ x.exponent then (x.significand * Nat.pow 2 x.exponent.toNat, 1)
  else (x.significand, Nat.pow 2 x.exponent.natAbs)

def lt (x y : Extended) : Bool := x.ratio.1 * y.ratio.2 < y.ratio.1 * x.ratio.2

def floor (x : Extended) : Nat := x.ratio.1 / x.ratio.2

/-! ### Doubles -/

/-- The magnitude of a rank. -/
def ofRank (rank : Nat) : Extended := ⟨Binary64.units rank, -1074⟩

/-- The nearest double; a number above the greatest double is infinite. -/
def toBinary64 (negative : Bool) (x : Extended) : Binary64 :=
  if (ofRank (Binary64.infinityRank - 1)).lt x then Binary64.signedInfinity negative
  else Binary64.ofRatio negative x.ratio.1 x.ratio.2

/-! ### Leading digits -/

/-- Divides by a power of ten as long as the number is not below a limit, and counts. -/
def lower (step limit : Int) : (fuel : Nat) → Extended × Int → Extended × Int
  | 0, p => p
  | fuel + 1, (x, e) =>
    if x.lt (power limit) then (x, e)
    else lower step limit fuel (x.mul (power (-step)), e + step)

/-- Multiplies by a power of ten as long as the number is below a limit, and counts. -/
def raise (step limit : Int) : (fuel : Nat) → Extended × Int → Extended × Int
  | 0, p => p
  | fuel + 1, (x, e) =>
    if x.lt (power limit) then raise step limit fuel (x.mul (power step), e - step) else (x, e)

/-- The first eighteen or nineteen digits of a number. No loop takes more than eleven steps. -/
def leading (x : Extended) : Decimal :=
  let fuel := 12
  let (y, e) :=
    if x.lt (power 19) then raise 1 17 fuel (raise 10 7 fuel (raise 100 (-97) fuel (x, 0)))
    else lower 1 19 fuel (lower 10 29 fuel (lower 100 119 fuel (x, 0)))
  ⟨y.floor, e⟩

end Extended

end Footage
