import Footage.Binary64
import Footage.Text.Numeral

/-!
The shortest decimal that reads back as a given double, and the two ways of writing it: with the
point in its place, or with an exponent.
-/

namespace Footage

/-- The number `digits · 10 ^ exponent`. -/
structure Decimal where
  digits : Nat
  exponent : Int
  deriving DecidableEq, Repr

/-- Which of two equally near neighbours is taken. -/
inductive Tie where
  | toEven
  | up
  deriving DecidableEq, Repr

namespace Decimal

/-- The exponent of the leading digit. -/
def leadingExponent (d : Decimal) : Int :=
  (Nat.toDigits 10 d.digits).length + d.exponent - 1

/-- Digits with the point in its place, and none when there is no fraction. -/
def positional (d : Decimal) : List Char :=
  let digits := Nat.toDigits 10 d.digits
  if 0 ≤ d.exponent then digits ++ List.replicate d.exponent.toNat '0'
  else
    let places := d.exponent.natAbs
    let padding := List.replicate (places + 1 - digits.length) '0'
    let all := padding ++ digits
    all.take (all.length - places) ++ '.' :: all.drop (all.length - places)

/-- One digit, the others after a point, and a signed exponent. -/
def scientific (d : Decimal) : List Char :=
  let exponent := d.leadingExponent
  let mark := if exponent < 0 then "e-".toList else "e+".toList
  let tail := mark ++ Nat.toDigits 10 exponent.natAbs
  match Nat.toDigits 10 d.digits with
  | [] => tail
  | [c] => c :: tail
  | c :: rest => c :: '.' :: rest ++ tail

end Decimal

namespace Binary64

/-- The two decimals of exponent `exponent` next to a rank, as far as they round to it; of two the
nearer. -/
def onGrid? (tie : Tie) (rank : Nat) (exponent : Int) : Option Decimal :=
  -- Everything is counted in halves of a unit, times the denominator of the grid.
  let scale := if 0 ≤ exponent then 1 else Nat.pow 10 exponent.natAbs
  let step := (if 0 ≤ exponent then Nat.pow 10 exponent.toNat else 1) * (2 * unitsOfOne)
  let target := 2 * units rank * scale
  let low := (units rank + units (rank - 1)) * scale
  let high := (units rank + units (rank + 1)) * scale
  let reads (n : Nat) : Bool :=
    if rank % 2 = 0 then low ≤ n * step && n * step ≤ high
    else low < n * step && n * step < high
  let below := target / step
  let above := below + 1
  let nearerAbove : Bool :=
    let excess := 2 * (target % step)
    step < excess || (excess = step && (tie = .up || below % 2 = 1))
  if reads below && below ≠ 0 then
    if reads above && nearerAbove then some ⟨above, exponent⟩ else some ⟨below, exponent⟩
  else if reads above then some ⟨above, exponent⟩
  else none

/-- The first of `steps` grids, from `10 ^ exponent` downwards, that holds a decimal of the rank. -/
def searchGrids (tie : Tie) (rank : Nat) : (steps : Nat) → (exponent : Int) → Decimal
  | 0, exponent => ⟨0, exponent⟩
  | steps + 1, exponent =>
    match onGrid? tie rank exponent with
    | some d => d
    | none => searchGrids tie rank steps (exponent - 1)

/-- The decimal with the fewest digits among those that round to a rank, and the nearest of those.
A rank of `b` bits is below `2 ^ (b - 1074)`, which is below ten to the power the search starts
from. -/
def shortest (tie : Tie) (rank : Nat) : Decimal :=
  if rank = 0 then ⟨0, 0⟩
  else
    let bits : Int := (units rank).log2 + 1
    searchGrids tie rank 24 ((bits - 1074) * 30103 / 100000 + 2)

end Binary64

end Footage
