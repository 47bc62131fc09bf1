import Footage.Json.Value
import Footage.Text.Numeral

/-!
Reading numbers. Digits are collected into a significand of 64 bits; those that no longer fit are
dropped. A number with a fraction or an exponent is the double of the significand, multiplied or
divided by a power of ten that is itself rounded to a double, so it may miss the nearest double of
the text. A number beyond the greatest double is refused.
-/

namespace Footage.Json.Number

def greatestSignificand : Nat := 0xFFFFFFFFFFFFFFFF

/-- A significand, the power of ten it is scaled by, and whether it takes further digits. -/
structure Scaled where
  significand : Nat
  exponent : Int
  accepting : Bool

/-- Takes a digit of the integer part; a digit that is dropped raises the exponent. -/
def Scaled.pushWhole (s : Scaled) (c : Char) : Scaled :=
  let next := s.significand * 10 + Numeral.value [c]
  if s.accepting && next ≤ greatestSignificand then { s with significand := next }
  else { s with exponent := s.exponent + 1, accepting := false }

/-- Takes a digit of the fraction; a digit that is dropped changes nothing. -/
def Scaled.pushFraction (s : Scaled) (c : Char) : Scaled :=
  let next := s.significand * 10 + Numeral.value [c]
  if s.accepting && next ≤ greatestSignificand then
    { s with significand := next, exponent := s.exponent - 1 }
  else { s with accepting := false }

/-- The greatest power of ten that is a double's magnitude. -/
def greatestPower : Nat := 308

def power (n : Nat) : Nat := (Binary64.nearest (Nat.pow 10 n * Binary64.unitsOfOne) 1).val

/-- Scales a rank by a power of ten, in steps of the greatest power downwards. Three steps reach zero
from any significand. -/
def scale? : (steps : Nat) → (rank : Nat) → (exponent : Int) → Option Nat
  | 0, rank, _ => some rank
  | steps + 1, rank, exponent =>
    if exponent.natAbs ≤ greatestPower then
      if 0 ≤ exponent then
        let scaled := (Binary64.product rank (power exponent.natAbs)).val
        if scaled = Binary64.infinityRank then none else some scaled
      else some (Binary64.quotient rank (power exponent.natAbs)).val
    else if rank = 0 then some 0
    else if 0 ≤ exponent then none
    else scale? steps (Binary64.quotient rank (power greatestPower)).val (exponent + greatestPower)

def ofRank (negative : Bool) (rank : Nat) : Number :=
  .real (.number negative ⟨min rank Binary64.infinityRank, Nat.lt_succ_of_le (Nat.min_le_right _ _)⟩)

def ofScaled? (negative : Bool) (s : Scaled) : Option Number :=
  (scale? 4 (Binary64.nearest (s.significand * Binary64.unitsOfOne) 1).val s.exponent).map
    (ofRank negative)

/-- A number without fraction and exponent. Zero with a sign is a double. -/
def ofWhole? (negative : Bool) (s : Scaled) : Option Number :=
  if s.exponent ≠ 0 then ofScaled? negative s
  else if !negative then some (.integer s.significand)
  else if s.significand = 0 ∨ 0x8000000000000000 < s.significand then ofScaled? true s
  else some (.integer (-(s.significand : Int)))

/-- An exponent of more than 31 bits scales to zero or out of all bounds. -/
def withExponent? (negative : Bool) (s : Scaled) (exponentNegative : Bool) (exponent : Nat) :
    Option Number :=
  if 0x80000000 ≤ exponent then
    if s.significand ≠ 0 && !exponentNegative then none else some (ofRank negative 0)
  else
    let shift : Int := if exponentNegative then -(exponent : Int) else exponent
    ofScaled? negative { s with exponent := s.exponent + shift }

/-! ### The grammar of numbers -/

def splitDigits (cs : List Char) : List Char × List Char :=
  (cs.takeWhile Char.isDigit, cs.dropWhile Char.isDigit)

def readExponent? (negative : Bool) (s : Scaled) (cs : List Char) : Option (Number × List Char) :=
  let (exponentNegative, cs) : Bool × List Char :=
    match cs with
    | '+' :: rest => (false, rest)
    | '-' :: rest => (true, rest)
    | _ => (false, cs)
  let (digits, rest) := splitDigits cs
  if digits.isEmpty then none
  else (withExponent? negative s exponentNegative (Numeral.value digits)).map fun n => (n, rest)

def readFraction? (negative : Bool) (s : Scaled) (cs : List Char) : Option (Number × List Char) :=
  let (digits, rest) := splitDigits cs
  if digits.isEmpty then none
  else
    let s := digits.foldl Scaled.pushFraction { s with accepting := true }
    match rest with
    | 'e' :: more => readExponent? negative s more
    | 'E' :: more => readExponent? negative s more
    | _ => (ofScaled? negative s).map fun n => (n, rest)

/-- Reads a number without its sign. More than one digit may not start with zero. -/
def readUnsigned? (negative : Bool) (cs : List Char) : Option (Number × List Char) :=
  let (digits, rest) := splitDigits cs
  if digits.isEmpty ∨ (digits.head? = some '0' ∧ digits.length ≠ 1) then none
  else
    let s := digits.foldl Scaled.pushWhole ⟨0, 0, true⟩
    match rest with
    | '.' :: more => readFraction? negative s more
    | 'e' :: more => readExponent? negative s more
    | 'E' :: more => readExponent? negative s more
    | _ => (ofWhole? negative s).map fun n => (n, rest)

def read? : List Char → Option (Number × List Char)
  | '-' :: rest => readUnsigned? true rest
  | cs => readUnsigned? false cs

end Footage.Json.Number
