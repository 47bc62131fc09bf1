import Footage.Binary64
import Footage.Text.Numeral

/-!
Doubles read from text. A numeral has an optional sign, digits with at most one point among or
around them, and an optional exponent; it reads as the nearest double. The names of infinity and of
the undefined number are taken in any case.
-/

namespace Footage.Binary64

/-- The double nearest to `± digits · 10 ^ exponent`. Beyond the two early limits the result is
infinity or zero whatever the digits are. -/
def ofDecimal (negative : Bool) (digits : Nat) (exponent : Int) : Binary64 :=
  let size : Int := (Nat.toDigits 10 digits).length
  if digits = 0 ∨ size + exponent < -400 then signedZero negative
  else if 400 < exponent then signedInfinity negative
  else if 0 ≤ exponent then ofRatio negative (digits * Nat.pow 10 exponent.toNat) 1
  else ofRatio negative digits (Nat.pow 10 exponent.natAbs)

/-- Reads digits, point and exponent, without a sign and up to the end. -/
def readUnsigned? (negative : Bool) (cs : List Char) : Option Binary64 :=
  let whole := cs.takeWhile Char.isDigit
  let rest := cs.dropWhile Char.isDigit
  let (fraction, rest) :=
    match rest with
    | '.' :: more => (more.takeWhile Char.isDigit, more.dropWhile Char.isDigit)
    | _ => ([], rest)
  let digits := whole ++ fraction
  let number (exponent : Int) : Binary64 :=
    ofDecimal negative (Numeral.value digits) (exponent - fraction.length)
  if digits.isEmpty then none
  else
    match rest with
    | [] => some (number 0)
    | c :: more =>
      if c = 'e' ∨ c = 'E' then (Numeral.readInteger? more).map number else none

def read? (text : List Char) : Option Binary64 :=
  let (negative, body) : Bool × List Char :=
    match text with
    | '-' :: rest => (true, rest)
    | '+' :: rest => (false, rest)
    | _ => (false, text)
  let lower := String.ofList (body.map Char.toLower)
  if lower = "inf" ∨ lower = "infinity" then
    some (signedInfinity negative)
  else if lower = "nan" then some .nan
  else readUnsigned? negative body

end Footage.Binary64
