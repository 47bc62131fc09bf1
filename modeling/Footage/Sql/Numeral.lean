import Footage.Binary64.Extended
import Footage.Sql.Value

/-!
Numbers in texts, and the text of a double. A numeral is digits with at most one point among or
around them, an optional sign and exponent, and blanks around it. Of its digits as many count as an
integer of 64 bits takes; what they stand for is scaled in numbers of 64 bits.
-/

namespace Footage.Sql

/-- What a text starts with when it is taken for a numeral. -/
structure NumericPrefix where
  negative : Bool
  whole : List Char
  /-- The digits after a point. -/
  fraction : Option (List Char)
  /-- Whether an exponent is negative, and its digits. -/
  exponent : Option (Bool × List Char)
  rest : List Char
  deriving DecidableEq, Repr

/-- Splits a sign off. -/
def splitSign : List Char → Bool × List Char
  | '-' :: cs => (true, cs)
  | '+' :: cs => (false, cs)
  | cs => (false, cs)

def splitDigits (cs : List Char) : List Char × List Char :=
  (cs.takeWhile Char.isDigit, cs.dropWhile Char.isDigit)

namespace NumericPrefix

def of (cs : List Char) : NumericPrefix :=
  let (negative, cs) := splitSign (cs.dropWhile Value.isSpace)
  let (whole, cs) := splitDigits cs
  let (fraction, cs) : Option (List Char) × List Char :=
    match cs with
    | '.' :: more => (some (splitDigits more).1, (splitDigits more).2)
    | _ => (none, cs)
  let (exponent, cs) : Option (Bool × List Char) × List Char :=
    match cs with
    | c :: more =>
      if c = 'e' ∨ c = 'E' then
        let (negative, more) := splitSign more
        (some (negative, (splitDigits more).1), (splitDigits more).2)
      else (none, cs)
    | [] => (none, [])
  ⟨negative, whole, fraction, exponent, cs.dropWhile Value.isSpace⟩

def hasDigits (p : NumericPrefix) : Bool := !(p.whole ++ p.fraction.getD []).isEmpty

/-- An exponent needs digits. -/
def hasValidExponent (p : NumericPrefix) : Bool := p.exponent.all fun e => !e.2.isEmpty

/-- Whether the whole text is a numeral. -/
def isNumeral (p : NumericPrefix) : Bool := p.rest.isEmpty && p.hasDigits && p.hasValidExponent

/-- Whether there is neither a point nor an exponent. -/
def isWhole (p : NumericPrefix) : Bool := p.fraction.isNone && p.exponent.isNone

/-- Whether the number in front is a double, whatever follows it. -/
def isReal (p : NumericPrefix) : Bool :=
  p.hasDigits && (p.fraction.isSome || (p.exponent.isSome && p.hasValidExponent))

/-! ### The number -/

/-- A significand that has reached this takes no further digit. -/
def significandLimit : Nat := 1844674407370955160

/-- Takes a digit before the point; one that is left out raises the exponent. -/
def pushWhole (s : Nat × Int) (c : Char) : Nat × Int :=
  if s.1 < significandLimit then (s.1 * 10 + Numeral.value [c], s.2) else (s.1, s.2 + 1)

/-- Takes a digit after the point; one that is left out changes nothing. -/
def pushFraction (s : Nat × Int) (c : Char) : Nat × Int :=
  if s.1 < significandLimit then (s.1 * 10 + Numeral.value [c], s.2 - 1) else s

/-- An exponent of more than four digits counts as 10000, once it has taken the fifth. -/
def exponentValue (digits : List Char) : Nat :=
  digits.foldl (fun e c => if e < 10000 then e * 10 + Numeral.value [c] else 10000) 0

/-- Moves an exponent into the significand while there is room. -/
def absorb : (fuel : Nat) → Nat × Int → Nat × Int
  | 0, p => p
  | fuel + 1, (s, e) =>
    if 0 < e ∧ s ≤ significandLimit then absorb fuel (s * 10, e - 1)
    else if e < 0 ∧ s % 10 = 0 then absorb fuel (s / 10, e + 1)
    else (s, e)

/-- The double that the numeral in front stands for. -/
def real (p : NumericPrefix) : Binary64 :=
  let (s, places) := (p.fraction.getD []).foldl pushFraction (p.whole.foldl pushWhole (0, 0))
  let written : Int :=
    match p.exponent with
    | none => 0
    | some (negative, digits) => if negative then -(exponentValue digits) else exponentValue digits
  if s = 0 then Binary64.signedZero p.negative
  else
    let (s, e) := absorb 20 (s, written + places)
    if e = 0 then Binary64.ofRatio p.negative s 1
    else ((Extended.ofNat s).scale e).toBinary64 p.negative

/-- The number of the digits before the point: an integer if it is one of 64 bits. -/
def integer (p : NumericPrefix) : Value :=
  let n : Int := if p.negative then -(Numeral.value p.whole) else Numeral.value p.whole
  if Numeral.fitsWord n then .integer n else .real p.real

end NumericPrefix

/-- The number that a text is the numeral of. -/
def number? (s : String) : Option Value :=
  let p := NumericPrefix.of s.toList
  if !p.isNumeral then none else if p.isWhole then some p.integer else some (.real p.real)

/-! ### Sums -/

/-- The number that a text starts with; zero if there is none. -/
def leadingNumber (s : String) : Value :=
  let p := NumericPrefix.of s.toList
  if p.isReal then .real p.real else p.integer

/-- Texts count as the numbers that they start with. -/
def Value.number : Value → Value
  | .text s => leadingNumber s
  | v => v

def Value.toReal : Value → Binary64
  | .integer n => .ofInt n
  | .real x => x
  | _ => .zero

/-- The sum of two numbers; it is a double where it is no integer of 64 bits. -/
def Value.sum (v w : Value) : Value :=
  match v.number, w.number with
  | .null, _ => .null
  | _, .null => .null
  | .integer a, .integer b =>
    if Numeral.fitsWord (a + b) then .integer (a + b)
    else .real ((Binary64.ofInt a).add (Binary64.ofInt b))
  | a, b => .real (a.toReal.add b.toReal)

/-! ### The text of a double -/

/-- How many digits of a double are written. -/
def writtenDigits : Nat := 15

/-- Rounds to so many digits, five upwards. -/
def roundedTo (count : Nat) (d : Decimal) : Decimal :=
  let excess := (Nat.toDigits 10 d.digits).length - count
  if excess = 0 then d
  else
    let kept := d.digits / Nat.pow 10 excess
    let next := d.digits / Nat.pow 10 (excess - 1) % 10
    ⟨if 5 ≤ next then kept + 1 else kept, d.exponent + excess⟩

/-- Takes zeros off the end. -/
def withoutZeros : (fuel : Nat) → Decimal → Decimal
  | 0, d => d
  | fuel + 1, d =>
    if d.digits % 10 = 0 then withoutZeros fuel ⟨d.digits / 10, d.exponent + 1⟩ else d

/-- A digit, a point, the other digits or a zero, and an exponent of two digits or more. -/
def scientificText (d : Decimal) : List Char :=
  let exponent := d.leadingExponent
  let mark := if exponent < 0 then "e-".toList else "e+".toList
  let size := Nat.toDigits 10 exponent.natAbs
  let tail := mark ++ List.replicate (2 - size.length) '0' ++ size
  match Nat.toDigits 10 d.digits with
  | [] => tail
  | [c] => c :: '.' :: '0' :: tail
  | c :: rest => c :: '.' :: rest ++ tail

def decimalText (d : Decimal) : List Char :=
  if d.leadingExponent < -4 ∨ writtenDigits ≤ d.leadingExponent then scientificText d
  else if 0 ≤ d.exponent then d.positional ++ ['.', '0']
  else d.positional

/-- The text of a double, which has a point in it. -/
def realText : Binary64 → String
  | .nan => "NaN"
  | .number negative rank =>
    let body : List Char :=
      if rank.val = 0 then "0.0".toList
      else if rank.val = Binary64.infinityRank then "Inf".toList
      else
        decimalText
          (withoutZeros writtenDigits (roundedTo writtenDigits (Extended.ofRank rank).leading))
    String.ofList (if negative ∧ rank.val ≠ 0 then '-' :: body else body)

end Footage.Sql
