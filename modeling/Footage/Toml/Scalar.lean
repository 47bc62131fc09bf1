import Footage.Binary64.Reader
import Footage.Calendar.Date
import Footage.Toml.Value

/-!
Numbers, truth values and times of a TOML text. Each is a run of characters that can be told by
itself, but for a time that a blank parts from its date.
-/

namespace Footage.Toml.Reader

/-! ### Numbers -/

/-- Digits without the underscores between them; each of those has a digit on both sides. -/
def grouped? (isDigit : Char → Bool) : List Char → Option (List Char)
  | [] => none
  | [c] => if isDigit c then some [c] else none
  | c :: c' :: rest =>
    if !isDigit c then none
    else if c' = '_' then (grouped? isDigit rest).map (c :: ·)
    else (grouped? isDigit (c' :: rest)).map (c :: ·)

def dropSign : List Char → Bool × List Char
  | '-' :: rest => (true, rest)
  | '+' :: rest => (false, rest)
  | cs => (false, cs)

/-- The digits of a whole number, which has no zero in front. -/
def wholeDigits? (cs : List Char) : Option (List Char) :=
  (grouped? Char.isDigit cs).filter fun ds => ds = ['0'] || ds.head? ≠ some '0'

def readBased? (base : Nat) (cs : List Char) : Option Int := do
  let digits ← grouped? (fun c => (Numeral.digitValue? base c).isSome) cs
  return (← Numeral.valueIn? base digits : Nat)

/-- Reads an integer of at most 64 bits, decimal with an optional sign or in a base told in front. -/
def readInteger? (token : List Char) : Option Int :=
  let n : Option Int :=
    match token with
    | '0' :: 'x' :: rest => readBased? 16 rest
    | '0' :: 'o' :: rest => readBased? 8 rest
    | '0' :: 'b' :: rest => readBased? 2 rest
    | _ =>
      let (negative, rest) := dropSign token
      (wholeDigits? rest).map fun ds =>
        if negative then -(Numeral.value ds : Int) else Numeral.value ds
  n.filter Numeral.fitsWord

/-- Whether the characters after the whole part make a number with a fraction or an exponent. -/
def isFraction (cs : List Char) : Bool :=
  let isExponent (cs : List Char) : Bool :=
    match cs with
    | [] => true
    | c :: rest => (c = 'e' || c = 'E') && (grouped? Char.isDigit (dropSign rest).2).isSome
  match cs with
  | [] => false
  | '.' :: rest =>
    let fraction := rest.takeWhile fun c => c.isDigit || c = '_'
    (grouped? Char.isDigit fraction).isSome && isExponent (rest.drop fraction.length)
  | _ => isExponent cs

/-- Whether a token is a number with a fraction, which must not be beyond the greatest double. -/
def isReal (token : List Char) : Bool :=
  let body := (dropSign token).2
  if body = "inf".toList ∨ body = "nan".toList then true
  else
    let whole := body.takeWhile fun c => c.isDigit || c = '_'
    (wholeDigits? whole).isSome && isFraction (body.drop whole.length) &&
      Binary64.read? (token.filter (· ≠ '_')) ≠ some Binary64.infinity

/-! ### Times -/

/-- Reads a number of exactly so many digits. -/
def readDigits? (width : Nat) (cs : List Char) : Option (Nat × List Char) :=
  let digits := cs.take width
  if digits.length = width ∧ digits.all Char.isDigit then
    some (Numeral.value digits, cs.drop width)
  else none

def expect? (c : Char) : List Char → Option (List Char)
  | [] => none
  | c' :: rest => if c' = c then some rest else none

/-- Reads a real date and gives the rest. -/
def readDate? (cs : List Char) : Option (List Char) := do
  let (year, rest) ← readDigits? 4 cs
  let (month, rest) ← readDigits? 2 (← expect? '-' rest)
  let (day, rest) ← readDigits? 2 (← expect? '-' rest)
  if Civil.isReal ⟨year, month, day⟩ then some rest else none

/-- Reads hours and minutes. -/
def readHour? (cs : List Char) : Option (List Char) := do
  let (hour, rest) ← readDigits? 2 cs
  let (minute, rest) ← readDigits? 2 (← expect? ':' rest)
  if hour < 24 ∧ minute < 60 then some rest else none

/-- Reads a time of day, in which a minute may have a leap second. -/
def readClock? (cs : List Char) : Option (List Char) := do
  let (second, rest) ← readDigits? 2 (← expect? ':' (← readHour? cs))
  if 60 < second then none
  match rest with
  | '.' :: more =>
    let fraction := more.takeWhile Char.isDigit
    if fraction.isEmpty then none else some (more.drop fraction.length)
  | _ => some rest

def isOffset : List Char → Bool
  | [] => true
  | ['Z'] => true
  | ['z'] => true
  | '+' :: rest => readHour? rest = some []
  | '-' :: rest => readHour? rest = some []
  | _ => false

/-- Whether a token is a time of day with an optional offset. -/
def isZonedClock (token : List Char) : Bool := (readClock? token).any isOffset

def isDate (token : List Char) : Bool := readDate? token = some []

def isTime (token : List Char) : Bool :=
  match readDate? token with
  | none => readClock? token = some []
  | some [] => true
  | some (c :: rest) => (c = 'T' || c = 't') && isZonedClock rest

/-! ### Any of them -/

def isTokenCharacter (c : Char) : Bool :=
  c.isAlphanum || c = '+' || c = '-' || c = '.' || c = ':' || c = '_'

def splitToken (cs : List Char) : List Char × List Char :=
  (cs.takeWhile isTokenCharacter, cs.dropWhile isTokenCharacter)

/-- Reads a number, a truth value or a time. -/
def readScalar? (cs : List Char) : Option (Value × List Char) :=
  let (token, rest) := splitToken cs
  if isDate token then
    match rest with
    | ' ' :: more =>
      let (clock, past) := splitToken more
      if clock.isEmpty then some (.other, rest)
      else if isZonedClock clock then some (.other, past)
      else none
    | _ => some (.other, rest)
  else if token = "true".toList ∨ token = "false".toList ∨ isTime token ∨ isReal token then
    some (.other, rest)
  else (readInteger? token).map fun n => (.integer n, rest)

end Footage.Toml.Reader
