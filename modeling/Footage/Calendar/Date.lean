import Footage.Text.Blank
import Footage.Text.Numeral

/-!
Dates of the Gregorian calendar, extended to all years. A date is its number of days after
1970-01-01; years run from March to February inside, so that the leap day ends a year.
-/

namespace Footage

structure Date where
  day : Int
  deriving DecidableEq, Repr

/-- Year, month and day of the month. -/
structure Civil where
  year : Int
  month : Nat
  day : Nat
  deriving DecidableEq, Repr

namespace Civil

def isLeap (year : Int) : Bool := year % 4 = 0 && (year % 100 ≠ 0 || year % 400 = 0)

def monthLength (year : Int) (month : Nat) : Nat :=
  if month = 2 then (if isLeap year then 29 else 28)
  else if month = 4 ∨ month = 6 ∨ month = 9 ∨ month = 11 then 30
  else 31

/-- The first and last year that a date can have. -/
def firstYear : Int := -262143
def lastYear : Int := 262142

def isReal (c : Civil) : Bool :=
  firstYear ≤ c.year && c.year ≤ lastYear && 1 ≤ c.month && c.month ≤ 12 && 1 ≤ c.day &&
    c.day ≤ monthLength c.year c.month

/-- Four digits, or a sign and at least four when the year has more or is negative. -/
def yearText (year : Int) : List Char :=
  if 0 ≤ year ∧ year ≤ 9999 then Numeral.padded 4 year.natAbs
  else
    let digits := Nat.toDigits 10 year.natAbs
    (if year < 0 then '-' else '+') :: (List.replicate (4 - digits.length) '0' ++ digits)

def text (c : Civil) : String :=
  String.ofList (yearText c.year ++ '-' :: Numeral.padded 2 c.month ++ '-' :: Numeral.padded 2 c.day)

end Civil

namespace Date

/-- Days from 0000-03-01 to 1970-01-01. -/
private def epochShift : Int := 719468

private def daysInFourCenturies : Int := 146097

def ofCivil (c : Civil) : Date :=
  let year := if c.month ≤ 2 then c.year - 1 else c.year
  let yearOfEra := year % 400
  let monthFromMarch : Int := if c.month ≤ 2 then c.month + 9 else c.month - 3
  let dayOfYear := (153 * monthFromMarch + 2) / 5 + c.day - 1
  let dayOfEra := yearOfEra * 365 + yearOfEra / 4 - yearOfEra / 100 + dayOfYear
  ⟨year / 400 * daysInFourCenturies + dayOfEra - epochShift⟩

def civil (date : Date) : Civil :=
  let shifted := date.day + epochShift
  let dayOfEra := shifted % daysInFourCenturies
  let yearOfEra := (dayOfEra - dayOfEra / 1460 + dayOfEra / 36524 - dayOfEra / 146096) / 365
  let dayOfYear := dayOfEra - (365 * yearOfEra + yearOfEra / 4 - yearOfEra / 100)
  let monthFromMarch := (5 * dayOfYear + 2) / 153
  let month := if monthFromMarch < 10 then monthFromMarch + 3 else monthFromMarch - 9
  let year := yearOfEra + shifted / daysInFourCenturies * 400
  { year := if month ≤ 2 then year + 1 else year
    month := month.toNat
    day := (dayOfYear - (153 * monthFromMarch + 2) / 5 + 1).toNat }

def text (date : Date) : String := date.civil.text

/-- The text of a date whose year may carry a sign; without one it has at most four digits. Blanks
are allowed before each part and at the end. -/
def read? (text : String) : Option Date := do
  let (year, rest) ← readYear (Text.trimStart text.toList)
  let (month, rest) ← readPart (← readDash rest)
  let (day, rest) ← readPart (← readDash rest)
  if (Text.trimStart rest).isEmpty then
    let c : Civil := ⟨year, month, day⟩
    if c.isReal then some (ofCivil c) else none
  else none
where
  digits? (limit : Nat) (cs : List Char) : Option (Nat × List Char) :=
    let ds := (cs.take limit).takeWhile Char.isDigit
    if ds.isEmpty then none else some (Numeral.value ds, cs.drop ds.length)
  readYear (cs : List Char) : Option (Int × List Char) :=
    match cs with
    | '-' :: rest => (digits? rest.length rest).map fun (n, rest) => (-(n : Int), rest)
    | '+' :: rest => (digits? rest.length rest).map fun (n, rest) => ((n : Int), rest)
    | _ => (digits? 4 cs).map fun (n, rest) => ((n : Int), rest)
  readDash (cs : List Char) : Option (List Char) :=
    match Text.trimStart cs with
    | '-' :: rest => some rest
    | _ => none
  readPart (cs : List Char) : Option (Nat × List Char) := digits? 2 (Text.trimStart cs)

end Date

end Footage
