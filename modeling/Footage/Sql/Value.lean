import Footage.Binary64
import Footage.Text.Numeral

/-!
The values that columns hold, how they compare, and the few functions on them that conditions use.
-/

namespace Footage.Sql

inductive Value where
  | null
  | integer (n : Int)
  | real (x : Binary64)
  | text (s : String)
  deriving DecidableEq, Repr

namespace Value

def ofOption (f : α → Value) : Option α → Value
  | none => .null
  | some a => f a

/-! ### Comparison -/

/-- An integer and a double compare as exact numbers. -/
def compareToReal (n : Int) : Binary64 → Option Ordering
  | .nan => none
  | .number s r =>
    if r.val = Binary64.infinityRank then some (if s then .gt else .lt)
    else some (compare (n * Binary64.unitsOfOne) (Binary64.signedUnits (.number s r)))

def compareReals (x y : Binary64) : Option Ordering :=
  match x.position, y.position with
  | some a, some b => some (compare a b)
  | _, _ => none

/-- How two values compare; with `null` nothing does. Numbers come before texts, and texts compare by
code points. -/
def compare? : Value → Value → Option Ordering
  | .null, _ => none
  | _, .null => none
  | .integer a, .integer b => some (compare a b)
  | .integer a, .real y => compareToReal a y
  | .real x, .integer b => (compareToReal b x).map Ordering.swap
  | .real x, .real y => compareReals x y
  | .text s, .text t => some (compare s t)
  | .text _, _ => some .gt
  | _, .text _ => some .lt

/-- The order in which rows are listed, where `null` comes first. -/
def order (v w : Value) : Ordering :=
  match v, w with
  | .null, .null => .eq
  | .null, _ => .lt
  | _, .null => .gt
  | _, _ => (compare? v w).getD .eq

/-! ### Functions -/

/-- What functions see of a text: the characters before its first null character. -/
def visible (s : String) : List Char := s.toList.takeWhile fun c => c ≠ '\x00'

/-- The first `width` characters of a text. -/
def leading (width : Nat) : Value → Value
  | .text s => .text (String.ofList ((visible s).take width))
  | v => v

def isSpace (c : Char) : Bool :=
  c = ' ' || c = '\t' || c = '\n' || c = '\x0b' || c = '\x0c' || c = '\r'

/-- The integer that a text starts with, after blanks; zero if there is none. -/
def leadingInteger (cs : List Char) : Int :=
  let run (cs : List Char) : Int := Numeral.value (cs.takeWhile Char.isDigit)
  match cs.dropWhile isSpace with
  | '-' :: rest => -run rest
  | '+' :: rest => run rest
  | rest => run rest

def asInteger : Value → Value
  | .text s => .integer (leadingInteger s.toList)
  | v => v

def suffixes : List Char → List (List Char)
  | [] => [[]]
  | c :: cs => (c :: cs) :: suffixes cs

/-- Whether a text matches a pattern, where `%` stands for any characters and `_` for one. The case
of ASCII letters does not count. -/
def matchesPattern : List Char → List Char → Bool
  | [], cs => cs.isEmpty
  | p :: pattern, cs =>
    if p = '%' then (suffixes cs).any fun rest => matchesPattern pattern rest
    else
      match cs with
      | [] => false
      | c :: rest => (p = '_' || p.toLower = c.toLower) && matchesPattern pattern rest

end Value

end Footage.Sql
