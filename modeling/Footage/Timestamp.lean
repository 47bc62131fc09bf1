import Footage.Text.Numeral

/-!
Start seconds of fragments as their filenames write them: ten decimal digits in front, zero padded,
and anything after them. All prefixes have one width, so they sort as the numbers do.
-/

namespace Footage

/-- A second that ten digits can write. -/
structure Timestamp where
  seconds : Nat
  lt : seconds < 10000000000
  deriving DecidableEq, Repr

namespace Timestamp

def width : Nat := 10

inductive NameError where
  | tooShort (name : String)
  | notDigits (name : String)
  | outOfRange (seconds : Int)
  deriving DecidableEq, Repr

def NameError.message : NameError → String
  | .tooShort name => "'" ++ name ++ "' is shorter than the 10-digit timestamp prefix"
  | .notDigits name => "'" ++ name ++ "' does not start with a decimal timestamp"
  | .outOfRange n => Numeral.integer n ++ " is outside the encodable timestamp range"

def ofSeconds (n : Int) : Except NameError Timestamp :=
  if h : 0 ≤ n ∧ n < 10000000000 then .ok ⟨n.toNat, by omega⟩ else .error (.outOfRange n)

/-- The encodable second nearest to `n`. -/
def saturating (n : Int) : Timestamp := ⟨min n.toNat 9999999999, by omega⟩

def digits (t : Timestamp) : List Char := Numeral.padded width t.seconds

def encode (t : Timestamp) : String := String.ofList t.digits

/-- The name of a fragment that starts at `t`. -/
def filename (t : Timestamp) (extension : String) : String := t.encode ++ extension

/-- The characters that make up the first `n` bytes of a text, if it has so many and no character
lies across the cut. -/
def bytesPrefix? : Nat → List Char → Option (List Char)
  | 0, _ => some []
  | _ + 1, [] => none
  | n + 1, c :: cs =>
    if c.utf8Size ≤ n + 1 then (bytesPrefix? (n + 1 - c.utf8Size) cs).map (c :: ·) else none
termination_by structural _ cs => cs

/-- Reads the second that a filename starts with. -/
def decode (name : String) : Except NameError Timestamp :=
  match bytesPrefix? width name.toList with
  | none => .error (.tooShort name)
  | some cs => if cs.all Char.isDigit then ofSeconds (Numeral.value cs) else .error (.notDigits name)

end Timestamp

end Footage
