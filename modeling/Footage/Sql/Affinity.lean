import Footage.Sql.Numeral

/-!
How columns convert what they are given. A column prefers integers, doubles or texts; a value that
cannot be converted without loss is kept as it is.
-/

namespace Footage.Sql

inductive Affinity where
  | integer
  | real
  | text
  deriving DecidableEq, Repr

namespace Value

/-- A text that is a numeral becomes its number. -/
def numeric : Value → Value
  | .text s => (number? s).getD (.text s)
  | v => v

/-- A double that is whole becomes an integer, if that lies between the least and the greatest of
64 bits. -/
def integral : Value → Value
  | .real x =>
    match x.whole? with
    | some n => if Numeral.leastWord < n ∧ n < Numeral.greatestWord then .integer n else .real x
    | none => .real x
  | v => v

def widened : Value → Value
  | .integer n => .real (.ofInt n)
  | v => v

def written : Value → Value
  | .integer n => .text (Numeral.integer n)
  | .real x => .text (realText x)
  | v => v

end Value

def Affinity.convert : Affinity → Value → Value
  | .integer, v => v.numeric.integral
  | .real, v => v.numeric.integral.widened
  | .text, v => v.written

end Footage.Sql
