/-!
Decimal numerals of a fixed width and numerals with a sign. Numerals without leading zeros and the
number that a run of digits stands for are the core library's `Nat.toDigits` and
`Nat.ofDigitChars`.
-/

namespace Footage.Numeral

/-- The last `width` decimal digits of `n`, leading zeros included. -/
def padded : Nat → Nat → List Char
  | 0, _ => []
  | width + 1, n => padded width (n / 10) ++ [(n % 10).digitChar]

def natural (n : Nat) : String := String.ofList (Nat.toDigits 10 n)

def integer (n : Int) : String :=
  if n < 0 then "-" ++ natural n.natAbs else natural n.natAbs

/-- The number that a run of digits stands for. -/
def value (digits : List Char) : Nat := Nat.ofDigitChars 10 digits 0

/-- Reads digits with an optional sign in front, and nothing else. -/
def readInteger? (cs : List Char) : Option Int :=
  let unsigned (cs : List Char) : Option Nat :=
    if cs.isEmpty || !cs.all Char.isDigit then none else some (value cs)
  match cs with
  | '-' :: rest => (unsigned rest).map fun n => -(n : Int)
  | '+' :: rest => (unsigned rest).map fun n => (n : Int)
  | _ => (unsigned cs).map fun n => (n : Int)

/-- The least and the greatest integer of 64 bits. -/
def leastWord : Int := -0x8000000000000000
def greatestWord : Int := 0x7FFFFFFFFFFFFFFF

def fitsWord (n : Int) : Bool := leastWord ≤ n && n ≤ greatestWord

/-- The nearest integer of 64 bits. -/
def clamped (n : Int) : Int := max leastWord (min greatestWord n)

/-- The value of a digit in a base of at most sixteen, in either case. -/
def digitValue? (base : Nat) (c : Char) : Option Nat :=
  let value : Option Nat :=
    if c.isDigit then some (c.toNat - 48)
    else if 'a' ≤ c && c ≤ 'f' then some (c.toNat - 87)
    else if 'A' ≤ c && c ≤ 'F' then some (c.toNat - 55)
    else none
  value.filter (· < base)

/-- The number that digits stand for in a base. -/
def valueIn? (base : Nat) (digits : List Char) : Option Nat :=
  digits.foldlM (fun n c => (digitValue? base c).map (n * base + ·)) 0

@[simp] theorem length_padded (width n : Nat) : (padded width n).length = width := by
  induction width generalizing n with
  | zero => rfl
  | succ width ih => simp [padded, ih]

theorem isDigit_of_mem_padded {width n : Nat} {c : Char} (h : c ∈ padded width n) :
    c.isDigit := by
  induction width generalizing n with
  | zero => simp [padded] at h
  | succ width ih =>
    simp only [padded, List.mem_append, List.mem_singleton] at h
    rcases h with h | rfl
    · exact ih h
    · simp [Nat.isDigit_digitChar, Nat.mod_lt]

theorem value_padded {width n : Nat} (h : n < Nat.pow 10 width) : value (padded width n) = n := by
  induction width generalizing n with
  | zero => simp_all [padded, value]
  | succ width ih =>
    have hlt : n / 10 < Nat.pow 10 width := by
      rw [Nat.div_lt_iff_lt_mul (by decide)]
      exact h
    have hd : n % 10 < 10 := Nat.mod_lt _ (by decide)
    have := ih hlt
    simp only [value] at this
    simp only [padded, value, Nat.ofDigitChars_append, this,
      Nat.ofDigitChars_cons_digitChar_of_lt_ten hd, Nat.ofDigitChars_nil]
    omega

end Footage.Numeral
