import Footage.Sql.Numeral

/-!
Terms and conditions over the columns `κ` of a relation, and their values on a row. A comparison
with `null` is neither true nor false, and a row is selected only by a condition that is true.
-/

namespace Footage.Sql

inductive Term (κ : Type) where
  | column (c : κ)
  | literal (v : Value)
  /-- The first characters of a text. -/
  | leading (width : Nat) (t : Term κ)
  | asInteger (t : Term κ)
  | sum (a b : Term κ)
  deriving DecidableEq, Repr

inductive Comparison where
  | eq
  | ne
  | lt
  | le
  | gt
  | ge
  deriving DecidableEq, Repr

inductive Condition (κ : Type) where
  | compare (a : Term κ) (op : Comparison) (b : Term κ)
  /-- Both bounds belong to the range. -/
  | between (t : Term κ) (low high : Value)
  | isNull (c : κ)
  | like (c : κ) (pattern : String)
  | oneOf (c : κ) (values : List Value)
  | and (a b : Condition κ)
  | or (a b : Condition κ)
  deriving DecidableEq, Repr

def Term.eval (row : κ → Value) : Term κ → Value
  | .column c => row c
  | .literal v => v
  | .leading width t => (t.eval row).leading width
  | .asInteger t => (t.eval row).asInteger
  | .sum a b => (a.eval row).sum (b.eval row)

def Comparison.accepts : Comparison → Ordering → Bool
  | .eq, o => o = .eq
  | .ne, o => o ≠ .eq
  | .lt, o => o = .lt
  | .le, o => o ≠ .gt
  | .gt, o => o = .gt
  | .ge, o => o ≠ .lt

def Comparison.eval (op : Comparison) (v w : Value) : Option Bool :=
  (v.compare? w).map op.accepts

/-! ### Three-valued truth -/

def bothTrue : Option Bool → Option Bool → Option Bool
  | some false, _ => some false
  | _, some false => some false
  | some true, some true => some true
  | _, _ => none

def eitherTrue : Option Bool → Option Bool → Option Bool
  | some true, _ => some true
  | _, some true => some true
  | some false, some false => some false
  | _, _ => none

def Condition.eval (row : κ → Value) : Condition κ → Option Bool
  | .compare a op b => op.eval (a.eval row) (b.eval row)
  | .between t low high =>
    bothTrue (Comparison.eval .ge (t.eval row) low) (Comparison.eval .le (t.eval row) high)
  | .isNull c => some (row c = .null)
  | .like c pattern =>
    match row c with
    | .text s => some (Value.matchesPattern pattern.toList (Value.visible s))
    | _ => none
  | .oneOf c values =>
    values.foldr (fun v rest => eitherTrue (Comparison.eval .eq (row c) v) rest) (some false)
  | .and a b => bothTrue (a.eval row) (b.eval row)
  | .or a b => eitherTrue (a.eval row) (b.eval row)

/-- Whether a condition selects a row. -/
def Condition.holds (condition : Condition κ) (row : κ → Value) : Bool :=
  condition.eval row = some true

/-! ### Abbreviations -/

def Term.integer (n : Int) : Term κ := .literal (.integer n)

def Term.text (s : String) : Term κ := .literal (.text s)

def Condition.equals (c : κ) (v : Value) : Condition κ := .compare (.column c) .eq (.literal v)

theorem bothTrue_eq_some_true {a b : Option Bool} :
    bothTrue a b = some true ↔ a = some true ∧ b = some true := by
  rcases a with _ | _ | _ <;> rcases b with _ | _ | _ <;> simp [bothTrue]

theorem eitherTrue_eq_some_true {a b : Option Bool} :
    eitherTrue a b = some true ↔ a = some true ∨ b = some true := by
  rcases a with _ | _ | _ <;> rcases b with _ | _ | _ <;> simp [eitherTrue]

@[simp] theorem Condition.holds_and (a b : Condition κ) (row : κ → Value) :
    (Condition.and a b).holds row = (a.holds row && b.holds row) := by
  rw [Bool.eq_iff_iff]
  simp [holds, eval, bothTrue_eq_some_true]

@[simp] theorem Condition.holds_or (a b : Condition κ) (row : κ → Value) :
    (Condition.or a b).holds row = (a.holds row || b.holds row) := by
  rw [Bool.eq_iff_iff]
  simp [holds, eval, eitherTrue_eq_some_true]

end Footage.Sql
