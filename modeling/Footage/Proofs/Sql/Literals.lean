import Footage.Store.Basic
import Mathlib.Data.List.Basic

/-! The texts that a statement writes as literals. They are those of its condition and
of the values it assigns, and a statement is accepted when none of them holds a
null character. -/

namespace Footage.Sql

/-- A text that a statement can write. -/
def Writable (s : String) : Prop := '\x00' ∉ s.toList

instance (s : String) : Decidable (Writable s) := inferInstanceAs (Decidable (¬ _))

def Piece.literal? : Piece → Option String
  | .literal s => some s
  | _ => none

/-- The literals of a row of pieces. -/
def literals (pieces : List Piece) : List String := pieces.filterMap Piece.literal?

@[simp] theorem literals_nil : literals [] = [] := rfl

@[simp] theorem literals_cons (p : Piece) (ps : List Piece) :
    literals (p :: ps) = p.literal?.toList ++ literals ps := by
  cases p <;> rfl

@[simp] theorem literals_append (ps qs : List Piece) :
    literals (ps ++ qs) = literals ps ++ literals qs := List.filterMap_append

@[simp] theorem literals_words (ws : List String) : literals (words ws) = [] := by
  induction ws with
  | nil => rfl
  | cons w ws ih => simpa [words, Piece.literal?] using ih

theorem literals_separatedBy {separator : List Piece} (h : literals separator = [])
    (parts : List (List Piece)) :
    literals (separatedBy separator parts) = parts.flatMap literals := by
  induction parts with
  | nil => rfl
  | cons ps rest ih =>
    cases rest with
    | nil => simp [separatedBy]
    | cons qs rest => simp [separatedBy, h, ih]

@[simp] theorem literals_commaSeparated (parts : List (List Piece)) :
    literals (commaSeparated parts) = parts.flatMap literals :=
  literals_separatedBy rfl parts

@[simp] theorem literals_parenthesized (ps : List Piece) :
    literals (parenthesized ps) = literals ps := by
  simp [parenthesized, Piece.literal?]

@[simp] theorem literals_parenthesizedIf (needed : Bool) (ps : List Piece) :
    literals (parenthesizedIf needed ps) = literals ps := by
  cases needed <;> simp [parenthesizedIf]

@[simp] theorem literals_identifiers (names : List String) : literals (identifiers names) = [] := by
  simp [identifiers, List.flatMap_map, Piece.literal?]

@[simp] theorem literals_columnPieces {κ : Type} [Named κ] (c : κ) : literals (columnPieces c) = [] := by
  simp [columnPieces, literals_separatedBy, List.flatMap_map, Piece.literal?]

@[simp] theorem literals_signed (negative : Bool) (ps : List Piece) :
    literals (signed negative ps) = literals ps := by
  cases negative <;> simp [signed, Piece.literal?]

@[simp] theorem literals_valuePieces (v : Value) : literals v.pieces = v.text?.toList := by
  cases v with
  | real x =>
    cases x with
    | nan => rfl
    | number s r =>
      simp only [Value.pieces, realPieces]
      split_ifs <;> simp [Piece.literal?, Value.text?]
  | _ => simp [Value.pieces, Piece.literal?, Value.text?]

/-! ### Conditions -/

section Statements
variable {κ : Type}

def Term.texts : Term κ → List String
  | .column _ => []
  | .literal v => v.text?.toList
  | .leading _ t => t.texts
  | .asInteger t => t.texts
  | .sum a b => a.texts ++ b.texts

def Condition.texts : Condition κ → List String
  | .compare a _ b => a.texts ++ b.texts
  | .between t low high => t.texts ++ low.text?.toList ++ high.text?.toList
  | .isNull _ => []
  | .like _ pattern => [pattern]
  | .oneOf _ values => values.flatMap fun v => v.text?.toList
  | .and a b => a.texts ++ b.texts
  | .or a b => a.texts ++ b.texts

variable [Named κ]

@[simp] theorem literals_termPieces (t : Term κ) : literals t.pieces = t.texts := by
  induction t with
  | column c => simp [Term.pieces, Term.texts]
  | literal v => simp [Term.pieces, Term.texts]
  | leading width t ih => simp [Term.pieces, Term.texts, ih, Piece.literal?]
  | asInteger t ih => simp [Term.pieces, Term.texts, ih, Piece.literal?]
  | sum a b iha ihb => simp [Term.pieces, Term.texts, iha, ihb, Piece.literal?]

@[simp] theorem literals_operand (t : Term κ) : literals t.operand = t.texts := by
  cases t <;> simp [Term.operand, Term.texts]

@[simp] theorem literals_piecesAt (place : Place) (c : Condition κ) :
    literals (c.piecesAt place) = c.texts := by
  induction c generalizing place with
  | compare a op b => simp [Condition.piecesAt, Condition.texts, Piece.literal?]
  | between t low high => simp [Condition.piecesAt, Condition.texts, Piece.literal?]
  | isNull c => simp [Condition.piecesAt, Condition.texts, Piece.literal?]
  | like c pattern => simp [Condition.piecesAt, Condition.texts, Piece.literal?]
  | oneOf c values =>
    cases values with
    | nil => simp [Condition.piecesAt, Condition.texts, Piece.literal?]
    | cons v vs =>
      simp [Condition.piecesAt, Condition.texts, Piece.literal?, List.flatMap_map]
  | and a b iha ihb => simp [Condition.piecesAt, Condition.texts, iha, ihb, Piece.literal?]
  | or a b iha ihb => simp [Condition.piecesAt, Condition.texts, iha, ihb, Piece.literal?]

/-! ### Statements -/

@[simp] theorem literals_wherePieces (c : Condition κ) : literals (wherePieces c) = c.texts := by
  simp [wherePieces, Condition.pieces, Piece.literal?]

theorem literals_output (o : Output κ) : literals o.pieces = [] := by
  cases o <;> simp [Output.pieces, Piece.literal?]

theorem literals_orderPieces (order : List (κ × Direction)) : literals (orderPieces order) = [] := by
  cases order with
  | nil => rfl
  | cons p order =>
    simp only [orderPieces, literals_append, literals_cons, literals_words, literals_commaSeparated,
      List.flatMap_map, Piece.literal?]
    simp

theorem literals_select (query : Select κ) : literals query.pieces = query.condition.texts := by
  have hout : query.outputs.flatMap (fun o => literals o.pieces) = [] := by
    simp [literals_output]
  rcases query with ⟨outputs, table, join, condition, order, limit⟩
  cases join <;> cases limit <;>
    simp_all [Select.pieces, Join.pieces, Piece.literal?, literals_orderPieces, List.flatMap_map]

theorem literals_insert (insert : Insert) :
    literals insert.pieces = insert.assignments.flatMap fun a => a.2.text?.toList := by
  simp [Insert.pieces, Piece.literal?, List.flatMap_map]

theorem literals_update (update : Update κ) :
    literals update.pieces =
      (update.assignments.flatMap fun a => a.2.text?.toList) ++ update.condition.texts := by
  simp [Update.pieces, Piece.literal?, List.flatMap_map]

theorem literals_delete (delete : Delete κ) : literals delete.pieces = delete.condition.texts := by
  simp [Delete.pieces, Piece.literal?]

end Statements

/-! ### Acceptance -/

theorem mem_literals {pieces : List Piece} {s : String} :
    s ∈ literals pieces ↔ .literal s ∈ pieces := by
  rw [literals, List.mem_filterMap]
  constructor
  · rintro ⟨p, hp, h⟩
    cases p <;> cases h
    exact hp
  · intro h
    exact ⟨_, h, rfl⟩

theorem openLiteral?_eq_none_iff (pieces : List Piece) :
    openLiteral? pieces = none ↔ ∀ s ∈ literals pieces, Writable s := by
  rw [openLiteral?, List.findSome?_eq_none_iff]
  constructor
  · intro h s hs
    have := h _ (mem_literals.1 hs)
    simpa [Writable] using this
  · intro h p hp
    cases p with
    | literal s => simpa [Writable] using h s (mem_literals.2 hp)
    | _ => rfl

/-- The text of a statement has ended inside a literal. -/
def IsRefused {α : Type} (answer : Except Error α) : Prop :=
  ∃ token, answer = .error (.store (.openLiteral token))

theorem IsRefused.bind {α β : Type} {answer : Except Error α} (h : IsRefused answer)
    (rest : α → Except Error β) : IsRefused (answer >>= rest) := by
  obtain ⟨token, rfl⟩ := h
  exact ⟨token, rfl⟩

theorem accept_cases (pieces : List Piece) : accept pieces = .ok () ∨ IsRefused (accept pieces) := by
  unfold accept
  cases openLiteral? pieces with
  | none => exact .inl rfl
  | some token => exact .inr ⟨token, rfl⟩

theorem accept_eq_ok_iff (pieces : List Piece) :
    accept pieces = .ok () ↔ ∀ s ∈ literals pieces, Writable s := by
  rw [← openLiteral?_eq_none_iff, accept]
  cases openLiteral? pieces <;> simp

end Footage.Sql
