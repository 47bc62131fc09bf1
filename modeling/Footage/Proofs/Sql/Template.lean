import Footage.Proofs.Sql.Splitting

/-! The tokens of a row of pieces with the places of its literals left open. They do not change when
the texts of a statement do. -/

namespace Footage.Sql

def Piece.slot? : Piece → Option (Option Token)
  | .literal _ => some none
  | p => p.token?.map some

/-- The tokens of a row, without its literals. -/
def slots (ps : List Piece) : List (Option Token) := ps.filterMap Piece.slot?

/-- Puts texts into the open places, in order. -/
def fill : List (Option Token) → List String → List Token
  | [], _ => []
  | some token :: row, ss => token :: fill row ss
  | none :: row, s :: ss => .literal s :: fill row ss
  | none :: _, [] => []

@[simp] theorem slots_nil : slots [] = [] := rfl

@[simp] theorem slots_cons (p : Piece) (ps : List Piece) :
    slots (p :: ps) = p.slot?.toList ++ slots ps := by
  cases p <;> rfl

@[simp] theorem slots_append (ps qs : List Piece) : slots (ps ++ qs) = slots ps ++ slots qs :=
  List.filterMap_append

theorem fill_slots (ps : List Piece) : fill (slots ps) (literals ps) = ps.filterMap Piece.token? := by
  induction ps with
  | nil => rfl
  | cons p ps ih =>
    rw [slots_cons, literals_cons, List.filterMap_cons, ← ih]
    cases p <;> rfl

/-- There are as many open places as literals. -/
theorem count_slots (ps : List Piece) : (slots ps).count none = (literals ps).length := by
  induction ps with
  | nil => rfl
  | cons p ps ih =>
    rw [slots_cons, literals_cons, List.count_append, List.length_append, ih]
    cases p <;> rfl

/-- Leaves the first `n` open places open and puts texts into the others. -/
def fillAfter : ℕ → List (Option Token) → List String → List (Option Token)
  | 0, row, ss => (fill row ss).map some
  | _ + 1, [], _ => []
  | n + 1, some token :: row, ss => some token :: fillAfter (n + 1) row ss
  | n + 1, none :: row, ss => none :: fillAfter n row ss

theorem fill_map_some (tokens : List Token) (ss : List String) :
    fill (tokens.map some) ss = tokens := by
  induction tokens with
  | nil => rfl
  | cons token tokens ih => rw [List.map_cons, fill, ih]

theorem fill_fillAfter (row : List (Option Token)) (ss ts : List String) :
    fill (fillAfter ss.length row ts) ss = fill row (ss ++ ts) := by
  induction row generalizing ss with
  | nil => cases ss <;> rfl
  | cons slot row ih =>
    cases ss with
    | nil => exact fill_map_some _ _
    | cons s ss =>
      cases slot with
      | none => exact congrArg (.literal s :: ·) (ih ss)
      | some token => exact congrArg (token :: ·) (ih (s :: ss))

theorem count_fillAfter {row : List (Option Token)} {n : ℕ} (h : n ≤ row.count none)
    (ss : List String) : (fillAfter n row ss).count none = n := by
  induction row generalizing n with
  | nil => cases n <;> simp_all [fillAfter, fill]
  | cons slot row ih =>
    cases n with
    | zero => exact List.count_eq_zero.2 (by simp [fillAfter])
    | succ n => cases slot <;> simp_all [fillAfter]

theorem slots_commaSeparated_congr {f g : α → List Piece} {as : List α}
    (h : ∀ a ∈ as, slots (f a) = slots (g a)) :
    slots (commaSeparated (as.map f)) = slots (commaSeparated (as.map g)) := by
  induction as with
  | nil => rfl
  | cons a as ih =>
    obtain ⟨ha, has⟩ := List.forall_mem_cons.1 h
    have ih := ih has
    cases as with
    | nil => exact ha
    | cons b as =>
      simp only [commaSeparated, List.map_cons] at ih ⊢
      simp only [separatedBy, slots_append, ha, ih]

/-! ### Erased texts -/

def Value.erase : Value → Value
  | .text _ => .text ""
  | v => v

@[simp] theorem slots_erase_value (v : Value) : slots v.erase.pieces = slots v.pieces := by
  cases v <;> rfl

def Term.erase : Term κ → Term κ
  | .column c => .column c
  | .literal v => .literal v.erase
  | .leading width t => .leading width t.erase
  | .asInteger t => .asInteger t.erase
  | .sum a b => .sum a.erase b.erase

def Condition.erase : Condition κ → Condition κ
  | .compare a op b => .compare a.erase op b.erase
  | .between t low high => .between t.erase low.erase high.erase
  | .isNull c => .isNull c
  | .like c _ => .like c ""
  | .oneOf c values => .oneOf c (values.map Value.erase)
  | .and a b => .and a.erase b.erase
  | .or a b => .or a.erase b.erase

section Statements
variable {κ : Type} [Named κ]

@[simp] theorem slots_erase_term (t : Term κ) : slots t.erase.pieces = slots t.pieces := by
  induction t with
  | column c => rfl
  | literal v => exact slots_erase_value v
  | leading width t ih => simp [Term.erase, Term.pieces, parenthesized, commaSeparated, separatedBy, ih]
  | asInteger t ih => simp [Term.erase, Term.pieces, parenthesized, ih]
  | sum a b iha ihb => simp [Term.erase, Term.pieces, iha, ihb]

@[simp] theorem slots_erase_operand (t : Term κ) : slots t.erase.operand = slots t.operand := by
  cases t with
  | leading width t =>
    have h := slots_erase_term (.leading width t)
    simp only [Term.erase] at h ⊢
    simp [Term.operand, parenthesized, h]
  | _ => exact slots_erase_term _

theorem slots_parenthesizedIf_congr {needed : Bool} {ps qs : List Piece}
    (h : slots ps = slots qs) :
    slots (parenthesizedIf needed ps) = slots (parenthesizedIf needed qs) := by
  cases needed <;> simp [parenthesizedIf, parenthesized, h]

theorem slots_erase_condition (c : Condition κ) (place : Place) :
    slots (c.erase.piecesAt place) = slots (c.piecesAt place) := by
  induction c generalizing place with
  | compare a op b => cases a <;> exact slots_parenthesizedIf_congr (by simp)
  | between t low high => exact slots_parenthesizedIf_congr (by simp)
  | isNull c => rfl
  | like c pattern => simp [Condition.erase, Condition.piecesAt, Piece.slot?]
  | oneOf c values =>
    cases values with
    | nil => rfl
    | cons v vs =>
      have h : slots (commaSeparated ((v :: vs).map fun w => w.erase.pieces)) =
          slots (commaSeparated ((v :: vs).map Value.pieces)) :=
        slots_commaSeparated_congr fun w _ => slots_erase_value w
      simpa [Condition.erase, Condition.piecesAt, parenthesized, Function.comp_def] using h
  | and a b iha ihb => exact slots_parenthesizedIf_congr (by simp [iha, ihb])
  | or a b iha ihb => exact slots_parenthesizedIf_congr (by simp [iha, ihb])

def Select.erase (query : Select κ) : Select κ := { query with condition := query.condition.erase }

theorem slots_erase_select (query : Select κ) : slots query.erase.pieces = slots query.pieces := by
  have h := slots_erase_condition query.condition .alone
  simp only [Select.erase, Select.pieces, wherePieces, Condition.pieces, slots_append, slots_cons, h]

theorem slots_select_congr {q r : Select κ} (h : q.erase = r.erase) :
    slots q.pieces = slots r.pieces := by
  rw [← slots_erase_select q, h, slots_erase_select]

def eraseAssignment (a : String × Value) : String × Value := (a.1, a.2.erase)

def Update.erase (update : Update κ) : Update κ where
  table := update.table
  assignments := update.assignments.map eraseAssignment
  condition := update.condition.erase

theorem slots_erase_update (update : Update κ) : slots update.erase.pieces = slots update.pieces := by
  have h := slots_erase_condition update.condition .alone
  have hassignments : slots (commaSeparated (update.assignments.map fun a =>
      [.identifier a.1, .blank, .symbol "=", .blank] ++ a.2.erase.pieces)) =
      slots (commaSeparated (update.assignments.map fun a =>
        [.identifier a.1, .blank, .symbol "=", .blank] ++ a.2.pieces)) :=
    slots_commaSeparated_congr fun a _ => by simp
  simp only [Update.erase, Update.pieces, wherePieces, Condition.pieces, slots_append, slots_cons, h,
    List.map_map, Function.comp_def, eraseAssignment, ← hassignments]

theorem slots_update_congr {q r : Update κ} (h : q.erase = r.erase) :
    slots q.pieces = slots r.pieces := by
  rw [← slots_erase_update q, h, slots_erase_update]

def Delete.erase (delete : Delete κ) : Delete κ :=
  { delete with condition := delete.condition.erase }

theorem slots_erase_delete (delete : Delete κ) : slots delete.erase.pieces = slots delete.pieces := by
  have h := slots_erase_condition delete.condition .alone
  simp only [Delete.erase, Delete.pieces, wherePieces, Condition.pieces, slots_append, slots_cons, h]

theorem slots_delete_congr {q r : Delete κ} (h : q.erase = r.erase) :
    slots q.pieces = slots r.pieces := by
  rw [← slots_erase_delete q, h, slots_erase_delete]

end Statements

def Insert.erase (insert : Insert) : Insert where
  table := insert.table
  assignments := insert.assignments.map eraseAssignment

theorem slots_erase_insert (insert : Insert) : slots insert.erase.pieces = slots insert.pieces := by
  have hvalues : slots (commaSeparated (insert.assignments.map fun a => a.2.erase.pieces)) =
      slots (commaSeparated (insert.assignments.map fun a => a.2.pieces)) :=
    slots_commaSeparated_congr fun a _ => slots_erase_value a.2
  simp only [Insert.erase, Insert.pieces, parenthesized, slots_append, slots_cons, List.map_map,
    Function.comp_def, eraseAssignment, ← hvalues]

theorem slots_insert_congr {q r : Insert} (h : q.erase = r.erase) :
    slots q.pieces = slots r.pieces := by
  rw [← slots_erase_insert q, h, slots_erase_insert]

end Footage.Sql
