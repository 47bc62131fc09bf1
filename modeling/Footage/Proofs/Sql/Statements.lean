import Footage.Proofs.Sql.Splitting

/-! What a statement writes splits into its own tokens: of the texts in it only those between quotes
are given from outside, and those may be any that a statement can write. -/

namespace Footage.Sql

open Token

/-! ### Numerals -/

theorem isNumeral_ofList {whole fraction : List Char} (hne : whole ≠ [])
    (hwhole : ∀ c ∈ whole, c.isDigit) (hfraction : IsFraction fraction) :
    IsNumeral (String.ofList (whole ++ fraction)) := by
  obtain ⟨c, cs, rfl⟩ := List.exists_cons_of_ne_nil hne
  obtain ⟨hc, hcs⟩ := List.forall_mem_cons.1 hwhole
  exact ⟨c, cs, fraction, String.toList_ofList, hc, hcs, hfraction⟩

theorem isDigit_of_mem_toDigits {n : ℕ} : ∀ c ∈ Nat.toDigits 10 n, c.isDigit := fun _ hc =>
  Nat.isDigit_of_mem_toDigits (by decide) (by decide) hc

theorem isNumeral_natural (n : ℕ) : IsNumeral (Numeral.natural n) := by
  have h := isNumeral_ofList (n.toDigits_ne_nil (b := 10)) isDigit_of_mem_toDigits (.inl rfl)
  rwa [List.append_nil] at h

theorem isNumeral_positional (d : Decimal) : IsNumeral (String.ofList d.positional) := by
  have hzero {k : ℕ} : ∀ c ∈ List.replicate k '0', c.isDigit := by
    intro c hc
    rw [List.eq_of_mem_replicate hc]
    rfl
  unfold Decimal.positional
  split_ifs
  · have hne : Nat.toDigits 10 d.digits ++ List.replicate d.exponent.toNat '0' ≠ [] := by
      simp [Nat.toDigits_ne_nil]
    have h := isNumeral_ofList hne
      (List.forall_mem_append.2 ⟨isDigit_of_mem_toDigits, hzero⟩) (.inl rfl)
    rwa [List.append_nil] at h
  · -- The padding leaves a digit before the point.
    dsimp only
    generalize hall : List.replicate
      (d.exponent.natAbs + 1 - (Nat.toDigits 10 d.digits).length) '0' ++
      Nat.toDigits 10 d.digits = all
    have hdigits : ∀ c ∈ all, c.isDigit :=
      hall ▸ List.forall_mem_append.2 ⟨hzero, isDigit_of_mem_toDigits⟩
    have hlength : d.exponent.natAbs < all.length := by
      rw [← hall, List.length_append, List.length_replicate]
      omega
    refine isNumeral_ofList ?_ (fun c hc => hdigits c (List.mem_of_mem_take hc))
      (.inr ⟨_, rfl, fun c hc => hdigits c (List.mem_of_mem_drop hc)⟩)
    rw [← List.length_pos_iff, List.length_take]
    omega

/-! ### Values, terms and conditions -/

@[simp] theorem clear_signed_numeral {negative : Bool} {s : String} :
    Clear (signed negative [.numeral s]) ↔ IsNumeral s := by
  cases negative with
  | false => exact clear_singleton
  | true =>
    refine ⟨fun h => h.sound (.numeral s) (by simp [signed]), fun h => ⟨?_, ?_⟩⟩
    · simpa [signed] using ⟨show _ ∈ symbols by decide, h⟩
    · exact List.isChain_pair.2 (.negativeNumeral s)

@[simp] theorem clear_signed_word {negative : Bool} {s : String} :
    Clear (signed negative [.word s]) ↔ IsWord s := by
  cases negative with
  | false => exact clear_singleton
  | true =>
    refine ⟨fun h => h.sound (.word s) (by simp [signed]), fun h => ⟨?_, ?_⟩⟩
    · simpa [signed] using ⟨show _ ∈ symbols by decide, h⟩
    · exact List.isChain_pair.2 (.negativeWord s)

theorem clear_valuePieces {v : Value} (h : ∀ s ∈ literals v.pieces, Writable s) :
    Clear v.pieces := by
  cases v with
  | null => exact clear_singleton.2 (show IsWord "NULL" by decide)
  | integer n => exact clear_signed_numeral.2 (isNumeral_natural _)
  | text s => exact clear_singleton.2 (h s (by simp [Value.pieces, Piece.literal?]))
  | real x =>
    cases x with
    | nan => exact clear_singleton.2 (show IsWord "NaN" by decide)
    | number negative rank =>
      rw [Value.pieces, realPieces]
      split_ifs
      · exact clear_signed_word.2 (by decide)
      · exact clear_signed_numeral.2 (isNumeral_positional _)

section Statements
variable {κ : Type} [Named κ]

/-- Names that a statement can write. -/
def Named.Writable (κ : Type) [Named κ] : Prop :=
  ∀ c : κ, ∀ name ∈ Named.names c, Sql.Writable name

variable (hκ : Named.Writable κ)
include hκ

theorem clear_columnPieces (c : κ) : Clear (columnPieces c) := clear_names (hκ c)

theorem clear_termPieces {t : Term κ} (h : ∀ s ∈ t.texts, Sql.Writable s) : Clear t.pieces := by
  induction t with
  | column c => exact clear_columnPieces hκ c
  | literal v => exact clear_valuePieces (by simpa [Term.texts] using h)
  | leading width t ih =>
    have harguments : Clear (commaSeparated
        [t.pieces, [.numeral "1"], [.numeral (Numeral.natural width)]]) := by
      refine clear_commaSeparated ?_
      simp only [List.forall_mem_cons, List.not_mem_nil, false_implies, implies_true, and_true]
      exact ⟨ih h, clear_singleton.2 (isNumeral_natural 1), clear_singleton.2 (isNumeral_natural width)⟩
    have hword : IsWord "substr" := by decide
    simpa [Term.pieces, parenthesized, Piece.Sound] using ⟨hword, harguments⟩
  | asInteger t ih =>
    have hwords : IsWord "CAST" ∧ IsWord "AS" ∧ IsWord "INTEGER" := by decide
    simpa [Term.pieces, parenthesized, Piece.Sound, ih h] using hwords
  | sum a b iha ihb =>
    have hplus : "+" ∈ symbols := by decide
    simp only [Term.texts, List.forall_mem_append] at h
    simpa [Term.pieces, Piece.Sound, iha h.1, ihb h.2] using hplus

theorem clear_operand {t : Term κ} (h : ∀ s ∈ t.texts, Sql.Writable s) : Clear t.operand := by
  cases t with
  | leading width t => exact clear_parenthesized.2 (clear_termPieces hκ h)
  | _ => exact clear_termPieces hκ h

theorem clear_piecesAt {c : Condition κ} (h : ∀ s ∈ c.texts, Sql.Writable s) (place : Place) :
    Clear (c.piecesAt place) := by
  induction c generalizing place with
  | compare a op b =>
    simp only [Condition.texts, List.forall_mem_append] at h
    have hsign : op.sign ∈ symbols := by cases op <;> decide
    simp [Condition.piecesAt, Piece.Sound, clear_operand hκ h.1, clear_operand hκ h.2, hsign]
  | between t low high =>
    simp only [Condition.texts, List.forall_mem_append] at h
    have hwords : IsWord "BETWEEN" ∧ IsWord "AND" := by decide
    have hlow : Clear low.pieces := clear_valuePieces (by simpa using h.1.2)
    have hhigh : Clear high.pieces := clear_valuePieces (by simpa using h.2)
    simpa [Condition.piecesAt, clear_operand hκ h.1.1, hlow, hhigh] using hwords
  | isNull c =>
    have hwords : IsWord "IS" ∧ IsWord "NULL" := by decide
    simpa [Condition.piecesAt, Piece.Sound, clear_columnPieces hκ] using hwords
  | like c pattern =>
    have hword : IsWord "LIKE" := by decide
    simpa [Condition.piecesAt, Piece.Sound, clear_columnPieces hκ, hword, Condition.texts] using h
  | oneOf c values =>
    cases values with
    | nil =>
      have hequals : "=" ∈ symbols := by decide
      simpa [Condition.piecesAt, Piece.Sound, hequals] using
        ⟨isNumeral_natural 1, isNumeral_natural 2⟩
    | cons v vs =>
      have hword : IsWord "IN" := by decide
      have hvalues : Clear (commaSeparated ((v :: vs).map Value.pieces)) := by
        refine clear_commaSeparated ?_
        simp only [List.forall_mem_map]
        intro w hw
        exact clear_valuePieces fun s hs => h s (List.mem_flatMap.2 ⟨w, hw, by simpa using hs⟩)
      simpa [Condition.piecesAt, clear_columnPieces hκ, hword] using hvalues
  | and a b iha ihb =>
    simp only [Condition.texts, List.forall_mem_append] at h
    have hword : IsWord "AND" := by decide
    simpa [Condition.piecesAt, iha h.1, ihb h.2] using hword
  | or a b iha ihb =>
    simp only [Condition.texts, List.forall_mem_append] at h
    have hword : IsWord "OR" := by decide
    simpa [Condition.piecesAt, iha h.1, ihb h.2] using hword

/-! ### Statements -/

theorem clear_wherePieces {c : Condition κ} (h : ∀ s ∈ c.texts, Sql.Writable s) :
    Clear (wherePieces c) := by
  have hword : IsWord "WHERE" := by decide
  simpa [wherePieces, hword] using show Clear c.pieces from clear_piecesAt hκ h .alone

theorem clear_outputPieces (o : Output κ) : Clear o.pieces := by
  cases o with
  | column c => exact clear_columnPieces hκ c
  | one => exact clear_singleton.2 (isNumeral_natural 1)
  | count c =>
    have hword : IsWord "COUNT" := by decide
    simpa [Output.pieces, parenthesized, Piece.Sound, clear_columnPieces hκ] using hword

theorem clear_joinPieces {join : Join κ} (h : Sql.Writable join.table) : Clear join.pieces := by
  have hwords : IsWord "LEFT" ∧ IsWord "JOIN" ∧ IsWord "ON" ∧ "=" ∈ symbols := by decide
  simpa [Join.pieces, Piece.Sound, clear_columnPieces hκ, h, and_assoc] using hwords

theorem clear_orderPieces (order : List (κ × Direction)) : Clear (orderPieces order) := by
  cases order with
  | nil => exact clear_nil
  | cons first order =>
    have hwords : IsWord "ORDER" ∧ IsWord "BY" := by decide
    have hdirection (d : Direction) : IsWord d.word := by cases d <;> decide
    have horder : Clear (commaSeparated ((first :: order).map fun p =>
        columnPieces p.1 ++ [.blank, .word p.2.word])) := by
      refine clear_commaSeparated ?_
      simp only [List.forall_mem_map]
      intro p _
      simpa [clear_columnPieces hκ, Piece.Sound] using hdirection p.2
    simpa [orderPieces, hwords] using horder

theorem clear_select {query : Select κ} (htable : Sql.Writable query.table)
    (hjoin : ∀ join ∈ query.join, Sql.Writable join.table)
    (h : ∀ s ∈ literals query.pieces, Sql.Writable s) : Clear query.pieces := by
  rw [literals_select] at h
  have hwords : IsWord "SELECT" ∧ IsWord "FROM" ∧ IsWord "LIMIT" := by decide
  have houtputs : Clear (commaSeparated (query.outputs.map Output.pieces)) :=
    clear_commaSeparated (by simpa using fun o _ => clear_outputPieces hκ o)
  unfold Select.pieces
  refine .append (.append (.append (.append ?_ ?join ?_) (clear_wherePieces hκ h) ?_)
    (clear_orderPieces hκ query.order) ?order) ?limit ?_
  · simpa [hwords, houtputs, Piece.Sound] using htable
  case join =>
    cases hq : query.join with
    | none => exact clear_nil
    | some join => exact clear_joinPieces hκ (hjoin join hq)
  case order => cases query.order <;> simp [orderPieces]
  case limit =>
    cases query.limit with
    | none => exact clear_nil
    | some n => simpa [hwords, Piece.Sound] using isNumeral_natural n
  · cases query.join <;> simp [Join.pieces]
  · simp [wherePieces]
  · cases query.limit <;> simp

theorem clear_update {update : Update κ} (htable : Sql.Writable update.table)
    (hnames : ∀ a ∈ update.assignments, Sql.Writable a.1)
    (h : ∀ s ∈ literals update.pieces, Sql.Writable s) : Clear update.pieces := by
  simp only [literals_update, List.forall_mem_append, List.forall_mem_flatMap] at h
  have hwords : IsWord "UPDATE" ∧ IsWord "SET" ∧ "=" ∈ symbols := by decide
  have hassignments : Clear (commaSeparated (update.assignments.map fun a =>
      .identifier a.1 :: .blank :: .symbol "=" :: .blank :: a.2.pieces)) := by
    refine clear_commaSeparated ?_
    simp only [List.forall_mem_map]
    intro a ha
    have hvalue : Clear a.2.pieces := clear_valuePieces (by simpa using h.1 a ha)
    simpa [Piece.Sound, hvalue, hwords] using hnames a ha
  unfold Update.pieces
  refine .append ?_ (clear_wherePieces hκ h.2) (by simp [wherePieces])
  simpa [hwords, hassignments, Piece.Sound] using htable

theorem clear_delete {delete : Delete κ} (htable : Sql.Writable delete.table)
    (h : ∀ s ∈ literals delete.pieces, Sql.Writable s) : Clear delete.pieces := by
  rw [literals_delete] at h
  have hwords : IsWord "DELETE" ∧ IsWord "FROM" := by decide
  unfold Delete.pieces
  have hrow : Clear ([.identifier delete.table] ++ wherePieces delete.condition) :=
    .append (clear_singleton.2 htable) (clear_wherePieces hκ h) (by simp [wherePieces])
  simpa [hwords] using hrow

end Statements

theorem clear_insert {insert : Insert} (htable : Writable insert.table)
    (hnames : ∀ a ∈ insert.assignments, Writable a.1)
    (h : ∀ s ∈ literals insert.pieces, Writable s) : Clear insert.pieces := by
  simp only [literals_insert, List.forall_mem_flatMap] at h
  have hwords : IsWord "INSERT" ∧ IsWord "INTO" ∧ IsWord "VALUES" := by decide
  have hcolumns : Clear (identifiers (insert.assignments.map (·.1))) :=
    clear_identifiers (by simpa using hnames)
  have hvalues : Clear (commaSeparated (insert.assignments.map (·.2.pieces))) := by
    refine clear_commaSeparated ?_
    simp only [List.forall_mem_map]
    exact fun a ha => clear_valuePieces (by simpa using h a ha)
  simpa [Insert.pieces, hwords, hcolumns, hvalues, Piece.Sound] using htable

/-! ### Definitions of tables -/

theorem clear_columnDefinition {c : ColumnDefinition} (h : Writable c.name) : Clear c.pieces := by
  refine clear_separatedBy rfl [] (fun _ h => h) ?_
  have htype : IsWord c.type.name := by cases c.type <;> decide
  have hconstraint (k : Constraint) : ∀ w ∈ k.words, IsWord w := by cases k <;> decide
  simp only [List.forall_mem_cons, List.forall_mem_map, List.forall_mem_flatMap, clear_singleton]
  exact ⟨h, htype, fun k _ w hw => hconstraint k w hw⟩

theorem clear_reference {r : Reference} (hcolumn : Writable r.column) (htable : Writable r.table)
    (htarget : Writable r.target) : Clear r.pieces := by
  have hwords : IsWord "FOREIGN" ∧ IsWord "KEY" ∧ IsWord "REFERENCES" ∧ IsWord "ON" ∧
      IsWord "DELETE" ∧ IsWord "CASCADE" ∧ IsWord "UPDATE" := by decide
  simpa [Reference.pieces, hwords, Piece.Sound] using ⟨hcolumn, htable, htarget⟩

theorem clear_createTable {table : CreateTable} (hname : Writable table.name)
    (hcolumns : ∀ c ∈ table.columns, Writable c.name)
    (hreference : ∀ r ∈ table.reference,
      Writable r.column ∧ Writable r.table ∧ Writable r.target) : Clear table.pieces := by
  have hwords : IsWord "CREATE" ∧ IsWord "TABLE" ∧ IsWord "IF" ∧ IsWord "NOT" ∧
      IsWord "EXISTS" := by decide
  have hparts : Clear (commaSeparated (table.columns.map ColumnDefinition.pieces ++
      table.reference.toList.map Reference.pieces)) := by
    refine clear_commaSeparated ?_
    simp only [List.forall_mem_append, List.forall_mem_map, Option.mem_toList]
    refine ⟨fun c hc => clear_columnDefinition (hcolumns c hc), fun r hr => ?_⟩
    obtain ⟨hcolumn, htable, htarget⟩ := hreference r hr
    exact clear_reference hcolumn htable htarget
  simpa [CreateTable.pieces, hwords, Piece.Sound, hparts] using hname

theorem clear_createIndex {index : CreateIndex} (hname : Writable index.name)
    (htable : Writable index.table) (hcolumns : ∀ c ∈ index.columns, Writable c) :
    Clear index.pieces := by
  have hwords : IsWord "CREATE" ∧ IsWord "INDEX" ∧ IsWord "IF" ∧ IsWord "NOT" ∧
      IsWord "EXISTS" ∧ IsWord "ON" := by decide
  simpa [CreateIndex.pieces, hwords, Piece.Sound, clear_identifiers hcolumns] using ⟨hname, htable⟩

end Footage.Sql
