import Footage.Proofs.Sql.Token
import Mathlib.Data.List.Chain

/-! The tokens of a statement are its pieces without the blanks. Two pieces that stand side by side
could run together only where neither is a blank, a parenthesis or a comma, and no statement has them
so but around the point of a column and behind a sign. -/

namespace Footage.Sql

open Token

def Piece.token? : Piece → Option Token
  | .word s => some (.word s)
  | .identifier s => some (.identifier s)
  | .literal s => some (.literal s)
  | .numeral s => some (.number s)
  | .symbol s => some (.operator s)
  | .blank => none

/-! ### Pieces -/

def IsWord (s : String) : Prop := s.toList ≠ [] ∧ ∀ c ∈ s.toList, c.isAlpha

instance (s : String) : Decidable (IsWord s) :=
  decidable_of_iff (s.toList ≠ [] ∧ s.toList.all Char.isAlpha) (by simp [IsWord])

def IsNumeral (s : String) : Prop :=
  ∃ c cs fraction, s.toList = c :: cs ++ fraction ∧ c.isDigit ∧ (∀ d ∈ cs, d.isDigit) ∧
    IsFraction fraction

def symbols : List String := ["(", ")", ",", ".", "=", "<>", "<", "<=", ">", ">=", "+", "-"]

/-- A piece that is one token, or a blank. -/
def Piece.Sound : Piece → Prop
  | .word s => IsWord s
  | .identifier s => Writable s
  | .literal s => Writable s
  | .numeral s => IsNumeral s
  | .symbol s => s ∈ symbols
  | .blank => True

/-- A piece is over where a character follows it. -/
def Piece.EndsBefore : Piece → Char → Prop
  | .word _, c => isNameChar c = false ∧ c ≠ '\''
  | .identifier _, c => c ≠ '"'
  | .literal _, c => c ≠ '\''
  | .numeral _, c => isNameChar c = false ∧ c ≠ '.'
  | .symbol s, c =>
    (s = "." → c.isDigit = false) ∧ (s ∈ ["=", "<", ">", "-"] → c ∉ signs)
  | .blank, c => c ≠ '\x0b'

theorem tokensOf_symbol {s : String} (hs : s ∈ symbols) {rest : List Char}
    (h : ∀ c ∈ rest.head?, (Piece.symbol s).EndsBefore c) :
    tokensOf (s.toList ++ rest) = .operator s :: tokensOf rest := by
  have hpoint (heq : s = ".") : ∀ c ∈ rest.head?, c.isDigit = false := fun c hc => (h c hc).1 heq
  have hsign (hmem : s ∈ ["=", "<", ">", "-"]) : ∀ c ∈ rest.head?, c ∉ signs :=
    fun c hc => (h c hc).2 hmem
  simp only [symbols, List.mem_cons, List.not_mem_nil, or_false] at hs
  rcases hs with rfl | rfl | rfl | rfl | rfl | rfl | rfl | rfl | rfl | rfl | rfl | rfl
  · exact tokensOf_of_next (c := '(') rfl
  · exact tokensOf_of_next (c := ')') rfl
  · exact tokensOf_of_next (c := ',') rfl
  · exact tokensOf_of_next (c := '.') (next_point (hpoint rfl))
  · exact tokensOf_of_next (c := '=') (next_sign (by decide) (hsign (by decide)))
  · exact tokensOf_of_next (c := '<') rfl
  · exact tokensOf_of_next (c := '<') (next_sign (by decide) (hsign (by decide)))
  · exact tokensOf_of_next (c := '<') rfl
  · exact tokensOf_of_next (c := '>') (next_sign (by decide) (hsign (by decide)))
  · exact tokensOf_of_next (c := '>') rfl
  · exact tokensOf_of_next (c := '+') rfl
  · exact tokensOf_of_next (c := '-') (next_sign (by decide) (hsign (by decide)))

theorem tokensOf_piece {p : Piece} (hp : p.Sound) {rest : List Char}
    (h : ∀ c ∈ rest.head?, p.EndsBefore c) :
    tokensOf (p.characters ++ rest) = p.token?.toList ++ tokensOf rest := by
  cases p with
  | word s =>
    obtain ⟨hne, hs⟩ := hp
    obtain ⟨c, cs, hcs⟩ := List.exists_cons_of_ne_nil hne
    have := tokensOf_word (hcs ▸ hs) h
    rwa [← hcs, String.ofList_toList] at this
  | identifier s => exact tokensOf_identifier s fun hc => h _ hc rfl
  | literal s => exact tokensOf_literal s fun hc => h _ hc rfl
  | numeral s =>
    obtain ⟨c, cs, fraction, hs, hc, hcs, hfraction⟩ := hp
    have := tokensOf_number hc hcs hfraction h
    rwa [← hs, String.ofList_toList] at this
  | symbol s => exact tokensOf_symbol hp h
  | blank => exact tokensOf_blank fun hc => h _ hc rfl

/-! ### Neighbours -/

def Piece.isLoose : Piece → Bool
  | .blank => true
  | .symbol s => s ∈ ["(", ")", ","]
  | _ => false

@[simp] theorem Piece.isLoose_blank : Piece.blank.isLoose = true := by simp [isLoose]
@[simp] theorem Piece.isLoose_open : (Piece.symbol "(").isLoose = true := by simp [isLoose]
@[simp] theorem Piece.isLoose_close : (Piece.symbol ")").isLoose = true := by simp [isLoose]

/-- Two pieces stay apart when the second is written behind the first. -/
inductive Apart : Piece → Piece → Prop
  | left {p q : Piece} : p.isLoose → Apart p q
  | right {p q : Piece} : q.isLoose → Apart p q
  | beforePoint (s : String) : Apart (.identifier s) (.symbol ".")
  | afterPoint (s : String) : Apart (.symbol ".") (.identifier s)
  | negativeNumeral (s : String) : Apart (.symbol "-") (.numeral s)
  | negativeWord (s : String) : Apart (.symbol "-") (.word s)

/-- The characters that pieces of a kind start with. -/
def Piece.StartsWith : Piece → Char → Prop
  | .word _, c => c.isAlpha
  | .identifier _, c => c = '"'
  | .literal _, c => c = '\''
  | .numeral _, c => c.isDigit
  | .symbol s, c => s.toList.head? = some c
  | .blank, c => c = ' '

theorem Piece.Sound.exists_start {p : Piece} (hp : p.Sound) :
    ∃ c cs, p.characters = c :: cs ∧ p.StartsWith c := by
  cases p with
  | word s =>
    obtain ⟨c, cs, hcs⟩ := List.exists_cons_of_ne_nil hp.1
    exact ⟨c, cs, hcs, hp.2 c (by rw [hcs]; exact List.mem_cons_self)⟩
  | identifier s => exact ⟨_, _, rfl, rfl⟩
  | literal s => exact ⟨_, _, rfl, rfl⟩
  | numeral s =>
    obtain ⟨c, cs, fraction, hs, hc, -, -⟩ := hp
    exact ⟨c, _, hs, hc⟩
  | symbol s =>
    have hne : ∀ s ∈ symbols, s.toList ≠ [] := by decide
    obtain ⟨c, cs, hcs⟩ := List.exists_cons_of_ne_nil (hne s hp)
    exact ⟨c, cs, hcs, by rw [StartsWith, hcs]; rfl⟩
  | blank => exact ⟨_, _, rfl, rfl⟩

theorem Piece.StartsWith.ne_tab {q : Piece} (hq : q.Sound) {c : Char} (hc : q.StartsWith c) :
    c ≠ '\x0b' := by
  rintro rfl
  cases q with
  | symbol s =>
    have hno : ∀ s ∈ symbols, s.toList.head? ≠ some '\x0b' := by decide
    exact hno s hq hc
  | word s => exact absurd (show Char.isAlpha '\x0b' from hc) (by decide)
  | numeral s => exact absurd (show Char.isDigit '\x0b' from hc) (by decide)
  | _ => exact absurd (show '\x0b' = _ from hc) (by decide)

theorem Piece.StartsWith.mem_of_isLoose {q : Piece} (hq : q.isLoose) {c : Char}
    (hc : q.StartsWith c) : c ∈ [' ', '(', ')', ','] := by
  cases q with
  | blank => exact hc ▸ List.mem_cons_self
  | symbol s =>
    have hs : s = "(" ∨ s = ")" ∨ s = "," := by simpa [isLoose] using hq
    rcases hs with rfl | rfl | rfl <;> cases hc <;> decide
  | _ => cases hq

/-- Any piece ends where a blank, a parenthesis or a comma comes next. -/
theorem Piece.endsBefore_of_mem {c : Char} (hc : c ∈ [' ', '(', ')', ',']) (p : Piece) :
    p.EndsBefore c := by
  cases p with
  | word s =>
    have hends : ∀ c ∈ [' ', '(', ')', ','], isNameChar c = false ∧ c ≠ '\'' := by
      simp [isNameChar]
    exact hends c hc
  | identifier s => exact ne_of_mem_of_not_mem hc (by decide)
  | literal s => exact ne_of_mem_of_not_mem hc (by decide)
  | numeral s =>
    have hends : ∀ c ∈ [' ', '(', ')', ','], isNameChar c = false ∧ c ≠ '.' := by
      simp [isNameChar]
    exact hends c hc
  | symbol s =>
    have hends : ∀ c ∈ [' ', '(', ')', ','], c.isDigit = false ∧ c ∉ signs := by simp [signs]
    exact ⟨fun _ => (hends c hc).1, fun _ => (hends c hc).2⟩
  | blank => exact ne_of_mem_of_not_mem hc (by decide)

/-- A blank, a parenthesis or a comma ends whatever piece comes next. -/
theorem Piece.endsBefore_of_isLoose {p q : Piece} (hp : p.isLoose) (hq : q.Sound) {c : Char}
    (hc : q.StartsWith c) : p.EndsBefore c := by
  cases p with
  | blank => exact hc.ne_tab hq
  | symbol s =>
    have hs : s = "(" ∨ s = ")" ∨ s = "," := by simpa [isLoose] using hp
    rcases hs with rfl | rfl | rfl <;>
      exact ⟨fun h => absurd h (by decide), fun h => absurd h (by decide)⟩
  | _ => cases hp

theorem Piece.endsBefore_of_apart {p q : Piece} (h : Apart p q) (hq : q.Sound) {c : Char}
    (hc : q.StartsWith c) : p.EndsBefore c := by
  cases h with
  | left hp => exact endsBefore_of_isLoose hp hq hc
  | right hloose => exact p.endsBefore_of_mem (hc.mem_of_isLoose hloose)
  | beforePoint s =>
    have hc : c = '.' := by simpa [StartsWith, eq_comm] using hc
    exact hc ▸ show '.' ≠ '"' by decide
  | afterPoint s =>
    have hc : c = '"' := hc
    exact ⟨fun _ => hc ▸ by decide, fun h => absurd h (by decide)⟩
  | negativeNumeral s =>
    refine ⟨fun h => absurd h (by decide), fun _ hsign => ?_⟩
    have hno : ∀ c ∈ signs, c.isDigit = false := by simp [signs]
    simp [hno c hsign, StartsWith] at hc
  | negativeWord s =>
    refine ⟨fun h => absurd h (by decide), fun _ hsign => ?_⟩
    have hno : ∀ c ∈ signs, c.isAlpha = false := by simp [signs]
    simp [hno c hsign, StartsWith] at hc

/-! ### Rows of pieces -/

/-- No piece of a row runs together with its neighbours. -/
structure Clear (ps : List Piece) : Prop where
  sound : ∀ p ∈ ps, p.Sound
  apart : ps.IsChain Apart

theorem Clear.tokensOf_characters {ps : List Piece} (h : Clear ps) :
    tokensOf (ps.flatMap Piece.characters) = ps.filterMap Piece.token? := by
  obtain ⟨hsound, hapart⟩ := h
  induction ps with
  | nil => simp [tokensOf]
  | cons p ps ih =>
    obtain ⟨hp, hps⟩ := List.forall_mem_cons.1 hsound
    obtain ⟨hnext, hrest⟩ := List.isChain_cons.1 hapart
    have hends : ∀ c ∈ (ps.flatMap Piece.characters).head?, p.EndsBefore c := by
      intro c hc
      cases ps with
      | nil => cases hc
      | cons q qs =>
        have hq := hps q List.mem_cons_self
        obtain ⟨d, ds, hd, hstart⟩ := hq.exists_start
        have hdc : d = c := by simpa [hd] using hc
        exact Piece.endsBefore_of_apart (hnext q rfl) hq (hdc ▸ hstart)
    rw [List.flatMap_cons, tokensOf_piece hp hends, ih hps hrest]
    cases htoken : p.token? <;> simp [htoken]

theorem not_mem_quoted {quote c : Char} {cs : List Char} (hquote : c ≠ quote) (hc : c ∉ cs) :
    c ∉ quoted quote cs := by
  simp only [quoted, List.cons_append, List.mem_cons, List.mem_append, List.mem_flatMap,
    List.not_mem_nil, or_false, hquote, false_or, not_exists, not_and]
  intro d hd hmem
  have heq : c = d := by split_ifs at hmem <;> simpa using hmem
  exact hc (heq ▸ hd)

theorem Piece.Sound.null_not_mem {p : Piece} (hp : p.Sound) : '\x00' ∉ p.characters := by
  cases p with
  | word s => exact fun h => absurd (hp.2 _ h) (by decide)
  | identifier s => exact not_mem_quoted (by decide) hp
  | literal s => exact not_mem_quoted (by decide) hp
  | numeral s =>
    obtain ⟨c, cs, fraction, hs, hc, hcs, hfraction⟩ := hp
    have hfraction : '\x00' ∉ fraction := by
      rcases hfraction with rfl | ⟨digits, rfl, hdigits⟩
      · exact List.not_mem_nil
      · exact List.not_mem_cons_of_ne_of_not_mem (by decide) fun h =>
          absurd (hdigits _ h) (by decide)
    have hwhole : '\x00' ∉ c :: cs := by
      have hdigits : ∀ d ∈ c :: cs, d.isDigit := List.forall_mem_cons.2 ⟨hc, hcs⟩
      exact fun h => absurd (hdigits _ h) (by decide)
    rw [characters, hs]
    exact List.not_mem_append hwhole hfraction
  | symbol s =>
    have hno : ∀ s ∈ symbols, '\x00' ∉ s.toList := by decide
    exact hno s hp
  | blank => exact fun h => absurd h (by decide)

/-- The tokens of a statement's text are its pieces. -/
theorem Clear.tokens_text {ps : List Piece} (h : Clear ps) :
    tokens (text ps) = ps.filterMap Piece.token? := by
  rw [tokens, text, String.toList_ofList, List.takeWhile_eq_self_iff.2, h.tokensOf_characters]
  intro c hc
  obtain ⟨p, hp, hc⟩ := List.mem_flatMap.1 hc
  exact decide_eq_true fun hnull => (h.sound p hp).null_not_mem (hnull ▸ hc)

/-! ### Building clear rows -/

theorem Piece.sound_of_isLoose {p : Piece} (hp : p.isLoose) : p.Sound := by
  cases p with
  | blank => trivial
  | symbol s =>
    have hs : s = "(" ∨ s = ")" ∨ s = "," := by simpa [isLoose] using hp
    rcases hs with rfl | rfl | rfl <;> exact show _ ∈ symbols by decide
  | _ => cases hp

@[simp] theorem clear_nil : Clear [] := ⟨by simp, List.IsChain.nil⟩

@[simp] theorem clear_singleton {p : Piece} : Clear [p] ↔ p.Sound :=
  ⟨fun h => h.sound p List.mem_cons_self, fun h => ⟨by simpa using h, List.IsChain.singleton p⟩⟩

@[simp] theorem clear_append_loose {p : Piece} (hp : p.isLoose) {ps qs : List Piece} :
    Clear (ps ++ p :: qs) ↔ Clear ps ∧ Clear qs := by
  constructor
  · rintro ⟨hsound, hapart⟩
    rw [List.isChain_append] at hapart
    simp only [List.forall_mem_append, List.forall_mem_cons] at hsound
    exact ⟨⟨hsound.1, hapart.1⟩, ⟨hsound.2.2, (List.isChain_cons.1 hapart.2.1).2⟩⟩
  · rintro ⟨hps, hqs⟩
    refine ⟨?_, List.isChain_append.2 ⟨hps.apart, ?_, ?_⟩⟩
    · simp only [List.forall_mem_append, List.forall_mem_cons]
      exact ⟨hps.sound, Piece.sound_of_isLoose hp, hqs.sound⟩
    · exact List.isChain_cons.2 ⟨fun q _ => .left hp, hqs.apart⟩
    · rintro q - r ⟨⟩
      exact .right hp

@[simp] theorem clear_loose_cons {p : Piece} (hp : p.isLoose) {ps : List Piece} :
    Clear (p :: ps) ↔ Clear ps := by
  have h : Clear ([] ++ p :: ps) ↔ Clear [] ∧ Clear ps := clear_append_loose hp
  simpa using h

@[simp] theorem clear_cons_loose {p q : Piece} (hq : q.isLoose) {ps : List Piece} :
    Clear (p :: q :: ps) ↔ p.Sound ∧ Clear ps := by
  have h : Clear ([p] ++ q :: ps) ↔ Clear [p] ∧ Clear ps := clear_append_loose hq
  simpa using h

/-- A row can go on with nothing, or with a loose piece. -/
theorem Clear.append {ps qs : List Piece} (hps : Clear ps) (hqs : Clear qs)
    (h : ∀ q ∈ qs.head?, q.isLoose) : Clear (ps ++ qs) := by
  cases qs with
  | nil => rwa [List.append_nil]
  | cons q qs =>
    have hq := h q rfl
    exact (clear_append_loose hq).2 ⟨hps, (clear_loose_cons hq).1 hqs⟩

@[simp] theorem clear_words_append (ws : List String) (ps : List Piece) :
    Clear (words ws ++ ps) ↔ (∀ w ∈ ws, IsWord w) ∧ Clear ps := by
  induction ws with
  | nil => simp [words]
  | cons w ws ih =>
    have hcons : words (w :: ws) ++ ps = .word w :: .blank :: (words ws ++ ps) := by simp [words]
    rw [hcons, clear_cons_loose rfl, ih, List.forall_mem_cons, and_assoc]
    rfl

theorem clear_separatedBy {p : Piece} (hp : p.isLoose) (separator : List Piece)
    (hseparator : ∀ ps, Clear ps → Clear (separator ++ ps)) {parts : List (List Piece)}
    (h : ∀ ps ∈ parts, Clear ps) :
    Clear (separatedBy (p :: separator) parts) := by
  induction parts with
  | nil => exact clear_nil
  | cons ps rest ih =>
    obtain ⟨hps, hrest⟩ := List.forall_mem_cons.1 h
    cases rest with
    | nil => exact hps
    | cons qs rest =>
      simp only [separatedBy, List.append_assoc, List.cons_append, clear_append_loose hp]
      exact ⟨hps, hseparator _ (ih hrest)⟩

theorem clear_commaSeparated {parts : List (List Piece)} (h : ∀ ps ∈ parts, Clear ps) :
    Clear (commaSeparated parts) :=
  clear_separatedBy rfl _ (fun ps h => by simpa using h) h

@[simp] theorem clear_parenthesized {ps : List Piece} : Clear (parenthesized ps) ↔ Clear ps := by
  simp [parenthesized]

@[simp] theorem clear_parenthesizedIf {needed : Bool} {ps : List Piece} :
    Clear (parenthesizedIf needed ps) ↔ Clear ps := by
  cases needed <;> simp [parenthesizedIf]

theorem clear_identifiers {names : List String} (h : ∀ name ∈ names, Writable name) :
    Clear (identifiers names) := by
  refine clear_commaSeparated ?_
  simpa [Piece.Sound] using h

theorem separatedBy_cons_eq_append (separator ps : List Piece) (rest : List (List Piece)) :
    ∃ qs, separatedBy separator (ps :: rest) = ps ++ qs := by
  cases rest with
  | nil => exact ⟨[], (List.append_nil ps).symm⟩
  | cons qs rest => exact ⟨_, List.append_assoc _ _ _⟩

theorem clear_names {names : List String} (h : ∀ name ∈ names, Writable name) :
    Clear (separatedBy [.symbol "."] (names.map fun name => [.identifier name])) := by
  induction names with
  | nil => exact clear_nil
  | cons name names ih =>
    obtain ⟨hname, hnames⟩ := List.forall_mem_cons.1 h
    cases names with
    | nil => exact clear_singleton.2 hname
    | cons next names =>
      have ih := ih hnames
      simp only [List.map_cons] at ih ⊢
      obtain ⟨qs, hqs⟩ := separatedBy_cons_eq_append [.symbol "."] [.identifier next]
        (names.map fun name => [.identifier name])
      rw [hqs] at ih
      rw [separatedBy.eq_3 _ _ _ (by simp), hqs]
      refine ⟨?_, ?_⟩
      · simp only [List.cons_append, List.nil_append, List.forall_mem_cons]
        exact ⟨hname, show _ ∈ symbols by decide, by simpa using ih.sound⟩
      · simp only [List.cons_append, List.nil_append, List.isChain_cons_cons]
        exact ⟨.beforePoint name, .afterPoint next, by simpa using ih.apart⟩

end Footage.Sql
