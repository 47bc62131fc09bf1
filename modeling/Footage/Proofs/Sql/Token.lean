import Footage.Proofs.Sql.Literals
import Mathlib.Data.List.TakeWhile

/-! How the text of a statement is split into tokens: the longest one is taken in each place, a quote
written twice stands for one, and blanks and comments are left out. A text that is written between
quotes is read back, whatever it is. -/

namespace Footage.Sql

inductive Token where
  /-- A keyword or a name without quotes. -/
  | word (s : String)
  | identifier (s : String)
  | literal (s : String)
  | blob (s : String)
  | number (s : String)
  | parameter (s : String)
  | operator (s : String)
  | illegal (s : String)
  deriving DecidableEq, Repr

namespace Token

/-! ### Characters -/

def isNameChar (c : Char) : Bool := c.isAlphanum || c = '_' || c = '$' || 0x80 ≤ c.toNat

/-- A vertical tab goes on with blanks but does not start them. -/
def startsBlanks (c : Char) : Bool := Value.isSpace c && c ≠ '\x0b'

def isHexDigit (c : Char) : Bool := (Numeral.digitValue? 16 c).isSome

/-- Digits may be set apart by bars. -/
def isDigitOrBar (c : Char) : Bool := c.isDigit || c = '_'

/-! ### Ends of tokens -/

/-- Reads up to the quote that ends a text, and undoes the quotes in it. -/
def unquote? (quote : Char) : List Char → Option (List Char × List Char)
  | [] => none
  | [c] => if c = quote then some ([], []) else none
  | c :: d :: rest =>
    if c = quote then
      if d = quote then (unquote? quote rest).map fun r => (quote :: r.1, r.2)
      else some ([], d :: rest)
    else (unquote? quote (d :: rest)).map fun r => (c :: r.1, r.2)

def afterComment : List Char → List Char
  | [] => []
  | '*' :: '/' :: rest => rest
  | _ :: rest => afterComment rest

def afterFraction : List Char → List Char
  | '.' :: rest => rest.dropWhile isDigitOrBar
  | cs => cs

/-- An exponent counts only with a digit in it. -/
def afterExponent : List Char → List Char
  | [] => []
  | c :: rest =>
    let digits := (splitSign rest).2
    if (c = 'e' ∨ c = 'E') ∧ digits.head?.any Char.isDigit then digits.dropWhile isDigitOrBar
    else c :: rest

/-- What follows a number that starts with `c`, which is a digit or a point. -/
def afterNumber (c : Char) (cs : List Char) : List Char :=
  if c = '.' then afterExponent (cs.dropWhile isDigitOrBar)
  else if c = '0' ∧ (cs.head? = some 'x' ∨ cs.head? = some 'X') ∧ (cs.drop 1).head?.any isHexDigit then
    (cs.drop 1).dropWhile fun c => isHexDigit c || c = '_'
  else afterExponent (afterFraction (cs.dropWhile isDigitOrBar))

/-- Longer operators come before those that they start with. -/
def operators : List String :=
  ["->>", "->", "==", "<=", "<>", "<<", ">=", ">>", "!=", "||", "=", "<", ">", "|", "+", "-", "*",
    "/", "%", "&", "~", ",", ";", "(", ")", "."]

/-! ### One token -/

def readQuoted (quote : Char) (cs : List Char) : Token × List Char :=
  match unquote? quote cs with
  | none => (.illegal (String.ofList (quote :: cs)), [])
  | some (content, rest) =>
    (if quote = '\'' then .literal (String.ofList content) else .identifier (String.ofList content),
      rest)

def readBracketed (cs : List Char) : Token × List Char :=
  if ']' ∈ cs then
    (.identifier (String.ofList (cs.takeWhile (· ≠ ']'))), (cs.dropWhile (· ≠ ']')).drop 1)
  else (.illegal (String.ofList ('[' :: cs)), [])

def readNumber (c : Char) (cs : List Char) : Token × List Char :=
  let rest := (afterNumber c cs).dropWhile isNameChar
  let text := String.ofList (c :: cs.take (cs.length - rest.length))
  (if rest = afterNumber c cs then .number text else .illegal text, rest)

def readBlob (cs : List Char) : Token × List Char :=
  let digits := cs.takeWhile (· ≠ '\'')
  let text := String.ofList digits
  (if '\'' ∈ cs ∧ digits.all isHexDigit ∧ digits.length % 2 = 0 then .blob text else .illegal text,
    (cs.dropWhile (· ≠ '\'')).drop 1)

/-- A parameter is a question mark and digits, or another mark and a name. -/
def readParameter (mark : Char) (cs : List Char) : Token × List Char :=
  let belongs (c : Char) : Bool := if mark = '?' then c.isDigit else isNameChar c
  let text := String.ofList (mark :: cs.takeWhile belongs)
  (if mark ≠ '?' ∧ (cs.takeWhile belongs).isEmpty then .illegal text else .parameter text,
    cs.dropWhile belongs)

def readOperator (c : Char) (cs : List Char) : Token × List Char :=
  match operators.find? fun o => o.toList.isPrefixOf (c :: cs) with
  | some o => (.operator o, cs.drop (o.toList.length - 1))
  | none => (.illegal (String.ofList [c]), cs)

/-- The token that starts with `c`, which starts neither blanks nor a comment. -/
def read (c : Char) (cs : List Char) : Token × List Char :=
  if c = '\'' ∨ c = '"' ∨ c = '`' then readQuoted c cs
  else if c = '[' then readBracketed cs
  else if c.isDigit ∨ (c = '.' ∧ cs.head?.any Char.isDigit) then readNumber c cs
  else if (c = 'x' ∨ c = 'X') ∧ cs.head? = some '\'' then readBlob (cs.drop 1)
  else if c = '?' ∨ c = '@' ∨ c = '#' ∨ c = ':' ∨ c = '$' then readParameter c cs
  else if isNameChar c then
    (.word (String.ofList (c :: cs.takeWhile isNameChar)), cs.dropWhile isNameChar)
  else readOperator c cs

/-- The token that a text starts with, unless it is blank or a comment there, and the rest. -/
def next (c : Char) (cs : List Char) : Option Token × List Char :=
  if startsBlanks c then (none, cs.dropWhile Value.isSpace)
  else if c = '-' ∧ cs.head? = some '-' then (none, cs.dropWhile (· ≠ '\n'))
  else if c = '/' ∧ cs.head? = some '*' ∧ cs ≠ ['*'] then (none, afterComment (cs.drop 1))
  else (some (read c cs).1, (read c cs).2)

/-! ### Progress -/

theorem unquote?_suffix {quote : Char} {cs content rest : List Char}
    (h : unquote? quote cs = some (content, rest)) : rest <:+ cs := by
  induction cs using unquote?.induct quote generalizing content with
  | case1 => cases h
  | case2 => simp_all [unquote?]
  | case3 c hc => simp [unquote?, hc] at h
  | case4 after ih =>
    simp only [unquote?, if_true, Option.map_eq_some_iff, Prod.mk.injEq] at h
    obtain ⟨r, hr, -, rfl⟩ := h
    exact (ih hr).trans ((List.suffix_cons _ _).trans (List.suffix_cons _ _))
  | case5 d after hd =>
    simp only [unquote?, if_true, if_neg hd, Option.some.injEq, Prod.mk.injEq] at h
    exact h.2 ▸ List.suffix_cons _ _
  | case6 c d after hc ih =>
    simp only [unquote?, if_neg hc, Option.map_eq_some_iff, Prod.mk.injEq] at h
    obtain ⟨r, hr, -, rfl⟩ := h
    exact (ih hr).trans (List.suffix_cons _ _)

theorem afterComment_suffix (cs : List Char) : afterComment cs <:+ cs := by
  fun_induction afterComment cs with
  | case1 => exact List.suffix_rfl
  | case2 rest => exact (List.suffix_cons _ _).trans (List.suffix_cons _ _)
  | case3 c rest _ ih => exact ih.trans (List.suffix_cons _ _)

theorem splitSign_suffix (cs : List Char) : (splitSign cs).2 <:+ cs := by
  unfold splitSign
  split
  · exact List.suffix_cons _ _
  · exact List.suffix_cons _ _
  · exact List.suffix_rfl

theorem afterFraction_suffix (cs : List Char) : afterFraction cs <:+ cs := by
  unfold afterFraction
  split
  · exact (List.dropWhile_suffix _).trans (List.suffix_cons _ _)
  · exact List.suffix_rfl

theorem afterExponent_suffix (cs : List Char) : afterExponent cs <:+ cs := by
  cases cs with
  | nil => exact List.suffix_rfl
  | cons c rest =>
    simp only [afterExponent]
    split
    · exact (List.dropWhile_suffix _).trans ((splitSign_suffix rest).trans (List.suffix_cons _ _))
    · exact List.suffix_rfl

theorem afterNumber_suffix (c : Char) (cs : List Char) : afterNumber c cs <:+ cs := by
  unfold afterNumber
  split
  · exact (afterExponent_suffix _).trans (List.dropWhile_suffix _)
  · split
    · exact (List.dropWhile_suffix _).trans (List.drop_suffix _ _)
    · exact (afterExponent_suffix _).trans ((afterFraction_suffix _).trans (List.dropWhile_suffix _))

theorem readQuoted_suffix (quote : Char) (cs : List Char) : (readQuoted quote cs).2 <:+ cs := by
  unfold readQuoted
  cases h : unquote? quote cs with
  | none => exact List.nil_suffix
  | some r => exact unquote?_suffix h

theorem readBracketed_suffix (cs : List Char) : (readBracketed cs).2 <:+ cs := by
  unfold readBracketed
  split
  · exact (List.drop_suffix _ _).trans (List.dropWhile_suffix _)
  · exact List.nil_suffix

theorem readOperator_suffix (c : Char) (cs : List Char) : (readOperator c cs).2 <:+ cs := by
  unfold readOperator
  split
  · exact List.drop_suffix _ _
  · exact List.suffix_rfl

theorem read_suffix (c : Char) (cs : List Char) : (read c cs).2 <:+ cs := by
  unfold read
  split_ifs
  · exact readQuoted_suffix c cs
  · exact readBracketed_suffix cs
  · exact (List.dropWhile_suffix _).trans (afterNumber_suffix c cs)
  · exact (List.drop_suffix _ _).trans ((List.dropWhile_suffix _).trans (List.drop_suffix _ _))
  · exact List.dropWhile_suffix _
  · exact List.dropWhile_suffix _
  · exact readOperator_suffix c cs

theorem next_suffix (c : Char) (cs : List Char) : (next c cs).2 <:+ cs := by
  unfold next
  split_ifs
  · exact List.dropWhile_suffix _
  · exact List.dropWhile_suffix _
  · exact (afterComment_suffix _).trans (List.drop_suffix _ _)
  · exact read_suffix c cs

end Token

/-- The tokens of a text. -/
def tokensOf : List Char → List Token
  | [] => []
  | c :: cs => (Token.next c cs).1.toList ++ tokensOf (Token.next c cs).2
termination_by cs => cs.length
decreasing_by exact Nat.lt_succ_of_le (Token.next_suffix c cs).length_le

/-- The tokens of a statement, which ends at its first null character. -/
def tokens (statement : String) : List Token :=
  tokensOf (statement.toList.takeWhile fun c => c ≠ '\x00')

namespace Token

theorem tokensOf_of_next {c : Char} {cs rest : List Char} {t : Token}
    (h : next c cs = (some t, rest)) : tokensOf (c :: cs) = t :: tokensOf rest := by
  rw [tokensOf, h]
  rfl

/-! ### Texts between quotes -/

theorem unquote?_cons_of_ne {quote c : Char} {cs : List Char} (hc : c ≠ quote) :
    unquote? quote (c :: cs) = (unquote? quote cs).map fun r => (c :: r.1, r.2) := by
  cases cs with
  | nil => simp [unquote?, hc]
  | cons d rest => simp [unquote?, hc]

/-- Quotes that are written twice are undone. -/
theorem unquote?_doubled (quote : Char) (cs : List Char) {rest : List Char}
    (hrest : rest.head? ≠ some quote) :
    unquote? quote ((cs.flatMap fun c => if c = quote then [c, c] else [c]) ++ quote :: rest) =
      some (cs, rest) := by
  induction cs with
  | nil =>
    cases rest with
    | nil => simp [unquote?]
    | cons d rest =>
      have hd : d ≠ quote := fun h => hrest (by rw [h]; rfl)
      simp [unquote?, hd]
  | cons c cs ih =>
    by_cases hc : c = quote
    · subst hc
      simp [unquote?, ih]
    · simp [hc, unquote?_cons_of_ne hc, ih]

theorem tokensOf_literal (s : String) {rest : List Char} (hrest : rest.head? ≠ some '\'') :
    tokensOf (quoted '\'' s.toList ++ rest) = .literal s :: tokensOf rest := by
  have h := unquote?_doubled '\'' s.toList hrest
  simp only [quoted, List.cons_append, List.append_assoc, List.nil_append]
  refine tokensOf_of_next ?_
  simp [next, read, readQuoted, startsBlanks, Value.isSpace, h]

theorem tokensOf_identifier (s : String) {rest : List Char} (hrest : rest.head? ≠ some '"') :
    tokensOf (quoted '"' s.toList ++ rest) = .identifier s :: tokensOf rest := by
  have h := unquote?_doubled '"' s.toList hrest
  simp only [quoted, List.cons_append, List.append_assoc, List.nil_append]
  refine tokensOf_of_next ?_
  simp [next, read, readQuoted, startsBlanks, Value.isSpace, h]

/-! ### Words and numerals -/

theorem isNameChar_of_isAlphanum {c : Char} (h : c.isAlphanum) : isNameChar c := by
  simp [isNameChar, h]

theorem isAlphanum_of_isDigit {c : Char} (h : c.isDigit) : c.isAlphanum := by
  simp [Char.isAlphanum, h]

theorem isAlphanum_of_isAlpha {c : Char} (h : c.isAlpha) : c.isAlphanum := by
  simp [Char.isAlphanum, h]

theorem isDigit_of_isAlpha {c : Char} (h : c.isAlpha) : c.isDigit = false := by
  have hcase : ('A'.val ≤ c.val ∧ c.val ≤ 'Z'.val) ∨ ('a'.val ≤ c.val ∧ c.val ≤ 'z'.val) := by
    have hcase : c.isUpper ∨ c.isLower := Bool.or_eq_true_iff.1 h
    refine hcase.imp of_decide_eq_true fun hlower => ?_
    simpa using show (decide ('a'.val ≤ c.val) && decide (c.val ≤ 'z'.val)) = true from hlower
  simp only [UInt32.le_iff_toNat_le] at hcase
  simp only [Char.isDigit, Bool.and_eq_false_iff, decide_eq_false_iff_not, ge_iff_le,
    UInt32.le_iff_toNat_le]
  have : '9'.val.toNat = 57 := rfl
  have : 'A'.val.toNat = 65 := rfl
  have : 'a'.val.toNat = 97 := rfl
  omega

theorem isDigitOrBar_of_not_isNameChar {c : Char} (h : isNameChar c = false) :
    isDigitOrBar c = false := by
  simp_all [isNameChar, isDigitOrBar, Char.isAlphanum]

theorem dropWhile_append_of_all {p : Char → Bool} {cs rest : List Char} (h : ∀ c ∈ cs, p c)
    (hrest : ∀ d ∈ rest.head?, p d = false) : (cs ++ rest).dropWhile p = rest := by
  rw [List.dropWhile_append_of_pos h]
  cases rest with
  | nil => rfl
  | cons d rest => rw [List.dropWhile_cons_of_neg]; simp [hrest d rfl]

theorem takeWhile_append_of_all {p : Char → Bool} {cs rest : List Char} (h : ∀ c ∈ cs, p c)
    (hrest : ∀ d ∈ rest.head?, p d = false) : (cs ++ rest).takeWhile p = cs := by
  rw [List.takeWhile_append_of_pos h]
  cases rest with
  | nil => simp
  | cons d rest => rw [List.takeWhile_cons_of_neg] <;> simp [hrest d rfl]

/-- No letter and no digit has another part than to belong to a number, a blob or a word. -/
theorem next_of_isAlphanum {c : Char} (hc : c.isAlphanum) (cs : List Char) :
    next c cs =
      if c.isDigit then (some (readNumber c cs).1, (readNumber c cs).2)
      else if (c = 'x' ∨ c = 'X') ∧ cs.head? = some '\'' then
        (some (readBlob (cs.drop 1)).1, (readBlob (cs.drop 1)).2)
      else (some (.word (String.ofList (c :: cs.takeWhile isNameChar))), cs.dropWhile isNameChar) := by
  have hne {d : Char} (hd : d.isAlphanum = false) : c ≠ d := by
    rintro rfl
    simp [hd] at hc
  have hblank : startsBlanks c = false := by
    simp [startsBlanks, Value.isSpace, hne (d := ' ') rfl, hne (d := '\t') rfl, hne (d := '\n') rfl,
      hne (d := '\x0b') rfl, hne (d := '\x0c') rfl, hne (d := '\r') rfl]
  simp only [next, read, hblank, hne (d := '-') rfl, hne (d := '/') rfl, hne (d := '\'') rfl,
    hne (d := '"') rfl, hne (d := '`') rfl, hne (d := '[') rfl, hne (d := '.') rfl,
    hne (d := '?') rfl, hne (d := '@') rfl, hne (d := '#') rfl, hne (d := ':') rfl,
    hne (d := '$') rfl, isNameChar_of_isAlphanum hc, false_and, or_false, if_false, if_true,
    Bool.false_eq_true]
  split_ifs <;> rfl

theorem tokensOf_word {c : Char} {cs rest : List Char} (h : ∀ d ∈ c :: cs, d.isAlpha)
    (hrest : ∀ d ∈ rest.head?, isNameChar d = false ∧ d ≠ '\'') :
    tokensOf (c :: cs ++ rest) = .word (String.ofList (c :: cs)) :: tokensOf rest := by
  obtain ⟨hc, hcs⟩ := List.forall_mem_cons.1 h
  have hname : ∀ d ∈ cs, isNameChar d := fun d hd =>
    isNameChar_of_isAlphanum (isAlphanum_of_isAlpha (hcs d hd))
  have hend : ∀ d ∈ rest.head?, isNameChar d = false := fun d hd => (hrest d hd).1
  -- A word of one letter could start a blob if a quote came next.
  have hblob : (cs ++ rest).head? ≠ some '\'' := by
    cases cs with
    | nil => exact fun hd => (hrest '\'' hd).2 rfl
    | cons d cs =>
      intro hd
      have hd : d = '\'' := by simpa using hd
      subst hd
      exact absurd (hcs '\'' (by simp)) (by decide)
  rw [List.cons_append]
  refine tokensOf_of_next ?_
  rw [next_of_isAlphanum (isAlphanum_of_isAlpha hc), isDigit_of_isAlpha hc,
    takeWhile_append_of_all hname hend, dropWhile_append_of_all hname hend,
    if_neg Bool.false_ne_true, if_neg fun h => hblob h.2]

/-- Nothing, or a point and digits. -/
def IsFraction (cs : List Char) : Prop :=
  cs = [] ∨ ∃ digits, cs = '.' :: digits ∧ ∀ d ∈ digits, d.isDigit

/-- What comes next is no part of a number. -/
def EndsNumber (rest : List Char) : Prop := ∀ d ∈ rest.head?, isNameChar d = false ∧ d ≠ '.'

theorem afterExponent_eq_self {rest : List Char} (h : EndsNumber rest) :
    afterExponent rest = rest := by
  cases rest with
  | nil => rfl
  | cons d rest =>
    refine if_neg ?_
    rintro ⟨rfl | rfl, -⟩ <;> exact absurd (h _ rfl).1 (by decide)

theorem afterFraction_append {fraction rest : List Char} (hfraction : IsFraction fraction)
    (h : EndsNumber rest) : afterFraction (fraction ++ rest) = rest := by
  rcases hfraction with rfl | ⟨digits, rfl, hdigits⟩
  · rw [List.nil_append, afterFraction]
    rintro digits rfl
    exact absurd rfl (h _ rfl).2
  · refine dropWhile_append_of_all (fun d hd => ?_) fun d hd => ?_
    · simp [isDigitOrBar, hdigits d hd]
    · exact isDigitOrBar_of_not_isNameChar (h d hd).1

theorem afterNumber_decimal {c : Char} {cs fraction rest : List Char} (hc : c.isDigit)
    (hcs : ∀ d ∈ cs, d.isDigit) (hfraction : IsFraction fraction) (h : EndsNumber rest) :
    afterNumber c (cs ++ (fraction ++ rest)) = rest := by
  have hhead : ∀ d ∈ (fraction ++ rest).head?, isNameChar d = false := by
    rcases hfraction with rfl | ⟨digits, rfl, -⟩
    · exact fun d hd => (h d hd).1
    · rintro d ⟨⟩
      decide
  have hx {x : Char} (hx : isNameChar x) (hdigit : x.isDigit = false) :
      (cs ++ (fraction ++ rest)).head? ≠ some x := by
    intro heq
    cases cs with
    | nil => simp [hhead x heq] at hx
    | cons d cs =>
      have heq : d = x := by simpa using heq
      simp [← heq, hcs d] at hdigit
  have hpoint : c ≠ '.' := by
    rintro rfl
    exact absurd hc (by decide)
  have hwhole : (cs ++ (fraction ++ rest)).dropWhile isDigitOrBar = fraction ++ rest :=
    dropWhile_append_of_all (fun d hd => by simp [isDigitOrBar, hcs d hd]) fun d hd =>
      isDigitOrBar_of_not_isNameChar (hhead d hd)
  rw [afterNumber, if_neg hpoint, if_neg, hwhole, afterFraction_append hfraction h,
    afterExponent_eq_self h]
  rintro ⟨-, heq | heq, -⟩
  · exact hx (by decide) (by decide) heq
  · exact hx (by decide) (by decide) heq

theorem tokensOf_number {c : Char} {cs fraction rest : List Char} (hc : c.isDigit)
    (hcs : ∀ d ∈ cs, d.isDigit) (hfraction : IsFraction fraction) (h : EndsNumber rest) :
    tokensOf (c :: cs ++ fraction ++ rest) =
      .number (String.ofList (c :: cs ++ fraction)) :: tokensOf rest := by
  have hname : ([] ++ rest).dropWhile isNameChar = rest :=
    dropWhile_append_of_all (by simp) fun d hd => (h d hd).1
  rw [List.nil_append] at hname
  rw [List.append_assoc, List.cons_append]
  refine tokensOf_of_next ?_
  rw [next_of_isAlphanum (isAlphanum_of_isDigit hc), if_pos hc, readNumber]
  simp only [afterNumber_decimal hc hcs hfraction h, hname]
  simp [← List.append_assoc]

/-! ### Operators and blanks -/

theorem next_point {rest : List Char} (h : ∀ d ∈ rest.head?, d.isDigit = false) :
    next '.' rest = (some (.operator "."), rest) := by
  cases rest with
  | nil => rfl
  | cons d rest =>
    simp [next, read, readOperator, startsBlanks, Value.isSpace, isNameChar, operators, h d rfl]

/-- The signs that longer operators and comments start with. -/
def signs : List Char := ['=', '<', '>', '-']

theorem next_sign {c : Char} (hc : c ∈ signs) {rest : List Char}
    (h : ∀ d ∈ rest.head?, d ∉ signs) :
    next c rest = (some (.operator (String.ofList [c])), rest) := by
  simp only [signs, List.mem_cons, List.not_mem_nil, or_false] at hc
  cases rest with
  | nil => rcases hc with rfl | rfl | rfl | rfl <;> rfl
  | cons d rest =>
    have hd := h d rfl
    simp only [signs, List.mem_cons, List.not_mem_nil, or_false, not_or] at hd
    obtain ⟨heq, hless, hgreater, hminus⟩ := hd
    rcases hc with rfl | rfl | rfl | rfl <;>
      simp [next, read, readOperator, startsBlanks, Value.isSpace, isNameChar, operators,
        Ne.symm heq, Ne.symm hless, Ne.symm hgreater, hminus]

theorem tokensOf_blank {rest : List Char} (h : rest.head? ≠ some '\x0b') :
    tokensOf (' ' :: rest) = tokensOf rest := by
  have hskip : tokensOf (' ' :: rest) = tokensOf (rest.dropWhile Value.isSpace) := by
    rw [tokensOf]
    rfl
  rw [hskip]
  cases rest with
  | nil => rfl
  | cons c rest =>
    cases hc : Value.isSpace c with
    | false => rw [List.dropWhile_cons_of_neg (by simp [hc])]
    | true =>
      have hstart : startsBlanks c := by
        have : c ≠ '\x0b' := fun heq => h (by rw [heq]; rfl)
        simp [startsBlanks, hc, this]
      rw [List.dropWhile_cons_of_pos hc, tokensOf, next, if_pos hstart]
      rfl

end Token

end Footage.Sql
