import Footage.Proofs.Json.Text
import Footage.Proofs.Sql.Statements

/-! Reading what was written. The text of a value is read as the value, if its numbers
are read from their own texts, the names of its objects ascend, and none of its objects
stands for an embedded text. The text has no null character, whatever the value. -/

namespace Footage.Json

open Reader

/-! ### Values that their texts tell -/

def Fields.names : Fields → List String
  | .nil => []
  | .cons name _ rest => name :: rest.names

/-- The fields of one object after those of another one. -/
def Fields.append : Fields → Fields → Fields
  | .nil, fields => fields
  | .cons name v rest, fields => .cons name v (rest.append fields)

mutual

/-- How many arrays and objects stand around the innermost value. -/
def Value.height : Value → ℕ
  | .array items => items.height + 1
  | .object fields => fields.height + 1
  | _ => 0

def Items.height : Items → ℕ
  | .nil => 0
  | .cons v rest => max v.height rest.height

def Fields.height : Fields → ℕ
  | .nil => 0
  | .cons _ v rest => max v.height rest.height

end

mutual

/-- The numbers in a value are read from their texts, and the names of each object ascend and do not
begin with the embedding name. -/
def Value.Legible : Value → Prop
  | .number n => Number.read? n.text = some (n, [])
  | .array items => items.Legible
  | .object fields =>
    fields.names.Pairwise (· < ·) ∧ fields.names.head? ≠ some embeddingName ∧ fields.Legible
  | _ => True

def Items.Legible : Items → Prop
  | .nil => True
  | .cons v rest => v.Legible ∧ rest.Legible

def Fields.Legible : Fields → Prop
  | .nil => True
  | .cons _ v rest => v.Legible ∧ rest.Legible

end

mutual

def Value.decidableLegible : ∀ v : Value, Decidable v.Legible
  | .null => .isTrue trivial
  | .bool _ => .isTrue trivial
  | .number n => inferInstanceAs (Decidable (Number.read? n.text = some (n, [])))
  | .string _ => .isTrue trivial
  | .array items => items.decidableLegible
  | .object fields =>
    @instDecidableAnd _ _ _ (@instDecidableAnd _ _ _ fields.decidableLegible)

def Items.decidableLegible : ∀ items : Items, Decidable items.Legible
  | .nil => .isTrue trivial
  | .cons v rest => @instDecidableAnd _ _ v.decidableLegible rest.decidableLegible

def Fields.decidableLegible : ∀ fields : Fields, Decidable fields.Legible
  | .nil => .isTrue trivial
  | .cons _ v rest => @instDecidableAnd _ _ v.decidableLegible rest.decidableLegible

end

instance (v : Value) : Decidable v.Legible := v.decidableLegible

instance (fields : Fields) : Decidable fields.Legible := fields.decidableLegible

/-! ### Fields in order -/

namespace Fields

theorem append_assoc : ∀ a b c : Fields, (a.append b).append c = a.append (b.append c)
  | .nil, _, _ => rfl
  | .cons name v rest, b, c => by rw [append, append, append, append_assoc rest b c]

theorem names_append : ∀ a b : Fields, (a.append b).names = a.names ++ b.names
  | .nil, _ => rfl
  | .cons name v rest, b => by rw [append, names, names, names_append rest b, List.cons_append]

/-- A field whose name is greater than those before comes last. -/
theorem insert_of_lt {name : String} (v : Value) :
    ∀ {fields : Fields}, (∀ n ∈ fields.names, n < name) →
      fields.insert name v = fields.append (.cons name v .nil)
  | .nil, _ => rfl
  | .cons name' v' rest, h => by
    obtain ⟨hlt, hrest⟩ := List.forall_mem_cons.1 h
    have hne : name ≠ name' := by
      rintro rfl
      exact String.lt_irrefl _ hlt
    rw [insert, if_neg hne, if_neg (String.lt_asymm hlt), insert_of_lt v hrest, append]

end Fields

/-! ### Reading -/

theorem isBlank_eq_false {c : Char} (hc : c = '-' ∨ c.isDigit) : isBlank c = false := by
  rw [Bool.eq_false_iff]
  intro h
  simp only [isBlank, Bool.or_eq_true, decide_eq_true_eq] at h
  rcases h with ((rfl | rfl) | rfl) | rfl <;> exact absurd hc (by decide)

/-- The text of a value starts with a character that is no blank and closes nothing. -/
theorem Value.characters_head {v : Value} (hv : v.Legible) :
    ∃ c cs, v.characters = c :: cs ∧ isBlank c = false ∧ c ≠ ']' := by
  cases v with
  | number n =>
    obtain ⟨c, cs, htext, hc⟩ := Number.head_of_read? hv
    refine ⟨c, cs, htext, isBlank_eq_false hc, ?_⟩
    rintro rfl
    exact absurd hc (by decide)
  | bool b => cases b <;> exact ⟨_, _, rfl, by decide, by decide⟩
  | _ => exact ⟨_, _, rfl, by decide, by decide⟩

theorem Items.characters_head {v : Value} {rest : Items} (h : (Items.cons v rest).Legible) :
    ∃ c cs, (Items.cons v rest).characters = c :: cs ∧ isBlank c = false ∧ c ≠ ']' := by
  obtain ⟨c, cs, htext, hc⟩ := v.characters_head h.1
  cases rest with
  | nil => exact ⟨c, cs, htext, hc⟩
  | cons v' rest => exact ⟨c, _, by rw [characters, htext, List.cons_append], hc⟩

theorem Fields.characters_head (name : String) (v : Value) (rest : Fields) :
    ∃ more, (Fields.cons name v rest).characters = quoted name ++ ':' :: more := by
  cases rest with
  | nil => exact ⟨_, rfl⟩
  | cons name' v' rest => exact ⟨_, by rw [characters, List.append_assoc, List.cons_append]⟩

theorem readValue?_number {c : Char} (hc : c = '-' ∨ c.isDigit) (fuel depth : ℕ) (cs : List Char) :
    readValue? (fuel + 1) depth (c :: cs) =
      (Number.read? (c :: cs)).map fun (n, rest) => (.number n, rest) := by
  rw [readValue?, skipBlank_cons (isBlank_eq_false hc)]
  split
  all_goals first
    | rfl
    | next h =>
      obtain ⟨rfl, -⟩ := List.cons.inj h
      exact absurd hc (by decide)

/-- An array is read where its items are. -/
theorem readValue?_array {v : Value} {rest : Items} (hv : (Items.cons v rest).Legible)
    {fuel depth : ℕ} {tail : List Char}
    (h : readItems? fuel depth ((Items.cons v rest).characters ++ ']' :: tail) =
      some (.cons v rest, tail)) :
    readValue? (fuel + 1) (depth + 1) ((Value.array (.cons v rest)).characters ++ tail) =
      some (.array (.cons v rest), tail) := by
  obtain ⟨c, cs, htext, hblank, hclose⟩ := Items.characters_head hv
  have hchars : (Value.array (.cons v rest)).characters ++ tail =
      '[' :: ((Items.cons v rest).characters ++ ']' :: tail) := by simp [Value.characters]
  rw [hchars, readValue?, skipBlank_cons (by decide)]
  simp only
  rw [htext, List.cons_append, skipBlank_cons hblank]
  split
  · next heq => exact absurd (List.cons.inj heq).1 hclose
  · rw [← List.cons_append, ← htext, h, Option.map_some]

/-- An object is read where its fields are, unless its first name embeds a text. -/
theorem readValue?_object {name : String} (hname : name ≠ embeddingName) {v : Value} {rest : Fields}
    {fuel depth : ℕ} {tail : List Char}
    (h : readFields? fuel depth .nil ((Fields.cons name v rest).characters ++ '}' :: tail) =
      some (.cons name v rest, tail)) :
    readValue? (fuel + 1) (depth + 1) ((Value.object (.cons name v rest)).characters ++ tail) =
      some (.object (.cons name v rest), tail) := by
  obtain ⟨more, htext⟩ := Fields.characters_head name v rest
  have hchars : (Value.object (.cons name v rest)).characters ++ tail =
      '{' :: ((Fields.cons name v rest).characters ++ '}' :: tail) := by simp [Value.characters]
  have hfirst : (readName? ((Fields.cons name v rest).characters ++ '}' :: tail)).map (·.1) ≠
      some embeddingName := by
    rw [htext, List.append_assoc, List.cons_append, readName?_quoted]
    exact fun heq => hname (Option.some.inj heq)
  have hopen : (Fields.cons name v rest).characters ++ '}' :: tail =
      '"' :: (name.toList.flatMap escaped ++ '"' :: ':' :: (more ++ '}' :: tail)) := by
    simp [htext, quoted]
  rw [hchars, readValue?, skipBlank_cons (by decide)]
  simp only
  rw [hopen, skipBlank_cons (by decide), ← hopen]
  split
  · next heq =>
    rw [hopen] at heq
    exact absurd (List.cons.inj heq).1 (by decide)
  · rw [if_neg hfirst, h]
    rfl

mutual

/-- A value is read from its text, whatever mark comes next. -/
theorem readValue?_characters : ∀ (v : Value) (fuel depth : ℕ) (tail : List Char), v.Legible →
    v.height ≤ depth → 2 * v.characters.length ≤ fuel → Ends tail →
      readValue? fuel depth (v.characters ++ tail) = some (v, tail)
  | v, 0, depth, tail, hv, _, hfuel, _ => by
    obtain ⟨c, cs, htext, -⟩ := v.characters_head hv
    rw [htext, List.length_cons] at hfuel
    omega
  | .null, fuel + 1, depth, tail, _, _, _, _ => by
    rw [readValue?, Value.characters]
    rfl
  | .bool false, fuel + 1, depth, tail, _, _, _, _ => by
    rw [readValue?, Value.characters]
    rfl
  | .bool true, fuel + 1, depth, tail, _, _, _, _ => by
    rw [readValue?, Value.characters]
    rfl
  | .number n, fuel + 1, depth, tail, hv, _, _, htail => by
    obtain ⟨c, cs, htext, hc⟩ := Number.head_of_read? hv
    have hread := Number.read?_append htail hv
    rw [htext] at hread
    rw [Value.characters, htext, List.cons_append, readValue?_number hc, ← List.cons_append, hread]
    rfl
  | .string s, fuel + 1, depth, tail, _, _, _, _ => by
    have htext : (Value.string s).characters ++ tail =
        '"' :: (s.toList.flatMap escaped ++ '"' :: tail) := by simp [Value.characters, quoted]
    rw [htext, readValue?, skipBlank_cons (by decide)]
    simp only [readString?_escaped, Option.map_some]
  | .array items, fuel + 1, 0, tail, _, hheight, _, _ => by
    rw [Value.height] at hheight
    omega
  | .array .nil, fuel + 1, depth + 1, tail, _, _, _, _ => by
    rw [readValue?, Value.characters]
    rfl
  | .array (.cons v rest), fuel + 1, depth + 1, tail, hv, hheight, hfuel, _ => by
    simp only [Value.height, Value.characters, List.length_cons, List.length_append,
      List.length_nil] at hheight hfuel
    have hitems := readItems?_characters (.cons v rest) fuel depth tail (by simp) hv
      (Nat.le_of_succ_le_succ hheight) (by omega)
    exact readValue?_array hv hitems
  | .object fields, fuel + 1, 0, tail, _, hheight, _, _ => by
    rw [Value.height] at hheight
    omega
  | .object .nil, fuel + 1, depth + 1, tail, _, _, _, _ => by
    rw [readValue?, Value.characters]
    rfl
  | .object (.cons name v rest), fuel + 1, depth + 1, tail, hv, hheight, hfuel, _ => by
    obtain ⟨hnames, hname, hrest⟩ := hv
    simp only [Value.height, Value.characters, List.length_cons, List.length_append,
      List.length_nil] at hheight hfuel
    have hfields := readFields?_characters (.cons name v rest) fuel depth .nil tail (by simp) hrest
      hnames (Nat.le_of_succ_le_succ hheight) (by omega)
    exact readValue?_object (fun heq => hname (congrArg some heq)) hfields

theorem readItems?_characters : ∀ (items : Items) (fuel depth : ℕ) (tail : List Char),
    items ≠ .nil → items.Legible → items.height ≤ depth → 2 * items.characters.length + 1 ≤ fuel →
      readItems? fuel depth (items.characters ++ ']' :: tail) = some (items, tail)
  | .nil, _, _, _, h, _, _, _ => absurd rfl h
  | _, 0, _, _, _, _, _, hfuel => by omega
  | .cons v .nil, fuel + 1, depth, tail, _, hv, hheight, hfuel => by
    have hread := readValue?_characters v fuel depth (']' :: tail) hv.1
      ((le_max_left _ _).trans hheight) (by rw [Items.characters] at hfuel; omega)
      (ends_cons (by decide) _)
    simp only [readItems?, Items.characters, hread, Option.bind_eq_bind, Option.bind_some,
      skipBlank_cons (show isBlank ']' = false by decide)]
    rfl
  | .cons v (.cons v' rest), fuel + 1, depth, tail, _, hv, hheight, hfuel => by
    simp only [Items.characters, List.length_append, List.length_cons] at hfuel
    have hread := readValue?_characters v fuel depth
      (',' :: ((Items.cons v' rest).characters ++ ']' :: tail)) hv.1
      ((le_max_left _ _).trans hheight) (by omega) (ends_cons (by decide) _)
    have hrest := readItems?_characters (.cons v' rest) fuel depth tail (by simp) hv.2
      ((le_max_right _ _).trans hheight) (by omega)
    rw [Items.characters, List.append_assoc, List.cons_append]
    simp only [readItems?, hread, hrest, Option.bind_eq_bind, Option.bind_some,
      skipBlank_cons (show isBlank ',' = false by decide)]
    rfl

theorem readFields?_characters : ∀ (fields : Fields) (fuel depth : ℕ) (before : Fields)
    (tail : List Char), fields ≠ .nil → fields.Legible →
      (before.names ++ fields.names).Pairwise (· < ·) → fields.height ≤ depth →
      2 * fields.characters.length + 1 ≤ fuel →
        readFields? fuel depth before (fields.characters ++ '}' :: tail) =
          some (before.append fields, tail)
  | .nil, _, _, _, _, h, _, _, _, _ => absurd rfl h
  | _, 0, _, _, _, _, _, _, _, hfuel => by omega
  | .cons name v .nil, fuel + 1, depth, before, tail, _, hv, hnames, hheight, hfuel => by
    simp only [Fields.characters, List.length_append, List.length_cons] at hfuel
    have hread := readValue?_characters v fuel depth ('}' :: tail) hv.1
      ((le_max_left _ _).trans hheight) (by omega) (ends_cons (by decide) _)
    have hbefore := (List.pairwise_append.1 hnames).2.2
    rw [Fields.characters, List.append_assoc, List.cons_append]
    simp only [readFields?, readName?_quoted, hread, Option.bind_eq_bind, Option.bind_some,
      skipBlank_cons (show isBlank '}' = false by decide)]
    rw [Fields.insert_of_lt v fun n hn => hbefore n hn name List.mem_cons_self]
    rfl
  | .cons name v (.cons name' v' rest), fuel + 1, depth, before, tail, _, hv, hnames, hheight,
      hfuel => by
    simp only [Fields.characters, List.length_append, List.length_cons] at hfuel
    have hread := readValue?_characters v fuel depth
      (',' :: ((Fields.cons name' v' rest).characters ++ '}' :: tail)) hv.1
      ((le_max_left _ _).trans hheight) (by omega) (ends_cons (by decide) _)
    have hbefore := (List.pairwise_append.1 hnames).2.2
    have hrest := readFields?_characters (.cons name' v' rest) fuel depth
      (before.append (.cons name v .nil)) tail (by simp) hv.2
      (by rw [Fields.names_append, List.append_assoc]; exact hnames)
      ((le_max_right _ _).trans hheight) (by omega)
    rw [Fields.append_assoc] at hrest
    rw [Fields.characters, List.append_assoc, List.append_assoc, List.cons_append, List.cons_append]
    simp only [readFields?, readName?_quoted, hread, Option.bind_eq_bind, Option.bind_some,
      skipBlank_cons (show isBlank ',' = false by decide)]
    rw [Fields.insert_of_lt v fun n hn => hbefore n hn name List.mem_cons_self, hrest]
    rfl

end

/-- The text of a value is read as the value. -/
theorem read?_text {v : Value} {depth : ℕ} (hv : v.Legible) (hdepth : v.height ≤ depth) :
    read? depth v.text = some v := by
  have hread := readValue?_characters v (2 * v.characters.length + 2) depth [] hv hdepth (by omega)
    ends_nil
  rw [List.append_nil] at hread
  rw [read?, Value.text, String.toList_ofList]
  simp only [hread]
  rfl

/-! ### No null characters -/

theorem null_notMem_escaped (c : Char) : '\x00' ∉ escaped c := by
  have hdigit : ∀ d < 16, '\x00' ≠ d.digitChar := by decide
  unfold escaped
  split_ifs with _ _ _ _ _ _ _ hcontrol
  iterate 7 decide
  · simp [hdigit _ (show c.toNat / 16 < 16 by omega), hdigit _ (show c.toNat % 16 < 16 by omega)]
  · rw [List.mem_singleton]
    rintro rfl
    exact hcontrol (by decide)

theorem null_notMem_quoted (s : String) : '\x00' ∉ quoted s := by
  have hbody : '\x00' ∉ s.toList.flatMap escaped := by
    simp [null_notMem_escaped]
  simpa [quoted] using hbody

theorem null_notMem_of_isDigit {cs : List Char} (h : ∀ c ∈ cs, c.isDigit) : '\x00' ∉ cs :=
  fun hc => absurd (h _ hc) (by decide)

theorem null_notMem_toDigits (n : ℕ) : '\x00' ∉ Nat.toDigits 10 n :=
  null_notMem_of_isDigit Sql.isDigit_of_mem_toDigits

theorem null_notMem_positional (d : Decimal) : '\x00' ∉ d.positional := by
  obtain ⟨c, cs, fraction, htext, hc, hcs, hfraction⟩ := Sql.isNumeral_positional d
  rw [String.toList_ofList] at htext
  have hwhole : '\x00' ∉ c :: cs := null_notMem_of_isDigit (List.forall_mem_cons.2 ⟨hc, hcs⟩)
  rw [htext, List.mem_append, not_or]
  refine ⟨hwhole, ?_⟩
  rcases hfraction with rfl | ⟨ds, rfl, hds⟩
  · exact List.not_mem_nil
  · exact List.not_mem_cons_of_ne_of_not_mem (by decide) (null_notMem_of_isDigit hds)

theorem null_notMem_scientific (d : Decimal) : '\x00' ∉ d.scientific := by
  have htail : '\x00' ∉ (if d.leadingExponent < 0 then "e-".toList else "e+".toList) ++
      Nat.toDigits 10 d.leadingExponent.natAbs := by
    rw [List.mem_append, not_or]
    exact ⟨by split_ifs <;> decide, null_notMem_toDigits _⟩
  have hdigits := null_notMem_toDigits d.digits
  unfold Decimal.scientific
  simp only
  generalize Nat.toDigits 10 d.digits = digits at hdigits
  rcases digits with _ | ⟨c, _ | ⟨c', rest⟩⟩
  · exact htail
  · exact List.not_mem_cons_of_ne_of_not_mem (List.ne_of_not_mem_cons hdigits) htail
  · have hrest := List.not_mem_of_not_mem_cons hdigits
    refine List.not_mem_cons_of_ne_of_not_mem (List.ne_of_not_mem_cons hdigits) ?_
    exact List.not_mem_cons_of_ne_of_not_mem (by decide)
      (List.mem_append.not.2 (not_or.2 ⟨hrest, htail⟩))

theorem null_notMem_realText (x : Binary64) : '\x00' ∉ realText x := by
  cases x with
  | nan => decide
  | number negative rank =>
    have hpoint (d : Decimal) : '\x00' ∉ d.positional ++ ['.', '0'] := by
      rw [List.mem_append, not_or]
      exact ⟨null_notMem_positional d, by decide⟩
    rw [realText]
    have hunsigned (d : Decimal) : '\x00' ∉
        if -5 ≤ d.leadingExponent ∧ d.leadingExponent ≤ 15 then
          if 0 ≤ d.exponent then d.positional ++ ['.', '0'] else d.positional
        else d.scientific := by
      split_ifs
      · exact hpoint d
      · exact null_notMem_positional d
      · exact null_notMem_scientific d
    split
    · decide
    · split
      · exact List.not_mem_cons_of_ne_of_not_mem (by decide) (hunsigned _)
      · exact hunsigned _

theorem null_notMem_text (n : Number) : '\x00' ∉ n.text := by
  cases n with
  | real x => exact null_notMem_realText x
  | integer n =>
    have hnatural : '\x00' ∉ (Numeral.natural n.natAbs).toList := by
      rw [Numeral.natural, String.toList_ofList]
      exact null_notMem_toDigits _
    rw [Number.text, Numeral.integer]
    split_ifs
    · rw [String.toList_append, List.mem_append, not_or]
      exact ⟨by decide, hnatural⟩
    · exact hnatural

mutual

theorem Value.null_notMem_characters : ∀ v : Value, '\x00' ∉ v.characters
  | .null => by decide
  | .bool false => by decide
  | .bool true => by decide
  | .number n => null_notMem_text n
  | .string s => null_notMem_quoted s
  | .array items => by
    simpa [Value.characters] using items.null_notMem_characters
  | .object fields => by
    simpa [Value.characters] using fields.null_notMem_characters

theorem Items.null_notMem_characters : ∀ items : Items, '\x00' ∉ items.characters
  | .nil => List.not_mem_nil
  | .cons v .nil => v.null_notMem_characters
  | .cons v (.cons v' rest) => by
    simpa [Items.characters] using
      ⟨v.null_notMem_characters, (Items.cons v' rest).null_notMem_characters⟩

theorem Fields.null_notMem_characters : ∀ fields : Fields, '\x00' ∉ fields.characters
  | .nil => List.not_mem_nil
  | .cons name v .nil => by
    simpa [Fields.characters] using ⟨null_notMem_quoted name, v.null_notMem_characters⟩
  | .cons name v (.cons name' v' rest) => by
    simpa [Fields.characters] using ⟨null_notMem_quoted name, v.null_notMem_characters,
      (Fields.cons name' v' rest).null_notMem_characters⟩

end

/-- A statement can write the text of any value. -/
theorem writable_text (v : Value) : Sql.Writable v.text := by
  rw [Sql.Writable, Value.text, String.toList_ofList]
  exact v.null_notMem_characters

end Footage.Json
