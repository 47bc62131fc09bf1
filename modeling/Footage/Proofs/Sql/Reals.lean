import Footage.Proofs.Sql.Statements

/-! Doubles in statements. A finite double is written as a numeral, and a numeral is read as
a number, so that a column of doubles is never given nothing for it. -/

namespace Footage.Sql

open Token

namespace NumericPrefix

variable {c : Char} {cs rest : List Char}

theorem splitSign_digits (hc : c.isDigit) (cs : List Char) :
    splitSign ((c :: cs).dropWhile Value.isSpace) = (false, c :: cs) := by
  have hspace : ¬ Value.isSpace c := by
    intro h
    simp only [Value.isSpace, Bool.or_eq_true, decide_eq_true_eq] at h
    rcases h with ((((rfl | rfl) | rfl) | rfl) | rfl) | rfl <;> exact absurd hc (by decide)
  rw [List.dropWhile_cons_of_neg hspace, splitSign]
  · rintro ds heq
    rw [(List.cons.inj heq).1] at hc
    exact absurd hc (by decide)
  · rintro ds heq
    rw [(List.cons.inj heq).1] at hc
    exact absurd hc (by decide)

theorem splitDigits_digits (hcs : ∀ c ∈ cs, c.isDigit) (hrest : ∀ c ∈ rest.head?, c.isDigit = false) :
    splitDigits (cs ++ rest) = (cs, rest) := by
  rw [splitDigits, takeWhile_append_of_all hcs hrest, dropWhile_append_of_all hcs hrest]

/-- A numeral of a statement is one as a whole. -/
theorem isNumeral_of {s : String} (h : IsNumeral s) : (of s.toList).isNumeral = true := by
  obtain ⟨c, cs, fraction, htext, hc, hcs, hfraction⟩ := h
  have hdigits : ∀ d ∈ c :: cs, d.isDigit := List.forall_mem_cons.2 ⟨hc, hcs⟩
  have hpoint : ∀ d ∈ fraction.head?, d.isDigit = false := by
    rcases hfraction with rfl | ⟨ds, rfl, -⟩
    · simp
    · rintro d ⟨⟩
      decide
  have hwhole := splitDigits_digits hdigits hpoint
  rw [List.cons_append] at hwhole
  rw [htext, List.cons_append, of, splitSign_digits hc]
  simp only [hwhole]
  rcases hfraction with rfl | ⟨ds, rfl, hds⟩
  · rfl
  · have hall : splitDigits (ds ++ []) = (ds, []) := splitDigits_digits hds (by simp)
    rw [List.append_nil] at hall
    simp only [hall]
    rfl

end NumericPrefix

theorem readNumeral_ne_null {s : String} (h : IsNumeral s) : readNumeral s ≠ .null := by
  rw [readNumeral, number?]
  simp only [NumericPrefix.isNumeral_of h, Bool.not_true, Bool.false_eq_true, if_false]
  split_ifs
  · unfold NumericPrefix.integer
    simp only [Option.getD_some]
    split_ifs <;> simp
  · simp

/-- A finite double is written as a number. -/
theorem asWritten_real_ne_null {x : Binary64} (hx : x.isFinite) : (Value.real x).asWritten ≠ .null := by
  cases x with
  | nan => cases hx
  | number negative rank =>
    have hfinite : rank.val ≠ Binary64.infinityRank := by
      intro h
      simp [Binary64.isFinite, h] at hx
    have hread := readNumeral_ne_null (isNumeral_positional (Binary64.shortest .up rank))
    rw [Value.asWritten, if_neg hfinite]
    split_ifs
    · generalize readNumeral (String.ofList (Binary64.shortest .up rank).positional) = v at hread
      cases v <;> simp_all [Value.negated]
    · exact hread

end Footage.Sql
