import Footage.Json.Printer
import Footage.Json.Reader
import Mathlib.Data.List.TakeWhile

/-! Strings and numbers in JSON texts. A string is read back from its escapes, whatever
comes after the closing quote. A number has no closing mark: it ends where a character
comes that it cannot go on with, and a value in a text is followed by such a one. -/

namespace Footage.Json

open Reader

/-! ### Strings -/

theorem digitValue?_digitChar : ∀ d < 16, Numeral.digitValue? 16 d.digitChar = some d := by decide

theorem readUnicode?_control {n : ℕ} (hn : n < 0x20) (rest : List Char) :
    readUnicode? ('0' :: '0' :: (n / 16).digitChar :: (n % 16).digitChar :: rest) =
      some (Char.ofNat n, rest) := by
  have hzero : Numeral.digitValue? 16 '0' = some 0 := by decide
  have hhigh := digitValue?_digitChar (n / 16) (by omega)
  have hlow := digitValue?_digitChar (n % 16) (by omega)
  have hunit : readUnit? ('0' :: '0' :: (n / 16).digitChar :: (n % 16).digitChar :: rest) =
      some (n, rest) := by
    simp only [readUnit?, hzero, hhigh, hlow, Option.bind_eq_bind, Option.bind_some]
    exact congrArg (fun k => some (k, rest)) (by omega)
  simp only [readUnicode?, hunit, Option.bind_eq_bind, Option.bind_some]
  rw [if_pos (.inl (by omega))]
  rfl

/-- An escaped character is read as the character. -/
theorem readCharacters?_escaped (fuel : ℕ) (c : Char) (rest : List Char) :
    readCharacters? (fuel + 1) (escaped c ++ rest) =
      (readCharacters? fuel rest).map fun (text, rest) => (c :: text, rest) := by
  have hmap : (do let (text, rest) ← readCharacters? fuel rest; return (c :: text, rest)) =
      (readCharacters? fuel rest).map fun (text, rest) => (c :: text, rest) := by
    cases readCharacters? fuel rest <;> rfl
  rw [← hmap]
  unfold escaped
  split_ifs with hquote hslash hback hfeed hline hreturn htab hcontrol
  · subst hquote; rfl
  · subst hslash; rfl
  · subst hback; rfl
  · subst hfeed; rfl
  · subst hline; rfl
  · subst hreturn; rfl
  · subst htab; rfl
  · have hread := readUnicode?_control hcontrol rest
    rw [Char.ofNat_toNat] at hread
    simp only [List.cons_append, List.nil_append, readCharacters?, readEscape?, hread,
      Option.bind_eq_bind, Option.bind_some]
  · rw [List.singleton_append, readCharacters?, if_neg hcontrol]
    · exact hquote
    · exact hslash

theorem readCharacters?_flatMap (cs rest : List Char) {fuel : ℕ} (h : cs.length < fuel) :
    readCharacters? fuel (cs.flatMap escaped ++ '"' :: rest) = some (cs, rest) := by
  induction cs generalizing fuel with
  | nil =>
    cases fuel with
    | zero => simp at h
    | succ fuel => rfl
  | cons c cs ih =>
    cases fuel with
    | zero => simp at h
    | succ fuel =>
      rw [List.flatMap_cons, List.append_assoc, readCharacters?_escaped, ih (by simpa using h)]
      rfl

theorem length_le_flatMap_escaped (cs : List Char) : cs.length ≤ (cs.flatMap escaped).length := by
  have hpos (c : Char) : 1 ≤ (escaped c).length := by
    unfold escaped
    split_ifs <;> simp
  induction cs with
  | nil => simp
  | cons c cs ih =>
    have hc := hpos c
    rw [List.flatMap_cons, List.length_append, List.length_cons]
    omega

theorem readString?_escaped (s : String) (rest : List Char) :
    readString? (s.toList.flatMap escaped ++ '"' :: rest) = some (s, rest) := by
  have hlength := length_le_flatMap_escaped s.toList
  rw [readString?, readCharacters?_flatMap _ _ (by rw [List.length_append]; omega), Option.map_some]
  exact congrArg (fun text => some (text, rest)) String.ofList_toList

theorem skipBlank_cons {c : Char} (hc : isBlank c = false) (cs : List Char) :
    skipBlank (c :: cs) = c :: cs := by
  rw [skipBlank, List.dropWhile_cons_of_neg (by simp [hc])]

theorem readName?_quoted (name : String) (rest : List Char) :
    readName? (quoted name ++ ':' :: rest) = some (name, rest) := by
  have hquoted : quoted name ++ ':' :: rest =
      '"' :: (name.toList.flatMap escaped ++ '"' :: ':' :: rest) := by simp [quoted]
  rw [hquoted, readName?, skipBlank_cons (by decide)]
  simp only [readString?_escaped, Option.bind_eq_bind, Option.bind_some,
    skipBlank_cons (show isBlank ':' = false by decide)]
  rfl

/-! ### Numbers -/

/-- Nothing comes next, or a mark that comes after values. -/
def Ends (rest : List Char) : Prop := ∀ c ∈ rest.head?, c = ',' ∨ c = ']' ∨ c = '}'

theorem ends_nil : Ends [] := by simp [Ends]

theorem ends_cons {c : Char} (h : c = ',' ∨ c = ']' ∨ c = '}') (cs : List Char) : Ends (c :: cs) := by
  simpa [Ends] using h

namespace Number

variable {negative : Bool} {s : Scaled} {n : Number} {cs tail : List Char}

theorem splitDigits_append (htail : Ends tail) (cs : List Char) :
    splitDigits (cs ++ tail) = ((splitDigits cs).1, (splitDigits cs).2 ++ tail) := by
  have hstop : tail.takeWhile Char.isDigit = [] ∧ tail.dropWhile Char.isDigit = tail := by
    cases tail with
    | nil => exact ⟨rfl, rfl⟩
    | cons c tail =>
      have hc : ¬ c.isDigit := by
        rcases htail c rfl with rfl | rfl | rfl <;> decide
      exact ⟨List.takeWhile_cons_of_neg hc, List.dropWhile_cons_of_neg hc⟩
  induction cs with
  | nil => exact Prod.ext hstop.1 hstop.2
  | cons c cs ih =>
    by_cases hc : c.isDigit
    · simp only [splitDigits, List.cons_append, List.takeWhile_cons_of_pos hc,
        List.dropWhile_cons_of_pos hc] at ih ⊢
      rw [(Prod.mk.inj ih).1, (Prod.mk.inj ih).2]
    · simp only [splitDigits, List.cons_append, List.takeWhile_cons_of_neg hc,
        List.dropWhile_cons_of_neg hc]

theorem ne_of_ends {c d : Char} (h : Ends (c :: cs)) (hd : ¬ (d = ',' ∨ d = ']' ∨ d = '}')) :
    c ≠ d := by
  rintro rfl
  exact hd (h c rfl)

theorem readExponent?_append (htail : Ends tail) (h : readExponent? negative s cs = some (n, [])) :
    readExponent? negative s (cs ++ tail) = some (n, tail) := by
  have hdigits (sign : Bool) (ds : List Char)
      (h : (if (splitDigits ds).1.isEmpty then none
        else (withExponent? negative s sign (Numeral.value (splitDigits ds).1)).map
          fun n => (n, (splitDigits ds).2)) = some (n, [])) :
      (if (splitDigits (ds ++ tail)).1.isEmpty then none
        else (withExponent? negative s sign (Numeral.value (splitDigits (ds ++ tail)).1)).map
          fun n => (n, (splitDigits (ds ++ tail)).2)) = some (n, tail) := by
    rw [splitDigits_append htail]
    split_ifs at h ⊢
    obtain ⟨k, hk, heq⟩ := Option.map_eq_some_iff.1 h
    obtain ⟨rfl, hrest⟩ := Prod.mk.inj heq
    rw [hk, hrest, Option.map_some, List.nil_append]
  cases cs with
  | nil => cases h
  | cons c cs =>
    by_cases hplus : c = '+'
    · subst hplus
      exact hdigits false cs h
    · by_cases hminus : c = '-'
      · subst hminus
        exact hdigits true cs h
      · have hunsigned (ds : List Char) : readExponent? negative s (c :: ds) =
            if (splitDigits (c :: ds)).1.isEmpty then none
            else (withExponent? negative s false (Numeral.value (splitDigits (c :: ds)).1)).map
              fun n => (n, (splitDigits (c :: ds)).2) := by
          unfold readExponent?
          split
          next sign rest hsign =>
            split at hsign
            · next heq => exact absurd (List.cons.inj heq).1 hplus
            · next heq => exact absurd (List.cons.inj heq).1 hminus
            · cases hsign
              rfl
        rw [hunsigned] at h
        rw [List.cons_append, hunsigned]
        exact hdigits false (c :: cs) h

theorem readFraction?_append (htail : Ends tail) (h : readFraction? negative s cs = some (n, [])) :
    readFraction? negative s (cs ++ tail) = some (n, tail) := by
  unfold readFraction? at h ⊢
  rw [splitDigits_append htail]
  simp only at h ⊢
  split_ifs at h ⊢
  generalize (splitDigits cs).2 = rest at h
  cases rest with
  | nil =>
    obtain ⟨k, hk, heq⟩ := Option.map_eq_some_iff.1 h
    cases heq
    rw [List.nil_append]
    split
    · next more => exact absurd rfl (ne_of_ends htail (by decide))
    · next more => exact absurd rfl (ne_of_ends htail (by decide))
    · rw [hk, Option.map_some]
  | cons c more =>
    split at h
    · next heq =>
      obtain ⟨rfl, rfl⟩ := List.cons.inj heq
      exact readExponent?_append htail h
    · next heq =>
      obtain ⟨rfl, rfl⟩ := List.cons.inj heq
      exact readExponent?_append htail h
    · obtain ⟨k, -, heq⟩ := Option.map_eq_some_iff.1 h
      cases heq

theorem readUnsigned?_append (htail : Ends tail) (h : readUnsigned? negative cs = some (n, [])) :
    readUnsigned? negative (cs ++ tail) = some (n, tail) := by
  unfold readUnsigned? at h ⊢
  rw [splitDigits_append htail]
  simp only at h ⊢
  split_ifs at h ⊢
  generalize (splitDigits cs).2 = rest at h
  cases rest with
  | nil =>
    obtain ⟨k, hk, heq⟩ := Option.map_eq_some_iff.1 h
    cases heq
    rw [List.nil_append]
    split
    · next more => exact absurd rfl (ne_of_ends htail (by decide))
    · next more => exact absurd rfl (ne_of_ends htail (by decide))
    · next more => exact absurd rfl (ne_of_ends htail (by decide))
    · rw [hk, Option.map_some]
  | cons c more =>
    split at h
    · next heq =>
      obtain ⟨rfl, rfl⟩ := List.cons.inj heq
      exact readFraction?_append htail h
    · next heq =>
      obtain ⟨rfl, rfl⟩ := List.cons.inj heq
      exact readExponent?_append htail h
    · next heq =>
      obtain ⟨rfl, rfl⟩ := List.cons.inj heq
      exact readExponent?_append htail h
    · obtain ⟨k, -, heq⟩ := Option.map_eq_some_iff.1 h
      cases heq

/-- A number that a text ends with is read too where a mark comes next. -/
theorem read?_append (htail : Ends tail) (h : read? cs = some (n, [])) :
    read? (cs ++ tail) = some (n, tail) := by
  unfold read? at h
  split at h
  · exact readUnsigned?_append htail h
  · next hsign =>
    have hread := readUnsigned?_append htail h
    cases cs with
    | nil => cases h
    | cons c cs =>
      rw [List.cons_append, read?]
      · exact hread
      · rintro rest heq
        exact hsign cs (by rw [(List.cons.inj heq).1])

/-- A number starts with its sign or a digit. -/
theorem head_of_read? {rest : List Char} (h : read? cs = some (n, rest)) :
    ∃ c ds, cs = c :: ds ∧ (c = '-' ∨ c.isDigit) := by
  cases cs with
  | nil => cases h
  | cons c ds =>
    refine ⟨c, ds, rfl, ?_⟩
    by_cases hdigit : c.isDigit
    · exact .inr hdigit
    · left
      unfold read? at h
      split at h
      · next heq => exact (List.cons.inj heq).1
      · have hnone : (splitDigits (c :: ds)).1 = [] := List.takeWhile_cons_of_neg hdigit
        unfold readUnsigned? at h
        simp only [hnone, List.isEmpty_nil, true_or, if_true] at h
        cases h

end Number

end Footage.Json
