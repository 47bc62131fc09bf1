import Footage.Timestamp
import Mathlib.Algebra.Group.Nat.Defs
import Mathlib.Data.List.Induction
import Mathlib.Order.Nat

/-! Ten digits in front of a name. A name decodes exactly when it starts with ten
digits, to the number that they stand for, and digits of one width are in order
where their numbers are. -/

namespace Footage.Numeral

theorem toNat_of_isDigit {c : Char} (h : c.isDigit) : 48 ≤ c.toNat ∧ c.toNat < 58 := by
  simp only [Char.isDigit, Bool.and_eq_true, decide_eq_true_eq, ge_iff_le, UInt32.le_iff_toNat_le] at h
  simp only [Char.toNat]
  exact ⟨h.1, Nat.lt_succ_of_le h.2⟩

theorem digitChar_of_isDigit {c : Char} (h : c.isDigit) : (c.toNat - 48).digitChar = c := by
  obtain ⟨hl, hu⟩ := toNat_of_isDigit h
  apply Char.toNat_inj.1
  rw [Nat.toNat_digitChar_of_lt_ten (by omega)]
  omega

theorem utf8Size_of_isDigit {c : Char} (h : c.isDigit) : c.utf8Size = 1 := by
  obtain ⟨-, hu⟩ := toNat_of_isDigit h
  rw [Char.utf8Size_eq_one_iff, UInt32.le_iff_toNat_le]
  exact Nat.le_of_lt_succ (hu.trans (by decide))

theorem value_append_singleton (ds : List Char) (c : Char) :
    value (ds ++ [c]) = 10 * value ds + (c.toNat - 48) := by
  simp [value, Nat.ofDigitChars_append, Nat.ofDigitChars_cons]

theorem value_lt {ds : List Char} (h : ∀ c ∈ ds, c.isDigit) : value ds < 10 ^ ds.length := by
  induction ds using List.reverseRecOn with
  | nil => decide
  | append_singleton ds c ih =>
    have hc := toNat_of_isDigit (h c (by simp))
    have := ih fun d hd => h d (by simp [hd])
    rw [value_append_singleton, List.length_append, List.length_singleton, Nat.pow_succ]
    omega

/-- Digits are the padded numeral of their number. -/
theorem padded_value {ds : List Char} (h : ∀ c ∈ ds, c.isDigit) :
    padded ds.length (value ds) = ds := by
  induction ds using List.reverseRecOn with
  | nil => rfl
  | append_singleton ds c ih =>
    have hd := h c (by simp)
    have hc := toNat_of_isDigit hd
    rw [value_append_singleton, List.length_append, List.length_singleton, padded,
      show (10 * value ds + (c.toNat - 48)) / 10 = value ds by omega,
      show (10 * value ds + (c.toNat - 48)) % 10 = c.toNat - 48 by omega,
      ih fun d hd => h d (by simp [hd]), digitChar_of_isDigit hd]

/-! ### Order -/

theorem append_lt_append {as bs : List Char} (cs ds : List Char) (hlen : as.length = bs.length)
    (h : as < bs) : as ++ cs < bs ++ ds := by
  induction as generalizing bs with
  | nil =>
    rw [List.eq_nil_of_length_eq_zero hlen.symm] at h
    exact absurd h (List.lt_irrefl _)
  | cons a as ih =>
    cases bs with
    | nil => cases hlen
    | cons b bs =>
      rw [List.cons_append, List.cons_append, List.cons_lt_cons_iff]
      rcases List.cons_lt_cons_iff.1 h with hab | ⟨rfl, hlt⟩
      · exact .inl hab
      · exact .inr ⟨rfl, ih (Nat.succ.inj hlen) hlt⟩

theorem padded_lt_padded {width a b : ℕ} (hab : a < b) (hb : b < 10 ^ width) :
    padded width a < padded width b := by
  induction width generalizing a b with
  | zero => rw [Nat.pow_zero] at hb; omega
  | succ width ih =>
    rw [Nat.pow_succ] at hb
    rw [padded, padded]
    rcases Nat.lt_or_eq_of_le (Nat.div_le_div_right (c := 10) hab.le) with hlt | heq
    · exact append_lt_append _ _ (by simp) (ih hlt (by omega))
    · have hd : (a % 10).digitChar < (b % 10).digitChar := by
        rw [Char.lt_def, UInt32.lt_iff_toNat_lt]
        have ha := Nat.toNat_digitChar_of_lt_ten (show a % 10 < 10 by omega)
        have hb := Nat.toNat_digitChar_of_lt_ten (show b % 10 < 10 by omega)
        simp only [Char.toNat] at ha hb
        omega
      rw [heq]
      exact List.append_left_lt (List.cons_lt_cons_iff.2 (.inl hd))

end Footage.Numeral

namespace Footage.Timestamp

open Numeral

theorem bytesPrefix?_append {ds : List Char} (h : ∀ c ∈ ds, c.isDigit) (rest : List Char) :
    bytesPrefix? ds.length (ds ++ rest) = some ds := by
  induction ds with
  | nil => cases rest <;> rfl
  | cons c ds ih =>
    have hc := utf8Size_of_isDigit (h c (by simp))
    simp [bytesPrefix?, hc, ih fun d hd => h d (by simp [hd])]

theorem eq_append_of_bytesPrefix? {n : ℕ} {cs ds : List Char}
    (h : bytesPrefix? n cs = some ds) (hd : ∀ c ∈ ds, c.isDigit) :
    ds.length = n ∧ ∃ rest, cs = ds ++ rest := by
  induction cs generalizing n ds with
  | nil =>
    cases n with
    | zero => cases h; exact ⟨rfl, [], rfl⟩
    | succ n => cases h
  | cons c cs ih =>
    cases n with
    | zero => cases h; exact ⟨rfl, c :: cs, rfl⟩
    | succ n =>
      simp only [bytesPrefix?] at h
      split at h
      · obtain ⟨es, hes, rfl⟩ := Option.map_eq_some_iff.1 h
        have hc := utf8Size_of_isDigit (hd c (by simp))
        rw [hc, Nat.add_sub_cancel] at hes
        obtain ⟨hlen, rest, rfl⟩ := ih hes fun d hd' => hd d (by simp [hd'])
        exact ⟨by simp [hlen], rest, rfl⟩
      · cases h

/-- A name starts with the ten digits of a second. -/
def Starts (t : Timestamp) (name : String) : Prop :=
  ∃ ds rest, name.toList = ds ++ rest ∧ ds.length = width ∧ (∀ c ∈ ds, c.isDigit) ∧
    value ds = t.seconds

theorem ofSeconds_natCast {n : ℕ} (h : n < 10000000000) :
    ofSeconds n = .ok ⟨n, h⟩ := by
  rw [ofSeconds, dif_pos (by omega)]
  simp

theorem value_lt_of_length {ds : List Char} (hlen : ds.length = width) (hd : ∀ c ∈ ds, c.isDigit) :
    value ds < 10000000000 := by
  simpa [hlen, width] using value_lt hd

theorem decode_eq_ok_iff {name : String} {t : Timestamp} : decode name = .ok t ↔ t.Starts name := by
  constructor
  · intro h
    unfold decode at h
    split at h
    · cases h
    · next ds hds =>
      split at h
      · next hall =>
        have hd : ∀ c ∈ ds, c.isDigit := List.all_eq_true.1 hall
        obtain ⟨hlen, rest, hname⟩ := eq_append_of_bytesPrefix? hds hd
        rw [ofSeconds_natCast (value_lt_of_length hlen hd)] at h
        cases h
        exact ⟨ds, rest, hname, hlen, hd, rfl⟩
      · cases h
  · rintro ⟨ds, rest, hname, hlen, hd, hval⟩
    have hall : ds.all Char.isDigit = true := List.all_eq_true.2 hd
    rw [decode, hname, ← hlen, bytesPrefix?_append hd]
    simp only [hall, if_true, hval]
    exact ofSeconds_natCast t.lt

/-- A name that is not read has no first ten bytes, or a character among them that is no digit. -/
theorem decode_eq_error_iff {name : String} {e : NameError} : decode name = .error e ↔
    bytesPrefix? width name.toList = none ∧ e = .tooShort name ∨
      ∃ cs, bytesPrefix? width name.toList = some cs ∧ (∃ c ∈ cs, ¬ c.isDigit) ∧
        e = .notDigits name := by
  constructor
  · intro h
    unfold decode at h
    split at h
    · next hcs => exact .inl ⟨hcs, (Except.error.inj h).symm⟩
    · next cs hcs =>
      split at h
      · next hall =>
        have hd : ∀ c ∈ cs, c.isDigit := List.all_eq_true.1 hall
        obtain ⟨hlen, -⟩ := eq_append_of_bytesPrefix? hcs hd
        rw [ofSeconds_natCast (value_lt_of_length hlen hd)] at h
        cases h
      · next hall => exact .inr ⟨cs, hcs, by simpa using hall, (Except.error.inj h).symm⟩
  · rintro (⟨hcs, rfl⟩ | ⟨cs, hcs, ⟨c, hc, hnot⟩, rfl⟩)
    · rw [decode, hcs]
    · have hall : ¬ cs.all Char.isDigit = true := fun hall => hnot (List.all_eq_true.1 hall c hc)
      rw [decode, hcs]
      exact if_neg hall

theorem Starts.eq {t u : Timestamp} {name : String} (ht : t.Starts name) (hu : u.Starts name) :
    t = u := Except.ok.inj ((decode_eq_ok_iff.2 ht).symm.trans (decode_eq_ok_iff.2 hu))

/-- A name that starts with a second starts with its text. -/
theorem Starts.toList_eq {t : Timestamp} {name : String} (h : t.Starts name) :
    ∃ rest, name.toList = t.digits ++ rest := by
  obtain ⟨ds, rest, hname, hlen, hd, hval⟩ := h
  refine ⟨rest, ?_⟩
  rw [hname, digits, ← hval, ← hlen, padded_value hd]

theorem encode_lt_encode {t u : Timestamp} (h : t.seconds < u.seconds) : t.encode < u.encode := by
  have hu : u.seconds < 10 ^ width := by simpa [width] using u.lt
  have hlt := padded_lt_padded h hu
  rw [String.lt_iff, encode, encode, String.toList_ofList, String.toList_ofList]
  exact hlt

theorem compare_eq_lt {s t : String} (h : s < t) : compare s t = .lt :=
  compareOfLessAndEq_eq_lt.2 h

/-- The texts of seconds are in order where the seconds are. -/
theorem compare_encode (t u : Timestamp) :
    compare t.encode u.encode = compare t.seconds u.seconds := by
  rcases lt_trichotomy t.seconds u.seconds with h | h | h
  · rw [Nat.compare_eq_lt.2 h]
    exact compare_eq_lt (encode_lt_encode h)
  · rw [Nat.compare_eq_eq.2 h, encode, encode, digits, digits, h]
    exact Std.ReflOrd.compare_self
  · rw [Nat.compare_eq_gt.2 h, Std.OrientedOrd.eq_swap, compare_eq_lt (encode_lt_encode h)]
    rfl

end Footage.Timestamp
