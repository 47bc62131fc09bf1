import Footage.Text.Bytes
import Mathlib.Data.List.Lex

/-! The order of texts as bytes. The bytes of two characters come apart before either character ends,
in the order of the characters, so texts are in the order of their bytes. -/

namespace Footage.Text

theorem ofNat_cons_lt_iff {a b : ℕ} (ha : a < 256) (hb : b < 256) {xs ys : Bytes} :
    UInt8.ofNat a :: xs < UInt8.ofNat b :: ys ↔ a < b ∨ a = b ∧ xs < ys := by
  have hlt : UInt8.ofNat a < UInt8.ofNat b ↔ a < b := by
    rw [UInt8.lt_iff_toNat_lt, UInt8.toNat_ofNat_of_lt' ha, UInt8.toNat_ofNat_of_lt' hb]
  have heq : UInt8.ofNat a = UInt8.ofNat b ↔ a = b := by
    rw [← UInt8.toNat_inj, UInt8.toNat_ofNat_of_lt' ha, UInt8.toNat_ofNat_of_lt' hb]
  rw [List.cons_lt_cons_iff, hlt, heq]

/-- Whatever follows, the bytes of a character come before those of a greater one. -/
theorem utf8EncodeChar_append_lt {c d : Char} (h : c < d) (xs ys : Bytes) :
    String.utf8EncodeChar c ++ xs < String.utf8EncodeChar d ++ ys := by
  have hcd : c.val.toNat < d.val.toNat := UInt32.lt_iff_toNat_lt.1 h
  have hd : d.val.toNat < 1114112 := by
    have := d.valid
    simp only [UInt32.isValidChar, Nat.isValidChar] at this
    omega
  have hdigits {v : ℕ} (hv : v < 1114112) : v / 262144 % 8 = v / 262144 ∧
      v / 4096 / 64 = v / 262144 ∧ v / 64 / 64 = v / 4096 :=
    ⟨by omega, Nat.div_div_eq_div_mul v 4096 64, Nat.div_div_eq_div_mul v 64 64⟩
  obtain ⟨hc₁, hc₂, hc₃⟩ := hdigits (hcd.trans hd)
  obtain ⟨hd₁, hd₂, hd₃⟩ := hdigits hd
  -- one case for each pair of lengths, where the first bytes tell the lengths apart
  simp only [String.utf8EncodeChar]
  split_ifs <;>
    simp (disch := omega) only [List.cons_append, List.nil_append, ofNat_cons_lt_iff] <;> omega

theorem bytes_cons (c : Char) (cs : List Char) : bytes (c :: cs) = String.utf8EncodeChar c ++ bytes cs :=
  List.flatMap_cons

theorem bytes_lt_bytes {cs ds : List Char} (h : cs < ds) : bytes cs < bytes ds := by
  induction cs generalizing ds with
  | nil =>
    cases ds with
    | nil => exact absurd h (List.lt_irrefl _)
    | cons d ds =>
      have hlength := String.length_utf8EncodeChar d
      have hsize := d.utf8Size_pos
      rw [bytes_cons]
      cases hbytes : String.utf8EncodeChar d with
      | nil => simp_all
      | cons a as => exact List.nil_lt_cons _ _
  | cons c cs ih =>
    cases ds with
    | nil => exact absurd h (List.not_lt_nil _)
    | cons d ds =>
      rw [bytes_cons, bytes_cons]
      rcases List.cons_lt_cons_iff.1 h with hcd | ⟨rfl, hlt⟩
      · exact utf8EncodeChar_append_lt hcd _ _
      · exact List.append_left_lt (ih hlt)

/-- Texts are in the order of their bytes. -/
theorem bytes_lt_bytes_iff {s t : String} : bytes s.toList < bytes t.toList ↔ s < t := by
  constructor
  · intro h
    have hnot : ¬ t < s := fun hlt => List.lt_asymm h (bytes_lt_bytes (String.lt_iff.1 hlt))
    rw [← String.not_le]
    intro hle
    obtain rfl := String.le_antisymm hle (String.not_lt.1 hnot)
    exact List.lt_irrefl _ h
  · exact fun h => bytes_lt_bytes (String.lt_iff.1 h)

theorem bytes_le_bytes_iff {s t : String} : bytes s.toList ≤ bytes t.toList ↔ s ≤ t := by
  rw [← String.not_lt, ← bytes_lt_bytes_iff, List.not_lt]

end Footage.Text
