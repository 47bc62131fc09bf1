import Footage.Proofs.Binary64.Order
import Mathlib.Data.Real.Basic
import Mathlib.Tactic.Positivity

/-! The numbers that finite doubles are. Doubles compare as their numbers do, and an
integer of up to 53 bits is the number of its double. Adding such an integer to a
finite double stays finite, since half the distance of the greatest doubles is far
greater than it. -/

namespace Footage.Binary64

/-- The number that a finite double is. -/
noncomputable def value (x : Binary64) : ℝ := x.signedUnits / unitsOfOne

theorem unitsOfOne_pos_real : (0 : ℝ) < unitsOfOne := by exact_mod_cast unitsOfOne_pos

theorem le_iff_value {x y : Binary64} (hx : x.isFinite) (hy : y.isFinite) :
    x.le y ↔ x.value ≤ y.value := by
  rw [le_iff_signedUnits hx hy, value, value, div_le_div_iff_of_pos_right unitsOfOne_pos_real,
    Int.cast_le]

theorem value_ofInt {n : ℕ} (h : n < 2 ^ 53) : (ofInt n).value = n := by
  rw [value, signedUnits_ofInt h, Int.cast_mul, Int.cast_natCast, Int.cast_natCast,
    mul_div_cancel_right₀ _ unitsOfOne_pos_real.ne']

theorem ofInt_le_iff_value {n : ℕ} (h : n < 2 ^ 53) {x : Binary64} (hx : x.isFinite) :
    (ofInt n).le x ↔ (n : ℝ) ≤ x.value := by
  rw [le_iff_value (isFinite_ofInt h) hx, value_ofInt h]

/-! ### Sums that stay finite -/

theorem signedUnits_natAbs_le {x : Binary64} (hx : x.isFinite) :
    x.signedUnits.natAbs ≤ units (infinityRank - 1) := by
  cases x with
  | nan => simp [isFinite] at hx
  | number s r =>
    have hr : r.val ≤ infinityRank - 1 := by
      simp only [isFinite, decide_eq_true_eq] at hx
      omega
    have habs : (signedUnits (.number s r)).natAbs = units r := by cases s <;> simp [signedUnits]
    rw [habs]
    exact units_strictMono.monotone hr

/-- The greatest finite double takes an integer of 53 bits without a change. -/
theorem nearest_greatest :
    (nearest (2 ^ 53 * unitsOfOne + units (infinityRank - 1)) 1).val = infinityRank - 1 := by
  decide +kernel

theorem isFinite_ofUnits {z : Bool} {n : ℤ}
    (h : n.natAbs ≤ 2 ^ 53 * unitsOfOne + units (infinityRank - 1)) : (ofUnits z n).isFinite := by
  have hlt : (nearest n.natAbs 1).val < infinityRank := by
    have hmono := nearest_mono h
    rw [nearest_greatest] at hmono
    have hpos : 0 < infinityRank := by decide
    omega
  unfold ofUnits
  split_ifs
  · cases z <;> decide
  · exact decide_eq_true hlt

theorem isFinite_ofInt_add {n : ℕ} (h : n < 2 ^ 53) {d : Binary64} (hd : d.isFinite) :
    ((ofInt n).add d).isFinite := by
  have hn := signedUnits_ofInt h
  obtain ⟨a, ha, hofInt, -⟩ := exists_rank_ofInt h
  have habs := signedUnits_natAbs_le hd
  cases d with
  | nan => simp [isFinite] at hd
  | number s b =>
    have hb : b.val ≠ infinityRank := by
      simp only [isFinite, decide_eq_true_eq] at hd
      omega
    rw [hofInt] at hn ⊢
    rw [add, if_neg (by omega), if_neg hb, hn]
    apply isFinite_ofUnits
    have hle : n * unitsOfOne ≤ 2 ^ 53 * unitsOfOne := Nat.mul_le_mul_right _ h.le
    have hcast : ((n * unitsOfOne : ℕ) : ℤ) = (n : ℤ) * unitsOfOne := Int.natCast_mul _ _
    rw [← hcast]
    omega

end Footage.Binary64
