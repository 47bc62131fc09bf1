import Footage.Binary64
import Mathlib.Order.Monotone.Basic
import Mathlib.Tactic.Ring

/-! Magnitudes and their ranks. A greater rank is a greater magnitude, rounding
gives every magnitude its own rank back and keeps the order of what it rounds.
So doubles compare as their units do, and no sum with a double that is not
negative comes below its first term. Integers of up to 53 bits are doubles. -/

namespace Footage.Binary64

theorem units_of_lt {r : ℕ} (h : r < binadeSize) : units r = r := by simp [units, h]

/-- The magnitude in terms of the binade and the place in it. -/
theorem units_binade (e : ℕ) {f : ℕ} (hf : f < binadeSize) :
    units ((e + 1) * binadeSize + f) = (binadeSize + f) * 2 ^ e := by
  have hpos : 0 < binadeSize := by decide
  have hge : ¬ (e + 1) * binadeSize + f < binadeSize := by
    have := Nat.le_mul_of_pos_left binadeSize (Nat.succ_pos e)
    rw [Nat.succ_eq_add_one] at this
    omega
  have hdiv : ((e + 1) * binadeSize + f) / binadeSize = e + 1 := by
    rw [Nat.add_comm, Nat.add_mul_div_right _ _ hpos, Nat.div_eq_of_lt hf, Nat.zero_add]
  have hmod : ((e + 1) * binadeSize + f) % binadeSize = f := by
    rw [Nat.mul_add_mod_self_right, Nat.mod_eq_of_lt hf]
  rw [units, if_neg hge, hdiv, hmod]
  rfl

/-- A rank is below the first binade or has a binade and a place in it. -/
theorem rank_cases (r : ℕ) :
    r < binadeSize ∨ ∃ e f, f < binadeSize ∧ r = (e + 1) * binadeSize + f := by
  by_cases h : r < binadeSize
  · exact .inl h
  · right
    have hpos : 0 < binadeSize := by decide
    have hq : 1 ≤ r / binadeSize := (Nat.one_le_div_iff hpos).2 (by omega)
    refine ⟨r / binadeSize - 1, r % binadeSize, Nat.mod_lt _ hpos, ?_⟩
    rw [Nat.sub_add_cancel hq, Nat.mul_comm]
    exact (Nat.div_add_mod _ _).symm

theorem units_lt_succ (r : ℕ) : units r < units (r + 1) := by
  rcases rank_cases r with h | ⟨e, f, hf, rfl⟩
  · rw [units_of_lt h]
    by_cases h' : r + 1 < binadeSize
    · rw [units_of_lt h']; omega
    · have hr : r + 1 = (0 + 1) * binadeSize + 0 := by omega
      rw [hr, units_binade 0 (by decide)]
      omega
  · rw [units_binade e hf]
    have hpos : 0 < 2 ^ e := Nat.pow_pos (by decide)
    by_cases h' : f + 1 < binadeSize
    · rw [Nat.add_assoc, units_binade e h']
      exact Nat.mul_lt_mul_of_pos_right (by omega) hpos
    · have hr : (e + 1) * binadeSize + f + 1 = (e + 1 + 1) * binadeSize + 0 := by
        rw [Nat.add_mul (e + 1)]; omega
      rw [hr, units_binade (e + 1) (by decide), Nat.pow_succ']
      calc (binadeSize + f) * 2 ^ e < (binadeSize + binadeSize) * 2 ^ e :=
            Nat.mul_lt_mul_of_pos_right (by omega) hpos
        _ = (binadeSize + 0) * (2 * 2 ^ e) := by ring

theorem units_strictMono : StrictMono units := strictMono_nat_of_lt_succ units_lt_succ

@[simp] theorem units_zero : units 0 = 0 := rfl

/-! ### Rounding -/

/-- A number divided by a step, and rounded. -/
def divided (n step : ℕ) : ℕ :=
  if step < 2 * (n % step) ∨ (2 * (n % step) = step ∧ n / step % 2 = 1) then n / step + 1
  else n / step

/-- The binade that a number of units is rounded in. -/
def binadeOf (n : ℕ) : ℕ := n.log2 - 52

/-- The rank nearest to a number of units, as if there were no greatest one. -/
def rankNear (n : ℕ) : ℕ := binadeOf n * binadeSize + divided n (2 ^ binadeOf n)

theorem nearest_val (n : ℕ) : (nearest n 1).val = min (rankNear n) infinityRank := by
  simp only [nearest, rankNear, binadeOf, divided, Nat.div_one, Nat.one_mul]
  rfl

theorem div_le_divided (n step : ℕ) : n / step ≤ divided n step := by
  unfold divided
  split_ifs <;> omega

theorem divided_le (n step : ℕ) : divided n step ≤ n / step + 1 := by
  unfold divided
  split_ifs <;> omega

theorem divided_mono {a b step : ℕ} (hab : a ≤ b) : divided a step ≤ divided b step := by
  have hq : a / step ≤ b / step := Nat.div_le_div_right hab
  rcases Nat.lt_or_eq_of_le hq with hlt | heq
  · exact (divided_le a step).trans (le_trans hlt (div_le_divided b step))
  · have ha := Nat.div_add_mod a step
    have hb := Nat.div_add_mod b step
    have hr : a % step ≤ b % step := by rw [heq] at ha; omega
    unfold divided
    rw [heq]
    split_ifs <;> omega

theorem divided_of_dvd {n step m : ℕ} (hstep : 0 < step) (h : n = m * step) :
    divided n step = m := by
  subst h
  simp [divided, Nat.mul_div_cancel _ hstep, Nat.ne_of_lt hstep]

theorem binadeOf_mono {a b : ℕ} (hab : a ≤ b) : binadeOf a ≤ binadeOf b := by
  unfold binadeOf
  by_cases ha : a = 0
  · simp [ha]
  · have : a.log2 ≤ b.log2 := (Nat.le_log2 (by omega)).2 ((Nat.log2_self_le ha).trans hab)
    omega

theorem div_lt_of_binadeOf (n : ℕ) : n / 2 ^ binadeOf n < 2 * binadeSize := by
  rw [Nat.div_lt_iff_lt_mul (Nat.pow_pos (by decide))]
  calc n < 2 ^ (n.log2 + 1) := Nat.lt_log2_self
    _ ≤ 2 ^ (53 + binadeOf n) := Nat.pow_le_pow_right (by decide) (by unfold binadeOf; omega)
    _ = 2 * binadeSize * 2 ^ binadeOf n := by rw [Nat.pow_add]; rfl

theorem le_div_of_binadeOf {n : ℕ} (h : 0 < binadeOf n) : binadeSize ≤ n / 2 ^ binadeOf n := by
  have hn : n ≠ 0 := by rintro rfl; simp [binadeOf] at h
  rw [Nat.le_div_iff_mul_le (Nat.pow_pos (by decide))]
  have hlog : 52 + binadeOf n = n.log2 := by unfold binadeOf at h ⊢; omega
  calc binadeSize * 2 ^ binadeOf n = 2 ^ (52 + binadeOf n) := by rw [Nat.pow_add]; rfl
    _ ≤ n := hlog ▸ Nat.log2_self_le hn

/-- Within a binade the quotients keep the order. Between two, the lower one has rounded to its
end at most, where the other begins. -/
theorem rankNear_mono {a b : ℕ} (hab : a ≤ b) : rankNear a ≤ rankNear b := by
  rcases Nat.lt_or_eq_of_le (binadeOf_mono hab) with hlt | heq
  · have ha : divided a (2 ^ binadeOf a) ≤ 2 * binadeSize :=
      (divided_le _ _).trans (div_lt_of_binadeOf a)
    have hb : binadeSize ≤ divided b (2 ^ binadeOf b) :=
      (le_div_of_binadeOf (by omega)).trans (div_le_divided _ _)
    have hbin : (binadeOf a + 1) * binadeSize ≤ binadeOf b * binadeSize :=
      Nat.mul_le_mul_right _ hlt
    rw [Nat.add_mul] at hbin
    unfold rankNear
    omega
  · unfold rankNear
    rw [heq]
    exact Nat.add_le_add_left (divided_mono hab) _

theorem rankNear_units (r : ℕ) : rankNear (units r) = r := by
  rcases rank_cases r with h | ⟨e, f, hf, rfl⟩
  · have hb : binadeOf r = 0 := by
      unfold binadeOf
      by_cases h0 : r = 0
      · simp [h0]
      · have := (Nat.log2_lt h0).2 (show r < 2 ^ 52 from h)
        omega
    rw [units_of_lt h, rankNear, hb, divided_of_dvd (m := r) (by simp) (by simp)]
    omega
  · have hlog : ((binadeSize + f) * 2 ^ e).log2 = 52 + e := by
      have hpos : 0 < 2 ^ e := Nat.pow_pos (by decide)
      have hne : (binadeSize + f) * 2 ^ e ≠ 0 := by
        have : 0 < binadeSize := by decide
        exact Nat.mul_ne_zero (by omega) (by omega)
      rw [Nat.log2_eq_iff hne]
      constructor
      · rw [Nat.pow_add]
        exact Nat.mul_le_mul_right _ (Nat.le_add_right _ _)
      · rw [show 52 + e + 1 = 53 + e by omega, Nat.pow_add]
        exact Nat.mul_lt_mul_of_pos_right (by unfold binadeSize at *; omega) hpos
    have hb : binadeOf ((binadeSize + f) * 2 ^ e) = e := by unfold binadeOf; omega
    rw [units_binade e hf, rankNear, hb,
      divided_of_dvd (m := binadeSize + f) (Nat.pow_pos (by decide)) rfl, Nat.add_mul]
    omega

theorem nearest_units (r : Fin (infinityRank + 1)) : nearest (units r) 1 = r := by
  apply Fin.ext
  rw [nearest_val, rankNear_units]
  omega

theorem nearest_mono {a b : ℕ} (hab : a ≤ b) : (nearest a 1).val ≤ (nearest b 1).val := by
  rw [nearest_val, nearest_val]
  have := rankNear_mono hab
  omega

end Footage.Binary64
