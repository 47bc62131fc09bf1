import Footage.Proofs.Binary64.Magnitude
import Mathlib.Tactic.NormNum

/-! The order of doubles. Finite doubles stand in the order of their units, rounding
keeps the order, and a sum with a double that is not negative is not below its
first term. The integers that ten digits write are doubles, so comparing
with one of them is exact. -/

namespace Footage.Binary64

theorem signedUnits_number (s : Bool) (r : Fin (infinityRank + 1)) :
    signedUnits (.number s r) = if s then -(units r : ℤ) else units r := rfl

/-- The line of doubles: where a sign and a rank stand on it. -/
def place (s : Bool) (r : ℕ) : ℤ := if s then -(r : ℤ) else r

theorem position_number (s : Bool) (r : Fin (infinityRank + 1)) :
    position (.number s r) = some (place s r) := rfl

theorem le_number (s t : Bool) (a b : Fin (infinityRank + 1)) :
    (number s a).le (.number t b) ↔ place s a ≤ place t b := decide_eq_true_iff

theorem not_le_nan (x : Binary64) : ¬ x.le nan := by cases x <;> exact Bool.false_ne_true

theorem le_trans {x y z : Binary64} (hxy : x.le y) (hyz : y.le z) : x.le z := by
  cases y with
  | nan => exact absurd hxy (not_le_nan x)
  | number t b =>
    cases x with
    | nan => cases hxy
    | number s a =>
      cases z with
      | nan => exact absurd hyz (not_le_nan _)
      | number u c =>
        rw [le_number] at *
        omega

theorem place_le_iff (s t : Bool) (a b : ℕ) :
    place s a ≤ place t b ↔ place s (units a) ≤ place t (units b) := by
  have hab := units_strictMono.le_iff_le (a := a) (b := b)
  have hba := units_strictMono.le_iff_le (a := b) (b := a)
  have ha := units_strictMono.le_iff_le (a := a) (b := 0)
  have hb := units_strictMono.le_iff_le (a := b) (b := 0)
  rw [units_zero] at ha hb
  cases s <;> cases t <;> simp only [place, Bool.false_eq_true, if_true, if_false] <;> omega

theorem le_iff_signedUnits {x y : Binary64} (hx : x.isFinite) (hy : y.isFinite) :
    x.le y ↔ x.signedUnits ≤ y.signedUnits := by
  cases x with
  | nan => simp [isFinite] at hx
  | number s a =>
    cases y with
    | nan => simp [isFinite] at hy
    | number t b =>
      have := place_le_iff s t a b
      simpa [le, position_number, signedUnits, place] using this

/-! ### Rounding keeps the order -/

/-- Where a number of units is rounded to. -/
def rounded (n : ℤ) : ℤ := place (n < 0) (nearest n.natAbs 1)

theorem position_ofUnits (z : Bool) (n : ℤ) : position (ofUnits z n) = some (rounded n) := by
  unfold ofUnits rounded
  split_ifs with h
  · subst h
    cases z <;> rfl
  · rfl

theorem rounded_mono {a b : ℤ} (hab : a ≤ b) : rounded a ≤ rounded b := by
  unfold rounded place
  by_cases ha : a < 0 <;> by_cases hb : b < 0
  · have := nearest_mono (show b.natAbs ≤ a.natAbs by omega)
    simp only [ha, hb, decide_true, if_true]
    omega
  · simp only [ha, hb, decide_true, decide_false, if_true, Bool.false_eq_true, if_false]
    omega
  · omega
  · have := nearest_mono (show a.natAbs ≤ b.natAbs by omega)
    simp only [ha, hb, decide_false, Bool.false_eq_true, if_false]
    omega

theorem rounded_signedUnits (s : Bool) (r : Fin (infinityRank + 1)) :
    rounded (signedUnits (.number s r)) = place s r := by
  have habs : (signedUnits (.number s r)).natAbs = units r := by
    cases s <;> simp [signedUnits]
  have h0 := units_strictMono.le_iff_le (a := r.val) (b := 0)
  rw [units_zero] at h0
  rw [rounded, habs, nearest_units]
  cases s <;> simp only [signedUnits, place, if_true, Bool.false_eq_true, if_false, decide_eq_true_eq]
    <;> split_ifs <;> omega

/-- A sum is not below its first term when the second one is not negative. -/
theorem le_add {x d : Binary64} (hx : x.isFinite) (hd : d.isFinite) (h : zero.le d) :
    x.le (x.add d) := by
  cases x with
  | nan => simp [isFinite] at hx
  | number s a =>
    cases d with
    | nan => simp [isFinite] at hd
    | number t b =>
      have h0 : 0 ≤ signedUnits (.number t b) := by
        simpa [zero, signedZero, signedUnits_number] using
          (le_iff_signedUnits (x := zero) (by decide) hd).1 h
      simp only [isFinite, decide_eq_true_eq] at hx hd
      have hsum : (number s a).add (.number t b) =
          ofUnits (s && t) (signedUnits (.number s a) + signedUnits (.number t b)) := by
        simp [add, Nat.ne_of_lt hx, Nat.ne_of_lt hd]
      have hle : place s a ≤
          rounded (signedUnits (.number s a) + signedUnits (.number t b)) := by
        rw [← rounded_signedUnits]
        exact rounded_mono (by omega)
      simp [le, hsum, position_ofUnits, position_number, hle]

/-! ### Integers -/

/-- The exponent is a variable here, so that the power stays a power. -/
theorem unitsOfOne_eq {k : ℕ} (h : 1074 = k) : unitsOfOne = 2 ^ k := by
  unfold unitsOfOne
  rw [h, Nat.pow_eq]

theorem unitsOfOne_pos : 0 < unitsOfOne := by
  obtain ⟨k, hk⟩ : ∃ k, 1074 = k := ⟨_, rfl⟩
  rw [unitsOfOne_eq hk]
  exact Nat.pow_pos (by decide)

theorem exists_rank_mul_unitsOfOne {n : ℕ} (h : n < 2 ^ 53) :
    ∃ r, r < infinityRank ∧ units r = n * unitsOfOne := by
  by_cases hn : n = 0
  · exact ⟨0, by decide, by rw [hn, units_zero, Nat.zero_mul]⟩
  have hlog : n.log2 < 53 := (Nat.log2_lt hn).2 h
  have hlow : 2 ^ n.log2 ≤ n := Nat.log2_self_le hn
  have hhigh : n < 2 ^ (n.log2 + 1) := Nat.lt_log2_self
  have hsplit : 2 ^ n.log2 * 2 ^ (52 - n.log2) = binadeSize := by
    rw [← Nat.pow_add, Nat.add_sub_cancel' (by omega)]; rfl
  have hle : binadeSize ≤ n * 2 ^ (52 - n.log2) := by
    rw [← hsplit]; exact Nat.mul_le_mul_right _ hlow
  have hlt : n * 2 ^ (52 - n.log2) < 2 * binadeSize := by
    rw [← hsplit, ← Nat.mul_assoc, ← Nat.pow_succ']
    exact Nat.mul_lt_mul_of_pos_right hhigh (Nat.pow_pos (by decide))
  refine ⟨(1022 + n.log2 + 1) * binadeSize + (n * 2 ^ (52 - n.log2) - binadeSize), ?_, ?_⟩
  · unfold infinityRank binadeSize at *; omega
  · have hexp : 1074 = 52 - n.log2 + (1022 + n.log2) := by omega
    rw [units_binade _ (by omega), Nat.add_sub_cancel' hle, Nat.mul_assoc, ← Nat.pow_add,
      unitsOfOne_eq hexp]

/-- A number of units that some rank has is kept. -/
theorem ofUnits_natCast_units (r : Fin (infinityRank + 1)) :
    ofUnits false (units r : ℤ) = .number false r := by
  by_cases h : units r = 0
  · have h0 : r.val = 0 := units_strictMono.injective (h.trans units_zero.symm)
    rw [h, ofUnits, Nat.cast_zero, if_pos rfl, signedZero]
    exact congrArg _ (Fin.ext h0.symm)
  · have hneg : ¬ (units r : ℤ) < 0 := by omega
    rw [ofUnits, if_neg (by omega), Int.natAbs_natCast, nearest_units, decide_eq_false hneg]

/-- An integer of up to 53 bits is a double. -/
theorem exists_rank_ofInt {n : ℕ} (h : n < 2 ^ 53) :
    ∃ r : Fin (infinityRank + 1), r.val < infinityRank ∧ ofInt n = .number false r ∧
      units r = n * unitsOfOne := by
  obtain ⟨r, hr, hu⟩ := exists_rank_mul_unitsOfOne h
  refine ⟨⟨r, by omega⟩, hr, ?_, hu⟩
  rw [← ofUnits_natCast_units, ofInt, hu, Int.natCast_mul]

theorem isFinite_ofInt {n : ℕ} (h : n < 2 ^ 53) : (ofInt n).isFinite := by
  obtain ⟨r, hr, hn, -⟩ := exists_rank_ofInt h
  rw [hn]
  exact decide_eq_true hr

theorem signedUnits_ofInt {n : ℕ} (h : n < 2 ^ 53) :
    (ofInt n).signedUnits = n * unitsOfOne := by
  obtain ⟨r, -, hn, hu⟩ := exists_rank_ofInt h
  rw [hn, signedUnits_number, hu, Int.natCast_mul, if_neg Bool.false_ne_true]

theorem ofInt_le_ofInt {m n : ℕ} (h : m ≤ n) (hn : n < 2 ^ 53) : (ofInt m).le (ofInt n) := by
  have hm := h.trans_lt hn
  rw [le_iff_signedUnits (isFinite_ofInt hm) (isFinite_ofInt hn), signedUnits_ofInt hm,
    signedUnits_ofInt hn]
  exact Int.mul_le_mul_of_nonneg_right (Int.ofNat_le.2 h) (Int.natCast_nonneg _)

theorem zero_le_ofInt {n : ℕ} (h : n < 2 ^ 53) : zero.le (ofInt n) := by
  have hzero : zero.signedUnits = 0 := by simp [zero, signedZero, signedUnits_number]
  rw [le_iff_signedUnits (by decide) (isFinite_ofInt h), hzero, signedUnits_ofInt h]
  exact Int.mul_nonneg (Int.natCast_nonneg _) (Int.natCast_nonneg _)

theorem ofInt_add_ofInt {m n : ℕ} (hm : m < 2 ^ 53) (hn : n < 2 ^ 53) :
    (ofInt m).add (ofInt n) = ofInt (m + n : ℕ) := by
  obtain ⟨a, ha, hma, hua⟩ := exists_rank_ofInt hm
  obtain ⟨b, hb, hnb, hub⟩ := exists_rank_ofInt hn
  rw [hma, hnb, add, if_neg (Nat.ne_of_lt ha), if_neg (Nat.ne_of_lt hb), signedUnits_number,
    signedUnits_number, hua, hub, ofInt, Int.natCast_add, Int.add_mul, Int.natCast_mul,
    Int.natCast_mul]
  rfl

theorem eq_infinity {r : Fin (infinityRank + 1)} (hr : r.val = infinityRank) :
    number false r = infinity := by
  have : r = ⟨infinityRank, by decide⟩ := Fin.ext hr
  rw [infinity, signedInfinity, this]

theorem not_ofInt_le_neg_infinity {n : ℕ} (h : n < 2 ^ 53) {r : Fin (infinityRank + 1)}
    (hr : r.val = infinityRank) : ¬ (ofInt n).le (number true r) := by
  obtain ⟨a, -, hn, -⟩ := exists_rank_ofInt h
  have hneg : place true r < 0 := neg_lt_zero.2 (by rw [hr]; decide)
  have hnat : 0 ≤ place false a := Int.natCast_nonneg _
  rw [hn, le_number]
  omega

/-- What is not below an integer is infinite, or has at least its units. -/
theorem ofInt_le {n : ℕ} (h : n < 2 ^ 53) {x : Binary64} (hle : (ofInt n).le x) :
    x = infinity ∨ (x.isFinite ∧ (n : ℤ) * unitsOfOne ≤ x.signedUnits) := by
  cases x with
  | nan => exact absurd hle (not_le_nan _)
  | number s r =>
    rcases eq_or_ne r.val infinityRank with hr | hr
    · cases s with
      | false => exact .inl (eq_infinity hr)
      | true => exact absurd hle (not_ofInt_le_neg_infinity h hr)
    · have hx : (number s r).isFinite := decide_eq_true (by omega)
      rw [← signedUnits_ofInt h]
      exact .inr ⟨hx, (le_iff_signedUnits (isFinite_ofInt h) hx).1 hle⟩

/-- The least integer that is not below a double bounds every integer that the double does. -/
theorem le_ceilWithin {n : ℕ} (h : n < 2 ^ 53) {x : Binary64} {least greatest : ℤ}
    (hgreatest : n ≤ greatest) (hle : (ofInt n).le x) : n ≤ x.ceilWithin least greatest := by
  rcases ofInt_le h hle with rfl | ⟨hfin, hu⟩
  · exact hgreatest
  · cases x with
    | nan => simp [isFinite] at hfin
    | number s r =>
      have hr : r.val ≠ infinityRank := by simp [isFinite] at hfin; omega
      have hpos : (0 : ℤ) < unitsOfOne := by exact_mod_cast unitsOfOne_pos
      have hdiv : -(signedUnits (.number s r)) / (unitsOfOne : ℤ) ≤ -n := by
        apply Int.ediv_le_of_le_mul hpos
        rw [Int.neg_mul]
        omega
      rw [ceilWithin, if_neg hr]
      omega

end Footage.Binary64
