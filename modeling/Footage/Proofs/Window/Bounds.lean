import Footage.Proofs.Binary64.Value
import Footage.Proofs.Fragment.Prefilter

/-! The bounds of windows. A lookback and the start that it leads to are held within 64
bits, and both bounds within ten digits. The words do not show: what they cut off is far
below the first encodable second. Of the digits only two edges show: a window that would
begin after the last encodable second begins with it, and one that would end before the
first ends with it. Between these edges the rule of the window is that of its bounds. -/

namespace Footage.Window

variable {t : Timestamp} {duration : Option Binary64}

theorem toNat_clamped_sub (start : Time) (lookback : ℕ) :
    (Numeral.clamped (start.seconds - Numeral.clamped lookback)).toNat =
      (start.seconds - lookback : ℤ).toNat := by
  have hfirst := start.firstSecond_le
  have hlast := start.le_lastSecond
  unfold Time.firstSecond at hfirst
  unfold Time.lastSecond at hlast
  unfold Numeral.clamped Numeral.leastWord Numeral.greatestWord
  omega

theorem start_ofInterval (start : Time) (stop : Option Time) (lookback : ℕ) (now : Time) :
    (ofInterval start stop lookback now).start.seconds =
      min (start.seconds - lookback : ℤ).toNat 9999999999 :=
  congrArg (min · 9999999999) (toNat_clamped_sub start lookback)

theorem stop_ofInterval (start : Time) (stop : Option Time) (lookback : ℕ) (now : Time) :
    (ofInterval start stop lookback now).stop.seconds =
      min (stop.getD now).seconds.toNat 9999999999 := rfl

/-! ### The rule for bounds that need not be encodable -/

/-- Why a fragment belongs between two bounds: it starts between them, or before the lower one and
plays until it. -/
def IncludesBetween (low high : ℤ) (t : Timestamp) (duration : Option Binary64) : Inclusion → Prop
  | .inWindow => low ≤ t.seconds ∧ t.seconds ≤ high
  | .coversStart => t.seconds < low ∧ ∃ d, duration = some d ∧ low ≤ (playsUntil t d).value

theorem isFinite_playsUntil (t : Timestamp) {d : Binary64} (hd : d.isFinite) :
    (playsUntil t d).isFinite := Binary64.isFinite_ofInt_add (t.lt.trans (by decide)) hd

theorem value_playsUntil_ofInt {n : ℕ} (hn : t.seconds + n < 2 ^ 53) :
    (playsUntil t (.ofInt n)).value = t.seconds + n := by
  rw [playsUntil, Binary64.ofInt_add_ofInt (by omega) (by omega), Binary64.value_ofInt hn, Nat.cast_add]

/-- A window decides by its own bounds. -/
theorem includes_iff_between (hd : ∀ d, duration = some d → d.isFinite) (w : Window)
    (why : Inclusion) :
    w.Includes t duration why ↔ IncludesBetween w.start.seconds w.stop.seconds t duration why := by
  cases why with
  | inWindow => simp only [Includes, IncludesBetween, Nat.cast_le]
  | coversStart =>
    have hstart : w.start.seconds < 2 ^ 53 := w.start.lt.trans (by decide)
    simp only [Includes, IncludesBetween, Nat.cast_lt]
    refine and_congr_right fun _ => exists_congr fun d => and_congr_right fun hduration => ?_
    have hfinite := hd d hduration
    rw [Binary64.ofInt_le_iff_value hstart (isFinite_playsUntil t hfinite), Int.cast_natCast]
    exact and_iff_right hfinite

/-- A lower bound below all encodable seconds, or an upper one above them, decides as the nearest
encodable second does. -/
theorem includesBetween_held (low high : ℤ) (why : Inclusion) :
    IncludesBetween (max low 0) (min high 9999999999) t duration why ↔
      IncludesBetween low high t duration why := by
  have hlt := t.lt
  cases why with
  | inWindow =>
    unfold IncludesBetween
    omega
  | coversStart =>
    have hbefore : (t.seconds : ℤ) < max low 0 ↔ (t.seconds : ℤ) < low := by omega
    simp only [IncludesBetween, hbefore]
    refine and_congr_right fun hlow => ?_
    rw [max_eq_left (show (0 : ℤ) ≤ low by omega)]

/-- Which fragments belong to an interval. Its start counts as the last encodable second where it
comes after that, and its end as the first one where it comes before. An interval that reaches the
encodable seconds from both sides has the fragments that its own bounds ask for. -/
theorem admits_ofInterval (start : Time) (stop : Option Time) (lookback : ℕ) (now : Time)
    (t : Timestamp) (hd : ∀ d, duration = some d → d.isFinite) :
    (∀ why, (ofInterval start stop lookback now).admits t duration = some why ↔
      IncludesBetween (min (start.seconds - lookback) 9999999999) (max (stop.getD now).seconds 0)
        t duration why) ∧
    (start.seconds - lookback ≤ 9999999999 → 0 ≤ (stop.getD now).seconds →
      (∀ why, (ofInterval start stop lookback now).admits t duration = some why ↔
        IncludesBetween (start.seconds - lookback) (stop.getD now).seconds t duration why) ∧
      ((ofInterval start stop lookback now).admits t duration = none ↔
        ∀ why, ¬ IncludesBetween (start.seconds - lookback) (stop.getD now).seconds
          t duration why)) := by
  have hlow : ((ofInterval start stop lookback now).start.seconds : ℤ) =
      max (min (start.seconds - lookback) 9999999999) 0 := by
    rw [start_ofInterval]
    omega
  have hhigh : ((ofInterval start stop lookback now).stop.seconds : ℤ) =
      min (max (stop.getD now).seconds 0) 9999999999 := by
    rw [stop_ofInterval]
    omega
  have hclamped (why : Inclusion) : (ofInterval start stop lookback now).admits t duration = some why ↔
      IncludesBetween (min (start.seconds - lookback) 9999999999) (max (stop.getD now).seconds 0)
        t duration why := by
    rw [admits_eq_some_iff, includes_iff_between hd, hlow, hhigh, includesBetween_held]
  refine ⟨hclamped, fun hstart hstop => ?_⟩
  rw [min_eq_left hstart, max_eq_left hstop] at hclamped
  refine ⟨hclamped, ?_⟩
  rw [Option.eq_none_iff_forall_ne_some]
  exact forall_congr' fun why => not_congr (hclamped why)

/-! ### The edges of the encodable seconds -/

/-- A time in the last second before 1970. -/
def beforeZero : Time := (Time.ofSeconds? (-1) 500000000).get (by decide)

def secondZero : Time := (Time.ofSeconds? 0).get (by decide)

/-- Five seconds after the last one that ten digits can write. -/
def beyondDigits : Time := (Time.ofSeconds? 10000000004).get (by decide)

/-- An interval after all encodable seconds has fragments that start or play in the last of them, and
one before 1970 has what starts with the first. -/
theorem admits_beyond_edges :
    ((ofInterval beyondDigits none 0 beyondDigits).admits ⟨9999999999, by decide⟩ none =
        some .inWindow ∧
      ∀ why, ¬ IncludesBetween (beyondDigits.seconds - (0 : ℕ)) beyondDigits.seconds
        ⟨9999999999, by decide⟩ none why) ∧
    ((ofInterval beyondDigits none 0 beyondDigits).admits ⟨9999999990, by decide⟩ (some (.ofInt (9 : ℕ))) =
        some .coversStart ∧
      ∀ why, ¬ IncludesBetween (beyondDigits.seconds - (0 : ℕ)) beyondDigits.seconds
        ⟨9999999990, by decide⟩ (some (.ofInt (9 : ℕ))) why) ∧
    ((ofInterval beforeZero none 0 beforeZero).admits ⟨0, by decide⟩ none = some .inWindow ∧
      ∀ why, ¬ IncludesBetween (beforeZero.seconds - (0 : ℕ)) beforeZero.seconds
        ⟨0, by decide⟩ none why) := by
  refine ⟨⟨by decide +kernel, ?_⟩, ⟨by decide +kernel, ?_⟩, by decide +kernel, ?_⟩
  · rintro (_ | _)
    · rintro ⟨hlow, -⟩
      exact absurd hlow (by decide)
    · rintro ⟨-, d, hnone, -⟩
      cases hnone
  · rintro (_ | _)
    · rintro ⟨hlow, -⟩
      exact absurd hlow (by decide)
    · rintro ⟨-, d, hd, hreach⟩
      obtain rfl := Option.some.inj hd
      have hseconds : beyondDigits.seconds = 10000000004 := by decide
      rw [value_playsUntil_ofInt (by norm_num), hseconds] at hreach
      norm_num at hreach
  · rintro (_ | _)
    · rintro ⟨-, hhigh⟩
      exact absurd hhigh (by decide)
    · rintro ⟨hlow, -⟩
      exact absurd hlow (by decide)

/-- From the first second on, with the greatest lookback of 64 bits. -/
theorem admits_wholePast :
    (∀ d, some (Binary64.ofInt (5 : ℕ)) = some d → d.isFinite) ∧
    secondZero.seconds - (18446744073709551615 : ℕ) ≤ 9999999999 ∧
    0 ≤ (some beyondDigits |>.getD secondZero).seconds ∧
    (ofInterval secondZero (some beyondDigits) 18446744073709551615 secondZero).admits
      ⟨9999999999, by decide⟩ (some (.ofInt (5 : ℕ))) = some .inWindow := by
  have hd : ∀ d, some (Binary64.ofInt (5 : ℕ)) = some d → d.isFinite := by
    intro d hd
    obtain rfl := Option.some.inj hd
    exact Binary64.isFinite_ofInt (by norm_num)
  have hstart : secondZero.seconds - (18446744073709551615 : ℕ) ≤ 9999999999 := by decide
  have hstop : 0 ≤ (some beyondDigits |>.getD secondZero).seconds := by decide
  obtain ⟨-, h⟩ := admits_ofInterval secondZero (some beyondDigits) 18446744073709551615 secondZero
    ⟨9999999999, by decide⟩ hd
  exact ⟨hd, hstart, hstop, ((h hstart hstop).1 .inWindow).2 ⟨by decide, by decide⟩⟩

end Footage.Window
