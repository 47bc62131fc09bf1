import Footage.Proofs.Window.Bounds

/-! Windows as closed intervals of instants. A fragment belongs to a window that is not
inverted if and only if it plays at some instant of the window, so a window has whatever
the windows within it have. Why a fragment belongs can change with the window. -/

namespace Footage.Window

variable {w w' : Window} {t : Timestamp} {duration : Option Binary64}

/-- A window that is not inverted lies within another one. -/
structure Within (w w' : Window) : Prop where
  start : w'.start.seconds ≤ w.start.seconds
  ordered : w.start.seconds ≤ w.stop.seconds
  stop : w.stop.seconds ≤ w'.stop.seconds

theorem Includes.widen {why : Inclusion} (h : w.Includes t duration why) (hw : w.Within w') :
    ∃ why', w'.Includes t duration why' := by
  obtain ⟨hstart, hordered, hstop⟩ := hw
  by_cases hlt : t.seconds < w'.start.seconds
  · cases why with
    | inWindow =>
      obtain ⟨hlow, -⟩ := h
      omega
    | coversStart =>
      obtain ⟨-, d, hd, hfinite, hreach⟩ := h
      have hle := Binary64.ofInt_le_ofInt hstart (w.start.lt.trans (by decide))
      exact ⟨.coversStart, hlt, d, hd, hfinite, Binary64.le_trans hle hreach⟩
  · refine ⟨.inWindow, by omega, ?_⟩
    cases why with
    | inWindow =>
      obtain ⟨-, hhigh⟩ := h
      omega
    | coversStart =>
      obtain ⟨hbefore, -⟩ := h
      omega

/-! ### Instants -/

/-- The instants of a window, its bounds included. -/
def Contains (w : Window) (x : ℝ) : Prop := w.start.seconds ≤ x ∧ x ≤ w.stop.seconds

/-- A fragment that starts at `t` plays at an instant. One whose length is not known plays at its start
only. -/
def PlaysAt (t : Timestamp) (duration : Option Binary64) (x : ℝ) : Prop :=
  t.seconds ≤ x ∧ x ≤ duration.elim (t.seconds : ℝ) fun d => (playsUntil t d).value

theorem playsAt_start (hd : ∀ d, duration = some d → d.isFinite ∧ Binary64.zero.le d) :
    PlaysAt t duration t.seconds := by
  refine ⟨le_rfl, ?_⟩
  cases duration with
  | none => exact le_rfl
  | some d =>
    obtain ⟨hfinite, hzero⟩ := hd d rfl
    have ht : t.seconds < 2 ^ 53 := t.lt.trans (by decide)
    rw [Option.elim_some, ← Binary64.ofInt_le_iff_value ht (isFinite_playsUntil t hfinite)]
    exact Binary64.le_add (Binary64.isFinite_ofInt ht) hfinite hzero

/-- What belongs to a window is what plays at some instant of it. -/
theorem exists_includes_iff (hordered : w.start.seconds ≤ w.stop.seconds)
    (hd : ∀ d, duration = some d → d.isFinite ∧ Binary64.zero.le d) :
    (∃ why, w.Includes t duration why) ↔ ∃ x, w.Contains x ∧ PlaysAt t duration x := by
  have hstart : w.start.seconds < 2 ^ 53 := w.start.lt.trans (by decide)
  constructor
  · rintro ⟨why, h⟩
    cases why with
    | inWindow =>
      obtain ⟨hlow, hhigh⟩ := h
      exact ⟨t.seconds, ⟨Nat.cast_le.2 hlow, Nat.cast_le.2 hhigh⟩, playsAt_start hd⟩
    | coversStart =>
      obtain ⟨hbefore, d, rfl, hfinite, hreach⟩ := h
      rw [Binary64.ofInt_le_iff_value hstart (isFinite_playsUntil t hfinite)] at hreach
      exact ⟨w.start.seconds, ⟨le_rfl, Nat.cast_le.2 hordered⟩, Nat.cast_le.2 hbefore.le, hreach⟩
  · rintro ⟨x, ⟨hlow, hhigh⟩, hfrom, huntil⟩
    rcases lt_or_ge t.seconds w.start.seconds with hbefore | hafter
    · cases duration with
      | none =>
        have hle : (w.start.seconds : ℝ) ≤ t.seconds := hlow.trans huntil
        rw [Nat.cast_le] at hle
        omega
      | some d =>
        obtain ⟨hfinite, -⟩ := hd d rfl
        refine ⟨.coversStart, hbefore, d, rfl, hfinite, ?_⟩
        exact (Binary64.ofInt_le_iff_value hstart (isFinite_playsUntil t hfinite)).2
          (hlow.trans huntil)
    · exact ⟨.inWindow, hafter, Nat.cast_le.1 (hfrom.trans hhigh)⟩

/-! ### Lookbacks and clocks -/

/-- With a longer lookback and a later clock, the window of an interval that is not inverted has the
one before within it. -/
theorem within_ofInterval {start : Time} {stop : Option Time} {lookback longer : ℕ} {now later : Time}
    (hordered : start.seconds ≤ (stop.getD now).seconds) (hlookback : lookback ≤ longer)
    (hnow : now.seconds ≤ later.seconds) :
    (ofInterval start stop lookback now).Within (ofInterval start stop longer later) := by
  have hstop : (stop.getD now).seconds ≤ (stop.getD later).seconds := by
    cases stop with
    | none => exact hnow
    | some stop => exact le_rfl
  constructor <;> simp only [start_ofInterval, stop_ofInterval] <;> omega

end Footage.Window
