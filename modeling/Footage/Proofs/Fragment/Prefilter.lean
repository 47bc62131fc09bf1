import Footage.Proofs.Binary64.Order
import Footage.Proofs.Sql.Selection
import Footage.Proofs.Timestamp.Digits
import Footage.Store.Fragments
import Mathlib.Data.List.TakeWhile

/-! The selection of candidates. It compares names as texts and adds as the store
adds, while a window admits by numbers. On a name that starts with ten digits the
two agree, so no row that the window admits is left out by its name or length.
What the pattern for paths leaves out is said exactly. -/

namespace Footage

open Sql Numeral

/-! ### The rule of a window -/

/-- Why a fragment that starts at `t` belongs to a window: it starts inside, or before, and its
length is finite and reaches the window's start. -/
def Window.Includes (w : Window) (t : Timestamp) (duration : Option Binary64) : Inclusion → Prop
  | .inWindow => w.start.seconds ≤ t.seconds ∧ t.seconds ≤ w.stop.seconds
  | .coversStart => t.seconds < w.start.seconds ∧
      ∃ d, duration = some d ∧ d.isFinite ∧
        (Binary64.ofInt w.start.seconds).le (Window.playsUntil t d)

theorem Window.admits_eq_some_iff {w : Window} {t : Timestamp} {duration : Option Binary64}
    {why : Inclusion} : w.admits t duration = some why ↔ w.Includes t duration why := by
  unfold admits
  split_ifs with hin hlt
  · cases why with
    | inWindow => exact iff_of_true rfl hin
    | coversStart =>
      have hno : ¬ w.Includes t duration .coversStart := by
        rintro ⟨hlt, -⟩
        omega
      exact iff_of_false (by simp) hno
  · cases why with
    | inWindow =>
      refine iff_of_false ?_ hin
      split
      · simp
      · split_ifs <;> simp
    | coversStart =>
      rw [Includes, and_iff_right hlt]
      cases duration with
      | none => simp
      | some d => cases hd : d.isFinite <;> simp [Option.filter, hd]
  · cases why with
    | inWindow => exact iff_of_false (by simp) hin
    | coversStart => exact iff_of_false (by simp) fun h => hlt h.1

/-- A fragment of whole seconds reaches the window when their number does. -/
theorem Window.includes_coversStart {w : Window} {t : Timestamp} {n : ℕ}
    (ht : t.seconds < w.start.seconds) (hn : t.seconds + n < 2 ^ 53)
    (hreach : w.start.seconds ≤ t.seconds + n) : w.Includes t (some (.ofInt n)) .coversStart := by
  refine ⟨ht, _, rfl, Binary64.isFinite_ofInt (by omega), ?_⟩
  rw [playsUntil, Binary64.ofInt_add_ofInt (by omega) (by omega)]
  exact Binary64.ofInt_le_ofInt hreach hn

/-! ### Paths -/

namespace Sql.Value

theorem mem_suffixes {cs ds : List Char} : ds ∈ suffixes cs ↔ ds <:+ cs := by
  induction cs with
  | nil => simp [suffixes]
  | cons c cs ih => rw [suffixes, List.mem_cons, ih, List.suffix_cons_iff]

theorem matchesPattern_any_cons (pattern cs : List Char) :
    matchesPattern ('%' :: pattern) cs = (suffixes cs).any (matchesPattern pattern) := rfl

theorem matchesPattern_letter_nil {p : Char} (hp : p ≠ '%') (pattern : List Char) :
    matchesPattern (p :: pattern) [] = false := if_neg hp

theorem matchesPattern_letter_cons {p : Char} (hp : p ≠ '%') (hu : p ≠ '_') (pattern : List Char)
    (c : Char) (cs : List Char) :
    matchesPattern (p :: pattern) (c :: cs) =
      (decide (p.toLower = c.toLower) && matchesPattern pattern cs) := by
  refine (if_neg hp).trans ?_
  simp [hu]

/-- A pattern without `%` and `_` matches what differs from it by the case of letters. -/
theorem matchesPattern_letters {pattern cs : List Char} (h : ∀ p ∈ pattern, p ≠ '%' ∧ p ≠ '_') :
    matchesPattern pattern cs ↔ cs.map Char.toLower = pattern.map Char.toLower := by
  induction pattern generalizing cs with
  | nil => simp [matchesPattern]
  | cons p pattern ih =>
    obtain ⟨hp, hu⟩ := h p (by simp)
    have ih (cs) := @ih cs fun q hq => h q (by simp [hq])
    cases cs with
    | nil => simp [matchesPattern_letter_nil hp]
    | cons c cs =>
      rw [matchesPattern_letter_cons hp hu, Bool.and_eq_true, decide_eq_true_eq, ih, List.map_cons,
        List.map_cons, List.cons.injEq, eq_comm (a := p.toLower)]

/-- The end of a text is the one given, up to the case of letters. -/
def EndsLike (ending cs : List Char) : Prop :=
  ∃ tail, tail <:+ cs ∧ tail.map Char.toLower = ending.map Char.toLower

theorem matchesPattern_any {pattern cs : List Char} (h : ∀ p ∈ pattern, p ≠ '%' ∧ p ≠ '_') :
    matchesPattern ('%' :: pattern) cs ↔ EndsLike pattern cs := by
  rw [matchesPattern_any_cons, List.any_eq_true]
  simp only [mem_suffixes, matchesPattern_letters h]
  rfl

theorem EndsLike.of_suffix {ending cs : List Char} (h : ending <:+ cs) : EndsLike ending cs :=
  ⟨ending, h, rfl⟩

theorem visible_of_writable {s : String} (h : Writable s) : visible s = s.toList := by
  rw [visible, List.takeWhile_eq_self_iff]
  intro c hc
  exact decide_eq_true fun hnull => h (hnull ▸ hc)

end Sql.Value

/-! ### Names -/

namespace Timestamp

theorem isDigit_of_mem_digits {t : Timestamp} {c : Char} (h : c ∈ t.digits) : c.isDigit :=
  isDigit_of_mem_padded h

theorem length_digits (t : Timestamp) : t.digits.length = width := length_padded _ _

theorem value_digits (t : Timestamp) : value t.digits = t.seconds := value_padded t.lt

theorem not_null_of_isDigit {c : Char} (h : c.isDigit) : c ≠ '\x00' := by
  rintro rfl
  revert h
  decide

theorem writable_encode (t : Timestamp) : Writable t.encode := by
  rw [Writable, encode, String.toList_ofList]
  intro h
  exact not_null_of_isDigit (isDigit_of_mem_digits h) rfl

theorem leading_of_starts {t : Timestamp} {name : String} (h : t.Starts name) :
    (Value.text name).leading width = .text t.encode := by
  obtain ⟨rest, hrest⟩ := h.toList_eq
  have hnull : ∀ c ∈ t.digits, decide (c ≠ '\x00') = true := fun c hc =>
    decide_eq_true (not_null_of_isDigit (isDigit_of_mem_digits hc))
  rw [Value.leading, Value.visible, hrest, List.takeWhile_append_of_pos hnull, ← length_digits t,
    List.take_left, encode]

theorem leadingInteger_digits (t : Timestamp) : Value.leadingInteger t.digits = t.seconds := by
  have hall : t.digits.takeWhile Char.isDigit = t.digits :=
    List.takeWhile_eq_self_iff.2 fun c hc => isDigit_of_mem_digits hc
  have hval := value_digits t
  cases hds : t.digits with
  | nil =>
    have := length_digits t
    rw [hds] at this
    cases this
  | cons c cs =>
    have hc : c.isDigit := isDigit_of_mem_digits (hds ▸ List.mem_cons_self)
    have hspace : Value.isSpace c = false := by
      obtain ⟨hl, -⟩ := toNat_of_isDigit hc
      by_contra hs
      simp only [Value.isSpace, Bool.not_eq_false, Bool.or_eq_true, decide_eq_true_eq] at hs
      rcases hs with ((((rfl | rfl) | rfl) | rfl) | rfl) | rfl <;> revert hl <;> decide
    rw [hds] at hall hval
    unfold Value.leadingInteger
    simp only [List.dropWhile_cons, hspace, Bool.false_eq_true, if_false]
    split
    · next heq => cases heq; cases hc
    · next heq => cases heq; cases hc
    · rw [hall, hval]

end Timestamp

/-- A double that an integer does not exceed is not below it in a comparison of columns. -/
theorem Sql.eval_ge_of_ofInt_le {n : ℕ} (h : n < 2 ^ 53) {x : Binary64}
    (hle : (Binary64.ofInt n).le x) :
    Comparison.eval .ge (.real x) (.integer n) = some true := by
  rcases Binary64.ofInt_le h hle with rfl | ⟨hfin, hu⟩
  · rfl
  · cases x with
    | nan => simp [Binary64.isFinite] at hfin
    | number s r =>
      have hr : r.val ≠ Binary64.infinityRank := by simp [Binary64.isFinite] at hfin; omega
      have hcmp := compare_gt_iff_gt.not.2 hu.not_gt
      simp only [Comparison.eval, Value.compare?, Value.compareToReal, if_neg hr, Option.map_some,
        Comparison.accepts, Option.some.injEq, decide_eq_true_eq]
      intro hlt
      exact hcmp (Ordering.swap_inj.1 hlt)

/-! ### The selection -/

namespace Query.Files

/-- The part of the selection that looks at names and lengths. -/
def startTest (w : Window) : Condition FragmentColumn :=
  .or (.between startText (.text w.start.encode) (.text w.stop.encode))
    (.and (.compare startText .lt (.text w.start.encode))
      (.compare (.sum (.asInteger startText) (.column (.metadata .duration))) .ge
        (.integer w.start.seconds)))

theorem letters_fragmentExtension : ∀ p ∈ fragmentExtension.toList, p ≠ '%' ∧ p ≠ '_' := by
  simp [fragmentExtension]

theorem holds_like_path {r : FragmentRow} :
    (Condition.like (.file .path) ("%" ++ fragmentExtension)).holds r.value ↔
      Value.EndsLike fragmentExtension.toList (Value.visible r.file.path) := by
  have hpattern : ("%" ++ fragmentExtension).toList = '%' :: fragmentExtension.toList := by
    rw [String.toList_append]
    rfl
  have heval : (Condition.like (.file .path) ("%" ++ fragmentExtension)).eval r.value =
      some (Value.matchesPattern ("%" ++ fragmentExtension).toList (Value.visible r.file.path)) :=
    rfl
  rw [holds_iff, heval, Option.some.injEq, hpattern]
  exact Value.matchesPattern_any letters_fragmentExtension

theorem holds_inWindow {camera : String} {w : Window} {r : FragmentRow} :
    (inWindow camera w).condition.holds r.value ↔
      (r.file.camera = camera ∧ r.file.category = recorderCategory ∧
        Value.EndsLike fragmentExtension.toList (Value.visible r.file.path)) ∧
      (startTest w).holds r.value := by
  have hsplit : (inWindow camera w).condition =
      .and (.and (.and (.equals (.file .camera) (.text camera))
          (.equals (.file .category) (.text recorderCategory)))
        (.like (.file .path) ("%" ++ fragmentExtension))) (startTest w) := rfl
  have hcamera : r.value (.file .camera) = .text r.file.camera := rfl
  have hcategory : r.value (.file .category) = .text r.file.category := rfl
  simp only [hsplit, Condition.holds_and, Bool.and_eq_true, holds_equals_text hcamera,
    holds_equals_text hcategory, holds_like_path, and_assoc]

theorem eval_startText {r : FragmentRow} {t : Timestamp} (ht : t.Starts r.file.filename) :
    startText.eval r.value = .text t.encode := Timestamp.leading_of_starts ht

theorem asInteger_startText {r : FragmentRow} {t : Timestamp} (ht : t.Starts r.file.filename) :
    (Term.asInteger startText).eval r.value = .integer t.seconds := by
  have hn : Value.leadingInteger t.encode.toList = t.seconds := by
    rw [Timestamp.encode, String.toList_ofList, Timestamp.leadingInteger_digits]
  rw [Term.eval, eval_startText ht]
  exact congrArg Value.integer hn

/-- What a window admits passes the test on names and lengths. -/
theorem holds_startTest_of_admits {w : Window} {r : FragmentRow} {t : Timestamp}
    (ht : t.Starts r.file.filename) {d : Option Binary64}
    (hd : r.value (.metadata .duration) = .ofOption .real d) {why : Inclusion}
    (h : w.admits t d = some why) : (startTest w).holds r.value := by
  have hstart := eval_startText ht
  have hcmp (u : Timestamp) : Value.compare? (.text t.encode) (.text u.encode) =
      some (compare t.seconds u.seconds) := congrArg some (Timestamp.compare_encode t u)
  rw [Window.admits_eq_some_iff] at h
  rw [startTest, Condition.holds_or, Bool.or_eq_true]
  cases why with
  | inWindow =>
    left
    obtain ⟨hlow, hhigh⟩ := h
    rw [holds_iff, Condition.eval, hstart, bothTrue_eq_some_true]
    constructor
    · simpa [Comparison.eval, hcmp, Comparison.accepts, Nat.compare_eq_lt] using hlow
    · simpa [Comparison.eval, hcmp, Comparison.accepts, Nat.compare_eq_gt] using hhigh
  | coversStart =>
    right
    obtain ⟨hlt, x, rfl, -, hreach⟩ := h
    rw [Condition.holds_and, Bool.and_eq_true, holds_compare, holds_compare]
    constructor
    · simpa [Term.eval, Term.text, hstart, Comparison.eval, hcmp, Comparison.accepts,
        Nat.compare_eq_lt] using hlt
    · have hsum : (Term.sum (.asInteger startText) (.column (.metadata .duration))).eval r.value =
          .real (Window.playsUntil t x) := by
        rw [Term.eval, asInteger_startText ht, Term.eval, hd]
        rfl
      rw [hsum]
      exact eval_ge_of_ofInt_le (w.start.lt.trans (by decide)) hreach

end Query.Files

end Footage
