import Footage.Proofs.Fragment.Prefilter
import Footage.Proofs.Outcome
import Footage.Record
import Mathlib.Data.String.Basic

/-! Names of recordings. A name is the ten digits of a start and the extension, and nothing else is
read as one. What is in front of the extension has to be of ten bytes, so the digits, which a name of
a fragment only starts with, are all of it. -/

namespace Footage

open Outcome

/-! ### Texts of ten bytes -/

theorem Numeral.utf8Len_of_isDigit {cs : List Char} (h : ∀ c ∈ cs, c.isDigit) :
    String.utf8Len cs = cs.length := by
  induction cs with
  | nil => rfl
  | cons c cs ih =>
    obtain ⟨hc, hcs⟩ := List.forall_mem_cons.1 h
    rw [String.utf8Len_cons, ih hcs, utf8Size_of_isDigit hc, List.length_cons]

namespace Timestamp

variable {t : Timestamp} {stem : String} {e : NameError}

theorem starts_encode (t : Timestamp) : t.Starts t.encode := by
  refine ⟨t.digits, [], ?_, length_digits t, fun c hc => isDigit_of_mem_digits hc, value_digits t⟩
  rw [encode, String.toList_ofList, List.append_nil]

theorem utf8ByteSize_encode (t : Timestamp) : t.encode.utf8ByteSize = width := by
  rw [encode, String.utf8ByteSize_ofList,
    Numeral.utf8Len_of_isDigit fun c hc => isDigit_of_mem_digits hc, length_digits]

/-- All bytes of a text are its first ones. -/
theorem bytesPrefix?_utf8Len (cs : List Char) : bytesPrefix? (String.utf8Len cs) cs = some cs := by
  induction cs with
  | nil => rfl
  | cons c cs ih =>
    obtain ⟨n, hn⟩ : ∃ n, String.utf8Len (c :: cs) = n + 1 :=
      Nat.exists_eq_succ_of_ne_zero (mt String.utf8Len_eq_zero.1 (List.cons_ne_nil c cs))
    have hrest : n + 1 - c.utf8Size = String.utf8Len cs := by
      rw [← hn, String.utf8Len_cons, Nat.add_sub_cancel]
    have hle : c.utf8Size ≤ n + 1 := by
      rw [← hn, String.utf8Len_cons]
      exact Nat.le_add_left _ _
    rw [hn, bytesPrefix?, if_pos hle, hrest, ih, Option.map_some]

section Width
variable (hwidth : stem.utf8ByteSize = width)
include hwidth

theorem bytesPrefix?_of_width : bytesPrefix? width stem.toList = some stem.toList := by
  have hlen : String.utf8Len stem.toList = width := by
    rw [← String.utf8ByteSize_ofList, String.ofList_toList, hwidth]
  rw [← hlen, bytesPrefix?_utf8Len]

/-- Nothing follows the digits in ten bytes. -/
theorem decode_eq_ok_iff_of_width : decode stem = .ok t ↔ stem = t.encode := by
  rw [decode_eq_ok_iff]
  constructor
  · rintro ⟨ds, rest, hname, hlen, hd, hvalue⟩
    have hprefix := bytesPrefix?_append hd rest
    rw [hlen, ← hname, bytesPrefix?_of_width hwidth] at hprefix
    rw [← String.toList_inj, encode, String.toList_ofList, digits, ← hvalue, ← hlen,
      Numeral.padded_value hd]
    exact Option.some.inj hprefix
  · rintro rfl
    exact t.starts_encode

theorem decode_eq_error_iff_of_width :
    decode stem = .error e ↔ (∃ c ∈ stem.toList, ¬ c.isDigit) ∧ e = .notDigits stem := by
  simp [decode_eq_error_iff, bytesPrefix?_of_width hwidth]

end Width

end Timestamp

/-! ### Reading names -/

/-- Why a text is no name of a recording. -/
inductive Misnamed : String → Error → Prop
  | extension {n : String} (h : ¬ ∃ stem, n = stem ++ ".mp4") :
      Misnamed n (.invalidArgument (.recordingSuffix n))
  | width {stem : String} (h : stem.utf8ByteSize ≠ 10) :
      Misnamed (stem ++ ".mp4") (.invalidArgument (.recordingWidth (stem ++ ".mp4")))
  | digits {stem : String} (hwidth : stem.utf8ByteSize = 10) (h : ∃ c ∈ stem.toList, ¬ c.isDigit) :
      Misnamed (stem ++ ".mp4") (.fragmentName (.notDigits stem))

variable {n : String} {t : Timestamp} {e : Error}

theorem startOfFilename_of_no_extension (h : ¬ ∃ stem, n = stem ++ ".mp4") :
    startOfFilename n = .error (.invalidArgument (.recordingSuffix n)) := by
  have hsuffix : ¬ ".mp4".toList.isSuffixOf n.toList = true := by
    rw [List.isSuffixOf_iff_suffix]
    rintro ⟨cs, hcs⟩
    exact h ⟨String.ofList cs, by rw [← String.toList_inj, String.toList_append,
      String.toList_ofList, hcs]⟩
  simp only [startOfFilename, hsuffix]
  rfl

theorem startOfFilename_append (stem : String) : startOfFilename (stem ++ ".mp4") =
    if stem.utf8ByteSize ≠ 10 then .error (.invalidArgument (.recordingWidth (stem ++ ".mp4")))
    else (Timestamp.decode stem).mapError .fragmentName := by
  have hsuffix : ".mp4".toList.isSuffixOf (stem ++ ".mp4").toList = true := by
    rw [List.isSuffixOf_iff_suffix, String.toList_append]
    exact List.suffix_append _ _
  have hstem : String.ofList ((stem ++ ".mp4").toList.take
      ((stem ++ ".mp4").toList.length - ".mp4".toList.length)) = stem := by
    rw [String.toList_append, List.length_append, Nat.add_sub_cancel, List.take_left,
      String.ofList_toList]
  simp only [startOfFilename, hsuffix, hstem]
  rfl

theorem startOfFilename_eq_ok_iff : startOfFilename n = .ok t ↔ n = t.encode ++ ".mp4" := by
  by_cases hn : ∃ stem, n = stem ++ ".mp4"
  · obtain ⟨stem, rfl⟩ := hn
    rw [startOfFilename_append, String.append_left_inj]
    by_cases hwidth : stem.utf8ByteSize = 10
    · rw [if_neg (not_not.2 hwidth), mapError_eq_ok_iff, Timestamp.decode_eq_ok_iff_of_width hwidth]
    · rw [if_pos hwidth]
      refine iff_of_false (by simp) ?_
      rintro rfl
      exact hwidth t.utf8ByteSize_encode
  · rw [startOfFilename_of_no_extension hn]
    exact iff_of_false (by simp) fun h => hn ⟨_, h⟩

theorem startOfFilename_eq_error_iff : startOfFilename n = .error e ↔ Misnamed n e := by
  constructor
  · intro h
    by_cases hn : ∃ stem, n = stem ++ ".mp4"
    · obtain ⟨stem, rfl⟩ := hn
      rw [startOfFilename_append] at h
      split_ifs at h with hwidth
      · exact Except.error.inj h ▸ .width hwidth
      · obtain ⟨cause, hcause, rfl⟩ := mapError_eq_error_iff.1 h
        rw [not_not] at hwidth
        obtain ⟨hnot, rfl⟩ := (Timestamp.decode_eq_error_iff_of_width hwidth).1 hcause
        exact .digits hwidth hnot
    · rw [startOfFilename_of_no_extension hn] at h
      exact Except.error.inj h ▸ .extension hn
  · intro h
    cases h with
    | extension hn => exact startOfFilename_of_no_extension hn
    | width hwidth => rw [startOfFilename_append, if_pos hwidth]
    | digits hwidth hnot =>
      rw [startOfFilename_append, if_neg (not_not.2 hwidth), mapError_eq_error_iff]
      exact ⟨_, (Timestamp.decode_eq_error_iff_of_width hwidth).2 ⟨hnot, rfl⟩, rfl⟩

/-! ### The names that recordings go by -/

namespace Recording

/-- The second that the filename writes. -/
def nameSecond (r : Recording) : Timestamp := .saturating r.start.seconds

theorem startOfFilename_filename (r : Recording) : startOfFilename r.filename = .ok r.nameSecond :=
  startOfFilename_eq_ok_iff.2 rfl

/-- The name writes the start, unless the start is too early or too late to be written. -/
theorem nameSecond_eq_iff (r : Recording) : (r.nameSecond.seconds : ℤ) = r.start.seconds ↔
    0 ≤ r.start.seconds ∧ r.start.seconds < 10000000000 := by
  simp only [nameSecond, Timestamp.saturating]
  omega

end Recording

/-! ### Names and starts -/

theorem exists_misnamed_iff : (∃ e, Misnamed n e) ↔ ∀ t : Timestamp, n ≠ t.encode ++ ".mp4" := by
  simp only [← startOfFilename_eq_error_iff, Ne, ← startOfFilename_eq_ok_iff]
  cases startOfFilename n <;> simp

/-- A text is read as a start exactly if it is the ten digits of the start and the extension. So the
name of a recording is read back as its start wherever ten digits can write it, and no two names are
read as one start. Every other text is refused for the first rule that it breaks: it has no such
extension, what is in front of it is not of ten bytes, or these are not all digits. -/
theorem startOfFilename_exact :
    (∀ n t, startOfFilename n = .ok t ↔ n = t.encode ++ ".mp4") ∧
    (∀ t : Timestamp, t.encode.length = 10 ∧ (∀ c ∈ t.encode.toList, c.isDigit) ∧
      Numeral.value t.encode.toList = t.seconds) ∧
    (∀ r : Recording, (∃ t, startOfFilename r.filename = .ok t ∧ (t.seconds : ℤ) = r.start.seconds) ↔
      0 ≤ r.start.seconds ∧ r.start.seconds < 10000000000) ∧
    (∀ m n t u, startOfFilename m = .ok t → startOfFilename n = .ok u → m ≠ n →
      t.seconds ≠ u.seconds) ∧
    (∀ n, (∃ e, Misnamed n e) ↔ ∀ t : Timestamp, n ≠ t.encode ++ ".mp4") ∧
    (∀ n e, startOfFilename n = .error e ↔ Misnamed n e) ∧
    ∀ n, (∀ name, startOfFilename n ≠ .error (.fragmentName (.tooShort name))) ∧
      ∀ second, startOfFilename n ≠ .error (.fragmentName (.outOfRange second)) := by
  refine ⟨fun n t => startOfFilename_eq_ok_iff, fun t => ⟨?_, ?_, ?_⟩, fun r => ?_,
    fun m n t u hm hn hne heq => hne ?_, fun n => exists_misnamed_iff,
    fun n e => startOfFilename_eq_error_iff, fun n => ⟨fun name h => ?_, fun second h => ?_⟩⟩
  · rw [Timestamp.encode, String.length_ofList, t.length_digits]
    rfl
  · rw [Timestamp.encode, String.toList_ofList]
    exact fun c => Timestamp.isDigit_of_mem_digits
  · rw [Timestamp.encode, String.toList_ofList, t.value_digits]
  · rw [← r.nameSecond_eq_iff, r.startOfFilename_filename]
    simp
  · obtain rfl : t = u := by
      cases t
      cases u
      cases heq
      rfl
    rw [startOfFilename_eq_ok_iff.1 hm, startOfFilename_eq_ok_iff.1 hn]
  · cases startOfFilename_eq_error_iff.1 h
  · cases startOfFilename_eq_error_iff.1 h

/-- The names of two seconds in a row are read as different starts. Ten bytes before the extension do
not make a name where they are five letters or end with the extension themselves. -/
theorem startOfFilename_exact_neighbours :
    startOfFilename "0999999999.mp4" = .ok ⟨999999999, by decide⟩ ∧
      startOfFilename "1000000000.mp4" = .ok ⟨1000000000, by decide⟩ ∧
      "0999999999.mp4" ≠ "1000000000.mp4" ∧ 999999999 ≠ 1000000000 ∧
      Misnamed "ééééé.mp4" (.fragmentName (.notDigits "ééééé")) ∧
      Misnamed "123456.mp4.mp4" (.fragmentName (.notDigits "123456.mp4")) := by
  obtain ⟨-, -, -, hstarts, -, hrefused, -⟩ := startOfFilename_exact
  have hm : startOfFilename "0999999999.mp4" = .ok ⟨999999999, by decide⟩ := by decide
  have hn : startOfFilename "1000000000.mp4" = .ok ⟨1000000000, by decide⟩ := by decide
  have hne : "0999999999.mp4" ≠ "1000000000.mp4" := by decide
  exact ⟨hm, hn, hne, hstarts _ _ _ _ hm hn hne, (hrefused _ _).1 (by decide),
    (hrefused _ _).1 (by decide)⟩

end Footage
