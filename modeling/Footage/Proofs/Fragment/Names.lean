import Footage.Proofs.Fragment.Narrowing
import Footage.Proofs.Text.Bytes

/-! Names of fragments as a code for their starts. A name is read back as the second that it was made
from, whatever follows the digits, and names are in the order of their starts before anything else.
So the query, which compares texts, lists rows and tests bounds as numbers would, and sorting what is
read from its rows by start changes nothing. -/

namespace Footage

open Sql Text

namespace Timestamp

variable {t u : Timestamp} {m n : String}

/-! ### Reading names back -/

theorem starts_filename (t : Timestamp) (extension : String) : t.Starts (filename t extension) := by
  refine ⟨t.digits, extension.toList, ?_, length_digits t, fun _ => isDigit_of_mem_digits,
    value_digits t⟩
  rw [filename, encode, String.toList_append, String.toList_ofList]

theorem exists_starts_iff {n : String} : (∃ t : Timestamp, t.Starts n) ↔
    ∃ ds rest, n.toList = ds ++ rest ∧ ds.length = width ∧ ∀ c ∈ ds, c.isDigit := by
  constructor
  · rintro ⟨t, ds, rest, hname, hlen, hd, -⟩
    exact ⟨ds, rest, hname, hlen, hd⟩
  · rintro ⟨ds, rest, hname, hlen, hd⟩
    exact ⟨⟨_, value_lt_of_length hlen hd⟩, ds, rest, hname, hlen, hd, rfl⟩

/-- What follows the digits of a name is the rest of it. -/
theorem Starts.eq_encode_append (h : t.Starts n) :
    n = t.encode ++ String.ofList (n.toList.drop width) := by
  obtain ⟨rest, hrest⟩ := h.toList_eq
  rw [← String.toList_inj, String.toList_append, encode, String.toList_ofList, String.toList_ofList,
    hrest, List.drop_left' (length_digits t)]

theorem decode_ne_outOfRange (n : String) (second : ℤ) : decode n ≠ .error (.outOfRange second) := by
  rw [Ne, decode_eq_error_iff]
  rintro (⟨-, h⟩ | ⟨cs, -, -, h⟩) <;> cases h

/-! ### Names in order -/

theorem Starts.lt_of_lt (hm : t.Starts m) (hn : u.Starts n) (h : t.seconds < u.seconds) : m < n := by
  obtain ⟨k, hk⟩ := hm.toList_eq
  obtain ⟨l, hl⟩ := hn.toList_eq
  have hdigits := encode_lt_encode h
  rw [String.lt_iff, encode, encode, String.toList_ofList, String.toList_ofList] at hdigits
  rw [String.lt_iff, hk, hl]
  exact Numeral.append_lt_append k l ((length_digits t).trans (length_digits u).symm) hdigits

theorem Starts.seconds_le (hm : t.Starts m) (hn : u.Starts n) (h : m ≤ n) : t.seconds ≤ u.seconds := by
  by_contra hlt
  exact String.not_le.2 (hn.lt_of_lt hm (Nat.lt_of_not_le hlt)) h

theorem encode_le_iff : t.encode ≤ u.encode ↔ t.seconds ≤ u.seconds := by
  refine ⟨fun h => ?_, encode_le_encode⟩
  by_contra hlt
  exact String.not_le.2 (encode_lt_encode (Nat.lt_of_not_le hlt)) h

/-- A name comes before another one by start, and by its bytes where they start together. -/
def NameLe (m n : String) : Prop :=
  ∃ t u, decode m = .ok t ∧ decode n = .ok u ∧
    (t.seconds < u.seconds ∨ t.seconds = u.seconds ∧ bytes m.toList ≤ bytes n.toList)

theorem nameLe_of_le (hm : ∃ t, decode m = .ok t) (hn : ∃ t, decode n = .ok t) (h : m ≤ n) :
    NameLe m n := by
  obtain ⟨t, ht⟩ := hm
  obtain ⟨u, hu⟩ := hn
  have hle := (decode_eq_ok_iff.1 ht).seconds_le (decode_eq_ok_iff.1 hu) h
  exact ⟨t, u, ht, hu, hle.lt_or_eq.imp_right fun heq => ⟨heq, bytes_le_bytes_iff.2 h⟩⟩

end Timestamp

/-! ### The query -/

namespace Query.Files

open Timestamp

variable {r : FragmentRow} {t : Timestamp}

theorem holds_between_startText (ht : t.Starts r.file.filename) {low high : Timestamp} :
    (Condition.between startText (.text low.encode) (.text high.encode)).holds r.value ↔
      low.seconds ≤ t.seconds ∧ t.seconds ≤ high.seconds := by
  rw [holds_iff, Condition.eval, eval_startText ht, bothTrue_eq_some_true, eval_ge_text, eval_le_text,
    encode_le_iff, encode_le_iff]

/-- On names that start with a second the test on texts is one on numbers. -/
theorem holds_startTest_iff_seconds (ht : t.Starts r.file.filename) {w : Window} :
    (startTest w).holds r.value ↔
      (w.start.seconds ≤ t.seconds ∧ t.seconds ≤ w.stop.seconds) ∨
      (t.seconds < w.start.seconds ∧
        Comparison.eval .ge ((Value.integer t.seconds).sum (r.value (.metadata .duration)))
          (.integer w.start.seconds) = some true) := by
  rw [holds_startTest_iff (eval_startText ht), encode_le_iff, encode_le_iff, ← String.not_le,
    encode_le_iff, Nat.not_le, Term.eval, asInteger_startText ht]
  rfl

end Query.Files

/-! ### The order of rows and fragments -/

theorem pairwise_rows (camera : String) (w : Window) (rows : List FragmentRow) :
    ((Query.Files.inWindow camera w).rows FragmentRow.value rows).Pairwise fun q r =>
      q.file.filename ≤ r.file.filename := by
  rw [Store.rows_inWindow]
  exact ((List.pairwise_mergeSort FragmentRow.nameLe_trans FragmentRow.nameLe_total rows).imp
    FragmentRow.nameLe_iff.1).filter _

theorem pairwise_nameLe_rows {rows : List FragmentRow} (camera : String) (w : Window)
    (h : ∀ r ∈ rows, ∃ t, Timestamp.decode r.file.filename = .ok t) :
    (((Query.Files.inWindow camera w).rows FragmentRow.value rows).map
      (·.file.filename)).Pairwise Timestamp.NameLe := by
  rw [List.pairwise_map]
  refine (pairwise_rows camera w rows).imp_of_mem fun {q r} hq hr hle => ?_
  exact Timestamp.nameLe_of_le (h q ((mem_rows rfl).1 hq).1) (h r ((mem_rows rfl).1 hr).1) hle

theorem FragmentRow.le_of_filename_le {w : Window} {q r : FragmentRow} {f g : Fragment}
    (hf : q.verdict w = .ok (some f)) (hg : r.verdict w = .ok (some g))
    (h : q.file.filename ≤ r.file.filename) : f.le g := by
  rw [verdict_eq_some_iff, read_eq_some_iff] at hf hg
  obtain ⟨hfile, -, hstart, -⟩ := hf
  obtain ⟨hfile', -, hstart', -⟩ := hg
  obtain ⟨-, -, -, -, -, -, hname, -⟩ := FileRow.read_eq_ok_iff.1 hfile
  obtain ⟨-, -, -, -, -, -, hname', -⟩ := FileRow.read_eq_ok_iff.1 hfile'
  rw [Fragment.le_iff, hname, hname']
  exact (hstart.seconds_le hstart' h).lt_or_eq.imp_right fun heq => ⟨heq, h⟩

namespace Store

/-- Fragments that are read from rows in the order of the query are in order. -/
theorem mergeSort_readFragments {camera : String} {w : Window} {rows : List FragmentRow}
    {fs : List Fragment}
    (h : readFragments w ((Query.Files.inWindow camera w).rows FragmentRow.value rows) = .ok fs) :
    fs.mergeSort Fragment.le = fs := by
  rw [readFragments_eq_mapM] at h
  obtain ⟨found, hfound, rfl⟩ := Outcome.map_eq_ok_iff.1 h
  have hpairs : found.Pairwise fun x y => ∀ f, x = some f → ∀ g, y = some g → f.le g := by
    refine Outcome.pairwise_of_mapM hfound (pairwise_rows camera w rows) ?_
    rintro q r - - hf hg hle f rfl g rfl
    exact FragmentRow.le_of_filename_le hf hg hle
  exact List.mergeSort_of_pairwise (hpairs.filterMap id fun x y hxy => hxy)

end Store

namespace Timestamp

open Query.Files

/-- Names are read back as the starts they were made from, and only names with ten digits in front are
read. They are in the order of their bytes where they are in the order of their starts, so a query
that compares texts agrees with the resolver, which compares numbers. -/
theorem names_codec :
    (∀ t extension, decode (filename t extension) = .ok t) ∧
    (∀ n, (∃ t, decode n = .ok t) ↔
      ∃ ds rest, n.toList = ds ++ rest ∧ ds.length = 10 ∧ ∀ c ∈ ds, c.isDigit) ∧
    (∀ n t, decode n = .ok t → n = t.encode ++ String.ofList (n.toList.drop 10)) ∧
    (∀ n second, decode n ≠ .error (.outOfRange second)) ∧
    (∀ m n t u, decode m = .ok t → decode n = .ok u → t.seconds < u.seconds →
      bytes m.toList < bytes n.toList) ∧
    (∀ names : List String, (∀ n ∈ names, ∃ t, decode n = .ok t) →
      names.Pairwise (fun m n => bytes m.toList ≤ bytes n.toList) → names.Pairwise NameLe) ∧
    (∀ (w : Window) (r : FragmentRow) t, decode r.file.filename = .ok t →
      ((Condition.between startText (.text w.start.encode) (.text w.stop.encode)).holds r.value ↔
        w.start.seconds ≤ t.seconds ∧ t.seconds ≤ w.stop.seconds) ∧
      ∀ camera, (inWindow camera w).condition.holds r.value ↔
        (r.file.camera = camera ∧ r.file.category = recorderCategory ∧
          Value.EndsLike fragmentExtension.toList (Value.visible r.file.path)) ∧
        (w.start.seconds ≤ t.seconds ∧ t.seconds ≤ w.stop.seconds ∨
          t.seconds < w.start.seconds ∧
            Comparison.eval .ge ((Value.integer t.seconds).sum (r.value (.metadata .duration)))
              (.integer w.start.seconds) = some true)) ∧
    (∀ camera w rows, (∀ r ∈ rows, ∃ t, decode r.file.filename = .ok t) →
      (((inWindow camera w).rows FragmentRow.value rows).map (·.file.filename)).Pairwise NameLe) ∧
    ∀ camera w rows fs, Store.readFragments w ((inWindow camera w).rows FragmentRow.value rows) = .ok fs →
      fs.mergeSort Fragment.le = fs := by
  refine ⟨fun t extension => decode_eq_ok_iff.2 (starts_filename t extension), fun n => ?_,
    fun n t h => (decode_eq_ok_iff.1 h).eq_encode_append, decode_ne_outOfRange,
    fun m n t u hm hn h => ?_, fun names hnames h => ?_, fun w r t ht => ?_,
    fun camera w rows => pairwise_nameLe_rows camera w,
    fun camera w rows fs => Store.mergeSort_readFragments⟩
  · simp only [decode_eq_ok_iff]
    exact exists_starts_iff
  · exact bytes_lt_bytes_iff.2 ((decode_eq_ok_iff.1 hm).lt_of_lt (decode_eq_ok_iff.1 hn) h)
  · exact h.imp_of_mem fun hm hn hle =>
      nameLe_of_le (hnames _ hm) (hnames _ hn) (bytes_le_bytes_iff.1 hle)
  · have ht := decode_eq_ok_iff.1 ht
    refine ⟨holds_between_startText ht, fun camera => ?_⟩
    rw [holds_inWindow, holds_startTest_iff_seconds ht]

end Timestamp

end Footage
