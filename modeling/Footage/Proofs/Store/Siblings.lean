import Footage.Proofs.Store.Footage
import Footage.Proofs.Window.Bounds

/-! The recordings that share footage. The query for them bounds starts and ends by the
span of the fragments in question, rounded up and held within words. A recording that has
one of the fragments starts by the lookback after the start or the end of it, and the
query asks for the ends alone. So it finds those recordings of the camera that have one
of the fragments and start by the lookback after the end of one. That is all of them,
as long as no fragment ends before it starts. -/

namespace Footage

open Outcome Sql

/-- Recordings start at encodable seconds, and what has a length of play has a finite one that is
not negative. -/
structure Store.Regular (s : Store) : Prop where
  starts : ∀ row ∈ s.recordings.rows, ∃ t : Timestamp, row.startTime = .integer t.seconds
  durations : ∀ m ∈ s.filesMeta.rows, ∀ x, m.duration = .real x → x.isFinite ∧ Binary64.zero.le x

/-- Recordings start at encodable seconds. -/
def Store.StartsEncodable (s : Store) : Prop :=
  ∀ row ∈ s.recordings.rows, ∃ t : Timestamp, row.startTime = .integer t.seconds

/-- A recording starts by the lookback after the end of one of the fragments. -/
def RecordingRow.StartsBy (q : RecordingRow) (fragments : List Fragment) (lookback : ℕ) : Prop :=
  ∃ n, q.startTime = .integer n ∧ ∃ f ∈ fragments, n ≤ f.lastSecond + Numeral.clamped lookback

/-! ### Windows -/

section Windows
variable {r : Recording}

theorem Recording.window_start {t : Timestamp} (h : r.start.seconds = t.seconds) (lookback : ℕ)
    (now : Time) :
    (r.window lookback now).start.seconds = t.seconds - lookback := by
  have hlt := t.lt
  rw [window, Window.start_ofInterval]
  omega

theorem Recording.window_stop (r : Recording) (lookback : ℕ) (now : Time) :
    (r.window lookback now).stop.seconds = min (r.stop.getD now).seconds.toNat 9999999999 := rfl

end Windows

/-! ### The span of a fragment -/

namespace Fragment

variable {f : Fragment}

theorem lastSecond_of_duration {d : Binary64} (h : f.metadata.duration = some d) :
    f.lastSecond =
      (Window.playsUntil f.start d).ceilWithin Numeral.leastWord Numeral.greatestWord := by
  simp [lastSecond, stop?, h]

theorem seconds_lt (t : Timestamp) : t.seconds < 2 ^ 53 := t.lt.trans (by decide)

theorem seconds_le_word (t : Timestamp) : (t.seconds : ℤ) ≤ Numeral.greatestWord := by
  have hlt := t.lt
  have hword : (10000000000 : ℤ) ≤ Numeral.greatestWord := by decide
  omega

/-- A fragment plays until its start at least. -/
theorem start_le_lastSecond
    (h : ∀ d, f.metadata.duration = some d → d.isFinite ∧ Binary64.zero.le d) :
    (f.start.seconds : ℤ) ≤ f.lastSecond := by
  cases hd : f.metadata.duration with
  | none => simp [lastSecond, stop?, hd]
  | some d =>
    obtain ⟨hfinite, hzero⟩ := h d hd
    rw [lastSecond_of_duration hd]
    exact Binary64.le_ceilWithin (seconds_lt f.start) (seconds_le_word f.start)
      (Binary64.le_add (Binary64.isFinite_ofInt (seconds_lt f.start)) hfinite hzero)

/-- The start of a window is not after both the start and the end of what it includes. -/
theorem windowStart_le {w : Window} {why : Inclusion}
    (hin : w.Includes f.start f.metadata.duration why) :
    (w.start.seconds : ℤ) ≤ max (f.start.seconds : ℤ) f.lastSecond := by
  cases why with
  | inWindow =>
    obtain ⟨hlow, -⟩ := hin
    omega
  | coversStart =>
    obtain ⟨-, d, hd, -, hreach⟩ := hin
    rw [lastSecond_of_duration hd]
    exact le_max_of_le_right
      (Binary64.le_ceilWithin (seconds_lt w.start) (seconds_le_word w.start) hreach)

end Fragment

namespace Store

variable {s : Store} {lookback : ℕ} {now : Time} {row : RecordingRow} {f : Fragment}

theorem Regular.startsEncodable (hreg : s.Regular) : s.StartsEncodable := hreg.starts

theorem StartsEncodable.exists_start (hstarts : s.StartsEncodable) (hrow : row ∈ s.recordings.rows)
    {r : Recording} (hr : row.read = .ok r) :
    ∃ t : Timestamp, row.startTime = .integer t.seconds ∧ r.start.seconds = t.seconds := by
  obtain ⟨t, ht⟩ := hstarts row hrow
  exact ⟨t, ht, Value.integer.inj ((RecordingRow.startTime_of_read hr).symm.trans ht)⟩

theorem Regular.duration (hreg : s.Regular) {camera : String} {w : Window}
    (h : s.Resolves camera w f) {d : Binary64} (hd : f.metadata.duration = some d) :
    d.isFinite ∧ Binary64.zero.le d := by
  obtain ⟨r, hr, m, hm, -, hmeta, -⟩ := h
  refine hreg.durations m hm d ?_
  rw [(MetaRow.read_eq_ok_iff.1 hmeta).2.1, hd]
  rfl

theorem Resolves.includes {camera : String} {w : Window} (h : s.Resolves camera w f) :
    w.Includes f.start f.metadata.duration f.inclusion := by
  obtain ⟨r, hr, m, hm, -, hmeta, -, hfragment⟩ := h
  exact hfragment.includes hmeta

/-- A recording starts by the start or the end of each of its fragments, but for the lookback. Held
within a word, the lookback is still longer than all encodable seconds. -/
theorem Plays.start_le (hstarts : s.StartsEncodable) (hrow : row ∈ s.recordings.rows)
    (h : s.Plays lookback now row f) :
    ∃ n, row.startTime = .integer n ∧
      n ≤ max (f.start.seconds : ℤ) f.lastSecond + Numeral.clamped lookback := by
  obtain ⟨r, hr, hresolves⟩ := h
  obtain ⟨t, ht, hseconds⟩ := hstarts.exists_start hrow hr
  have hwindow := Recording.window_start hseconds lookback now
  have hreach := Fragment.windowStart_le hresolves.includes
  have hlt := t.lt
  refine ⟨t.seconds, ht, ?_⟩
  unfold Numeral.clamped Numeral.leastWord Numeral.greatestWord
  omega

/-- No fragment of a recording starts after it has ended. -/
theorem Plays.start_le_stop (hs : s.Sound) (hstarts : s.StartsEncodable)
    (hrow : row ∈ s.recordings.rows) (h : s.Plays lookback now row f) :
    row.endTime = .null ∨ ∃ m, row.endTime = .integer m ∧ f.start.seconds ≤ m := by
  obtain ⟨r, hr, hresolves⟩ := h
  obtain ⟨t, ht, hseconds⟩ := hstarts.exists_start hrow hr
  have hwindow := Recording.window_start hseconds lookback now
  rcases RecordingRow.endTime_of_read hr with ⟨hnull, -⟩ | ⟨stop, hend, hstop⟩
  · exact .inl hnull
  · right
    have hordered := (hs.recordings.valid row hrow).ordered _ _ ht hend
    refine ⟨stop.seconds, hend, ?_⟩
    have hwstop := r.window_stop lookback now
    rw [hstop, Option.getD_some] at hwstop
    have hin := hresolves.includes
    cases hwhy : f.inclusion with
    | inWindow =>
      rw [hwhy] at hin
      obtain ⟨-, hhigh⟩ := hin
      omega
    | coversStart =>
      rw [hwhy] at hin
      obtain ⟨hbefore, -⟩ := hin
      omega

theorem Sound.lastSecond_eq (hs : s.Sound) {camera camera' : String} {w w' : Window}
    {f g : Fragment} (hf : s.Resolves camera w f) (hg : s.Resolves camera' w' g)
    (h : f.path = g.path) : f.lastSecond = g.lastSecond := by
  obtain ⟨hstart, hmeta⟩ := hs.eq_of_path_eq hf hg h
  simp only [Fragment.lastSecond, Fragment.stop?, hstart, hmeta]

/-- A recording that has a fragment starts by the end of one of the fragments, but for the lookback,
if the fragment starts by then. -/
theorem Plays.startsBy (hs : s.Sound) (hstarts : s.StartsEncodable)
    {q : RecordingRow} (hq : q ∈ s.recordings.rows) (hrow : row ∈ s.recordings.rows)
    (hf : f ∈ s.footage lookback now row) {g : Fragment} (hg : s.Plays lookback now q g)
    (hpath : g.path = f.path)
    (hby : ∃ h ∈ s.footage lookback now row, (f.start.seconds : ℤ) ≤ h.lastSecond) :
    q.StartsBy (s.footage lookback now row) lookback := by
  obtain ⟨n, hn, hle⟩ := hg.start_le hstarts hq
  obtain ⟨u, -, hu⟩ := (hs.mem_footage hrow).1 hf
  obtain ⟨v, -, hv⟩ := hg
  obtain ⟨hstart, -⟩ := hs.eq_of_path_eq hv hu hpath
  have hspan := hs.lastSecond_eq hv hu hpath
  obtain ⟨h, hh, hby⟩ := hby
  rw [hstart, hspan] at hle
  rcases le_total (f.start.seconds : ℤ) f.lastSecond with hown | hown
  · exact ⟨n, hn, f, hf, by omega⟩
  · exact ⟨n, hn, h, hh, by omega⟩

/-! ### The query -/

theorem holds_ofCamera {camera : String} :
    (Query.Recordings.ofCamera camera none).holds (Row.value row) ↔ row.camera = camera := by
  change (Condition.equals RecordingColumn.camera (.text camera)).holds _ ↔ _
  exact holds_equals_text rfl

theorem holds_siblings {camera : String} {other first last ahead n : ℤ}
    (hstart : row.startTime = .integer n) (hend : row.endTime = .null ∨ row.endTime.IsInteger) :
    (Query.Recordings.siblings camera other first last ahead).condition.holds (Row.value row) ↔
      row.camera = camera ∧ row.id ≠ other ∧ n ≤ Numeral.clamped (last + ahead) ∧
        (row.endTime = .null ∨ ∃ m, row.endTime = .integer m ∧ first ≤ m) := by
  have hsplit : (Query.Recordings.siblings camera other first last ahead).condition =
      .and (.and (.and (Query.Recordings.ofCamera camera none)
          (.compare (.column .id) .ne (.integer other)))
        (.compare (.column .startTime) .le
          (.integer (Numeral.clamped (last + ahead)))))
        (.or (.isNull .endTime) (.compare (.column .endTime) .ge (.integer first))) := rfl
  have hid : (Condition.compare (.column RecordingColumn.id) .ne (.integer other)).holds
      (Row.value row) ↔ row.id ≠ other := holds_compare.trans (eval_ne_integer row.id other)
  have hle : (Condition.compare (.column RecordingColumn.startTime) .le
      (.integer (Numeral.clamped (last + ahead)))).holds (Row.value row) ↔
      n ≤ Numeral.clamped (last + ahead) := by
    have hvalue : Row.value row RecordingColumn.startTime = .integer n := hstart
    rw [holds_compare, Term.eval, hvalue]
    exact eval_le_integer n _
  have hnull : (Condition.isNull RecordingColumn.endTime).holds (Row.value row) ↔
      row.endTime = .null := holds_isNull
  have hge : (Condition.compare (.column RecordingColumn.endTime) .ge (.integer first)).holds
      (Row.value row) ↔ ∃ m, row.endTime = .integer m ∧ first ≤ m := by
    have hvalue : Row.value row RecordingColumn.endTime = row.endTime := rfl
    rw [holds_compare, Term.eval, hvalue]
    rcases hend with hend | ⟨m, hend⟩
    · simp [hend, Term.eval, Term.integer, Comparison.eval, Value.compare?]
    · rw [hend]
      exact (eval_ge_integer m first).trans (by simp)
  simp only [hsplit, Condition.holds_and, Condition.holds_or, Bool.and_eq_true, Bool.or_eq_true,
    holds_ofCamera, hid, hle, hnull, hge, and_assoc]

/-- Holding a sum within words leaves it on the same side of an encodable second. -/
theorem le_clamped_iff {n sum : ℤ} (hzero : 0 ≤ n) (hn : n ≤ 9999999999) :
    n ≤ Numeral.clamped sum ↔ n ≤ sum := by
  unfold Numeral.clamped Numeral.leastWord Numeral.greatestWord
  omega

theorem Sound.holds_siblings_iff (hs : s.Sound) {q : RecordingRow} (hq : q ∈ s.recordings.rows)
    {camera : String} {other first last ahead n : ℤ} (hstart : q.startTime = .integer n) :
    (Query.Recordings.siblings camera other first last ahead).condition.holds (Row.value q) ↔
      q.camera = camera ∧ q.id ≠ other ∧ n ≤ Numeral.clamped (last + ahead) ∧
        (q.endTime = .null ∨ ∃ m, q.endTime = .integer m ∧ first ≤ m) :=
  holds_siblings hstart ((hs.recordings.valid q hq).endTime.imp_right Value.IsTime.isInteger)

theorem siblings_nil (s : Store) (r : Recording) (lookback : ℕ) :
    s.siblings r [] lookback = .ok [] := rfl

/-- The query is for the span from the earliest start of the fragments to the latest end. -/
theorem siblings_eq_select (s : Store) (r : Recording) {fragments : List Fragment}
    (hne : fragments ≠ []) (lookback : ℕ) :
    ∃ earliest ∈ fragments, ∃ latest ∈ fragments,
      (∀ f ∈ fragments, (earliest.start.seconds : ℤ) ≤ f.start.seconds ∧
        f.lastSecond ≤ latest.lastSecond) ∧
      s.siblings r fragments lookback = s.recordings.select (Query.Recordings.siblings r.camera r.id
        earliest.start.seconds latest.lastSecond (Numeral.clamped lookback)) := by
  obtain ⟨first, hfirst⟩ := Option.isSome_iff_exists.1 (List.isSome_min?_iff.2
    (mt List.map_eq_nil_iff.1 hne : fragments.map (fun f => (f.start.seconds : ℤ)) ≠ []))
  obtain ⟨last, hlast⟩ := Option.isSome_iff_exists.1 (List.isSome_max?_iff.2
    (mt List.map_eq_nil_iff.1 hne : fragments.map Fragment.lastSecond ≠ []))
  obtain ⟨hfirst_mem, hfirst_le⟩ := List.min?_eq_some_iff.1 hfirst
  obtain ⟨hlast_mem, hle_last⟩ := List.max?_eq_some_iff.1 hlast
  obtain ⟨earliest, hearliest, rfl⟩ := List.mem_map.1 hfirst_mem
  obtain ⟨latest, hlatest, rfl⟩ := List.mem_map.1 hlast_mem
  refine ⟨earliest, hearliest, latest, hlatest, fun f hf => ?_, ?_⟩
  · exact ⟨hfirst_le _ (List.mem_map_of_mem hf), hle_last _ (List.mem_map_of_mem hf)⟩
  · rw [siblings, hfirst, hlast]

/-- The query finds recordings of the camera only that start by the end of a fragment, and of these
each one that has one of the fragments. -/
theorem Sound.exists_siblings (hs : s.Sound) (hstarts : s.StartsEncodable)
    (hrow : row ∈ s.recordings.rows) {r : Recording} (hr : row.read = .ok r) (lookback : ℕ)
    (now : Time) :
    ∃ found, s.siblings r (s.footage lookback now row) lookback = .ok found ∧
      (∀ q ∈ found, q ∈ s.recordings.rows ∧ q.camera = row.camera ∧ q.id ≠ row.id ∧
        q.StartsBy (s.footage lookback now row) lookback) ∧
      ∀ q ∈ s.recordings.rows, q.camera = row.camera → q.id ≠ row.id →
        q.StartsBy (s.footage lookback now row) lookback →
        ∀ f ∈ s.footage lookback now row, ∀ g, s.Plays lookback now q g → g.path = f.path →
          q ∈ found := by
  obtain ⟨-, -, -, -, -, hcamera, -, -, hid⟩ := RecordingRow.read_eq_ok_iff.1 hr
  by_cases hnil : s.footage lookback now row = []
  · rw [hnil, siblings_nil]
    exact ⟨[], rfl, by simp, fun q _ _ _ _ f hf => absurd hf List.not_mem_nil⟩
  obtain ⟨earliest, -, latest, hlatest, hspan, hsiblings⟩ := s.siblings_eq_select r hnil lookback
  have hlimit : (Query.Recordings.siblings r.camera r.id earliest.start.seconds latest.lastSecond
      (Numeral.clamped lookback)).limit = none := rfl
  have htexts : (Query.Recordings.siblings r.camera r.id earliest.start.seconds latest.lastSecond
      (Numeral.clamped lookback)).condition.texts = [r.camera] := rfl
  have hwritable : Writable r.camera := hcamera ▸ (hs.recordings.valid row hrow).camera
  refine ⟨_, hsiblings.trans (Table.select_of_writable (by simpa [htexts] using hwritable)), ?_, ?_⟩
  · intro q hq
    obtain ⟨hq, hholds⟩ := (mem_rows hlimit).1 hq
    obtain ⟨t, ht⟩ := hstarts q hq
    obtain ⟨hqcamera, hqid, hle, -⟩ := (hs.holds_siblings_iff hq ht).1 hholds
    have hlt := t.lt
    rw [le_clamped_iff (by omega) (by omega)] at hle
    exact ⟨hq, hqcamera.trans hcamera, hid ▸ hqid, t.seconds, ht, latest, hlatest, hle⟩
  · rintro q hq hqcamera hqid ⟨n, hn, h, hh, hle⟩ f hf g hg hpath
    obtain ⟨t, ht⟩ := hstarts q hq
    obtain rfl := Value.integer.inj (hn.symm.trans ht)
    have hlt := t.lt
    have hlast := (hspan h hh).2
    refine (mem_rows hlimit).2 ⟨hq, (hs.holds_siblings_iff hq ht).2
      ⟨hqcamera.trans hcamera.symm, hid ▸ hqid, (le_clamped_iff (by omega) (by omega)).2 (by omega), ?_⟩⟩
    obtain ⟨u, -, hu⟩ := (hs.mem_footage hrow).1 hf
    refine (hg.start_le_stop hs hstarts hq).imp_right ?_
    rintro ⟨m, hm, hstop⟩
    obtain ⟨v, -, hv⟩ := hg
    have hfirst := (hspan f hf).1
    rw [(hs.eq_of_path_eq hv hu hpath).1] at hstop
    exact ⟨m, hm, by omega⟩

/-- The shared paths are those of recordings that start by the end of a fragment. -/
theorem Sound.exists_sharedPaths_startsBy (hs : s.Sound) (hstarts : s.StartsEncodable)
    (hrow : row ∈ s.recordings.rows) {r : Recording} (hr : row.read = .ok r) (lookback : ℕ)
    (now : Time) :
    ∃ shared, s.sharedPaths r (s.footage lookback now row) lookback now = .ok shared ∧
      ∀ path, path ∈ shared ↔ path ∈ s.footagePaths lookback now row ∧
        ∃ q ∈ s.recordings.rows, q.camera = row.camera ∧ q.id ≠ row.id ∧
          q.StartsBy (s.footage lookback now row) lookback ∧
          path ∈ s.footagePaths lookback now q := by
  obtain ⟨found, hfound, honly, hall⟩ := hs.exists_siblings hstarts hrow hr lookback now
  have hothers : found.mapM (fun q => do s.fragmentsOf (← q.read) lookback now) =
      .ok (found.map (s.footage lookback now)) := by
    refine mapM_of_ok fun q hq => ?_
    obtain ⟨hq, -⟩ := honly q hq
    obtain ⟨p, hp⟩ := (hs.recordings.valid q hq).exists_read
    rw [hp, ok_bind]
    exact (hs.fragmentsOf_eq hq hp lookback now).1
  refine ⟨_, bind_eq_ok_iff.2 ⟨_, hfound, bind_eq_ok_iff.2 ⟨_, hothers, rfl⟩⟩, fun path => ?_⟩
  rw [List.mem_filter, List.any_eq_true]
  refine and_congr_right fun hpath => ?_
  constructor
  · rintro ⟨theirs, htheirs, hany⟩
    obtain ⟨q, hq, rfl⟩ := List.mem_map.1 htheirs
    obtain ⟨f, hf, hfpath⟩ := List.any_eq_true.1 hany
    obtain ⟨hq, hcamera, hid, hby⟩ := honly q hq
    exact ⟨q, hq, hcamera, hid, hby, List.mem_map.2 ⟨f, hf, of_decide_eq_true hfpath⟩⟩
  · rintro ⟨q, hq, hcamera, hid, hby, hpath'⟩
    obtain ⟨f, hf, hfpath⟩ := List.mem_map.1 hpath
    obtain ⟨g, hg, hgpath⟩ := List.mem_map.1 hpath'
    have hmem := hall q hq hcamera hid hby f hf g ((hs.mem_footage hq).1 hg)
      (hgpath.trans hfpath.symm)
    exact ⟨_, List.mem_map_of_mem hmem, List.any_eq_true.2 ⟨g, hg, decide_eq_true hgpath⟩⟩

/-- The shared paths are those that another recording of the camera has too. -/
theorem Sound.exists_sharedPaths (hs : s.Sound) (hreg : s.Regular) (hrow : row ∈ s.recordings.rows)
    {r : Recording} (hr : row.read = .ok r) (lookback : ℕ) (now : Time) :
    ∃ shared, s.sharedPaths r (s.footage lookback now row) lookback now = .ok shared ∧
      ∀ path, path ∈ shared ↔ path ∈ s.footagePaths lookback now row ∧
        ∃ q ∈ s.recordings.rows, q.camera = row.camera ∧ q.id ≠ row.id ∧
          path ∈ s.footagePaths lookback now q := by
  obtain ⟨shared, hshared, hmem⟩ :=
    hs.exists_sharedPaths_startsBy hreg.startsEncodable hrow hr lookback now
  refine ⟨shared, hshared, fun path => (hmem path).trans (and_congr_right fun hpath => ?_)⟩
  refine exists_congr fun q => and_congr_right fun hq => ?_
  refine and_congr_right fun _ => and_congr_right fun _ => and_iff_right_of_imp fun hpath' => ?_
  obtain ⟨f, hf, hfpath⟩ := List.mem_map.1 hpath
  obtain ⟨g, hg, hgpath⟩ := (hs.mem_footagePaths hq).1 hpath'
  refine hg.startsBy hs hreg.startsEncodable hq hrow hf (hgpath.trans hfpath.symm) ⟨f, hf, ?_⟩
  obtain ⟨u, -, hu⟩ := (hs.mem_footage hrow).1 hf
  exact Fragment.start_le_lastSecond fun d hd => hreg.duration hu hd

end Store

end Footage
