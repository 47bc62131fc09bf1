import Footage.Proofs.Calendar.Civil
import Footage.Proofs.Recording.Order
import Footage.Proofs.Store.Siblings
import Mathlib.Data.List.Permutation

/-! The listings of a camera. They are one list, sorted by start and id, seen in different
ways: a date keeps a part of it, the latest recording is its last one, and the
latest of every date are found from its end. -/

namespace Footage.Store

open Outcome Sql
open Query.Recordings (StartRange)

variable {s : Store} {camera : String} {date : Option Date} {rs : List Recording}

/-! ### Selected rows -/

/-- The query for recordings of a camera, limited to a date, selects a row. -/
def IsSelected (camera : String) (date : Option Date) (row : RecordingRow) : Prop :=
  (Query.Recordings.ofCamera camera (date.map StartRange.ofDate)).holds (Row.value row) = true

theorem holds_startRange {c : String} {d : Date} {row : RecordingRow} {n : ℤ}
    (hstart : row.startTime = .integer n) :
    (Query.Recordings.ofCamera c (some (.ofDate d))).holds (Row.value row) ↔
      row.camera = c ∧ n / 86400 = d.day := by
  have hvalue : Row.value row RecordingColumn.startTime = .integer n := hstart
  have hge : (Condition.compare (.column RecordingColumn.startTime) .ge
      (.integer (StartRange.ofDate d).first)).holds (Row.value row) ↔ d.day * 86400 ≤ n := by
    rw [holds_compare, Term.eval, hvalue]
    exact eval_ge_integer n _
  have hlt : (Condition.compare (.column RecordingColumn.startTime) .lt
      (.integer (StartRange.ofDate d).past)).holds (Row.value row) ↔ n < d.day * 86400 + 86400 := by
    rw [holds_compare, Term.eval, hvalue]
    exact eval_lt_integer n _
  have hsplit : Query.Recordings.ofCamera c (some (StartRange.ofDate d)) =
      .and (.and (Query.Recordings.ofCamera c none)
        (.compare (.column .startTime) .ge (.integer (StartRange.ofDate d).first)))
        (.compare (.column .startTime) .lt (.integer (StartRange.ofDate d).past)) := rfl
  rw [hsplit, Condition.holds_and, Condition.holds_and, Bool.and_eq_true, Bool.and_eq_true, hge,
    hlt, and_assoc]
  refine and_congr holds_ofCamera ?_
  omega

/-- The range of a date is that of the recordings with this date. -/
theorem isSelected_iff {row : RecordingRow} {r : Recording} (h : row.read = .ok r) :
    IsSelected camera date row ↔ row.camera = camera ∧ ∀ d ∈ date, r.date = d := by
  cases date with
  | none => simpa [IsSelected] using holds_ofCamera
  | some d =>
    refine (holds_startRange (RecordingRow.startTime_of_read h)).trans (and_congr_right fun _ => ?_)
    have hday : r.date = ⟨r.start.seconds / 86400⟩ := rfl
    simp only [Option.mem_some_iff, forall_eq', hday]
    exact (Date.mk.injEq ..).to_iff.symm

theorem IsSelected.camera_eq {row : RecordingRow} (h : IsSelected camera date row) :
    row.camera = camera := by
  cases date with
  | none => exact holds_ofCamera.1 h
  | some d =>
    unfold IsSelected Option.map Query.Recordings.ofCamera at h
    simp only [Condition.holds_and, Bool.and_eq_true] at h
    exact holds_ofCamera.1 h.1.1

theorem texts_ofCamera (c : String) (range : Option StartRange) :
    (Query.Recordings.ofCamera c range).texts = [c] := by
  cases range <;> rfl

theorem select_eq_ok_iff (query : Select RecordingColumn) (range : Option StartRange)
    (hcondition : query.condition = Query.Recordings.ofCamera camera range)
    {rows : List RecordingRow} :
    s.recordings.select query = .ok rows ↔
      Writable camera ∧ query.rows Row.value s.recordings.rows = rows := by
  rw [Table.select_eq_ok_iff, hcondition, texts_ofCamera, List.forall_mem_singleton]

/-! ### Sorted recordings -/

/-- The recordings that are listed for a camera and a date, the oldest first. -/
structure IsListing (s : Store) (camera : String) (date : Option Date) (rs : List Recording) :
    Prop where
  ordered : rs.Pairwise Recording.Precedes
  readable : ∀ row ∈ s.recordings.rows, IsSelected camera date row → row.Readable
  mem_iff : ∀ r, r ∈ rs ↔ ∃ row ∈ s.recordings.rows, IsSelected camera date row ∧ row.read = .ok r

theorem IsListing.unique {rs' : List Recording} (h : s.IsListing camera date rs)
    (h' : s.IsListing camera date rs') : rs = rs' :=
  h.ordered.eq_of_mem_iff h'.ordered fun r => by rw [h.mem_iff, h'.mem_iff]

/-- A date keeps the part of a listing that is of this date. -/
theorem IsListing.ofDate (h : s.IsListing camera none rs) (d : Date) :
    s.IsListing camera (some d) (rs.filter fun r => r.date = d) where
  ordered := h.ordered.filter _
  readable := fun row hrow hselected =>
    h.readable row hrow (holds_ofCamera.2 hselected.camera_eq)
  mem_iff := by
    intro r
    rw [List.mem_filter, h.mem_iff, decide_eq_true_iff]
    constructor
    · rintro ⟨⟨row, hrow, hselected, hr⟩, hdate⟩
      exact ⟨row, hrow, (isSelected_iff hr).2 ⟨hselected.camera_eq, by simpa using hdate⟩, hr⟩
    · rintro ⟨row, hrow, hselected, hr⟩
      obtain ⟨hcamera, hdate⟩ := (isSelected_iff hr).1 hselected
      exact ⟨⟨row, hrow, holds_ofCamera.2 hcamera, hr⟩, hdate d rfl⟩

theorem exists_read_of_selection {query : Select RecordingColumn} (hlimit : query.limit = none)
    (h : (query.rows Row.value s.recordings.rows).mapM RecordingRow.read = .ok rs) :
    ∀ row ∈ s.recordings.rows, query.condition.holds (Row.value row) → ∃ r, row.read = .ok r := by
  intro row hrow hholds
  obtain ⟨r, -, hr⟩ := exists_of_mapM h ((mem_rows hlimit).2 ⟨hrow, hholds⟩)
  exact ⟨r, hr⟩

section Sorted
variable {query : Select RecordingColumn} (hlimit : query.limit = none)
  (hcondition : query.condition = Query.Recordings.ofCamera camera (date.map .ofDate))
include hlimit hcondition

theorem mem_selection {row : RecordingRow} :
    row ∈ query.rows Row.value s.recordings.rows ↔
      row ∈ s.recordings.rows ∧ IsSelected camera date row := by
  rw [mem_rows hlimit, hcondition, IsSelected]

theorem exists_selection_iff :
    (∃ rs, (query.rows Row.value s.recordings.rows).mapM RecordingRow.read = .ok rs) ↔
      ∀ row ∈ s.recordings.rows, IsSelected camera date row → row.Readable := by
  simp only [exists_mapM_iff, RecordingRow.exists_read_iff, mem_selection hlimit hcondition,
    and_imp]

/-- What is read of a selection is a listing when it is in order. -/
theorem isListing_of_perm {rs' : List Recording} (hperm : rs'.Perm rs)
    (h : (query.rows Row.value s.recordings.rows).mapM RecordingRow.read = .ok rs')
    (hordered : rs.Pairwise Recording.Precedes) : s.IsListing camera date rs where
  ordered := hordered
  readable := (exists_selection_iff hlimit hcondition).1 ⟨rs', h⟩
  mem_iff := by
    intro r
    rw [← hperm.mem_iff, mem_of_mapM h]
    simp only [mem_selection hlimit hcondition, and_assoc]

variable (hids : s.recordings.rows.Pairwise fun q r => q.id < r.id)
  (h : (query.rows Row.value s.recordings.rows).mapM RecordingRow.read = .ok rs)
include hids h

theorem isListing_of_ascending
    (horder : query.order = [(.startTime, .ascending), (.id, .ascending)]) :
    s.IsListing camera date rs := by
  have hread := exists_read_of_selection hlimit h
  have hrows := RecordingRow.pairwise_key_ascending hlimit hread horder
  have hkeys := hrows.imp₂ (fun _ _ => RecordingRow.key_lt_of_le)
    (RecordingRow.pairwise_ids_rows hlimit hids)
  refine isListing_of_perm hlimit hcondition .rfl h (pairwise_of_mapM h hkeys ?_)
  intro a b q r hq hr hlt
  rw [Recording.precedes_iff, ← RecordingRow.key_of_read hq, ← RecordingRow.key_of_read hr]
  exact hlt

theorem isListing_of_descending
    (horder : query.order = [(.startTime, .descending), (.id, .descending)]) :
    s.IsListing camera date rs.reverse := by
  have hread := exists_read_of_selection hlimit h
  have hrows := RecordingRow.pairwise_key_descending hlimit hread horder
  have hkeys := hrows.imp₂ (fun _ _ hle hne => RecordingRow.key_lt_of_le hle hne.symm)
    (RecordingRow.pairwise_ids_rows hlimit hids)
  refine isListing_of_perm hlimit hcondition (List.reverse_perm rs).symm h
    (List.pairwise_reverse.2 (pairwise_of_mapM h hkeys ?_))
  intro a b q r hq hr hlt
  rw [Recording.precedes_iff, ← RecordingRow.key_of_read hq, ← RecordingRow.key_of_read hr]
  exact hlt

end Sorted

/-- What is read of a selection is in order when the rows are. -/
theorem pairwise_read {rows : List RecordingRow} (hrows : rows.Pairwise fun a b => a.key ≤ b.key)
    (h : rows.mapM RecordingRow.read = .ok rs) : rs.Pairwise fun q r => ¬ r.Precedes q := by
  refine pairwise_of_mapM h hrows fun a b q r hq hr hle => ?_
  rw [Recording.precedes_iff, ← RecordingRow.key_of_read hq, ← RecordingRow.key_of_read hr]
  exact not_lt.2 hle

theorem recordingsOf_eq_ok_iff_mapM :
    s.recordingsOf camera date = .ok rs ↔ Writable camera ∧
      ((Query.Recordings.oldestFirst camera (date.map .ofDate)).rows Row.value
        s.recordings.rows).mapM RecordingRow.read = .ok rs := by
  have hselect (rows) : s.recordings.select
      (Query.Recordings.oldestFirst camera (date.map .ofDate)) = .ok rows ↔ _ :=
    select_eq_ok_iff _ _ rfl
  simp only [recordingsOf, bind_eq_ok_iff, hselect, and_assoc, exists_and_left, exists_eq_left']

theorem exists_recordingsOf_iff :
    (∃ rs, s.recordingsOf camera date = .ok rs) ↔
      Writable camera ∧ ∀ row ∈ s.recordings.rows, IsSelected camera date row → row.Readable := by
  simp only [recordingsOf_eq_ok_iff_mapM, exists_and_left]
  exact and_congr_right fun _ => exists_selection_iff rfl rfl

/-- A list is in order, also where recordings share ids. -/
theorem recordingsOf_sorted (h : s.recordingsOf camera date = .ok rs) :
    rs.Pairwise (fun q r => ¬ r.Precedes q) ∧
      (∀ row ∈ s.recordings.rows, IsSelected camera date row → row.Readable) ∧
      ∀ r, r ∈ rs ↔ ∃ row ∈ s.recordings.rows, IsSelected camera date row ∧ row.read = .ok r := by
  obtain ⟨-, h⟩ := recordingsOf_eq_ok_iff_mapM.1 h
  have hrows := RecordingRow.pairwise_key_ascending rfl (exists_read_of_selection rfl h) rfl
  refine ⟨pairwise_read hrows h, (exists_selection_iff rfl rfl).1 ⟨rs, h⟩, fun r => ?_⟩
  rw [mem_of_mapM h]
  exact exists_congr fun row => by rw [mem_selection rfl rfl, and_assoc]

section Answers
variable (hids : s.recordings.rows.Pairwise fun q r => q.id < r.id)
include hids

theorem recordingsOf_eq_ok_iff :
    s.recordingsOf camera date = .ok rs ↔ Writable camera ∧ s.IsListing camera date rs := by
  rw [recordingsOf_eq_ok_iff_mapM]
  refine and_congr_right fun _ => ⟨fun h => isListing_of_ascending rfl rfl hids h rfl, fun h => ?_⟩
  obtain ⟨rs', h'⟩ : ∃ rs', ((Query.Recordings.oldestFirst camera (date.map .ofDate)).rows
      Row.value s.recordings.rows).mapM RecordingRow.read = .ok rs' :=
    (exists_selection_iff rfl rfl).2 h.readable
  rwa [h.unique (isListing_of_ascending rfl rfl hids h' rfl)]

/-- The newest recordings come first in the listing backwards. -/
theorem IsListing.mapM_newestFirst (h : s.IsListing camera date rs) :
    ((Query.Recordings.newestFirst camera (date.map .ofDate)).rows Row.value
      s.recordings.rows).mapM RecordingRow.read = .ok rs.reverse := by
  obtain ⟨rs', h'⟩ : ∃ rs', ((Query.Recordings.newestFirst camera (date.map .ofDate)).rows
      Row.value s.recordings.rows).mapM RecordingRow.read = .ok rs' :=
    (exists_selection_iff rfl rfl).2 h.readable
  rwa [h.unique (isListing_of_descending rfl rfl hids h' rfl), List.reverse_reverse]

theorem IsListing.latestOf_eq (h : s.IsListing camera date rs) (hc : Writable camera) :
    s.latestOf camera date = .ok rs.getLast? := by
  have hlatest : s.recordings.select (Query.Recordings.latest camera (date.map .ofDate)) =
      .ok (((Query.Recordings.newestFirst camera (date.map .ofDate)).rows Row.value
        s.recordings.rows).take 1) := (select_eq_ok_iff _ _ rfl).2 ⟨hc, rfl⟩
  rw [latestOf, hlatest, ok_bind, List.head?_take, if_neg one_ne_zero, ← List.head?_reverse]
  exact head?_of_mapM (h.mapM_newestFirst hids)

theorem IsListing.latestByDate_eq (h : s.IsListing camera none rs) (hc : Writable camera) :
    s.latestByDate camera = .ok ((firstOfDates rs.reverse).reverse.map fun r => (r.date, r)) := by
  have hnewest : s.recordings.select (Query.Recordings.newestFirst camera none) =
      .ok ((Query.Recordings.newestFirst camera none).rows Row.value s.recordings.rows) :=
    (select_eq_ok_iff _ none rfl).2 ⟨hc, rfl⟩
  have hread : ((Query.Recordings.newestFirst camera none).rows Row.value
      s.recordings.rows).mapM RecordingRow.read = .ok rs.reverse := h.mapM_newestFirst hids
  rw [latestByDate, hnewest, ok_bind, hread]
  rfl

end Answers

/-! ### The first of every date -/

theorem firstOfDates_sublist (rs : List Recording) : (firstOfDates rs).Sublist rs := by
  induction rs with
  | nil => exact .refl _
  | cons r rs ih => exact .cons_cons r (List.filter_sublist.trans ih)

/-- A recording is the first of its date when the search for the date ends at it. -/
theorem mem_firstOfDates_iff {r : Recording} :
    r ∈ firstOfDates rs ↔ (rs.find? fun q => q.date = r.date) = some r := by
  induction rs with
  | nil => simp [firstOfDates]
  | cons a rs ih =>
    rw [firstOfDates, List.mem_cons, List.mem_filter, ih, List.find?_cons]
    by_cases hdate : a.date = r.date
    · simp [hdate, eq_comm]
    · have hne : r ≠ a := fun heq => hdate (heq ▸ rfl)
      simp [hdate, hne, Ne.symm hdate]

theorem pairwise_firstOfDates (rs : List Recording) :
    (firstOfDates rs).Pairwise fun q r => q.date ≠ r.date := by
  induction rs with
  | nil => exact .nil
  | cons r rs ih =>
    refine .cons (fun q hq => ?_) (ih.filter _)
    exact (of_decide_eq_true (List.mem_filter.1 hq).2).symm

theorem mem_firstOfDates_reverse_iff {d : Date} {r : Recording} :
    r ∈ firstOfDates rs.reverse ∧ r.date = d ↔
      (rs.filter fun q => q.date = d).getLast? = some r := by
  rw [mem_firstOfDates_iff, ← List.head?_reverse, ← List.filter_reverse, List.head?_filter]
  constructor
  · rintro ⟨hfind, rfl⟩
    exact hfind
  · intro hfind
    obtain rfl : r.date = d := by simpa using List.find?_some hfind
    exact ⟨hfind, rfl⟩

/-- The latest recordings of dates are those of ascending dates. -/
theorem pairwise_firstOfDates_reverse (h : rs.Pairwise Recording.Precedes) :
    (firstOfDates rs.reverse).reverse.Pairwise fun q r => q.date.day < r.date.day := by
  have hsorted : (firstOfDates rs.reverse).Pairwise fun q r => r.Precedes q :=
    (List.pairwise_reverse.2 h).sublist (firstOfDates_sublist _)
  refine List.pairwise_reverse.2 (hsorted.imp₂ ?_ (pairwise_firstOfDates _))
  intro q r hprecedes hne
  exact lt_of_le_of_ne hprecedes.day_le fun heq => hne (congrArg Date.mk heq.symm)

/-! ### Listings in agreement -/

/-- What the other listings of a camera say when its recordings are listed as `rs`. -/
structure ListingsAgree (s : Store) (camera : String) (rs : List Recording) : Prop where
  ordered : rs.Pairwise Recording.Precedes
  nodup_ids : (rs.map Recording.id).Nodup
  mem_iff : ∀ r, r ∈ rs ↔ ∃ row ∈ s.recordings.rows, row.camera = camera ∧ row.read = .ok r
  ofDate : ∀ d, s.recordingsOf camera (some d) = .ok (rs.filter fun r => r.date = d)
  /-- A date by its year, month and day. -/
  ofCivil : ∀ c : Civil, c.isReal = true →
    s.recordingsOf camera (some (.ofCivil c)) = .ok (rs.filter fun r => r.date.civil = c)
  latest : s.latestOf camera none = .ok rs.getLast?
  latestOfDate : ∀ d,
    s.latestOf camera (some d) = .ok (rs.filter fun r => r.date = d).getLast?
  daily : ∃ days, s.latestByDate camera = .ok days ∧
    days.Pairwise (fun p q => p.1.day < q.1.day) ∧
    (∀ d, d ∈ days.map Prod.fst ↔ ∃ r ∈ rs, r.date = d) ∧
    ∀ d r, (d, r) ∈ days ↔ s.latestOf camera (some d) = .ok (some r)

theorem IsListing.nodup_ids (hids : s.recordings.rows.Pairwise fun q r => q.id < r.id)
    (h : s.IsListing camera date rs) : (rs.map Recording.id).Nodup := by
  have hnodup : (s.recordings.rows.map RecordingRow.id).Nodup :=
    List.pairwise_map.2 (hids.imp ne_of_lt)
  refine List.pairwise_map.2 (h.ordered.imp_of_mem fun {q r} hq hr hprecedes hid => ?_)
  obtain ⟨row, hrow, -, hread⟩ := (h.mem_iff q).1 hq
  obtain ⟨row', hrow', -, hread'⟩ := (h.mem_iff r).1 hr
  obtain rfl : row = row' := List.inj_on_of_nodup_map hnodup hrow hrow' <| by
    rw [← RecordingRow.id_of_read hread, ← RecordingRow.id_of_read hread', hid]
  obtain rfl := Except.ok.inj (hread.symm.trans hread')
  exact irrefl_of Recording.Precedes q hprecedes

theorem IsListing.listingsAgree (hids : s.recordings.rows.Pairwise fun q r => q.id < r.id)
    (hc : Writable camera) (h : s.IsListing camera none rs) : s.ListingsAgree camera rs := by
  have hofDate (d : Date) : s.recordingsOf camera (some d) = .ok (rs.filter fun r => r.date = d) :=
    (recordingsOf_eq_ok_iff hids).2 ⟨hc, h.ofDate d⟩
  have hlatest (d : Date) : s.latestOf camera (some d) =
      .ok (rs.filter fun r => r.date = d).getLast? := (h.ofDate d).latestOf_eq hids hc
  have hdays (d : Date) (r : Recording) :
      (d, r) ∈ (firstOfDates rs.reverse).reverse.map (fun r => (r.date, r)) ↔
        (rs.filter fun q => q.date = d).getLast? = some r := by
    rw [← mem_firstOfDates_reverse_iff]
    simp only [List.mem_map, List.mem_reverse, Prod.mk.injEq]
    exact ⟨fun ⟨q, hq, hdate, heq⟩ => heq ▸ ⟨hq, hdate⟩, fun ⟨hr, hdate⟩ => ⟨r, hr, hdate, rfl⟩⟩
  refine ⟨h.ordered, h.nodup_ids hids, fun r => ?_, hofDate, fun c hreal => ?_,
    h.latestOf_eq hids hc, hlatest, ?_⟩
  · simp only [h.mem_iff, IsSelected]
    exact exists_congr fun row => and_congr_right fun _ => and_congr_left' holds_ofCamera
  · rw [hofDate]
    refine congrArg Except.ok (List.filter_congr fun r _ => ?_)
    rw [decide_eq_decide]
    constructor
    · rintro hdate
      rw [hdate, Date.civil_ofCivil hreal]
    · rintro rfl
      exact (Date.ofCivil_civil r.date).symm
  · refine ⟨_, h.latestByDate_eq hids hc,
      List.pairwise_map.2 (pairwise_firstOfDates_reverse h.ordered), fun d => ?_, fun d r => ?_⟩
    · have hsome : (∃ r, (rs.filter fun q => q.date = d).getLast? = some r) ↔
          ∃ r ∈ rs, r.date = d := by
        rw [← Option.isSome_iff_exists, List.getLast?_isSome, ne_eq, List.filter_eq_nil_iff]
        simp
      rw [← hsome, List.mem_map]
      simp only [← hdays]
      exact ⟨fun ⟨⟨d', r⟩, hp, hd⟩ => ⟨r, hd ▸ hp⟩, fun ⟨r, hp⟩ => ⟨(d, r), hp, rfl⟩⟩
    · rw [hlatest, Except.ok.injEq, hdays]

/-! ### Cameras that no statement can name -/

section Refused
variable (hc : ¬ Writable camera)
include hc

theorem isRefused_of_camera {query : Select RecordingColumn} (range : Option StartRange)
    (hcondition : query.condition = Query.Recordings.ofCamera camera range) {α : Type}
    (rest : List RecordingRow → Except Error α) :
    IsRefused (s.recordings.select query >>= rest) := by
  have htexts : camera ∈ query.condition.texts := by
    rw [hcondition, texts_ofCamera]
    exact List.mem_singleton_self camera
  exact (Table.isRefused_select ⟨camera, htexts, hc⟩).bind rest

theorem isRefused_recordingsOf (date : Option Date) : IsRefused (s.recordingsOf camera date) :=
  isRefused_of_camera hc _ rfl _

theorem isRefused_latestOf (date : Option Date) : IsRefused (s.latestOf camera date) :=
  isRefused_of_camera hc _ rfl _

theorem isRefused_latestByDate : IsRefused (s.latestByDate camera) :=
  isRefused_of_camera hc none rfl _

end Refused

/-! ### Several cameras -/

theorem forCameras_eq_ok_iff {α : Type} {cameras : List String} {answer : String → Except Error α}
    {answers : List (String × α)} :
    forCameras cameras answer = .ok answers ↔
      answers.map Prod.fst = cameras ∧ ∀ p ∈ answers, answer p.1 = .ok p.2 := by
  rw [forCameras]
  induction cameras generalizing answers with
  | nil =>
    cases answers <;> simp
  | cons camera cameras ih =>
    rw [List.mapM_cons]
    simp only [bind_eq_ok_iff, pure_eq_ok, Except.ok.injEq] at ih ⊢
    cases answers with
    | nil => simp
    | cons p answers =>
      rcases p with ⟨c, a⟩
      simp only [List.map_cons, List.cons.injEq, List.forall_mem_cons]
      constructor
      · rintro ⟨_, ⟨b, hb, rfl⟩, rest, hrest, heq, rfl⟩
        obtain ⟨rfl, rfl⟩ := Prod.mk.inj heq
        obtain ⟨hcameras, hanswers⟩ := ih.1 hrest
        exact ⟨⟨rfl, hcameras⟩, hb, hanswers⟩
      · rintro ⟨⟨rfl, hcameras⟩, ha, hanswers⟩
        exact ⟨_, ⟨a, ha, rfl⟩, answers, ih.2 ⟨hcameras, hanswers⟩, rfl, rfl⟩

/-! ### All listings -/

/-- A camera is listed when a statement can name it and its recordings can be read. Its listings
agree then, and those of several cameras are made of theirs. -/
theorem listings_agree (hids : s.recordings.rows.Pairwise fun q r => q.id < r.id) :
    (∀ camera, ¬ Writable camera →
      (∀ date, IsRefused (s.recordingsOf camera date) ∧ IsRefused (s.latestOf camera date)) ∧
      IsRefused (s.latestByDate camera)) ∧
    (∀ camera, (∃ rs, s.recordingsOf camera none = .ok rs) ↔
      Writable camera ∧ ∀ row ∈ s.recordings.rows, row.camera = camera → row.Readable) ∧
    (∀ camera rs, s.recordingsOf camera none = .ok rs → s.ListingsAgree camera rs) ∧
    ∀ cameras,
      (∀ date lists, forCameras cameras (s.recordingsOf · date) = .ok lists ↔
        lists.map Prod.fst = cameras ∧ ∀ p ∈ lists, s.recordingsOf p.1 date = .ok p.2) ∧
      (∀ date latest, forCameras cameras (s.latestOf · date) = .ok latest ↔
        latest.map Prod.fst = cameras ∧ ∀ p ∈ latest, s.latestOf p.1 date = .ok p.2) ∧
      ∀ daily, forCameras cameras s.latestByDate = .ok daily ↔
        daily.map Prod.fst = cameras ∧ ∀ p ∈ daily, s.latestByDate p.1 = .ok p.2 := by
  refine ⟨fun camera hc => ?_, fun camera => ?_, fun camera rs h => ?_, fun cameras =>
    ⟨fun _ _ => forCameras_eq_ok_iff, fun _ _ => forCameras_eq_ok_iff,
      fun _ => forCameras_eq_ok_iff⟩⟩
  · exact ⟨fun date => ⟨isRefused_recordingsOf hc date, isRefused_latestOf hc date⟩,
      isRefused_latestByDate hc⟩
  · rw [exists_recordingsOf_iff]
    exact and_congr_right fun _ => forall_congr' fun row => forall_congr' fun _ =>
      imp_congr_left holds_ofCamera
  · obtain ⟨hc, hlisting⟩ := (recordingsOf_eq_ok_iff hids).1 h
    exact hlisting.listingsAgree hids hc

/-- A recording of one camera, as it is stored. -/
def recordingAt (id start : ℤ) : RecordingRow where
  id
  camera := "cam"
  startTime := .integer start
  endTime := .null
  triggerType := none
  triggerId := .null
  thumbnail := ""
  createdAt := .integer 0
  updatedAt := .null

/-- Recordings on both sides of two midnights, the second and the third at one second. -/
def aroundMidnights : Store :=
  { fresh with
    recordings := ⟨[recordingAt 1 0, recordingAt 2 86399, recordingAt 3 86399, recordingAt 4 (-1),
      recordingAt 5 86400], 5⟩ }

theorem listings_aroundMidnights :
    (aroundMidnights.recordings.rows.Pairwise fun q r => q.id < r.id) ∧
    ∃ rs days, aroundMidnights.recordingsOf "cam" none = .ok rs ∧
      rs.map Recording.id = [4, 1, 2, 3, 5] ∧
      aroundMidnights.latestByDate "cam" = .ok days ∧
      days.map (fun p => (p.1.day, p.2.id)) = [(-1, 4), (0, 3), (1, 5)] ∧
      aroundMidnights.recordingsOf "cam" (some (.ofCivil ⟨1969, 12, 31⟩)) =
        .ok (rs.filter fun r => r.date.civil = ⟨1969, 12, 31⟩) := by
  have hids : aroundMidnights.recordings.rows.Pairwise fun q r => q.id < r.id := by decide
  obtain ⟨rs, hrs, hlisted⟩ : ∃ rs, aroundMidnights.recordingsOf "cam" none = .ok rs ∧
      rs.map Recording.id = [4, 1, 2, 3, 5] := exists_of_toOption_map (by cbv)
  obtain ⟨days, hdays, hdaily⟩ : ∃ days, aroundMidnights.latestByDate "cam" = .ok days ∧
      days.map (fun p => (p.1.day, p.2.id)) = [(-1, 4), (0, 3), (1, 5)] :=
    exists_of_toOption_map (by cbv)
  obtain ⟨-, -, hagree, -⟩ := listings_agree hids
  exact ⟨hids, rs, days, hrs, hlisted, hdays, hdaily, (hagree "cam" rs hrs).ofCivil _ (by decide)⟩

/-- A recording that something other than an integer set off. -/
def oddTrigger : Store :=
  { fresh with recordings := ⟨[{ recordingAt 1 0 with triggerId := .text "x" }], 1⟩ }

/-- All times are times. Still a camera with a null character in its name has no list, and a trigger
that is no integer fails the list of its camera. -/
theorem not_listed_oddTrigger :
    (∀ row ∈ oddTrigger.recordings.rows, row.startTime.IsTime ∧ row.endTime.IsOptionalTime ∧
      row.createdAt.IsTime ∧ row.updatedAt.IsOptionalTime) ∧
    IsRefused (oddTrigger.recordingsOf "c\x00" none) ∧
    IsRefused (oddTrigger.latestOf "c\x00" none) ∧
    oddTrigger.recordingsOf "cam" none = .error (.store .unavailable) := by
  have hc : ¬ Writable "c\x00" := by decide
  refine ⟨fun row hrow => ?_, isRefused_recordingsOf hc none, isRefused_latestOf hc none,
    by with_unfolding_all decide⟩
  obtain rfl := List.mem_singleton.1 hrow
  exact ⟨⟨0, rfl, by decide, by decide⟩, .inl rfl, ⟨0, rfl, by decide, by decide⟩, .inl rfl⟩

end Footage.Store
