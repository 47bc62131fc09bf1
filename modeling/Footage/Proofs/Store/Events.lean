import Footage.Proofs.Recording.Order
import Footage.Proofs.Store.Additions
import Footage.Proofs.Store.Writing

/-! Listings of events. The events of a run that happened to a camera between two whole seconds are
listed, each once, by second and then by id. What was inserted is read back, but a number is the
double that its column makes of the numeral. -/

namespace Footage

open Outcome Sql

/-! ### Listings -/

namespace Event

variable {α : Type}

def key (e : Event α) : ℤ ×ₗ ℤ := toLex (e.time.seconds, e.id)

/-- Whether an event belongs to a camera and to some seconds, both bounds included. -/
def isBetween (camera : String) (first last : Time) (e : Event α) : Bool :=
  e.camera = camera ∧ first.seconds ≤ e.time.seconds ∧ e.time.seconds ≤ last.seconds

/-- An event is listed before another one. -/
def Precedes (d e : Event α) : Prop :=
  d.time.seconds < e.time.seconds ∨ d.time.seconds = e.time.seconds ∧ d.id < e.id

theorem precedes_iff {d e : Event α} : d.Precedes e ↔ d.key < e.key := by
  rw [key, key, Prod.Lex.toLex_lt_toLex]
  rfl

/-- The events of a camera between two times, each once and in order. -/
structure IsListing (events : List (Event α)) (camera : String) (first last : Time)
    (listed : List (Event α)) : Prop where
  perm : listed.Perm (events.filter (isBetween camera first last))
  ascending : listed.Pairwise Precedes

/-- The events of a camera between two times in the order of their keys. -/
def listing (events : List (Event α)) (camera : String) (first last : Time) : List (Event α) :=
  (events.filter (isBetween camera first last)).mergeSort fun d e => d.key ≤ e.key

theorem isListing_listing {events : List (Event α)} (hids : events.Pairwise fun d e => d.id < e.id)
    (camera : String) (first last : Time) :
    IsListing events camera first last (listing events camera first last) := by
  have hperm := List.mergeSort_perm (events.filter (isBetween camera first last))
    fun d e => decide (d.key ≤ e.key)
  refine ⟨hperm, ?_⟩
  have hkeys : (listing events camera first last).Pairwise fun d e => d.key ≤ e.key :=
    pairwise_mergeSort_key fun _ _ _ _ => rfl
  have hne : (listing events camera first last).Pairwise fun d e => d.id ≠ e.id :=
    hperm.symm.pairwise ((hids.imp ne_of_lt).filter _) fun h => h.symm
  refine (hkeys.and hne).imp fun {d e} h => precedes_iff.2 (lt_of_le_of_ne h.1 fun heq => h.2 ?_)
  exact congrArg (fun k => (ofLex k).2) heq

/-- What happened between two times, fractions of seconds included, is listed. -/
theorem IsListing.mem_of_between {events listed : List (Event α)} {camera : String} {first last : Time}
    (h : IsListing events camera first last listed) {e : Event α} (he : e ∈ events)
    (hcamera : e.camera = camera) (hfirst : first.le e.time) (hlast : e.time.le last) : e ∈ listed := by
  have hfloor {s t : Time} (hle : s.le t) : s.seconds ≤ t.seconds := by
    simp only [Time.le, Bool.or_eq_true, Bool.and_eq_true, decide_eq_true_eq] at hle
    omega
  refine h.perm.mem_iff.2 (List.mem_filter.2 ⟨he, ?_⟩)
  exact decide_eq_true ⟨hcamera, hfloor hfirst, hfloor hlast⟩

end Event

namespace Table

variable {α κ ρ : Type} [Named κ] [Row ρ κ] {t : Table ρ} {query : Select κ} {row : Event α → ρ}
  {events : List (Event α)} {camera : String} {first last : Time} {cameraOf timeOf idOf : κ}

omit [Named κ] in
theorem Sound.pairwise_events {P : ρ → Prop} (h : t.Sound P) (hrows : t.rows = events.map row)
    (hid : ∀ e, Row.id (row e) = e.id) : events.Pairwise fun d e => d.id < e.id := by
  have hascending := h.ascending
  rw [hrows, List.pairwise_map] at hascending
  exact hascending.imp fun hlt => by rwa [hid, hid] at hlt

/-- A query for the events of a camera between two times lists the rows of those events. -/
theorem select_events (hrows : t.rows = events.map row)
    (hcondition : query.condition = .and (.equals cameraOf (.text camera))
      (.between (.column timeOf) (.integer first.seconds) (.integer last.seconds)))
    (horder : query.order = [(timeOf, .ascending), (idOf, .ascending)]) (hlimit : query.limit = none)
    (hvalue : ∀ e ∈ events, Row.value (row e) cameraOf = .text e.camera ∧
      Row.value (row e) timeOf = .integer e.time.seconds ∧ Row.value (row e) idOf = .integer e.id)
    (hcamera : Writable camera) :
    t.select query = .ok ((Event.listing events camera first last).map row) := by
  have htexts : ∀ s ∈ query.condition.texts, Writable s := by
    simpa [hcondition, Condition.equals, Condition.texts, Term.texts, Value.text?] using hcamera
  have hfilter : events.filter ((fun r => query.condition.holds (Row.value r)) ∘ row) =
      events.filter (Event.isBetween camera first last) := by
    refine List.filter_congr fun e he => ?_
    obtain ⟨hcam, htime, -⟩ := hvalue e he
    rw [Function.comp, Bool.eq_iff_iff, hcondition, Condition.holds_and, Bool.and_eq_true, holds_equals_text hcam,
      holds_iff, Condition.eval, Term.eval, htime, bothTrue_eq_some_true, eval_ge_integer,
      eval_le_integer, Event.isBetween, decide_eq_true_iff]
  have hle : ∀ d ∈ events.filter (Event.isBetween camera first last),
      ∀ e ∈ events.filter (Event.isBetween camera first last),
        decide (d.key ≤ e.key) = (compareBy query.order (Row.value (row d)) (Row.value (row e))).isLE := by
    intro d hd e he
    obtain ⟨-, htime, hid⟩ := hvalue d (List.mem_filter.1 hd).1
    obtain ⟨-, htime', hid'⟩ := hvalue e (List.mem_filter.1 he).1
    rw [horder, isLE_compareBy_ascending htime hid htime' hid', Event.key, Event.key]
  rw [select_of_writable htexts]
  simp only [Select.rows, hlimit, hrows]
  rw [List.filter_map, hfilter, Event.listing, List.map_mergeSort
    (s := fun q r => (compareBy query.order (Row.value q) (Row.value r)).isLE) hle]

end Table

/-! ### Reading -/

/-- The double that a column makes of the numeral of a number. -/
def keptReal (x : Binary64) : Binary64 :=
  match storedReal x with
  | .real y => y
  | _ => x

theorem storedReal_of_finite {x : Binary64} (hx : x.isFinite) : storedReal x = .real (keptReal x) := by
  obtain ⟨y, hy⟩ := exists_storedReal hx
  rw [keptReal, hy]

theorem readReal_storedReal {x : Binary64} (hx : x.isFinite) :
    (storedReal x).readReal = .ok (keptReal x) :=
  Value.readReal_eq_ok_iff.2 (storedReal_of_finite hx)

theorem keptReal_negativeZero : keptReal (.signedZero true) = .zero := by
  rw [keptReal, storedReal_negativeZero]

namespace Event

/-- A detected object as it is read. -/
def object (e : Event Detection) : DetectedObject where
  camera := e.content.camera
  label := e.content.label
  confidence := keptReal e.content.confidence
  width := keptReal e.content.width
  height := keptReal e.content.height
  x1 := keptReal e.content.x1
  y1 := keptReal e.content.y1
  x2 := keptReal e.content.x2
  y2 := keptReal e.content.y2
  zone := e.content.zone
  id := e.id
  createdAt := e.time.whole
  updatedAt := none

/-- A motion event as it is read. -/
def motion (e : Event Time) : MotionEvent where
  id := e.id
  camera := e.camera
  start := e.time.whole
  createdAt := e.content.whole
  updatedAt := none

end Event

/-- The numbers of a detection, all of which a column has to hold. -/
def Detection.numbers (d : Detection) : List Binary64 :=
  [d.confidence, d.width, d.height, d.x1, d.y1, d.x2, d.y2]

/-- A statement without bare words has finite numbers. -/
theorem Sql.Insert.isFinite_of_known {insert : Insert} (h : insert.unknownColumn? = none) {c : String}
    {x : Binary64} (hx : (c, Value.real x) ∈ insert.assignments) : x.isFinite := by
  have hnone := List.findSome?_eq_none_iff.1 h _ hx
  cases x with
  | nan => cases hnone
  | number negative rank => simpa using hnone

theorem Store.isFinite_of_insertObject {s t : Store} {d : Detection} {detected : Time} {id : ℤ}
    (h : s.insertObject d detected = .ok (id, t)) : ∀ x ∈ d.numbers, x.isFinite := by
  obtain ⟨u, hcheck, -⟩ := bind_eq_ok_iff.1 h
  have hknown := (Insert.check_eq_ok_iff.1 hcheck).2
  have hfinite {x : Binary64} (c : ObjectColumn) (hx : (c.name, Value.real x) ∈
      (Query.Objects.insert d detected.seconds).assignments) : x.isFinite :=
    Insert.isFinite_of_known hknown hx
  intro x hx
  simp only [Detection.numbers, List.mem_cons, List.not_mem_nil, or_false] at hx
  rcases hx with rfl | rfl | rfl | rfl | rfl | rfl | rfl
  · exact hfinite .confidence (by simp [Query.Objects.insert])
  · exact hfinite .width (by simp [Query.Objects.insert])
  · exact hfinite .height (by simp [Query.Objects.insert])
  · exact hfinite .x1 (by simp [Query.Objects.insert])
  · exact hfinite .y1 (by simp [Query.Objects.insert])
  · exact hfinite .x2 (by simp [Query.Objects.insert])
  · exact hfinite .y2 (by simp [Query.Objects.insert])

theorem ObjectRow.read_objectRow {e : Event Detection} (h : ∀ x ∈ e.content.numbers, x.isFinite) :
    e.objectRow.read = .ok e.object := by
  obtain ⟨hconfidence, hwidth, hheight, hx1, hy1, hx2, hy2, -⟩ := by
    simpa only [Detection.numbers, List.forall_mem_cons] using h
  simp only [Event.objectRow, ObjectRow.ofNew, read, readReal_storedReal hconfidence,
    readReal_storedReal hwidth, readReal_storedReal hheight, readReal_storedReal hx1,
    readReal_storedReal hy1, readReal_storedReal hx2, readReal_storedReal hy2, ok_bind,
    Value.readTime_seconds]
  rfl

theorem MotionRow.read_motionRow (e : Event Time) : e.motionRow.read = .ok e.motion := by
  simp only [Event.motionRow, MotionRow.ofNew, read, Value.readTime_seconds]
  rfl

theorem mapM_map_of_ok {ε α β ρ : Type} {row : α → ρ} {read : ρ → Except ε β} {record : α → β}
    {as : List α} (h : ∀ a ∈ as, read (row a) = .ok (record a)) :
    (as.map row).mapM read = .ok (as.map record) := by
  rw [mapM_eq_ok_iff, List.map_map, List.map_map]
  exact List.map_congr_left h

/-! ### Stores -/

namespace Store

variable {s : Store} {camera : String} {first last : Time}

theorem isRefused_objectsBetween (h : ¬ Writable camera) :
    IsRefused (s.objectsBetween camera first last) :=
  (Table.isRefused_select ⟨camera, List.mem_cons_self, h⟩).bind _

theorem isRefused_motionBetween (h : ¬ Writable camera) :
    IsRefused (s.motionBetween camera first last) :=
  (Table.isRefused_select ⟨camera, List.mem_cons_self, h⟩).bind _

theorem objectsBetween_eq {events : List (Event Detection)}
    (hrows : s.objects.rows = events.map Event.objectRow)
    (hevents : ∀ e ∈ events, e.camera = e.content.camera ∧ ∀ x ∈ e.content.numbers, x.isFinite)
    (hcamera : Writable camera) :
    s.objectsBetween camera first last =
      .ok ((Event.listing events camera first last).map Event.object) := by
  have hselect : s.objects.select (Query.Objects.between camera first.seconds last.seconds) =
      .ok ((Event.listing events camera first last).map Event.objectRow) :=
    Table.select_events hrows rfl rfl rfl
      (fun e he => ⟨congrArg Value.text (hevents e he).1.symm, rfl, rfl⟩) hcamera
  rw [objectsBetween, hselect, ok_bind]
  refine mapM_map_of_ok fun e he => ObjectRow.read_objectRow (hevents e ?_).2
  exact (List.mem_filter.1 (List.mem_mergeSort.1 he)).1

theorem motionBetween_eq {events : List (Event Time)}
    (hrows : s.motion.rows = events.map Event.motionRow) (hcamera : Writable camera) :
    s.motionBetween camera first last =
      .ok ((Event.listing events camera first last).map Event.motion) := by
  have hselect : s.motion.select (Query.Motion.between camera first.seconds last.seconds) =
      .ok ((Event.listing events camera first last).map Event.motionRow) :=
    Table.select_events hrows rfl rfl rfl (fun _ _ => ⟨rfl, rfl, rfl⟩) hcamera
  rw [motionBetween, hselect, ok_bind]
  exact mapM_map_of_ok fun e _ => MotionRow.read_motionRow e

end Store

namespace Session

/-- A listing of events shows what a run has inserted for a camera between two seconds, each once and
in order. Fractions of seconds hide nothing, and operations on anything else change no listing. -/
theorem events_listed (ops : List Operation) (camera : String) (first last : Time) :
    let x := (run ops (.ofStore .fresh)).2
    let objects := insertedObjects ops (.ofStore .fresh)
    let motion := insertedMotion ops (.ofStore .fresh)
    (¬ Writable camera → IsRefused (x.store.objectsBetween camera first last) ∧
      IsRefused (x.store.motionBetween camera first last)) ∧
    (Writable camera →
      (∃ listed, Event.IsListing objects camera first last listed ∧
        x.store.objectsBetween camera first last = .ok (listed.map Event.object) ∧
        ∀ e ∈ objects, e.camera = camera → first.le e.time → e.time.le last → e ∈ listed) ∧
      ∃ listed, Event.IsListing motion camera first last listed ∧
        x.store.motionBetween camera first last = .ok (listed.map Event.motion) ∧
        ∀ e ∈ motion, e.camera = camera → first.le e.time → e.time.le last → e ∈ listed) ∧
    (∀ e ∈ objects, ∀ n ∈ e.content.numbers, storedReal n = .real (keptReal n)) ∧
    keptReal (.signedZero true) = .zero ∧
    (∀ op, (∀ d detected, op ≠ .insertObject d detected) →
      (x.perform op).2.store.objectsBetween camera first last =
        x.store.objectsBetween camera first last) ∧
    ∀ op, (∀ camera start now, op ≠ .insertMotion camera start now) →
      (x.perform op).2.store.motionBetween camera first last =
        x.store.motionBetween camera first last := by
  intro x objects motion
  have hsound : x.store.Sound := (reachable_run ops).sound
  have hobjects : x.store.objects.rows = objects.map Event.objectRow := objects_run ops _
  have hmotion : x.store.motion.rows = motion.map Event.motionRow := motion_run ops _
  have hinserted : ∀ e ∈ objects,
      e.camera = e.content.camera ∧ ∀ n ∈ e.content.numbers, n.isFinite := by
    intro e he
    obtain ⟨hcamera, s, t, hinsert⟩ := exists_insertObject he
    exact ⟨hcamera, Store.isFinite_of_insertObject hinsert⟩
  refine ⟨fun h => ⟨Store.isRefused_objectsBetween h, Store.isRefused_motionBetween h⟩, fun h => ⟨?_, ?_⟩,
    fun e he n hn => storedReal_of_finite ((hinserted e he).2 n hn), keptReal_negativeZero,
    fun op hop => ?_, fun op hop => ?_⟩
  · have hids := hsound.objects.pairwise_events hobjects fun _ => rfl
    have hlisting := Event.isListing_listing hids camera first last
    exact ⟨_, hlisting, Store.objectsBetween_eq hobjects hinserted h,
      fun e => hlisting.mem_of_between⟩
  · have hids := hsound.motion.pairwise_events hmotion fun _ => rfl
    have hlisting := Event.isListing_listing hids camera first last
    exact ⟨_, hlisting, Store.motionBetween_eq hmotion h, fun e => hlisting.mem_of_between⟩
  · rw [Store.objectsBetween, objects_perform_of_ne x hop]
    rfl
  · rw [Store.motionBetween, motion_perform_of_ne x hop]
    rfl

/-- Half a second before the year 1970. -/
def lateIn1969 : Time := ⟨-1, 500000000, by decide, by decide, by decide⟩

/-- A detection with a confidence whose numeral is read as the double before it. -/
def roundedDetection : Detection where
  camera := "cam"
  label := "person"
  confidence := .number false ⟨4617721751298653527, by decide⟩
  width := .zero
  height := .zero
  x1 := .zero
  y1 := .zero
  x2 := .zero
  y2 := .zero
  zone := none

def firstDetection : List Operation := [.insertObject roundedDetection lateIn1969]

/-- A number can be read back as another double, and a camera whose name no statement can write has
no listing, although nothing was inserted for it. -/
theorem not_readBack_insertObject :
    (insertedObjects firstDetection (.ofStore .fresh) =
        [⟨1, "cam", lateIn1969, roundedDetection⟩] ∧
      ∃ o, (run firstDetection (.ofStore .fresh)).2.store.objectsBetween "cam" lateIn1969 lateIn1969 =
          .ok [o] ∧
        o.confidence ≠ roundedDetection.confidence ∧
        roundedDetection.confidence ≠ .signedZero true) ∧
    insertedObjects [] (.ofStore .fresh) = [] ∧ insertedMotion [] (.ofStore .fresh) = [] ∧
    let s := (run [] (.ofStore .fresh)).2.store
    IsRefused (s.objectsBetween "c\x00" lateIn1969 lateIn1969) ∧
      IsRefused (s.motionBetween "c\x00" lateIn1969 lateIn1969) := by
  have hcamera : ¬ Writable "c\x00" := by decide
  -- The two doubles are neighbours.
  refine ⟨⟨by decide +kernel, ⟨{ roundedDetection with
      confidence := .number false ⟨4617721751298653526, by decide⟩
      id := 1, createdAt := lateIn1969.whole, updatedAt := none }, ?_, by decide, by decide⟩⟩,
    rfl, rfl, Store.isRefused_objectsBetween hcamera, Store.isRefused_motionBetween hcamera⟩
  decide +kernel

end Session

end Footage
