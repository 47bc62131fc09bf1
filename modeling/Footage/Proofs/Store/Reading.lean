import Footage.Proofs.Outcome
import Footage.Store.Row
import Mathlib.Data.Int.Notation

/-! Reading rows. A row whose columns hold values of their types is read exactly when
its times are times, and a metadata row when its text is an object too. What
is read has the values of the columns, and what fails breaks the contract on
stored data, or the syntax of metadata. -/

namespace Footage

open Outcome Sql

/-- A time as it is stored. -/
def Time.whole (t : Time) : Time :=
  { t with nanos := 0, nanos_lt := Nat.zero_lt_of_lt t.nanos_lt }

namespace Sql.Value

def IsInteger (v : Value) : Prop := ∃ n, v = .integer n

/-- A second that is a time. -/
def IsTime (v : Value) : Prop :=
  ∃ n, v = .integer n ∧ Time.firstSecond ≤ n ∧ n ≤ Time.lastSecond

/-- A second that is a time, or none. -/
def IsOptionalTime (v : Value) : Prop := v = .null ∨ v.IsTime

theorem IsTime.isInteger {v : Value} (h : v.IsTime) : v.IsInteger :=
  let ⟨n, hn, _⟩ := h
  ⟨n, hn⟩

theorem isTime_seconds (t : Time) : (Value.integer t.seconds).IsTime :=
  ⟨_, rfl, t.firstSecond_le, t.le_lastSecond⟩

theorem ofStored_eq_ok_iff {n : ℤ} {t : Time} :
    Time.ofStored n = .ok t ↔ t.seconds = n ∧ t.nanos = 0 := by
  unfold Time.ofStored
  constructor
  · intro h
    split at h
    · next u hu => cases h; exact Time.seconds_of_ofSeconds? hu
    · cases h
  · rintro ⟨rfl, hn⟩
    have hb := And.intro t.firstSecond_le t.le_lastSecond
    rw [Time.ofSeconds?, dif_pos ⟨hb, by decide⟩]
    cases t
    cases hn
    rfl

theorem readInteger_eq_ok_iff {v : Value} {n : ℤ} : v.readInteger = .ok n ↔ v = .integer n := by
  cases v <;> simp [readInteger]

theorem readReal_eq_ok_iff {v : Value} {x : Binary64} : v.readReal = .ok x ↔ v = .real x := by
  cases v <;> simp [readReal]

theorem readTime_eq_ok_iff {v : Value} {t : Time} :
    v.readTime = .ok t ↔ v = .integer t.seconds ∧ t.nanos = 0 := by
  change v.readInteger >>= Time.ofStored = .ok t ↔ _
  rw [bind_eq_ok_iff]
  simp only [readInteger_eq_ok_iff, ofStored_eq_ok_iff]
  constructor
  · rintro ⟨n, rfl, rfl, hn⟩
    exact ⟨rfl, hn⟩
  · rintro ⟨rfl, hn⟩
    exact ⟨_, rfl, rfl, hn⟩

theorem readTime_seconds (t : Time) : (Value.integer t.seconds).readTime = .ok t.whole :=
  readTime_eq_ok_iff.2 ⟨rfl, rfl⟩

theorem exists_readTime_iff {v : Value} : (∃ t, v.readTime = .ok t) ↔ v.IsTime := by
  simp only [readTime_eq_ok_iff]
  constructor
  · rintro ⟨t, rfl, -⟩
    exact isTime_seconds t
  · rintro ⟨n, rfl, hl, hu⟩
    exact ⟨⟨n, 0, hl, hu, by decide⟩, rfl, rfl⟩

theorem readTime_error {v : Value} (h : v.IsInteger) {e : Error} (he : v.readTime = .error e) :
    ∃ fault, e = .dataIntegrity fault := by
  obtain ⟨n, rfl⟩ := h
  change Time.ofStored n = .error e at he
  unfold Time.ofStored at he
  split at he <;> cases he
  exact ⟨_, rfl⟩

theorem optionally_eq_ok_iff {α : Type} {read : Value → Except Error α} {v : Value} {a : Option α}
    (hnull : ∀ b, read .null ≠ .ok b) :
    v.optionally read = .ok a ↔ (v = .null ∧ a = none) ∨ ∃ b, a = some b ∧ read v = .ok b := by
  have hmap : ∀ x : Except Error α, x.map some = .ok a ↔ ∃ b, a = some b ∧ x = .ok b := by
    intro x
    cases x <;> simp [Except.map, eq_comm]
  cases v with
  | null =>
    simp only [optionally, hnull, and_false, exists_false, or_false, true_and, Except.ok.injEq]
    exact eq_comm
  | _ => simpa [optionally] using hmap _

theorem optionally_error {α : Type} {read : Value → Except Error α} {v : Value} {e : Error}
    (h : v.optionally read = .error e) : v ≠ .null ∧ read v = .error e := by
  have hmap : ∀ x : Except Error α, x.map some = .error e → x = .error e := by
    intro x hx
    cases x with
    | ok a => cases hx
    | error e' => exact congrArg _ (Except.error.inj hx)
  cases v with
  | null => cases h
  | _ => exact ⟨by simp, hmap _ h⟩

theorem optionally_readTime_error {v : Value} (h : v = .null ∨ v.IsInteger) {e : Error}
    (he : v.optionally readTime = .error e) : ∃ fault, e = .dataIntegrity fault := by
  obtain ⟨hne, hv⟩ := optionally_error he
  exact readTime_error (h.resolve_left hne) hv

theorem readTime_null (t : Time) : readTime .null ≠ .ok t := by
  simp [readTime_eq_ok_iff]

theorem exists_optionally_readTime_iff {v : Value} :
    (∃ t, v.optionally readTime = .ok t) ↔ v.IsOptionalTime := by
  simp only [optionally_eq_ok_iff readTime_null, IsOptionalTime, ← exists_readTime_iff]
  constructor
  · rintro ⟨t, ⟨h, -⟩ | ⟨b, -, h⟩⟩
    · exact .inl h
    · exact .inr ⟨b, h⟩
  · rintro (h | ⟨b, h⟩)
    · exact ⟨none, .inl ⟨h, rfl⟩⟩
    · exact ⟨some b, .inr ⟨b, rfl, h⟩⟩

end Sql.Value

/-! ### Files -/

/-- The columns hold values of their types. -/
structure FileRow.Typed (r : FileRow) : Prop where
  tier : r.tier.IsInteger
  size : r.size.IsInteger
  createdAt : r.createdAt.IsInteger
  updatedAt : r.updatedAt = .null ∨ r.updatedAt.IsInteger

namespace FileRow

theorem read_eq_ok_iff {r : FileRow} {f : File} :
    r.read = .ok f ↔
      r.tier = .integer f.placement.tier ∧ r.size = .integer f.size ∧
      r.createdAt.readTime = .ok f.createdAt ∧
      r.updatedAt.optionally Value.readTime = .ok f.updatedAt ∧
      f.placement.path = r.path ∧ f.placement.directory = r.directory ∧
      f.placement.filename = r.filename ∧ f.camera = r.camera ∧ f.category = r.category ∧
      f.id = r.id := by
  simp only [read, bind_eq_ok_iff, Value.readInteger_eq_ok_iff, pure_eq_ok, Except.ok.injEq]
  constructor
  · rintro ⟨tier, ht, size, hs, created, hc, updated, hu, rfl⟩
    exact ⟨ht, hs, hc, hu, rfl, rfl, rfl, rfl, rfl, rfl⟩
  · rintro ⟨ht, hs, hc, hu, hpath, hdir, hname, hcam, hcat, hid⟩
    refine ⟨_, ht, _, hs, _, hc, _, hu, ?_⟩
    rcases f with ⟨⟨⟨tier, path, dir, name⟩, cam, cat, size⟩, id, created, updated⟩
    simp_all

theorem exists_read_iff {r : FileRow} (h : r.Typed) :
    (∃ f, r.read = .ok f) ↔ r.createdAt.IsTime ∧ r.updatedAt.IsOptionalTime := by
  obtain ⟨tier, ht⟩ := h.tier
  obtain ⟨size, hs⟩ := h.size
  rw [← Value.exists_readTime_iff, ← Value.exists_optionally_readTime_iff]
  constructor
  · rintro ⟨f, hf⟩
    obtain ⟨-, -, hc, hu, -⟩ := read_eq_ok_iff.1 hf
    exact ⟨⟨_, hc⟩, _, hu⟩
  · rintro ⟨⟨created, hc⟩, updated, hu⟩
    exact ⟨⟨⟨⟨tier, r.path, r.directory, r.filename⟩, r.camera, r.category, size⟩, r.id, created,
      updated⟩, read_eq_ok_iff.2 ⟨ht, hs, hc, hu, rfl, rfl, rfl, rfl, rfl, rfl⟩⟩

theorem read_error {r : FileRow} (h : r.Typed) {e : Error} (he : r.read = .error e) :
    ∃ fault, e = .dataIntegrity fault := by
  obtain ⟨tier, ht⟩ := h.tier
  obtain ⟨size, hs⟩ := h.size
  simp only [read, ht, hs, Value.readInteger, ok_bind, bind_eq_error_iff, pure_eq_ok,
    reduceCtorEq, and_false, exists_false, or_false] at he
  rcases he with hc | ⟨-, -, hu⟩
  · exact Value.readTime_error h.createdAt hc
  · exact Value.optionally_readTime_error h.updatedAt hu

end FileRow

/-! ### Metadata -/

/-- The columns hold values of their types. -/
structure MetaRow.Typed (m : MetaRow) : Prop where
  duration : m.duration = .null ∨ ∃ x, m.duration = .real x
  createdAt : m.createdAt.IsInteger
  updatedAt : m.updatedAt = .null ∨ m.updatedAt.IsInteger

namespace MetaRow

/-- The text of the metadata is an object. -/
def IsObject (m : MetaRow) : Prop :=
  ∃ content, Json.read? Json.metadataDepth m.content = some (.object content)

theorem readReal_null (x : Binary64) : Value.readReal .null ≠ .ok x := by
  simp [Value.readReal_eq_ok_iff]

theorem optionally_readReal_eq_ok_iff {v : Value} {d : Option Binary64} :
    v.optionally Value.readReal = .ok d ↔ v = .ofOption .real d := by
  rw [Value.optionally_eq_ok_iff readReal_null]
  cases d <;> simp [Value.ofOption, Value.readReal_eq_ok_iff]

theorem Typed.exists_duration {m : MetaRow} (h : m.Typed) : ∃ d, m.duration = .ofOption .real d := by
  rcases h.duration with hnull | ⟨x, hx⟩
  · exact ⟨none, hnull⟩
  · exact ⟨some x, hx⟩

theorem read_eq_ok_iff {m : MetaRow} {x : FileMeta} :
    m.read = .ok x ↔
      Json.read? Json.metadataDepth m.content = some (.object x.content) ∧
      m.duration = .ofOption .real x.duration ∧
      m.createdAt.readTime = .ok x.createdAt ∧
      m.updatedAt.optionally Value.readTime = .ok x.updatedAt ∧
      x.path = m.path ∧ x.id = m.id := by
  unfold read
  split
  · next h => simp [h]
  · next content h =>
    simp only [bind_eq_ok_iff, optionally_readReal_eq_ok_iff, pure_eq_ok, Except.ok.injEq, h,
      Option.some.injEq, Json.Value.object.injEq]
    constructor
    · rintro ⟨d, hd, created, hc, updated, hu, rfl⟩
      exact ⟨rfl, hd, hc, hu, rfl, rfl⟩
    · rintro ⟨rfl, hd, hc, hu, hpath, hid⟩
      refine ⟨_, hd, _, hc, _, hu, ?_⟩
      rcases x with ⟨⟨path, d, content⟩, id, created, updated⟩
      simp_all
  · next v hno h =>
    simp only [reduceCtorEq, false_iff]
    rintro ⟨hobj, -⟩
    exact hno _ (Option.some.inj (h.symm.trans hobj))

theorem exists_read_iff {m : MetaRow} (h : m.Typed) :
    (∃ x, m.read = .ok x) ↔ m.IsObject ∧ m.createdAt.IsTime ∧ m.updatedAt.IsOptionalTime := by
  obtain ⟨d, hd⟩ := h.exists_duration
  rw [← Value.exists_readTime_iff, ← Value.exists_optionally_readTime_iff]
  constructor
  · rintro ⟨x, hx⟩
    obtain ⟨hobj, -, hc, hu, -⟩ := read_eq_ok_iff.1 hx
    exact ⟨⟨_, hobj⟩, ⟨_, hc⟩, _, hu⟩
  · rintro ⟨⟨content, hobj⟩, ⟨created, hc⟩, updated, hu⟩
    exact ⟨⟨⟨m.path, d, content⟩, m.id, created, updated⟩,
      read_eq_ok_iff.2 ⟨hobj, hd, hc, hu, rfl, rfl⟩⟩

theorem read_error {m : MetaRow} (h : m.Typed) {e : Error} (he : m.read = .error e) :
    e = .json ∨ ∃ fault, e = .dataIntegrity fault := by
  obtain ⟨d, hd⟩ := h.exists_duration
  rw [← optionally_readReal_eq_ok_iff] at hd
  unfold read at he
  split at he
  · cases he; exact .inl rfl
  · right
    simp only [hd, ok_bind, bind_eq_error_iff, pure_eq_ok, reduceCtorEq, and_false, exists_false,
      or_false] at he
    rcases he with hc | ⟨-, -, hu⟩
    · exact Value.readTime_error h.createdAt hc
    · exact Value.optionally_readTime_error h.updatedAt hu
  · cases he; exact .inr ⟨_, rfl⟩

end MetaRow

/-! ### Recordings -/

/-- The times are times, and what set a recording off has an integer for an id, or none. -/
structure RecordingRow.Readable (row : RecordingRow) : Prop where
  startTime : row.startTime.IsTime
  endTime : row.endTime.IsOptionalTime
  triggerId : row.triggerId = .null ∨ row.triggerId.IsInteger
  createdAt : row.createdAt.IsTime
  updatedAt : row.updatedAt.IsOptionalTime

namespace RecordingRow

theorem read_eq_ok_iff {row : RecordingRow} {r : Recording} :
    row.read = .ok r ↔
      row.startTime.readTime = .ok r.start ∧
      row.endTime.optionally Value.readTime = .ok r.stop ∧
      row.triggerId.optionally Value.readInteger = .ok r.triggerId ∧
      row.createdAt.readTime = .ok r.createdAt ∧
      row.updatedAt.optionally Value.readTime = .ok r.updatedAt ∧
      r.camera = row.camera ∧ r.triggerType = row.triggerType ∧ r.thumbnail = row.thumbnail ∧
      r.id = row.id := by
  simp only [read, bind_eq_ok_iff, pure_eq_ok, Except.ok.injEq]
  constructor
  · rintro ⟨start, hs, stop, he, trigger, ht, created, hc, updated, hu, rfl⟩
    exact ⟨hs, he, ht, hc, hu, rfl, rfl, rfl, rfl⟩
  · rintro ⟨hs, he, ht, hc, hu, hcamera, htype, hthumbnail, hid⟩
    refine ⟨_, hs, _, he, _, ht, _, hc, _, hu, ?_⟩
    rcases r with ⟨⟨camera, start, type, trigger, thumbnail⟩, id, stop, created, updated⟩
    simp_all

theorem exists_read_iff {row : RecordingRow} : (∃ r, row.read = .ok r) ↔ row.Readable := by
  have htrigger : (∃ t, row.triggerId.optionally Value.readInteger = .ok t) ↔
      row.triggerId = .null ∨ row.triggerId.IsInteger := by
    cases row.triggerId <;>
      simp [Value.optionally, Value.readInteger, Value.IsInteger, Except.map]
  constructor
  · rintro ⟨r, hr⟩
    obtain ⟨hstart, hstop, ht, hcreated, hupdated, -⟩ := read_eq_ok_iff.1 hr
    exact ⟨Value.exists_readTime_iff.1 ⟨_, hstart⟩, Value.exists_optionally_readTime_iff.1 ⟨_, hstop⟩,
      htrigger.1 ⟨_, ht⟩, Value.exists_readTime_iff.1 ⟨_, hcreated⟩,
      Value.exists_optionally_readTime_iff.1 ⟨_, hupdated⟩⟩
  · intro h
    obtain ⟨start, hstart⟩ := Value.exists_readTime_iff.2 h.startTime
    obtain ⟨stop, hstop⟩ := Value.exists_optionally_readTime_iff.2 h.endTime
    obtain ⟨trigger, ht⟩ := htrigger.2 h.triggerId
    obtain ⟨created, hcreated⟩ := Value.exists_readTime_iff.2 h.createdAt
    obtain ⟨updated, hupdated⟩ := Value.exists_optionally_readTime_iff.2 h.updatedAt
    exact ⟨⟨⟨row.camera, start, row.triggerType, trigger, row.thumbnail⟩, row.id, stop, created,
      updated⟩, read_eq_ok_iff.2 ⟨hstart, hstop, ht, hcreated, hupdated, rfl, rfl, rfl, rfl⟩⟩

theorem startTime_of_read {row : RecordingRow} {r : Recording} (h : row.read = .ok r) :
    row.startTime = .integer r.start.seconds :=
  (Value.readTime_eq_ok_iff.1 (read_eq_ok_iff.1 h).1).1

theorem id_of_read {row : RecordingRow} {r : Recording} (h : row.read = .ok r) : r.id = row.id := by
  obtain ⟨-, -, -, -, -, -, -, -, hid⟩ := read_eq_ok_iff.1 h
  exact hid

theorem endTime_of_read {row : RecordingRow} {r : Recording} (h : row.read = .ok r) :
    (row.endTime = .null ∧ r.stop = none) ∨
      ∃ stop, row.endTime = .integer stop.seconds ∧ r.stop = some stop := by
  obtain ⟨-, hstop, -⟩ := read_eq_ok_iff.1 h
  rw [Value.optionally_eq_ok_iff Value.readTime_null] at hstop
  rcases hstop with hopen | ⟨stop, hstop, hread⟩
  · exact .inl hopen
  · exact .inr ⟨stop, (Value.readTime_eq_ok_iff.1 hread).1, hstop⟩

end RecordingRow

end Footage
