import Footage.Proofs.Store.Effects
import Footage.Proofs.Store.Reading
import Mathlib.Data.List.Nodup

/-! What holds of every store that its own operations make. Ids of a table ascend and
none is beyond the last one handed out, rows hold values of their types and times that
are times, no recording ends before it starts, a path belongs to one file, and metadata
to the file of its path and to no other. -/

namespace Footage

open Sql

/-! ### Tables -/

namespace Table

variable {κ ρ : Type} [Row ρ κ] {P : ρ → Prop} {t : Table ρ}

/-- Ids ascend to the last one handed out, and each row has a property. -/
structure Sound (P : ρ → Prop) (t : Table ρ) : Prop where
  ascending : t.rows.Pairwise fun q r => Row.id q < Row.id r
  bounded : ∀ r ∈ t.rows, Row.id r ≤ t.lastId
  valid : ∀ r ∈ t.rows, P r

theorem sound_empty : (Table.empty : Table ρ).Sound P where
  ascending := List.Pairwise.nil
  bounded := by simp [Table.empty]
  valid := by simp [Table.empty]

theorem Sound.greatestId_eq (h : t.Sound P) : t.greatestId = t.lastId := by
  have hfold : ∀ rows : List ρ, (∀ r ∈ rows, Row.id r ≤ t.lastId) →
      rows.foldr (fun r n => max (Row.id r) n) t.lastId = t.lastId := by
    intro rows hrows
    induction rows with
    | nil => rfl
    | cons r rows ih =>
      rw [List.foldr_cons, ih fun q hq => hrows q (List.mem_cons_of_mem _ hq)]
      exact max_eq_right (hrows r List.mem_cons_self)
  exact hfold t.rows h.bounded

/-- A row of the next id goes to the end. -/
theorem Sound.add (h : t.Sound P) {row : ρ} {id : ℤ} (hrow : Row.id row = id)
    (hid : id = t.greatestId + 1) (hP : P row) : Table.Sound P ⟨t.rows ++ [row], id⟩ := by
  rw [h.greatestId_eq] at hid
  refine ⟨?_, ?_, ?_⟩
  · rw [List.pairwise_append]
    refine ⟨h.ascending, List.pairwise_singleton _ _, ?_⟩
    intro q hq r hr
    have := h.bounded q hq
    rw [List.mem_singleton.1 hr]
    omega
  · intro r hr
    rcases List.mem_append.1 hr with hr | hr
    · have := h.bounded r hr
      show Row.id r ≤ id
      omega
    · rw [List.mem_singleton.1 hr, hrow]
  · intro r hr
    rcases List.mem_append.1 hr with hr | hr
    · exact h.valid r hr
    · rw [List.mem_singleton.1 hr]
      exact hP

theorem Sound.sublist (h : t.Sound P) {rows : List ρ} (hsub : rows.Sublist t.rows) :
    Table.Sound P ⟨rows, t.lastId⟩ where
  ascending := h.ascending.sublist hsub
  bounded := fun r hr => h.bounded r (hsub.subset hr)
  valid := fun r hr => h.valid r (hsub.subset hr)

theorem Sound.filter (h : t.Sound P) (keep : ρ → Bool) : (t.filter keep).Sound P :=
  h.sublist List.filter_sublist

theorem Sound.map (h : t.Sound P) {change : ρ → ρ} (hid : ∀ r, Row.id (change r) = Row.id r)
    (hP : ∀ r ∈ t.rows, P r → P (change r)) : (t.map change).Sound P where
  ascending := by
    refine List.pairwise_map.2 (h.ascending.imp fun hlt => ?_)
    rwa [hid, hid]
  bounded := by
    intro r hr
    obtain ⟨q, hq, rfl⟩ := List.mem_map.1 hr
    rw [hid]
    exact h.bounded q hq
  valid := by
    intro r hr
    obtain ⟨q, hq, rfl⟩ := List.mem_map.1 hr
    exact hP q hq (h.valid q hq)

theorem Sound.nodup_ids (h : t.Sound P) : (t.rows.map Row.id).Nodup :=
  List.pairwise_map.2 (h.ascending.imp fun hlt => Int.ne_of_lt hlt)

end Table

/-! ### Rows -/

structure FileRow.Valid (r : FileRow) : Prop where
  camera : Writable r.camera
  path : Writable r.path
  tier : r.tier.IsInteger
  size : r.size.IsInteger
  createdAt : r.createdAt.IsTime
  updatedAt : r.updatedAt.IsOptionalTime

structure MetaRow.Valid (m : MetaRow) : Prop where
  duration : m.duration = .null ∨ ∃ x, m.duration = .real x
  createdAt : m.createdAt.IsTime
  updatedAt : m.updatedAt.IsOptionalTime

structure RecordingRow.Valid (r : RecordingRow) : Prop where
  camera : Writable r.camera
  thumbnail : Writable r.thumbnail
  startTime : r.startTime.IsTime
  endTime : r.endTime.IsOptionalTime
  triggerId : r.triggerId = .null ∨ r.triggerId.IsInteger
  createdAt : r.createdAt.IsTime
  updatedAt : r.updatedAt.IsOptionalTime
  /-- What has ended has not ended before its start. -/
  ordered : ∀ start stop, r.startTime = .integer start → r.endTime = .integer stop → start ≤ stop

structure ObjectRow.Valid (r : ObjectRow) : Prop where
  createdAt : r.createdAt.IsTime
  updatedAt : r.updatedAt.IsOptionalTime

structure MotionRow.Valid (r : MotionRow) : Prop where
  startTime : r.startTime.IsTime
  createdAt : r.createdAt.IsTime
  updatedAt : r.updatedAt.IsOptionalTime

/-! ### New rows -/

theorem readNumeral_ne_text (numeral s : String) : readNumeral numeral ≠ .text s := by
  unfold readNumeral number?
  simp only
  split_ifs
  · simp
  · simp only [NumericPrefix.integer, Option.getD_some]
    split_ifs <;> simp
  · simp

theorem asWritten_real_ne_text (x : Binary64) (s : String) : (Value.real x).asWritten ≠ .text s := by
  cases x with
  | nan => simp [Value.asWritten]
  | number negative rank =>
    simp only [Value.asWritten]
    have hnumeral := readNumeral_ne_text (String.ofList (Binary64.shortest .up rank).positional)
    generalize readNumeral (String.ofList (Binary64.shortest .up rank).positional) = v at hnumeral
    split_ifs
    · simp
    · cases v with
      | text t => exact absurd rfl (hnumeral t)
      | _ => simp [Value.negated]
    · exact hnumeral s

/-- A column of doubles makes a double of a number. -/
theorem exists_convert_real {v : Value} (hnull : v ≠ .null) (htext : ∀ s, v ≠ .text s) :
    ∃ y, Affinity.real.convert v = .real y := by
  cases v with
  | null => exact absurd rfl hnull
  | integer n => exact ⟨_, rfl⟩
  | real y =>
    simp only [Affinity.convert, Value.numeric, Value.integral]
    split
    · split_ifs
      · exact ⟨_, rfl⟩
      · exact ⟨_, rfl⟩
    · exact ⟨_, rfl⟩
  | text s => exact absurd rfl (htext s)

/-- What a column of doubles holds is a double, or nothing. -/
theorem storedReal_eq (x : Binary64) : storedReal x = .null ∨ ∃ y, storedReal x = .real y := by
  by_cases hnull : (Value.real x).asWritten = .null
  · exact .inl (by rw [storedReal, hnull]; rfl)
  · exact .inr (exists_convert_real hnull (asWritten_real_ne_text x))

/-- The sign of zero is lost. -/
theorem storedReal_negativeZero : storedReal (.signedZero true) = .real .zero := by decide +kernel

theorem FileRow.valid_ofNew {file : NewFile} (hcamera : Writable file.camera)
    (hpath : Writable file.placement.path) (now : Time) (id : ℤ) :
    (FileRow.ofNew file now.seconds id).Valid :=
  ⟨hcamera, hpath, ⟨_, rfl⟩, ⟨_, rfl⟩, Value.isTime_seconds now, .inl rfl⟩

theorem MetaRow.valid_ofNew (metadata : NewMeta) (content : String) (now : Time) (id : ℤ) :
    (MetaRow.ofNew metadata content now.seconds id).Valid := by
  refine ⟨?_, Value.isTime_seconds now, .inl rfl⟩
  cases hd : metadata.duration with
  | none => exact .inl (by simp [MetaRow.ofNew, hd, Value.ofOption])
  | some x => simpa [MetaRow.ofNew, hd, Value.ofOption] using storedReal_eq x

theorem RecordingRow.valid_ofNew {r : NewRecording} (hcamera : Writable r.camera)
    (hthumbnail : Writable r.thumbnail) (now : Time) (id : ℤ) :
    (RecordingRow.ofNew r now.seconds id).Valid where
  camera := hcamera
  thumbnail := hthumbnail
  startTime := Value.isTime_seconds r.start
  endTime := .inl rfl
  triggerId := by
    cases hid : r.triggerId with
    | none => exact .inl (by simp [RecordingRow.ofNew, hid, Value.ofOption])
    | some n => exact .inr ⟨n, by simp [RecordingRow.ofNew, hid, Value.ofOption]⟩
  createdAt := Value.isTime_seconds now
  updatedAt := .inl rfl
  ordered := by
    intro start stop _ h
    cases h

theorem ObjectRow.valid_ofNew (d : Detection) (detected : Time) (id : ℤ) :
    (ObjectRow.ofNew d detected.seconds id).Valid := ⟨Value.isTime_seconds detected, .inl rfl⟩

theorem MotionRow.valid_ofNew (camera : String) (start now : Time) (id : ℤ) :
    (MotionRow.ofNew camera start now.seconds id).Valid :=
  ⟨Value.isTime_seconds start, Value.isTime_seconds now, .inl rfl⟩

theorem FileRow.Valid.moved {r : FileRow} (h : r.Valid) {placement : Placement}
    (hpath : Writable placement.path) (now : Time) : (r.moved placement now.seconds).Valid where
  camera := h.camera
  path := hpath
  tier := ⟨_, rfl⟩
  size := h.size
  createdAt := h.createdAt
  updatedAt := .inr (Value.isTime_seconds now)

/-- A recording whose start was read and not found after its end. -/
theorem RecordingRow.Valid.finished {row : RecordingRow} (h : row.Valid) {r : Recording}
    (hread : row.read = .ok r) {stop : Time} (hle : r.start.le stop) (now : Time) :
    (Store.finished stop now row).Valid where
  camera := h.camera
  thumbnail := h.thumbnail
  startTime := h.startTime
  endTime := .inr (Value.isTime_seconds stop)
  triggerId := h.triggerId
  createdAt := h.createdAt
  updatedAt := .inr (Value.isTime_seconds now)
  ordered := by
    intro m n hm hn
    have hstart := RecordingRow.startTime_of_read hread
    have hm : m = r.start.seconds := Value.integer.inj (hm.symm.trans hstart)
    have hn : stop.seconds = n := Value.integer.inj hn
    have hle : r.start.seconds ≤ stop.seconds := by
      simp only [Time.le, Bool.or_eq_true, Bool.and_eq_true, decide_eq_true_eq] at hle
      omega
    omega

/-! ### Stores -/

structure Store.Sound (s : Store) : Prop where
  files : s.files.Sound FileRow.Valid
  filesMeta : s.filesMeta.Sound MetaRow.Valid
  recordings : s.recordings.Sound RecordingRow.Valid
  objects : s.objects.Sound ObjectRow.Valid
  motion : s.motion.Sound MotionRow.Valid
  filePaths : (s.files.rows.map FileRow.path).Nodup
  metaPaths : (s.filesMeta.rows.map MetaRow.path).Nodup
  metaFiles : ∀ m ∈ s.filesMeta.rows, ∃ r ∈ s.files.rows, r.path = m.path

end Footage
