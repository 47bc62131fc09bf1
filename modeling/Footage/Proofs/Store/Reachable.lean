import Footage.Proofs.Store.Invariant
import Mathlib.Logic.Relation

/-! The steps of a store, and that none of them breaks the invariant. A step is one
operation that succeeds. Each has one lemma, which starts from what the operation
leaves and looks at the tables that it touches. -/

namespace Footage.Store

open Outcome Sql

variable {s s' : Store}

/-! ### Steps -/

/-- An operation that succeeds takes one store to another. -/
inductive Step (t : Store) : Store → Prop
  | insertFile {t' : Store} {file : NewFile} {now : Time} {id : ℤ} :
    t.insertFile file now = .ok (id, t') → Step t t'
  | insertMeta {t' : Store} {metadata : NewMeta} {now : Time} {id : ℤ} :
    t.insertMeta metadata now = .ok (id, t') → Step t t'
  | moveFile {t' : Store} {oldPath : String} {placement : Placement} {now : Time} :
    t.moveFile oldPath placement now = .ok t' → Step t t'
  | insertRecording {t' : Store} {r : NewRecording} {now : Time} {id : ℤ} :
    t.insertRecording r now = .ok (id, t') → Step t t'
  | finishRecording {t' : Store} {id : ℤ} {stop now : Time} {r : Recording} :
    t.finishRecording id stop now = .ok (r, t') → Step t t'
  | insertObject {t' : Store} {d : Detection} {detected : Time} {id : ℤ} :
    t.insertObject d detected = .ok (id, t') → Step t t'
  | insertMotion {t' : Store} {camera : String} {start now : Time} {id : ℤ} :
    t.insertMotion camera start now = .ok (id, t') → Step t t'
  | deleteRecording {t' : Store} {id : ℤ} {lookback : ℕ} {now : Time} {d : Deletion} :
    t.deleteRecording id lookback now = .ok (d, t') → Step t t'
  | blockDeletion {t' : Store} : t.blockDeletion = .ok t' → Step t t'
  | pairDeletion {t' : Store} {first second : ℤ} : t.pairDeletion first second = .ok t' → Step t t'
  | withSchema {t' : Store} : t.withSchema = .ok t' → Step t t'

/-- A store that operations make of a new one. -/
def Reachable (s : Store) : Prop := Relation.ReflTransGen Step fresh s

/-! ### Files and metadata -/

theorem not_mem_of_hasFile_eq_false {path : String} (h : s.hasFile path = false) :
    path ∉ s.files.rows.map FileRow.path := by
  intro hmem
  obtain ⟨r, hr, hrpath⟩ := List.mem_map.1 hmem
  rw [hasFile_eq_true_iff.2 ⟨r, hr, hrpath⟩] at h
  cases h

theorem Sound.insertFile (hs : s.Sound) {file : NewFile} {now : Time} {id : ℤ}
    (h : s.insertFile file now = .ok (id, s')) : s'.Sound := by
  obtain ⟨⟨hcamera, hpath⟩, hnew, hid, rfl⟩ := insertFile_eq_ok h
  refine { hs with
    files := hs.files.add rfl hid (FileRow.valid_ofNew hcamera hpath now id)
    filePaths := ?_
    metaFiles := ?_ }
  · rw [List.map_append, List.map_singleton, List.nodup_append]
    refine ⟨hs.filePaths, List.nodup_singleton _, ?_⟩
    intro p hp q hq hpq
    obtain rfl : p = file.placement.path := hpq.trans (List.mem_singleton.1 hq)
    exact not_mem_of_hasFile_eq_false hnew hp
  · intro m hm
    obtain ⟨r, hr, hpath⟩ := hs.metaFiles m hm
    exact ⟨r, List.mem_append_left _ hr, hpath⟩

theorem Sound.insertMeta (hs : s.Sound) {metadata : NewMeta} {now : Time} {id : ℤ}
    (h : s.insertMeta metadata now = .ok (id, s')) : s'.Sound := by
  obtain ⟨hfile, hnew, hid, rfl⟩ := insertMeta_eq_ok h
  refine { hs with
    filesMeta := hs.filesMeta.add rfl hid (MetaRow.valid_ofNew _ _ now id)
    metaPaths := ?_
    metaFiles := ?_ }
  · rw [List.map_append, List.map_singleton, List.nodup_append]
    refine ⟨hs.metaPaths, List.nodup_singleton _, ?_⟩
    intro p hp q hq hpq
    obtain ⟨m, hm, rfl⟩ := List.mem_map.1 hp
    have hnone := List.find?_eq_none.1 hnew m hm
    exact hnone (decide_eq_true (hpq.trans (List.mem_singleton.1 hq)))
  · intro m hm
    rcases List.mem_append.1 hm with hm | hm
    · exact hs.metaFiles m hm
    · rw [List.mem_singleton.1 hm]
      exact hasFile_eq_true_iff.1 hfile

/-- What a move makes of the paths of files and of metadata alike. -/
def renamed (oldPath newPath path : String) : String := if path = oldPath then newPath else path

theorem path_moved (oldPath : String) (placement : Placement) (now : Time) (r : FileRow) :
    (if r.path = oldPath then r.moved placement now.seconds else r).path =
      renamed oldPath placement.path r.path := by
  unfold renamed
  split_ifs <;> rfl

theorem id_moved (oldPath : String) (placement : Placement) (now : Time) (r : FileRow) :
    (if r.path = oldPath then r.moved placement now.seconds else r).id = r.id := by
  split_ifs <;> rfl

theorem id_follow (oldPath newPath : String) (m : MetaRow) : (m.follow oldPath newPath).id = m.id := by
  unfold MetaRow.follow
  split_ifs <;> rfl

theorem path_follow (oldPath newPath : String) (m : MetaRow) :
    (m.follow oldPath newPath).path = renamed oldPath newPath m.path := by
  unfold MetaRow.follow renamed
  split_ifs <;> rfl

/-- Names stay different when one of them becomes a name that is not among them. -/
theorem renamed_inj {oldPath newPath : String} {paths : List String}
    (hnew : newPath ≠ oldPath → newPath ∉ paths) {p q : String} (hp : p ∈ paths) (hq : q ∈ paths) :
    renamed oldPath newPath p = renamed oldPath newPath q ↔ p = q := by
  refine ⟨fun heq => ?_, congrArg _⟩
  unfold renamed at heq
  split_ifs at heq with hpo hqo hqo
  · rw [hpo, hqo]
  · by_cases hno : newPath = oldPath
    · rw [hpo, ← hno, heq]
    · exact absurd (heq ▸ hq) (hnew hno)
  · by_cases hno : newPath = oldPath
    · rw [heq, hno, hqo]
    · exact absurd (heq ▸ hp) (hnew hno)
  · exact heq

theorem nodup_map_renamed {oldPath newPath : String} {paths : List String} (h : paths.Nodup)
    (hnew : newPath ≠ oldPath → newPath ∉ paths) : (paths.map (renamed oldPath newPath)).Nodup :=
  h.map_on fun _ hp _ hq heq => (renamed_inj hnew hp hq).1 heq

theorem Sound.moveFile (hs : s.Sound) {oldPath : String} {placement : Placement} {now : Time}
    (h : s.moveFile oldPath placement now = .ok s') : s'.Sound := by
  obtain ⟨hpath, hfree, rfl⟩ := moveFile_eq_ok h
  have hnew : placement.path ≠ oldPath → placement.path ∉ s.files.rows.map FileRow.path :=
    fun hne => not_mem_of_hasFile_eq_false (hfree hne)
  have hnew' : placement.path ≠ oldPath → placement.path ∉ s.filesMeta.rows.map MetaRow.path := by
    intro hne hmem
    obtain ⟨m, hm, hmpath⟩ := List.mem_map.1 hmem
    obtain ⟨r, hr, hrpath⟩ := hs.metaFiles m hm
    exact hnew hne (List.mem_map.2 ⟨r, hr, hrpath.trans hmpath⟩)
  refine { hs with files := ?_, filesMeta := ?_, filePaths := ?_, metaPaths := ?_, metaFiles := ?_ }
  · refine hs.files.map (id_moved oldPath placement now) fun r _ hr => ?_
    split_ifs
    · exact hr.moved hpath now
    · exact hr
  · refine hs.filesMeta.map (id_follow oldPath placement.path) fun m _ hm => ?_
    unfold MetaRow.follow
    split_ifs
    · exact ⟨hm.duration, hm.createdAt, hm.updatedAt⟩
    · exact hm
  · have hpaths := nodup_map_renamed hs.filePaths hnew
    rw [List.map_map] at hpaths
    simpa only [Table.map, List.map_map, Function.comp_def, path_moved] using hpaths
  · have hpaths := nodup_map_renamed hs.metaPaths hnew'
    rw [List.map_map] at hpaths
    simpa only [Table.map, List.map_map, Function.comp_def, path_follow] using hpaths
  · intro m hm
    obtain ⟨n, hn, rfl⟩ := List.mem_map.1 hm
    obtain ⟨r, hr, hrpath⟩ := hs.metaFiles n hn
    refine ⟨_, List.mem_map_of_mem hr, ?_⟩
    rw [path_moved, path_follow, hrpath]

theorem Sound.withoutPaths (hs : s.Sound) (paths : List String) : (s.withoutPaths paths).Sound := by
  refine { hs with
    files := hs.files.filter _
    filesMeta := hs.filesMeta.filter _
    filePaths := ?_
    metaPaths := ?_
    metaFiles := ?_ }
  · exact hs.filePaths.sublist (List.filter_sublist.map _)
  · exact hs.metaPaths.sublist (List.filter_sublist.map _)
  · intro m hm
    obtain ⟨hm, hkeep⟩ := List.mem_filter.1 hm
    obtain ⟨r, hr, hpath⟩ := hs.metaFiles m hm
    exact ⟨r, List.mem_filter.2 ⟨hr, by rwa [hpath]⟩, hpath⟩

/-! ### Recordings -/

theorem Sound.insertRecording (hs : s.Sound) {r : NewRecording} {now : Time} {id : ℤ}
    (h : s.insertRecording r now = .ok (id, s')) : s'.Sound := by
  obtain ⟨⟨hcamera, hthumbnail⟩, hid, rfl⟩ := insertRecording_eq_ok h
  exact { hs with
    recordings := hs.recordings.add rfl hid (RecordingRow.valid_ofNew hcamera hthumbnail now id) }

theorem mem_of_recording {id : ℤ} {r : Recording} (h : s.recording id = .ok r) :
    ∃ row ∈ s.recordings.rows, row.id = id ∧ row.read = .ok r := by
  obtain ⟨row, hrow, hread⟩ := recording_eq_ok_iff.1 h
  exact ⟨row, List.mem_of_find?_eq_some hrow, by simpa using List.find?_some hrow, hread⟩

theorem Sound.finishRecording (hs : s.Sound) {id : ℤ} {stop now : Time} {r : Recording}
    (h : s.finishRecording id stop now = .ok (r, s')) : s'.Sound := by
  obtain ⟨⟨q, hq, hle⟩, rfl⟩ := finishRecording_eq_ok h
  obtain ⟨row, hrow, hid, hread⟩ := mem_of_recording hq
  refine { hs with recordings := hs.recordings.map (fun other => ?_) fun other hother hvalid => ?_ }
  · split_ifs <;> rfl
  · split_ifs with hsame
    · obtain rfl := List.inj_on_of_nodup_map hs.recordings.nodup_ids hother hrow
        (hsame.trans hid.symm)
      exact hvalid.finished hread hle now
    · exact hvalid

theorem Sound.deleteRecording (hs : s.Sound) {id : ℤ} {lookback : ℕ} {now : Time} {d : Deletion}
    (h : s.deleteRecording id lookback now = .ok (d, s')) : s'.Sound := by
  obtain ⟨-, paths, rows, hrows, rfl⟩ := deleteRecording_eq_ok h
  exact { hs.withoutPaths paths with
    recordings := hs.recordings.sublist (hrows.trans List.filter_sublist) }

/-! ### Objects and motion -/

theorem Sound.insertObject (hs : s.Sound) {d : Detection} {detected : Time} {id : ℤ}
    (h : s.insertObject d detected = .ok (id, s')) : s'.Sound := by
  obtain ⟨hid, rfl⟩ := insertObject_eq_ok h
  exact { hs with objects := hs.objects.add rfl hid (ObjectRow.valid_ofNew d detected id) }

theorem Sound.insertMotion (hs : s.Sound) {camera : String} {start now : Time} {id : ℤ}
    (h : s.insertMotion camera start now = .ok (id, s')) : s'.Sound := by
  obtain ⟨hid, rfl⟩ := insertMotion_eq_ok h
  exact { hs with motion := hs.motion.add rfl hid (MotionRow.valid_ofNew camera start now id) }

/-! ### Settings -/

theorem Sound.withTriggers (hs : s.Sound) (triggers : List Trigger) :
    ({ s with triggers } : Store).Sound := { hs with }

theorem Sound.withVersion (hs : s.Sound) (version : Option String) :
    ({ s with version } : Store).Sound := { hs with }

theorem addTrigger_eq_ok {t : Trigger} (h : s.addTrigger t = .ok s') :
    s' = { s with triggers := t :: s.triggers } := by
  unfold addTrigger at h
  split_ifs at h
  exact (Except.ok.inj h).symm

theorem blockDeletion_eq_ok (h : s.blockDeletion = .ok s') :
    s' = { s with triggers := .block :: s.triggers } :=
  addTrigger_eq_ok h

theorem pairDeletion_eq_ok {first second : ℤ} (h : s.pairDeletion first second = .ok s') :
    s' = { s with triggers := .pair first second :: s.triggers } := by
  unfold pairDeletion at h
  split_ifs at h
  exact addTrigger_eq_ok h

theorem withSchema_eq_ok (h : s.withSchema = .ok s') : ∃ version, s' = { s with version } := by
  unfold withSchema at h
  split at h
  · cases h
    exact ⟨_, rfl⟩
  · split_ifs at h
    cases h
    exact ⟨_, rfl⟩

/-! ### Every step -/

theorem Sound.step (hs : s.Sound) (h : Step s s') : s'.Sound := by
  cases h with
  | insertFile h => exact hs.insertFile h
  | insertMeta h => exact hs.insertMeta h
  | moveFile h => exact hs.moveFile h
  | insertRecording h => exact hs.insertRecording h
  | finishRecording h => exact hs.finishRecording h
  | insertObject h => exact hs.insertObject h
  | insertMotion h => exact hs.insertMotion h
  | deleteRecording h => exact hs.deleteRecording h
  | blockDeletion h =>
    obtain rfl := blockDeletion_eq_ok h
    exact hs.withTriggers _
  | pairDeletion h =>
    obtain rfl := pairDeletion_eq_ok h
    exact hs.withTriggers _
  | withSchema h =>
    obtain ⟨version, rfl⟩ := withSchema_eq_ok h
    exact hs.withVersion version

theorem sound_fresh : fresh.Sound where
  files := Table.sound_empty
  filesMeta := Table.sound_empty
  recordings := Table.sound_empty
  objects := Table.sound_empty
  motion := Table.sound_empty
  filePaths := List.nodup_nil
  metaPaths := List.nodup_nil
  metaFiles := by
    intro m hm
    cases hm

theorem Sound.steps (hs : s.Sound) (h : Relation.ReflTransGen Step s s') : s'.Sound := by
  induction h with
  | refl => exact hs
  | tail _ hstep ih => exact ih.step hstep

theorem Reachable.sound (h : s.Reachable) : s.Sound := sound_fresh.steps h

/-! ### Triggers -/

/-- Steps add no triggers but blocks and pairs. -/
theorem forall_triggers_of_step {P : Trigger → Prop} (hblock : P .block)
    (hpair : ∀ first second, P (.pair first second)) (hs : ∀ t ∈ s.triggers, P t)
    (h : Step s s') : ∀ t ∈ s'.triggers, P t := by
  cases h with
  | insertFile h =>
    obtain ⟨-, -, -, rfl⟩ := insertFile_eq_ok h
    exact hs
  | insertMeta h =>
    obtain ⟨-, -, -, rfl⟩ := insertMeta_eq_ok h
    exact hs
  | moveFile h =>
    obtain ⟨-, -, rfl⟩ := moveFile_eq_ok h
    exact hs
  | insertRecording h =>
    obtain ⟨-, -, rfl⟩ := insertRecording_eq_ok h
    exact hs
  | finishRecording h =>
    obtain ⟨-, rfl⟩ := finishRecording_eq_ok h
    exact hs
  | insertObject h =>
    obtain ⟨-, rfl⟩ := insertObject_eq_ok h
    exact hs
  | insertMotion h =>
    obtain ⟨-, rfl⟩ := insertMotion_eq_ok h
    exact hs
  | deleteRecording h =>
    obtain ⟨-, paths, rows, -, rfl⟩ := deleteRecording_eq_ok h
    exact hs
  | blockDeletion h =>
    obtain rfl := blockDeletion_eq_ok h
    exact List.forall_mem_cons.2 ⟨hblock, hs⟩
  | pairDeletion h =>
    obtain rfl := pairDeletion_eq_ok h
    exact List.forall_mem_cons.2 ⟨hpair _ _, hs⟩
  | withSchema h =>
    obtain ⟨version, rfl⟩ := withSchema_eq_ok h
    exact hs

/-- No trigger rolls back. -/
def NoRollback (s : Store) : Prop := ∀ t ∈ s.triggers, ¬ t.RollsBack

theorem NoRollback.steps (hs : s.NoRollback) (h : Relation.ReflTransGen Step s s') :
    s'.NoRollback := by
  induction h with
  | refl => exact hs
  | tail _ hstep ih =>
    exact forall_triggers_of_step Trigger.not_rollsBack_block Trigger.not_rollsBack_pair ih hstep

theorem Reachable.noRollback (h : s.Reachable) : s.NoRollback :=
  NoRollback.steps (s := fresh) (fun _ => List.not_mem_nil.elim) h

end Footage.Store
