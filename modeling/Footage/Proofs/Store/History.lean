import Footage.Proofs.Store.Reachable

/-! Ids over time. The last id of a table never goes back, so an id is handed out once.
A metadata row belongs to a file when they share a path, and both have their ids for
good: a move renames the two together and a deletion takes them together, so the
pair stays until the file is gone. -/

namespace Footage

open Sql

/-- The tables that number their rows. -/
inductive Kind where
  | file
  | metadata
  | recording
  | object
  | motion
  deriving DecidableEq, Repr

namespace Store

variable {s s' : Store}

/-- The last id that a table has handed out. -/
def lastId (s : Store) : Kind → ℤ
  | .file => s.files.lastId
  | .metadata => s.filesMeta.lastId
  | .recording => s.recordings.lastId
  | .object => s.objects.lastId
  | .motion => s.motion.lastId

/-- The metadata of an id belongs to the file of an id. -/
def Belongs (s : Store) (file metadata : ℤ) : Prop :=
  ∃ r ∈ s.files.rows, ∃ m ∈ s.filesMeta.rows, r.id = file ∧ m.id = metadata ∧ m.path = r.path

/-- Neither the file nor the metadata is there. -/
def Gone (s : Store) (file metadata : ℤ) : Prop :=
  (∀ r ∈ s.files.rows, r.id ≠ file) ∧ ∀ m ∈ s.filesMeta.rows, m.id ≠ metadata

/-! ### What steps do to files and metadata -/

/-- How a step changes the tables of files and metadata. -/
inductive FileChange (s s' : Store) : Prop
  | none : s'.files = s.files → s'.filesMeta = s.filesMeta → FileChange s s'
  | file (r : FileRow) : r.id = s.files.lastId + 1 → s'.files = ⟨s.files.rows ++ [r], r.id⟩ →
    s'.filesMeta = s.filesMeta → FileChange s s'
  | metadata (m : MetaRow) : m.id = s.filesMeta.lastId + 1 → s'.files = s.files →
    s'.filesMeta = ⟨s.filesMeta.rows ++ [m], m.id⟩ → FileChange s s'
  | move (oldPath : String) (placement : Placement) (now : Time) :
    s'.files = s.files.map (fun r =>
      if r.path = oldPath then r.moved placement now.seconds else r) →
    s'.filesMeta = s.filesMeta.map (MetaRow.follow oldPath placement.path) → FileChange s s'
  | deletion (paths : List String) : s'.files = (s.withoutPaths paths).files →
    s'.filesMeta = (s.withoutPaths paths).filesMeta → FileChange s s'

theorem Step.fileChange (hs : s.Sound) (h : Step s s') : FileChange s s' := by
  cases h with
  | insertFile h =>
    obtain ⟨-, -, hid, rfl⟩ := insertFile_eq_ok h
    exact .file (FileRow.ofNew _ _ _) (hs.files.greatestId_eq ▸ hid) rfl rfl
  | insertMeta h =>
    obtain ⟨-, -, hid, rfl⟩ := insertMeta_eq_ok h
    exact .metadata (MetaRow.ofNew _ _ _ _) (hs.filesMeta.greatestId_eq ▸ hid) rfl rfl
  | moveFile h =>
    obtain ⟨-, -, rfl⟩ := moveFile_eq_ok h
    exact .move _ _ _ rfl rfl
  | insertRecording h =>
    obtain ⟨-, -, rfl⟩ := insertRecording_eq_ok h
    exact .none rfl rfl
  | finishRecording h =>
    obtain ⟨-, rfl⟩ := finishRecording_eq_ok h
    exact .none rfl rfl
  | insertObject h =>
    obtain ⟨-, rfl⟩ := insertObject_eq_ok h
    exact .none rfl rfl
  | insertMotion h =>
    obtain ⟨-, rfl⟩ := insertMotion_eq_ok h
    exact .none rfl rfl
  | deleteRecording h =>
    obtain ⟨-, paths, rows, -, rfl⟩ := deleteRecording_eq_ok h
    exact .deletion _ rfl rfl
  | blockDeletion h =>
    obtain rfl := blockDeletion_eq_ok h
    exact .none rfl rfl
  | pairDeletion h =>
    obtain rfl := pairDeletion_eq_ok h
    exact .none rfl rfl
  | withSchema h =>
    obtain ⟨version, rfl⟩ := withSchema_eq_ok h
    exact .none rfl rfl

/-! ### Last ids -/

theorem Step.lastId_le (hs : s.Sound) (h : Step s s') (k : Kind) : s.lastId k ≤ s'.lastId k := by
  cases h with
  | insertFile h =>
    obtain ⟨-, -, hid, rfl⟩ := insertFile_eq_ok h
    rw [hs.files.greatestId_eq] at hid
    cases k <;> simp only [lastId] <;> omega
  | insertMeta h =>
    obtain ⟨-, -, hid, rfl⟩ := insertMeta_eq_ok h
    rw [hs.filesMeta.greatestId_eq] at hid
    cases k <;> simp only [lastId] <;> omega
  | moveFile h =>
    obtain ⟨-, -, rfl⟩ := moveFile_eq_ok h
    cases k <;> exact le_rfl
  | insertRecording h =>
    obtain ⟨-, hid, rfl⟩ := insertRecording_eq_ok h
    rw [hs.recordings.greatestId_eq] at hid
    cases k <;> simp only [lastId] <;> omega
  | finishRecording h =>
    obtain ⟨-, rfl⟩ := finishRecording_eq_ok h
    cases k <;> exact le_rfl
  | insertObject h =>
    obtain ⟨hid, rfl⟩ := insertObject_eq_ok h
    rw [hs.objects.greatestId_eq] at hid
    cases k <;> simp only [lastId] <;> omega
  | insertMotion h =>
    obtain ⟨hid, rfl⟩ := insertMotion_eq_ok h
    rw [hs.motion.greatestId_eq] at hid
    cases k <;> simp only [lastId] <;> omega
  | deleteRecording h =>
    obtain ⟨-, paths, rows, -, rfl⟩ := deleteRecording_eq_ok h
    cases k <;> exact le_rfl
  | blockDeletion h =>
    obtain rfl := blockDeletion_eq_ok h
    cases k <;> exact le_rfl
  | pairDeletion h =>
    obtain rfl := pairDeletion_eq_ok h
    cases k <;> exact le_rfl
  | withSchema h =>
    obtain ⟨version, rfl⟩ := withSchema_eq_ok h
    cases k <;> exact le_rfl

/-! ### Metadata and its file -/

theorem FileChange.gone (h : FileChange s s') {file metadata : ℤ} (hgone : s.Gone file metadata)
    (hfile : file ≤ s.files.lastId) (hmeta : metadata ≤ s.filesMeta.lastId) :
    s'.Gone file metadata := by
  obtain ⟨hf, hm⟩ := hgone
  cases h with
  | none heq heq' => rw [Gone, heq, heq']; exact ⟨hf, hm⟩
  | file r hid heq heq' =>
    rw [Gone, heq, heq']
    refine ⟨fun q hq => ?_, hm⟩
    rcases List.mem_append.1 hq with hq | hq
    · exact hf q hq
    · rw [List.mem_singleton.1 hq]
      omega
  | metadata m hid heq heq' =>
    rw [Gone, heq, heq']
    refine ⟨hf, fun n hn => ?_⟩
    rcases List.mem_append.1 hn with hn | hn
    · exact hm n hn
    · rw [List.mem_singleton.1 hn]
      omega
  | move oldPath placement now heq heq' =>
    rw [Gone, heq, heq']
    constructor
    · intro q hq
      obtain ⟨r, hr, rfl⟩ := List.mem_map.1 hq
      rw [id_moved]
      exact hf r hr
    · intro n hn
      obtain ⟨m, hm', rfl⟩ := List.mem_map.1 hn
      rw [id_follow]
      exact hm m hm'
  | deletion paths heq heq' =>
    rw [Gone, heq, heq']
    exact ⟨fun r hr => hf r (List.mem_filter.1 hr).1, fun m hm' => hm m (List.mem_filter.1 hm').1⟩

/-- A step keeps a file and its metadata together or takes both. -/
theorem FileChange.belongs (hs : s.Sound) (h : FileChange s s') {file metadata : ℤ}
    (hbelongs : s.Belongs file metadata) : s'.Belongs file metadata ∨ s'.Gone file metadata := by
  obtain ⟨r, hr, m, hm, hfile, hmeta, hpath⟩ := hbelongs
  cases h with
  | none heq heq' => rw [Belongs, heq, heq']; exact .inl ⟨r, hr, m, hm, hfile, hmeta, hpath⟩
  | file q hid heq heq' =>
    rw [Belongs, heq, heq']
    exact .inl ⟨r, List.mem_append_left _ hr, m, hm, hfile, hmeta, hpath⟩
  | metadata n hid heq heq' =>
    rw [Belongs, heq, heq']
    exact .inl ⟨r, hr, m, List.mem_append_left _ hm, hfile, hmeta, hpath⟩
  | move oldPath placement now heq heq' =>
    left
    rw [Belongs, heq, heq']
    refine ⟨_, List.mem_map_of_mem hr, _, List.mem_map_of_mem hm, ?_, ?_, ?_⟩
    · rw [id_moved, hfile]
    · rw [id_follow, hmeta]
    · rw [path_moved, path_follow, hpath]
  | deletion paths heq heq' =>
    by_cases hdoomed : r.path ∈ paths
    · right
      rw [Gone, heq, heq']
      constructor
      · intro q hq hid
        obtain ⟨hq, hkeep⟩ := List.mem_filter.1 hq
        obtain rfl := List.inj_on_of_nodup_map hs.files.nodup_ids hq hr (hid.trans hfile.symm)
        exact absurd hdoomed (of_decide_eq_true hkeep)
      · intro n hn hid
        obtain ⟨hn, hkeep⟩ := List.mem_filter.1 hn
        obtain rfl := List.inj_on_of_nodup_map hs.filesMeta.nodup_ids hn hm (hid.trans hmeta.symm)
        exact absurd (hpath ▸ hdoomed) (of_decide_eq_true hkeep)
    · left
      rw [Belongs, heq, heq']
      exact ⟨r, List.mem_filter.2 ⟨hr, decide_eq_true hdoomed⟩, m,
        List.mem_filter.2 ⟨hm, decide_eq_true (hpath ▸ hdoomed)⟩, hfile, hmeta, hpath⟩

theorem Belongs.le_lastId (hs : s.Sound) {file metadata : ℤ} (h : s.Belongs file metadata) :
    file ≤ s.files.lastId ∧ metadata ≤ s.filesMeta.lastId := by
  obtain ⟨r, hr, m, hm, rfl, rfl, -⟩ := h
  exact ⟨hs.files.bounded r hr, hs.filesMeta.bounded m hm⟩

/-! ### Many steps -/

theorem lastId_le_of_steps (hs : s.Sound) (h : Relation.ReflTransGen Step s s') (k : Kind) :
    s.lastId k ≤ s'.lastId k := by
  induction h with
  | refl => exact le_rfl
  | tail hsteps hstep ih => exact ih.trans (hstep.lastId_le (hs.steps hsteps) k)

/-- The invariant of the run is that the pair is there, or is gone with ids that will not come back. -/
theorem belongs_or_gone_of_steps (hs : s.Sound) (h : Relation.ReflTransGen Step s s')
    {file metadata : ℤ} (hbelongs : s.Belongs file metadata) :
    s'.Belongs file metadata ∨ s'.Gone file metadata := by
  obtain ⟨hfile, hmeta⟩ := hbelongs.le_lastId hs
  induction h with
  | refl => exact .inl hbelongs
  | tail hsteps hstep ih =>
    have hsound := hs.steps hsteps
    rcases ih with ih | ih
    · exact (hstep.fileChange hsound).belongs hsound ih
    · right
      exact (hstep.fileChange hsound).gone ih
        (hfile.trans (lastId_le_of_steps hs hsteps .file))
        (hmeta.trans (lastId_le_of_steps hs hsteps .metadata))

end Store

end Footage
