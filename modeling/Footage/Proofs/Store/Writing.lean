import Footage.Proofs.Json.RoundTrip
import Footage.Proofs.Sql.Reals
import Footage.Proofs.Store.Failure
import Footage.Proofs.Store.Runs

/-! Writing a fragment. It is refused for its path, for a length of play that no numeral writes,
or because a table has handed out its last id; else its two rows come last in their tables.
They are read as what was written, except that the length of play is the double that its
numeral is read as. -/

namespace Footage

open Outcome Sql

/-! ### Statements -/

theorem Sql.Insert.check_eq_ok_iff {insert : Insert} {u : Unit} :
    insert.check = .ok u ↔
      (∀ s ∈ literals insert.pieces, Writable s) ∧ insert.unknownColumn? = none := by
  rw [check, bind_eq_ok_iff]
  constructor
  · rintro ⟨v, haccept, h⟩
    split at h
    · next hnone => exact ⟨(accept_eq_ok_iff _).1 haccept, hnone⟩
    · cases h
  · rintro ⟨hwritable, hnone⟩
    exact ⟨(), (accept_eq_ok_iff _).2 hwritable, by rw [hnone]⟩

/-- The texts of a file can be written. -/
structure NewFile.Writable (file : NewFile) : Prop where
  camera : Sql.Writable file.camera
  category : Sql.Writable file.category
  path : Sql.Writable file.placement.path
  directory : Sql.Writable file.placement.directory
  filename : Sql.Writable file.placement.filename

theorem NewFile.Writable.check {file : NewFile} (h : file.Writable) (createdAt : ℤ) :
    (Query.Files.insert file createdAt).check = .ok () := by
  refine Insert.check_eq_ok_iff.2 ⟨?_, rfl⟩
  rw [literals_insert]
  simpa [Query.Files.insert, Value.text?] using
    ⟨h.camera, h.category, h.path, h.directory, h.filename⟩

/-- A length of play that is not finite is written as a bare word. -/
theorem unknownColumn?_metadata (entry : MetaEntry) (content : String) (createdAt : ℤ) :
    (Query.FilesMeta.insert entry content createdAt).unknownColumn? = none ↔
      ∀ d ∈ entry.duration, d.isFinite := by
  cases hd : entry.duration with
  | none => simp [Insert.unknownColumn?, Query.FilesMeta.insert, hd, Value.ofOption]
  | some x =>
    cases x with
    | nan => simp [Insert.unknownColumn?, Query.FilesMeta.insert, hd, Value.ofOption, Binary64.isFinite]
    | number negative rank =>
      by_cases hfinite : (Binary64.number negative rank).isFinite <;>
        simp [Insert.unknownColumn?, Query.FilesMeta.insert, hd, Value.ofOption, hfinite]

theorem writable_literals_metadata {metadata : NewMeta} (hpath : Writable metadata.path)
    (createdAt : ℤ) : ∀ s ∈ literals (Query.FilesMeta.insert metadata
      (Json.Value.object metadata.content).text createdAt).pieces, Writable s := by
  rw [literals_insert]
  have hcontent := Json.writable_text (.object metadata.content)
  cases hd : metadata.duration <;>
    simpa [Query.FilesMeta.insert, Value.text?, Value.ofOption, hd] using ⟨hpath, hcontent⟩

theorem check_metadata {metadata : NewMeta} (hpath : Writable metadata.path) (createdAt : ℤ) :
    (Query.FilesMeta.insert metadata (Json.Value.object metadata.content).text createdAt).check =
        .ok () ↔ ∀ d ∈ metadata.duration, d.isFinite := by
  rw [Insert.check_eq_ok_iff, unknownColumn?_metadata, NewMeta.entry_duration,
    and_iff_right (writable_literals_metadata hpath createdAt)]

theorem check_metadata_of_not_finite {metadata : NewMeta} (hpath : Writable metadata.path)
    (hd : ∃ d ∈ metadata.duration, ¬ d.isFinite) (createdAt : ℤ) :
    ∃ name, (Query.FilesMeta.insert metadata (Json.Value.object metadata.content).text
      createdAt).check = .error (.store (.unknownColumn name)) := by
  have haccept := (accept_eq_ok_iff _).2 (writable_literals_metadata hpath createdAt)
  have hunknown := mt (unknownColumn?_metadata metadata (Json.Value.object metadata.content).text
    createdAt).1 (by simpa using hd)
  obtain ⟨name, hname⟩ := Option.ne_none_iff_exists'.1 hunknown
  exact ⟨name, by rw [Insert.check, haccept, ok_bind, hname]⟩

theorem Table.Sound.add_eq {κ ρ : Type} [Row ρ κ] {P : ρ → Prop} {t : Table ρ} (h : t.Sound P)
    (row : ℤ → ρ) :
    t.add row = if t.lastId < Numeral.greatestWord then
        .ok (t.lastId + 1, ⟨t.rows ++ [row (t.lastId + 1)], t.lastId + 1⟩)
      else .error (.store .noFreeId) := by
  rw [Table.add]
  simp only [h.greatestId_eq]
  split_ifs
  · omega
  · rfl
  · rfl
  · omega

namespace Store

variable {s s' : Store} {file : NewFile} {metadata : NewMeta} {now : Time}

/-! ### Two rows -/

/-- The store with the row of a file at the end of its table. -/
def withFile (s : Store) (file : NewFile) (now : Time) : Store :=
  let id := s.files.lastId + 1
  { s with files := ⟨s.files.rows ++ [FileRow.ofNew file now.seconds id], id⟩ }

/-- The store with the row of metadata at the end of its table. -/
def withMeta (s : Store) (metadata : NewMeta) (now : Time) : Store :=
  let id := s.filesMeta.lastId + 1
  let content := (Json.Value.object metadata.content).text
  { s with filesMeta := ⟨s.filesMeta.rows ++ [MetaRow.ofNew metadata content now.seconds id], id⟩ }

def withFragment (s : Store) (file : NewFile) (metadata : NewMeta) (now : Time) : Store :=
  (s.withFile file now).withMeta metadata now

/-- Files and metadata have ids left. -/
def HasRoom (s : Store) : Prop :=
  s.files.lastId < Numeral.greatestWord ∧ s.filesMeta.lastId < Numeral.greatestWord

instance (s : Store) : Decidable s.HasRoom := inferInstanceAs (Decidable (_ ∧ _))

theorem insertFile_eq (hs : s.Sound) (hfile : file.Writable) (now : Time) :
    s.insertFile file now =
      if s.files.lastId < Numeral.greatestWord then
        if s.hasFile file.placement.path then .error (.store (.notUnique "files.path"))
        else .ok (s.files.lastId + 1, s.withFile file now)
      else .error (.store .noFreeId) := by
  rw [insertFile, hfile.check, ok_bind, hs.files.add_eq]
  split_ifs <;> rfl

/-- The statement on metadata is checked before an id is looked for. -/
theorem insertMeta_eq (hmetas : s.filesMeta.Sound MetaRow.Valid) (hpath : Writable metadata.path)
    (hfile : s.hasFile metadata.path = true) (hnone : s.metaRow? metadata.path = none) (now : Time) :
    s.insertMeta metadata now = (do
      let content := (Json.Value.object metadata.content).text
      (Query.FilesMeta.insert metadata content now.seconds).check
      if s.filesMeta.lastId < Numeral.greatestWord then
        .ok (s.filesMeta.lastId + 1, s.withMeta metadata now)
      else .error (.store .noFreeId)) := by
  have hselect : s.files.select (Query.Files.exist metadata.path) = .ok
      (s.files.rows.filter fun r => (Query.Files.exist metadata.path).condition.holds (Row.value r)) := by
    rw [Table.select_of_writable, rows_of_unordered rfl rfl]
    simpa [Query.Files.exist, Condition.equals, Condition.texts, Term.texts, Value.text?] using hpath
  have hsome : (s.files.rows.filter fun r =>
      (Query.Files.exist metadata.path).condition.holds (Row.value r)).isEmpty = false := by
    obtain ⟨r, hr, hrpath⟩ := hasFile_eq_true_iff.1 hfile
    rw [List.isEmpty_eq_false_iff]
    exact List.ne_nil_of_mem (List.mem_filter.2 ⟨hr, holds_filePath.2 hrpath⟩)
  rw [insertMeta, hselect, ok_bind, hsome, if_neg Bool.false_ne_true]
  simp only [hmetas.add_eq, hnone, Option.isSome_none, Bool.false_eq_true, if_false]
  refine congrArg (_ >>= ·) (funext fun u => ?_)
  split_ifs <;> rfl

theorem hasFile_withFile (s : Store) (file : NewFile) (now : Time) :
    (s.withFile file now).hasFile file.placement.path = true :=
  hasFile_eq_true_iff.2 ⟨_, List.mem_append_right _ List.mem_cons_self, rfl⟩

/-- Where no file has a path, no metadata has it either. -/
theorem Sound.metaRow?_eq_none (hs : s.Sound) {path : String} (h : s.hasFile path = false) :
    s.metaRow? path = none := by
  rw [metaRow?, List.find?_eq_none]
  intro m hm hpath
  obtain ⟨r, hr, hrpath⟩ := hs.metaFiles m hm
  rw [hasFile_eq_true_iff.2 ⟨r, hr, hrpath.trans (by simpa using hpath)⟩] at h
  cases h

/-- Where the path was free, the metadata of a file finds it alone. -/
theorem insertMeta_withFile (hs : s.Sound) (hfile : file.Writable)
    (hpath : file.placement.path = metadata.path) (hfree : s.hasFile file.placement.path = false)
    (now : Time) :
    (s.withFile file now).insertMeta metadata now = (do
      let content := (Json.Value.object metadata.content).text
      (Query.FilesMeta.insert metadata content now.seconds).check
      if s.filesMeta.lastId < Numeral.greatestWord then
        .ok (s.filesMeta.lastId + 1, s.withFragment file metadata now)
      else .error (.store .noFreeId)) :=
  insertMeta_eq (s := s.withFile file now) hs.filesMeta (hpath ▸ hfile.path)
    (hpath ▸ s.hasFile_withFile file now) (hpath ▸ hs.metaRow?_eq_none hfree) now

/-- A fragment is written exactly if both halves are of one path that no file has, both tables have
ids left, and the length of play is finite. -/
theorem insertFragment_eq_ok_iff (hs : s.Sound) (hfile : file.Writable) {ids : ℤ × ℤ} :
    s.insertFragment file metadata now = .ok (ids, s') ↔
      file.placement.path = metadata.path ∧ s.hasFile file.placement.path = false ∧ s.HasRoom ∧
      (∀ d ∈ metadata.duration, d.isFinite) ∧
      ids = (s.files.lastId + 1, s.filesMeta.lastId + 1) ∧ s' = s.withFragment file metadata now := by
  by_cases hpath : file.placement.path = metadata.path
  swap
  · rw [insertFragment, if_pos hpath]
    simp only [hpath, false_and, iff_false]
    rintro ⟨⟩
  have hwritable : Writable metadata.path := hpath ▸ hfile.path
  rw [insertFragment, if_neg (not_not.2 hpath), insertFile_eq hs hfile, ← check_metadata hwritable]
  by_cases hfiles : s.files.lastId < Numeral.greatestWord
  swap
  · rw [if_neg hfiles]
    simp [HasRoom, hfiles]
  rw [if_pos hfiles]
  by_cases htaken : s.hasFile file.placement.path = true
  · rw [if_pos htaken]
    simp [htaken]
  rw [if_neg htaken]
  have hfree : s.hasFile file.placement.path = false := by simpa using htaken
  simp only [ok_bind, insertMeta_withFile hs hfile hpath hfree, ← hpath, hfree, true_and]
  cases (Query.FilesMeta.insert metadata (Json.Value.object metadata.content).text
    now.seconds).check with
  | error e => simp
  | ok u =>
    by_cases hmetas : s.filesMeta.lastId < Numeral.greatestWord
    · have hroom : s.HasRoom := ⟨hfiles, hmetas⟩
      simp only [ok_bind, if_pos hmetas, hroom, true_and, pure_eq_ok, Except.ok.injEq, Prod.mk.injEq]
      exact and_congr eq_comm eq_comm
    · simp [hmetas, HasRoom]

/-- A length of play that is not finite is found out once the row of the file is written. -/
theorem insertFragment_of_not_finite (hs : s.Sound) (hfile : file.Writable)
    (hpath : file.placement.path = metadata.path) (hfree : s.hasFile file.placement.path = false)
    (hroom : s.HasRoom) (hd : ∃ d ∈ metadata.duration, ¬ d.isFinite) (now : Time) :
    s.insertFile file now = .ok (s.files.lastId + 1, s.withFile file now) ∧
      ∃ name, s.insertFragment file metadata now = .error (.store (.unknownColumn name)) := by
  have hinsert : s.insertFile file now = .ok (s.files.lastId + 1, s.withFile file now) := by
    rw [insertFile_eq hs hfile, if_pos hroom.1, hfree, if_neg Bool.false_ne_true]
  obtain ⟨name, hname⟩ := check_metadata_of_not_finite (hpath ▸ hfile.path) hd now.seconds
  refine ⟨hinsert, name, ?_⟩
  rw [insertFragment, if_neg (not_not.2 hpath), hinsert]
  simp only [ok_bind, insertMeta_withFile hs hfile hpath hfree, hname, error_bind]

end Store

/-! ### Reading what was written -/

/-- The last row is found where no other one satisfies the condition. -/
theorem Table.select_last {κ ρ : Type} [Row ρ κ] [Named κ] {rows : List ρ} {row : ρ} {lastId : ℤ}
    {query : Select κ} (ho : query.order = []) (hl : query.limit = none)
    (htexts : ∀ s ∈ query.condition.texts, Writable s)
    (hrow : query.condition.holds (Row.value row))
    (hrows : ∀ r ∈ rows, ¬ query.condition.holds (Row.value r)) :
    (Table.mk (rows ++ [row]) lastId).select query = .ok [row] := by
  rw [Table.select_of_writable htexts, rows_of_unordered ho hl, List.filter_append,
    List.filter_eq_nil_iff.2 hrows, List.nil_append, List.filter_singleton, hrow, cond_true]

def NewFile.filed (file : NewFile) (id : ℤ) (createdAt : Time) : File :=
  { file with id, createdAt, updatedAt := none }

theorem FileRow.read_ofNew (file : NewFile) (now : Time) (id : ℤ) :
    (FileRow.ofNew file now.seconds id).read = .ok (file.filed id now.whole) :=
  read_eq_ok_iff.2 ⟨rfl, rfl, Value.readTime_seconds now, rfl, rfl, rfl, rfl, rfl, rfl, rfl⟩

/-- A column of doubles holds a double once it is given a finite one. -/
theorem exists_storedReal {x : Binary64} (hx : x.isFinite) : ∃ y, storedReal x = .real y :=
  exists_convert_real (asWritten_real_ne_null hx) (asWritten_real_ne_text x)

/-- A length of play is read as the double that its column holds. -/
def NewMeta.filed (metadata : NewMeta) (duration : Option Binary64) (id : ℤ) (createdAt : Time) :
    FileMeta :=
  { metadata with duration, id, createdAt, updatedAt := none }

theorem MetaRow.read_ofNew {metadata : NewMeta} {duration : Option Binary64}
    (hcontent : (Json.Value.object metadata.content).Legible)
    (hheight : (Json.Value.object metadata.content).height ≤ Json.metadataDepth)
    (hduration : metadata.duration.map storedReal = duration.map .real) (now : Time) (id : ℤ) :
    (MetaRow.ofNew metadata (Json.Value.object metadata.content).text now.seconds id).read =
      .ok (metadata.filed duration id now.whole) := by
  have hvalue : Value.ofOption storedReal metadata.duration = .ofOption .real duration := by
    cases hd : metadata.duration <;> cases duration <;>
      simp_all [Value.ofOption]
  exact read_eq_ok_iff.2
    ⟨Json.read?_text hcontent hheight, hvalue, Value.readTime_seconds now, rfl, rfl, rfl⟩

/-- Whatever metadata holds, the length of play lifted out of it is finite. -/
theorem isFinite_durationOf {content : Json.Fields} : ∀ d ∈ durationOf? content, d.isFinite := by
  intro d hd
  obtain ⟨-, hkeep⟩ := Option.filter_eq_some_iff.1 hd
  exact (Bool.and_eq_true_iff.1 hkeep).1

/-- What is written is read back, but the length of play is the double that its column holds. -/
structure Store.Shows (t : Store) (file : NewFile) (metadata : NewMeta) (now : Time) (ids : ℤ × ℤ) :
    Prop where
  file : t.file? file.placement.path = .ok (some (file.filed ids.1 now.whole))
  metadata : (Json.Value.object metadata.content).Legible →
    (Json.Value.object metadata.content).height ≤ Json.metadataDepth →
      ∃ duration, metadata.duration.map storedReal = duration.map .real ∧
        (metadata.duration = some (.signedZero true) → duration = some .zero) ∧
        t.fileMeta? metadata.path = .ok (some (metadata.filed duration ids.2 now.whole))

namespace Store

variable {s s' : Store} {file : NewFile} {metadata : NewMeta} {now : Time}

theorem file?_withFile (hpath : Writable file.placement.path)
    (hfree : s.hasFile file.placement.path = false) (now : Time) :
    (s.withFile file now).file? file.placement.path =
      .ok (some (file.filed (s.files.lastId + 1) now.whole)) := by
  have hrows : (s.withFile file now).files.select (Query.Files.byPath file.placement.path) =
      .ok [FileRow.ofNew file now.seconds (s.files.lastId + 1)] := by
    refine Table.select_last rfl rfl ?_ (holds_filePath.2 rfl) ?_
    · simpa [Query.Files.byPath, Condition.equals, Condition.texts, Term.texts, Value.text?] using hpath
    · intro r hr hholds
      rw [hasFile_eq_true_iff.2 ⟨r, hr, holds_filePath.1 hholds⟩] at hfree
      cases hfree
  rw [file?, hrows, ok_bind, List.head?_cons, Option.mapM_some, FileRow.read_ofNew]
  rfl

theorem fileMeta?_withMeta (hpath : Writable metadata.path) (hnone : s.metaRow? metadata.path = none)
    (now : Time) :
    (s.withMeta metadata now).fileMeta? metadata.path =
      (MetaRow.ofNew metadata (Json.Value.object metadata.content).text now.seconds
        (s.filesMeta.lastId + 1)).read.map some := by
  have hholds {r : MetaRow} : (Query.FilesMeta.byPath metadata.path).condition.holds (Row.value r) ↔
      r.path = metadata.path := holds_equals_text rfl
  have hrows : (s.withMeta metadata now).filesMeta.select (Query.FilesMeta.byPath metadata.path) =
      .ok [MetaRow.ofNew metadata (Json.Value.object metadata.content).text now.seconds
        (s.filesMeta.lastId + 1)] := by
    refine Table.select_last rfl rfl ?_ (hholds.2 rfl) ?_
    · simpa [Query.FilesMeta.byPath, Condition.equals, Condition.texts, Term.texts, Value.text?]
        using hpath
    · intro r hr hr'
      exact List.find?_eq_none.1 hnone r hr (decide_eq_true (hholds.1 hr'))
  rw [fileMeta?, hrows, ok_bind, List.head?_cons, Option.mapM_some]
  cases (MetaRow.ofNew metadata (Json.Value.object metadata.content).text now.seconds
    (s.filesMeta.lastId + 1)).read <;> rfl

theorem Sound.shows_withFragment (hs : s.Sound) (hfile : file.Writable)
    (hpath : file.placement.path = metadata.path) (hfree : s.hasFile file.placement.path = false)
    (hfinite : ∀ d ∈ metadata.duration, d.isFinite) (now : Time) :
    (s.withFragment file metadata now).Shows file metadata now
      (s.files.lastId + 1, s.filesMeta.lastId + 1) where
  file := file?_withFile hfile.path hfree now
  metadata := by
    intro hcontent hheight
    obtain ⟨duration, hduration⟩ : ∃ duration : Option Binary64,
        metadata.duration.map storedReal = duration.map .real := by
      cases hd : metadata.duration with
      | none => exact ⟨none, rfl⟩
      | some d =>
        obtain ⟨y, hy⟩ := exists_storedReal (hfinite d hd)
        exact ⟨some y, congrArg some hy⟩
    refine ⟨duration, hduration, fun hzero => ?_, ?_⟩
    · rw [hzero, Option.map_some, storedReal_negativeZero] at hduration
      obtain ⟨y, rfl, hy⟩ := Option.map_eq_some_iff.1 hduration.symm
      exact congrArg some (Value.real.inj hy)
    have hnone : (s.withFile file now).metaRow? metadata.path = none :=
      hpath ▸ hs.metaRow?_eq_none hfree
    rw [withFragment, fileMeta?_withMeta (hpath ▸ hfile.path) hnone,
      MetaRow.read_ofNew hcontent hheight hduration]
    rfl

end Store

/-! ### Transactions that go on -/

/-- Statements are checked before ids are looked for. -/
theorem Sql.Insert.failsAs_check (insert : Insert) :
    FailsAs (·.endsTransaction = false) insert.check := by
  refine FailsAs.bind ((failsAs_accept _).mono fun _ => Error.IsUnreadable.endsTransaction_eq)
    fun _ => ?_
  split
  · exact failsAs_ok ()
  · exact failsAs_error rfl

theorem Table.Sound.failsAs_add {κ ρ : Type} [Row ρ κ] {P : ρ → Prop} {t : Table ρ} (h : t.Sound P)
    (hlt : t.lastId < Numeral.greatestWord) (row : ℤ → ρ) :
    FailsAs (·.endsTransaction = false) (t.add row) := by
  rw [h.add_eq, if_pos hlt]
  exact failsAs_ok _

namespace Store

variable {s s' : Store}

theorem failsAs_insertFile (hs : s.Sound) (hroom : s.HasRoom) (file : NewFile) (now : Time) :
    FailsAs (·.endsTransaction = false) (s.insertFile file now) := by
  refine (Insert.failsAs_check _).bind fun _ => (hs.files.failsAs_add hroom.1 _).bind fun _ => ?_
  cases s.hasFile file.placement.path with
  | true => exact failsAs_error rfl
  | false => exact failsAs_ok _

theorem failsAs_insertMeta (hs : s.Sound) (hroom : s.filesMeta.lastId < Numeral.greatestWord)
    (metadata : NewMeta) (now : Time) :
    FailsAs (·.endsTransaction = false) (s.insertMeta metadata now) := by
  refine FailsAs.bind
    ((s.files.failsAs_select _).mono fun _ => Error.IsUnreadable.endsTransaction_eq) fun rows => ?_
  cases rows.isEmpty with
  | true => exact failsAs_error rfl
  | false =>
    refine (Insert.failsAs_check _).bind fun _ => (hs.filesMeta.failsAs_add hroom _).bind fun _ => ?_
    cases (s.metaRow? metadata.path).isSome with
    | true => exact failsAs_error rfl
    | false => exact failsAs_ok _

theorem failsAs_insertFragment (hs : s.Sound) (hroom : s.HasRoom) (file : NewFile)
    (metadata : NewMeta) (now : Time) :
    FailsAs (·.endsTransaction = false) (s.insertFragment file metadata now) := by
  unfold insertFragment
  split
  · exact failsAs_error rfl
  intro e h
  rcases bind_eq_error_iff.1 h with h | ⟨⟨id, t⟩, ht, h⟩
  · exact failsAs_insertFile hs hroom file now e h
  · have htsound := hs.insertFile ht
    obtain ⟨-, -, -, rfl⟩ := insertFile_eq_ok ht
    exact ((failsAs_insertMeta htsound hroom.2 metadata now).bind fun _ => failsAs_ok _) e h

end Store

end Footage
