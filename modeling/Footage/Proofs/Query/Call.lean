import Footage.Proofs.Fragment.Prefilter
import Footage.Proofs.Sql.Statements
import Footage.Proofs.Sql.Template
import Footage.Query.Events
import Footage.Query.Files
import Footage.Query.Recordings

/-! No argument changes a statement. Every query of the store is a row of tokens with places left open
for its text arguments; the row depends on the other arguments and on the number of texts only, and
the tokens of the query are the row with each text as one literal in its place. -/

namespace Footage.Query

open Sql

/-! ### Calls -/

/-- A query with its arguments. -/
inductive Call where
  | createTable (table : CreateTable) (known : table ∈ Schema.tables)
  | createIndex (index : CreateIndex) (known : index ∈ Schema.indexes)
  | fileByPath (path : String)
  | fileExists (path : String)
  | filesFor (camera : String)
  | insertFile (file : NewFile) (createdAt : ℤ)
  | moveFile (oldPath : String) (placement : Placement) (updatedAt : ℤ)
  | deleteFiles (paths : List String)
  | filesInWindow (camera : String) (w : Window)
  | insertMeta (entry : MetaEntry) (content : String) (createdAt : ℤ)
  | metaByPath (path : String)
  | deleteMeta (paths : List String)
  | insertRecording (recording : NewRecording) (start createdAt : ℤ)
  | recordingById (id : ℤ)
  | oldestFirst (camera : String) (range : Option Recordings.StartRange)
  | newestFirst (camera : String) (range : Option Recordings.StartRange)
  | latest (camera : String) (range : Option Recordings.StartRange)
  | byStart (camera : String) (start : ℤ)
  | siblings (camera : String) (other first last lookback : ℤ)
  | finish (id stop updatedAt : ℤ)
  | deleteRecording (id : ℤ)
  | insertObject (detection : Detection) (createdAt : ℤ)
  | objectsBetween (camera : String) (first last : ℤ)
  | insertMotion (camera : String) (start createdAt : ℤ)
  | motionBetween (camera : String) (first last : ℤ)
  | setting (key : String)
  | insertSetting (key value : String)

namespace Call

def pieces : Call → List Piece
  | createTable table _ => table.pieces
  | createIndex index _ => index.pieces
  | fileByPath path => (Files.byPath path).pieces
  | fileExists path => (Files.exist path).pieces
  | filesFor camera => (Files.countFor camera).pieces
  | insertFile file createdAt => (Files.insert file createdAt).pieces
  | moveFile oldPath placement updatedAt => (Files.move oldPath placement updatedAt).pieces
  | deleteFiles paths => (Files.deletePaths paths).pieces
  | filesInWindow camera w => (Files.inWindow camera w).pieces
  | insertMeta entry content createdAt => (FilesMeta.insert entry content createdAt).pieces
  | metaByPath path => (FilesMeta.byPath path).pieces
  | deleteMeta paths => (FilesMeta.deletePaths paths).pieces
  | insertRecording recording start createdAt => (Recordings.insert recording start createdAt).pieces
  | recordingById id => (Recordings.byId id).pieces
  | oldestFirst camera range => (Recordings.oldestFirst camera range).pieces
  | newestFirst camera range => (Recordings.newestFirst camera range).pieces
  | latest camera range => (Recordings.latest camera range).pieces
  | byStart camera start => (Recordings.byStart camera start).pieces
  | siblings camera other first last lookback =>
    (Recordings.siblings camera other first last lookback).pieces
  | finish id stop updatedAt => (Recordings.finish id stop updatedAt).pieces
  | deleteRecording id => (Recordings.delete id).pieces
  | insertObject detection createdAt => (Objects.insert detection createdAt).pieces
  | objectsBetween camera first last => (Objects.between camera first last).pieces
  | insertMotion camera start createdAt => (Motion.insert camera start createdAt).pieces
  | motionBetween camera first last => (Motion.between camera first last).pieces
  | setting key => (Settings.byKey key).pieces
  | insertSetting key value => (Settings.insert key value).pieces

/-- The text arguments, in the order in which the statement writes them. -/
def strings : Call → List String
  | createTable _ _ | createIndex _ _ => []
  | recordingById _ | finish _ _ _ | deleteRecording _ => []
  | fileByPath path | fileExists path | metaByPath path => [path]
  | filesFor camera | filesInWindow camera _ => [camera]
  | insertFile file _ =>
    [file.camera, file.category, file.placement.path, file.placement.directory,
      file.placement.filename]
  | moveFile oldPath placement _ =>
    [placement.path, placement.directory, placement.filename, oldPath]
  | deleteFiles paths | deleteMeta paths => paths
  | insertMeta entry content _ => [entry.path, content]
  | insertRecording recording _ _ =>
    recording.camera :: recording.triggerType.toList ++ [recording.thumbnail]
  | oldestFirst camera _ | newestFirst camera _ | latest camera _ => [camera]
  | byStart camera _ | siblings camera _ _ _ _ => [camera]
  | insertObject detection _ => detection.camera :: detection.label :: detection.zone.toList
  | objectsBetween camera _ _ | insertMotion camera _ _ | motionBetween camera _ _ => [camera]
  | setting key => [key]
  | insertSetting key value => [key, value]

/-- The call with empty texts. -/
def erase : Call → Call
  | fileByPath _ => fileByPath ""
  | fileExists _ => fileExists ""
  | filesFor _ => filesFor ""
  | insertFile file createdAt =>
    insertFile ⟨⟨file.placement.tier, "", "", ""⟩, "", "", file.size⟩ createdAt
  | moveFile _ placement updatedAt => moveFile "" ⟨placement.tier, "", "", ""⟩ updatedAt
  | deleteFiles paths => deleteFiles (paths.map fun _ => "")
  | filesInWindow _ w => filesInWindow "" w
  | insertMeta entry _ createdAt => insertMeta ⟨"", entry.duration⟩ "" createdAt
  | metaByPath _ => metaByPath ""
  | deleteMeta paths => deleteMeta (paths.map fun _ => "")
  | insertRecording recording start createdAt =>
    insertRecording { recording with
      camera := ""
      triggerType := recording.triggerType.map fun _ => ""
      thumbnail := "" } start createdAt
  | oldestFirst _ range => oldestFirst "" range
  | newestFirst _ range => newestFirst "" range
  | latest _ range => latest "" range
  | byStart _ start => byStart "" start
  | siblings _ other first last lookback => siblings "" other first last lookback
  | insertObject detection createdAt =>
    insertObject { detection with
      camera := ""
      label := ""
      zone := detection.zone.map fun _ => "" } createdAt
  | objectsBetween _ first last => objectsBetween "" first last
  | insertMotion _ start createdAt => insertMotion "" start createdAt
  | motionBetween _ first last => motionBetween "" first last
  | setting _ => setting ""
  | insertSetting _ _ => insertSetting "" ""
  | c => c

/-- The literals that a statement has of itself. They come after its arguments. -/
def constants : Call → List String
  | filesInWindow _ w =>
    [recorderCategory, "%" ++ fragmentExtension, w.start.encode, w.stop.encode, w.start.encode]
  | _ => []

end Call

/-! ### Names -/

theorem writable_fileColumn : Named.Writable FileColumn := by
  intro c
  cases c <;> decide

theorem writable_metaColumn : Named.Writable MetaColumn := by
  intro c
  cases c <;> decide

theorem writable_fragmentColumn : Named.Writable FragmentColumn := by
  rintro (c | c) <;> cases c <;> decide

theorem writable_recordingColumn : Named.Writable RecordingColumn := by
  intro c
  cases c <;> decide

theorem writable_objectColumn : Named.Writable ObjectColumn := by
  intro c
  cases c <;> decide

theorem writable_motionColumn : Named.Writable MotionColumn := by
  intro c
  cases c <;> decide

theorem writable_settingColumn : Named.Writable SettingColumn := by
  intro c
  cases c <;> decide

theorem writable_tables : Writable Schema.settings ∧ Writable Schema.files ∧
    Writable Schema.filesMeta ∧ Writable Schema.recordings ∧ Writable Schema.objects ∧
    Writable Schema.motion := by decide

/-! ### Literals -/

namespace Call

/-- The literals of a statement are its text arguments, and its own behind them. -/
theorem literals_pieces (c : Call) : literals c.pieces = c.strings ++ c.constants := by
  cases c with
  | createTable table known =>
    have hnone : ∀ table ∈ Schema.tables, literals table.pieces = [] := by decide
    exact hnone table known
  | createIndex index known =>
    have hnone : ∀ index ∈ Schema.indexes, literals index.pieces = [] := by decide
    exact hnone index known
  | deleteFiles paths | deleteMeta paths =>
    refine (literals_delete _).trans ?_
    show (paths.map Value.text).flatMap (fun v => v.text?.toList) = paths ++ []
    simp [List.flatMap_map, Value.text?]
  | insertFile | insertMotion | insertSetting => exact literals_insert _
  | insertMeta entry content createdAt =>
    rcases entry with ⟨path, _ | duration⟩ <;> exact literals_insert _
  | insertRecording recording start createdAt =>
    rcases recording with ⟨camera, _, _ | triggerType, _ | triggerId, thumbnail⟩ <;>
      exact literals_insert _
  | insertObject detection createdAt =>
    rcases detection with ⟨camera, label, _, _, _, _, _, _, _, _ | zone⟩ <;>
      exact literals_insert _
  | moveFile | finish => exact literals_update _
  | deleteRecording id => exact literals_delete _
  | oldestFirst camera range | newestFirst camera range | latest camera range =>
    cases range <;> exact literals_select _
  | _ => exact literals_select _

theorem slots_erase (c : Call) : slots c.erase.pieces = slots c.pieces := by
  have herase (paths : List String) : ((paths.map fun _ => "").map Value.text).map Value.erase =
      (paths.map Value.text).map Value.erase := by
    simp only [List.map_map]
    rfl
  cases c with
  | createTable | createIndex | recordingById | finish | deleteRecording => rfl
  | deleteFiles paths | deleteMeta paths =>
    refine slots_delete_congr ?_
    simp only [Delete.erase, Files.deletePaths, FilesMeta.deletePaths, Condition.erase, herase]
  | insertFile | insertMeta | insertMotion | insertSetting => exact slots_insert_congr rfl
  | insertRecording recording start createdAt =>
    rcases recording with ⟨camera, _, _ | triggerType, triggerId, thumbnail⟩ <;>
      exact slots_insert_congr rfl
  | insertObject detection createdAt =>
    rcases detection with ⟨camera, label, _, _, _, _, _, _, _, _ | zone⟩ <;>
      exact slots_insert_congr rfl
  | moveFile => exact slots_update_congr rfl
  | oldestFirst camera range | newestFirst camera range | latest camera range =>
    cases range <;> exact slots_select_congr rfl
  | _ => exact slots_select_congr rfl

/-! ### Tokens -/

theorem clear_pieces {c : Call} (h : ∀ s ∈ literals c.pieces, Writable s) : Clear c.pieces := by
  obtain ⟨hsettings, hfiles, hmeta, hrecordings, hobjects, hmotion⟩ := writable_tables
  cases c with
  | createTable table known =>
    have hnames : ∀ table ∈ Schema.tables, Writable table.name ∧
        (∀ c ∈ table.columns, Writable c.name) ∧ ∀ r ∈ table.reference,
          Writable r.column ∧ Writable r.table ∧ Writable r.target := by decide
    obtain ⟨hname, hcolumns, hreference⟩ := hnames table known
    exact clear_createTable hname hcolumns hreference
  | createIndex index known =>
    have hnames : ∀ index ∈ Schema.indexes, Writable index.name ∧ Writable index.table ∧
        ∀ c ∈ index.columns, Writable c := by decide
    obtain ⟨hname, htable, hcolumns⟩ := hnames index known
    exact clear_createIndex hname htable hcolumns
  | fileByPath | fileExists | filesFor =>
    exact clear_select writable_fileColumn hfiles (fun _ h => nomatch h) h
  | filesInWindow =>
    refine clear_select writable_fragmentColumn hfiles ?_ h
    rintro _ ⟨⟩
    exact hmeta
  | insertFile =>
    refine clear_insert hfiles ?_ h
    simp only [Files.insert, List.forall_mem_cons]
    decide
  | moveFile =>
    refine clear_update writable_fileColumn hfiles ?_ h
    simp only [Files.move, List.forall_mem_cons]
    decide
  | deleteFiles => exact clear_delete writable_fileColumn hfiles h
  | metaByPath => exact clear_select writable_metaColumn hmeta (fun _ h => nomatch h) h
  | insertMeta =>
    refine clear_insert hmeta ?_ h
    simp only [FilesMeta.insert, List.forall_mem_cons]
    decide
  | deleteMeta => exact clear_delete writable_metaColumn hmeta h
  | recordingById | oldestFirst | newestFirst | latest | byStart | siblings =>
    exact clear_select writable_recordingColumn hrecordings (fun _ h => nomatch h) h
  | insertRecording =>
    refine clear_insert hrecordings ?_ h
    simp only [Recordings.insert, List.forall_mem_cons]
    decide
  | finish =>
    refine clear_update writable_recordingColumn hrecordings ?_ h
    simp only [Recordings.finish, List.forall_mem_cons]
    decide
  | deleteRecording => exact clear_delete writable_recordingColumn hrecordings h
  | objectsBetween =>
    exact clear_select writable_objectColumn hobjects (fun _ h => nomatch h) h
  | insertObject =>
    refine clear_insert hobjects ?_ h
    simp only [Objects.insert, List.forall_mem_cons]
    decide
  | motionBetween => exact clear_select writable_motionColumn hmotion (fun _ h => nomatch h) h
  | insertMotion =>
    refine clear_insert hmotion ?_ h
    simp only [Motion.insert, List.forall_mem_cons]
    decide
  | setting => exact clear_select writable_settingColumn hsettings (fun _ h => nomatch h) h
  | insertSetting =>
    refine clear_insert hsettings ?_ h
    simp only [Settings.insert, List.forall_mem_cons]
    decide

theorem writable_constants (c : Call) : ∀ s ∈ c.constants, Writable s := by
  cases c with
  | filesInWindow camera w =>
    simp only [constants, List.forall_mem_cons, Timestamp.writable_encode]
    decide
  | _ => exact fun _ h => nomatch h

theorem tokens_text {c : Call} (h : ∀ s ∈ c.strings, Writable s) :
    tokens (text c.pieces) = fill (slots c.pieces) (c.strings ++ c.constants) := by
  have hwritable : ∀ s ∈ literals c.pieces, Writable s := by
    rw [literals_pieces]
    exact List.forall_mem_append.2 ⟨h, c.writable_constants⟩
  rw [(clear_pieces hwritable).tokens_text, ← fill_slots, literals_pieces]

example : tokens (text (setting "'; DROP TABLE files; --").pieces) =
    [.word "SELECT", .identifier "value", .word "FROM", .identifier "metadata", .word "WHERE",
      .identifier "key", .operator "=", .literal "'; DROP TABLE files; --"] :=
  tokens_text (by decide)

theorem length_strings_erase (c : Call) : c.erase.strings.length = c.strings.length := by
  cases c with
  | insertRecording recording => cases h : recording.triggerType <;> simp [erase, strings, h]
  | insertObject detection => cases h : detection.zone <;> simp [erase, strings, h]
  | _ => simp [erase, strings]

theorem constants_erase (c : Call) : c.erase.constants = c.constants := by
  cases c <;> rfl

/-- The tokens of a call with its text arguments left open. -/
def row (c : Call) : List (Option Token) :=
  fillAfter c.strings.length (slots c.pieces) c.constants

theorem row_erase (c : Call) : c.erase.row = c.row := by
  rw [row, row, slots_erase, length_strings_erase, constants_erase]

theorem count_row (c : Call) : c.row.count none = c.strings.length := by
  refine count_fillAfter ?_ _
  rw [count_slots, literals_pieces, List.length_append]
  exact Nat.le_add_right _ _

/-- What a call writes is a row of tokens that its other arguments and the number of its texts fix,
with each text as one literal in the place that is open for it. A deletion by no paths selects
nothing. -/
theorem exists_row_fill :
    (∀ e : Call, ∃ row : List (Option Token), ∀ c : Call, c.erase = e →
      (∀ s ∈ c.strings, Writable s) →
        row.count none = c.strings.length ∧ tokens (text c.pieces) = fill row c.strings) ∧
    (∀ r, (Files.deletePaths []).condition.holds r = false) ∧
    ∀ r, (FilesMeta.deletePaths []).condition.holds r = false := by
  refine ⟨fun e => ⟨e.row, ?_⟩, fun r => rfl, fun r => rfl⟩
  rintro c rfl h
  rw [row_erase]
  exact ⟨c.count_row, by rw [tokens_text h, row, fill_fillAfter]⟩

/-- Texts of quotes, backslashes and marks of comments. -/
def hostile : Call :=
  insertFile ⟨⟨0, "'a''", "\\'\"", "/* ' */"⟩, "'; DROP TABLE files; --", "''", 1⟩ 0

theorem exists_row_hostile : (∀ s ∈ hostile.strings, Writable s) ∧
    ∃ row : List (Option Token), row.count none = 5 ∧
      tokens (text hostile.pieces) =
        fill row ["'; DROP TABLE files; --", "''", "'a''", "\\'\"", "/* ' */"] := by
  have h : ∀ s ∈ hostile.strings, Writable s := by decide
  obtain ⟨row, hrow⟩ := exists_row_fill.1 hostile.erase
  exact ⟨h, row, hrow hostile rfl h⟩

end Call

end Footage.Query
