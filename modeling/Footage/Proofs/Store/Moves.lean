import Footage.Proofs.Fragment.Relocation
import Footage.Proofs.Store.Turns
import Mathlib.Data.List.Find

/-! Moving files between tiers. A move renames a file and its metadata together and keeps its name, so
every recording goes on consisting of the same fragments in the same order, at the places where the
last moves put them. A move overwrites the tier and the time of the last change of a file. Where these
could not be read before it, the file comes into the listing with it. -/

namespace Footage

open Outcome Sql

namespace Store

variable {s s' : Store} {m : Move}

/-- Files have ids and paths of their own, and metadata belongs to a file. -/
structure Keyed (s : Store) : Prop where
  fileIds : (s.files.rows.map FileRow.id).Nodup
  filePaths : (s.files.rows.map FileRow.path).Nodup
  metaFiles : ∀ x ∈ s.filesMeta.rows, ∃ r ∈ s.files.rows, r.path = x.path

theorem Sound.keyed (hs : s.Sound) : s.Keyed := ⟨hs.files.nodup_ids, hs.filePaths, hs.metaFiles⟩

def move (s : Store) (m : Move) : Except Error Store := s.moveFile m.oldPath m.placement m.now

/-! ### One move -/

theorem Keyed.move (hs : s.Keyed) (h : s.move m = .ok s') : s'.Keyed := by
  obtain ⟨-, hfree, rfl⟩ := moveFile_eq_ok h
  refine ⟨?_, ?_, ?_⟩
  · simpa only [Table.map, List.map_map, Function.comp_def, id_moved] using hs.fileIds
  · have hpaths := nodup_map_renamed hs.filePaths fun hne => not_mem_of_hasFile_eq_false (hfree hne)
    rw [List.map_map] at hpaths
    simpa only [Table.map, List.map_map, Function.comp_def, path_moved] using hpaths
  · intro y hy
    obtain ⟨x, hx, rfl⟩ := List.mem_map.1 hy
    obtain ⟨r, hr, hpath⟩ := hs.metaFiles x hx
    refine ⟨_, List.mem_map_of_mem hr, ?_⟩
    rw [path_moved, path_follow, hpath]

/-- Metadata is found beside its file after the move, too. -/
theorem metaRow?_move (hs : s.Keyed) (h : s.move m = .ok s') {r : FileRow} (hr : r ∈ s.files.rows) :
    s'.metaRow? (renamed m.oldPath m.placement.path r.path) =
      (s.metaRow? r.path).map (MetaRow.follow m.oldPath m.placement.path) := by
  obtain ⟨-, hfree, rfl⟩ := moveFile_eq_ok h
  simp only [metaRow?, Table.map, List.find?_map]
  congr 1
  refine List.find?_congr fun x hx => ?_
  obtain ⟨q, hq, hpath⟩ := hs.metaFiles x hx
  have hinj := renamed_inj (fun hne => not_mem_of_hasFile_eq_false (hfree hne))
    (List.mem_map_of_mem hq) (List.mem_map_of_mem hr)
  rw [hpath] at hinj
  simpa only [Function.comp_apply, path_follow, decide_eq_decide] using hinj

theorem fragmentRows_move (hs : s.Keyed) (h : s.move m = .ok s') :
    s'.fragmentRows =
      s.fragmentRows.map fun r => if r.file.path = m.oldPath then r.moved m else r := by
  have hrows : s'.files.rows = s.files.rows.map fun r =>
      if r.path = m.oldPath then r.moved m.placement m.now.seconds else r := by
    obtain ⟨-, -, rfl⟩ := moveFile_eq_ok h
    rfl
  simp only [fragmentRows, hrows, List.map_map]
  refine List.map_congr_left fun r hr => ?_
  have hpath {x : MetaRow} (hx : s.metaRow? r.path = some x) : x.path = r.path := by
    simpa using List.find?_some hx
  simp only [Function.comp_apply, path_moved, metaRow?_move hs h hr]
  split_ifs with hold
  · rw [FragmentRow.moved]
    congr 1
    cases hx : s.metaRow? r.path with
    | none => rfl
    | some x => rw [Option.map_some, Option.map_some, MetaRow.follow, if_pos ((hpath hx).trans hold)]
  · congr 1
    cases hx : s.metaRow? r.path with
    | none => rfl
    | some x =>
      rw [Option.map_some, MetaRow.follow, if_neg]
      rwa [hpath hx]

/-- The id of the file at a path. -/
def idAt? (s : Store) (path : String) : Option ℤ :=
  (s.files.rows.find? fun r => r.path = path).map FileRow.id

theorem idAt?_eq_some_iff (hs : s.Keyed) {r : FileRow} (hr : r ∈ s.files.rows) {path : String} :
    s.idAt? path = some r.id ↔ r.path = path := by
  rw [idAt?, Option.map_eq_some_iff]
  constructor
  · rintro ⟨q, hq, hid⟩
    obtain ⟨hq, hpath⟩ := (find?_key_eq_some_iff hs.filePaths).1 hq
    rwa [← List.inj_on_of_nodup_map hs.fileIds hq hr hid]
  · exact fun hpath => ⟨r, (find?_key_eq_some_iff hs.filePaths).2 ⟨hr, hpath⟩, rfl⟩

/-- The listing after a move is the one before, in which the moved file has its new place. -/
theorem fragmentsIn_move (hs : s.Keyed) (h : s.move m = .ok s')
    (hkeeps : ∀ r ∈ s.files.rows, r.path = m.oldPath → m.Keeps r) (camera : String) (w : Window) :
    s'.fragmentsIn camera w = (s.fragmentsIn camera w).map
      (List.map fun f => if s.idAt? m.oldPath = some f.file.id then f.relocate m else f) := by
  obtain ⟨⟨hnew, -, -, hold⟩, -⟩ := moveFile_eq_ok_iff.1 h
  refine fragmentsIn_of_map (fragmentRows_move hs h) ?_ ?_ ?_
  · intro q hq
    obtain ⟨r, hr, rfl⟩ := List.mem_map.1 hq
    split_ifs with hpath
    · exact (hkeeps r hr hpath).filename
    · rfl
  · intro q hq
    obtain ⟨r, hr, rfl⟩ := List.mem_map.1 hq
    have hid (f : Fragment) (hf : f.file.id = r.id) :
        s.idAt? m.oldPath = some f.file.id ↔ r.path = m.oldPath := by
      rw [hf, idAt?_eq_some_iff hs hr]
    split_ifs with hpath
    · rw [FragmentRow.contribution_moved (hkeeps r hr hpath) (hpath ▸ hold) hnew]
      refine FragmentRow.map_contribution_congr fun f hf => ?_
      rw [if_pos ((hid f hf).2 hpath)]
    · rw [← FragmentRow.map_contribution_congr fun f hf => (if_neg ((hid f hf).not.2 hpath)).symm,
        Option.map_id_fun', Except.map_id]
      rfl
  · intro f g
    split_ifs <;> rfl

/-- A move fails for want of a file, for another file at the new path, or for a text that cannot be
written. -/
theorem move_eq_error_iff : (∃ e, s.move m = .error e) ↔
    s.hasFile m.oldPath = false ∨
    (m.placement.path ≠ m.oldPath ∧ s.hasFile m.placement.path = true) ∨
    ¬ (Writable m.placement.path ∧ Writable m.placement.directory ∧
      Writable m.placement.filename ∧ Writable m.oldPath) := by
  have hok : (∃ s', s.move m = .ok s') ↔
      (Writable m.placement.path ∧ Writable m.placement.directory ∧
        Writable m.placement.filename ∧ Writable m.oldPath) ∧
      s.hasFile m.oldPath = true ∧
      (m.placement.path ≠ m.oldPath → s.hasFile m.placement.path = false) := by
    simp only [move, moveFile_eq_ok_iff, exists_and_left, exists_eq, and_true]
  have herror : (∃ e, s.move m = .error e) ↔ ¬ ∃ s', s.move m = .ok s' := by
    cases s.move m <;> simp
  rw [herror, hok, not_and_or, or_comm, not_and_or, Classical.not_imp, Bool.not_eq_true,
    Bool.not_eq_false, or_assoc]

/-! ### Many moves -/

/-- Moves one after the other, of which each that succeeds keeps what it takes along. -/
def Migrates : Store → List Move → Prop
  | _, [] => True
  | s, m :: moves =>
    match s.move m with
    | .error _ => s.Migrates moves
    | .ok s' => (∀ r ∈ s.files.rows, r.path = m.oldPath → m.Keeps r) ∧ s'.Migrates moves

/-- Whether each move that succeeds keeps the name of its file and whether it is a fragment by its
path. -/
def keepsNames : Store → List Move → Bool
  | _, [] => true
  | s, m :: moves =>
    match s.move m with
    | .error _ => s.keepsNames moves
    | .ok s' =>
      (s.files.rows.all fun r => r.path ≠ m.oldPath ||
        (m.placement.filename = r.filename &&
          fragmentExtension.toList.isSuffixOf m.placement.path.toList =
            fragmentExtension.toList.isSuffixOf r.path.toList)) &&
      s'.keepsNames moves

/-- In a store that operations make, all columns can be read, so names are all that counts. -/
theorem Sound.migrates (hs : s.Sound) {moves : List Move} (h : s.keepsNames moves = true) :
    s.Migrates moves := by
  induction moves generalizing s with
  | nil => trivial
  | cons m moves ih =>
    rw [keepsNames] at h
    rw [Migrates]
    cases hm : s.move m with
    | error e =>
      rw [hm] at h
      exact ih hs h
    | ok s' =>
      rw [hm, Bool.and_eq_true, List.all_eq_true] at h
      refine ⟨fun r hr hold => ?_, ih (hs.moveFile hm) h.2⟩
      have hr' := h.1 r hr
      simp only [hold, ne_eq, not_true, decide_false, Bool.false_or, Bool.and_eq_true,
        decide_eq_true_eq, Bool.eq_iff_iff (b := List.isSuffixOf _ _), List.isSuffixOf_iff_suffix]
        at hr'
      exact (hs.files.valid r hr).keeps hr'.1 (hold ▸ hr'.2)

/-- The last move that takes a file along. -/
def lastMove? : Store → List Move → ℤ → Option Move
  | _, [], _ => none
  | s, m :: moves, id =>
    match s.move m with
    | .error _ => s.lastMove? moves id
    | .ok s' =>
      (s'.lastMove? moves id).or (if s.idAt? m.oldPath = some id then some m else none)

/-- A fragment at the place where the last move puts its file. -/
def relocated (s : Store) (moves : List Move) (f : Fragment) : Fragment :=
  (s.lastMove? moves f.file.id).elim f f.relocate

theorem relocated_of_ok (h : s.move m = .ok s') (moves : List Move) (f : Fragment) :
    s.relocated (m :: moves) f =
      s'.relocated moves (if s.idAt? m.oldPath = some f.file.id then f.relocate m else f) := by
  simp only [relocated, lastMove?, h]
  split_ifs
  · change _ = (s'.lastMove? moves f.file.id).elim (f.relocate m) (f.relocate m).relocate
    cases s'.lastMove? moves f.file.id <;> rfl
  · cases s'.lastMove? moves f.file.id <;> rfl

end Store

def Move.operation (m : Move) : Operation := .moveFile m.oldPath m.placement m.now

namespace Session

theorem perform_move (x : Session) (m : Move) :
    x.perform m.operation = match x.store.move m with
      | .ok s => (.ok [], { x.turn with store := s })
      | .error e => (.error e, x.turn) := by
  change x.change (fun s => s.move m >>= fun s' => .ok ([], s')) = _
  cases hm : x.store.move m <;> simp only [change, hm, ok_bind, error_bind]

theorem run_moves_cons (x : Session) (m : Move) (moves : List Move) :
    (run ((m :: moves).map Move.operation) x).2 = match x.store.move m with
      | .ok s => (run (moves.map Move.operation) { x.turn with store := s }).2
      | .error _ => (run (moves.map Move.operation) x.turn).2 := by
  rw [List.map_cons, run, perform_move]
  cases x.store.move m <;> rfl

/-- A run of moves changes no table but those of files and of their metadata. -/
theorem tables_of_moves (moves : List Move) (x : Session) :
    ∃ files filesMeta, (run (moves.map Move.operation) x).2.store =
      { x.store with files, filesMeta } := by
  induction moves generalizing x with
  | nil => exact ⟨_, _, rfl⟩
  | cons m moves ih =>
    rw [run_moves_cons]
    cases hm : x.store.move m with
    | error e => exact ih x.turn
    | ok s' =>
      obtain ⟨files, filesMeta, h⟩ := ih { x.turn with store := s' }
      obtain ⟨-, -, rfl⟩ := Store.moveFile_eq_ok hm
      exact ⟨files, filesMeta, h⟩

/-- After each move the listing is that of the moves before it, with one file at a new place. -/
theorem fragmentsIn_of_moves {moves : List Move} {x : Session} (hs : x.store.Keyed)
    (hmoves : x.store.Migrates moves) (camera : String) (w : Window) :
    (run (moves.map Move.operation) x).2.store.fragmentsIn camera w =
      (x.store.fragmentsIn camera w).map (List.map (x.store.relocated moves)) := by
  induction moves generalizing x with
  | nil =>
    have hid : x.store.relocated [] = id := rfl
    rw [hid, List.map_id_fun, Except.map_id]
    rfl
  | cons m moves ih =>
    rw [run_moves_cons]
    rw [Store.Migrates] at hmoves
    cases hm : x.store.move m with
    | error e =>
      have hsame : x.store.relocated (m :: moves) = x.store.relocated moves := by
        funext f
        simp only [Store.relocated, Store.lastMove?, hm]
      rw [hm] at hmoves
      rw [hsame]
      exact ih (x := x.turn) hs hmoves
    | ok s' =>
      rw [hm] at hmoves
      obtain ⟨hkeeps, hmoves⟩ := hmoves
      have hlater := ih (x := { x.turn with store := s' }) (hs.move hm) hmoves
      rw [Store.fragmentsIn_move hs hm hkeeps] at hlater
      simp only [hlater]
      cases x.store.fragmentsIn camera w with
      | error e => rfl
      | ok fs =>
        refine congrArg Except.ok ?_
        rw [List.map_map]
        exact List.map_congr_left fun f _ => (Store.relocated_of_ok hm moves f).symm

/-- Recordings consist of the same fragments after any moves, at the places of the last moves. Moves
change no other table, and one that fails changes none: it fails exactly when there is no file at the
old path, when another file has the new one, or when a text has a null character. -/
theorem fragmentsOf_of_moves {x : Session} (hs : x.store.Keyed) {moves : List Move}
    (hmoves : x.store.Migrates moves) :
    (∀ r lookback now, (run (moves.map Move.operation) x).2.store.fragmentsOf r lookback now =
      (x.store.fragmentsOf r lookback now).map (List.map (x.store.relocated moves))) ∧
    (∃ files filesMeta, (run (moves.map Move.operation) x).2.store =
      { x.store with files, filesMeta }) ∧
    ∀ (y : Session) (m : Move),
      (∀ e, (y.perform m.operation).1 = .error e → (y.perform m.operation).2.store = y.store) ∧
      ((∃ e, (y.perform m.operation).1 = .error e) ↔
        y.store.hasFile m.oldPath = false ∨
        (m.placement.path ≠ m.oldPath ∧ y.store.hasFile m.placement.path = true) ∨
        ¬ (Writable m.placement.path ∧ Writable m.placement.directory ∧
          Writable m.placement.filename ∧ Writable m.oldPath)) := by
  refine ⟨fun r lookback now => fragmentsIn_of_moves hs hmoves _ _, tables_of_moves moves x,
    fun y m => ?_⟩
  rw [perform_move, ← Store.move_eq_error_iff]
  cases y.store.move m with
  | error e => exact ⟨fun _ _ => rfl, fun _ => ⟨e, rfl⟩, fun _ => ⟨e, rfl⟩⟩
  | ok s' => exact ⟨fun _ h => (nomatch h), fun ⟨_, h⟩ => (nomatch h), fun ⟨_, h⟩ => nomatch h⟩

/-! ### A file on its way -/

open Store (sharing sharing_eq early recorded recordedMeta)

/-- The first file goes to one tier and on to another, the second cannot follow it. -/
def sampleMoves (now : Fin 3600) : List Move :=
  [⟨"/m/0000001200.m4s", ⟨1, "/warm/0000001200.m4s", "/warm", "0000001200.m4s"⟩, early now⟩,
    ⟨"/m/0000001800.m4s", ⟨1, "/warm/0000001200.m4s", "/warm", "0000001200.m4s"⟩, early now⟩,
    ⟨"/warm/0000001200.m4s", ⟨2, "/cold/0000001200.m4s", "/cold", "0000001200.m4s"⟩, early now⟩,
    ⟨"/m/0000001200.m4s", ⟨2, "/cold/0000001200.m4s", "/cold", "0000001200.m4s"⟩, early now⟩]

/-- A recording that was entered when it ended. -/
def sampleRecording (start stop : Fin 3600) : Recording :=
  ⟨⟨"cam", early start, none, none, ""⟩, 1, some (early stop), early stop, some (early stop)⟩

theorem fragmentsOf_of_moves_sharing :
    let moves := sampleMoves 3000
    let r := sampleRecording 1000 1900
    (Session.ofStore sharing).store.Keyed ∧ (Session.ofStore sharing).store.Migrates moves ∧
    ∃ fs, sharing.fragmentsOf r 0 (early 3000) = .ok fs ∧
      (run (moves.map Move.operation) (.ofStore sharing)).2.store.fragmentsOf r 0 (early 3000) =
        .ok (fs.map (sharing.relocated moves)) ∧
      fs.map (fun f => (f.file.id, (sharing.relocated moves f).path)) =
        [(1, "/cold/0000001200.m4s"), (2, "/m/0000001800.m4s")] := by
  intro moves r
  have hkept : sharing.keepsNames moves = true := by
    rw [sharing_eq]
    decide
  have hlisted : ∃ fs, sharing.fragmentsOf r 0 (early 3000) = .ok fs ∧
      fs.map (fun f => (f.file.id, (sharing.relocated moves f).path)) =
        [(1, "/cold/0000001200.m4s"), (2, "/m/0000001800.m4s")] :=
    Store.exists_fragmentsIn_of_shown (by decide) (by rw [sharing_eq]; decide)
      (List.map fun f => (f.file.id, (sharing.relocated moves f).path))
      (by rw [sharing_eq]; with_unfolding_all decide)
  obtain ⟨fs, hfs, hshown⟩ := hlisted
  clear_value moves r
  have hkeyed : sharing.Keyed := Store.reachable_sharing.sound.keyed
  have hmoves : sharing.Migrates moves := Store.reachable_sharing.sound.migrates hkept
  refine ⟨hkeyed, hmoves, fs, hfs, ?_, hshown⟩
  have h := (fragmentsOf_of_moves (x := .ofStore sharing) hkeyed hmoves).1 r 0 (early 3000)
  rw [h]
  exact congrArg (Except.map _) hfs

/-- A file whose last change cannot be read. -/
def lateChange : Store :=
  { Store.fresh with
    files := ⟨[{ recorded 1 "/m/0000001200.m4s" "0000001200.m4s" with
      updatedAt := .integer (Time.lastSecond + 1) }], 1⟩
    filesMeta := ⟨[recordedMeta 1 "/m/0000001200.m4s" 5], 1⟩ }

/-- A file of no size, which is no fragment by its path but for the case of letters. -/
def unsized : Store :=
  { Store.fresh with
    files := ⟨[{ recorded 1 "/m/a.M4S" "0000001200.bin" with size := .text "x" }], 1⟩
    filesMeta := ⟨[recordedMeta 1 "/m/a.M4S" 5], 1⟩ }

/-- A move brings a file into the listing whose last change could not be read before, and takes a
file out of it that no listing gets past. -/
theorem listings_differ_lateChange :
    let r := sampleRecording 1000 1900
    let m : Move :=
      ⟨"/m/0000001200.m4s", ⟨1, "/cold/0000001200.m4s", "/cold", "0000001200.m4s"⟩, early 3000⟩
    let n : Move := ⟨"/m/a.M4S", ⟨1, "/cold/0000001200.bin", "/cold", "0000001200.bin"⟩, early 3000⟩
    (lateChange.Keyed ∧ lateChange.keepsNames [m] = true ∧
      lateChange.fragmentsOf r 0 (early 3000) = .ok [] ∧
      ∃ fs, (run [m.operation] (.ofStore lateChange)).2.store.fragmentsOf r 0 (early 3000) = .ok fs ∧
        fs.map (fun f => f.file.id) = [1]) ∧
    (unsized.Keyed ∧ unsized.keepsNames [n] = true ∧
      unsized.fragmentsOf r 0 (early 3000) = .error (.store .unavailable) ∧
      (run [n.operation] (.ofStore unsized)).2.store.fragmentsOf r 0 (early 3000) = .ok []) := by
  intro r m n
  have haccept :
      Sql.accept (Query.Files.inWindow "cam" (r.window 0 (early 3000))).pieces = .ok () := by
    decide
  refine ⟨⟨⟨by decide, by decide, by decide⟩, by decide, ?_, ?_⟩,
    ⟨by decide, by decide, by decide⟩, by decide, ?_, ?_⟩
  · exact Store.fragmentsIn_of_sorted haccept (by decide) [none] (by decide)
      List.Pairwise.nil
  · exact Store.exists_fragmentsIn_of_shown haccept (by decide)
      (List.map fun f => f.file.id) (by decide)
  · exact Store.fragmentsIn_of_error haccept (by decide) (by decide)
  · exact Store.fragmentsIn_of_sorted haccept (by decide) [none] (by decide)
      List.Pairwise.nil

end Session

end Footage
