import Footage.Proofs.Store.Writing

/-! Fragments over connections. Where no trigger rolls back, a connection begins no transaction only
once a table has handed out its last id, which no operation undoes. Whatever a session has been
asked, it writes a fragment whole or not at all. -/

namespace Footage

open Outcome

variable {s s' : Store}

/-- Ids do not come back. -/
theorem Store.HasRoom.of_steps (h : s'.HasRoom) (hs : s.Sound)
    (hsteps : Relation.ReflTransGen Store.Step s s') : s.HasRoom :=
  ⟨(Store.lastId_le_of_steps hs hsteps .file).trans_lt h.1,
    (Store.lastId_le_of_steps hs hsteps .metadata).trans_lt h.2⟩

namespace Session

variable {x y : Session}

/-- One of the connections begins no transaction. -/
def HasStuck (x : Session) : Prop := x.isStuck = true ∨ x.isOtherStuck = true

/-- A connection is stuck only where a table has no ids left, as no trigger rolls back. -/
structure Sound (x : Session) : Prop where
  store : x.store.Sound
  noRollback : x.store.NoRollback
  stuck : x.HasStuck → ¬ x.store.HasRoom

theorem sound_ofStore (hs : s.Reachable) : (Session.ofStore s).Sound where
  store := hs.sound
  noRollback := hs.noRollback
  stuck := by
    rintro (h | h) <;> cases h

theorem hasStuck_turns (x : Session) (n : ℕ) : (x.turns n).HasStuck ↔ x.HasStuck := by
  induction n generalizing x with
  | zero => exact Iff.rfl
  | succ n ih => exact (ih x.turn).trans or_comm

theorem hasStuck_change {α : Type} {act : Store → Except Error (α × Store)}
    (hy : (x.change act).2.HasStuck) : x.HasStuck := by
  unfold change at hy
  split at hy <;> exact hy.symm

/-- A transaction leaves a connection stuck when the store ends it. -/
theorem hasStuck_transact {α : Type} {act : Store → Except Error (α × Store)}
    (hy : (x.transact act).2.HasStuck) :
    x.HasStuck ∨ ∃ e, act x.store = .error e ∧ e.endsTransaction = true := by
  unfold transact at hy
  split_ifs at hy with hstuck
  · exact .inl (.inl hstuck)
  · split at hy
    · exact .inl hy.symm
    · next e he =>
      rcases hy with hy | hy
      · exact .inl (.inr hy)
      · exact .inr ⟨e, he, hy⟩

theorem hasStuck_deleteRecording (hnone : x.store.NoRollback) {id : ℤ} {lookback : ℕ} {now : Time}
    (hy : (x.deleteRecording id lookback now).2.HasStuck) : x.HasStuck := by
  refine (hasStuck_transact hy).resolve_right ?_
  rintro ⟨e, he, hends⟩
  rw [Store.endsTransaction_of_deleteRecording hnone he] at hends
  cases hends

/-- A session whose connections are stuck only if they were before, while no trigger rolls back. -/
structure Follows (x y : Session) : Prop where
  steps : Relation.ReflTransGen Store.Step x.store y.store
  stuck : x.store.NoRollback → y.HasStuck → x.HasStuck

theorem follows_deleteEach (lookback : ℕ) (now : Time) (byName : Bool) (ids : List ℤ) (x : Session) :
    x.Follows (Store.deleteEach (fun id x => x.deleteRecording id lookback now) byName ids x).2 :=
  related_deleteEach (fun _ => ⟨.refl, fun _ => id⟩)
    (fun h h' => ⟨h.steps.trans h'.steps, fun hnone hz =>
      h.stuck hnone (h'.stuck (hnone.steps h.steps) hz)⟩)
    (fun id x => ⟨steps_deleteRecording x id lookback now, fun hnone hy =>
      hasStuck_deleteRecording hnone hy⟩) byName ids x

theorem hasStuck_deleteRecordings (hnone : x.store.NoRollback) {camera : String} {scope : Scope}
    {lookback : ℕ} {now : Time}
    (hy : (x.deleteRecordings camera scope lookback now).2.HasStuck) : x.HasStuck := by
  unfold deleteRecordings at hy
  split at hy
  · split_ifs at hy
    · exact hy.symm
    · exact hy
  · exact ((follows_deleteEach lookback now _ _ x.turn).stuck hnone hy).symm

theorem hasStuck_insertFragment (hs : x.store.Sound) {file : NewFile} {metadata : NewMeta} {now : Time}
    (hy : (x.insertFragment file metadata now).2.HasStuck) : x.HasStuck ∨ ¬ x.store.HasRoom := by
  unfold insertFragment at hy
  split_ifs at hy
  · refine (hasStuck_transact hy).imp_right ?_
    rintro ⟨e, he, hends⟩ hroom
    rw [Store.failsAs_insertFragment hs hroom file metadata now e he] at hends
    cases hends
  · exact .inl hy

theorem hasStuck_perform (hs : x.store.Sound) (hnone : x.store.NoRollback) {op : Operation}
    (hy : (x.perform op).2.HasStuck) :
    x.HasStuck ∨ ¬ x.store.HasRoom := by
  cases op with
  | insertFragment file metadata now => exact hasStuck_insertFragment hs hy
  | deleteRecording id lookback now => exact .inl (hasStuck_deleteRecording hnone hy)
  | deleteRecordings camera scope lookback now => exact .inl (hasStuck_deleteRecordings hnone hy)
  | read uses => exact .inl ((hasStuck_turns x uses).1 hy)
  | _ =>
    rw [perform] at hy
    exact .inl (hasStuck_change hy)

theorem Sound.perform (hx : x.Sound) (op : Operation) : (x.perform op).2.Sound := by
  have hadvances := advances_perform hx.store (Prod.mk.eta (p := x.perform op)).symm
  refine ⟨hadvances.sound hx.store, hx.noRollback.steps hadvances.steps, fun hy hroom => ?_⟩
  have hroom := hroom.of_steps hx.store hadvances.steps
  rcases hasStuck_perform hx.store hx.noRollback hy with hstuck | hfull
  · exact hx.stuck hstuck hroom
  · exact hfull hroom

theorem Sound.run (hx : x.Sound) (ops : List Operation) : (run ops x).2.Sound := by
  induction ops generalizing x with
  | nil => exact hx
  | cons op ops ih => exact ih (hx.perform op)

/-- While a table has ids left, the connections begin transactions. -/
theorem Sound.isStuck_eq_false (hx : x.Sound) (hroom : x.store.HasRoom) : x.isStuck = false :=
  Bool.eq_false_iff.2 fun h => hx.stuck (.inl h) hroom

/-! ### Fragments -/

/-- An insertion that fails leaves the store. -/
theorem store_of_insertFragment {file : NewFile} {metadata : NewMeta} {now : Time} {e : Error}
    (h : x.insertFragment file metadata now = (.error e, y)) : y.store = x.store := by
  rcases insertFragment_cases h with ⟨ids, -, ⟨⟩⟩ | ⟨-, hstore⟩
  exact hstore

/-- Over connections a fragment is written as the store writes it. -/
theorem insertFragment_eq_ok_iff (hx : x.Sound) {file : NewFile} (hfile : file.Writable)
    {metadata : NewMeta} {now : Time} {ids : ℤ × ℤ} :
    x.insertFragment file metadata now = (.ok ids, y) ↔
      file.placement.path = metadata.path ∧ x.store.hasFile file.placement.path = false ∧
      x.store.HasRoom ∧ (∀ d ∈ metadata.duration, d.isFinite) ∧
      ids = (x.store.files.lastId + 1, x.store.filesMeta.lastId + 1) ∧
      y = { x.turn with store := x.store.withFragment file metadata now } := by
  constructor
  · intro h
    unfold insertFragment transact at h
    split_ifs at h with hpath hstuck
    · cases h
    · split at h
      · next ids' s' hinsert =>
        obtain ⟨-, hfree, hroom, hfinite, hids, rfl⟩ := (Store.insertFragment_eq_ok_iff hx.store hfile).1 hinsert
        cases h
        exact ⟨hpath, hfree, hroom, hfinite, hids, rfl⟩
      · cases h
    · cases h
  · rintro ⟨hpath, hfree, hroom, hfinite, rfl, rfl⟩
    have hinsert : x.store.insertFragment file metadata now = .ok (_, _) :=
      (Store.insertFragment_eq_ok_iff hx.store hfile).2 ⟨hpath, hfree, hroom, hfinite, rfl, rfl⟩
    have hstuck := hx.isStuck_eq_false hroom
    rw [insertFragment, if_pos hpath, transact, hstuck, if_neg Bool.false_ne_true, hinsert]

/-- Whatever a session has been asked over a store that is reached, a fragment is written whole or
not at all. It is written exactly if both halves have one path that no file has, both tables have
ids left, and the length of play is finite, which it is whatever the metadata holds that it is
lifted out of. It is read back as it was written, with the double that its column makes of the length
of play. What fails leaves the store, also where the row of the file was written before. -/
theorem insertFragment_allOrNothing (hs : s.Reachable) (ops : List Operation) (file : NewFile)
    (now : Time) :
    let x := (run ops (.ofStore s)).2
    let path := file.placement.path
    let ids := (x.store.files.lastId + 1, x.store.filesMeta.lastId + 1)
    (∀ metadata e y, x.insertFragment file metadata now = (.error e, y) → y.store = x.store) ∧
    (file.Writable →
      (∀ metadata, (∃ y, x.insertFragment file metadata now = (.ok ids, y)) ↔
        path = metadata.path ∧ x.store.hasFile path = false ∧ x.store.HasRoom ∧
          ∀ d ∈ metadata.duration, d.isFinite) ∧
      (∀ content, (∃ y, x.insertFragment file (.ofContent path content) now = (.ok ids, y)) ↔
        x.store.hasFile path = false ∧ x.store.HasRoom) ∧
      (∀ metadata answer y, x.insertFragment file metadata now = (.ok answer, y) →
        answer = ids ∧ y.store = x.store.withFragment file metadata now ∧
          y.store.Shows file metadata now ids) ∧
      ∀ metadata, path = metadata.path → x.store.hasFile path = false → x.store.HasRoom →
        (∃ d ∈ metadata.duration, ¬ d.isFinite) →
          x.store.insertFile file now = .ok (ids.1, x.store.withFile file now) ∧
          ∃ name, (x.insertFragment file metadata now).1 = .error (.store (.unknownColumn name))) := by
  intro x path ids
  have hx : x.Sound := (sound_ofStore hs).run ops
  refine ⟨fun _ _ _ => store_of_insertFragment, fun hfile => ⟨fun metadata => ?_, fun content => ?_,
    fun metadata answer y h => ?_, fun metadata hpath hfree hroom hd => ?_⟩⟩
  · simp only [insertFragment_eq_ok_iff hx hfile]
    constructor
    · rintro ⟨y, hpath, hfree, hroom, hfinite, -⟩
      exact ⟨hpath, hfree, hroom, hfinite⟩
    · rintro ⟨hpath, hfree, hroom, hfinite⟩
      exact ⟨_, hpath, hfree, hroom, hfinite, rfl, rfl⟩
  · simp only [insertFragment_eq_ok_iff hx hfile]
    constructor
    · rintro ⟨y, -, hfree, hroom, -⟩
      exact ⟨hfree, hroom⟩
    · rintro ⟨hfree, hroom⟩
      exact ⟨_, rfl, hfree, hroom, isFinite_durationOf, rfl, rfl⟩
  · obtain ⟨hpath, hfree, hroom, hfinite, rfl, rfl⟩ := (insertFragment_eq_ok_iff hx hfile).1 h
    exact ⟨rfl, rfl, hx.store.shows_withFragment hfile hpath hfree hfinite now⟩
  · obtain ⟨hinsert, name, hname⟩ :=
      Store.insertFragment_of_not_finite hx.store hfile hpath hfree hroom hd now
    refine ⟨hinsert, name, ?_⟩
    rw [insertFragment, if_pos hpath, transact, hx.isStuck_eq_false hroom,
      if_neg Bool.false_ne_true, hname]

/-! ### A fragment with a nested text -/

def midnight : Time := (Time.ofSeconds? 86400).get (by decide)

def camFragment : NewFile := ⟨⟨0, "/m/1.m4s", "/m", "1.m4s"⟩, "cam", recorderCategory, 1024⟩

theorem writable_camFragment : camFragment.Writable :=
  ⟨by decide, by decide, by decide, by decide, by decide⟩

/-- Metadata of a fragment with a text for its length of play. -/
def playing (text : String) (others : Json.Fields) : Json.Fields :=
  .cons "m3u8" (.object (.cons "EXTINF" (.string text) others)) .nil

/-- A text that is no finite number, and under it an array with an object and a quote. -/
def endless : Json.Fields :=
  playing "inf" (.cons "parts" (.array (.cons (.object (.cons "a" (.number (.integer (-1))) .nil))
    (.cons (.string "\"\n") .nil))) .nil)

/-- The store with another fragment. -/
def withEarlier : Store :=
  (run [.insertFragment { camFragment with placement := ⟨0, "/m/0.m4s", "/m", "0.m4s"⟩ }
    ⟨"/m/0.m4s", none, .nil⟩ midnight] (.ofStore .fresh)).2.store

/-- The fragment was refused for a length of play that is not finite. -/
def refusedOnce : List Operation := [.insertFragment camFragment ⟨"/m/1.m4s", some .nan, .nil⟩ midnight]

theorem insertFragment_allOrNothing_endless :
    let x := (run refusedOnce (.ofStore withEarlier)).2
    withEarlier.Reachable ∧ camFragment.Writable ∧ (Json.Value.object endless).Legible ∧
    (Json.Value.object endless).height ≤ Json.metadataDepth ∧
    ∃ y, x.insertFragment camFragment (.ofContent "/m/1.m4s" endless) midnight = (.ok (2, 2), y) ∧
      y.store.file? "/m/1.m4s" = .ok (some (camFragment.filed 2 midnight)) ∧
      y.store.fileMeta? "/m/1.m4s" =
        .ok (some ((NewMeta.ofContent "/m/1.m4s" endless).filed none 2 midnight)) := by
  intro x
  have hreach : withEarlier.Reachable := reachable_run _
  have hlegible : (Json.Value.object endless).Legible := by decide
  have hheight : (Json.Value.object endless).height ≤ Json.metadataDepth := by decide
  have hids : (x.store.files.lastId + 1, x.store.filesMeta.lastId + 1) = (2, 2) := by with_unfolding_all decide
  have hlifted : durationOf? endless = none := by decide
  obtain ⟨-, hwritten⟩ := insertFragment_allOrNothing hreach refusedOnce camFragment midnight
  obtain ⟨-, hiff, hshows, -⟩ := hwritten writable_camFragment
  obtain ⟨y, hy⟩ := (hiff endless).2 ⟨by with_unfolding_all decide, by with_unfolding_all decide⟩
  obtain ⟨-, -, hshown⟩ := hshows _ _ y hy
  obtain ⟨duration, hduration, -, hmeta⟩ := hshown.metadata hlegible hheight
  obtain rfl : duration = none := by
    rw [NewMeta.ofContent, hlifted, Option.map_none] at hduration
    exact Option.map_eq_none_iff.1 hduration.symm
  have hread := hshown.file
  rw [hids] at hy hread hmeta
  exact ⟨hreach, writable_camFragment, hlegible, hheight, y, hy, hread, hmeta⟩

/-! ### Where fragments are not read back, or not written -/

/-- The files of a session that has nothing else to do. -/
def filler (k : ℕ) : NewFile :=
  ⟨⟨0, String.ofList (List.replicate k 'f'), "", ""⟩, "", "", 0⟩

def fillers (n : ℕ) : List Operation := (List.range n).map fun k => .insertFile (filler k) midnight

theorem writable_filler (k : ℕ) : (filler k).Writable := by
  have hempty : Sql.Writable "" := by decide
  refine ⟨hempty, hempty, ?_, hempty, hempty⟩
  intro h
  rw [filler, String.toList_ofList] at h
  exact absurd (List.eq_of_mem_replicate h) (by decide)

theorem filler_path_inj {j k : ℕ} (h : (filler j).placement.path = (filler k).placement.path) :
    j = k := by
  have hlength := congrArg (fun path : String => path.toList.length) h
  simpa [filler] using hlength

theorem store_insertFile {file : NewFile} {now : Time} {id : ℤ}
    (h : x.store.insertFile file now = .ok (id, s')) :
    (x.perform (.insertFile file now)).2.store = s' := by
  rw [perform, change]
  simp only [h, ok_bind, pure_eq_ok]

/-- Files are numbered until the last id is handed out. -/
theorem files_run_fillers (n : ℕ) (hn : (n : ℤ) ≤ Numeral.greatestWord) :
    let s := (run (fillers n) (.ofStore .fresh)).2.store
    s.files.lastId = n ∧ ∀ r ∈ s.files.rows, ∃ k < n, r.path = (filler k).placement.path := by
  induction n with
  | zero =>
    refine ⟨rfl, fun r hr => ?_⟩
    cases hr
  | succ n ih =>
    obtain ⟨hlast, hpaths⟩ := ih (by push_cast at hn; omega)
    have hsound := ((sound_ofStore .refl).run (fillers n)).store
    have hrun : (run (fillers (n + 1)) (.ofStore .fresh)).2 =
        ((run (fillers n) (.ofStore .fresh)).2.perform (.insertFile (filler n) midnight)).2 := by
      rw [fillers, List.range_succ, List.map_append, run_append]
      rfl
    rw [hrun]
    generalize (run (fillers n) (.ofStore .fresh)).2 = x at hlast hpaths hsound
    have hfree : x.store.hasFile (filler n).placement.path = false := by
      rw [Bool.eq_false_iff]
      intro htaken
      obtain ⟨r, hr, hpath⟩ := Store.hasFile_eq_true_iff.1 htaken
      obtain ⟨k, hk, hrpath⟩ := hpaths r hr
      exact hk.ne (filler_path_inj (hrpath.symm.trans hpath))
    have hinsert : x.store.insertFile (filler n) midnight =
        .ok (x.store.files.lastId + 1, x.store.withFile (filler n) midnight) := by
      rw [Store.insertFile_eq hsound (writable_filler n), if_pos (by rw [hlast]; omega), hfree,
        if_neg Bool.false_ne_true]
    rw [store_insertFile hinsert]
    refine ⟨?_, fun r hr => ?_⟩
    · show x.store.files.lastId + 1 = ((n + 1 : ℕ) : ℤ)
      rw [hlast]
      push_cast
      rfl
    · rcases List.mem_append.1 hr with hr | hr
      · obtain ⟨k, hk, hpath⟩ := hpaths r hr
        exact ⟨k, hk.trans n.lt_succ_self, hpath⟩
      · rw [List.mem_singleton.1 hr]
        exact ⟨n, n.lt_succ_self, rfl⟩

/-- Once the last id is handed out, no fragment is written to a path that is free. -/
theorem exists_full : ∃ ops, let x := (run ops (.ofStore .fresh)).2
    x.store.hasFile camFragment.placement.path = false ∧
    ∀ metadata answer y, x.insertFragment camFragment metadata midnight ≠ (.ok answer, y) := by
  obtain ⟨n, hn⟩ : ∃ n : ℕ, (n : ℤ) = Numeral.greatestWord :=
    ⟨Numeral.greatestWord.toNat, Int.toNat_of_nonneg (by decide)⟩
  obtain ⟨hlast, hpaths⟩ := files_run_fillers n hn.le
  refine ⟨fillers n, ?_, fun metadata answer y h => ?_⟩
  · rw [Bool.eq_false_iff]
    intro htaken
    obtain ⟨r, hr, hpath⟩ := Store.hasFile_eq_true_iff.1 htaken
    obtain ⟨k, -, hrpath⟩ := hpaths r hr
    have hslash : '/' ∈ List.replicate k 'f' := by
      have htext := congrArg String.toList (hrpath.symm.trans hpath)
      rw [filler, String.toList_ofList] at htext
      rw [htext]
      decide
    exact absurd (List.eq_of_mem_replicate hslash) (by decide)
  · have hx := (sound_ofStore .refl).run (fillers n)
    obtain ⟨-, -, hroom, -⟩ := (insertFragment_eq_ok_iff hx writable_camFragment).1 h
    exact absurd hroom.1 (by rw [hlast, hn]; exact lt_irrefl _)

/-- A length of play whose numeral is read as the double before it. -/
def rounded : Json.Fields := playing "5.3608076833328" .nil

/-- An object that stands for an embedded text once it is written. -/
def embedding : Json.Fields :=
  .cons Json.embeddingName (.string "5") (.cons "a" (.number (.integer 1)) .nil)

/-- A fragment is the first thing that a new database is given. -/
def writtenFirst (content : Json.Fields) : Except Error (ℤ × ℤ) × Session :=
  (Session.ofStore .fresh).insertFragment camFragment (.ofContent camFragment.placement.path content)
    midnight

/-- A length of play can be read back as another double, metadata that begins with the embedding name
is not read back, and once ids are used up a fragment is not written although its path is free. -/
theorem not_readBack_insertFragment :
    ((Json.Value.object rounded).height ≤ Json.metadataDepth ∧
      (Json.Value.object rounded).Legible ∧ (writtenFirst rounded).1 = .ok (1, 1) ∧
      ∃ x d, (writtenFirst rounded).2.store.fileMeta? camFragment.placement.path = .ok (some x) ∧
        durationOf? rounded = some d ∧ x.duration ≠ some d) ∧
    ((Json.Value.object embedding).height ≤ Json.metadataDepth ∧
      embedding.names.Pairwise (· < ·) ∧ embedding.Legible ∧
      (writtenFirst embedding).1 = .ok (1, 1) ∧
      (writtenFirst embedding).2.store.fileMeta? camFragment.placement.path = .error .json) ∧
    ∃ ops, let x := (run ops (.ofStore .fresh)).2
      x.store.hasFile camFragment.placement.path = false ∧
      ∀ metadata answer y, x.insertFragment camFragment metadata midnight ≠ (.ok answer, y) := by
  refine ⟨⟨by decide, by decide, by decide +kernel, ?_⟩, ⟨by decide, by decide,
    by decide, by with_unfolding_all decide, by decide +kernel⟩, exists_full⟩
  -- The two doubles are neighbours.
  refine ⟨(NewMeta.ofContent camFragment.placement.path rounded).filed
    (some (.number false ⟨4617721751298653526, by decide⟩)) 1 midnight,
    .number false ⟨4617721751298653527, by decide⟩, ?_, ?_, ?_⟩
  · decide +kernel
  · decide +kernel
  · decide

end Session

end Footage
