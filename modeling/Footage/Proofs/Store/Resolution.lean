import Footage.Proofs.Fragment.Order
import Footage.Proofs.Fragment.Prefilter
import Footage.Proofs.Store.Reading

/-! Resolving a window. Over rows with columns of their types the reader never fails,
and what it lists is what the columns say: a file and its metadata that make a
fragment in the window, once, in the order of fragments. Rows that break the
contract on names, times or metadata are passed over and hide no other. -/

namespace Footage

open Outcome Sql

/-- What makes a file and a metadata row a fragment of a camera that starts at `t` in a window. -/
structure IsFragment (camera : String) (w : Window) (r : FileRow) (m : MetaRow) (t : Timestamp)
    (why : Inclusion) : Prop where
  camera : r.camera = camera
  category : r.category = recorderCategory
  path : fragmentExtension.toList <:+ r.path.toList
  createdAt : r.createdAt.IsTime
  updatedAt : r.updatedAt.IsOptionalTime
  name : t.Starts r.filename
  metaPath : m.path = r.path
  metaObject : m.IsObject
  metaCreatedAt : m.createdAt.IsTime
  metaUpdatedAt : m.updatedAt.IsOptionalTime
  included : ∃ d, m.duration = .ofOption .real d ∧ w.Includes t d why

theorem IsFragment.includes {camera : String} {w : Window} {r : FileRow} {m : MetaRow}
    {t : Timestamp} {why : Inclusion} (h : IsFragment camera w r m t why) {x : FileMeta}
    (hx : m.read = .ok x) : w.Includes t x.duration why := by
  obtain ⟨d, hd, hin⟩ := h.included
  rw [(MetaRow.read_eq_ok_iff.1 hx).2.1] at hd
  cases hx : x.duration <;> cases d <;> simp_all [Value.ofOption]

/-- What the pattern for paths looks at: the path up to its first null character, where the case of
letters does not count. -/
def FileRow.IsListed (r : FileRow) : Prop :=
  Value.EndsLike fragmentExtension.toList (Value.visible r.path)

/-- Without a null character the pattern sees the whole path. -/
theorem FileRow.isListed_of_writable {r : FileRow} (hpath : Writable r.path)
    (h : fragmentExtension.toList <:+ r.path.toList) : r.IsListed := by
  rw [IsListed, Value.visible_of_writable hpath]
  exact .of_suffix h

/-- The columns hold values of their types, and the tables keep their keys: ids are in order, and a
path has one row of metadata. -/
structure Store.Declared (s : Store) : Prop where
  files : ∀ r ∈ s.files.rows, r.Typed
  metas : ∀ m ∈ s.filesMeta.rows, m.Typed
  fileIds : s.files.rows.Pairwise fun q r => q.id < r.id
  metaPaths : (s.filesMeta.rows.map MetaRow.path).Nodup

/-! ### Reading a row -/

namespace FragmentRow

/-- The columns of a file and of its metadata hold values of their types. -/
def Typed (r : FragmentRow) : Prop := r.file.Typed ∧ ∀ m, r.metadata = some m → m.Typed

theorem readMeta_eq_ok_iff {r : FragmentRow} {x : FileMeta} :
    r.readMeta = .ok x ↔ ∃ m, r.metadata = some m ∧ m.read = .ok x := by
  unfold readMeta
  cases r.metadata with
  | none => simp
  | some m =>
    simp only [Option.some.injEq, exists_eq_left']
    split
    · next h => simp [h]
    · rfl

theorem readMeta_error {r : FragmentRow} (h : r.Typed) {e : Error} (he : r.readMeta = .error e) :
    ∃ fault, e = .dataIntegrity fault := by
  unfold readMeta at he
  cases hm : r.metadata with
  | none =>
    rw [hm] at he
    cases he
    exact ⟨_, rfl⟩
  | some m =>
    rw [hm] at he
    simp only at he
    split at he
    · cases he
      exact ⟨_, rfl⟩
    · next hno =>
      rcases MetaRow.read_error (h.2 m hm) he with rfl | hfault
      · exact absurd he hno
      · exact hfault

/-- A row is read as a fragment when its file and metadata are, its path ends and its name starts
as those of fragments do, and the window includes it. -/
theorem read_eq_some_iff {w : Window} {r : FragmentRow} {f : Fragment} :
    r.read w = .ok (some f) ↔
      r.file.read = .ok f.file ∧ fragmentExtension.toList <:+ r.file.path.toList ∧
      f.start.Starts r.file.filename ∧
      (∃ m, r.metadata = some m ∧ m.read = .ok f.metadata) ∧
      w.Includes f.start f.metadata.duration f.inclusion := by
  rw [← readMeta_eq_ok_iff, ← Window.admits_eq_some_iff, ← Timestamp.decode_eq_ok_iff]
  simp only [read, bind_eq_ok_iff]
  constructor
  · rintro ⟨file, hfile, h⟩
    obtain ⟨-, -, -, -, hpath, -, hname, -⟩ := FileRow.read_eq_ok_iff.1 hfile
    rw [hpath, hname] at h
    split_ifs at h with hsuffix
    · cases h
    · obtain ⟨t, ht, h⟩ := bind_eq_ok_iff.1 h
      obtain ⟨x, hx, h⟩ := bind_eq_ok_iff.1 h
      obtain ⟨why, hwhy, rfl⟩ := Option.map_eq_some_iff.1 (Except.ok.inj h)
      exact ⟨hfile, by simpa using hsuffix, mapError_eq_ok_iff.1 ht, hx, hwhy⟩
  · rintro ⟨hfile, hsuffix, ht, hx, hwhy⟩
    obtain ⟨-, -, -, -, hpath, -, hname, -⟩ := FileRow.read_eq_ok_iff.1 hfile
    refine ⟨_, hfile, ?_⟩
    rw [hpath, hname, ht, hx, if_neg (by simpa using hsuffix)]
    simp only [Except.mapError, ok_bind, pure_eq_ok, hwhy, Option.map_some]

theorem read_error {w : Window} {r : FragmentRow} (h : r.Typed) {e : Error}
    (he : r.read w = .error e) : ∃ fault, e = .dataIntegrity fault := by
  simp only [read, bind_eq_error_iff] at he
  rcases he with he | ⟨file, -, he⟩
  · exact FileRow.read_error h.1 he
  split_ifs at he
  · cases he
  rcases bind_eq_error_iff.1 he with he | ⟨t, -, he⟩
  · cases hd : Timestamp.decode file.placement.filename with
    | ok t => rw [hd] at he; cases he
    | error cause => rw [hd] at he; cases he; exact ⟨_, rfl⟩
  · rcases bind_eq_error_iff.1 he with he | ⟨x, -, he⟩
    · exact readMeta_error h he
    · cases he

/-- The fragment that a row is read as, if it is. -/
def fragment? (w : Window) (r : FragmentRow) : Option Fragment := (r.read w).toOption.join

theorem fragment?_eq_some_iff {w : Window} {r : FragmentRow} {f : Fragment} :
    r.fragment? w = some f ↔ r.read w = .ok (some f) := by
  unfold fragment?
  cases r.read w <;> simp [Except.toOption]

end FragmentRow

namespace Store

/-- Rows with columns of their types are read, and those that are no fragments left out. -/
theorem readFragments_eq {w : Window} {rows : List FragmentRow} (h : ∀ r ∈ rows, r.Typed) :
    readFragments w rows = .ok (rows.filterMap (FragmentRow.fragment? w)) := by
  induction rows with
  | nil => rfl
  | cons r rows ih =>
    have ih := ih fun q hq => h q (List.mem_cons_of_mem _ hq)
    rw [readFragments, List.filterMap_cons, FragmentRow.fragment?]
    split
    · next found hr =>
      rw [ih, hr]
      cases found <;> rfl
    · next fault hr =>
      rw [ih, hr]
      rfl
    · next e hno hr =>
      obtain ⟨fault, rfl⟩ := FragmentRow.read_error (h r List.mem_cons_self) hr
      exact absurd rfl (hno fault)

/-! ### Candidates -/

theorem metaRow?_eq_some_iff {s : Store} (hs : s.Declared) {path : String} {m : MetaRow} :
    s.metaRow? path = some m ↔ m ∈ s.filesMeta.rows ∧ m.path = path :=
  find?_key_eq_some_iff hs.metaPaths

theorem typed_of_mem_fragmentRows {s : Store} (hs : s.Declared) {r : FragmentRow}
    (hr : r ∈ s.fragmentRows) : r.Typed := by
  obtain ⟨q, hq, rfl⟩ := List.mem_map.1 hr
  exact ⟨hs.files q hq, fun m hm => hs.metas m ((metaRow?_eq_some_iff hs).1 hm).1⟩

/-- A file and its metadata row are a fragment of a camera in a window. -/
def Resolves (s : Store) (camera : String) (w : Window) (f : Fragment) : Prop :=
  ∃ r ∈ s.files.rows, ∃ m ∈ s.filesMeta.rows,
    r.read = .ok f.file ∧ m.read = .ok f.metadata ∧ r.IsListed ∧
      IsFragment camera w r m f.start f.inclusion

/-- The rows that the query selects and the reader keeps are those of fragments. -/
theorem resolves_iff {s : Store} (hs : s.Declared) {camera : String} {w : Window} {f : Fragment} :
    s.Resolves camera w f ↔
      ∃ r ∈ s.fragmentRows, (Query.Files.inWindow camera w).condition.holds r.value ∧
        r.fragment? w = some f := by
  constructor
  · rintro ⟨r, hr, m, hm, hfile, hmeta, hlisted, h⟩
    have hrow : s.metaRow? r.path = some m := (metaRow?_eq_some_iff hs).2 ⟨hm, h.metaPath⟩
    have hduration := (MetaRow.read_eq_ok_iff.1 hmeta).2.1
    have hin := h.includes hmeta
    refine ⟨⟨r, s.metaRow? r.path⟩, List.mem_map_of_mem hr, ?_, ?_⟩
    · refine Query.Files.holds_inWindow.2 ⟨⟨h.camera, h.category, hlisted⟩, ?_⟩
      refine Query.Files.holds_startTest_of_admits h.name (d := f.metadata.duration) ?_
        (Window.admits_eq_some_iff.2 hin)
      rw [hrow]
      exact hduration
    · rw [FragmentRow.fragment?_eq_some_iff, FragmentRow.read_eq_some_iff]
      exact ⟨hfile, h.path, h.name, ⟨m, hrow, hmeta⟩, hin⟩
  · rintro ⟨q, hq, hholds, hread⟩
    obtain ⟨r, hr, rfl⟩ := List.mem_map.1 hq
    obtain ⟨⟨hcamera, hcategory, hlisted⟩, -⟩ := Query.Files.holds_inWindow.1 hholds
    rw [FragmentRow.fragment?_eq_some_iff, FragmentRow.read_eq_some_iff] at hread
    obtain ⟨hfile, hpath, hname, ⟨m, hrow, hmeta⟩, hin⟩ := hread
    obtain ⟨hm, hmetaPath⟩ := (metaRow?_eq_some_iff hs).1 hrow
    obtain ⟨hcreated, hupdated⟩ := (FileRow.exists_read_iff (hs.files r hr)).1 ⟨_, hfile⟩
    obtain ⟨hobject, hcreated', hupdated'⟩ := (MetaRow.exists_read_iff (hs.metas m hm)).1 ⟨_, hmeta⟩
    exact ⟨r, hr, m, hm, hfile, hmeta, hlisted, hcamera, hcategory, hpath, hcreated, hupdated, hname,
      hmetaPath, hobject, hcreated', hupdated', _, (MetaRow.read_eq_ok_iff.1 hmeta).2.1, hin⟩

/-! ### The order of the listing -/

/-- The rows that the query selects come by name, and by id where they share one. -/
theorem pairwise_candidates {s : Store} (hs : s.Declared) (camera : String) (w : Window) :
    ((Query.Files.inWindow camera w).rows FragmentRow.value s.fragmentRows).Pairwise fun q r =>
      r.file.filename ≤ q.file.filename → q.file.id < r.file.id := by
  have hcompare (q r : FragmentRow) :
      (compareBy (Query.Files.inWindow camera w).order q.value r.value).isLE ↔
        q.file.filename ≤ r.file.filename := by
    rw [← isLE_compare_iff]
    change (((compare q.file.filename r.file.filename)).then .eq).isLE ↔ _
    rw [Ordering.then_eq]
  have hids : s.fragmentRows.Pairwise fun q r => q.file.id < r.file.id :=
    List.pairwise_map.2 hs.fileIds
  have hstable := pairwise_mergeSort_stable
    (fun q r : FragmentRow => (compareBy (Query.Files.inWindow camera w).order q.value r.value).isLE)
    (fun a b c hab hbc => (hcompare a c).2 (String.le_trans ((hcompare a b).1 hab) ((hcompare b c).1 hbc)))
    (fun a b => by
      rw [Bool.or_eq_true, hcompare, hcompare]
      exact String.le_total _ _)
    (hids.filter fun r => (Query.Files.inWindow camera w).condition.holds r.value)
  exact hstable.imp fun h hle => h.2 ((hcompare _ _).2 hle)

theorem pairwise_fragments {s : Store} (hs : s.Declared) (camera : String) (w : Window) :
    ((((Query.Files.inWindow camera w).rows FragmentRow.value s.fragmentRows).filterMap
      (FragmentRow.fragment? w)).mergeSort Fragment.le).Pairwise Fragment.Precedes := by
  apply Fragment.pairwise_precedes
  refine (pairwise_candidates hs camera w).filterMap _ ?_
  intro q r h f hf g hg hle
  rw [FragmentRow.fragment?_eq_some_iff, FragmentRow.read_eq_some_iff] at hf hg
  obtain ⟨-, -, -, -, -, -, hname, -, -, hid⟩ := FileRow.read_eq_ok_iff.1 hf.1
  obtain ⟨-, -, -, -, -, -, hname', -, -, hid'⟩ := FileRow.read_eq_ok_iff.1 hg.1
  rw [hname, hname'] at hle
  rw [hid, hid']
  exact h hle

/-! ### The listing -/

theorem accept_inWindow_iff (camera : String) (w : Window) :
    Sql.accept (Query.Files.inWindow camera w).pieces = .ok () ↔ Writable camera := by
  have htexts : (Query.Files.inWindow camera w).condition.texts =
      [camera, recorderCategory, "%" ++ fragmentExtension, w.start.encode, w.stop.encode,
        w.start.encode] := rfl
  rw [accept_eq_ok_iff, literals_select, htexts]
  simp only [List.forall_mem_cons, Timestamp.writable_encode, and_true, List.not_mem_nil,
    false_implies, implies_true]
  exact and_iff_left ⟨by decide, by decide⟩

/-- A camera that a statement can write has its fragments listed, each once and in order. -/
theorem exists_fragmentsIn {s : Store} (hs : s.Declared) {camera : String} (hc : Writable camera)
    (w : Window) :
    ∃ fs, s.fragmentsIn camera w = .ok fs ∧ fs.Pairwise Fragment.Precedes ∧
      ∀ f, f ∈ fs ↔ s.Resolves camera w f := by
  refine ⟨_, ?_, pairwise_fragments hs camera w, ?_⟩
  · have htyped : ∀ r ∈ (Query.Files.inWindow camera w).rows FragmentRow.value s.fragmentRows,
        r.Typed := fun r hr => typed_of_mem_fragmentRows hs ((mem_rows rfl).1 hr).1
    simp only [fragmentsIn, (accept_inWindow_iff camera w).2 hc, readFragments_eq htyped, ok_bind,
      pure_eq_ok]
  · intro f
    have hlimit : (Query.Files.inWindow camera w).limit = none := rfl
    rw [resolves_iff hs, List.mem_mergeSort, List.mem_filterMap]
    simp only [mem_rows hlimit, and_assoc]

/-- A statement that ends inside the name of a camera is refused. -/
theorem fragmentsIn_of_not_writable {s : Store} {camera : String} (hc : ¬ Writable camera)
    (w : Window) : ∃ token, s.fragmentsIn camera w = .error (.store (.openLiteral token)) := by
  rcases accept_cases (Query.Files.inWindow camera w).pieces with haccept | ⟨token, haccept⟩
  · exact absurd ((accept_inWindow_iff camera w).1 haccept) hc
  · exact ⟨token, by simp only [fragmentsIn, haccept, error_bind]⟩

/-- A file and its metadata row are read as the fragment that their columns make. -/
theorem exists_fragment {s : Store} (hs : s.Declared) {camera : String} {w : Window} {r : FileRow}
    (hr : r ∈ s.files.rows) {m : MetaRow} (hm : m ∈ s.filesMeta.rows) (hlisted : r.IsListed)
    {t : Timestamp} {why : Inclusion} (h : IsFragment camera w r m t why) :
    ∃ f, s.Resolves camera w f ∧ r.read = .ok f.file ∧ m.read = .ok f.metadata ∧
      f.start = t ∧ f.inclusion = why := by
  obtain ⟨file, hfile⟩ := (FileRow.exists_read_iff (hs.files r hr)).2 ⟨h.createdAt, h.updatedAt⟩
  obtain ⟨x, hx⟩ := (MetaRow.exists_read_iff (hs.metas m hm)).2
    ⟨h.metaObject, h.metaCreatedAt, h.metaUpdatedAt⟩
  exact ⟨⟨file, x, t, why⟩, ⟨r, hr, m, hm, hfile, hx, hlisted, h⟩, hfile, hx, rfl, rfl⟩

/-- Fragments of one file are one fragment. -/
theorem Resolves.eq_of_id_eq {s : Store} (hs : s.Declared) {camera : String} {w : Window}
    {f g : Fragment} (hf : s.Resolves camera w f) (hg : s.Resolves camera w g)
    (h : f.file.id = g.file.id) : f = g := by
  obtain ⟨q, hq, l, hl, hfile, hmeta, -, hfrag⟩ := hf
  obtain ⟨r, hr, m, hm, hfile', hmeta', -, hfrag'⟩ := hg
  have hids : (s.files.rows.map FileRow.id).Nodup :=
    List.pairwise_map.2 (hs.fileIds.imp fun h => Int.ne_of_lt h)
  have hid : q.id = r.id := by
    obtain ⟨-, -, -, -, -, -, -, -, -, hq⟩ := FileRow.read_eq_ok_iff.1 hfile
    obtain ⟨-, -, -, -, -, -, -, -, -, hr⟩ := FileRow.read_eq_ok_iff.1 hfile'
    rw [← hq, ← hr, h]
  obtain rfl := List.inj_on_of_nodup_map hids hq hr hid
  obtain rfl := List.inj_on_of_nodup_map hs.metaPaths hl hm
    (hfrag.metaPath.trans hfrag'.metaPath.symm)
  have hfiles := Except.ok.inj (hfile.symm.trans hfile')
  have hmetas := Except.ok.inj (hmeta.symm.trans hmeta')
  have hstart : f.start = g.start := hfrag.name.eq hfrag'.name
  have hinclusion : f.inclusion = g.inclusion := by
    have hf := Window.admits_eq_some_iff.2 (hfrag.includes hmeta)
    have hg := Window.admits_eq_some_iff.2 (hfrag'.includes hmeta')
    rw [hstart, hmetas] at hf
    exact Option.some.inj (hf.symm.trans hg)
  rcases f with ⟨file, x, t, why⟩
  cases hfiles
  cases hmetas
  cases hstart
  cases hinclusion
  rfl

/-- The resolver is exact up to what no statement sees. -/
theorem fragmentsIn_exact {s : Store} (hs : s.Declared) (camera : String) (w : Window) :
    (¬ Writable camera → ∃ token, s.fragmentsIn camera w = .error (.store (.openLiteral token))) ∧
    (Writable camera → ∃ fs, s.fragmentsIn camera w = .ok fs ∧
      fs.Pairwise Fragment.Precedes ∧ (fs.map fun f => f.file.id).Nodup ∧
      (∀ f ∈ fs, ∃ r ∈ s.files.rows, ∃ m ∈ s.filesMeta.rows,
        r.read = .ok f.file ∧ m.read = .ok f.metadata ∧ r.IsListed ∧
          IsFragment camera w r m f.start f.inclusion) ∧
      ∀ r ∈ s.files.rows, ∀ m ∈ s.filesMeta.rows, ∀ t why,
        Writable r.path ∨ r.IsListed → IsFragment camera w r m t why →
          ∃ f ∈ fs, r.read = .ok f.file ∧ m.read = .ok f.metadata ∧ f.start = t ∧
            f.inclusion = why) := by
  constructor
  · exact fun hc => fragmentsIn_of_not_writable hc w
  · intro hc
    obtain ⟨fs, hfs, hsorted, hmem⟩ := exists_fragmentsIn hs hc w
    refine ⟨fs, hfs, hsorted, ?_, fun f hf => (hmem f).1 hf, ?_⟩
    · refine List.pairwise_map.2 (hsorted.imp_of_mem ?_)
      intro f g hf hg hlt hid
      rw [((hmem f).1 hf).eq_of_id_eq hs ((hmem g).1 hg) hid] at hlt
      exact hlt.irrefl
    · intro r hr m hm t why hpath h
      have hlisted : r.IsListed := hpath.elim (fun hw => r.isListed_of_writable hw h.path) id
      obtain ⟨f, hf, hfragment⟩ := exists_fragment hs hr hm hlisted h
      exact ⟨f, (hmem f).2 hf, hfragment⟩

/-! ### A path that the pattern does not see to its end -/

/-- A recorder's file of one camera. -/
def recorded (id : ℤ) (path filename : String) : FileRow where
  id
  tier := .integer 0
  camera := "cam"
  category := recorderCategory
  path
  directory := "/m"
  filename
  size := .integer 1024
  createdAt := .integer 0
  updatedAt := .null

def recordedMeta (id : ℤ) (path : String) (seconds : ℕ) : MetaRow where
  id
  path
  duration := .real (.ofInt seconds)
  content := "\x7b\x7d"
  createdAt := .integer 0
  updatedAt := .null

/-- The second path goes on after a null character. -/
def nullInPath : Store :=
  { fresh with
    files := ⟨[recorded 1 "/m/a.m4s" "0000000990.m4s",
      recorded 2 "/m/x\x00y.m4s" "0000001000.m4s"], 2⟩
    filesMeta := ⟨[recordedMeta 1 "/m/a.m4s" 20, recordedMeta 2 "/m/x\x00y.m4s" 5], 2⟩ }

theorem declared_nullInPath : nullInPath.Declared where
  files := by
    intro r hr
    simp only [nullInPath, List.mem_cons, List.not_mem_nil, or_false] at hr
    rcases hr with rfl | rfl <;> exact ⟨⟨0, rfl⟩, ⟨1024, rfl⟩, ⟨0, rfl⟩, .inl rfl⟩
  metas := by
    intro m hm
    simp only [nullInPath, List.mem_cons, List.not_mem_nil, or_false] at hm
    rcases hm with rfl | rfl <;> exact ⟨.inr ⟨_, rfl⟩, ⟨0, rfl⟩, .inl rfl⟩
  fileIds := by decide
  metaPaths := by decide

/-- The window from the second 1000 to the second 2000. -/
def sampleWindow : Window := ⟨⟨1000, by decide⟩, ⟨2000, by decide⟩⟩

theorem isFragment_recorded {id : ℤ} {path filename : String} {seconds : ℕ} {t : Timestamp}
    {why : Inclusion} (hpath : fragmentExtension.toList <:+ path.toList) (hname : t.Starts filename)
    (hin : sampleWindow.Includes t (some (.ofInt seconds)) why) :
    IsFragment "cam" sampleWindow (recorded id path filename) (recordedMeta id path seconds) t why where
  camera := rfl
  category := rfl
  path := hpath
  createdAt := ⟨0, rfl, by decide, by decide⟩
  updatedAt := .inl rfl
  name := hname
  metaPath := rfl
  metaObject := by
    have hread : Json.read? Json.metadataDepth "\x7b\x7d" = some (.object .nil) := by decide
    exact ⟨_, hread⟩
  metaCreatedAt := ⟨0, rfl, by decide, by decide⟩
  metaUpdatedAt := .inl rfl
  included := ⟨_, rfl, hin⟩

/-- The file of the second path is a fragment by all its columns, and is not listed. -/
theorem not_listed_nullInPath :
    nullInPath.Declared ∧
    IsFragment "cam" sampleWindow (recorded 2 "/m/x\x00y.m4s" "0000001000.m4s")
      (recordedMeta 2 "/m/x\x00y.m4s" 5) ⟨1000, by decide⟩ .inWindow ∧
    (∃ fs, nullInPath.fragmentsIn "cam" sampleWindow = .ok fs ∧ ∀ f ∈ fs, f.file.id ≠ 2) ∧
    ∃ token, nullInPath.fragmentsIn "c\x00" sampleWindow = .error (.store (.openLiteral token)) := by
  refine ⟨declared_nullInPath, isFragment_recorded (by decide) ?_ ?_, ?_,
    fragmentsIn_of_not_writable (by decide) _⟩
  · exact ⟨"0000001000".toList, ".m4s".toList, by decide, by decide, by simp, by decide⟩
  · exact ⟨le_refl 1000, by decide⟩
  · obtain ⟨fs, hfs, -, hmem⟩ := exists_fragmentsIn declared_nullInPath
      (show Writable "cam" by decide) sampleWindow
    refine ⟨fs, hfs, fun f hf hid => ?_⟩
    obtain ⟨r, hr, m, -, hfile, -, hlisted, -⟩ := (hmem f).1 hf
    obtain ⟨-, -, -, -, -, -, -, -, -, hrid⟩ := FileRow.read_eq_ok_iff.1 hfile
    simp only [nullInPath, List.mem_cons, List.not_mem_nil, or_false] at hr
    rcases hr with rfl | rfl
    · exact absurd (hrid.symm.trans hid) (by decide)
    · rw [FileRow.IsListed, ← Value.matchesPattern_any Query.Files.letters_fragmentExtension] at hlisted
      exact absurd hlisted (by decide)

/-- The first file starts before the window and reaches into it. -/
theorem listed_nullInPath :
    nullInPath.Declared ∧ Writable "cam" ∧
    ∃ fs, nullInPath.fragmentsIn "cam" sampleWindow = .ok fs ∧
      ∃ f ∈ fs, f.start.seconds = 990 ∧ f.inclusion = .coversStart := by
  have hc : Writable "cam" := by decide
  obtain ⟨fs, hfs, -, -, -, hall⟩ := (fragmentsIn_exact declared_nullInPath "cam" sampleWindow).2 hc
  have hname : Timestamp.Starts ⟨990, by decide⟩ "0000000990.m4s" :=
    ⟨"0000000990".toList, ".m4s".toList, by decide, by decide, by simp, by decide⟩
  obtain ⟨f, hf, -, -, hstart, hwhy⟩ := hall _ List.mem_cons_self _ List.mem_cons_self _ _
    (.inl (by decide)) (isFragment_recorded (by decide) hname
      (Window.includes_coversStart (by decide) (by decide) (by decide)))
  exact ⟨declared_nullInPath, hc, fs, hfs, f, hf, congrArg Timestamp.seconds hstart, hwhy⟩

end Store

end Footage
