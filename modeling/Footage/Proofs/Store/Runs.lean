import Footage.Proofs.Store.History
import Footage.Store.Session

/-! Runs of operations over a session, whether they succeed or fail. What fails leaves the
store, and what succeeds is made of steps, so every run from a new database keeps the
invariant, hands out each id once and keeps metadata with its file. -/

namespace Footage

open Outcome

/-- What a store can be asked to do, and reading it. -/
inductive Operation where
  | insertFile (file : NewFile) (now : Time)
  | insertMeta (metadata : NewMeta) (now : Time)
  | insertFragment (file : NewFile) (metadata : NewMeta) (now : Time)
  | moveFile (oldPath : String) (placement : Placement) (now : Time)
  | insertRecording (r : NewRecording) (now : Time)
  | finishRecording (id : ℤ) (stop now : Time)
  | insertObject (d : Detection) (detected : Time)
  | insertMotion (camera : String) (start now : Time)
  | deleteRecording (id : ℤ) (lookback : ℕ) (now : Time)
  | deleteRecordings (camera : String) (scope : Scope) (lookback : ℕ) (now : Time)
  | blockDeletion
  | pairDeletion (first second : ℤ)
  | withSchema
  | read (uses : ℕ)
  deriving DecidableEq, Repr

/-- The ids that an operation answers with. -/
abbrev Issued := List (Kind × ℤ)

namespace Session

variable {x y : Session}

/-- The outcome of an operation with the ids that it hands out, and the session that it leaves. -/
def perform (x : Session) : Operation → Except Error Issued × Session
  | .insertFile file now => x.change fun s => do
    let (id, s) ← s.insertFile file now
    return ([(.file, id)], s)
  | .insertMeta metadata now => x.change fun s => do
    let (id, s) ← s.insertMeta metadata now
    return ([(.metadata, id)], s)
  | .insertFragment file metadata now =>
    let (ids, x) := x.insertFragment file metadata now
    (ids.map fun (f, m) => [(.file, f), (.metadata, m)], x)
  | .moveFile oldPath placement now => x.change fun s => return ([], ← s.moveFile oldPath placement now)
  | .insertRecording r now => x.change fun s => do
    let (id, s) ← s.insertRecording r now
    return ([(.recording, id)], s)
  | .finishRecording id stop now => x.change fun s => do
    let (_, s) ← s.finishRecording id stop now
    return ([], s)
  | .insertObject d detected => x.change fun s => do
    let (id, s) ← s.insertObject d detected
    return ([(.object, id)], s)
  | .insertMotion camera start now => x.change fun s => do
    let (id, s) ← s.insertMotion camera start now
    return ([(.motion, id)], s)
  | .deleteRecording id lookback now =>
    let (d, x) := x.deleteRecording id lookback now
    (d.map fun _ => [], x)
  | .deleteRecordings camera scope lookback now =>
    let (report, x) := x.deleteRecordings camera scope lookback now
    (report.map fun _ => [], x)
  | .blockDeletion => x.change fun s => return ([], ← s.blockDeletion)
  | .pairDeletion first second => x.change fun s => return ([], ← s.pairDeletion first second)
  | .withSchema => x.change fun s => return ([], ← s.withSchema)
  | .read uses => (.ok [], x.turns uses)

/-- The ids that some operations hand out one after the other, and the session that they leave. -/
def run : List Operation → Session → Issued × Session
  | [], x => ([], x)
  | op :: ops, x =>
    let (answer, y) := x.perform op
    let (ids, z) := run ops y
    (answer.toOption.getD [] ++ ids, z)

theorem run_append (ops ops' : List Operation) (x : Session) :
    (run (ops ++ ops') x).2 = (run ops' (run ops x).2).2 := by
  induction ops generalizing x with
  | nil => rfl
  | cons op ops ih => exact ih (x.perform op).2

/-! ### One operation -/

theorem change_cases {α : Type} {act : Store → Except Error (α × Store)} {answer : Except Error α}
    (h : x.change act = (answer, y)) :
    (∃ a, act x.store = .ok (a, y.store) ∧ answer = .ok a) ∨
      ((∃ e, answer = .error e) ∧ y.store = x.store) := by
  unfold change at h
  split at h
  · next a s hact =>
    cases h
    exact .inl ⟨a, hact, rfl⟩
  · next e hact =>
    cases h
    exact .inr ⟨⟨e, rfl⟩, rfl⟩

theorem transact_cases {α : Type} {act : Store → Except Error (α × Store)} {answer : Except Error α}
    (h : x.transact act = (answer, y)) :
    (∃ a, act x.store = .ok (a, y.store) ∧ answer = .ok a) ∨
      ((∃ e, answer = .error e) ∧ y.store = x.store) := by
  unfold transact at h
  split_ifs at h
  · cases h
    exact .inr ⟨⟨_, rfl⟩, rfl⟩
  · split at h
    · next a s hact =>
      cases h
      exact .inl ⟨a, hact, rfl⟩
    · next e hact =>
      cases h
      exact .inr ⟨⟨e, rfl⟩, rfl⟩

/-- An operation that adds a row answers with its id. -/
theorem adding_cases (act : Store → Except Error (ℤ × Store)) {k : Kind} {answer : Except Error Issued}
    (h : (x.change fun s => do
      let (id, s) ← act s
      return ([(k, id)], s)) = (answer, y)) :
    (∃ id, act x.store = .ok (id, y.store) ∧ answer = .ok [(k, id)]) ∨
      ((∃ e, answer = .error e) ∧ y.store = x.store) := by
  rcases change_cases h with ⟨ids, hids, hanswer⟩ | hfailed
  · obtain ⟨⟨id, s⟩, hs, heq⟩ := bind_eq_ok_iff.1 hids
    cases heq
    exact .inl ⟨id, hs, hanswer⟩
  · exact .inr hfailed

theorem insertFragment_cases {file : NewFile} {metadata : NewMeta} {now : Time}
    {answer : Except Error (ℤ × ℤ)} (h : x.insertFragment file metadata now = (answer, y)) :
    (∃ ids, x.store.insertFragment file metadata now = .ok (ids, y.store) ∧ answer = .ok ids) ∨
      ((∃ e, answer = .error e) ∧ y.store = x.store) := by
  unfold insertFragment at h
  split_ifs at h
  · exact transact_cases h
  · cases h
    exact .inr ⟨⟨_, rfl⟩, rfl⟩

end Session

namespace Store

variable {s s' t : Store}

/-- Steps lead from one store to another, and the ids are handed out on the way. -/
structure Advances (s s' : Store) (ids : Issued) : Prop where
  steps : Relation.ReflTransGen Step s s'
  nodup : ids.Nodup
  issued : ∀ p ∈ ids, s.lastId p.1 < p.2 ∧ p.2 ≤ s'.lastId p.1

theorem Advances.of_steps (h : Relation.ReflTransGen Step s s') : Advances s s' [] :=
  ⟨h, List.nodup_nil, fun p hp => by cases hp⟩

theorem Advances.refl (s : Store) : Advances s s [] := .of_steps .refl

theorem Advances.issue (h : Step s s') {k : Kind} {id : ℤ} (hlt : s.lastId k < id)
    (hle : id ≤ s'.lastId k) : Advances s s' [(k, id)] := by
  refine ⟨.single h, List.nodup_singleton _, fun p hp => ?_⟩
  rw [List.mem_singleton.1 hp]
  exact ⟨hlt, hle⟩

/-- Ids of a later part are beyond the last ids of the earlier one, so none comes twice. -/
theorem Advances.trans (hs : s.Sound) {ids ids' : Issued} (h : Advances s t ids)
    (h' : Advances t s' ids') : Advances s s' (ids ++ ids') := by
  refine ⟨h.steps.trans h'.steps, ?_, ?_⟩
  · rw [List.nodup_append]
    refine ⟨h.nodup, h'.nodup, ?_⟩
    rintro p hp q hq rfl
    have hle := (h.issued p hp).2
    have hlt := (h'.issued p hq).1
    omega
  · intro p hp
    have hmono := lastId_le_of_steps hs h.steps p.1
    have hmono' := lastId_le_of_steps (hs.steps h.steps) h'.steps p.1
    rcases List.mem_append.1 hp with hp | hp
    · have := h.issued p hp
      omega
    · have := h'.issued p hp
      omega

theorem Advances.sound (hs : s.Sound) {ids : Issued} (h : Advances s s' ids) : s'.Sound :=
  hs.steps h.steps

/-! ### New rows -/

theorem advances_insertFile (hs : s.Sound) {file : NewFile} {now : Time} {id : ℤ}
    (h : s.insertFile file now = .ok (id, s')) : Advances s s' [(.file, id)] := by
  obtain ⟨-, -, hid, rfl⟩ := insertFile_eq_ok h
  rw [hs.files.greatestId_eq] at hid
  exact .issue (.insertFile h) (by simp only [lastId]; omega) le_rfl

theorem advances_insertMeta (hs : s.Sound) {metadata : NewMeta} {now : Time} {id : ℤ}
    (h : s.insertMeta metadata now = .ok (id, s')) : Advances s s' [(.metadata, id)] := by
  obtain ⟨-, -, hid, rfl⟩ := insertMeta_eq_ok h
  rw [hs.filesMeta.greatestId_eq] at hid
  exact .issue (.insertMeta h) (by simp only [lastId]; omega) le_rfl

theorem advances_insertRecording (hs : s.Sound) {r : NewRecording} {now : Time} {id : ℤ}
    (h : s.insertRecording r now = .ok (id, s')) : Advances s s' [(.recording, id)] := by
  obtain ⟨-, hid, rfl⟩ := insertRecording_eq_ok h
  rw [hs.recordings.greatestId_eq] at hid
  exact .issue (.insertRecording h) (by simp only [lastId]; omega) le_rfl

theorem advances_insertObject (hs : s.Sound) {d : Detection} {detected : Time} {id : ℤ}
    (h : s.insertObject d detected = .ok (id, s')) : Advances s s' [(.object, id)] := by
  obtain ⟨hid, rfl⟩ := insertObject_eq_ok h
  rw [hs.objects.greatestId_eq] at hid
  exact .issue (.insertObject h) (by simp only [lastId]; omega) le_rfl

theorem advances_insertMotion (hs : s.Sound) {camera : String} {start now : Time} {id : ℤ}
    (h : s.insertMotion camera start now = .ok (id, s')) : Advances s s' [(.motion, id)] := by
  obtain ⟨hid, rfl⟩ := insertMotion_eq_ok h
  rw [hs.motion.greatestId_eq] at hid
  exact .issue (.insertMotion h) (by simp only [lastId]; omega) le_rfl

theorem insertFragment_eq_ok {file : NewFile} {metadata : NewMeta} {now : Time} {f m : ℤ}
    (h : s.insertFragment file metadata now = .ok ((f, m), s')) :
    file.placement.path = metadata.path ∧
      ∃ t, s.insertFile file now = .ok (f, t) ∧ t.insertMeta metadata now = .ok (m, s') := by
  unfold insertFragment at h
  by_cases hpath : file.placement.path = metadata.path
  · rw [if_neg (by simpa using hpath)] at h
    obtain ⟨⟨f', t⟩, ht, h⟩ := bind_eq_ok_iff.1 h
    obtain ⟨⟨m', u⟩, hu, h⟩ := bind_eq_ok_iff.1 h
    cases h
    exact ⟨hpath, t, ht, hu⟩
  · rw [if_pos hpath] at h
    cases h

theorem advances_insertFragment (hs : s.Sound) {file : NewFile} {metadata : NewMeta} {now : Time}
    {f m : ℤ} (h : s.insertFragment file metadata now = .ok ((f, m), s')) :
    Advances s s' [(.file, f), (.metadata, m)] := by
  obtain ⟨-, t, ht, hs'⟩ := insertFragment_eq_ok h
  have hfile := advances_insertFile hs ht
  exact hfile.trans hs (advances_insertMeta (hfile.sound hs) hs')

end Store

namespace Session

variable {x y : Session}

theorem advances_change {act : Store → Except Error (Issued × Store)} {answer : Except Error Issued}
    (hact : ∀ ids s', act x.store = .ok (ids, s') → Store.Advances x.store s' ids)
    (h : x.change act = (answer, y)) :
    Store.Advances x.store y.store (answer.toOption.getD []) := by
  rcases change_cases h with ⟨ids, hids, rfl⟩ | ⟨⟨e, rfl⟩, hstore⟩
  · exact hact ids y.store hids
  · rw [hstore]
    exact .refl _

theorem advances_adding (act : Store → Except Error (ℤ × Store)) {k : Kind}
    {answer : Except Error Issued}
    (hact : ∀ id s', act x.store = .ok (id, s') → Store.Advances x.store s' [(k, id)])
    (h : (x.change fun s => do
      let (id, s) ← act s
      return ([(k, id)], s)) = (answer, y)) :
    Store.Advances x.store y.store (answer.toOption.getD []) := by
  rcases adding_cases act h with ⟨id, hid, rfl⟩ | ⟨⟨e, rfl⟩, hstore⟩
  · exact hact id y.store hid
  · rw [hstore]
    exact .refl _

/-- An operation that is a step answers with no id. -/
theorem advances_step (act : Store → Except Error Store) {answer : Except Error Issued}
    (hact : ∀ s', act x.store = .ok s' → Store.Step x.store s')
    (h : (x.change fun s => return ([], ← act s)) = (answer, y)) :
    Store.Advances x.store y.store (answer.toOption.getD []) := by
  refine advances_change (fun ids s' hs' => ?_) h
  obtain ⟨s, hs, heq⟩ := bind_eq_ok_iff.1 hs'
  cases heq
  exact .of_steps (.single (hact _ hs))

theorem steps_deleteRecording (x : Session) (id : ℤ) (lookback : ℕ) (now : Time) :
    Relation.ReflTransGen Store.Step x.store (x.deleteRecording id lookback now).2.store := by
  rcases transact_cases (Prod.mk.eta (p := x.deleteRecording id lookback now)).symm with
    ⟨d, hd, -⟩ | ⟨-, hstore⟩
  · exact .single (.deleteRecording hd)
  · rw [hstore]

/-- Deleting in turn relates two sessions as each deletion does. -/
theorem related_deleteEach {R : Session → Session → Prop} {lookback : ℕ} {now : Time}
    (hrefl : ∀ x, R x x) (htrans : ∀ {x y z}, R x y → R y z → R x z)
    (hone : ∀ id x, R x (x.deleteRecording id lookback now).2) (byName : Bool) (ids : List ℤ)
    (x : Session) :
    R x (Store.deleteEach (fun id x => x.deleteRecording id lookback now) byName ids x).2 := by
  induction ids generalizing x with
  | nil => exact hrefl x
  | cons id ids ih =>
    have hfirst := hone id x
    rw [Store.deleteEach]
    split
    · next d y hd =>
      rw [hd] at hfirst
      exact htrans hfirst (ih y)
    · next e y hd =>
      rw [hd] at hfirst
      split_ifs
      · exact htrans hfirst (ih y)
      · exact hfirst

theorem steps_deleteEach (lookback : ℕ) (now : Time) (byName : Bool) (ids : List ℤ) (x : Session) :
    Relation.ReflTransGen Store.Step x.store
      (Store.deleteEach (fun id x => x.deleteRecording id lookback now) byName ids x).2.store :=
  related_deleteEach (R := fun x y => Relation.ReflTransGen Store.Step x.store y.store)
    (fun _ => .refl) .trans (fun id x => steps_deleteRecording x id lookback now) byName ids x

theorem steps_deleteRecordings (x : Session) (camera : String) (scope : Scope) (lookback : ℕ)
    (now : Time) :
    Relation.ReflTransGen Store.Step x.store
      (x.deleteRecordings camera scope lookback now).2.store := by
  unfold deleteRecordings
  split
  · split_ifs <;> exact .refl
  · exact steps_deleteEach lookback now scope.isByName _ x.turn

/-! ### Every operation -/

theorem advances_perform (hs : x.store.Sound) {op : Operation} {answer : Except Error Issued}
    (h : x.perform op = (answer, y)) :
    Store.Advances x.store y.store (answer.toOption.getD []) := by
  have hempty {α : Type} (result : Except Error α) :
      (result.map fun _ => ([] : Issued)).toOption.getD [] = [] := by
    cases result <;> rfl
  cases op with
  | insertFile file now =>
    exact advances_adding (·.insertFile file now) (fun id s' => Store.advances_insertFile hs) h
  | insertMeta metadata now =>
    exact advances_adding (·.insertMeta metadata now) (fun id s' => Store.advances_insertMeta hs) h
  | insertFragment file metadata now =>
    cases hinsert : x.insertFragment file metadata now with
    | mk result z =>
      simp only [perform, hinsert, Prod.mk.injEq] at h
      obtain ⟨rfl, rfl⟩ := h
      rcases insertFragment_cases hinsert with ⟨⟨f, m⟩, hadd, rfl⟩ | ⟨⟨e, rfl⟩, hstore⟩
      · exact Store.advances_insertFragment hs hadd
      · rw [hstore]
        exact .refl _
  | moveFile oldPath placement now =>
    exact advances_step (·.moveFile oldPath placement now) (fun s' => .moveFile) h
  | insertRecording r now =>
    exact advances_adding (·.insertRecording r now) (fun id s' => Store.advances_insertRecording hs) h
  | finishRecording id stop now =>
    rw [perform] at h
    refine advances_change (fun ids s' hact => ?_) h
    obtain ⟨⟨r, s⟩, hs', heq⟩ := bind_eq_ok_iff.1 hact
    cases heq
    exact .of_steps (.single (.finishRecording hs'))
  | insertObject d detected =>
    exact advances_adding (·.insertObject d detected) (fun id s' => Store.advances_insertObject hs) h
  | insertMotion camera start now =>
    exact advances_adding (·.insertMotion camera start now) (fun id s' => Store.advances_insertMotion hs) h
  | deleteRecording id lookback now =>
    cases h
    rw [hempty]
    exact .of_steps (steps_deleteRecording x id lookback now)
  | deleteRecordings camera scope lookback now =>
    cases h
    rw [hempty]
    exact .of_steps (steps_deleteRecordings x camera scope lookback now)
  | blockDeletion =>
    exact advances_step (·.blockDeletion) (fun s' => .blockDeletion) h
  | pairDeletion first second =>
    exact advances_step (·.pairDeletion first second) (fun s' => .pairDeletion) h
  | withSchema =>
    exact advances_step (·.withSchema) (fun s' => .withSchema) h
  | read uses =>
    cases h
    rw [store_turns]
    exact .refl _

theorem advances_run (hs : x.store.Sound) (ops : List Operation) :
    Store.Advances x.store (run ops x).2.store (run ops x).1 := by
  induction ops generalizing x with
  | nil => exact .refl _
  | cons op ops ih =>
    have hfirst := advances_perform hs (Prod.mk.eta (p := x.perform op)).symm
    exact hfirst.trans hs (ih (hfirst.sound hs))

/-- What a session makes of a new store is reachable. -/
theorem reachable_run (ops : List Operation) : (run ops (.ofStore .fresh)).2.store.Reachable :=
  (advances_run (x := .ofStore .fresh) Store.sound_fresh ops).steps

/-! ### Metadata and the file that it is written for -/

/-- Metadata belongs to a file, and whatever is asked next it does so until the file is gone. -/
def Keeps (x : Session) (file metadata : ℤ) : Prop :=
  x.store.Belongs file metadata ∧ ∀ ops,
    (run ops x).2.store.Belongs file metadata ∨ (run ops x).2.store.Gone file metadata

theorem keeps_of_belongs (hs : x.store.Sound) {file metadata : ℤ}
    (h : x.store.Belongs file metadata) : x.Keeps file metadata :=
  ⟨h, fun ops => Store.belongs_or_gone_of_steps hs (advances_run hs ops).steps h⟩

theorem belongs_of_insertMeta {metadata : NewMeta} {now : Time} {id : ℤ}
    (h : x.perform (.insertMeta metadata now) = (.ok [(.metadata, id)], y)) :
    ∃ r ∈ x.store.files.rows, r.path = metadata.path ∧ y.store.Belongs r.id id := by
  rcases adding_cases (·.insertMeta metadata now) h with ⟨n, hinsert, heq⟩ | ⟨⟨e, he⟩, -⟩
  · cases heq
    obtain ⟨hfile, -, -, hy⟩ := Store.insertMeta_eq_ok hinsert
    obtain ⟨r, hr, hpath⟩ := Store.hasFile_eq_true_iff.1 hfile
    rw [hy]
    exact ⟨r, hr, hpath, r, hr, _, List.mem_append_right _ List.mem_cons_self, rfl, rfl, hpath.symm⟩
  · cases he

theorem belongs_of_insertFragment {file : NewFile} {metadata : NewMeta} {now : Time} {f m : ℤ}
    (h : x.perform (.insertFragment file metadata now) = (.ok [(.file, f), (.metadata, m)], y)) :
    y.store.Belongs f m := by
  cases hinsert : x.insertFragment file metadata now with
  | mk result z =>
    simp only [perform, hinsert, Prod.mk.injEq] at h
    obtain ⟨hresult, rfl⟩ := h
    rcases insertFragment_cases hinsert with ⟨⟨f', m'⟩, hact, rfl⟩ | ⟨⟨e, rfl⟩, -⟩
    · cases hresult
      obtain ⟨hpath, t, ht, hz⟩ := Store.insertFragment_eq_ok hact
      obtain ⟨-, -, -, rfl⟩ := Store.insertFile_eq_ok ht
      obtain ⟨-, -, -, hz⟩ := Store.insertMeta_eq_ok hz
      rw [hz]
      exact ⟨_, List.mem_append_right _ List.mem_cons_self, _,
        List.mem_append_right _ List.mem_cons_self, rfl, rfl, hpath.symm⟩
    · cases hresult

/-- Whatever a session from a new database is asked, in whatever order, its store is sound, it
hands out no id twice, and metadata stays with the file that it was written for. -/
theorem run_sound (ops : List Operation) :
    let r := run ops (.ofStore .fresh)
    r.2.store.Sound ∧ r.1.Nodup ∧
    (∀ file metadata, r.2.store.Belongs file metadata → r.2.Keeps file metadata) ∧
    (∀ metadata now id y, r.2.perform (.insertMeta metadata now) = (.ok [(.metadata, id)], y) →
      ∃ f ∈ r.2.store.files.rows, f.path = metadata.path ∧ y.Keeps f.id id) ∧
    ∀ file metadata now f m y,
      r.2.perform (.insertFragment file metadata now) = (.ok [(.file, f), (.metadata, m)], y) →
        y.Keeps f m := by
  intro r
  have hrun := advances_run (x := .ofStore .fresh) Store.sound_fresh ops
  have hsound : r.2.store.Sound := hrun.sound Store.sound_fresh
  refine ⟨hsound, hrun.nodup, fun file metadata h => keeps_of_belongs hsound h, ?_, ?_⟩
  · intro metadata now id y h
    have hy := (advances_perform hsound h).sound hsound
    obtain ⟨f, hf, hpath, hbelongs⟩ := belongs_of_insertMeta h
    exact ⟨f, hf, hpath, keeps_of_belongs hy hbelongs⟩
  · intro file metadata now f m y h
    have hy := (advances_perform hsound h).sound hsound
    exact keeps_of_belongs hy (belongs_of_insertFragment h)

end Session

end Footage
