import Footage.Proofs.Store.Runs

/-! What a run adds to the tables of events. An insertion that succeeds puts one row at the end of its
table, and nothing else that a session is asked changes these tables. So they hold what the answers
of the run say was inserted, in the order of the insertions. -/

namespace Footage

open Outcome Sql

/-- What happened to a camera at a time, with the id that it was given. -/
structure Event (α : Type) where
  id : ℤ
  camera : String
  time : Time
  content : α
  deriving DecidableEq, Repr

namespace Event

/-- The row of a detected object. -/
def objectRow (e : Event Detection) : ObjectRow := .ofNew e.content e.time.seconds e.id

/-- The row of a motion event. Its content is the time at which it was written down. -/
def motionRow (e : Event Time) : MotionRow := .ofNew e.camera e.time e.content.seconds e.id

end Event

/-! ### Operations on files and recordings -/

namespace Store

variable {s t u : Store}

/-- The tables of events are the same. -/
def SameEvents (s t : Store) : Prop := t.objects = s.objects ∧ t.motion = s.motion

theorem SameEvents.refl (s : Store) : s.SameEvents s := ⟨rfl, rfl⟩

theorem SameEvents.trans (h : s.SameEvents t) (h' : t.SameEvents u) : s.SameEvents u :=
  ⟨h'.1.trans h.1, h'.2.trans h.2⟩

theorem sameEvents_insertFile {file : NewFile} {now : Time} {id : ℤ}
    (h : s.insertFile file now = .ok (id, t)) : s.SameEvents t := by
  obtain ⟨-, -, -, rfl⟩ := insertFile_eq_ok h
  exact ⟨rfl, rfl⟩

theorem sameEvents_insertMeta {metadata : NewMeta} {now : Time} {id : ℤ}
    (h : s.insertMeta metadata now = .ok (id, t)) : s.SameEvents t := by
  obtain ⟨-, -, -, rfl⟩ := insertMeta_eq_ok h
  exact ⟨rfl, rfl⟩

theorem sameEvents_insertFragment {file : NewFile} {metadata : NewMeta} {now : Time} {ids : ℤ × ℤ}
    (h : s.insertFragment file metadata now = .ok (ids, t)) : s.SameEvents t := by
  obtain ⟨-, u, hu, ht⟩ := insertFragment_eq_ok h
  exact (sameEvents_insertFile hu).trans (sameEvents_insertMeta ht)

theorem sameEvents_moveFile {oldPath : String} {placement : Placement} {now : Time}
    (h : s.moveFile oldPath placement now = .ok t) : s.SameEvents t := by
  obtain ⟨-, -, rfl⟩ := moveFile_eq_ok h
  exact ⟨rfl, rfl⟩

theorem sameEvents_insertRecording {r : NewRecording} {now : Time} {id : ℤ}
    (h : s.insertRecording r now = .ok (id, t)) : s.SameEvents t := by
  obtain ⟨-, -, rfl⟩ := insertRecording_eq_ok h
  exact ⟨rfl, rfl⟩

theorem sameEvents_finishRecording {id : ℤ} {stop now : Time} {r : Recording}
    (h : s.finishRecording id stop now = .ok (r, t)) : s.SameEvents t := by
  obtain ⟨-, rfl⟩ := finishRecording_eq_ok h
  exact ⟨rfl, rfl⟩

/-- A deletion takes files, metadata and recordings, whatever triggers do. -/
theorem sameEvents_deleteRecording {id : ℤ} {lookback : ℕ} {now : Time} {d : Deletion}
    (h : s.deleteRecording id lookback now = .ok (d, t)) : s.SameEvents t := by
  obtain ⟨-, paths, rows, -, rfl⟩ := deleteRecording_eq_ok h
  exact ⟨rfl, rfl⟩

theorem sameEvents_blockDeletion (h : s.blockDeletion = .ok t) : s.SameEvents t := by
  obtain rfl := blockDeletion_eq_ok h
  exact ⟨rfl, rfl⟩

theorem sameEvents_pairDeletion {first second : ℤ} (h : s.pairDeletion first second = .ok t) :
    s.SameEvents t := by
  obtain rfl := pairDeletion_eq_ok h
  exact ⟨rfl, rfl⟩

theorem sameEvents_withSchema (h : s.withSchema = .ok t) : s.SameEvents t := by
  obtain ⟨version, rfl⟩ := withSchema_eq_ok h
  exact ⟨rfl, rfl⟩

end Store

namespace Session

variable {x y : Session}

theorem sameEvents_change {act : Store → Except Error (Issued × Store)}
    (hact : ∀ ids t, act x.store = .ok (ids, t) → x.store.SameEvents t) :
    x.store.SameEvents (x.change act).2.store := by
  rcases change_cases (Prod.mk.eta (p := x.change act)).symm with ⟨ids, hids, -⟩ | ⟨-, hstore⟩
  · exact hact ids _ hids
  · rw [hstore]
    exact .refl _

theorem sameEvents_transact {α : Type} {act : Store → Except Error (α × Store)}
    (hact : ∀ a t, act x.store = .ok (a, t) → x.store.SameEvents t) :
    x.store.SameEvents (x.transact act).2.store := by
  rcases transact_cases (Prod.mk.eta (p := x.transact act)).symm with ⟨a, ha, -⟩ | ⟨-, hstore⟩
  · exact hact a _ ha
  · rw [hstore]
    exact .refl _

theorem sameEvents_adding (act : Store → Except Error (ℤ × Store)) {k : Kind}
    (hact : ∀ id t, act x.store = .ok (id, t) → x.store.SameEvents t) :
    x.store.SameEvents (x.change fun s => do
      let (id, s) ← act s
      return ([(k, id)], s)).2.store := by
  rcases adding_cases act (Prod.mk.eta (p := x.change fun s => do
      let (id, s) ← act s
      return ([(k, id)], s))).symm with ⟨id, hid, -⟩ | ⟨-, hstore⟩
  · exact hact id _ hid
  · rw [hstore]
    exact .refl _

theorem sameEvents_step (act : Store → Except Error Store)
    (hact : ∀ t, act x.store = .ok t → x.store.SameEvents t) :
    x.store.SameEvents (x.change fun s => return (([] : Issued), ← act s)).2.store := by
  refine sameEvents_change fun ids t h => ?_
  obtain ⟨s, hs, heq⟩ := bind_eq_ok_iff.1 h
  cases heq
  exact hact _ hs

theorem sameEvents_deleteRecordings (x : Session) (camera : String) (scope : Scope) (lookback : ℕ)
    (now : Time) : x.store.SameEvents (x.deleteRecordings camera scope lookback now).2.store := by
  unfold deleteRecordings
  split
  · split_ifs <;> exact .refl _
  · exact related_deleteEach (R := fun x y => x.store.SameEvents y.store) (fun _ => .refl _)
      Store.SameEvents.trans (fun _ _ => sameEvents_transact fun _ _ => Store.sameEvents_deleteRecording)
      scope.isByName _ x.turn

/-- Nothing but an insertion of events changes their tables. -/
theorem sameEvents_perform (x : Session) {op : Operation}
    (hobject : ∀ d detected, op ≠ .insertObject d detected)
    (hmotion : ∀ camera start now, op ≠ .insertMotion camera start now) :
    x.store.SameEvents (x.perform op).2.store := by
  cases op with
  | insertObject d detected => exact absurd rfl (hobject d detected)
  | insertMotion camera start now => exact absurd rfl (hmotion camera start now)
  | insertFile file now =>
    exact sameEvents_adding (·.insertFile file now) fun _ _ => Store.sameEvents_insertFile
  | insertMeta metadata now =>
    exact sameEvents_adding (·.insertMeta metadata now) fun _ _ => Store.sameEvents_insertMeta
  | insertFragment file metadata now =>
    change x.store.SameEvents (x.insertFragment file metadata now).2.store
    unfold insertFragment
    split_ifs
    · exact sameEvents_transact fun _ _ => Store.sameEvents_insertFragment
    · exact .refl _
  | moveFile oldPath placement now =>
    exact sameEvents_step (·.moveFile oldPath placement now) fun _ => Store.sameEvents_moveFile
  | insertRecording r now =>
    exact sameEvents_adding (·.insertRecording r now) fun _ _ => Store.sameEvents_insertRecording
  | finishRecording id stop now =>
    refine sameEvents_change fun ids t h => ?_
    obtain ⟨⟨r, s⟩, hs, heq⟩ := bind_eq_ok_iff.1 h
    cases heq
    exact Store.sameEvents_finishRecording hs
  | deleteRecording id lookback now =>
    change x.store.SameEvents (x.deleteRecording id lookback now).2.store
    exact sameEvents_transact fun _ _ => Store.sameEvents_deleteRecording
  | deleteRecordings camera scope lookback now =>
    exact sameEvents_deleteRecordings x camera scope lookback now
  | blockDeletion => exact sameEvents_step (·.blockDeletion) fun _ => Store.sameEvents_blockDeletion
  | pairDeletion first second =>
    exact sameEvents_step (·.pairDeletion first second) fun _ => Store.sameEvents_pairDeletion
  | withSchema => exact sameEvents_step (·.withSchema) fun _ => Store.sameEvents_withSchema
  | read uses =>
    rw [perform, store_turns]
    exact .refl _

/-! ### Insertions -/

/-- Operations in turn, each with its answer. -/
def trace : List Operation → Session → List (Operation × Except Error Issued)
  | [], _ => []
  | op :: ops, x => (op, (x.perform op).1) :: trace ops (x.perform op).2

/-- The object that an operation has inserted. -/
def insertedObject? : Operation × Except Error Issued → Option (Event Detection)
  | (.insertObject d detected, .ok [(.object, id)]) => some ⟨id, d.camera, detected, d⟩
  | _ => none

/-- The motion event that an operation has inserted. -/
def insertedMotion? : Operation × Except Error Issued → Option (Event Time)
  | (.insertMotion camera start now, .ok [(.motion, id)]) => some ⟨id, camera, start, now⟩
  | _ => none

theorem insertObject_cases {d : Detection} {detected : Time} {answer : Except Error Issued}
    (h : x.perform (.insertObject d detected) = (answer, y)) :
    (∃ id, x.store.insertObject d detected = .ok (id, y.store) ∧ answer = .ok [(.object, id)]) ∨
      ((∃ e, answer = .error e) ∧ y.store = x.store) :=
  adding_cases (·.insertObject d detected) h

theorem insertMotion_cases {camera : String} {start now : Time} {answer : Except Error Issued}
    (h : x.perform (.insertMotion camera start now) = (answer, y)) :
    (∃ id, x.store.insertMotion camera start now = .ok (id, y.store) ∧
        answer = .ok [(.motion, id)]) ∨
      ((∃ e, answer = .error e) ∧ y.store = x.store) :=
  adding_cases (·.insertMotion camera start now) h

theorem objects_perform_of_ne (x : Session) {op : Operation}
    (hop : ∀ d detected, op ≠ .insertObject d detected) :
    (x.perform op).2.store.objects = x.store.objects := by
  by_cases hmotion : ∃ camera start now, op = .insertMotion camera start now
  · obtain ⟨camera, start, now, rfl⟩ := hmotion
    rcases insertMotion_cases (Prod.mk.eta (p := x.perform (.insertMotion camera start now))).symm with
      ⟨id, hid, -⟩ | ⟨-, hstore⟩
    · obtain ⟨-, hy⟩ := Store.insertMotion_eq_ok hid
      rw [hy]
    · rw [hstore]
  · exact (sameEvents_perform x hop fun camera start now h => hmotion ⟨camera, start, now, h⟩).1

theorem motion_perform_of_ne (x : Session) {op : Operation}
    (hop : ∀ camera start now, op ≠ .insertMotion camera start now) :
    (x.perform op).2.store.motion = x.store.motion := by
  by_cases hobject : ∃ d detected, op = .insertObject d detected
  · obtain ⟨d, detected, rfl⟩ := hobject
    rcases insertObject_cases (Prod.mk.eta (p := x.perform (.insertObject d detected))).symm with
      ⟨id, hid, -⟩ | ⟨-, hstore⟩
    · obtain ⟨-, hy⟩ := Store.insertObject_eq_ok hid
      rw [hy]
    · rw [hstore]
  · exact (sameEvents_perform x (fun d detected h => hobject ⟨d, detected, h⟩) hop).2

/-- What one operation adds to the table of objects. -/
theorem objects_perform (x : Session) (op : Operation) :
    (x.perform op).2.store.objects.rows = x.store.objects.rows ++
      (insertedObject? (op, (x.perform op).1)).toList.map Event.objectRow := by
  cases op with
  | insertObject d detected =>
    rcases insertObject_cases (Prod.mk.eta (p := x.perform (.insertObject d detected))).symm with
      ⟨id, hid, hanswer⟩ | ⟨⟨e, hanswer⟩, hstore⟩
    · obtain ⟨-, hy⟩ := Store.insertObject_eq_ok hid
      rw [hy, hanswer]
      rfl
    · rw [hstore, hanswer]
      exact (List.append_nil _).symm
  | _ =>
    rw [objects_perform_of_ne x (by simp)]
    exact (List.append_nil _).symm

theorem motion_perform (x : Session) (op : Operation) :
    (x.perform op).2.store.motion.rows = x.store.motion.rows ++
      (insertedMotion? (op, (x.perform op).1)).toList.map Event.motionRow := by
  cases op with
  | insertMotion camera start now =>
    rcases insertMotion_cases (Prod.mk.eta (p := x.perform (.insertMotion camera start now))).symm with
      ⟨id, hid, hanswer⟩ | ⟨⟨e, hanswer⟩, hstore⟩
    · obtain ⟨-, hy⟩ := Store.insertMotion_eq_ok hid
      rw [hy, hanswer]
      rfl
    · rw [hstore, hanswer]
      exact (List.append_nil _).symm
  | _ =>
    rw [motion_perform_of_ne x (by simp)]
    exact (List.append_nil _).symm

/-! ### Runs -/

/-- The objects that a run has inserted, as its answers tell. -/
def insertedObjects (ops : List Operation) (x : Session) : List (Event Detection) :=
  (trace ops x).filterMap insertedObject?

/-- The motion events that a run has inserted. -/
def insertedMotion (ops : List Operation) (x : Session) : List (Event Time) :=
  (trace ops x).filterMap insertedMotion?

theorem filterMap_trace {α : Type} (f : Operation × Except Error Issued → Option α) (op : Operation)
    (ops : List Operation) (x : Session) :
    (trace (op :: ops) x).filterMap f =
      (f (op, (x.perform op).1)).toList ++ (trace ops (x.perform op).2).filterMap f := by
  rw [trace, List.filterMap_cons]
  cases f (op, (x.perform op).1) <;> rfl

/-- Where each operation adds a row for what it has inserted, a run adds the rows in turn. -/
theorem rows_run {α ρ : Type} (rows : Store → List ρ) {row : α → ρ}
    {f : Operation × Except Error Issued → Option α}
    (hstep : ∀ x op, rows (perform x op).2.store =
      rows x.store ++ (f (op, (perform x op).1)).toList.map row) (ops : List Operation) (x : Session) :
    rows (run ops x).2.store = rows x.store ++ ((trace ops x).filterMap f).map row := by
  induction ops generalizing x with
  | nil => exact (List.append_nil _).symm
  | cons op ops ih =>
    change rows (run ops (x.perform op).2).2.store = _
    rw [ih, hstep, filterMap_trace, List.map_append, List.append_assoc]

theorem objects_run (ops : List Operation) (x : Session) :
    (run ops x).2.store.objects.rows =
      x.store.objects.rows ++ (insertedObjects ops x).map Event.objectRow :=
  rows_run (fun s => s.objects.rows) objects_perform ops x

theorem motion_run (ops : List Operation) (x : Session) :
    (run ops x).2.store.motion.rows =
      x.store.motion.rows ++ (insertedMotion ops x).map Event.motionRow :=
  rows_run (fun s => s.motion.rows) motion_perform ops x

/-- An event of a run was inserted at some point of it. -/
theorem exists_perform_of_mem {α : Type} {f : Operation × Except Error Issued → Option α} {a : α}
    {ops : List Operation} (h : a ∈ (trace ops x).filterMap f) :
    ∃ y op, f (op, (perform y op).1) = some a := by
  induction ops generalizing x with
  | nil => cases h
  | cons op ops ih =>
    rw [filterMap_trace, List.mem_append] at h
    rcases h with h | h
    · exact ⟨x, op, Option.mem_toList.1 h⟩
    · exact ih h

theorem exists_insertObject {e : Event Detection} {ops : List Operation}
    (h : e ∈ insertedObjects ops x) :
    e.camera = e.content.camera ∧ ∃ s t, Store.insertObject s e.content e.time = .ok (e.id, t) := by
  obtain ⟨y, op, hop⟩ := exists_perform_of_mem h
  cases op with
  | insertObject d detected =>
    rcases insertObject_cases (Prod.mk.eta (p := y.perform (.insertObject d detected))).symm with
      ⟨id, hid, hanswer⟩ | ⟨⟨error, hanswer⟩, -⟩
    · rw [hanswer] at hop
      cases hop
      exact ⟨rfl, _, _, hid⟩
    · rw [hanswer] at hop
      cases hop
  | _ => cases hop

end Session

end Footage
