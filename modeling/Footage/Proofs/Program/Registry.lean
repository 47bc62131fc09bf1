import Footage.Program
import Footage.Proofs.Store.Listing
import Footage.Proofs.Store.Turns

/-! Runs for a camera that the settings do not know. The database is opened before the camera is
looked up, so what such a run says depends on whether the database can be opened, and opening leaves
a schema version behind. It depends on nothing else that the database holds. -/

namespace Footage

open Outcome

/-! ### Commands -/

namespace Command

/-- The camera whose recordings a command is for, if it names one. -/
def camera? : Command → Option String
  | .list camera _ | .latest camera _ | .daily camera => camera
  | .delete camera _ _ => some camera
  | .init | .fragments _ _ => none

theorem perform_of_unknown {config : Config} {now : Time} {s : Store} {command : Command}
    {camera : String} (hcamera : command.camera? = some camera)
    (hunknown : config.camera? camera = none) :
    command.perform config now s = (.error (.unknownCamera camera), s) := by
  have hselect : config.select (some camera) = .error (.unknownCamera camera) := by
    simp [Config.select, hunknown]
  cases command with
  | init | fragments => cases hcamera
  | list | latest | daily =>
    cases hcamera
    simp only [perform, showCameras, hselect]
    rfl
  | delete =>
    cases hcamera
    simp only [perform, showDeletion, hselect]

end Command

/-! ### Databases -/

namespace Disk

variable {d : Disk} {name : String}

theorem lookup?_put_of_ne {p q : Place} (h : p ≠ q) (e : Entry) :
    (d.put p e).lookup? q = d.lookup? q := by
  have hfind : (d.entries.filter fun x => x.1 ≠ p).find? (fun x => x.1 = q) =
      d.entries.find? fun x => x.1 = q := by
    rw [List.find?_filter]
    congr 1
    funext x
    have hne : x.1 = q → x.1 ≠ p := fun hx => hx ▸ h.symm
    simpa using hne
  simp only [lookup?, put, List.find?_cons, h, decide_false, hfind]
  rfl

/-- A database as it is found under a name, before its schema version is looked at. -/
structure Found where
  name : DatabaseName
  database : Database
  /-- Where it is, unless it is temporary. -/
  place : Option Place
  deriving DecidableEq, Repr

/-- What a name leads to. A database that is not there is found empty, if it can be made. -/
def found (d : Disk) (name : String) : Except Error Found :=
  match DatabaseName.read? name with
  | none => .error (.store .unavailable)
  | some n =>
    if n.isTemporary then
      if n.isCommon then .ok ⟨n, ⟨.empty, false⟩, none⟩
      else .error (.store .unavailable)
    else do
      let p ← d.databasePlace n.path
      let db ← d.databaseAt n p
      discard ((d.put p (.database db)).databasePlace n.path)
      return ⟨n, db, some p⟩

namespace Found

/-- Why the schema of a database does not do. -/
def refusal? (f : Found) : Option Error :=
  match f.database.store.version with
  | none => if f.name.isProtected then some (.store .unavailable) else none
  | some version => if version = schemaVersion then none else some (.schemaVersion version)

/-- The database once it is open. One that cannot be changed takes no deletions. -/
def opened (f : Found) : Database where
  store := { f.database.store with
    version := some schemaVersion
    triggers :=
      if f.name.isProtected then .block :: f.database.store.triggers else f.database.store.triggers }
  isLogged := f.place.isSome && f.name.access = .locked

/-- Where opening leaves something behind. -/
def target? (f : Found) : Option Place := if f.name.isProtected then none else f.place

theorem place_of_target? {f : Found} {p : Place} (h : f.target? = some p) : f.place = some p := by
  simp only [target?, Option.ite_none_left_eq_some] at h
  exact h.2

end Found

/-- What is found at a place was there before, or there was nothing. -/
theorem lookup?_of_found {f : Found} {p : Place} (h : d.found name = .ok f)
    (hp : f.place = some p) :
    d.lookup? p = some (.database f.database) ∨
      d.lookup? p = none ∧ f.database = ⟨.empty, false⟩ := by
  rw [found] at h
  split at h
  · cases h
  split at h
  · split at h
    · cases h
      cases hp
    · cases h
  obtain ⟨q, -, h⟩ := bind_eq_ok_iff.1 h
  obtain ⟨db, hdb, h⟩ := bind_eq_ok_iff.1 h
  obtain ⟨-, -, h⟩ := bind_eq_ok_iff.1 h
  cases h
  cases hp
  rw [databaseAt] at hdb
  split at hdb
  · cases hdb
  split at hdb
  · split at hdb
    · cases hdb
    · cases hdb
      exact .inl ‹_›
  · cases hdb
  · split at hdb
    · cases hdb
      exact .inr ⟨‹_›, rfl⟩
    · cases hdb

theorem prepare_found (f : Found) :
    prepare f.name f.database.store = f.refusal?.elim (.ok f.opened.store) .error := by
  obtain ⟨n, ⟨⟨_, _, _, _, _, version, _⟩, _⟩, _⟩ := f
  cases hprotected : n.isProtected <;> cases version with
  | none => simp [prepare, Found.refusal?, Found.opened, Store.protect, Store.withSchema, hprotected]
  | some version =>
    by_cases hsame : version = schemaVersion <;>
      simp [prepare, Found.refusal?, Found.opened, Store.protect, Store.withSchema, hprotected, hsame]

/-- Opening is finding and looking at the schema. -/
theorem openDatabase_eq (d : Disk) (name : String) :
    d.openDatabase name =
      (d.found name >>= fun f => f.refusal?.elim (.ok ⟨f.opened, f.target?⟩) .error) := by
  have hopen (f : Found) : (prepare f.name f.database.store >>= fun s =>
      .ok ⟨⟨s, f.opened.isLogged⟩, f.target?⟩) =
        f.refusal?.elim (.ok ⟨f.opened, f.target?⟩) (.error : Error → Except Error Opened) := by
    rw [prepare_found]
    cases f.refusal? <;> rfl
  unfold openDatabase found
  cases DatabaseName.read? name with
  | none => rfl
  | some n =>
    simp only
    split
    · split
      · rw [ok_bind, ← hopen]
        simp [Found.opened, Found.target?]
      · rfl
    · simp only [bind_assoc, ok_bind, pure_eq_ok, ← hopen]
      simp [Found.opened, Found.target?]

end Disk

/-! ### Runs -/

namespace Program

/-- A run for a camera that is not registered fails as the database does, if it cannot be opened.
Otherwise the camera is unknown, whatever the database holds; its schema version is set then, and a
database that is not there is made. -/
theorem run_unregistered {d : Disk} {now : Time} {args : List String} {invocation : Invocation}
    {config : Config} {camera : String} (hargs : Command.Request.of args = .run invocation)
    (hconfig : settings d invocation.settings = .ok config)
    (hcamera : invocation.command.camera? = some camera)
    (hunknown : config.camera? camera = none) :
    (∀ e, d.found config.database = .error e → run d now args = (.failed (.error e), d)) ∧
      ∀ f, d.found config.database = .ok f →
        (∀ e, f.refusal? = some e → run d now args = (.failed (.error e), d)) ∧
        (f.refusal? = none →
          (run d now args).1 = .failed (.unknownCamera camera) ∧
          (∀ p, f.target? = some p →
            (d.lookup? p = some (.database f.database) ∨
              d.lookup? p = none ∧ f.database = ⟨.empty, false⟩) ∧
            (run d now args).2.lookup? p = some (.database f.opened)) ∧
          ∀ p, f.target? ≠ some p → (run d now args).2.lookup? p = d.lookup? p) := by
  have hrun : run d now args = runCommand d now invocation := by
    rw [run, hargs]
  have hopen := d.openDatabase_eq config.database
  refine ⟨fun e hfound => ?_, fun f hfound => ⟨fun e he => ?_, fun hok => ?_⟩⟩
  · rw [hfound, error_bind] at hopen
    simp only [hrun, runCommand, hconfig, hopen]
  · rw [hfound, ok_bind, he] at hopen
    simp only [hrun, runCommand, hconfig, hopen, Option.elim]
  rw [hfound, ok_bind, hok] at hopen
  have hperform : invocation.command.perform config now f.opened.store = _ :=
    Command.perform_of_unknown hcamera hunknown
  simp only [hrun, runCommand, hconfig, hopen, Option.elim, hperform]
  refine ⟨rfl, fun p hp => ⟨Disk.lookup?_of_found hfound (f.place_of_target? hp), ?_⟩,
    fun p hp => ?_⟩
  · simp [Disk.keep, hp]
  · cases htarget : f.target? with
    | none => rfl
    | some q =>
      have hne : q ≠ p := fun hqp => hp (htarget.trans (congrArg some hqp))
      exact Disk.lookup?_put_of_ne hne _

/-! ### One camera -/

open Store (early recordingAt)

/-- A disk with settings for one camera, and with a database if one is given. -/
def desk (database : Option Database) : Disk :=
  .ofEntries (.within .root [0x64]) (("config.toml", .text
    "database = \"db.sqlite\"\n[[cameras]]\nidentifier = \"cam\"\n") ::
      (database.map fun db => ("db.sqlite", Disk.Entry.database db)).toList)

def deskSettings : Config := ⟨"db.sqlite", [⟨"cam", none⟩], 0, []⟩

/-- Where the database is, or would be. -/
def deskPlace : Disk.Place := .within (.within .root [0x64]) (Text.bytes "db.sqlite".toList)

/-- A database with one recording. -/
def kept (version : Option String) : Database :=
  ⟨{ Store.empty with recordings := ⟨[recordingAt 1 1000], 1⟩, version }, true⟩

/-- A deletion for another camera deletes nothing and sets the version that was not there. -/
theorem run_unregistered_desk :
    let d := desk (some (kept none))
    let args := ["--config", "config.toml", "delete", "--camera", "nope"]
    Command.Request.of args = .run ⟨"config.toml", .delete "nope" .camera none⟩ ∧
      settings d "config.toml" = .ok deskSettings ∧
      (Command.delete "nope" .camera none).camera? = some "nope" ∧
      deskSettings.camera? "nope" = none ∧
      (run d (early 0) args).1 = .failed (.unknownCamera "nope") ∧
      (run d (early 0) args).2.lookup? deskPlace =
        some (.database (kept (some schemaVersion))) := by
  intro d args
  have hargs : Command.Request.of args = .run ⟨"config.toml", .delete "nope" .camera none⟩ := by
    decide
  have hconfig : settings d "config.toml" = .ok deskSettings := by decide +kernel
  have hfound : d.found deskSettings.database =
      .ok ⟨.ofPath (Text.bytes "db.sqlite".toList), kept none, some deskPlace⟩ := by decide
  have hunregistered : deskSettings.camera? "nope" = none := by decide
  obtain ⟨-, h⟩ : (∀ e, _ → run d (early 0) args = _) ∧ _ :=
    run_unregistered hargs hconfig rfl hunregistered
  obtain ⟨hunknown, hplace, -⟩ := (h _ hfound).2 (by decide)
  refine ⟨hargs, hconfig, rfl, by decide, hunknown, ?_⟩
  rw [(hplace deskPlace (by decide)).2]
  decide

/-- A database of another version is refused before the camera is looked up, and a database that is
not there is made for a camera that is unknown. -/
theorem not_unregistered_desk :
    let args := ["--config", "config.toml", "list", "--camera", "nope"]
    Command.Request.of args = .run ⟨"config.toml", .list (some "nope") none⟩ ∧
      settings (desk (some (kept (some "2")))) "config.toml" = .ok deskSettings ∧
      settings (desk none) "config.toml" = .ok deskSettings ∧
      deskSettings.camera? "nope" = none ∧
      (run (desk (some (kept (some "2")))) (early 0) args).1 =
        .failed (.error (.schemaVersion "2")) ∧
      (run (desk none) (early 0) args).1 = .failed (.unknownCamera "nope") ∧
      (desk none).lookup? deskPlace = none ∧
      (run (desk none) (early 0) args).2.lookup? deskPlace =
        some (.database ⟨.fresh, true⟩) := by
  decide +kernel

end Program

end Footage
