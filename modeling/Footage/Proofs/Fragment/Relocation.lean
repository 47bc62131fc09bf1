import Footage.Proofs.Store.Contribution
import Footage.Proofs.Store.Invariant
import Footage.Proofs.Store.Resolution

/-! What a file adds to a listing once it has moved. Its row and that of its metadata have a new path,
and the row a new tier and a new time of the last change. Where the name stays, and whether the path
is that of a fragment, the two rows are read as the same fragment at the new place, or break the
contract as they did before. -/

namespace Footage

open Outcome Sql

/-- A file is to be at a new place from some time on. -/
structure Move where
  oldPath : String
  placement : Placement
  now : Time
  deriving DecidableEq, Repr

/-- A fragment once its file has moved. -/
def Fragment.relocate (f : Fragment) (m : Move) : Fragment where
  file := { f.file with
    placement := { m.placement with filename := f.file.placement.filename }
    updatedAt := some m.now.whole }
  metadata := { f.metadata with path := m.placement.path }
  start := f.start
  inclusion := f.inclusion

/-- What a move does not change of a file: its name, whether it is a fragment by its path, and whether
its columns can be read. Of those the move overwrites two, and two count only for a file that is
passed over by its path after it is read. -/
structure Move.Keeps (m : Move) (r : FileRow) : Prop where
  filename : m.placement.filename = r.filename
  suffix : fragmentExtension.toList <:+ m.placement.path.toList ↔
    fragmentExtension.toList <:+ r.path.toList
  tier : r.tier.IsInteger
  updatedAt : r.updatedAt.IsOptionalTime
  others : ¬ fragmentExtension.toList <:+ r.path.toList → r.size.IsInteger ∧ r.createdAt.IsInteger

theorem FileRow.Valid.keeps {r : FileRow} (h : r.Valid) {m : Move}
    (hname : m.placement.filename = r.filename)
    (hsuffix : fragmentExtension.toList <:+ m.placement.path.toList ↔
      fragmentExtension.toList <:+ r.path.toList) : m.Keeps r :=
  ⟨hname, hsuffix, h.tier, h.updatedAt, fun _ => ⟨h.size, h.createdAt.isInteger⟩⟩

/-! ### Outcomes that are alike -/

/-- Outcomes that are the same up to a change of the result and to what exactly breaks the contract
on stored data. -/
inductive Alike {α β : Type} (ρ : α → β) : Except Error α → Except Error β → Prop
  | ok (a : α) : Alike ρ (.ok a) (.ok (ρ a))
  | broken (fault fault' : IntegrityFault) :
    Alike ρ (.error (.dataIntegrity fault)) (.error (.dataIntegrity fault'))
  | error (e : Error) : Alike ρ (.error e) (.error e)

namespace Alike

variable {α β γ δ : Type} {ρ : α → β} {x : Except Error α} {y : Except Error β}

theorem bind (h : Alike ρ x y) {σ : γ → δ} {f : α → Except Error γ} {g : β → Except Error δ}
    (hfg : ∀ a, Alike σ (f a) (g (ρ a))) : Alike σ (x >>= f) (y >>= g) := by
  cases h with
  | ok a => exact hfg a
  | broken fault fault' => exact .broken fault fault'
  | error e => exact .error e

theorem bind_self (x : Except Error α) {σ : γ → δ} {f : α → Except Error γ} {g : α → Except Error δ}
    (hfg : ∀ a, Alike σ (f a) (g a)) : Alike σ (x >>= f) (x >>= g) := by
  cases x with
  | ok a => exact hfg a
  | error e => exact .error e

end Alike

/-! ### Reading moved rows -/

theorem FileRow.read_moved {r : FileRow} {m : Move} (h : m.Keeps r) :
    (r.moved m.placement m.now.seconds).read = r.read.map fun f => { f with
      placement := { m.placement with filename := f.placement.filename }
      updatedAt := some m.now.whole } := by
  obtain ⟨tier, ht⟩ := h.tier
  obtain ⟨updated, hu⟩ := Value.exists_optionally_readTime_iff.2 h.updatedAt
  have hupdated : (Value.integer m.now.seconds).optionally Value.readTime =
      .ok (some m.now.whole) := congrArg (Except.map some) (Value.readTime_seconds m.now)
  simp only [read, moved, ht, hu, hupdated, Value.readInteger, ok_bind, h.filename]
  cases r.size <;> cases r.createdAt.readTime <;> rfl

theorem MetaRow.read_renamed (r : MetaRow) (path : String) :
    Alike (fun x : FileMeta => { x with path }) r.read { r with path }.read := by
  simp only [read]
  cases Json.read? Json.metadataDepth r.content with
  | none => exact .error _
  | some v =>
    cases v with
    | object content =>
      exact Alike.bind_self _ fun d => Alike.bind_self _ fun created => Alike.bind_self _
        fun updated => .ok _
    | _ => exact .broken _ _

namespace FragmentRow

/-- A file and its metadata once the file has moved. -/
def moved (m : Move) (r : FragmentRow) : FragmentRow where
  file := r.file.moved m.placement m.now.seconds
  metadata := r.metadata.map fun x => { x with path := m.placement.path }

variable {m : Move} {r : FragmentRow} {w : Window}

theorem readMeta_moved (m : Move) (r : FragmentRow) :
    Alike (fun x : FileMeta => { x with path := m.placement.path }) r.readMeta
      (r.moved m).readMeta := by
  obtain ⟨file, metadata⟩ := r
  cases metadata with
  | none => exact .broken _ _
  | some x =>
    simp only [readMeta, moved, Option.map_some]
    have h := x.read_renamed m.placement.path
    generalize x.read = before, ({ x with path := m.placement.path } : MetaRow).read = after at h
    cases h with
    | ok y => exact .ok y
    | broken fault fault' => exact .broken _ _
    | error e => cases e <;> first | exact .broken _ _ | exact .error _

/-- A file that is a fragment by its path is read as the fragment that moves with it. -/
theorem read_moved (h : m.Keeps r.file)
    (hsuffix : fragmentExtension.toList <:+ r.file.path.toList) :
    Alike (Option.map (Fragment.relocate · m)) (r.read w) ((r.moved m).read w) := by
  have hsuffix' := h.suffix.2 hsuffix
  have hmeta := r.readMeta_moved m
  simp only [read, moved, FileRow.read_moved h] at hmeta ⊢
  cases hfile : r.file.read with
  | error e => exact .error e
  | ok file =>
    obtain ⟨-, -, -, -, hpath, -, -⟩ := FileRow.read_eq_ok_iff.1 hfile
    have hends : fragmentExtension.toList.isSuffixOf file.placement.path.toList = true := by
      rw [hpath, List.isSuffixOf_iff_suffix]
      exact hsuffix
    have hends' : fragmentExtension.toList.isSuffixOf m.placement.path.toList = true :=
      List.isSuffixOf_iff_suffix.2 hsuffix'
    simp only [Except.map, ok_bind, hends, hends', Bool.not_true, Bool.false_eq_true, if_false]
    refine Alike.bind (ρ := id) ?_ fun start => hmeta.bind fun x => ?_
    · cases Timestamp.decode file.placement.filename with
      | ok start => exact .ok start
      | error cause => exact .broken _ _
    · dsimp only [id]
      cases w.admits start x.duration with
      | none => exact .ok none
      | some why => exact .ok (some _)

/-- A file that is none is passed over, before and after it has moved. -/
theorem verdict_of_not_suffix (h : ¬ fragmentExtension.toList <:+ r.file.path.toList)
    (hread : ∀ e, r.file.read = .error e → ∃ fault, e = .dataIntegrity fault) :
    r.verdict w = .ok none := by
  cases hfile : r.file.read with
  | error e =>
    obtain ⟨fault, rfl⟩ := hread e hfile
    simp only [verdict, read, hfile, error_bind]
  | ok file =>
    obtain ⟨-, -, -, -, hpath, -, -⟩ := FileRow.read_eq_ok_iff.1 hfile
    have hends : fragmentExtension.toList.isSuffixOf file.placement.path.toList = false := by
      rw [hpath, Bool.eq_false_iff, Ne, List.isSuffixOf_iff_suffix]
      exact h
    simp only [verdict, read, hfile, ok_bind, hends, Bool.not_false, if_true, pure_eq_ok]

theorem verdict_of_alike {q : FragmentRow} {ρ : Fragment → Fragment}
    (h : Alike (Option.map ρ) (r.read w) (q.read w)) :
    q.verdict w = (r.verdict w).map (Option.map ρ) := by
  unfold verdict
  generalize r.read w = before, q.read w = after at h
  cases h with
  | ok a => rfl
  | broken fault fault' => rfl
  | error e => cases e <;> rfl

/-- The test on names and lengths looks at no other columns. -/
theorem holds_startTest_congr {q r : FragmentRow}
    (hname : q.value (.file .filename) = r.value (.file .filename))
    (hduration : q.value (.metadata .duration) = r.value (.metadata .duration)) :
    (Query.Files.startTest w).holds q.value = (Query.Files.startTest w).holds r.value := by
  simp only [Query.Files.startTest, Query.Files.startText, Condition.holds, Condition.eval, Term.eval,
    Term.text, Term.integer, hname, hduration]

/-- What a file adds to a listing moves with it, wherever it goes. -/
theorem contribution_moved (h : m.Keeps r.file) (hold : Writable r.file.path)
    (hnew : Writable m.placement.path) (camera : String) :
    (r.moved m).contribution camera w =
      (r.contribution camera w).map (Option.map (Fragment.relocate · m)) := by
  by_cases hsuffix : fragmentExtension.toList <:+ r.file.path.toList
  · have hlisted : (r.moved m).file.IsListed ↔ r.file.IsListed :=
      iff_of_true (FileRow.isListed_of_writable hnew (h.suffix.2 hsuffix))
        (FileRow.isListed_of_writable hold hsuffix)
    have hname : (r.moved m).value (.file .filename) = r.value (.file .filename) :=
      congrArg Value.text h.filename
    have hduration : (r.moved m).value (.metadata .duration) = r.value (.metadata .duration) := by
      obtain ⟨file, metadata⟩ := r
      cases metadata <;> rfl
    have hholds : (Query.Files.inWindow camera w).condition.holds (r.moved m).value =
        (Query.Files.inWindow camera w).condition.holds r.value := by
      rw [Bool.eq_iff_iff, Query.Files.holds_inWindow, Query.Files.holds_inWindow,
        holds_startTest_congr hname hduration]
      exact and_congr_left' (and_congr_right' (and_congr_right' hlisted))
    rw [contribution, contribution, hholds, verdict_of_alike (read_moved h hsuffix)]
    split_ifs <;> rfl
  · have hsuffix' := h.suffix.not.2 hsuffix
    obtain ⟨hsize, hcreated⟩ := h.others hsuffix
    obtain ⟨tier, htier⟩ := h.tier
    have htyped : r.file.Typed :=
      ⟨⟨_, htier⟩, hsize, hcreated, h.updatedAt.imp_right Value.IsTime.isInteger⟩
    have htyped' : (r.moved m).file.Typed := ⟨⟨_, rfl⟩, hsize, hcreated, .inr ⟨_, rfl⟩⟩
    have hverdict := verdict_of_not_suffix (w := w) hsuffix fun e => FileRow.read_error htyped
    have hverdict' := verdict_of_not_suffix (r := r.moved m) (w := w) hsuffix' fun e =>
      FileRow.read_error htyped'
    simp only [contribution, hverdict, hverdict', ite_self]
    rfl

theorem id_of_contribution {camera : String} {f : Fragment}
    (h : r.contribution camera w = .ok (some f)) : f.file.id = r.file.id := by
  unfold contribution verdict at h
  split_ifs at h
  · split at h
    · cases h
    · obtain ⟨-, -, -, -, -, -, -, -, -, hid⟩ := FileRow.read_eq_ok_iff.1 (read_eq_some_iff.1 h).1
      exact hid
  · cases h

/-- Changes that agree on the fragments of a file change alike what it adds. -/
theorem map_contribution_congr {camera : String} {ρ σ : Fragment → Fragment}
    (h : ∀ f, f.file.id = r.file.id → ρ f = σ f) :
    (r.contribution camera w).map (Option.map ρ) =
      (r.contribution camera w).map (Option.map σ) := by
  cases hr : r.contribution camera w with
  | error e => rfl
  | ok found =>
    cases found with
    | none => rfl
    | some f => exact congrArg (fun f => Except.ok (some f)) (h f (id_of_contribution hr))

end FragmentRow

end Footage
