import Footage.Placement
import Footage.Proofs.Path.Components

/-! What a path is split into. A path has a filename exactly when it ends with a name, up to slashes that
mean nothing. Its directory has the components before the name and ends with a component itself, so
the name joined to it leads to the same directory and name again. -/

namespace Footage.Path

open Text

/-! ### Pieces -/

/-- A piece that is a name: not empty, and not one or two dots. -/
def IsName (p : List Char) : Prop := p ≠ [] ∧ p ≠ ['.'] ∧ p ≠ ['.', '.']

theorem component?_eq_none_iff {p : List Char} : component? p = none ↔ p = [] ∨ p = ['.'] := by
  unfold component?
  split_ifs <;> simp_all

theorem component?_eq_name_iff {p name : List Char} :
    component? p = some (.name name) ↔ IsName p ∧ p = name := by
  unfold component? IsName
  split_ifs <;> grind

theorem firstComponent?_eq_name_iff {p name : List Char} {isLast : Bool} :
    firstComponent? p isLast = some (.name name) ↔ IsName p ∧ p = name := by
  rw [← component?_eq_name_iff]
  unfold firstComponent?
  split_ifs with hnil _ hdot <;> simp_all

theorem IsName.component?_eq {name : List Char} (h : IsName name) : component? name = some (.name name) :=
  component?_eq_name_iff.2 ⟨h, rfl⟩

theorem IsName.firstComponent?_eq {name : List Char} (h : IsName name) (isLast : Bool) :
    firstComponent? name isLast = some (.name name) := by
  rw [firstComponent?, if_neg h.1, if_neg h.2.1, h.component?_eq]

/-- Pieces of which none stands for a component. -/
def Bare (ps : List (List Char)) : Prop := ∀ p ∈ ps, component? p = none

theorem Bare.filterMap_eq {ps : List (List Char)} (h : Bare ps) : ps.filterMap component? = [] :=
  List.filterMap_eq_nil_iff.2 h

theorem Bare.isPadding {ps : List (List Char)} (h : Bare ps) : IsPadding (ps.flatMap ('/' :: ·)) := by
  induction ps with
  | nil => exact .nil
  | cons p ps ih =>
    have ih := ih fun q hq => h q (List.mem_cons_of_mem _ hq)
    rcases component?_eq_none_iff.1 (h p List.mem_cons_self) with rfl | rfl
    · exact .slash ih
    · exact .dot ih

/-! ### The end of a path -/

theorem dropEmptyEnd_eq (ps : List (List Char)) :
    dropEmptyEnd ps = ps.rdropWhile fun p => (component? p).isNone := rfl

theorem exists_bare (ps : List (List Char)) : ∃ gap, Bare gap ∧ ps = dropEmptyEnd ps ++ gap := by
  refine ⟨ps.rtakeWhile fun p => (component? p).isNone, fun p hp => ?_, ?_⟩
  · simpa using List.mem_rtakeWhile_imp hp
  · exact List.rdropWhile_append_rtakeWhile.symm

@[simp] theorem dropEmptyEnd_dropEmptyEnd (ps : List (List Char)) :
    dropEmptyEnd (dropEmptyEnd ps) = dropEmptyEnd ps := List.rdropWhile_idempotent _ ps

theorem dropEmptyEnd_concat {ps : List (List Char)} {name : List Char} (h : IsName name) :
    dropEmptyEnd (ps ++ [name]) = ps ++ [name] := by
  refine List.rdropWhile_concat_neg _ _ _ ?_
  simp [h.component?_eq]

theorem filterMap_dropEmptyEnd (ps : List (List Char)) :
    (dropEmptyEnd ps).filterMap component? = ps.filterMap component? := by
  obtain ⟨gap, hgap, hps⟩ := exists_bare ps
  conv_rhs => rw [hps, List.filterMap_append, hgap.filterMap_eq, List.append_nil]

theorem exists_concat_of_dropEmptyEnd {ps : List (List Char)} (h : dropEmptyEnd ps ≠ []) :
    ∃ above p c, dropEmptyEnd ps = above ++ [p] ∧ component? p = some c := by
  have hlast := List.rdropWhile_last_not _ ps h
  obtain ⟨c, hc⟩ := Option.ne_none_iff_exists'.1 (by simpa using hlast)
  exact ⟨_, _, c, (List.dropLast_append_getLast h).symm, hc⟩

/-! ### Filename and directory -/

theorem filename?_eq_some_iff {path name : List Char} :
    filename? path = some name ↔ (components path).getLast? = some (.name name) := by
  unfold filename?
  split <;> simp_all

/-- The directory of a path whose first piece is `p`, with the pieces `above` before its name. -/
def directoryOf (p : List Char) (above : List (List Char)) : List Char :=
  if above = [] then (if p = [] then ['/'] else p) else ['/'].intercalate (p :: above)

theorem directory_of_pieces {path p : List Char} {ps : List (List Char)} (h : pieces path = p :: ps) :
    directory path =
      if dropEmptyEnd ps = [] then [] else directoryOf p (dropEmptyEnd (dropEmptyEnd ps).dropLast) := by
  simp only [directory, h, directoryOf, List.isEmpty_iff]

/-- A path with a filename is one name, or its name has pieces above it, and a directory is made of
those up to the last that stands for a component. -/
theorem exists_pieces_of_filename? {path name : List Char} (h : filename? path = some name) :
    IsName name ∧ ∃ tail, Bare tail ∧
      (pieces path = name :: tail ∧ directory path = [] ∨
        ∃ p above gap, Bare gap ∧ dropEmptyEnd above = above ∧
          pieces path = p :: (above ++ gap ++ [name] ++ tail) ∧
          directory path = directoryOf p above) := by
  obtain ⟨p, ps, hpieces⟩ := exists_pieces path
  obtain ⟨tail, htail, hps⟩ := exists_bare ps
  rw [filename?_eq_some_iff, components_of_pieces hpieces, ← filterMap_dropEmptyEnd] at h
  by_cases hbefore : dropEmptyEnd ps = []
  · have hfirst : firstComponent? p ps.isEmpty = some (.name name) := by
      have hlast (o : Option Component) : o.toList.getLast? = o := by cases o <;> rfl
      rwa [hbefore, List.filterMap_nil, List.append_nil, hlast] at h
    obtain ⟨hname, rfl⟩ := firstComponent?_eq_name_iff.1 hfirst
    rw [hbefore, List.nil_append] at hps
    refine ⟨hname, tail, htail, .inl ⟨hps ▸ hpieces, ?_⟩⟩
    rw [directory_of_pieces hpieces, if_pos hbefore]
  · obtain ⟨before, q, c, hconcat, hc⟩ := exists_concat_of_dropEmptyEnd hbefore
    have hlast : ((firstComponent? p ps.isEmpty).toList ++
        (before ++ [q]).filterMap component?).getLast? = some c := by
      simp [List.filterMap_append, hc]
    obtain rfl : c = .name name := Option.some.inj (hlast.symm.trans (hconcat ▸ h))
    obtain ⟨hname, rfl⟩ := component?_eq_name_iff.1 hc
    obtain ⟨gap, hgap, hgaps⟩ := exists_bare before
    refine ⟨hname, tail, htail, .inr ⟨p, dropEmptyEnd before, gap, hgap, by simp, ?_, ?_⟩⟩
    · rw [hpieces, ← hgaps, ← hconcat, ← hps]
    · rw [directory_of_pieces hpieces, if_neg hbefore, hconcat, List.dropLast_concat]

/-- A path has a filename when it ends with a name and padding. -/
theorem filename?_eq_some_iff_ends {path name : List Char} :
    filename? path = some name ↔ IsName name ∧ '/' ∉ name ∧ ∃ above padding, IsPadding padding ∧
      (above = [] ∨ ∃ upper, above = upper ++ ['/']) ∧ path = above ++ name ++ padding := by
  constructor
  · intro h
    obtain ⟨hname, tail, htail, hcases⟩ := exists_pieces_of_filename? h
    have hpath : ['/'].intercalate (pieces path) = path := intercalate_pieces '/' path
    rcases hcases with ⟨hpieces, -⟩ | ⟨p, above, gap, -, -, hpieces, -⟩
    · have hclear : '/' ∉ name := separator_notMem_of_mem_pieces (hpieces ▸ List.mem_cons_self)
      refine ⟨hname, hclear, [], _, htail.isPadding, .inl rfl, ?_⟩
      rw [← hpath, hpieces, intercalate_cons, List.nil_append]
    · have hclear : '/' ∉ name := separator_notMem_of_mem_pieces (l := path) <| by
        change name ∈ pieces path
        rw [hpieces]
        simp
      refine ⟨hname, hclear, _, _, htail.isPadding,
        .inr ⟨p ++ (above ++ gap).flatMap ('/' :: ·), rfl⟩, ?_⟩
      rw [← hpath, hpieces, intercalate_cons]
      simp
  · rintro ⟨hname, hclear, above, padding, hpadding, habove, rfl⟩
    have hne : above ++ name ≠ [] := List.append_ne_nil_of_right_ne_nil _ hname.1
    have hpieces : pieces name = [name] := pieces_of_notMem hclear
    rw [filename?_eq_some_iff, components_append_padding hpadding hne]
    rcases habove with rfl | ⟨upper, rfl⟩
    · rw [List.nil_append, components_of_pieces hpieces, hname.firstComponent?_eq]
      rfl
    · rw [← List.append_cons, components_append_slash, hpieces]
      simp [hname.component?_eq]

/-! ### Putting a name under a directory -/

/-- The path of a name under a directory. A path with a slash in front stands for itself. -/
def join (directory name : List Char) : List Char :=
  if name.head? = some '/' then name
  else if directory = [] ∨ directory.getLast? = some '/' then directory ++ name
  else directory ++ '/' :: name

/-- No slash or dot of the end means nothing. -/
def IsTrimmed (path : List Char) : Prop :=
  path = ['/'] ∨ ∃ p ps, pieces path = p :: ps ∧ dropEmptyEnd ps = ps

theorem pieces_directoryOf {p : List Char} {above : List (List Char)} (habove : above ≠ [])
    (hclear : ∀ q ∈ p :: above, '/' ∉ q) : pieces (directoryOf p above) = p :: above := by
  rw [directoryOf, if_neg habove]
  exact pieces_intercalate (List.cons_ne_nil _ _) hclear

theorem isTrimmed_directoryOf {p : List Char} {above : List (List Char)}
    (htrim : dropEmptyEnd above = above) (hclear : ∀ q ∈ p :: above, '/' ∉ q) :
    IsTrimmed (directoryOf p above) := by
  by_cases habove : above = []
  · subst habove
    by_cases hp : p = []
    · exact .inl (by rw [directoryOf, if_pos rfl, if_pos hp])
    · refine .inr ⟨p, [], ?_, rfl⟩
      rw [directoryOf, if_pos rfl, if_neg hp]
      exact pieces_of_notMem (hclear p List.mem_cons_self)
  · exact .inr ⟨p, above, pieces_directoryOf habove hclear, htrim⟩

theorem components_directoryOf {p : List Char} {above : List (List Char)}
    (hclear : ∀ q ∈ p :: above, '/' ∉ q) :
    components (directoryOf p above) =
      (firstComponent? p false).toList ++ above.filterMap component? := by
  by_cases habove : above = []
  · subst habove
    rw [directoryOf, if_pos rfl, List.filterMap_nil, List.append_nil]
    split_ifs with hp
    · rw [hp]
      rfl
    · have hpieces : pieces p = [p] := pieces_of_notMem (hclear p List.mem_cons_self)
      rw [components_of_pieces hpieces, firstComponent?_of_ne_nil hp, List.filterMap_nil,
        List.append_nil]
  · have hempty : above.isEmpty = false := by simpa using habove
    rw [components_of_pieces (pieces_directoryOf habove hclear), hempty]

theorem directoryOf_pieces {directory p : List Char} {ps : List (List Char)}
    (h : pieces directory = p :: ps) (hne : directory ≠ []) : directoryOf p ps = directory := by
  have hjoined : ['/'].intercalate (p :: ps) = directory := by
    rw [← h]
    exact intercalate_pieces '/' directory
  rw [directoryOf]
  split_ifs with hps hp
  · subst hps hp
    exact absurd hjoined.symm hne
  · subst hps
    simpa using hjoined
  · exact hjoined

/-- A directory that is trimmed, and not the root, does not end with a slash. -/
theorem IsTrimmed.join_eq {directory name : List Char} (h : IsTrimmed directory)
    (hne : directory ≠ []) (hroot : directory ≠ ['/']) (hclear : '/' ∉ name) :
    join directory name = directory ++ '/' :: name := by
  have hhead : name.head? ≠ some '/' := fun hhead => hclear (List.mem_of_mem_head? hhead)
  have hlast : directory.getLast? ≠ some '/' := by
    intro hlast
    obtain ⟨upper, rfl⟩ := List.getLast?_eq_some_iff.1 hlast
    obtain ⟨p, ps, hpieces, htrim⟩ := h.resolve_left hroot
    obtain ⟨q, qs, hupper⟩ := exists_pieces upper
    have hsplit : pieces (upper ++ ['/']) = pieces upper ++ [[]] := pieces_append_cons upper []
    rw [hpieces, hupper, List.cons_append, List.cons.injEq] at hsplit
    rw [hsplit.2, dropEmptyEnd_eq, List.rdropWhile_concat_pos _ _ _ rfl] at htrim
    have hlength := List.rdropWhile_prefix (fun p => (component? p).isNone) qs |>.length_le
    rw [htrim, List.length_append, List.length_singleton] at hlength
    omega
  rw [join, if_neg hhead, if_neg (not_or.2 ⟨hne, hlast⟩)]

theorem directory_join {directory name : List Char} (h : IsTrimmed directory) (hname : IsName name)
    (hclear : '/' ∉ name) : Path.directory (join directory name) = directory ∧
      components (join directory name) = components directory ++ [.name name] := by
  have hhead : name.head? ≠ some '/' := fun hhead => hclear (List.mem_of_mem_head? hhead)
  have hpieces : pieces name = [name] := pieces_of_notMem hclear
  by_cases hne : directory = []
  · subst hne
    have hjoin : join [] name = name := by rw [join, if_neg hhead, if_pos (.inl rfl), List.nil_append]
    rw [hjoin, directory_of_pieces hpieces, components_of_pieces hpieces, hname.firstComponent?_eq]
    exact ⟨rfl, rfl⟩
  obtain ⟨p, ps, hjoin, htrim, hdirectory, hclears⟩ : ∃ p ps,
      pieces (join directory name) = p :: (ps ++ [name]) ∧ dropEmptyEnd ps = ps ∧
        directoryOf p ps = directory ∧ ∀ q ∈ p :: ps, '/' ∉ q := by
    by_cases hroot : directory = ['/']
    · subst hroot
      have hjoin : join ['/'] name = '/' :: name := by
        rw [join, if_neg hhead, if_pos (.inr rfl), List.singleton_append]
      refine ⟨[], [], ?_, rfl, rfl, by simp⟩
      rw [hjoin]
      exact (pieces_append_cons [] name).trans (congrArg ([[]] ++ ·) hpieces)
    · obtain ⟨p, ps, hdirectory, htrim⟩ := h.resolve_left hroot
      refine ⟨p, ps, ?_, htrim, directoryOf_pieces hdirectory hne, fun q hq => ?_⟩
      · rw [h.join_eq hne hroot hclear, ← List.cons_append, ← hdirectory, ← hpieces]
        exact pieces_append_cons directory name
      · exact separator_notMem_of_mem_pieces (hdirectory ▸ hq)
  have hempty : (ps ++ [name]).isEmpty = false := by cases ps <;> rfl
  constructor
  · rw [directory_of_pieces hjoin, dropEmptyEnd_concat hname, if_neg (by simp), List.dropLast_concat,
      htrim, hdirectory]
  · rw [components_of_pieces hjoin, hempty, List.filterMap_append, ← hdirectory,
      components_directoryOf hclears, List.append_assoc]
    simp [hname.component?_eq]

/-- The directory of a path holds the components before its name. -/
theorem components_directory {path name : List Char} (h : filename? path = some name) :
    IsTrimmed (directory path) ∧ components (directory path) ++ [.name name] = components path := by
  obtain ⟨hname, tail, htail, ⟨hpieces, hdirectory⟩ | ⟨p, above, gap, hgap, htrim, hpieces, hdirectory⟩⟩ :=
    exists_pieces_of_filename? h
  · rw [hdirectory, components_of_pieces hpieces, htail.filterMap_eq, hname.firstComponent?_eq]
    exact ⟨.inr ⟨[], [], rfl, rfl⟩, rfl⟩
  · have hclear : ∀ q ∈ p :: above, '/' ∉ q := by
      intro q hq
      refine separator_notMem_of_mem_pieces (l := path) ?_
      change q ∈ pieces path
      rw [hpieces]
      rcases List.mem_cons.1 hq with rfl | hq
      · exact List.mem_cons_self
      · simp [hq]
    have hempty : (above ++ gap ++ [name] ++ tail).isEmpty = false := by simp
    rw [hdirectory, components_directoryOf hclear, components_of_pieces hpieces, hempty]
    refine ⟨isTrimmed_directoryOf htrim hclear, ?_⟩
    simp [List.filterMap_append, hgap.filterMap_eq, htail.filterMap_eq, hname.component?_eq]

end Footage.Path

namespace Footage.Placement

open Footage.Path

variable {tier : ℤ} {path : String} {placement : Placement}

theorem ofPath_eq_ok_iff :
    ofPath tier path = .ok placement ↔ ∃ name, filename? path.toList = some name ∧
      placement = ⟨tier, path, String.ofList (Path.directory path.toList), String.ofList name⟩ := by
  unfold ofPath
  cases filename? path.toList with
  | none => simp
  | some name => simp [eq_comm]

theorem exists_ofPath_iff :
    (∃ placement, ofPath tier path = .ok placement) ↔ ∃ name, filename? path.toList = some name := by
  simp only [ofPath_eq_ok_iff]
  exact ⟨fun ⟨_, name, h, _⟩ => ⟨name, h⟩, fun ⟨name, h⟩ => ⟨_, name, h, rfl⟩⟩

/-- A path is split exactly when its last component is a name, which is when it ends with a name and
padding. Its directory and filename have its components, and joined they are split as before. -/
theorem ofPath_splits (tier : ℤ) (path : String) :
    ((∃ placement, ofPath tier path = .ok placement) ↔
      ∃ name, (components path.toList).getLast? = some (.name name)) ∧
    ((∃ placement, ofPath tier path = .ok placement) ↔
      ∃ above name padding, path.toList = above ++ name ++ padding ∧ IsName name ∧ '/' ∉ name ∧
        (above = [] ∨ ∃ upper, above = upper ++ ['/']) ∧ IsPadding padding) ∧
    (ofPath tier path = .error (.invalidArgument (.noFilename path)) ↔
      ∀ placement, ofPath tier path ≠ .ok placement) ∧
    ∀ placement, ofPath tier path = .ok placement →
      placement.tier = tier ∧ placement.path = path ∧
      placement.filename ≠ "" ∧ '/' ∉ placement.filename.toList ∧
      components placement.directory.toList ++ [.name placement.filename.toList] =
        components path.toList ∧
      let joined := String.ofList (join placement.directory.toList placement.filename.toList)
      ofPath tier joined = .ok { placement with path := joined } := by
  refine ⟨?_, ?_, ?_, fun placement h => ?_⟩
  · simp only [exists_ofPath_iff, filename?_eq_some_iff]
  · simp only [exists_ofPath_iff, filename?_eq_some_iff_ends]
    constructor
    · rintro ⟨name, hname, hclear, above, padding, hpadding, habove, hpath⟩
      exact ⟨above, name, padding, hpath, hname, hclear, habove, hpadding⟩
    · rintro ⟨above, name, padding, hpath, hname, hclear, habove, hpadding⟩
      exact ⟨name, hname, hclear, above, padding, hpadding, habove, hpath⟩
  · unfold ofPath
    cases filename? path.toList <;> simp
  · obtain ⟨name, hfilename, rfl⟩ := ofPath_eq_ok_iff.1 h
    obtain ⟨hname, hclear, -⟩ := filename?_eq_some_iff_ends.1 hfilename
    obtain ⟨htrim, hcomponents⟩ := components_directory hfilename
    obtain ⟨hdirectory, hjoined⟩ := directory_join htrim hname hclear
    refine ⟨rfl, rfl, fun hempty => hname.1 ?_, ?_, ?_, ?_⟩
    · simpa using congrArg String.toList hempty
    · rwa [String.toList_ofList]
    · rwa [String.toList_ofList, String.toList_ofList]
    · have hagain : filename? (join (Path.directory path.toList) name) = some name := by
        rw [filename?_eq_some_iff, hjoined, List.getLast?_concat]
      refine ofPath_eq_ok_iff.2 ⟨name, ?_, ?_⟩
      · simpa only [String.toList_ofList] using hagain
      · simp only [String.toList_ofList, hdirectory]

example : ofPath 0 "./a/.//b/." = .ok ⟨0, "./a/.//b/.", "./a", "b"⟩ := by decide

example : ofPath 0 "a/.." = .error (.invalidArgument (.noFilename "a/..")) := by decide

end Footage.Placement
