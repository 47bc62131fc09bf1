import Footage.Config
import Footage.Proofs.Path.Components
import Footage.Proofs.Sql.Selection
import Mathlib.Data.List.Nodup

/-! Which files lie on their own tier. Settings that pass their checks have one tier to an id, and a path
lies under a directory when the directory's components begin its own. For paths that are written
without idle slashes and dots that is to go on with a slash after the directory, or to be it. -/

namespace Footage.Path

open Text

/-! ### Paths without idle pieces -/

/-- Every piece stands for a component. -/
def IsSolid (path : List Char) : Prop := ∀ p ∈ pieces path, p ≠ [] ∧ p ≠ ['.']

instance (path : List Char) : Decidable (IsSolid path) :=
  inferInstanceAs (Decidable (∀ p ∈ pieces path, p ≠ [] ∧ p ≠ ['.']))

/-- A path whose only idle piece is the one that a slash in front leaves. -/
inductive IsTidy : List Char → Prop
  | root : IsTidy ['/']
  | relative {path : List Char} : IsSolid path → IsTidy path
  | absolute {path : List Char} : IsSolid path → IsTidy ('/' :: path)

/-- The component that a piece other than nothing and one dot stands for. -/
def componentOf (p : List Char) : Component := if p = ['.', '.'] then .parent else .name p

theorem componentOf_injective : Function.Injective componentOf := by
  intro p q h
  unfold componentOf at h
  split_ifs at h <;> simp_all

theorem componentOf_ne_root (p : List Char) : componentOf p ≠ .root := by
  unfold componentOf
  split_ifs <;> simp

theorem component?_eq_componentOf {p : List Char} (h : p ≠ [] ∧ p ≠ ['.']) :
    component? p = some (componentOf p) := by
  unfold component? componentOf
  split_ifs <;> simp_all

theorem components_of_head {path p : List Char} {ps : List (List Char)} (h : pieces path = p :: ps)
    (hp : p ≠ [] ∧ p ≠ ['.']) : components path = componentOf p :: ps.filterMap component? := by
  rw [components_of_pieces h, firstComponent?, if_neg hp.1, if_neg hp.2, component?_eq_componentOf hp]
  rfl

theorem IsSolid.filterMap_eq {path : List Char} (h : IsSolid path) :
    (pieces path).filterMap component? = (pieces path).map componentOf := by
  rw [← List.filterMap_eq_map]
  exact List.filterMap_congr fun p hp => component?_eq_componentOf (h p hp)

theorem IsSolid.components_eq {path : List Char} (h : IsSolid path) :
    components path = (pieces path).map componentOf := by
  obtain ⟨p, ps, hpieces⟩ := exists_pieces path
  have hp : p ≠ [] ∧ p ≠ ['.'] := h p (hpieces ▸ List.mem_cons_self)
  rw [components_of_head hpieces hp, ← h.filterMap_eq, hpieces,
    List.filterMap_cons_some (component?_eq_componentOf hp)]

theorem IsSolid.components_slash_eq {path : List Char} (h : IsSolid path) :
    components ('/' :: path) = .root :: (pieces path).map componentOf := by
  rw [components_slash, h.filterMap_eq]

theorem IsSolid.ne_nil {path : List Char} (h : IsSolid path) : path ≠ [] := by
  rintro rfl
  exact (h [] List.mem_cons_self).1 rfl

theorem IsSolid.head?_ne {path : List Char} (h : IsSolid path) : path.head? ≠ some '/' := by
  intro hhead
  obtain ⟨rest, rfl⟩ := List.head?_eq_some_iff.1 hhead
  exact (h [] List.mem_cons_self).1 rfl

/-! ### Starting with a directory -/

theorem startsWith_iff {path root : List Char} :
    startsWith path root = true ↔ components root <+: components path :=
  List.isPrefixOf_iff_prefix

theorem not_map_componentOf_prefix_root (path : List Char) (cs : List Component) :
    ¬ (pieces path).map componentOf <+: .root :: cs := by
  obtain ⟨p, ps, hpieces⟩ := exists_pieces path
  rw [hpieces, List.map_cons, List.cons_prefix_cons]
  exact fun h => componentOf_ne_root p h.1

theorem not_root_prefix_map_componentOf (path : List Char) (cs : List Component) :
    ¬ .root :: cs <+: (pieces path).map componentOf := by
  obtain ⟨p, ps, hpieces⟩ := exists_pieces path
  rw [hpieces, List.map_cons, List.cons_prefix_cons]
  exact fun h => componentOf_ne_root p h.1.symm

/-- A path is another one, or goes on with a slash after it. -/
def Continues (path root : List Char) : Prop := path = root ∨ ∃ rest, path = root ++ '/' :: rest

theorem Continues.head?_eq {path root : List Char} (h : Continues path root) (hroot : root ≠ []) :
    path.head? = root.head? := by
  obtain rfl | ⟨rest, rfl⟩ := h
  · rfl
  · exact List.head?_append_of_ne_nil _ hroot

theorem continues_cons_iff {path root : List Char} (c : Char) :
    Continues (c :: path) (c :: root) ↔ Continues path root := by
  simp [Continues]

theorem map_componentOf_prefix_iff {path root : List Char} :
    (pieces root).map componentOf <+: (pieces path).map componentOf ↔ Continues path root := by
  rw [List.prefix_map_iff_of_injective componentOf_injective]
  exact pieces_prefix_iff

theorem IsTidy.startsWith_root_iff {path : List Char} (h : IsTidy path) :
    startsWith path ['/'] = true ↔ path.head? = some '/' := by
  rw [Path.startsWith_iff]
  change [Component.root] <+: _ ↔ _
  cases h with
  | root => exact iff_of_true List.prefix_rfl rfl
  | relative h =>
    rw [h.components_eq]
    exact iff_of_false (not_root_prefix_map_componentOf _ _) h.head?_ne
  | absolute h =>
    rw [h.components_slash_eq]
    exact iff_of_true (List.prefix_append [Component.root] _) rfl

theorem IsTidy.startsWith_iff_continues {path root : List Char} (hpath : IsTidy path)
    (hroot : IsTidy root) (hne : root ≠ ['/']) : startsWith path root = true ↔ Continues path root := by
  rw [Path.startsWith_iff]
  cases hroot with
  | root => exact absurd rfl hne
  | relative hroot =>
    have hslash (l : List Char) : ¬ Continues ('/' :: l) root := fun h =>
      hroot.head?_ne (h.head?_eq hroot.ne_nil).symm
    rw [hroot.components_eq]
    cases hpath with
    | root => exact iff_of_false (not_map_componentOf_prefix_root root []) (hslash [])
    | relative hpath => rw [hpath.components_eq, map_componentOf_prefix_iff]
    | absolute hpath =>
      rw [hpath.components_slash_eq]
      exact iff_of_false (not_map_componentOf_prefix_root root _) (hslash _)
  | @absolute root hroot =>
    rw [hroot.components_slash_eq]
    cases hpath with
    | root =>
      rw [continues_cons_iff]
      refine iff_of_false ?_ ?_
      · change ¬ .root :: _ <+: [Component.root]
        simpa [pieces] using pieces_ne_nil '/' root
      · rintro (h | ⟨rest, h⟩)
        · exact hroot.ne_nil h.symm
        · simp at h
    | relative hpath =>
      rw [hpath.components_eq]
      exact iff_of_false (not_root_prefix_map_componentOf _ _) fun h =>
        hpath.head?_ne (h.head?_eq (List.cons_ne_nil _ _))
    | absolute hpath =>
      rw [hpath.components_slash_eq, List.cons_prefix_cons, continues_cons_iff,
        map_componentOf_prefix_iff, and_iff_right rfl]

/-- A tidy path lies under another one when it is that one or goes on with a slash after it. Only
the root has the slash itself. -/
theorem IsTidy.startsWith_iff {path root : List Char} (hpath : IsTidy path) (hroot : IsTidy root) :
    startsWith path root = true ↔
      path = root ∨ root = ['/'] ∧ path.head? = some '/' ∨ ∃ rest, path = root ++ '/' :: rest := by
  by_cases hne : root = ['/']
  · subst hne
    rw [hpath.startsWith_root_iff]
    refine ⟨fun h => .inr (.inl ⟨rfl, h⟩), ?_⟩
    rintro (rfl | ⟨-, h⟩ | ⟨rest, rfl⟩)
    · rfl
    · exact h
    · rfl
  · rw [hpath.startsWith_iff_continues hroot hne, Continues]
    simp [hne]

/-! ### Names that only begin alike -/

theorem exists_components_append {above : List Char}
    (h : above = [] ∨ ∃ upper, above = upper ++ ['/']) :
    ∃ cs, ∀ p text ps, pieces text = p :: ps → p ≠ [] ∧ p ≠ ['.'] →
      components (above ++ text) = cs ++ componentOf p :: ps.filterMap component? := by
  obtain rfl | ⟨upper, rfl⟩ := h
  · exact ⟨[], fun p text ps hpieces hp => components_of_head hpieces hp⟩
  · refine ⟨components (upper ++ ['/']), fun p text ps hpieces hp => ?_⟩
    rw [← List.append_cons, components_append_slash, hpieces,
      List.filterMap_cons_some (component?_eq_componentOf hp)]

theorem exists_last_piece (path : List Char) :
    ∃ above last, path = above ++ last ∧ (above = [] ∨ ∃ upper, above = upper ++ ['/']) ∧
      last ∈ pieces path := by
  obtain ⟨before, last, hpieces⟩ : ∃ before last, pieces path = before ++ [last] :=
    (List.eq_nil_or_concat' _).resolve_left (pieces_ne_nil '/' path)
  have hclear : ∀ p ∈ before ++ [last], '/' ∉ p := fun p hp =>
    separator_notMem_of_mem_pieces (hpieces ▸ hp)
  have hlast : pieces last = [last] := pieces_of_notMem (hclear last (by simp))
  have hmem : last ∈ pieces path := hpieces ▸ by simp
  by_cases hbefore : before = []
  · refine ⟨[], last, pieces_injective '/' ?_, .inl rfl, hmem⟩
    rw [hbefore] at hpieces
    exact hpieces.trans hlast.symm
  · refine ⟨['/'].intercalate before ++ ['/'], last, pieces_injective '/' ?_, .inr ⟨_, rfl⟩, hmem⟩
    have hupper : pieces (['/'].intercalate before) = before :=
      pieces_intercalate hbefore fun p hp => hclear p (List.mem_append_left _ hp)
    rw [← List.append_cons, pieces_append_cons]
    exact hpieces.trans (congrArg₂ (· ++ ·) hupper hlast).symm

/-- A tidy path other than the root ends with a piece that stands for a component. -/
theorem IsTidy.exists_last {path : List Char} (h : IsTidy path) (hne : path ≠ ['/']) :
    ∃ above last, path = above ++ last ∧ (above = [] ∨ ∃ upper, above = upper ++ ['/']) ∧
      '/' ∉ last ∧ last ≠ [] ∧ last ≠ ['.'] := by
  cases h with
  | root => exact absurd rfl hne
  | relative h =>
    obtain ⟨above, last, hpath, habove, hmem⟩ := exists_last_piece path
    exact ⟨above, last, hpath, habove, separator_notMem_of_mem_pieces hmem, h last hmem⟩
  | @absolute path h =>
    obtain ⟨above, last, hpath, habove, hmem⟩ := exists_last_piece path
    refine ⟨'/' :: above, last, congrArg _ hpath, .inr ?_, separator_notMem_of_mem_pieces hmem,
      h last hmem⟩
    obtain rfl | ⟨upper, rfl⟩ := habove
    · exact ⟨[], rfl⟩
    · exact ⟨'/' :: upper, rfl⟩

theorem IsTidy.not_startsWith_append {root : List Char} (h : IsTidy root) (hne : root ≠ ['/'])
    {c : Char} (hc : c ≠ '/') (rest : List Char) : startsWith (root ++ c :: rest) root = false := by
  obtain ⟨above, last, rfl, habove, hclear, hlast⟩ := h.exists_last hne
  obtain ⟨cs, hcs⟩ := exists_components_append habove
  obtain ⟨p, ps, hrest⟩ := exists_pieces rest
  have hpieces : pieces (last ++ c :: rest) = (last ++ c :: p) :: ps := by
    have hlonger : '/' ∉ last ++ [c] := by simp [hclear, hc.symm]
    rw [List.append_cons, List.append_cons last c p]
    exact pieces_append_of_notMem hlonger hrest
  have hlonger : last ++ c :: p ≠ [] ∧ last ++ c :: p ≠ ['.'] := by
    refine ⟨by simp, fun hdot => hlast.1 ?_⟩
    exact (List.append_eq_singleton_iff.1 hdot).elim (·.1) fun h => absurd h.2 (List.cons_ne_nil _ _)
  rw [← Bool.not_eq_true, Path.startsWith_iff, List.append_assoc,
    hcs _ _ _ hpieces hlonger, hcs last last [] (pieces_of_notMem hclear) hlast,
    List.prefix_append_right_inj, List.cons_prefix_cons, componentOf_injective.eq_iff]
  simp

end Footage.Path

namespace Footage.Tier

open Footage.Path

variable {config : Config}

theorem tierFault?_eq_none_iff {seen ids : List ℤ} :
    Config.tierFault? seen ids = none ↔ ids.Nodup ∧ ∀ id ∈ ids, id ∉ seen := by
  induction ids generalizing seen with
  | nil => simp [Config.tierFault?]
  | cons id ids ih =>
    rw [Config.tierFault?, List.nodup_cons]
    split_ifs with hid
    · simp [hid]
    · rw [ih]
      grind

theorem nodup_ids (h : config.fault? = none) : (config.tiers.map (·.id)).Nodup := by
  obtain ⟨-, htiers⟩ := Option.or_eq_none_iff.1 h
  exact (tierFault?_eq_none_iff.1 htiers).1

/-- Where no id is there twice, the first tier of an id is the only one. -/
theorem of?_eq_some_iff {tiers : List Tier} (h : (tiers.map (·.id)).Nodup) {placement : Placement}
    {tier : Tier} :
    of? tiers placement = some tier ↔ tiers.filter (·.id = placement.tier) = [tier] := by
  rw [of?, ← List.head?_filter]
  have hids : ((tiers.filter (·.id = placement.tier)).map (·.id)).Nodup :=
    h.sublist (List.filter_sublist.map _)
  have hall : ∀ t ∈ tiers.filter (·.id = placement.tier), t.id = placement.tier := fun t ht => by
    simpa using (List.mem_filter.1 ht).2
  cases hfilter : tiers.filter (·.id = placement.tier) with
  | nil => simp
  | cons t ts =>
    cases ts with
    | nil => simp
    | cons u ts =>
      rw [hfilter] at hids hall
      have hsame : t.id = u.id := (hall t (by simp)).trans (hall u (by simp)).symm
      simp [hsame] at hids

theorem contains_eq_true_iff {tiers : List Tier} {placement : Placement} :
    contains tiers placement = true ↔ ∃ tier, of? tiers placement = some tier ∧
      startsWith placement.path.toList tier.path.toList = true := by
  unfold contains
  cases of? tiers placement <;> simp

theorem contains_of_mem (h : config.fault? = none) {placement : Placement} {tier : Tier}
    (htier : tier ∈ config.tiers) (hid : tier.id = placement.tier) :
    contains config.tiers placement = startsWith placement.path.toList tier.path.toList := by
  have hfind : of? config.tiers placement = some tier :=
    (Sql.find?_key_eq_some_iff (nodup_ids h)).2 ⟨htier, hid⟩
  rw [contains, hfind]

/-- Slashes and dots that mean nothing are added to a tier's directory. -/
def Widens (tier wider : Tier) : Prop :=
  wider.id = tier.id ∧ Relation.ReflTransGen Path.Widens tier.path.toList wider.path.toList

theorem contains_of_widened {tiers wider : List Tier} (h : List.Forall₂ Widens tiers wider)
    {placement widerPlacement : Placement} (hid : widerPlacement.tier = placement.tier)
    (hpath : Relation.ReflTransGen Path.Widens placement.path.toList widerPlacement.path.toList) :
    contains wider widerPlacement = contains tiers placement := by
  induction h with
  | nil => rfl
  | @cons t u ts us ht _ ih =>
    unfold contains of? at ih ⊢
    rw [List.find?_cons, List.find?_cons, ht.1, hid]
    cases decide (t.id = placement.tier) with
    | true =>
      simp only [startsWith]
      rw [components_of_widened hpath, components_of_widened ht.2]
    | false => rwa [hid] at ih

/-- A file lies on its tier when there is one tier of its id, and the components of that tier's
directory begin those of the path. Where both are tidy, that is to go on with a slash after the
directory; a name that only begins like the directory's does not do. Slashes and dots that mean
nothing change no answer. -/
theorem contains_by_components (h : config.fault? = none) (placement : Placement) :
    (contains config.tiers placement = true ↔
      ∃ tier, config.tiers.filter (·.id = placement.tier) = [tier] ∧
        components tier.path.toList <+: components placement.path.toList) ∧
    (∀ tier ∈ config.tiers, tier.id = placement.tier → IsTidy tier.path.toList →
      IsTidy placement.path.toList →
      (contains config.tiers placement = true ↔
        placement.path = tier.path ∨
        tier.path = "/" ∧ placement.path.toList.head? = some '/' ∨
        ∃ rest, placement.path.toList = tier.path.toList ++ '/' :: rest)) ∧
    (∀ tier ∈ config.tiers, tier.id = placement.tier → IsTidy tier.path.toList → tier.path ≠ "/" →
      ∀ c rest, placement.path.toList = tier.path.toList ++ c :: rest → c ≠ '/' →
        contains config.tiers placement = false) ∧
    ∀ tiers wider, List.Forall₂ Widens config.tiers tiers → wider.tier = placement.tier →
      Relation.ReflTransGen Path.Widens placement.path.toList wider.path.toList →
      contains tiers wider = contains config.tiers placement := by
  have hroot (tier : Tier) : tier.path.toList = ['/'] ↔ tier.path = "/" := by
    rw [← String.toList_inj]
    rfl
  refine ⟨?_, fun tier htier hid hdirectory hpath => ?_,
    fun tier htier hid hdirectory hne c rest hpath hc => ?_, fun _ _ hwider hid => contains_of_widened hwider hid⟩
  · simp only [contains_eq_true_iff, of?_eq_some_iff (nodup_ids h), startsWith_iff]
  · rw [contains_of_mem h htier hid, ← hroot, ← String.toList_inj]
    exact hpath.startsWith_iff hdirectory
  · rw [contains_of_mem h htier hid, hpath]
    exact hdirectory.not_startsWith_append (mt (hroot tier).1 hne) hc rest

/-- A tier for new files and one for old ones. -/
def mounts : Config where
  database := "db.sqlite"
  cameras := []
  lookback := 0
  tiers := [⟨0, "hot", "/mnt/hot"⟩, ⟨1, "archive", "/mnt/archive"⟩]

theorem contains_mounts :
    mounts.fault? = none ∧
    contains mounts.tiers ⟨1, "/mnt/archive/cam/1.m4s", "/mnt/archive/cam", "1.m4s"⟩ = true ∧
    contains mounts.tiers ⟨1, "/mnt/archive2/1.m4s", "/mnt/archive2", "1.m4s"⟩ = false := by
  have harchive : IsTidy "/mnt/archive".toList := .absolute (by decide)
  have hmem : ⟨1, "archive", "/mnt/archive"⟩ ∈ mounts.tiers := by decide
  have hfault : mounts.fault? = none := by decide
  refine ⟨hfault, ?_, ?_⟩
  · obtain ⟨-, htidy, -⟩ := contains_by_components hfault
      ⟨1, "/mnt/archive/cam/1.m4s", "/mnt/archive/cam", "1.m4s"⟩
    refine (htidy _ hmem rfl harchive (.absolute (by decide))).2 (.inr (.inr ⟨?_, ?_⟩))
    · exact "cam/1.m4s".toList
    · decide
  · obtain ⟨-, -, hbegins, -⟩ := contains_by_components hfault
      ⟨1, "/mnt/archive2/1.m4s", "/mnt/archive2", "1.m4s"⟩
    exact hbegins _ hmem rfl harchive (by decide) '2' "/1.m4s".toList (by decide) (by decide)

end Footage.Tier
