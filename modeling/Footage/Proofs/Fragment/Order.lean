import Footage.Fragment
import Footage.Proofs.Sql.Selection

/-! The order in which fragments are listed: by start, by filename, and where these
are the same by the id of the file. The listing sorts twice, first rows by name
and then fragments by start, and each sort keeps the order of what it cannot tell
apart. So the ids are ordered last without being compared. -/

namespace Footage

/-! ### Sorting -/

section Sorting
variable {α : Type} {R : α → α → Prop}

/-- Sorting keeps a relation between elements that it does not tell apart. -/
theorem pairwise_mergeSort_stable (le : α → α → Bool)
    (trans : ∀ a b c, le a b → le b c → le a c) (total : ∀ a b, le a b || le b a) {l : List α}
    (h : l.Pairwise R) :
    (l.mergeSort le).Pairwise fun a b => le a b ∧ (le b a → R a b) := by
  induction l with
  | nil => simp
  | cons a l ih =>
    obtain ⟨ha, hl⟩ := List.pairwise_cons.1 h
    have hsorted := List.pairwise_mergeSort trans total (a :: l)
    have hperm := List.mergeSort_perm l le
    obtain ⟨before, after, heq, hrest, hless⟩ := List.mergeSort_cons trans total a l
    have ih := ih hl
    rw [heq] at hsorted ⊢
    rw [hrest] at ih hperm
    rw [List.pairwise_append, List.pairwise_cons] at hsorted
    rw [List.pairwise_append] at ih
    obtain ⟨-, ⟨hafter, -⟩, hbetween⟩ := hsorted
    obtain ⟨ihbefore, ihafter, ihbetween⟩ := ih
    rw [List.pairwise_append, List.pairwise_cons]
    refine ⟨ihbefore, ⟨?_, ihafter⟩, ?_⟩
    · intro b hb
      exact ⟨hafter b hb, fun _ => ha b (hperm.mem_iff.1 (List.mem_append_right _ hb))⟩
    · intro b hb c hc
      rcases List.mem_cons.1 hc with rfl | hc
      · have hnot := hless b hb
        exact ⟨hbetween b hb c List.mem_cons_self, fun hle => by simp [hle] at hnot⟩
      · exact ihbetween b hb c hc

/-- A sorted list is split at the place of an element by the comparison with it. -/
theorem append_inj_of_le {le : α → α → Bool} {a : α} {l₁ l₂ m₁ m₂ : List α}
    (h : l₁ ++ l₂ = m₁ ++ m₂) (hl₁ : ∀ b ∈ l₁, !le a b) (hl₂ : ∀ b ∈ l₂, le a b)
    (hm₁ : ∀ b ∈ m₁, !le a b) (hm₂ : ∀ b ∈ m₂, le a b) : l₁ = m₁ ∧ l₂ = m₂ := by
  have htake {u v : List α} (hu : ∀ b ∈ u, !le a b) (hv : ∀ b ∈ v, le a b) :
      (u ++ v).filter (fun b => !le a b) = u := by
    rw [List.filter_append, List.filter_eq_self.2 hu, List.filter_eq_nil_iff.2, List.append_nil]
    intro b hb
    simp [hv b hb]
  have hfirst : l₁ = m₁ := by rw [← htake hl₁ hl₂, h, htake hm₁ hm₂]
  exact ⟨hfirst, List.append_cancel_left (hfirst ▸ h)⟩

/-- A selection is sorted as what it is taken from. -/
theorem filter_mergeSort (le : α → α → Bool)
    (trans : ∀ a b c, le a b → le b c → le a c) (total : ∀ a b, le a b || le b a) (p : α → Bool)
    (l : List α) : (l.mergeSort le).filter p = (l.filter p).mergeSort le := by
  have hafter {a : α} {l before after : List α} (heq : (a :: l).mergeSort le = before ++ a :: after) :
      ∀ b ∈ after, le a b := by
    have hsorted := List.pairwise_mergeSort trans total (a :: l)
    rw [heq, List.pairwise_append, List.pairwise_cons] at hsorted
    exact hsorted.2.1.1
  induction l with
  | nil => simp
  | cons a l ih =>
    obtain ⟨before, after, heq, hrest, hless⟩ := List.mergeSort_cons trans total a l
    by_cases ha : p a
    · obtain ⟨before', after', heq', hrest', hless'⟩ :=
        List.mergeSort_cons trans total a (l.filter p)
      have hsplit : before.filter p ++ after.filter p = before' ++ after' := by
        rw [← List.filter_append, ← hrest, ih, hrest']
      obtain ⟨hbefore, hafter⟩ := append_inj_of_le hsplit
        (fun b hb => hless b (List.mem_filter.1 hb).1)
        (fun b hb => hafter heq b (List.mem_filter.1 hb).1) hless' (hafter heq')
      rw [List.filter_cons_of_pos ha, heq, heq', List.filter_append, List.filter_cons_of_pos ha,
        hbefore, hafter]
    · rw [List.filter_cons_of_neg ha, ← ih, heq, hrest, List.filter_append, List.filter_append,
        List.filter_cons_of_neg ha]

end Sorting

/-! ### Texts in order -/

theorem isLE_compare_iff {s t : String} : (compare s t).isLE ↔ s ≤ t := by
  change (compareOfLessAndEq s t).isLE ↔ s ≤ t
  exact isLE_compareOfLessAndEq String.le_antisymm String.not_le String.le_total

/-! ### Fragments in order -/

namespace Fragment

/-- A fragment is listed before another one. -/
def Precedes (f g : Fragment) : Prop :=
  f.start.seconds < g.start.seconds ∨
    f.start.seconds = g.start.seconds ∧
      (f.file.placement.filename < g.file.placement.filename ∨
        f.file.placement.filename = g.file.placement.filename ∧ f.file.id < g.file.id)

theorem Precedes.irrefl (f : Fragment) : ¬ f.Precedes f := by
  rintro (h | ⟨-, h | ⟨-, h⟩⟩)
  · exact Nat.lt_irrefl _ h
  · exact String.lt_irrefl _ h
  · exact Int.lt_irrefl _ h

theorem Precedes.asymm {f g : Fragment} (h : f.Precedes g) : ¬ g.Precedes f := by
  rintro (h' | ⟨hs', h' | ⟨hn', h'⟩⟩) <;> rcases h with h | ⟨hs, h | ⟨hn, h⟩⟩ <;> try omega
  · exact String.lt_irrefl _ (String.lt_trans h h')
  · exact String.lt_irrefl _ (hn ▸ h')
  · exact String.lt_irrefl _ (hn' ▸ h)

instance : Std.Irrefl Precedes := ⟨Precedes.irrefl⟩

instance : Std.Antisymm Precedes := ⟨fun _ _ h h' => absurd h' h.asymm⟩

theorem le_iff {f g : Fragment} :
    f.le g ↔ f.start.seconds < g.start.seconds ∨
      f.start.seconds = g.start.seconds ∧
        f.file.placement.filename ≤ g.file.placement.filename := by
  simp [le]

theorem le_trans (f g h : Fragment) (hfg : f.le g) (hgh : g.le h) : f.le h := by
  rw [le_iff] at *
  rcases hfg with hfg | ⟨hs, hn⟩ <;> rcases hgh with hgh | ⟨hs', hn'⟩
  · exact .inl (by omega)
  · exact .inl (by omega)
  · exact .inl (by omega)
  · exact .inr ⟨by omega, String.le_trans hn hn'⟩

theorem le_total (f g : Fragment) : f.le g || g.le f := by
  rw [Bool.or_eq_true, le_iff, le_iff]
  rcases Nat.lt_trichotomy f.start.seconds g.start.seconds with h | h | h
  · exact .inl (.inl h)
  · rcases String.le_total f.file.placement.filename g.file.placement.filename with hn | hn
    · exact .inl (.inr ⟨h, hn⟩)
    · exact .inr (.inr ⟨h.symm, hn⟩)
  · exact .inr (.inl h)

/-- Fragments that come by name, and by id where they share one, are listed in order. -/
theorem pairwise_precedes {fs : List Fragment}
    (h : fs.Pairwise fun f g =>
      g.file.placement.filename ≤ f.file.placement.filename → f.file.id < g.file.id) :
    (fs.mergeSort le).Pairwise Precedes := by
  refine (pairwise_mergeSort_stable le le_trans le_total h).imp ?_
  rintro f g ⟨hle, hid⟩
  rcases le_iff.1 hle with hs | ⟨hs, hn⟩
  · exact .inl hs
  · refine .inr ⟨hs, ?_⟩
    by_cases hn' : g.file.placement.filename ≤ f.file.placement.filename
    · exact .inr ⟨String.le_antisymm hn hn', hid (le_iff.2 (.inr ⟨hs.symm, hn'⟩)) hn'⟩
    · exact .inl (String.not_le.1 hn')

end Fragment

end Footage
