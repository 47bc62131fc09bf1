import Footage.Error

/-! Outcomes of several steps. They succeed when each step does, and fail as the first
step fails that does not. -/

namespace Footage.Outcome

variable {ε α β : Type}

theorem bind_eq_ok_iff {x : Except ε α} {f : α → Except ε β} {b : β} :
    x >>= f = .ok b ↔ ∃ a, x = .ok a ∧ f a = .ok b := by
  cases x <;> simp [bind, Except.bind]

theorem exists_eq_ok_unit_iff {x : Except ε Unit} : (∃ u, x = .ok u) ↔ x = .ok () :=
  ⟨fun ⟨_, h⟩ => h, fun h => ⟨(), h⟩⟩

theorem bind_eq_error_iff {x : Except ε α} {f : α → Except ε β} {e : ε} :
    x >>= f = .error e ↔ x = .error e ∨ ∃ a, x = .ok a ∧ f a = .error e := by
  cases x <;> simp [bind, Except.bind]

@[simp] theorem ok_bind (a : α) (f : α → Except ε β) : (Except.ok a >>= f) = f a := rfl

@[simp] theorem error_bind (e : ε) (f : α → Except ε β) : (Except.error e >>= f) = .error e := rfl

@[simp] theorem pure_eq_ok (a : α) : (pure a : Except ε α) = .ok a := rfl

/-- The results of the steps, in order, are those of the whole. -/
theorem mapM_eq_ok_iff {f : α → Except ε β} {as : List α} {bs : List β} :
    as.mapM f = .ok bs ↔ as.map f = bs.map .ok := by
  induction as generalizing bs with
  | nil => cases bs <;> simp
  | cons a as ih =>
    rw [List.mapM_cons, bind_eq_ok_iff]
    simp only [bind_eq_ok_iff, pure_eq_ok, Except.ok.injEq, ih]
    cases bs <;> simp

section Steps
variable {f : α → Except ε β} {as : List α} {bs : List β} (h : as.mapM f = .ok bs)
include h

theorem mem_of_mapM (b : β) : b ∈ bs ↔ ∃ a ∈ as, f a = .ok b := by
  have hmem : b ∈ bs ↔ .ok b ∈ bs.map (Except.ok (ε := ε)) := by simp
  rw [hmem, ← mapM_eq_ok_iff.1 h, List.mem_map]

theorem exists_of_mapM {a : α} (ha : a ∈ as) : ∃ b ∈ bs, f a = .ok b := by
  have hmem : f a ∈ bs.map .ok := mapM_eq_ok_iff.1 h ▸ List.mem_map_of_mem ha
  obtain ⟨b, hb, heq⟩ := List.mem_map.1 hmem
  exact ⟨b, hb, heq.symm⟩

theorem head?_of_mapM : as.head?.mapM f = .ok bs.head? := by
  have hmap := mapM_eq_ok_iff.1 h
  cases as with
  | nil =>
    cases bs with
    | nil => rfl
    | cons b bs => cases hmap
  | cons a as =>
    cases bs with
    | nil => cases hmap
    | cons b bs =>
      obtain ⟨hhead, -⟩ := List.cons.inj hmap
      rw [List.head?_cons, Option.mapM_some, hhead]
      rfl

/-- Results are related as what they come from. -/
theorem pairwise_of_mapM {R : α → α → Prop} {R' : β → β → Prop} (hR : as.Pairwise R)
    (himp : ∀ a a' b b', f a = .ok b → f a' = .ok b' → R a a' → R' b b') : bs.Pairwise R' := by
  have hmap : (as.map f).Pairwise fun x y => ∀ b b', x = .ok b → y = .ok b' → R' b b' :=
    List.pairwise_map.2 (hR.imp fun hR b b' hb hb' => himp _ _ b b' hb hb' hR)
  rw [mapM_eq_ok_iff.1 h, List.pairwise_map] at hmap
  exact hmap.imp fun hrel => hrel _ _ rfl rfl

end Steps

theorem exists_mapM_iff {f : α → Except ε β} {as : List α} :
    (∃ bs, as.mapM f = .ok bs) ↔ ∀ a ∈ as, ∃ b, f a = .ok b := by
  constructor
  · rintro ⟨bs, h⟩ a ha
    obtain ⟨b, -, hb⟩ := exists_of_mapM h ha
    exact ⟨b, hb⟩
  · intro h
    induction as with
    | nil => exact ⟨[], rfl⟩
    | cons a as ih =>
      obtain ⟨b, hb⟩ := h a List.mem_cons_self
      obtain ⟨bs, hbs⟩ := ih fun a ha => h a (List.mem_cons_of_mem _ ha)
      exact ⟨b :: bs, by rw [List.mapM_cons, hb, hbs]; rfl⟩

theorem map_eq_ok_iff {x : Except ε α} {f : α → β} {b : β} :
    x.map f = .ok b ↔ ∃ a, x = .ok a ∧ f a = b := by
  cases x <;> simp [Except.map]

theorem map_eq_error_iff {x : Except ε α} {f : α → β} {e : ε} :
    x.map f = .error e ↔ x = .error e := by
  cases x <;> simp [Except.map]

theorem mapError_eq_ok_iff {ε' : Type} {x : Except ε α} {f : ε → ε'} {a : α} :
    x.mapError f = .ok a ↔ x = .ok a := by
  constructor
  · intro h
    cases x with
    | error cause => cases h
    | ok b => exact congrArg Except.ok (Except.ok.inj h)
  · rintro rfl
    rfl

theorem mapError_eq_error_iff {ε' : Type} {x : Except ε α} {f : ε → ε'} {e : ε'} :
    x.mapError f = .error e ↔ ∃ cause, x = .error cause ∧ f cause = e := by
  constructor
  · intro h
    cases x with
    | error cause => exact ⟨cause, rfl, Except.error.inj h⟩
    | ok a => cases h
  · rintro ⟨cause, rfl, rfl⟩
    rfl

/-- An outcome is known by what it shows. -/
theorem exists_of_toOption_map {x : Except ε α} {f : α → β} {b : β}
    (h : x.toOption.map f = some b) : ∃ a, x = .ok a ∧ f a = b := by
  cases x with
  | error e => cases h
  | ok a => exact ⟨a, rfl, Option.some.inj h⟩

theorem mapM_of_ok {f : α → Except ε β} {g : α → β} {as : List α} (h : ∀ a ∈ as, f a = .ok (g a)) :
    as.mapM f = .ok (as.map g) := by
  rw [mapM_eq_ok_iff, List.map_map]
  exact List.map_congr_left h

/-! ### How outcomes fail -/

/-- An outcome fails, if it does, with an error of one kind. -/
def FailsAs (P : ε → Prop) (x : Except ε α) : Prop := ∀ e, x = .error e → P e

section Kinds
variable {P : ε → Prop} {x : Except ε α}

theorem failsAs_ok (a : α) : FailsAs P (.ok a : Except ε α) := by
  intro e h
  cases h

theorem failsAs_error {e : ε} (h : P e) : FailsAs P (.error e : Except ε α) := by
  intro e' he
  cases he
  exact h

theorem FailsAs.mono {Q : ε → Prop} (h : FailsAs P x) (hPQ : ∀ e, P e → Q e) : FailsAs Q x :=
  fun e he => hPQ e (h e he)

theorem FailsAs.bind {f : α → Except ε β} (hx : FailsAs P x) (hf : ∀ a, FailsAs P (f a)) :
    FailsAs P (x >>= f) := by
  intro e h
  rcases bind_eq_error_iff.1 h with h | ⟨a, -, h⟩
  · exact hx e h
  · exact hf a e h

theorem FailsAs.map (hx : FailsAs P x) (f : α → β) : FailsAs P (x.map f) :=
  fun e h => hx e (map_eq_error_iff.1 h)

theorem FailsAs.mapM {f : α → Except ε β} {as : List α} (h : ∀ a ∈ as, FailsAs P (f a)) :
    FailsAs P (as.mapM f) := by
  induction as with
  | nil => exact failsAs_ok []
  | cons a as ih =>
    rw [List.mapM_cons]
    exact (h a List.mem_cons_self).bind fun _ =>
      (ih fun a ha => h a (List.mem_cons_of_mem _ ha)).bind fun _ => failsAs_ok _

end Kinds

end Footage.Outcome
