import CrateSafety.Traced
import Mathlib.Data.List.Forall2

/-!
# Outcomes of computations

What a success of a composed computation says about its parts, for computations that may fail and for
traced ones. The outcome of a traced computation is computed from the outcomes of its parts alone, so every
statement about traced successes reduces to one without notes.
-/

namespace CrateSafety

namespace Outcome

variable {ε ε' α β : Type}

/-- A composition succeeds exactly if both parts do. -/
theorem bind_eq_ok_iff {x : Except ε α} {f : α → Except ε β} {b : β} :
    x >>= f = .ok b ↔ ∃ a, x = .ok a ∧ f a = .ok b := by
  cases x with
  | ok a => simp [bind, Except.bind]
  | error e => simp [bind, Except.bind]

/-- A composition fails in its first part, or in the second after the first. -/
theorem bind_eq_error_iff {x : Except ε α} {f : α → Except ε β} {e : ε} :
    x >>= f = .error e ↔ x = .error e ∨ ∃ a, x = .ok a ∧ f a = .error e := by
  cases x with
  | ok a => simp [bind, Except.bind]
  | error e' => simp [bind, Except.bind]

/-- A composition has a value exactly if the first part has one from which the second has one. -/
theorem bind_isOk_iff {x : Except ε α} {f : α → Except ε β} :
    (∃ b, x >>= f = .ok b) ↔ ∃ a, x = .ok a ∧ ∃ b, f a = .ok b := by
  cases x with
  | ok a => simp [bind, Except.bind]
  | error e => simp [bind, Except.bind]

/-- A last step that cannot fail does not matter. -/
theorem bind_ok_isOk_iff {x : Except ε α} {g : α → β} :
    (∃ b, (x >>= fun a => Except.ok (g a)) = .ok b) ↔ ∃ a, x = .ok a := by
  simp [bind_isOk_iff]

theorem exists_bind_eq_ok {x : Except ε α} {f : α → Except ε β} (hx : ∃ a, x = .ok a)
    (hf : ∀ a, x = .ok a → ∃ b, f a = .ok b) : ∃ b, x >>= f = .ok b := by
  obtain ⟨a, ha⟩ := hx
  obtain ⟨b, hb⟩ := hf a ha
  exact ⟨b, bind_eq_ok_iff.mpr ⟨a, ha, hb⟩⟩

theorem map_eq_ok_iff {x : Except ε α} {f : α → β} {b : β} :
    f <$> x = .ok b ↔ ∃ a, x = .ok a ∧ f a = b := by
  cases x with
  | ok a => simp [Functor.map, Except.map]
  | error e => simp [Functor.map, Except.map]

theorem mapError_eq_ok_iff {x : Except ε α} {f : ε → ε'} {a : α} :
    x.mapError f = .ok a ↔ x = .ok a := by
  cases x with
  | ok a' => simp [Except.mapError]
  | error e => simp [Except.mapError]

/-- A test of the value passes exactly if there is a value that does. -/
theorem any_toOption_eq_true_iff {x : Except ε α} {test : α → Bool} :
    x.toOption.any test = true ↔ ∃ a, x = .ok a ∧ test a = true := by
  cases x with
  | ok a => simp [Except.toOption]
  | error e => simp [Except.toOption]

/-- A traversal succeeds exactly with the results of its entries. -/
theorem mapM_eq_ok_iff {f : α → Except ε β} {l : List α} {bs : List β} :
    l.mapM f = .ok bs ↔ List.Forall₂ (fun a b => f a = .ok b) l bs := by
  induction l generalizing bs with
  | nil => cases bs <;> simp [pure, Except.pure]
  | cons a l ih =>
    rw [List.mapM_cons, bind_eq_ok_iff]
    constructor
    · rintro ⟨b, hb, hrest⟩
      obtain ⟨rest, hr, he⟩ := bind_eq_ok_iff.mp hrest
      cases he
      exact .cons hb (ih.mp hr)
    · rintro (_ | ⟨hb, hr⟩)
      exact ⟨_, hb, bind_eq_ok_iff.mpr ⟨_, ih.mpr hr, rfl⟩⟩

/-- Results can be mapped entry by entry or all at once. -/
theorem mapM_map {γ : Type} (f : α → Except ε β) (g : β → γ) (l : List α) :
    (l.mapM fun a => g <$> f a) = List.map g <$> l.mapM f := by
  induction l with
  | nil => rfl
  | cons a l ih =>
    rw [List.mapM_cons, List.mapM_cons, ih]
    cases f a with
    | error e => rfl
    | ok b => cases l.mapM f <;> rfl

/-- A check of all entries succeeds exactly if it does at each. -/
theorem forM_eq_ok_iff {f : α → Except ε Unit} {l : List α} :
    forM l f = .ok () ↔ ∀ a ∈ l, f a = .ok () := by
  induction l with
  | nil => simp [pure, Except.pure]
  | cons a l ih =>
    rw [List.forM_cons, bind_eq_ok_iff]
    simp only [List.forall_mem_cons, ← ih]
    exact ⟨fun ⟨_, ha, hl⟩ => ⟨ha, hl⟩, fun ⟨ha, hl⟩ => ⟨_, ha, hl⟩⟩

/-- A traversal that fails does so at an entry. -/
theorem exists_of_mapM_eq_error {f : α → Except ε β} {l : List α} {e : ε}
    (h : l.mapM f = .error e) : ∃ a ∈ l, f a = .error e := by
  induction l with
  | nil => simp [pure, Except.pure] at h
  | cons a l ih =>
    rw [List.mapM_cons] at h
    rcases bind_eq_error_iff.mp h with ha | ⟨b, hb, hrest⟩
    · exact ⟨a, List.mem_cons_self, ha⟩
    · rcases bind_eq_error_iff.mp hrest with hl | ⟨bs, hbs, he⟩
      · obtain ⟨a', hm, ha'⟩ := ih hl
        exact ⟨a', List.mem_cons_of_mem a hm, ha'⟩
      · cases he

/-- A traversal succeeds if all its entries do. -/
theorem exists_mapM_eq_ok {f : α → Except ε β} {l : List α} (h : ∀ a ∈ l, ∃ b, f a = .ok b) :
    ∃ bs, l.mapM f = .ok bs := by
  cases hm : l.mapM f with
  | ok bs => exact ⟨bs, rfl⟩
  | error e =>
    obtain ⟨a, ha, he⟩ := exists_of_mapM_eq_error hm
    obtain ⟨b, hb⟩ := h a ha
    rw [hb] at he
    cases he

/-- A filter keeps exactly the entries that pass, after those kept before. -/
theorem mem_of_filterAuxM_eq_ok {f : α → Except ε Bool} {l kept result : List α}
    (h : l.filterAuxM f kept = .ok result) (a : α) :
    a ∈ result ↔ a ∈ kept ∨ a ∈ l ∧ f a = .ok true := by
  induction l generalizing kept with
  | nil =>
    cases h
    simp
  | cons b l ih =>
    rw [List.filterAuxM] at h
    obtain ⟨passes, hb, h⟩ := bind_eq_ok_iff.mp h
    rw [ih h, List.mem_cons, or_and_right]
    cases passes with
    | false =>
      have hne : ¬ (a = b ∧ f a = .ok true) := by
        rintro ⟨rfl, ha⟩
        rw [ha] at hb
        cases hb
      simp [hne]
    | true =>
      have heq : a = b ∧ f a = .ok true ↔ a = b :=
        and_iff_left_of_imp fun he => he ▸ hb
      simp only [cond_true, List.mem_cons, heq]
      rw [or_assoc]
      exact or_left_comm

theorem mem_of_filterM_eq_ok {f : α → Except ε Bool} {l result : List α}
    (h : l.filterM f = .ok result) (a : α) : a ∈ result ↔ a ∈ l ∧ f a = .ok true := by
  obtain ⟨kept, hkept, hr⟩ := bind_eq_ok_iff.mp h
  cases hr
  rw [List.mem_reverse, mem_of_filterAuxM_eq_ok hkept]
  simp

/-- A filter succeeds if its test does at every entry. -/
theorem exists_filterM_eq_ok {f : α → Except ε Bool} {l : List α} (h : ∀ a ∈ l, ∃ b, f a = .ok b) :
    ∃ result, l.filterM f = .ok result := by
  suffices haux : ∀ kept, ∃ result, l.filterAuxM f kept = .ok result by
    obtain ⟨kept, hkept⟩ := haux []
    exact ⟨kept.reverse, bind_eq_ok_iff.mpr ⟨kept, hkept, rfl⟩⟩
  induction l with
  | nil => exact fun kept => ⟨kept, rfl⟩
  | cons a l ih =>
    intro kept
    obtain ⟨ha, hl⟩ := List.forall_mem_cons.mp h
    obtain ⟨b, hb⟩ := ha
    obtain ⟨result, hr⟩ := ih hl (cond b (a :: kept) kept)
    exact ⟨result, bind_eq_ok_iff.mpr ⟨b, hb, hr⟩⟩

end Outcome

/-- The second list of a pointwise relation has a partner for each entry of the first. -/
theorem exists_right_of_forall₂ {α β : Type} {R : α → β → Prop} {as : List α} {bs : List β}
    (h : List.Forall₂ R as bs) {a : α} (ha : a ∈ as) : ∃ b ∈ bs, R a b := by
  induction h with
  | nil => cases ha
  | cons hab _ ih =>
    rcases List.mem_cons.mp ha with rfl | ha
    · exact ⟨_, List.mem_cons_self, hab⟩
    · obtain ⟨b, hb, hr⟩ := ih ha
      exact ⟨b, List.mem_cons_of_mem _ hb, hr⟩

/-- A traversal succeeds exactly if all its entries do. -/
theorem Outcome.mapM_isOk_iff {ε α β : Type} {f : α → Except ε β} {l : List α} :
    (∃ bs, l.mapM f = .ok bs) ↔ ∀ a ∈ l, ∃ b, f a = .ok b := by
  constructor
  · rintro ⟨bs, h⟩ a ha
    obtain ⟨b, -, hb⟩ := exists_right_of_forall₂ (mapM_eq_ok_iff.mp h) ha
    exact ⟨b, hb⟩
  · exact exists_mapM_eq_ok

/-- The first list of a pointwise relation has a partner for each entry of the second. -/
theorem exists_left_of_forall₂ {α β : Type} {R : α → β → Prop} {as : List α} {bs : List β}
    (h : List.Forall₂ R as bs) {b : β} (hb : b ∈ bs) : ∃ a ∈ as, R a b :=
  exists_right_of_forall₂ h.flip hb

/-- Entries that agree pointwise make the same list. -/
theorem map_eq_map_of_forall₂ {α β γ : Type} {f : α → γ} {g : β → γ} {as : List α} {bs : List β}
    (h : List.Forall₂ (fun a b => f a = g b) as bs) : as.map f = bs.map g := by
  rw [← List.forall₂_eq_eq_eq, List.forall₂_map_left_iff, List.forall₂_map_right_iff]
  exact h

namespace Traced

variable {ν ε ε' α β : Type}

/-- Notes concatenate and outcomes compose, so the laws of monads hold. -/
instance : LawfulMonad (Traced ν ε) :=
  LawfulMonad.mk' (Traced ν ε)
    (by
      rintro α ⟨notes, outcome⟩
      cases outcome <;> simp [Functor.map, andThen, done])
    (by
      intro α β a f
      simp [pure, bind, andThen, done])
    (by
      rintro α β γ ⟨notes, outcome⟩ f g
      cases outcome with
      | error e => rfl
      | ok a =>
        simp only [bind, andThen]
        cases (f a).outcome <;> simp)

@[simp] theorem outcome_pure (a : α) : (pure a : Traced ν ε α).outcome = .ok a := rfl

@[simp] theorem outcome_done (a : α) : (done a : Traced ν ε α).outcome = .ok a := rfl

@[simp] theorem outcome_fail (e : ε) : (fail e : Traced ν ε α).outcome = .error e := rfl

/-- The outcome of a composition is the composition of the outcomes. -/
@[simp] theorem outcome_bind (x : Traced ν ε α) (f : α → Traced ν ε β) :
    (x >>= f).outcome = x.outcome >>= fun a => (f a).outcome := by
  rcases x with ⟨notes, outcome⟩
  cases outcome <;> rfl

@[simp] theorem outcome_map (x : Traced ν ε α) (f : α → β) :
    (f <$> x).outcome = f <$> x.outcome := by
  rcases x with ⟨notes, outcome⟩
  cases outcome <;> rfl

@[simp] theorem outcome_lift (rename : ε' → ε) (x : Except ε' α) :
    (lift rename x : Traced ν ε α).outcome = x.mapError rename := by
  cases x <;> rfl

@[simp] theorem outcome_mapM (f : α → Traced ν ε β) (l : List α) :
    (l.mapM f).outcome = l.mapM fun a => (f a).outcome := by
  induction l with
  | nil => rfl
  | cons a l ih => simp [List.mapM_cons, ih]

@[simp] theorem outcome_forM (f : α → Traced ν ε Unit) (l : List α) :
    (forM l f).outcome = forM l fun a => (f a).outcome := by
  induction l with
  | nil => rfl
  | cons a l ih =>
    rw [List.forM_cons, List.forM_cons, outcome_bind]
    simp only [ih]

end Traced

end CrateSafety
