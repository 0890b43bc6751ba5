import CrateSafety.Proofs.IntervalMembership
import CrateSafety.Requirement.Condition

/-!
# Valuations

A valuation gives every key a truth value and every compared expression a rational number. It is admissible
for atoms whose bounds and negations it respects. The logic is sound for admissible valuations: what one of
them makes true is satisfiable, and it makes true whatever is entailed by what it makes true.
-/

namespace CrateSafety

/-- Truth values for keys, and numbers for the subjects of bounds. -/
structure Valuation where
  /-- The truth value of each key. -/
  truth : String → Bool
  /-- The number of each compared expression. -/
  number : String → ℚ

namespace Valuation

/-- The valuation knows the two constants and respects the bounds and the negations of the given atoms. -/
structure Admits (v : Valuation) (atoms : List Atom) : Prop where
  /-- The constant for truth is true. -/
  true_key : v.truth "True" = true
  /-- The constant for falsehood is false. -/
  false_key : v.truth "False" = false
  /-- A bound is true exactly if the number of its subject compares as stated. -/
  bound : ∀ a ∈ atoms, ∀ b, a.bound = some b →
    (v.truth a.key = true ↔ b.op.Holds (v.number b.subject) b.value)
  /-- A negation is true exactly if what it negates is false. -/
  negates : ∀ a ∈ atoms, ∀ key, a.negates = some key → v.truth a.key = !v.truth key

/-- Fewer atoms ask for less. -/
theorem Admits.mono {v : Valuation} {atoms others : List Atom} (h : v.Admits atoms)
    (hs : others ⊆ atoms) : v.Admits others :=
  ⟨h.true_key, h.false_key, fun a ha => h.bound a (hs ha), fun a ha => h.negates a (hs ha)⟩

instance (v : Valuation) (atoms : List Atom) : Decidable (v.Admits atoms) :=
  decidable_of_iff
    (v.truth "True" = true ∧ v.truth "False" = false ∧
      (∀ a ∈ atoms, ∀ b ∈ a.bound,
        (v.truth a.key = true ↔ b.op.Holds (v.number b.subject) b.value)) ∧
      ∀ a ∈ atoms, ∀ key ∈ a.negates, v.truth a.key = !v.truth key)
    ⟨fun ⟨ht, hf, hb, hn⟩ => ⟨ht, hf, hb, hn⟩,
      fun h => ⟨h.true_key, h.false_key, h.bound, h.negates⟩⟩

end Valuation

/-- All atoms of a conjunction are true. -/
def Conjunction.Holds (v : Valuation) (atoms : Conjunction) : Prop :=
  ∀ a ∈ atoms, v.truth a.key = true

/-- A condition asks for nothing, or one of its alternatives holds. -/
def Condition.Holds (v : Valuation) (c : Condition) : Prop :=
  c.alternatives = [] ∨ ∃ atoms ∈ c.alternatives, atoms.Holds v

instance (v : Valuation) (atoms : Conjunction) : Decidable (atoms.Holds v) :=
  inferInstanceAs (Decidable (∀ a ∈ atoms, v.truth a.key = true))

instance (v : Valuation) (c : Condition) : Decidable (c.Holds v) :=
  inferInstanceAs (Decidable (c.alternatives = [] ∨ ∃ atoms ∈ c.alternatives, atoms.Holds v))

theorem Conjunction.holds_append {v : Valuation} {left right : Conjunction} :
    Conjunction.Holds v (left ++ right) ↔ left.Holds v ∧ right.Holds v :=
  List.forall_mem_append

/-- A condition holds exactly if one of the conjunctions that it is assumed as does. -/
theorem Condition.holds_iff_conjunctions {v : Valuation} {c : Condition} :
    c.Holds v ↔ ∃ atoms ∈ c.conjunctions, atoms.Holds v := by
  unfold Condition.Holds Condition.conjunctions Condition.isEmpty
  cases hc : c.alternatives with
  | nil => simp [Conjunction.Holds]
  | cons atoms rest => simp

/-- The atoms of the conjunctions that a condition is assumed as occur in its alternatives. -/
theorem Condition.conjunctions_subset {c : Condition} {atoms : Conjunction}
    (h : atoms ∈ c.conjunctions) : atoms ⊆ c.alternatives.flatten := by
  unfold Condition.conjunctions at h
  split at h
  · rw [List.mem_singleton.mp h]
    exact List.nil_subset _
  · exact fun a ha => List.mem_flatten_of_mem h ha

namespace Ranges

/-- The number of every subject lies in its interval. -/
def Contains (ranges : Ranges) (number : String → ℚ) : Prop :=
  ∀ entry ∈ ranges, entry.2.Contains (number entry.1)

/-- One more bound keeps exactly the numbers that respect it. -/
theorem contains_constrain (ranges : Ranges) (bound : Bound) (number : String → ℚ) :
    (ranges.constrain bound).Contains number ↔
      ranges.Contains number ∧ bound.op.Holds (number bound.subject) bound.value := by
  induction ranges with
  | nil =>
    have hfull := Interval.contains_full (number bound.subject)
    simp [constrain, Contains, Interval.contains_constrain, hfull]
  | cons entry rest ih =>
    obtain ⟨subject, interval⟩ := entry
    unfold constrain
    split
    case isTrue h =>
      have hs : subject = bound.subject := by simpa using h
      simp only [Contains, List.forall_mem_cons, Interval.contains_constrain, hs]
      exact and_right_comm
    case isFalse =>
      unfold Contains at ih ⊢
      rw [List.forall_mem_cons, List.forall_mem_cons, ih, and_assoc]

theorem contains_foldl (bounds : List Bound) (ranges : Ranges) (number : String → ℚ) :
    (bounds.foldl constrain ranges).Contains number ↔
      ranges.Contains number ∧ ∀ b ∈ bounds, b.op.Holds (number b.subject) b.value := by
  induction bounds generalizing ranges with
  | nil => simp
  | cons b bounds ih =>
    rw [List.foldl_cons, ih, contains_constrain, List.forall_mem_cons, and_assoc]

/-- The intervals of atoms contain exactly the numbers that respect all their bounds. -/
theorem contains_ofAtoms (atoms : Conjunction) (number : String → ℚ) :
    (ofAtoms atoms).Contains number ↔
      ∀ a ∈ atoms, ∀ b, a.bound = some b → b.op.Holds (number b.subject) b.value := by
  rw [ofAtoms, contains_foldl]
  simp only [Contains, List.not_mem_nil, false_implies, implies_true, true_and,
    List.mem_filterMap, forall_exists_index, and_imp]
  exact forall_comm.trans (forall_congr' fun a => forall_comm)

/-- An interval that is looked up is one of the intervals. -/
theorem mem_of_lookup {ranges : Ranges} {subject : String} {interval : Interval}
    (h : ranges.lookup subject = some interval) : (subject, interval) ∈ ranges := by
  obtain ⟨left, right, he, -⟩ := List.lookup_eq_some_iff.mp h
  simp [he]

end Ranges

namespace Conjunction

variable {v : Valuation} {atoms : Conjunction}

/-- The numbers of an admissible valuation lie in the intervals of the atoms that it makes true. -/
theorem contains_ranges (ha : v.Admits atoms) (hh : atoms.Holds v) :
    (Ranges.ofAtoms atoms).Contains v.number :=
  (Ranges.contains_ofAtoms atoms v.number).mpr fun a hm b hb => (ha.bound a hm b hb).mp (hh a hm)

theorem truth_of_hasKey {key : String} (hh : atoms.Holds v) (hk : atoms.hasKey key = true) :
    v.truth key = true := by
  obtain ⟨a, ha, he⟩ := List.any_eq_true.mp hk
  have hkey : a.key = key := by simpa using he
  exact hkey ▸ hh a ha

/-- No contradiction is seen among atoms that an admissible valuation makes true. -/
theorem satisfiable_of_holds (ha : v.Admits atoms) (hh : atoms.Holds v) :
    atoms.satisfiable = true := by
  have hfalse : atoms.hasKey "False" = false := by
    by_contra hne
    have ht := truth_of_hasKey hh (by simpa using hne)
    rw [ha.false_key] at ht
    cases ht
  have hneg : (atoms.any fun a => a.negates.any atoms.hasKey) = false := by
    rw [List.any_eq_false]
    intro a hm hany
    obtain ⟨key, hn, hk⟩ := (Option.any_eq_true _ _).mp hany
    have ht := ha.negates a hm key hn
    rw [hh a hm, truth_of_hasKey hh hk] at ht
    cases ht
  have hint : ((Ranges.ofAtoms atoms).any fun entry => entry.2.isEmpty) = false := by
    rw [List.any_eq_false]
    intro entry hm he
    exact Interval.not_contains_of_isEmpty he _ (contains_ranges ha hh entry hm)
  simp [satisfiable, hfalse, hneg, hint]

/-- An admissible valuation makes true what is entailed by atoms that it makes true. -/
theorem truth_of_entails {target : Atom} (ha : v.Admits (target :: atoms)) (hh : atoms.Holds v)
    (he : atoms.entails target = true) : v.truth target.key = true := by
  have hatoms : v.Admits atoms := ha.mono (List.subset_cons_self target atoms)
  simp only [entails, Bool.or_eq_true, Bool.not_eq_true'] at he
  rcases he with ((he | he) | he) | he
  · rw [beq_iff_eq.mp he]
    exact ha.true_key
  · exact truth_of_hasKey hh he
  · rw [satisfiable_of_holds hatoms hh] at he
    cases he
  · obtain ⟨b, hb, hi⟩ := (Option.any_eq_true _ _).mp he
    rw [ha.bound target List.mem_cons_self b hb]
    unfold impliesBound at hi
    split at hi
    case h_1 interval hl =>
      have hc := contains_ranges hatoms hh _ (Ranges.mem_of_lookup hl)
      exact Interval.holds_of_satisfies hi hc
    case h_2 => cases hi

end Conjunction

end CrateSafety
