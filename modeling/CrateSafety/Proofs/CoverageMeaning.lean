import CrateSafety.Proofs.Valuation
import CrateSafety.Requirement.Coverage

/-!
# Meaning of coverage

An outstanding condition counts as covered exactly if on every satisfiable path some alternative is entailed
in full, by the path alone or by the path with each satisfiable alternative of the invariant. A covered
condition holds in every admissible valuation that satisfies guards, contract and invariant.
-/

namespace CrateSafety

namespace Conjunction

/-- The assumptions entail every atom of some alternative. -/
def Covers (assumptions : Conjunction) (alternatives : List Conjunction) : Prop :=
  ∃ atoms ∈ alternatives, ∀ a ∈ atoms, assumptions.entails a = true

theorem missing_eq_nil_iff {assumptions targets : Conjunction} :
    assumptions.missing targets = [] ↔ ∀ a ∈ targets, assumptions.entails a = true := by
  simp [missing, List.filter_eq_nil_iff]

/-- The search ends without a gap exactly if it is handed none or finds an entailed alternative. -/
theorem closest_eq_none_iff (assumptions : Conjunction) (best : Option Conjunction)
    (alternatives : List Conjunction) :
    closest assumptions best alternatives = none ↔
      (best = none ∧ alternatives = []) ∨ assumptions.Covers alternatives := by
  induction alternatives generalizing best with
  | nil => simp [closest, Covers]
  | cons atoms rest ih =>
    unfold closest
    dsimp only
    split
    case isTrue h =>
      have hall := missing_eq_nil_iff.mp (List.isEmpty_iff.mp h)
      simp only [reduceCtorEq, and_false, false_or, true_iff]
      exact ⟨atoms, List.mem_cons_self, hall⟩
    case isFalse h =>
      have hgap : ¬ ∀ a ∈ atoms, assumptions.entails a = true := fun hall =>
        h (List.isEmpty_iff.mpr (missing_eq_nil_iff.mpr hall))
      have hrest : assumptions.Covers (atoms :: rest) ↔ assumptions.Covers rest := by
        simp [Covers, hgap]
      cases best with
      | none => simp [ih, hrest]
      | some old =>
        dsimp only
        split <;> simp [ih, hrest]

/-- Nothing is missing exactly if there is no alternative or the assumptions cover one. -/
theorem firstUncovered_eq_none_iff {assumptions : Conjunction} {alternatives : List Conjunction} :
    assumptions.firstUncovered alternatives = none ↔
      alternatives = [] ∨ assumptions.Covers alternatives := by
  simp [firstUncovered, closest_eq_none_iff]

/-- Alternatives that are covered by atoms that hold have one that holds. -/
theorem exists_holds_of_covers {v : Valuation} {assumptions : Conjunction}
    {alternatives : List Conjunction} (ha : v.Admits (assumptions ++ alternatives.flatten))
    (hh : assumptions.Holds v) (hc : assumptions.Covers alternatives) :
    ∃ atoms ∈ alternatives, atoms.Holds v := by
  obtain ⟨atoms, hm, he⟩ := hc
  refine ⟨atoms, hm, fun a hat => truth_of_entails (ha.mono ?_) hh (he a hat)⟩
  refine List.cons_subset.mpr ⟨?_, List.subset_append_left _ _⟩
  exact List.mem_append_right _ (List.mem_flatten_of_mem hm hat)

end Conjunction

namespace Condition

/-- A condition that is entailed by another one holds wherever the other one does. -/
theorem holds_of_entailedBy {v : Valuation} {c assumptions : Condition}
    (he : c.entailedBy assumptions = true)
    (ha : v.Admits (assumptions.alternatives.flatten ++ c.alternatives.flatten))
    (hh : assumptions.Holds v) : c.Holds v := by
  unfold entailedBy at he
  rw [Bool.or_eq_true] at he
  rcases he with he | he
  · exact .inl (List.isEmpty_iff.mp he)
  · obtain ⟨atoms, hm, hatoms⟩ := holds_iff_conjunctions.mp hh
    have hadmits : v.Admits (atoms ++ c.alternatives.flatten) :=
      ha.mono (List.append_subset.mpr ⟨List.subset_append_of_subset_left _ (conjunctions_subset hm),
        List.subset_append_right _ _⟩)
    have hsat := Conjunction.satisfiable_of_holds (hadmits.mono (List.subset_append_left _ _)) hatoms
    have hcov := List.all_eq_true.mp he atoms hm
    rw [hsat, Bool.not_true, Bool.false_or, Option.isNone_iff_eq_none,
      Conjunction.firstUncovered_eq_none_iff] at hcov
    exact hcov.imp_right (Conjunction.exists_holds_of_covers hadmits hatoms)

end Condition

namespace Coverage

/-- The paths are the satisfiable guards joined with alternatives of the contract, as far as these are
satisfiable together. -/
theorem mem_paths_iff {guards contract : Condition} {path : Conjunction} :
    path ∈ paths guards contract ↔ ∃ guard ∈ guards.conjunctions, guard.satisfiable = true ∧
      ∃ assumed ∈ contract.conjunctions,
        path = guard ++ assumed ∧ Conjunction.satisfiable (guard ++ assumed) = true := by
  simp only [paths, List.mem_flatMap, List.mem_filter, List.mem_map]
  constructor
  · rintro ⟨guard, ⟨hg, hs⟩, ⟨assumed, hc, rfl⟩, hp⟩
    exact ⟨guard, hg, hs, assumed, hc, rfl, hp⟩
  · rintro ⟨guard, hg, hs, assumed, hc, rfl, hp⟩
    exact ⟨guard, ⟨hg, hs⟩, ⟨assumed, hc, rfl⟩, hp⟩

/-- What it takes for a path to be covered with the help of the invariant. -/
theorem byInvariant_eq_true_iff {outstanding invariant : Condition} {path : Conjunction} :
    byInvariant outstanding invariant path = true ↔ invariant.isEmpty = false ∧
      ∀ inv ∈ invariant.conjunctions, Conjunction.satisfiable (path ++ inv) = true →
        Conjunction.firstUncovered (path ++ inv) outstanding.alternatives = none := by
  simp only [byInvariant, Bool.and_eq_true, Bool.not_eq_true', List.all_eq_true, Bool.or_eq_true,
    Option.isNone_iff_eq_none]
  refine and_congr_right fun _ => forall₂_congr fun inv _ => ?_
  cases Conjunction.satisfiable (path ++ inv) <;> simp

/-- Nothing is missing along paths exactly if each is covered, if need be by the invariant. -/
theorem missing_along_eq_none_iff (outstanding invariant : Condition) (relies : Bool)
    (paths : List Conjunction) :
    (along outstanding invariant relies paths).missing = none ↔
      ∀ path ∈ paths, path.firstUncovered outstanding.alternatives = none ∨
        byInvariant outstanding invariant path = true := by
  induction paths generalizing relies with
  | nil => simp [along]
  | cons path rest ih =>
    rw [List.forall_mem_cons]
    unfold along
    split
    case h_1 h => simp [ih, h]
    case h_2 missing h =>
      split
      case isTrue hb => simp [ih, hb]
      case isFalse hb => simp [h, hb]

/-- Nothing is missing at a site exactly if nothing is outstanding or each path is covered. -/
theorem missing_check_eq_none_iff {outstanding guards contract invariant : Condition} :
    (check outstanding guards contract invariant).missing = none ↔
      outstanding.isEmpty = true ∨ ∀ path ∈ paths guards contract,
        path.firstUncovered outstanding.alternatives = none ∨
          byInvariant outstanding invariant path = true := by
  unfold check
  split
  case isTrue h => simp [h]
  case isFalse h => simp [h, missing_along_eq_none_iff]

/-- A covered condition holds in every admissible valuation that satisfies the guards, the contract and the
invariant. -/
theorem holds_of_check {v : Valuation} {outstanding guards contract invariant : Condition}
    (hc : (check outstanding guards contract invariant).missing = none)
    (ha : v.Admits (outstanding.alternatives.flatten ++ guards.alternatives.flatten ++
      contract.alternatives.flatten ++ invariant.alternatives.flatten))
    (hg : guards.Holds v) (hk : contract.Holds v) (hi : invariant.Holds v) : outstanding.Holds v := by
  rcases missing_check_eq_none_iff.mp hc with hempty | hpaths
  · exact .inl (List.isEmpty_iff.mp hempty)
  obtain ⟨guard, hgm, hgh⟩ := Condition.holds_iff_conjunctions.mp hg
  obtain ⟨assumed, hkm, hkh⟩ := Condition.holds_iff_conjunctions.mp hk
  obtain ⟨inv, him, hih⟩ := Condition.holds_iff_conjunctions.mp hi
  have hgs := Condition.conjunctions_subset hgm
  have hks := Condition.conjunctions_subset hkm
  have his := Condition.conjunctions_subset him
  have hadmits : v.Admits (guard ++ assumed ++ inv ++ outstanding.alternatives.flatten) := by
    refine ha.mono fun a hm => ?_
    simp only [List.mem_append] at hm ⊢
    rcases hm with ((hm | hm) | hm) | hm
    · exact .inl (.inl (.inr (hgs hm)))
    · exact .inl (.inr (hks hm))
    · exact .inr (his hm)
    · exact .inl (.inl (.inl hm))
  have hpath : Conjunction.Holds v (guard ++ assumed) := Conjunction.holds_append.mpr ⟨hgh, hkh⟩
  have hall : Conjunction.Holds v (guard ++ assumed ++ inv) :=
    Conjunction.holds_append.mpr ⟨hpath, hih⟩
  have hmem : guard ++ assumed ∈ paths guards contract := by
    refine mem_paths_iff.mpr ⟨guard, hgm, ?_, assumed, hkm, rfl, ?_⟩
    · exact Conjunction.satisfiable_of_holds (hadmits.mono (by simp)) hgh
    · exact Conjunction.satisfiable_of_holds (hadmits.mono (by simp)) hpath
  rcases hpaths _ hmem with hcov | hinv
  · refine (Conjunction.firstUncovered_eq_none_iff.mp hcov).imp_right fun hcov => ?_
    refine Conjunction.exists_holds_of_covers (hadmits.mono ?_) hpath hcov
    exact List.append_subset.mpr ⟨by simp, List.subset_append_right _ _⟩
  · have hsat := Conjunction.satisfiable_of_holds (hadmits.mono (List.subset_append_left _ _)) hall
    have hcov := (byInvariant_eq_true_iff.mp hinv).2 inv him hsat
    refine (Conjunction.firstUncovered_eq_none_iff.mp hcov).imp_right fun hcov => ?_
    exact Conjunction.exists_holds_of_covers hadmits hall hcov

end Coverage

end CrateSafety
