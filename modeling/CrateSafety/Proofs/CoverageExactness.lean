import CrateSafety.Proofs.CoverageRefinement
import Mathlib.Data.List.MinMax

/-!
# What a coverage check answers

A coverage check walks over the paths to a site, the conjunctions of the guards with those of the contract,
and ends at the first path that neither covers the outstanding condition by itself nor with the invariant.
Its answer is pinned down on every input: when it is positive, when the invariant was needed for that, and
which atoms are missing where it is negative.
-/

namespace CrateSafety

namespace Conjunction

variable {assumptions : Conjunction} {alternatives : List Conjunction}

/-- Where no alternative is entailed in full, the search keeps the shortest gap, the earliest of those. -/
theorem closest_eq_foldl (hc : ¬ assumptions.Covers alternatives) (best : Option Conjunction) :
    closest assumptions best alternatives =
      (alternatives.map assumptions.missing).foldl
        (List.argAux fun gap old => gap.length < old.length) best := by
  induction alternatives generalizing best with
  | nil => rfl
  | cons atoms rest ih =>
    have hrest : ¬ assumptions.Covers rest := fun ⟨targets, hmem, hall⟩ =>
      hc ⟨targets, List.mem_cons_of_mem atoms hmem, hall⟩
    have hgap : ¬ (assumptions.missing atoms).isEmpty = true := fun hempty =>
      hc ⟨atoms, List.mem_cons_self, missing_eq_nil_iff.mp (List.isEmpty_iff.mp hempty)⟩
    unfold closest
    dsimp only
    rw [if_neg hgap, List.map_cons, List.foldl_cons]
    cases best with
    | none => exact ih hrest _
    | some old =>
      rw [← ih hrest]
      rfl

theorem firstUncovered_eq_argmin (hc : ¬ assumptions.Covers alternatives) :
    assumptions.firstUncovered alternatives =
      (alternatives.map assumptions.missing).argmin List.length :=
  closest_eq_foldl hc none

/-- What is missing is the gap of one alternative, which is not empty and no longer than that of any other. -/
theorem firstUncovered_spec {gap : Conjunction}
    (h : assumptions.firstUncovered alternatives = some gap) :
    gap ≠ [] ∧ (∃ atoms ∈ alternatives, gap = assumptions.missing atoms) ∧
      ∀ atoms ∈ alternatives, gap.length ≤ (assumptions.missing atoms).length := by
  have hc : ¬ assumptions.Covers alternatives := by
    intro hcovers
    rw [firstUncovered_eq_none_iff.mpr (.inr hcovers)] at h
    cases h
  rw [firstUncovered_eq_argmin hc] at h
  obtain ⟨atoms, hatoms, rfl⟩ := List.mem_map.mp (List.argmin_mem h)
  refine ⟨fun hempty => ?_, ⟨atoms, hatoms, rfl⟩, fun other hother => ?_⟩
  · exact hc ⟨atoms, hatoms, missing_eq_nil_iff.mp hempty⟩
  · exact List.le_of_mem_argmin (List.mem_map_of_mem hother) h

end Conjunction

namespace Coverage

variable {outstanding guards contract invariant : Condition}

/-- A conjunction of the guards and one of the contract are not seen to contradict each other. -/
def Open (guard assumed : Conjunction) : Prop :=
  guard.satisfiable = true ∧ Conjunction.satisfiable (guard ++ assumed) = true

/-- A path covers the outstanding condition by itself, or there is an invariant and each of its conjunctions
that is satisfiable on the path covers it together with the path. -/
def Meets (outstanding invariant : Condition) (path : Conjunction) : Prop :=
  path.Covers outstanding.alternatives ∨
    invariant.isEmpty = false ∧ ∀ inv ∈ invariant.conjunctions,
      Conjunction.satisfiable (path ++ inv) = true →
        Conjunction.Covers (path ++ inv) outstanding.alternatives

/-- The first open path that does not meet the outstanding condition: all open paths of earlier guards do, and
those of its own guard with an earlier conjunction of the contract. -/
def FirstFailing (outstanding guards contract invariant : Condition) (guard assumed : Conjunction) : Prop :=
  ∃ guards₁ guards₂ contract₁ contract₂,
    guards.conjunctions = guards₁ ++ guard :: guards₂ ∧
    contract.conjunctions = contract₁ ++ assumed :: contract₂ ∧
    (∀ g ∈ guards₁, ∀ c ∈ contract.conjunctions, Open g c → Meets outstanding invariant (g ++ c)) ∧
    (∀ c ∈ contract₁, Open guard c → Meets outstanding invariant (guard ++ c)) ∧
    Open guard assumed ∧ ¬ Meets outstanding invariant (guard ++ assumed)

/-- The check that is made of a path. -/
def passes (outstanding invariant : Condition) (path : Conjunction) : Bool :=
  (path.firstUncovered outstanding.alternatives).isNone || byInvariant outstanding invariant path

theorem firstUncovered_eq_none_iff_covers (hne : outstanding.isEmpty = false) {path : Conjunction} :
    path.firstUncovered outstanding.alternatives = none ↔ path.Covers outstanding.alternatives := by
  have hnil : outstanding.alternatives ≠ [] := fun hnil => by simp [Condition.isEmpty, hnil] at hne
  rw [Conjunction.firstUncovered_eq_none_iff, or_iff_right hnil]

theorem passes_eq_true_iff (hne : outstanding.isEmpty = false) {path : Conjunction} :
    passes outstanding invariant path = true ↔ Meets outstanding invariant path := by
  simp only [passes, Bool.or_eq_true, Option.isNone_iff_eq_none, byInvariant_eq_true_iff,
    firstUncovered_eq_none_iff_covers hne, Meets]

/-- The walk ends at the first path that does not pass, with what is missing there. -/
theorem missing_along (relies : Bool) (paths : List Conjunction) :
    (along outstanding invariant relies paths).missing =
      (paths.find? fun path => !passes outstanding invariant path).bind
        fun path => path.firstUncovered outstanding.alternatives := by
  induction paths generalizing relies with
  | nil => rfl
  | cons path rest ih =>
    unfold along
    split
    case h_1 hcovered => simp [ih, passes, hcovered]
    case h_2 gap hgap =>
      split
      case isTrue hinv => simp [ih, passes, hinv]
      case isFalse hinv => simp [passes, hgap, hinv]

/-- A walk to the end finds the invariant needed exactly if some path is not covered by itself. -/
theorem reliesOnInvariant_along (relies : Bool) {paths : List Conjunction}
    (h : (along outstanding invariant relies paths).missing = none) :
    (along outstanding invariant relies paths).reliesOnInvariant = true ↔
      relies = true ∨ ∃ path ∈ paths, path.firstUncovered outstanding.alternatives ≠ none := by
  induction paths generalizing relies with
  | nil => simp [along]
  | cons path rest ih =>
    unfold along at h ⊢
    split at h
    case h_1 hcovered => simp [ih relies h, hcovered]
    case h_2 gap hgap =>
      split at h
      case isTrue hinv => simp [ih true h, hgap, hinv]
      case isFalse => cases h

/-- The first path with a property is found by going over the guards, and for each over the contract. -/
theorem find?_paths (p : Conjunction → Bool) :
    (paths guards contract).find? p = guards.conjunctions.findSome? fun guard =>
      (contract.conjunctions.find? fun assumed =>
        guard.satisfiable && Conjunction.satisfiable (guard ++ assumed) && p (guard ++ assumed)).map
          (guard ++ ·) := by
  unfold paths
  induction guards.conjunctions with
  | nil => rfl
  | cons guard rest ih =>
    have hguard : (contract.conjunctions.find? fun assumed => guard.satisfiable &&
        Conjunction.satisfiable (guard ++ assumed) && p (guard ++ assumed)).map (guard ++ ·) =
        if guard.satisfiable then
          ((contract.conjunctions.map (guard ++ ·)).filter Conjunction.satisfiable).find? p
        else none := by
      cases guard.satisfiable with
      | false =>
        have hnone : contract.conjunctions.find? (fun _ => false) = none := by
          simp [List.find?_eq_none]
        simp [hnone]
      | true =>
        simp only [Bool.true_and, if_true, List.find?_filter, List.find?_map, Bool.decide_and,
          Bool.decide_eq_true]
        rfl
    rw [List.findSome?_cons, hguard, ← ih, List.filter_cons]
    split
    · rw [List.flatMap_cons, List.find?_append]
      cases List.find? p _ <;> rfl
    · rfl

theorem covered_eq_true_iff (hne : outstanding.isEmpty = false) :
    (check outstanding guards contract invariant).covered = true ↔
      ∀ path ∈ paths guards contract, Meets outstanding invariant path := by
  rw [covered, Option.isNone_iff_eq_none, missing_check_eq_none_iff, hne]
  simp only [Bool.false_eq_true, false_or, firstUncovered_eq_none_iff_covers hne,
    byInvariant_eq_true_iff, Meets]

/-- Without an invariant, a path meets the outstanding condition only by itself. -/
theorem meets_empty_iff {path : Conjunction} :
    Meets outstanding {} path ↔ path.Covers outstanding.alternatives := by
  simp [Meets, Condition.isEmpty]

theorem reliesOnInvariant_iff (hne : outstanding.isEmpty = false)
    (h : (check outstanding guards contract invariant).covered = true) :
    (check outstanding guards contract invariant).reliesOnInvariant = true ↔
      (check outstanding guards contract {}).covered = false := by
  have hwalk : check outstanding guards contract invariant =
      along outstanding invariant false (paths guards contract) := by simp [check, hne]
  rw [covered, Option.isNone_iff_eq_none, hwalk] at h
  rw [hwalk, reliesOnInvariant_along false h, ← Bool.not_eq_true, covered_eq_true_iff hne]
  simp only [Bool.false_eq_true, false_or, ne_eq, firstUncovered_eq_none_iff_covers hne, meets_empty_iff,
    not_forall, exists_prop]

theorem exists_firstFailing (hne : outstanding.isEmpty = false)
    (h : (check outstanding guards contract invariant).covered = false) :
    ∃ guard assumed gap, FirstFailing outstanding guards contract invariant guard assumed ∧
      (check outstanding guards contract invariant).missing = some gap ∧
      Conjunction.firstUncovered (guard ++ assumed) outstanding.alternatives = some gap := by
  have hmissing : (check outstanding guards contract invariant).missing =
      ((paths guards contract).find? fun path => !passes outstanding invariant path).bind
        fun path => path.firstUncovered outstanding.alternatives := by
    simp [check, hne, missing_along]
  rw [covered, Option.isNone_eq_false_iff, Option.isSome_iff_exists] at h
  obtain ⟨gap, hgap⟩ := h
  rw [hmissing] at hgap
  obtain ⟨path, hfound, hgap'⟩ := Option.bind_eq_some_iff.mp hgap
  rw [find?_paths, List.findSome?_eq_some_iff] at hfound
  obtain ⟨guards₁, guard, guards₂, hguards, hfound, hearlier⟩ := hfound
  obtain ⟨assumed, hassumed, rfl⟩ := Option.map_eq_some_iff.mp hfound
  obtain ⟨hfails, contract₁, contract₂, hcontract, hbefore⟩ := List.find?_eq_some_iff_append.mp hassumed
  -- an open path at which the search goes on passes
  have hmeets : ∀ g c, (g.satisfiable && Conjunction.satisfiable (g ++ c) &&
      !passes outstanding invariant (g ++ c)) = false → Open g c → Meets outstanding invariant (g ++ c) := by
    intro g c hpass hopen
    rw [hopen.1, hopen.2] at hpass
    exact (passes_eq_true_iff hne).mp (by simpa using hpass)
  simp only [Bool.and_eq_true, Bool.not_eq_true'] at hfails
  refine ⟨guard, assumed, gap, ?_, hmissing.trans hgap, hgap'⟩
  refine ⟨guards₁, guards₂, contract₁, contract₂, hguards, hcontract, ?_, ?_, hfails.1, ?_⟩
  · intro g hg c hc
    have hnone := List.find?_eq_none.mp (Option.map_eq_none_iff.mp (hearlier g hg)) c hc
    exact hmeets g c (by simpa only [Bool.not_eq_true] using hnone)
  · intro c hc
    exact hmeets guard c (by simpa only [Bool.not_eq_true'] using hbefore c hc)
  · rw [← passes_eq_true_iff hne, hfails.2]
    exact Bool.false_ne_true

end Coverage

/-- What a coverage check of an outstanding condition answers. It is positive exactly if every open path meets
the condition. If so, the invariant was relied on exactly if the check without it is negative. If not, the
missing atoms are those that one alternative lacks on the first failing path; there are some, and no
alternative lacks fewer on that path. -/
theorem coverage_check_exact {outstanding : Condition} (hne : outstanding.isEmpty = false)
    (guards contract invariant : Condition) :
    ((Coverage.check outstanding guards contract invariant).covered = true ↔
      ∀ g ∈ guards.conjunctions, ∀ c ∈ contract.conjunctions, Coverage.Open g c →
        Coverage.Meets outstanding invariant (g ++ c)) ∧
    ((Coverage.check outstanding guards contract invariant).covered = true →
      ((Coverage.check outstanding guards contract invariant).reliesOnInvariant = true ↔
        (Coverage.check outstanding guards contract {}).covered = false)) ∧
    ((Coverage.check outstanding guards contract invariant).covered = false →
      ∃ missing g c, (Coverage.check outstanding guards contract invariant).missing = some missing ∧
        missing ≠ [] ∧ Coverage.FirstFailing outstanding guards contract invariant g c ∧
        (∃ atoms ∈ outstanding.alternatives,
          missing = atoms.filter fun a => !Conjunction.entails (g ++ c) a) ∧
        ∀ atoms ∈ outstanding.alternatives,
          missing.length ≤ (atoms.filter fun a => !Conjunction.entails (g ++ c) a).length) := by
  refine ⟨?_, Coverage.reliesOnInvariant_iff hne, fun h => ?_⟩
  · rw [Coverage.covered_eq_true_iff hne]
    constructor
    · intro h g hg c hc hopen
      exact h (g ++ c) (Coverage.mem_paths_iff.mpr ⟨g, hg, hopen.1, c, hc, rfl, hopen.2⟩)
    · intro h path hpath
      obtain ⟨g, hg, hsat, c, hc, rfl, hboth⟩ := Coverage.mem_paths_iff.mp hpath
      exact h g hg c hc ⟨hsat, hboth⟩
  · obtain ⟨g, c, gap, hfirst, hmissing, hgap⟩ := Coverage.exists_firstFailing hne h
    obtain ⟨hsome, hone, hleast⟩ := Conjunction.firstUncovered_spec hgap
    exact ⟨gap, g, c, hmissing, hsome, hfirst, hone, hleast⟩

/-- An access to a slot, for owners that are trusted, or within bounds once the table is ready. -/
def guardedSlot : Condition := slotCondition ["trusted(t) and owned(t) or i < 8 and ready(t)"]

/-- With the invariant the slot is reached; without it the second alternative lacks its bound, while the first
one lacks two atoms. -/
theorem guardedSlot_needs_invariant :
    guardedSlot.isEmpty = false ∧
      (Coverage.check guardedSlot (slotCondition ["i < 9"]) (slotCondition ["ready(t)"])
        (slotCondition ["i < 8"])).reliesOnInvariant = true ∧
      ∃ missing g c, (Coverage.check guardedSlot (slotCondition ["i < 9"]) (slotCondition ["ready(t)"])
          {}).missing = some missing ∧ missing.map Atom.key = ["i < 8"] ∧
        Coverage.FirstFailing guardedSlot (slotCondition ["i < 9"]) (slotCondition ["ready(t)"]) {} g c := by
  have hcheck : (!guardedSlot.isEmpty &&
      (Coverage.check guardedSlot (slotCondition ["i < 9"]) (slotCondition ["ready(t)"])
        (slotCondition ["i < 8"])).covered &&
      (Coverage.check guardedSlot (slotCondition ["i < 9"]) (slotCondition ["ready(t)"]) {}).missing.map
        (fun atoms => atoms.map Atom.key) == some ["i < 8"]) = true := by
    decide +kernel
  simp only [Bool.and_eq_true, Bool.not_eq_true', beq_iff_eq, Option.map_eq_some_iff] at hcheck
  obtain ⟨⟨hne, hcovered⟩, missing, hmissing, hkeys⟩ := hcheck
  have huncovered : (Coverage.check guardedSlot (slotCondition ["i < 9"]) (slotCondition ["ready(t)"])
      {}).covered = false := by
    rw [Coverage.covered, hmissing]
    rfl
  obtain ⟨-, hrelies, -⟩ := coverage_check_exact hne (slotCondition ["i < 9"]) (slotCondition ["ready(t)"])
    (slotCondition ["i < 8"])
  obtain ⟨-, -, hfails⟩ := coverage_check_exact hne (slotCondition ["i < 9"]) (slotCondition ["ready(t)"]) {}
  obtain ⟨missing', g, c, hmissing', -, hfirst, -⟩ := hfails huncovered
  cases hmissing.symm.trans hmissing'
  exact ⟨hne, (hrelies hcovered).mpr huncovered, missing, g, c, hmissing, hkeys, hfirst⟩

end CrateSafety
