import CrateSafety.Proofs.CoverageMeaning
import CrateSafety.Proofs.IntervalOrder
import CrateSafety.Proofs.LeastModel
import CrateSafety.Proofs.NormalForm

/-!
# Coverage under stronger assumptions

Entailment grows with the assumptions: more atoms have more keys and tighter intervals, and contradictions that
were seen stay. So a covered condition stays covered when guards, contract and invariant are refined and more
atoms are discharged. Discharging can make two alternatives one, of which the earlier is kept, and this is where
atoms with one key must have one bound.
-/

namespace CrateSafety

section Alike

/-- What the logic sees of a bound; both zeros are one number. -/
def Bound.sense (b : Bound) : String × Comparison × Line := (b.subject, b.op, b.value.point)

/-- The logic sees one bound at two atoms, or none at either. -/
def Atom.SameBound (a b : Atom) : Prop := a.bound.map Bound.sense = b.bound.map Bound.sense

instance (a b : Atom) : Decidable (a.SameBound b) :=
  inferInstanceAs (Decidable (a.bound.map Bound.sense = b.bound.map Bound.sense))

/-- The logic cannot tell two atoms apart. -/
structure Atom.Alike (a b : Atom) : Prop where
  /-- They have one key. -/
  key : a.key = b.key
  /-- They have one bound. -/
  bound : a.SameBound b
  /-- They negate one key. -/
  negates : a.negates = b.negates

instance (a b : Atom) : Decidable (a.Alike b) :=
  decidable_of_iff (a.key = b.key ∧ a.SameBound b ∧ a.negates = b.negates)
    ⟨fun ⟨hk, hb, hn⟩ => ⟨hk, hb, hn⟩, fun h => ⟨h.key, h.bound, h.negates⟩⟩

/-- Where one of two atoms has a bound, so does the other, and the logic sees the same of it. -/
theorem Atom.SameBound.exists_bound {a b : Atom} (h : a.SameBound b) {x : Bound} (hx : a.bound = some x) :
    ∃ y, b.bound = some y ∧ y.subject = x.subject ∧ y.op = x.op ∧ y.value.point = x.value.point := by
  rw [SameBound, hx, Option.map_some, eq_comm, Option.map_eq_some_iff] at h
  obtain ⟨y, hy, hsense⟩ := h
  simp only [Bound.sense, Prod.mk.injEq] at hsense
  exact ⟨y, hy, hsense⟩

end Alike

namespace Ranges

/-- The interval of a subject, the full line if there is none. -/
def interval (ranges : Ranges) (subject : String) : Interval := (ranges.lookup subject).getD {}

/-- A bound constrains the interval of its subject and no other. -/
theorem lookup_constrain (ranges : Ranges) (bound : Bound) (subject : String) :
    (ranges.constrain bound).lookup subject =
      if subject == bound.subject then some ((ranges.interval subject).constrain bound.op bound.value)
      else ranges.lookup subject := by
  induction ranges with
  | nil =>
    rw [constrain, interval, List.lookup_cons]
    cases hs : subject == bound.subject <;> simp
  | cons entry rest ih =>
    obtain ⟨first, found⟩ := entry
    unfold constrain interval
    by_cases hfirst : first = bound.subject
    · subst hfirst
      rw [if_pos (beq_self_eq_true _), List.lookup_cons, List.lookup_cons]
      cases hs : subject == bound.subject <;> simp
    · rw [if_neg (by simpa using hfirst), List.lookup_cons, List.lookup_cons, ih, interval]
      cases hs : subject == first with
      | false => simp
      | true =>
        have hne : (subject == bound.subject) = false := by
          rw [beq_iff_eq.mp hs]
          simpa using hfirst
        simp [hne]

/-- An interval is tighter than that of a subject exactly if it keeps to all bounds on the subject. -/
theorem tighter_foldl {j : Interval} {subject : String} (bounds : List Bound) (ranges : Ranges) :
    j.Tighter ((bounds.foldl constrain ranges).interval subject) ↔
      j.Tighter (ranges.interval subject) ∧ ∀ b ∈ bounds, b.subject = subject → j.KeepsTo b.op b.value := by
  induction bounds generalizing ranges with
  | nil => simp
  | cons b bounds ih =>
    have hstep : j.Tighter ((ranges.constrain b).interval subject) ↔
        j.Tighter (ranges.interval subject) ∧ (b.subject = subject → j.KeepsTo b.op b.value) := by
      rw [interval, lookup_constrain]
      split
      case isTrue hs =>
        have hsubject : b.subject = subject := (beq_iff_eq.mp hs).symm
        simp [Interval.tighter_constrain, hsubject]
      case isFalse hs =>
        have hsubject : b.subject ≠ subject := fun he => hs (by simp [he])
        simp [interval, hsubject]
    rw [List.foldl_cons, ih, hstep, List.forall_mem_cons, and_assoc]

/-- A subject has an interval exactly if some bound is on it. -/
theorem isSome_lookup_foldl {subject : String} (bounds : List Bound) (ranges : Ranges) :
    ((bounds.foldl constrain ranges).lookup subject).isSome = true ↔
      (ranges.lookup subject).isSome = true ∨ ∃ b ∈ bounds, b.subject = subject := by
  induction bounds generalizing ranges with
  | nil => simp
  | cons b bounds ih =>
    have hstep : ((ranges.constrain b).lookup subject).isSome = true ↔
        (ranges.lookup subject).isSome = true ∨ b.subject = subject := by
      rw [lookup_constrain]
      split
      case isTrue hs => simp [beq_iff_eq.mp hs]
      case isFalse hs =>
        have hsubject : b.subject ≠ subject := fun he => hs (by simp [he])
        simp [hsubject]
    simp only [List.foldl_cons, ih, hstep, List.mem_cons, or_assoc, exists_eq_or_imp]

theorem isSome_lookup_ofAtoms {atoms : Conjunction} {subject : String} :
    ((ofAtoms atoms).lookup subject).isSome = true ↔
      ∃ a ∈ atoms, ∃ b, a.bound = some b ∧ b.subject = subject := by
  simp only [ofAtoms, isSome_lookup_foldl, List.lookup_nil, Option.isSome_none, Bool.false_eq_true,
    false_or, List.mem_filterMap]
  constructor
  · rintro ⟨b, ⟨a, ha, hb⟩, hs⟩
    exact ⟨a, ha, b, hb, hs⟩
  · rintro ⟨a, ha, b, hb, hs⟩
    exact ⟨b, ⟨a, ha, hb⟩, hs⟩

end Ranges

namespace Conjunction

/-- Every atom of a weaker conjunction is among those of a stronger one, as far as the logic sees. -/
def Includes (stronger weaker : Conjunction) : Prop := ∀ a ∈ weaker, ∃ b ∈ stronger, a.Alike b

instance (stronger weaker : Conjunction) : Decidable (stronger.Includes weaker) :=
  inferInstanceAs (Decidable (∀ a ∈ weaker, ∃ b ∈ stronger, a.Alike b))

namespace Includes

variable {stronger weaker : Conjunction}

theorem append {stronger' weaker' : Conjunction} (h : stronger.Includes weaker)
    (h' : stronger'.Includes weaker') : Conjunction.Includes (stronger ++ stronger') (weaker ++ weaker') := by
  intro a ha
  rcases List.mem_append.mp ha with ha | ha
  · obtain ⟨b, hb, halike⟩ := h a ha
    exact ⟨b, List.mem_append_left _ hb, halike⟩
  · obtain ⟨b, hb, halike⟩ := h' a ha
    exact ⟨b, List.mem_append_right _ hb, halike⟩

theorem hasKey (h : stronger.Includes weaker) {key : String} (hk : weaker.hasKey key = true) :
    stronger.hasKey key = true := by
  obtain ⟨a, ha, hkey⟩ := List.any_eq_true.mp hk
  obtain ⟨b, hb, halike⟩ := h a ha
  exact List.any_eq_true.mpr ⟨b, hb, halike.key ▸ hkey⟩

theorem hasKey_eq_false (h : stronger.Includes weaker) {key : String} (hk : stronger.hasKey key = false) :
    weaker.hasKey key = false := by
  by_contra hne
  rw [Bool.not_eq_false] at hne
  rw [h.hasKey hne] at hk
  cases hk

/-- More bounds leave tighter intervals. -/
theorem tighter (h : stronger.Includes weaker) (subject : String) :
    ((Ranges.ofAtoms stronger).interval subject).Tighter ((Ranges.ofAtoms weaker).interval subject) := by
  -- the interval of the stronger atoms keeps to their own bounds, hence to those of the weaker ones
  obtain ⟨hfull, hkeeps⟩ := (Ranges.tighter_foldl _ _).mp (Interval.Tighter.refl _ :
    ((Ranges.ofAtoms stronger).interval subject).Tighter ((Ranges.ofAtoms stronger).interval subject))
  refine (Ranges.tighter_foldl _ _).mpr ⟨hfull, fun b hb hsubject => ?_⟩
  obtain ⟨a, ha, hbound⟩ := List.mem_filterMap.mp hb
  obtain ⟨a', ha', halike⟩ := h a ha
  obtain ⟨b', hb', hsubject', hop, hpoint⟩ := halike.bound.exists_bound hbound
  have hmem : b' ∈ stronger.filterMap (·.bound) := List.mem_filterMap.mpr ⟨a', ha', hb'⟩
  have hkeep := hkeeps b' hmem (hsubject'.trans hsubject)
  rw [hop] at hkeep
  exact Interval.keepsTo_of_point hpoint hkeep

/-- A contradiction that is seen stays seen. -/
theorem satisfiable (h : stronger.Includes weaker) (hs : stronger.satisfiable = true) :
    weaker.satisfiable = true := by
  obtain ⟨hfalse, hnegates, hempty⟩ := satisfiable_eq_true_iff.mp hs
  refine satisfiable_eq_true_iff.mpr ⟨h.hasKey_eq_false hfalse, ?_, ?_⟩
  · intro a ha key hkey
    obtain ⟨b, hb, halike⟩ := h a ha
    exact h.hasKey_eq_false (hnegates b hb key (halike.negates ▸ hkey))
  · -- numbers that respect all bounds of the stronger atoms respect those of the weaker ones
    obtain ⟨number, hnumber⟩ := (Ranges.wellFormed_ofAtoms stronger).exists_number hempty
    have hstronger := (Ranges.contains_ofAtoms stronger number).mp hnumber
    have hweaker : (Ranges.ofAtoms weaker).Contains number := by
      refine (Ranges.contains_ofAtoms weaker number).mpr fun a ha b hb => ?_
      obtain ⟨a', ha', halike⟩ := h a ha
      obtain ⟨b', hb', hsubject, hop, hpoint⟩ := halike.bound.exists_bound hb
      have hholds := hstronger a' ha' b' hb'
      rwa [hsubject, hop, Comparison.Holds, hpoint] at hholds
    intro entry hentry
    by_contra hne
    rw [Bool.not_eq_false] at hne
    exact Interval.not_contains_of_isEmpty hne _ (hweaker entry hentry)

/-- A bound that weaker atoms imply is implied by stronger ones. -/
theorem impliesBound (h : stronger.Includes weaker) (hs : stronger.satisfiable = true) {bound : Bound}
    (hb : weaker.impliesBound bound = true) : stronger.impliesBound bound = true := by
  unfold Conjunction.impliesBound at hb ⊢
  cases hweaker : (Ranges.ofAtoms weaker).lookup bound.subject with
  | none => simp [hweaker] at hb
  | some i =>
    have hsome : ((Ranges.ofAtoms stronger).lookup bound.subject).isSome = true := by
      obtain ⟨a, ha, b, hab, hsubject⟩ :=
        Ranges.isSome_lookup_ofAtoms.mp (Option.isSome_iff_exists.mpr ⟨i, hweaker⟩)
      obtain ⟨a', ha', halike⟩ := h a ha
      obtain ⟨b', hb', hsubject', -⟩ := halike.bound.exists_bound hab
      exact Ranges.isSome_lookup_ofAtoms.mpr ⟨a', ha', b', hb', hsubject'.trans hsubject⟩
    obtain ⟨j, hstronger⟩ := Option.isSome_iff_exists.mp hsome
    have htighter := h.tighter bound.subject
    rw [Ranges.interval, hstronger, Ranges.interval, hweaker] at htighter
    have hi := (satisfiable_eq_true_iff.mp (h.satisfiable hs)).2.2 _ (Ranges.mem_of_lookup hweaker)
    have hj := (satisfiable_eq_true_iff.mp hs).2.2 _ (Ranges.mem_of_lookup hstronger)
    rw [hweaker] at hb
    rw [hstronger]
    exact Interval.satisfies_of_tighter htighter hi hj hb

/-- What weaker atoms entail, stronger ones do. -/
theorem entails (h : stronger.Includes weaker) {target : Atom} (he : weaker.entails target = true) :
    stronger.entails target = true := by
  cases hs : stronger.satisfiable with
  | false => simp [Conjunction.entails, hs]
  | true =>
    simp only [Conjunction.entails, Bool.or_eq_true, Bool.not_eq_true', h.satisfiable hs,
      Bool.true_eq_false, or_false] at he
    simp only [Conjunction.entails, Bool.or_eq_true]
    rcases he with (htrue | hkey) | hbound
    · exact .inl (.inl (.inl htrue))
    · exact .inl (.inl (.inr (h.hasKey hkey)))
    · obtain ⟨b, hb, himplies⟩ := (Option.any_eq_true _ _).mp hbound
      exact .inr ((Option.any_eq_true _ _).mpr ⟨b, hb, h.impliesBound hs himplies⟩)

/-- Alternatives that weaker atoms cover are covered by stronger ones. -/
theorem covers (h : stronger.Includes weaker) {alternatives : List Conjunction}
    (hc : weaker.Covers alternatives) : stronger.Covers alternatives := by
  obtain ⟨atoms, hatoms, hall⟩ := hc
  exact ⟨atoms, hatoms, fun a ha => h.entails (hall a ha)⟩

end Includes

/-- Of a target the logic sees the key and the bound only. -/
theorem entails_of_sameBound {assumptions : Conjunction} {target target' : Atom}
    (hk : target.key = target'.key) (hb : target.SameBound target')
    (he : assumptions.entails target = true) : assumptions.entails target' = true := by
  simp only [Conjunction.entails, Bool.or_eq_true] at he ⊢
  rw [← hk]
  refine he.imp_right fun hany => ?_
  obtain ⟨b, hbound, himplies⟩ := (Option.any_eq_true _ _).mp hany
  obtain ⟨b', hbound', hsubject, hop, hpoint⟩ := hb.exists_bound hbound
  refine (Option.any_eq_true _ _).mpr ⟨b', hbound', ?_⟩
  unfold impliesBound at himplies ⊢
  rw [hsubject, hop]
  split at himplies
  case h_1 interval hlookup => rwa [← interval.satisfies_eq_of_point b.op hpoint] at himplies
  case h_2 => cases himplies

end Conjunction

namespace Condition

/-- Every conjunction of a stronger condition includes one of a weaker one. -/
def Refines (stronger weaker : Condition) : Prop :=
  ∀ atoms ∈ stronger.conjunctions, ∃ fewer ∈ weaker.conjunctions, Conjunction.Includes atoms fewer

instance (stronger weaker : Condition) : Decidable (stronger.Refines weaker) :=
  inferInstanceAs (Decidable
    (∀ atoms ∈ stronger.conjunctions, ∃ fewer ∈ weaker.conjunctions, Conjunction.Includes atoms fewer))

/-- Atoms with one key have one bound. -/
def KeysFixBounds (c : Condition) : Prop :=
  ∀ a ∈ c.alternatives.flatten, ∀ b ∈ c.alternatives.flatten, a.key = b.key → a.SameBound b

instance (c : Condition) : Decidable c.KeysFixBounds :=
  inferInstanceAs (Decidable
    (∀ a ∈ c.alternatives.flatten, ∀ b ∈ c.alternatives.flatten, a.key = b.key → a.SameBound b))

/-- An alternative, or an earlier one of its signature, is kept. -/
theorem exists_signature_foldl_insert {conjunctions alternatives : List Conjunction} {atoms : Conjunction}
    (h : atoms ∈ alternatives ∨ atoms ∈ conjunctions) :
    ∃ kept ∈ conjunctions.foldl insert alternatives, kept.signature = atoms.signature := by
  induction conjunctions generalizing alternatives atoms with
  | nil => exact ⟨atoms, h.resolve_right List.not_mem_nil, rfl⟩
  | cons first rest ih =>
    rw [List.foldl_cons]
    rcases h with h | h
    · refine ih (.inl ?_)
      unfold insert
      split
      · exact h
      · exact List.mem_append_left _ h
    · rcases List.mem_cons.mp h with rfl | h
      · -- the first one is inserted, unless one of its signature stands in its place
        unfold insert
        split
        case isTrue hany =>
          obtain ⟨earlier, hearlier, hsignature⟩ := List.any_eq_true.mp hany
          obtain ⟨kept, hkept, heq⟩ := ih (.inl hearlier)
          exact ⟨kept, hkept, heq.trans (beq_iff_eq.mp hsignature)⟩
        case isFalse => exact ih (.inl (List.mem_append_right _ (List.mem_singleton_self _)))
      · exact ih (.inr h)

/-- A built condition asks for nothing exactly if no alternative is given, or one that asks for nothing. -/
theorem alternatives_build_eq_nil_iff {alternatives : List Conjunction} :
    (build alternatives).alternatives = [] ↔ alternatives = [] ∨ [] ∈ alternatives := by
  unfold build
  dsimp only
  split
  case isTrue h =>
    obtain ⟨c, hc, hempty⟩ := List.any_eq_true.mp h
    obtain ⟨atoms, hatoms, rfl⟩ := List.mem_map.mp hc
    have hnil : atoms = [] := by simpa using hempty
    exact ⟨fun _ => .inr (hnil ▸ hatoms), fun _ => rfl⟩
  case isFalse h =>
    constructor
    · intro hnone
      exact .inl (List.map_eq_nil_iff.mp (foldl_insert_eq_nil hnone).2)
    · rintro (rfl | hmem)
      · rfl
      · exact absurd (List.any_eq_true.mpr ⟨_, List.mem_map_of_mem hmem, rfl⟩) h

/-- A given alternative is kept without its repetitions, or an earlier one of its signature is. -/
theorem exists_signature_build {alternatives : List Conjunction} {atoms : Conjunction}
    (h : atoms ∈ alternatives) (hne : (build alternatives).alternatives ≠ []) :
    ∃ kept ∈ (build alternatives).alternatives, kept.signature = atoms.dedupe.signature := by
  unfold build at hne ⊢
  dsimp only at hne ⊢
  split
  case isTrue hempty => exact absurd (if_pos hempty ▸ rfl) hne
  case isFalse => exact exists_signature_foldl_insert (.inr (List.mem_map_of_mem h))

section Without

variable {required : Condition} {keys keys' : List String}

/-- Discharging more leaves less of a conjunction. -/
theorem filter_subset_of_keys (hkeys : keys ⊆ keys') (atoms : Conjunction) :
    (atoms.filter fun a => !keys'.contains a.key) ⊆ atoms.filter fun a => !keys.contains a.key := by
  intro a ha
  obtain ⟨ha, hkept⟩ := List.mem_filter.mp ha
  have hnot : a.key ∉ keys' := by simpa using hkept
  exact List.mem_filter.mpr ⟨ha, by simpa using fun hmem => hnot (hkeys hmem)⟩

/-- What is discharged altogether stays so if more is discharged. -/
theorem without_eq_nil_of_keys (hkeys : keys ⊆ keys') (h : (required.without keys).alternatives = []) :
    (required.without keys').alternatives = [] := by
  rw [without, alternatives_build_eq_nil_iff] at h ⊢
  rcases h with h | h
  · exact .inl (List.map_eq_nil_iff.mpr (List.map_eq_nil_iff.mp h))
  · obtain ⟨atoms, hatoms, hnil⟩ := List.mem_map.mp h
    refine .inr (List.mem_map.mpr ⟨atoms, hatoms, ?_⟩)
    exact List.subset_nil.mp (hnil ▸ filter_subset_of_keys hkeys atoms)

/-- An alternative that is covered stays so, or another one takes its place, if more is discharged. -/
theorem covers_without_of_keys (hbounds : required.KeysFixBounds) (hkeys : keys ⊆ keys')
    {assumptions : Conjunction} (hne : (required.without keys').alternatives ≠ [])
    (h : assumptions.Covers (required.without keys).alternatives) :
    assumptions.Covers (required.without keys').alternatives := by
  obtain ⟨atoms, hatoms, hall⟩ := h
  obtain ⟨left, hleft, rfl⟩ := exists_of_mem_build hatoms
  obtain ⟨given, hgiven, rfl⟩ := List.mem_map.mp hleft
  obtain ⟨kept, hkept, hsignature⟩ := exists_signature_build (List.mem_map_of_mem hgiven) hne
  refine ⟨kept, hkept, fun b hb => ?_⟩
  -- the key of an atom that is kept is that of an atom that was covered
  obtain ⟨a, ha, hak⟩ := Conjunction.exists_key_of_signature_eq hsignature.symm hb
  have ha' := filter_subset_of_keys hkeys given (Conjunction.dedupe_subset _ ha)
  obtain ⟨c, hc, hck⟩ := Conjunction.exists_mem_dedupe ha'
  have hcgiven : c ∈ required.alternatives.flatten :=
    List.mem_flatten_of_mem hgiven (List.mem_filter.mp (Conjunction.dedupe_subset _ hc)).1
  have hbgiven : b ∈ required.alternatives.flatten :=
    flatten_without_subset required keys' (List.mem_flatten_of_mem hkept hb)
  have hkey : c.key = b.key := hck.trans hak
  exact Conjunction.entails_of_sameBound hkey (hbounds c hcgiven b hbgiven hkey) (hall c hc)

/-- What is left is covered by stronger assumptions if more was left and covered by weaker ones. -/
theorem firstUncovered_without_of_includes (hbounds : required.KeysFixBounds) (hkeys : keys ⊆ keys')
    {stronger weaker : Conjunction} (hi : stronger.Includes weaker)
    (h : weaker.firstUncovered (required.without keys).alternatives = none) :
    stronger.firstUncovered (required.without keys').alternatives = none := by
  rw [Conjunction.firstUncovered_eq_none_iff] at h ⊢
  by_cases hne : (required.without keys').alternatives = []
  · exact .inl hne
  · have hcovers := h.resolve_left fun hnil => hne (without_eq_nil_of_keys hkeys hnil)
    exact .inr (covers_without_of_keys hbounds hkeys hne (hi.covers hcovers))

end Without

end Condition

/-- A covered condition stays covered if more of its atoms are discharged and its guards, its contract and its
invariant are refined, provided that its atoms with one key have one bound. -/
theorem covered_of_refined {required guards guards' contract contract' invariant invariant' : Condition}
    {keys keys' : List String} (hbounds : required.KeysFixBounds) (hkeys : keys ⊆ keys')
    (hguards : guards'.Refines guards) (hcontract : contract'.Refines contract)
    (hinvariant : invariant'.Refines invariant)
    (h : (Coverage.check (required.without keys) guards contract invariant).covered = true) :
    (Coverage.check (required.without keys') guards' contract' invariant').covered = true := by
  rw [Coverage.covered, Option.isNone_iff_eq_none, Coverage.missing_check_eq_none_iff] at h ⊢
  rcases h with hempty | hpaths
  · refine .inl (List.isEmpty_iff.mpr (Condition.without_eq_nil_of_keys hkeys ?_))
    exact List.isEmpty_iff.mp hempty
  refine .inr fun path' hpath' => ?_
  obtain ⟨guard', hguard', hsat', assumed', hassumed', rfl, hsatPath'⟩ := Coverage.mem_paths_iff.mp hpath'
  obtain ⟨guard, hguard, hinGuard⟩ := hguards guard' hguard'
  obtain ⟨assumed, hassumed, hinAssumed⟩ := hcontract assumed' hassumed'
  have hinPath := hinGuard.append hinAssumed
  have hpath : guard ++ assumed ∈ Coverage.paths guards contract :=
    Coverage.mem_paths_iff.mpr ⟨guard, hguard, hinGuard.satisfiable hsat', assumed, hassumed, rfl,
      hinPath.satisfiable hsatPath'⟩
  rcases hpaths _ hpath with hcovered | hinvariants
  · exact .inl (Condition.firstUncovered_without_of_includes hbounds hkeys hinPath hcovered)
  have hall : ∀ inv' ∈ invariant'.conjunctions,
      Conjunction.satisfiable (guard' ++ assumed' ++ inv') = true →
        Conjunction.firstUncovered (guard' ++ assumed' ++ inv') (required.without keys').alternatives =
          none := by
    intro inv' hinv' hsatInv'
    obtain ⟨inv, hinv, hinInv⟩ := hinvariant inv' hinv'
    have hinAll := hinPath.append hinInv
    have hcovered := (Coverage.byInvariant_eq_true_iff.mp hinvariants).2 inv hinv
      (hinAll.satisfiable hsatInv')
    exact Condition.firstUncovered_without_of_includes hbounds hkeys hinAll hcovered
  cases hempty : invariant'.isEmpty with
  | false => exact .inr (Coverage.byInvariant_eq_true_iff.mpr ⟨hempty, hall⟩)
  | true =>
    -- an empty invariant refines only one that gives no help, and then the path is covered by itself
    have hnil : [] ∈ invariant'.conjunctions := by
      rw [Condition.conjunctions, if_pos hempty]
      exact List.mem_singleton_self _
    have hself := hall [] hnil
    rw [List.append_nil] at hself
    exact .inl (hself hsatPath')

/-- The condition of lines that can be read. -/
def slotCondition (lines : List String) : Condition := (Condition.ofLines lines).toOption.getD {}

/-- An access to one of eight slots, allowed to readers and to writers alike. -/
def slotAccess : Condition := slotCondition ["reader(t) and i < 8 or writer(t) and i < 8"]

/-- The slot that a writer reaches with the help of an invariant is still covered after guards, contract and
invariant are refined and the role is discharged, which makes the two alternatives one. -/
theorem slotAccess_stays_covered :
    slotAccess.alternatives.length = 2 ∧
      (Coverage.check (slotAccess.without []) (slotCondition ["i < 9"]) (slotCondition ["writer(t)"])
        (slotCondition ["i <= 7 or i < 4"])).covered = true ∧
      (slotAccess.without ["reader ( t )", "writer ( t )"]).alternatives.length = 1 ∧
      (Coverage.check (slotAccess.without ["reader ( t )", "writer ( t )"])
        (slotCondition ["i < 9", "i != 3"]) (slotCondition ["writer(t)", "not busy(t)"])
        (slotCondition ["i <= 7 and 0 < i or i < 4 and even(i)"])).covered = true := by
  have hlength : slotAccess.alternatives.length = 2 := by decide +kernel
  have hmerged : (slotAccess.without ["reader ( t )", "writer ( t )"]).alternatives.length = 1 := by
    decide +kernel
  have hcovered : (Coverage.check (slotAccess.without []) (slotCondition ["i < 9"])
      (slotCondition ["writer(t)"]) (slotCondition ["i <= 7 or i < 4"])).covered = true := by
    decide +kernel
  refine ⟨hlength, hcovered, hmerged, ?_⟩
  exact covered_of_refined (by decide +kernel) (List.nil_subset _) (by decide +kernel) (by decide +kernel)
    (by decide +kernel) hcovered

end CrateSafety
