import CrateSafety.Proofs.Valuation

/-!
# Meaning of normalized conditions

Conditions are kept without repeated atoms and repeated alternatives. Dropping repetitions keeps the meaning,
and so does the collapse of a condition with an empty alternative, so a built condition holds exactly if one
of the given alternatives does. Removing atoms that are true keeps the meaning as well.
-/

namespace CrateSafety

namespace Conjunction

/-- What the removal of repeated atoms keeps: atoms of the input, and each key that has come before. -/
theorem foldl_dedupe (atoms seen : Conjunction) :
    (∀ a ∈ atoms.foldl (fun seen a => if seen.any (·.key == a.key) then seen else seen ++ [a]) seen,
      a ∈ seen ∨ a ∈ atoms) ∧
    ∀ a, a ∈ seen ∨ a ∈ atoms → ∃ b ∈ atoms.foldl
      (fun seen a => if seen.any (·.key == a.key) then seen else seen ++ [a]) seen, b.key = a.key := by
  induction atoms generalizing seen with
  | nil => simpa using fun a ha => ⟨a, ha, rfl⟩
  | cons first rest ih =>
    rw [List.foldl_cons]
    split
    case isTrue h =>
      obtain ⟨earlier, he, hk⟩ := List.any_eq_true.mp h
      have hkey : earlier.key = first.key := by simpa using hk
      obtain ⟨hsub, hkeys⟩ := ih seen
      refine ⟨fun a ha => (hsub a ha).imp_right (List.mem_cons_of_mem first), fun a ha => ?_⟩
      rcases ha with ha | ha
      · exact hkeys a (.inl ha)
      · rcases List.mem_cons.mp ha with rfl | ha
        · obtain ⟨b, hb, hbk⟩ := hkeys earlier (.inl he)
          exact ⟨b, hb, hbk.trans hkey⟩
        · exact hkeys a (.inr ha)
    case isFalse =>
      obtain ⟨hsub, hkeys⟩ := ih (seen ++ [first])
      have hmem (a : Atom) : (a ∈ seen ++ [first] ∨ a ∈ rest) ↔ (a ∈ seen ∨ a ∈ first :: rest) := by
        simp only [List.mem_append, List.mem_cons, List.not_mem_nil, or_false, or_assoc]
      exact ⟨fun a ha => (hmem a).mp (hsub a ha), fun a ha => hkeys a ((hmem a).mpr ha)⟩

/-- The atoms that are left are atoms of the conjunction. -/
theorem dedupe_subset (atoms : Conjunction) : atoms.dedupe ⊆ atoms := fun a ha =>
  ((foldl_dedupe atoms []).1 a ha).resolve_left List.not_mem_nil

/-- Every atom of the conjunction has its key among those that are left. -/
theorem exists_mem_dedupe {atoms : Conjunction} {a : Atom} (ha : a ∈ atoms) :
    ∃ b ∈ atoms.dedupe, b.key = a.key :=
  (foldl_dedupe atoms []).2 a (.inr ha)

@[simp] theorem dedupe_eq_nil_iff {atoms : Conjunction} : atoms.dedupe = [] ↔ atoms = [] := by
  constructor
  · intro h
    refine List.eq_nil_iff_forall_not_mem.mpr fun a ha => ?_
    obtain ⟨b, hb, -⟩ := exists_mem_dedupe ha
    rw [h] at hb
    cases hb
  · rintro rfl
    rfl

/-- Conjunctions with the same keys hold together. -/
theorem holds_congr {v : Valuation} {left right : Conjunction}
    (h : ∀ a ∈ right, ∃ b ∈ left, b.key = a.key) (hl : left.Holds v) : right.Holds v := by
  intro a ha
  obtain ⟨b, hb, hk⟩ := h a ha
  exact hk ▸ hl b hb

@[simp] theorem holds_dedupe {v : Valuation} {atoms : Conjunction} :
    atoms.dedupe.Holds v ↔ atoms.Holds v :=
  ⟨holds_congr fun _ ha => exists_mem_dedupe ha, fun h a ha => h a (dedupe_subset atoms ha)⟩

/-- Conjunctions of one signature have the same keys. -/
theorem exists_key_of_signature_eq {left right : Conjunction} (h : left.signature = right.signature)
    {a : Atom} (ha : a ∈ right) : ∃ b ∈ left, b.key = a.key := by
  have hk : a.key ∈ right.signature := Sorting.mem_sort.mpr (List.mem_map_of_mem ha)
  rw [← h] at hk
  exact List.mem_map.mp (Sorting.mem_sort.mp hk)

end Conjunction

namespace Condition

variable {v : Valuation}

/-- An alternative is present after its insertion, in itself or in one of the same signature. -/
theorem exists_holds_insert {alternatives : List Conjunction} {atoms : Conjunction} :
    (∃ c ∈ insert alternatives atoms, c.Holds v) ↔
      (∃ c ∈ alternatives, c.Holds v) ∨ atoms.Holds v := by
  unfold insert
  split
  case isTrue h =>
    obtain ⟨earlier, hm, hs⟩ := List.any_eq_true.mp h
    have hsig : earlier.signature = atoms.signature := by simpa using hs
    refine ⟨.inl, fun h => h.elim id fun ha => ⟨earlier, hm, ?_⟩⟩
    exact Conjunction.holds_congr (fun _ => Conjunction.exists_key_of_signature_eq hsig.symm) ha
  case isFalse => simp [or_and_right, exists_or]

theorem exists_holds_foldl_insert {conjunctions alternatives : List Conjunction} :
    (∃ c ∈ conjunctions.foldl insert alternatives, c.Holds v) ↔
      (∃ c ∈ alternatives, c.Holds v) ∨ ∃ c ∈ conjunctions, c.Holds v := by
  induction conjunctions generalizing alternatives with
  | nil => simp
  | cons atoms rest ih =>
    rw [List.foldl_cons, ih, exists_holds_insert, or_assoc]
    simp only [List.mem_cons, or_and_right, exists_or, exists_eq_left]

/-- Only alternatives that were given are kept. -/
theorem foldl_insert_subset {conjunctions alternatives : List Conjunction} {atoms : Conjunction}
    (h : atoms ∈ conjunctions.foldl insert alternatives) :
    atoms ∈ alternatives ∨ atoms ∈ conjunctions := by
  induction conjunctions generalizing alternatives with
  | nil => exact .inl h
  | cons first rest ih =>
    rcases ih h with ha | ha
    · unfold insert at ha
      split at ha
      · exact .inl ha
      · rcases List.mem_append.mp ha with ha | ha
        · exact .inl ha
        · exact .inr (List.mem_singleton.mp ha ▸ List.mem_cons_self)
    · exact .inr (List.mem_cons_of_mem first ha)

/-- Alternatives are never dropped altogether. -/
theorem foldl_insert_eq_nil {conjunctions alternatives : List Conjunction}
    (h : conjunctions.foldl insert alternatives = []) : alternatives = [] ∧ conjunctions = [] := by
  induction conjunctions generalizing alternatives with
  | nil => exact ⟨h, rfl⟩
  | cons first rest ih =>
    have hi := (ih h).1
    unfold insert at hi
    split at hi
    case isTrue hany => simp [hi] at hany
    case isFalse => simp at hi

/-- A built condition holds exactly if nothing was given or one of the given alternatives holds. -/
theorem holds_build_iff {alternatives : List Conjunction} :
    (build alternatives).Holds v ↔ alternatives = [] ∨ ∃ atoms ∈ alternatives, atoms.Holds v := by
  unfold build
  dsimp only
  split
  case isTrue h =>
    obtain ⟨c, hc, he⟩ := List.any_eq_true.mp h
    obtain ⟨atoms, hm, rfl⟩ := List.mem_map.mp hc
    have hnil : atoms = [] := by simpa using he
    refine ⟨fun _ => .inr ⟨atoms, hm, ?_⟩, fun _ => .inl rfl⟩
    simp [hnil, Conjunction.Holds]
  case isFalse =>
    have hholds : (∃ c ∈ (alternatives.map Conjunction.dedupe).foldl insert [], c.Holds v) ↔
        ∃ atoms ∈ alternatives, atoms.Holds v := by
      simp [exists_holds_foldl_insert]
    unfold Holds
    rw [hholds]
    refine or_congr_left ⟨fun h => ?_, fun h => ?_⟩
    · simpa using (foldl_insert_eq_nil h).2
    · simp [h]

/-- The alternatives of a built condition are given ones without their repetitions. -/
theorem exists_of_mem_build {alternatives : List Conjunction} {atoms : Conjunction}
    (h : atoms ∈ (build alternatives).alternatives) :
    ∃ given ∈ alternatives, atoms = given.dedupe := by
  unfold build at h
  dsimp only at h
  split at h
  · cases h
  · rcases foldl_insert_subset h with h | h
    · cases h
    · obtain ⟨given, hg, he⟩ := List.mem_map.mp h
      exact ⟨given, hg, he.symm⟩

/-- Removing atoms that are true keeps the meaning of a condition. -/
theorem holds_without_iff {c : Condition} {keys : List String} (hk : ∀ k ∈ keys, v.truth k = true) :
    (c.without keys).Holds v ↔ c.Holds v := by
  have hfilter (atoms : Conjunction) :
      Conjunction.Holds v (atoms.filter fun a => !keys.contains a.key) ↔ atoms.Holds v := by
    refine ⟨fun h a ha => ?_, fun h a ha => h a (List.mem_filter.mp ha).1⟩
    by_cases hm : a.key ∈ keys
    · exact hk a.key hm
    · exact h a (List.mem_filter.mpr ⟨ha, by simpa using hm⟩)
  rw [without, holds_build_iff, Holds, List.map_eq_nil_iff]
  refine or_congr_right ⟨?_, ?_⟩
  · rintro ⟨kept, hm, hh⟩
    obtain ⟨atoms, ha, rfl⟩ := List.mem_map.mp hm
    exact ⟨atoms, ha, (hfilter atoms).mp hh⟩
  · rintro ⟨atoms, ha, hh⟩
    exact ⟨_, List.mem_map_of_mem ha, (hfilter atoms).mpr hh⟩

/-- The atoms that are left after a removal are atoms of the condition. -/
theorem flatten_without_subset (c : Condition) (keys : List String) :
    (c.without keys).alternatives.flatten ⊆ c.alternatives.flatten := by
  intro a ha
  obtain ⟨atoms, hm, ha⟩ := List.mem_flatten.mp ha
  obtain ⟨given, hg, rfl⟩ := exists_of_mem_build hm
  obtain ⟨original, ho, rfl⟩ := List.mem_map.mp hg
  have hf := Conjunction.dedupe_subset _ ha
  exact List.mem_flatten_of_mem ho (List.mem_filter.mp hf).1

end Condition

end CrateSafety
