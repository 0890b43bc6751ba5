import CrateSafety.Proofs.CompletedRun
import CrateSafety.Proofs.CoverageRefinement
import CrateSafety.Proofs.ObligationEdges
import CrateSafety.Proofs.SortedLists
import Mathlib.Data.String.Basic

/-!
# Discharging in portions

Keys can be removed from a condition all at once or in portions, with one result: an alternative that is used
up makes the condition ask for nothing either way, and of alternatives that become alike the earliest is kept
either way. Where the removed keys are true, what is left says what the condition said. So the outstanding
part of an obligation and its discharged atoms together make up what it requires.
-/

namespace CrateSafety

namespace Conjunction

/-- What is left of a conjunction after some keys are removed. -/
def keep (keys : List String) (atoms : Conjunction) : Conjunction :=
  atoms.filter fun a => !keys.contains a.key

/-- No key occurs twice. -/
def KeysDistinct (atoms : Conjunction) : Prop := (atoms.map (·.key)).Nodup

theorem KeysDistinct.keep {atoms : Conjunction} (h : atoms.KeysDistinct) (keys : List String) :
    (atoms.keep keys).KeysDistinct :=
  h.sublist (List.filter_sublist.map _)

/-- One more atom, unless its key has come before, leaves keys distinct. -/
theorem keysDistinct_foldl_dedupe (atoms : Conjunction) {seen : Conjunction} (h : seen.KeysDistinct) :
    Conjunction.KeysDistinct
      (atoms.foldl (fun seen a => if seen.any (·.key == a.key) then seen else seen ++ [a]) seen) := by
  induction atoms generalizing seen with
  | nil => exact h
  | cons first rest ih =>
    rw [List.foldl_cons]
    split
    case isTrue => exact ih h
    case isFalse hnew =>
      refine ih ?_
      have hfirst : first.key ∉ seen.map (·.key) := by simpa using hnew
      have happend : ((seen ++ [first]).map (·.key)).Nodup := by
        rw [List.map_append, List.map_singleton]
        exact List.nodup_append_comm.mp (List.nodup_cons.mpr ⟨hfirst, h⟩)
      exact happend

theorem keysDistinct_dedupe (atoms : Conjunction) : atoms.dedupe.KeysDistinct :=
  keysDistinct_foldl_dedupe atoms List.nodup_nil

/-- Where no key occurs twice, there is nothing to drop. -/
theorem foldl_dedupe_of_keysDistinct (atoms : Conjunction) {seen : Conjunction}
    (h : Conjunction.KeysDistinct (seen ++ atoms)) :
    atoms.foldl (fun seen a => if seen.any (·.key == a.key) then seen else seen ++ [a]) seen =
      seen ++ atoms := by
  induction atoms generalizing seen with
  | nil => rw [List.foldl_nil, List.append_nil]
  | cons first rest ih =>
    have hshift : seen ++ first :: rest = seen ++ [first] ++ rest := by simp
    have hnew : ¬ (seen.any (·.key == first.key)) = true := by
      intro hany
      obtain ⟨a, ha, hkey⟩ := List.any_eq_true.mp hany
      unfold KeysDistinct at h
      rw [List.map_append, List.nodup_append] at h
      have hne := h.2.2 a.key (List.mem_map_of_mem ha) first.key (by simp)
      exact hne (beq_iff_eq.mp hkey)
    rw [List.foldl_cons, if_neg hnew, hshift]
    exact ih (hshift ▸ h)

theorem dedupe_of_keysDistinct {atoms : Conjunction} (h : atoms.KeysDistinct) : atoms.dedupe = atoms :=
  foldl_dedupe_of_keysDistinct atoms h

/-- The keys that are left, in order, are the keys in order without the removed ones. -/
theorem signature_keep (keys : List String) (atoms : Conjunction) :
    (atoms.keep keys).signature = atoms.signature.filter fun key => !keys.contains key := by
  have hkeys : (atoms.keep keys).map (·.key) =
      (atoms.map (·.key)).filter fun key => !keys.contains key := by
    rw [keep, List.filter_map]
    rfl
  rw [signature, hkeys]
  exact (Sorting.filter_sort_key (fun key : String => key) _ _).symm

theorem signature_eq_nil_iff {atoms : Conjunction} : atoms.signature = [] ↔ atoms = [] := by
  rw [signature, ← List.length_eq_zero_iff, (Sorting.sort_perm _ _).length_eq, List.length_map,
    List.length_eq_zero_iff]

/-- Keys are removed in two portions as they are all at once. -/
theorem keep_keep (keys keys' : List String) (atoms : Conjunction) :
    (atoms.keep keys).keep keys' = atoms.keep (keys ++ keys') := by
  simp only [keep, List.filter_filter]
  refine List.filter_congr fun a _ => ?_
  rw [List.contains_append, Bool.not_or, Bool.and_comm]

end Conjunction

namespace Condition

/-- An alternative of which one with the same signature is present is not added. -/
theorem insert_of_signature {alternatives : List Conjunction} {earlier atoms : Conjunction}
    (hm : earlier ∈ alternatives) (hs : earlier.signature = atoms.signature) :
    insert alternatives atoms = alternatives := by
  have hany : alternatives.any (·.signature == atoms.signature) = true :=
    List.any_eq_true.mpr ⟨earlier, hm, beq_iff_eq.mpr hs⟩
  exact if_pos hany

section Portions

variable {shorten : Conjunction → Conjunction}

/-- Alternatives of one signature may be dropped before a change that keeps signatures alike: of those that
become alike the earliest is kept in any case. -/
theorem foldl_insert_map_foldl_insert
    (hs : ∀ a b : Conjunction, a.signature = b.signature → (shorten a).signature = (shorten b).signature)
    (given kept : List Conjunction) :
    ((given.foldl insert kept).map shorten).foldl insert [] =
      ((kept ++ given).map shorten).foldl insert [] := by
  induction given generalizing kept with
  | nil => rw [List.foldl_nil, List.append_nil]
  | cons first rest ih =>
    rw [List.foldl_cons, ih]
    cases hany : kept.any (·.signature == first.signature) with
    | false =>
      have hadded : insert kept first = kept ++ [first] := if_neg (by simp [hany])
      rw [hadded, List.append_assoc, List.singleton_append]
    | true =>
      obtain ⟨earlier, hearlier, hsignature⟩ := List.any_eq_true.mp hany
      have hkept : insert kept first = kept := insert_of_signature hearlier (beq_iff_eq.mp hsignature)
      obtain ⟨there, hthere, halike⟩ := @exists_signature_foldl_insert _ [] _
        (.inr (List.mem_map_of_mem (f := shorten) hearlier))
      have hseen : there.signature = (shorten first).signature :=
        halike.trans (hs earlier first (beq_iff_eq.mp hsignature))
      simp only [hkept, List.map_append, List.map_cons, List.foldl_append, List.foldl_cons,
        insert_of_signature hthere hseen]

/-- A change that keeps signatures alike sees the same empty alternatives after repetitions are dropped. -/
theorem any_isEmpty_map_foldl_insert
    (hs : ∀ a b : Conjunction, a.signature = b.signature → (shorten a).signature = (shorten b).signature)
    (given : List Conjunction) :
    ((given.foldl insert []).map shorten).any List.isEmpty = (given.map shorten).any List.isEmpty := by
  rw [Bool.eq_iff_iff]
  simp only [List.any_map, List.any_eq_true, Function.comp_apply, List.isEmpty_iff]
  constructor
  · rintro ⟨atoms, hatoms, hnil⟩
    exact ⟨atoms, (foldl_insert_subset hatoms).resolve_left List.not_mem_nil, hnil⟩
  · rintro ⟨atoms, hatoms, hnil⟩
    obtain ⟨kept, hkept, halike⟩ := @exists_signature_foldl_insert _ [] _ (.inr hatoms)
    refine ⟨kept, hkept, Conjunction.signature_eq_nil_iff.mp ?_⟩
    rw [hs kept atoms halike, hnil]
    rfl

/-- What alternatives without repeated keys are built into. -/
theorem build_of_keysDistinct {given : List Conjunction} (h : ∀ atoms ∈ given, atoms.KeysDistinct) :
    build given = if given.any List.isEmpty then {} else ⟨given.foldl insert []⟩ := by
  have hdedupe : given.map Conjunction.dedupe = given := by
    refine (List.map_congr_left fun atoms hatoms => ?_).trans given.map_id
    exact Conjunction.dedupe_of_keysDistinct (h atoms hatoms)
  rw [build, hdedupe]

/-- Repeated alternatives may be dropped before a change that keeps signatures alike. -/
theorem build_map_foldl_insert
    (hs : ∀ a b : Conjunction, a.signature = b.signature → (shorten a).signature = (shorten b).signature)
    {given : List Conjunction} (hd : ∀ atoms ∈ given, (shorten atoms).KeysDistinct) :
    build ((given.foldl insert []).map shorten) = build (given.map shorten) := by
  have hgiven : ∀ atoms ∈ given.map shorten, atoms.KeysDistinct := List.forall_mem_map.mpr hd
  have hkept : ∀ atoms ∈ (given.foldl insert []).map shorten, atoms.KeysDistinct := by
    refine List.forall_mem_map.mpr fun atoms hatoms => hd atoms ?_
    exact (foldl_insert_subset hatoms).resolve_left List.not_mem_nil
  rw [build_of_keysDistinct hkept, build_of_keysDistinct hgiven, any_isEmpty_map_foldl_insert hs,
    foldl_insert_map_foldl_insert hs, List.nil_append]

end Portions

/-- No key occurs twice in an alternative of a built condition. -/
theorem keysDistinct_of_mem_build {given : List Conjunction} {atoms : Conjunction}
    (h : atoms ∈ (build given).alternatives) : atoms.KeysDistinct := by
  obtain ⟨original, -, rfl⟩ := exists_of_mem_build h
  exact Conjunction.keysDistinct_dedupe original

/-- Keys are removed from alternatives without repeated keys in two portions as they are all at once. -/
theorem without_without {c : Condition} (hc : ∀ atoms ∈ c.alternatives, atoms.KeysDistinct)
    (keys keys' : List String) : (c.without keys).without keys' = c.without (keys ++ keys') := by
  have hall (keys : List String) : ∀ atoms ∈ c.alternatives.map (Conjunction.keep keys),
      atoms.KeysDistinct :=
    List.forall_mem_map.mpr fun atoms hatoms => (hc atoms hatoms).keep keys
  have hboth : (c.alternatives.map (Conjunction.keep keys)).map (Conjunction.keep keys') =
      c.alternatives.map (Conjunction.keep (keys ++ keys')) := by
    rw [List.map_map]
    exact List.map_congr_left fun atoms _ => Conjunction.keep_keep keys keys' atoms
  have hsignature (a b : Conjunction) (h : a.signature = b.signature) :
      (a.keep keys').signature = (b.keep keys').signature := by
    rw [Conjunction.signature_keep, Conjunction.signature_keep, h]
  change build ((build (c.alternatives.map (Conjunction.keep keys))).alternatives.map
    (Conjunction.keep keys')) = build (c.alternatives.map (Conjunction.keep (keys ++ keys')))
  rw [build_of_keysDistinct (hall keys)]
  split
  case isTrue hnil =>
    -- an alternative that the first portion uses up stays used up
    obtain ⟨atoms, hatoms, hempty⟩ := List.any_eq_true.mp hnil
    have hnil' : (c.alternatives.map (Conjunction.keep (keys ++ keys'))).any List.isEmpty = true := by
      rw [← hboth]
      refine List.any_eq_true.mpr ⟨_, List.mem_map_of_mem hatoms, ?_⟩
      rw [List.isEmpty_iff.mp hempty]
      rfl
    rw [build_of_keysDistinct (hall _), if_pos hnil']
    rfl
  case isFalse =>
    have hdistinct : ∀ atoms ∈ c.alternatives.map (Conjunction.keep keys),
        (atoms.keep keys').KeysDistinct := fun atoms hatoms => (hall keys atoms hatoms).keep keys'
    rw [← hboth]
    exact build_map_foldl_insert hsignature hdistinct

/-- A condition of at most one alternative is its discharged atoms and the rest. -/
theorem holds_iff_without_of_single {v : Valuation} {c : Condition} (hc : c.alternatives.length ≤ 1)
    {keys : List String} (hkeys : ∀ key ∈ keys, ∃ a ∈ c.alternatives.flatten, a.key = key) :
    c.Holds v ↔ (c.without keys).Holds v ∧ ∀ key ∈ keys, v.truth key = true := by
  constructor
  · intro hholds
    have htrue : ∀ key ∈ keys, v.truth key = true := by
      intro key hkey
      obtain ⟨a, ha, rfl⟩ := hkeys key hkey
      obtain ⟨atoms, hatoms, ha⟩ := List.mem_flatten.mp ha
      obtain ⟨only, honly⟩ : ∃ only, c.alternatives = [only] :=
        List.length_eq_one_iff.mp (le_antisymm hc (List.length_pos_of_mem hatoms))
      simp only [Holds, honly, List.cons_ne_nil, List.mem_singleton, exists_eq_left, false_or] at hholds
      rw [honly, List.mem_singleton] at hatoms
      exact hholds a (hatoms ▸ ha)
    exact ⟨(holds_without_iff htrue).mpr hholds, htrue⟩
  · rintro ⟨hholds, htrue⟩
    exact (holds_without_iff htrue).mp hholds

end Condition

/-- What an obligation discharges are keys of its requirements. -/
theorem Edge.StatedAt.exists_discharged {e : Edge} {caller : Item} {site : Site}
    (h : e.StatedAt caller site) {key : String} (hkey : key ∈ e.discharged) :
    ∃ a ∈ e.required.alternatives.flatten, a.key = key := by
  obtain ⟨t, target, calleeTerms, requiresUnsafe, rfl⟩ := h
  obtain ⟨a, ha, rfl⟩ := List.mem_map.mp hkey
  exact ⟨a, Conjunction.dedupe_subset _ (List.mem_filter.mp ha).1, rfl⟩

/-- Removing keys from a built condition in two portions gives the alternatives, atoms and order that removing
them all at once does. Under every truth assignment that makes the removed keys true, what is left of a
condition holds exactly if the condition does. So at each obligation of a graph the outstanding part is
equivalent to the required one wherever the discharged atoms are true, and a single required conjunction is
equivalent to the outstanding part and the discharged atoms together. -/
theorem discharge_exact_in_portions :
    (∀ (given : List Conjunction) (keys keys' : List String),
      ((Condition.build given).without keys).without keys' =
        (Condition.build given).without (keys ++ keys')) ∧
    (∀ (c : Condition) (keys : List String) (v : Valuation), (∀ key ∈ keys, v.truth key = true) →
      ((c.without keys).Holds v ↔ c.Holds v)) ∧
    ∀ (m : Model) (config : Config) (g : Graph), (m.graph config).outcome = .ok g →
      ∀ entry ∈ g.edges, ∀ e ∈ entry.2, ∀ v : Valuation,
        ((∀ key ∈ e.discharged, v.truth key = true) → (e.outstanding.Holds v ↔ e.required.Holds v)) ∧
        (e.required.alternatives.length ≤ 1 →
          (e.required.Holds v ↔ e.outstanding.Holds v ∧ ∀ key ∈ e.discharged, v.truth key = true)) := by
  refine ⟨fun given keys keys' => ?_, fun c keys v => Condition.holds_without_iff, ?_⟩
  · exact Condition.without_without (fun atoms => Condition.keysDistinct_of_mem_build) keys keys'
  · intro m config g hgraph entry hentry e he v
    obtain ⟨i, -, hentryOf⟩ := exists_left_of_forall₂ (Model.graph_spec hgraph).1 hentry
    obtain ⟨site, -, harises⟩ := ((Model.edgesOf_spec hentryOf).2 e).mp he
    have hstated := harises.statedAt
    rw [hstated.outstanding_eq]
    refine ⟨Condition.holds_without_iff, fun hsingle => ?_⟩
    exact Condition.holds_iff_without_of_single hsingle fun key => hstated.exists_discharged

/-- A call that claims one of the two requirements of its callee. -/
def claimedSlot : Snapshot :=
  { items :=
      [.function
        { path := "crate::slot", declaredUnsafe := true, params := ["n"],
          requirements := ["ready(n)", "n < 16"] },
      .function
        { path := "crate::access", params := ["k"],
          body :=
            [{ kind := .call, target := "crate::slot", args := ["k"],
                justification := some "SAFETY: ready(k): it was started" }] }] }

/-- What the call requires is what it leaves outstanding and what it claims, and where the claim is true, the
outstanding part alone. -/
theorem claimedSlot_discharged :
    ∃ m g, (Model.build {} claimedSlot).outcome = .ok m ∧ (m.graph {}).outcome = .ok g ∧
      ∃ entry ∈ g.edges, ∃ e ∈ entry.2, e.discharged = ["ready ( k )"] ∧ e.outstanding.text = "k < 16" ∧
        e.required.alternatives.length ≤ 1 ∧
        (∀ v : Valuation, v.truth "ready ( k )" = true → (e.outstanding.Holds v ↔ e.required.Holds v)) ∧
        (∀ v : Valuation, v.truth "ready ( k )" = true →
          ((e.outstanding.without ["ready ( k )"]).Holds v ↔ e.outstanding.Holds v)) ∧
        ∀ v : Valuation, e.required.Holds v ↔ e.outstanding.Holds v ∧ v.truth "ready ( k )" = true := by
  have hcheck : Run.examine {} claimedSlot (fun _ g => g.edges.any fun entry => entry.2.any fun e =>
      decide (e.discharged = ["ready ( k )"]) && decide (e.outstanding.text = "k < 16") &&
        decide (e.required.alternatives.length ≤ 1)) = true := by
    decide +kernel
  obtain ⟨m, g, hm, hg, hcheck⟩ := Run.examine_eq_true_iff.mp hcheck
  simp only [List.any_eq_true, Bool.and_eq_true, decide_eq_true_eq] at hcheck
  obtain ⟨entry, hentry, e, he, ⟨hdischarged, htext⟩, hsingle⟩ := hcheck
  obtain ⟨-, hmeaning, hedges⟩ := discharge_exact_in_portions
  have hedge := hedges m {} g hg entry hentry e he
  simp only [hdischarged, List.forall_mem_singleton] at hedge
  refine ⟨m, g, hm, hg, entry, hentry, e, he, hdischarged, htext, hsingle, fun v => (hedge v).1,
    fun v htrue => ?_, fun v => (hedge v).2 hsingle⟩
  exact hmeaning e.outstanding _ v (List.forall_mem_singleton.mpr htrue)

end CrateSafety
