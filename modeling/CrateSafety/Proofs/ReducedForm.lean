import CrateSafety.Proofs.CallContracts

/-!
# Conditions stay in reduced form

A condition is reduced if it is in normal form and no two of its alternatives have the same keys. Building a
condition from a reduced one changes nothing. Documented lines make a reduced condition, and it stays reduced
however it is changed: renaming may make atoms or whole alternatives alike, a removal may use them up, and the
restriction to members leaves several alternatives as they are.
-/

namespace CrateSafety

namespace Conjunction

/-- Where no key occurs twice, two conjunctions have one signature exactly if they have the same keys. -/
theorem signature_eq_iff {a b : Conjunction} (ha : a.KeysDistinct) (hb : b.KeysDistinct) :
    a.signature = b.signature ↔ ∀ key, key ∈ a.map (·.key) ↔ key ∈ b.map (·.key) := by
  constructor
  · intro h key
    have hmem : key ∈ a.signature ↔ key ∈ b.signature := by rw [h]
    rwa [signature, signature, Sorting.mem_sort, Sorting.mem_sort] at hmem
  · intro h
    have hperm : a.signature.Perm b.signature :=
      (Sorting.sort_perm _ _).trans (((List.perm_ext_iff_of_nodup ha hb).mpr h).trans (Sorting.sort_perm _ _).symm)
    have hsorted (c : Conjunction) : c.signature.Pairwise (· ≤ ·) :=
      Sorting.pairwise_sort_key (fun key : String => key) _
    exact hperm.eq_of_pairwise (fun _ _ _ _ hab hba => le_antisymm hab hba) (hsorted a) (hsorted b)

end Conjunction

namespace Condition

variable {c changed : Condition}

/-- A condition in reduced form: in normal form, and no two alternatives have one signature. -/
structure Reduced (c : Condition) : Prop extends c.Normal where
  /-- Alternatives have different signatures. -/
  apart : c.alternatives.Pairwise fun a b => a.signature ≠ b.signature

theorem reduced_of_alternatives_eq_nil (h : c.alternatives = []) : c.Reduced := by
  refine ⟨⟨?_, ?_⟩, ?_⟩ <;> simp [h]

section Insertion

variable {given kept : List Conjunction}

/-- Inserting keeps signatures apart. -/
theorem pairwise_foldl_insert (h : kept.Pairwise fun a b => a.signature ≠ b.signature) :
    (given.foldl insert kept).Pairwise fun a b => a.signature ≠ b.signature := by
  induction given generalizing kept with
  | nil => exact h
  | cons first rest ih =>
    refine ih ?_
    unfold insert
    split
    case isTrue => exact h
    case isFalse hnew =>
      refine List.pairwise_append.mpr ⟨h, List.pairwise_singleton _ _, fun a ha b hb hsame => hnew ?_⟩
      rw [List.mem_singleton.mp hb] at hsame
      exact List.any_eq_true.mpr ⟨a, ha, beq_iff_eq.mpr hsame⟩

/-- Alternatives with different signatures are all inserted. -/
theorem foldl_insert_of_pairwise (h : (kept ++ given).Pairwise fun a b => a.signature ≠ b.signature) :
    given.foldl insert kept = kept ++ given := by
  induction given generalizing kept with
  | nil => rw [List.foldl_nil, List.append_nil]
  | cons first rest ih =>
    have hnew : ¬ (kept.any (·.signature == first.signature)) = true := by
      intro hany
      obtain ⟨a, ha, hsame⟩ := List.any_eq_true.mp hany
      exact (List.pairwise_append.mp h).2.2 a ha first List.mem_cons_self (beq_iff_eq.mp hsame)
    have hadded : insert kept first = kept ++ [first] := if_neg hnew
    have hshift : kept ++ first :: rest = kept ++ [first] ++ rest := by simp
    rw [List.foldl_cons, hadded, hshift]
    exact ih (hshift ▸ h)

end Insertion

theorem reduced_build (given : List Conjunction) : (build given).Reduced := by
  refine ⟨normal_build given, ?_⟩
  unfold build
  dsimp only
  split
  case isTrue => exact .nil
  case isFalse => exact pairwise_foldl_insert .nil

/-- A reduced condition is built from its own alternatives. -/
theorem build_of_reduced (h : c.Reduced) : build c.alternatives = c := by
  have hfull : ¬ (c.alternatives.any List.isEmpty) = true := by
    intro hany
    obtain ⟨atoms, hatoms, hempty⟩ := List.any_eq_true.mp hany
    exact h.nonempty atoms hatoms (List.isEmpty_iff.mp hempty)
  have hsame : c.alternatives.foldl insert [] = c.alternatives :=
    foldl_insert_of_pairwise h.apart
  rw [build_of_keysDistinct h.distinct, if_neg hfull, hsame]

/-- No two alternatives of a reduced condition have the same keys. -/
theorem Reduced.keys_differ (h : c.Reduced) :
    c.alternatives.Pairwise fun a b => ¬ ∀ key, key ∈ a.map (·.key) ↔ key ∈ b.map (·.key) := by
  refine h.apart.imp_of_mem fun {a b} ha hb hne hsame => hne ?_
  exact (Conjunction.signature_eq_iff (h.distinct a ha) (h.distinct b hb)).mpr hsame

/-- A change of a condition. -/
inductive Change where
  /-- Names are replaced. -/
  | rename (r : Renaming)
  /-- The atoms of some keys are removed. -/
  | without (keys : List String)
  /-- The markers are removed. -/
  | documented
  /-- The part that concerns some members of `self` is kept. -/
  | restrictedTo (members : List String)

/-- The condition after a change. -/
def change (c : Condition) : Change → Except PredicateError Condition
  | .rename r => c.rename r
  | .without keys => .ok (c.without keys)
  | .documented => .ok c.documented
  | .restrictedTo members => .ok (c.restrictedTo members)

/-- The condition after changes made one after the other. -/
def changes (c : Condition) (steps : List Change) : Except PredicateError Condition :=
  steps.foldlM change c

theorem reduced_ofLines {lines : List String} (h : ofLines lines = .ok c) : c.Reduced := by
  obtain ⟨forms, -, h⟩ := Outcome.bind_eq_ok_iff.mp h
  cases h
  unfold ofForms
  split
  case isTrue => exact reduced_of_alternatives_eq_nil rfl
  case isFalse => exact reduced_build _

/-- Each change keeps a condition reduced. -/
theorem Reduced.change (hc : c.Reduced) {step : Change} (h : c.change step = .ok changed) :
    changed.Reduced := by
  cases step with
  | rename r =>
    have h : c.rename r = .ok changed := h
    unfold rename at h
    split at h
    case isTrue =>
      cases h
      exact hc
    case isFalse =>
      obtain ⟨renamed, -, h⟩ := Outcome.bind_eq_ok_iff.mp h
      cases h
      exact reduced_build renamed
  | without keys =>
    cases h
    exact reduced_build _
  | documented =>
    cases h
    exact reduced_build _
  | restrictedTo members =>
    cases h
    unfold restrictedTo
    dsimp only
    split
    case isTrue => exact reduced_of_alternatives_eq_nil rfl
    case isFalse =>
      split
      case isTrue => exact reduced_build _
      case isFalse => exact hc

theorem Reduced.changes {steps : List Change} (hc : c.Reduced) (h : c.changes steps = .ok changed) :
    changed.Reduced := by
  induction steps generalizing c with
  | nil =>
    cases h
    exact hc
  | cons step rest ih =>
    obtain ⟨next, hnext, h⟩ := Outcome.bind_eq_ok_iff.mp h
    exact ih (hc.change hnext) h

end Condition

/-- Whatever changes are made to the condition of documented lines, no alternative is empty, none has two atoms
of one key, no two have the same keys, and building the condition anew from its alternatives gives it back. -/
theorem condition_stays_reduced {lines : List String} {start c : Condition} {steps : List Condition.Change}
    (hstart : Condition.ofLines lines = .ok start) (hc : start.changes steps = .ok c) :
    (∀ atoms ∈ c.alternatives, atoms ≠ []) ∧
      (∀ atoms ∈ c.alternatives, (atoms.map (·.key)).Nodup) ∧
      (c.alternatives.Pairwise fun a b => ¬ ∀ key, key ∈ a.map (·.key) ↔ key ∈ b.map (·.key)) ∧
      Condition.build c.alternatives = c := by
  have hreduced := (Condition.reduced_ofLines hstart).changes hc
  exact ⟨hreduced.nonempty, hreduced.distinct, hreduced.keys_differ, Condition.build_of_reduced hreduced⟩

/-- Two ways to be ready, one of them with an atom of its own, and a chain beside the marker. -/
def twoSlots : List String :=
  ["ready(p) or ready(q) and live(q)", "0 < n < 9 and invariant(self)"]

/-- The slots become one, its own atom is discharged, and the marker is dropped. -/
def slotSteps : List Condition.Change :=
  [.rename { names := [("p", "q")] }, .without ["live ( q )"], .documented]

/-- The two alternatives have become one, without the discharged atom and the marker. -/
theorem twoSlots_stay_reduced :
    ∃ start c, Condition.ofLines twoSlots = .ok start ∧ start.alternatives.length = 2 ∧
      start.changes slotSteps = .ok c ∧ c.text = "ready(q) and 0 < n and n < 9" ∧
      Condition.build c.alternatives = c := by
  have hcheck : ((Condition.ofLines twoSlots).toOption.any fun start =>
      decide (start.alternatives.length = 2) && (start.changes slotSteps).toOption.any fun c =>
        decide (c.text = "ready(q) and 0 < n and n < 9")) = true := by decide +kernel
  obtain ⟨start, hstart, hcheck⟩ := Outcome.any_toOption_eq_true_iff.mp hcheck
  obtain ⟨hlength, hcheck⟩ := Bool.and_eq_true_iff.mp hcheck
  obtain ⟨c, hc, htext⟩ := Outcome.any_toOption_eq_true_iff.mp hcheck
  obtain ⟨-, -, -, hbuild⟩ := condition_stays_reduced hstart hc
  exact ⟨start, c, hstart, of_decide_eq_true hlength, hc, of_decide_eq_true htext, hbuild⟩

end CrateSafety
