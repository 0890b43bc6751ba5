import CrateSafety.Proofs.EntailmentOrder

/-!
# Atoms and their negations

The negation of a condition with one atom has one atom as well: the comparison with its operator flipped, the
other constant, or a negation that names the key of the first atom. The two contradict each other wherever the
logic sees the comparison: flipped bounds leave an empty interval, a constant for falsehood and a negated key are
looked for. A comparison without a number states no bound, and then nothing tells it from the flipped one.
-/

namespace CrateSafety

namespace Comparison

/-- The flipped comparison relates exactly what the comparison does not. -/
theorem relates_negated (op : Comparison) (a b : Line) : op.negated.Relates a b ↔ ¬ op.Relates a b := by
  cases op with
  | lt => exact not_lt.symm
  | le => exact not_le.symm
  | gt => exact not_lt.symm
  | ge => exact not_le.symm
  | eq => exact Iff.rfl
  | ne => exact not_not.symm

theorem swapped_negated (op : Comparison) : op.negated.swapped = op.swapped.negated := by
  cases op <;> rfl

end Comparison

/-- The bound with its comparison flipped. -/
def Bound.flipped (b : Bound) : Bound := { b with op := b.op.negated }

namespace Atom

/-- Whether an atom is a comparison of which the logic sees nothing but the key. -/
def isUnseen (a : Atom) : Bool :=
  match a.source with
  | .expression (.compare _ _ _ _) _ => a.bound.isNone
  | _ => false

/-- A flipped comparison states the flipped bound, or none if the comparison states none. -/
theorem boundOf_negated {left right : Expr} {op : Relation} {spelling spelling' : String} {bound : Option Bound}
    (h : boundOf (.compare left op spelling right) = .ok bound) :
    boundOf (.compare left op.negated spelling' right) = .ok (bound.map Bound.flipped) := by
  cases op with
  | membership negated =>
    cases h
    rfl
  | identity negated =>
    cases h
    rfl
  | order op =>
    obtain ⟨onRight, hright, h⟩ := Outcome.bind_eq_ok_iff.mp h
    obtain ⟨onLeft, hleft, h⟩ := Outcome.bind_eq_ok_iff.mp h
    refine Outcome.bind_eq_ok_iff.mpr ⟨onRight, hright, Outcome.bind_eq_ok_iff.mpr ⟨onLeft, hleft, ?_⟩⟩
    cases onRight with
    | some value =>
      obtain ⟨key, hkey, h⟩ := Outcome.bind_eq_ok_iff.mp h
      cases h
      exact Outcome.bind_eq_ok_iff.mpr ⟨key, hkey, rfl⟩
    | none =>
      cases onLeft with
      | some value =>
        obtain ⟨key, hkey, h⟩ := Outcome.bind_eq_ok_iff.mp h
        cases h
        refine Outcome.bind_eq_ok_iff.mpr ⟨key, hkey, ?_⟩
        rw [Option.map_some, Bound.flipped, ← Comparison.swapped_negated]
        rfl
      | none =>
        cases h
        rfl

end Atom

namespace Conjunction

variable {atoms : Conjunction} {a b : Atom}

/-- No number respects a bound and the flipped one. -/
theorem satisfiable_of_flipped {bound : Bound} (ha : a ∈ atoms) (hb : b ∈ atoms)
    (hbound : a.bound = some bound) (hflipped : b.bound = some bound.flipped) : atoms.satisfiable = false := by
  by_contra hs
  obtain ⟨-, -, hempty⟩ := satisfiable_eq_true_iff.mp (Bool.not_eq_false _ ▸ hs)
  obtain ⟨number, hnumber⟩ := (Ranges.wellFormed_ofAtoms atoms).exists_number hempty
  have hbounds := (Ranges.contains_ofAtoms atoms number).mp hnumber
  exact (bound.op.relates_negated _ _).mp (hbounds b hb _ hflipped) (hbounds a ha bound hbound)

theorem satisfiable_of_negates (ha : a ∈ atoms) (hb : b ∈ atoms) (h : b.negates = some a.key) :
    atoms.satisfiable = false := by
  by_contra hs
  obtain ⟨-, hnegates, -⟩ := satisfiable_eq_true_iff.mp (Bool.not_eq_false _ ▸ hs)
  have hkey : atoms.hasKey a.key = true := List.any_eq_true.mpr ⟨a, ha, beq_self_eq_true _⟩
  rw [hnegates b hb a.key h] at hkey
  cases hkey

theorem satisfiable_of_false (ha : a ∈ atoms) (h : a.key = "False") : atoms.satisfiable = false := by
  by_contra hs
  obtain ⟨hfalse, -, -⟩ := satisfiable_eq_true_iff.mp (Bool.not_eq_false _ ▸ hs)
  have hkey : atoms.hasKey "False" = true := List.any_eq_true.mpr ⟨a, ha, beq_iff_eq.mpr h⟩
  rw [hfalse] at hkey
  cases hkey

/-- Atoms that state no bounds and negate nothing are satisfiable unless one is the constant for falsehood. -/
theorem satisfiable_of_plain (h : ∀ a ∈ atoms, a.bound = none ∧ a.negates = none ∧ a.key ≠ "False") :
    atoms.satisfiable = true := by
  refine satisfiable_eq_true_iff.mpr ⟨?_, fun a ha key hkey => ?_, ?_⟩
  · rw [hasKey, List.any_eq_false]
    intro a ha
    simpa using (h a ha).2.2
  · rw [(h a ha).2.1] at hkey
    cases hkey
  · have hranges : atoms.filterMap (·.bound) = [] :=
      List.filterMap_eq_nil_iff.mpr fun a ha => (h a ha).1
    rw [Ranges.ofAtoms, hranges]
    exact fun entry hentry => absurd hentry List.not_mem_nil

end Conjunction

/-- How an atom and one of its negation stand to each other: both are comparisons that the logic does not see, and
satisfiable together, or they are never satisfiable together. -/
structure Opposed (a b : Atom) : Prop where
  /-- The logic sees both comparisons or neither. -/
  unseen : a.isUnseen = b.isUnseen
  /-- Without what the logic sees of them they go together. -/
  satisfiable : a.isUnseen = true → ∀ atoms : Conjunction, (∀ c ∈ atoms, c = a ∨ c = b) →
    atoms.satisfiable = true
  /-- With it they do not. -/
  contradictory : a.isUnseen = false → ∀ atoms : Conjunction, a ∈ atoms → b ∈ atoms → atoms.satisfiable = false

theorem Opposed.symm {a b : Atom} (h : Opposed a b) : Opposed b a where
  unseen := h.unseen.symm
  satisfiable hunseen atoms hatoms :=
    h.satisfiable (h.unseen ▸ hunseen) atoms fun c hc => (hatoms c hc).symm
  contradictory hseen atoms hb ha := h.contradictory (h.unseen ▸ hseen) atoms ha hb

namespace Atom

variable {paths paths' : List String} {a b : Atom}

/-- A comparison and the flipped one are opposed. -/
theorem opposed_of_compare {left right : Expr} {op : Relation} {spelling : String}
    (hspelled : Marked spelling) (ha : ofExpr (.compare left op spelling right) paths = .ok a)
    (hb : ofExpr (.compare left op.negated op.negated.spelling right) paths' = .ok b) : Opposed a b := by
  obtain ⟨hsourceA, hboundA, hnegatesA⟩ := stated_of_ofExpr ha
  obtain ⟨hsourceB, hboundB, hnegatesB⟩ := stated_of_ofExpr hb
  have hflipped : b.bound = a.bound.map Bound.flipped :=
    Except.ok.inj (hboundB.symm.trans (boundOf_negated hboundA))
  have hunseenA : a.isUnseen = a.bound.isNone := by
    rw [isUnseen, hsourceA]
    rfl
  have hunseenB : b.isUnseen = b.bound.isNone := by
    rw [isUnseen, hsourceB]
    rfl
  refine ⟨?_, fun hunseen atoms hatoms => ?_, fun hseen atoms hmemA hmemB => ?_⟩
  · rw [hunseenA, hunseenB, hflipped, Option.isNone_map]
  · have hnone : a.bound = none := by simpa [hunseenA] using hunseen
    have hkey : ∀ {op : Relation} {spelling : String} {paths : List String} {c : Atom}, Marked spelling →
        ofExpr (.compare left op spelling right) paths = .ok c → c.key ≠ "False" := by
      intro op spelling paths c hmarked hc
      rw [key_of_ofExpr hc]
      exact (Expr.key_ne_constant (Expr.marked_compare hmarked)).2
    refine Conjunction.satisfiable_of_plain fun c hc => ?_
    rcases hatoms c hc with rfl | rfl
    · exact ⟨hnone, (Except.ok.inj hnegatesA).symm, hkey hspelled ha⟩
    · rw [hnone, Option.map_none] at hflipped
      exact ⟨hflipped, (Except.ok.inj hnegatesB).symm, hkey op.negated.marked_spelling hb⟩
  · obtain ⟨bound, hbound⟩ : ∃ bound, a.bound = some bound := by
      rw [hunseenA, Option.isNone_eq_false_iff, Option.isSome_iff_exists] at hseen
      exact hseen
    rw [hbound, Option.map_some] at hflipped
    exact Conjunction.satisfiable_of_flipped hmemA hmemB hbound hflipped

/-- Atoms of expressions that are no comparisons are opposed if they contradict each other. -/
theorem opposed_of_not_compare {e e' : Expr} (ha : ofExpr e paths = .ok a) (hb : ofExpr e' paths' = .ok b)
    (he : ∀ left op spelling right, e.core ≠ .compare left op spelling right)
    (he' : ∀ left op spelling right, e'.core ≠ .compare left op spelling right)
    (h : ∀ atoms : Conjunction, a ∈ atoms → b ∈ atoms → atoms.satisfiable = false) : Opposed a b := by
  have hunseen : ∀ {e : Expr} {paths : List String} {c : Atom}, ofExpr e paths = .ok c →
      (∀ left op spelling right, e.core ≠ .compare left op spelling right) → c.isUnseen = false := by
    intro e paths c hc hcore
    unfold isUnseen
    rw [(stated_of_ofExpr hc).1]
    split
    case h_1 left op spelling right _ heq => exact absurd (AtomSource.expression.inj heq).1 (hcore _ _ _ _)
    case h_2 => rfl
  refine ⟨?_, fun htrue => ?_, fun _ => h⟩
  · rw [hunseen ha he, hunseen hb he']
  · rw [hunseen ha he] at htrue
    cases htrue

/-- Prose is not the constant for falsehood. -/
theorem key_ofProse_ne (line : List Char) : (ofProse line).key ≠ "False" := by
  intro hkey
  have hfirst := congrArg (fun key => key.toList.head?) hkey
  simp [ofProse, Prose.key, String.toList_append] at hfirst

end Atom

namespace Reading

variable {paths paths' : List String} {a b : Atom}

/-- The atoms of a leaf and of its negation are opposed. -/
theorem opposed_literals {leaf : Expr} (hleaf : leaf.isLeaf = true) (hspelled : leaf.Spelled)
    (ha : literal paths false leaf = .ok a) (hb : literal paths' true leaf = .ok b) : Opposed a b := by
  replace ha : Atom.ofExpr leaf paths = .ok a := ha
  replace hb : negatedAtom leaf paths' = .ok b := hb
  have hkeyA : a.key = leaf.key := by rw [Atom.key_of_ofExpr ha, Expr.core_of_isLeaf hleaf]
  have hunit : ∀ inner, leaf ≠ .unit inner := by
    rintro inner rfl
    exact (negatedAtom_isOk_iff hleaf).mp ⟨b, hb⟩
  rcases negatedAtom_cases paths' hleaf hunit with ⟨rfl, heq⟩ | ⟨rfl, heq⟩ | heq
  · -- the negation of truth is the constant for falsehood
    rw [heq] at hb
    refine Atom.opposed_of_not_compare ha hb (by simp [Expr.core]) (by simp [Expr.core]) ?_
    intro atoms _ hmem
    refine Conjunction.satisfiable_of_false hmem ?_
    rw [Atom.key_of_ofExpr hb]
    decide +kernel
  · rw [heq] at hb
    refine Atom.opposed_of_not_compare ha hb (by simp [Expr.core]) (by simp [Expr.core]) ?_
    intro atoms hmem _
    refine Conjunction.satisfiable_of_false hmem ?_
    rw [hkeyA]
    decide +kernel
  · rw [heq] at hb
    rcases leaf.compare_or_opposite with ⟨left, op, spelling, right, rfl⟩ | ⟨hcompare, hopposite⟩
    · exact Atom.opposed_of_compare hspelled ha hb
    · rw [hopposite] at hb
      refine Atom.opposed_of_not_compare ha hb ?_ (by simp [Expr.core]) ?_
      · rwa [Expr.core_of_isLeaf hleaf]
      · intro atoms hmemA hmemB
        refine Conjunction.satisfiable_of_negates hmemA hmemB ?_
        rw [(Atom.stated_of_negation hb).2, Expr.core_of_isLeaf hleaf, hkeyA]

/-- A form of one atom, the negation of which is of one atom too, is that of a single leaf. -/
theorem exists_leaf_of_single {negate : Bool} {e : Expr} (ha : dnf paths negate e = .ok [[a]])
    (hb : dnf paths' (!negate) e = .ok [[b]]) :
    ∃ leaf ∈ e.leaves, ∃ negate, literal paths negate leaf = .ok a ∧ literal paths' (!negate) leaf = .ok b := by
  induction negate, e using conditionInduction with
  | paren negate lead body trail ih => exact ih ha hb
  | negation negate gap operand ih => exact ih ha hb
  | junction negate left op spelling right ihLeft ihRight =>
    -- one of the two forms has the alternatives of both sides
    have hunion : ∀ {paths : List String} {negate : Bool} {form : List Conjunction},
        ((op == .and) != negate) = false →
        dnf paths negate (.junction left op spelling right) = .ok form → 2 ≤ form.length := by
      intro paths negate form hop h
      obtain ⟨leftForm, hleft, h⟩ := Outcome.bind_eq_ok_iff.mp h
      obtain ⟨rightForm, hright, h⟩ := Outcome.bind_eq_ok_iff.mp h
      rw [hop] at h
      cases h
      have hlengthLeft := List.length_pos_iff.mpr (dnf_ne_nil hleft)
      have hlengthRight := List.length_pos_iff.mpr (dnf_ne_nil hright)
      rw [List.length_append]
      omega
    cases hop : (op == .and) != negate with
    | false => exact absurd (hunion hop ha) (by simp)
    | true =>
      have hop' : ((op == .and) != !negate) = false := by
        rw [Bool.bne_not, hop]
        rfl
      exact absurd (hunion hop' hb) (by simp)
  | chain negate left op spelling rest =>
    -- a form of one atom leaves a single link
    have hsingle : ∀ {paths : List String} {negate : Bool} {c : Atom},
        dnf paths negate (.chain left op spelling rest) = .ok [[c]] → ∃ link,
          links (.chain left op spelling rest) = [link] ∧ literal paths negate link = .ok c := by
      intro paths negate c h
      rw [dnf_chain] at h
      split at h
      · obtain ⟨link, tail, hlink, hnil, hlinks⟩ := List.forall₂_cons_right_iff.mp (Outcome.mapM_eq_ok_iff.mp h)
        obtain ⟨c', hc', heq⟩ := Outcome.bind_eq_ok_iff.mp hlink
        cases heq
        cases hnil
        exact ⟨link, hlinks, hc'⟩
      · obtain ⟨atoms, hatoms, h⟩ := Outcome.bind_eq_ok_iff.mp h
        cases h
        obtain ⟨link, tail, hlink, hnil, hlinks⟩ :=
          List.forall₂_cons_right_iff.mp (Outcome.mapM_eq_ok_iff.mp hatoms)
        cases hnil
        exact ⟨link, hlinks, hlink⟩
    obtain ⟨link, hlinks, hreadA⟩ := hsingle ha
    obtain ⟨link', hlinks', hreadB⟩ := hsingle hb
    cases hlinks.symm.trans hlinks'
    exact ⟨link, by rw [Expr.leaves, hlinks]; exact List.mem_singleton_self link, negate, hreadA, hreadB⟩
  | leaf negate e hleaf =>
    rw [dnf_of_isLeaf hleaf] at ha hb
    obtain ⟨a', hreadA, ha⟩ := Outcome.bind_eq_ok_iff.mp ha
    obtain ⟨b', hreadB, hb⟩ := Outcome.bind_eq_ok_iff.mp hb
    cases ha
    cases hb
    exact ⟨e, by simp [Expr.leaves_of_isLeaf hleaf], negate, hreadA, hreadB⟩

/-- The atom of an expression that is read and the atom of its negation are opposed. -/
theorem opposed_of_single {negate : Bool} {e : Expr} (hspelled : e.Spelled) (ha : dnf paths negate e = .ok [[a]])
    (hb : dnf paths' (!negate) e = .ok [[b]]) : Opposed a b := by
  obtain ⟨leaf, hmem, sign, hreadA, hreadB⟩ := exists_leaf_of_single ha hb
  have hleaf := isLeaf_of_mem_leaves hmem
  have hspelledLeaf := hspelled.of_mem_leaves hmem
  cases sign with
  | false => exact opposed_literals hleaf hspelledLeaf hreadA hreadB
  | true => exact (opposed_literals hleaf hspelledLeaf hreadB hreadA).symm

/-- A line of one atom that is no expression has its prose for an atom. -/
theorem eq_ofProse_of_read {line : String} (h : parseDnf line = .ok [[a]]) (hread : read? line = none) :
    Atom.ofProse line.toList = a := by
  obtain ⟨read, hexpression, h⟩ := Outcome.bind_eq_ok_iff.mp h
  cases read with
  | some e => simp [read?, hexpression, Except.toOption] at hread
  | none =>
    cases h
    rfl

end Reading

/-- A line of one atom and its negation, where that is of one atom too, contradict each other in every company, so
that no path to a site takes both, unless the atom is a comparison that states no bound: then the two are
satisfiable together. So are a line of prose and its negation if that is read as prose. -/
theorem negation_refutes_unless_unseen {line : String} {a b : Atom} (ha : Reading.parseDnf line = .ok [[a]])
    (hb : Reading.parseDnf ("not (" ++ line ++ ")") = .ok [[b]]) :
    (∀ e gap lead trail, Reading.read? line = some e →
      Reading.read? ("not (" ++ line ++ ")") = some (.negation gap (.paren lead e trail)) →
      (a.isUnseen = false →
        (∀ atoms : Conjunction, a ∈ atoms → b ∈ atoms → atoms.satisfiable = false) ∧
        ∀ guards contract : Condition, ∀ path ∈ Coverage.paths guards contract, ¬ (a ∈ path ∧ b ∈ path)) ∧
      (a.isUnseen = true → Conjunction.satisfiable [a, b] = true)) ∧
    (Reading.read? line = none → Reading.read? ("not (" ++ line ++ ")") = none →
      Conjunction.satisfiable [a, b] = true) := by
  refine ⟨fun e gap lead trail hline hnegated => ?_, fun hline hnegated => ?_⟩
  · rw [Reading.parseDnf_of_expression (Reading.expression_of_read hline)] at ha
    rw [Reading.parseDnf_of_expression (Reading.expression_of_read hnegated)] at hb
    have hspelled := (Reading.spelled_of_expression (Reading.expression_of_read hline)).1
    have hopposed : Opposed a b := Reading.opposed_of_single hspelled ha hb
    refine ⟨fun hseen => ⟨hopposed.contradictory hseen, ?_⟩, fun hunseen => ?_⟩
    · rintro guards contract path hpath ⟨hmemA, hmemB⟩
      obtain ⟨guard, -, -, assumed, -, rfl, hs⟩ := Coverage.mem_paths_iff.mp hpath
      rw [hopposed.contradictory hseen _ hmemA hmemB] at hs
      cases hs
    · exact hopposed.satisfiable hunseen [a, b] (by simp)
  · obtain rfl := Reading.eq_ofProse_of_read ha hline
    obtain rfl := Reading.eq_ofProse_of_read hb hnegated
    refine Conjunction.satisfiable_of_plain fun prose hmem => ?_
    simp only [List.mem_cons, List.not_mem_nil, or_false] at hmem
    rcases hmem with rfl | rfl
    · exact ⟨rfl, rfl, Atom.key_ofProse_ne _⟩
    · exact ⟨rfl, rfl, Atom.key_ofProse_ne _⟩

/-- A bound with its number on the left contradicts its negation; a comparison of two variables and a line of
prose do not. -/
theorem mirroredBound_refuted :
    (∃ a b, Reading.parseDnf "16 > n" = .ok [[a]] ∧ Reading.parseDnf "not (16 > n)" = .ok [[b]] ∧
      ∀ atoms : Conjunction, a ∈ atoms → b ∈ atoms → atoms.satisfiable = false) ∧
    (∃ a b, Reading.parseDnf "i < n" = .ok [[a]] ∧ Reading.parseDnf "not (i < n)" = .ok [[b]] ∧
      Conjunction.satisfiable [a, b] = true) ∧
    ∃ a b, Reading.parseDnf "n even" = .ok [[a]] ∧ Reading.parseDnf "not (n even)" = .ok [[b]] ∧
      Conjunction.satisfiable [a, b] = true := by
  have hbound : Reading.read? "16 > n" =
      some (.compare (.number .integer "16") (.order .gt) " > " (.name "n")) := by decide +kernel
  have hboundNegated : Reading.read? "not (16 > n)" = some (.negation " "
      (.paren "" (.compare (.number .integer "16") (.order .gt) " > " (.name "n")) "")) := by decide +kernel
  have hindex : Reading.read? "i < n" =
      some (.compare (.name "i") (.order .lt) " < " (.name "n")) := by decide +kernel
  have hindexNegated : Reading.read? "not (i < n)" = some (.negation " "
      (.paren "" (.compare (.name "i") (.order .lt) " < " (.name "n")) "")) := by decide +kernel
  have hseen : Reading.soleAtom "16 > n" (fun a => !a.isUnseen) = true := by decide +kernel
  have hunseen : Reading.soleAtom "i < n" Atom.isUnseen = true := by decide +kernel
  have hsole : ["not (16 > n)", "not (i < n)", "n even", "not (n even)"].all
      (fun line => Reading.soleAtom line fun _ => true) = true := by decide +kernel
  obtain ⟨a, ha, hseen⟩ := Reading.soleAtom_eq_true_iff.mp hseen
  obtain ⟨c, hc, hunseen⟩ := Reading.soleAtom_eq_true_iff.mp hunseen
  simp only [List.all_cons, List.all_nil, Bool.and_true, Bool.and_eq_true, Reading.soleAtom_eq_true_iff,
    and_true] at hsole
  obtain ⟨⟨b, hb⟩, ⟨d, hd⟩, ⟨p, hp⟩, q, hq⟩ := hsole
  refine ⟨⟨a, b, ha, hb, ?_⟩, ⟨c, d, hc, hd, ?_⟩, p, q, hp, hq, ?_⟩
  · have hrefutes := (negation_refutes_unless_unseen ha hb).1 _ _ _ _ hbound hboundNegated
    exact (hrefutes.1 (by simpa using hseen)).1
  · exact ((negation_refutes_unless_unseen hc hd).1 _ _ _ _ hindex hindexNegated).2 hunseen
  · exact (negation_refutes_unless_unseen hp hq).2 (by decide +kernel) (by decide +kernel)

end CrateSafety
