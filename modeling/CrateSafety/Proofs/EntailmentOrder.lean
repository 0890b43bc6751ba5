import CrateSafety.Proofs.CoverageRefinement
import CrateSafety.Proofs.Spelling

/-!
# The order of entailment

A condition entails itself, and entailment is transitive where atoms with one key are alike and no atom negates
the key of an atom with a bound. Conditions are compared by what the logic sees, not by what they mean: an
interval that lies on one side of a point satisfies to differ from it, although nothing takes the point out. So
what composes is not the keys and bounds of conjunctions but what their intervals satisfy.
-/

namespace CrateSafety

namespace Interval

/-- An interval lies between the ends of another one and satisfies to differ from what the other one lacks. -/
structure Narrower (j i : Interval) : Prop where
  /-- It begins no earlier. -/
  start : i.start ≤ j.start
  /-- It stops no later. -/
  stop : j.stop ≤ i.stop
  /-- It differs from what is taken out of the other one. -/
  apart : ∀ d ∈ i.excluded, j.satisfies .ne d = true

variable {i j : Interval} {op : Comparison} {value : Double}

/-- A narrower interval stays so when the other one is constrained to what it satisfies. -/
theorem Narrower.constrain (h : j.Narrower i) (hj : j.isEmpty = false) (hs : j.satisfies op value = true) :
    j.Narrower (i.constrain op value) := by
  have hkeeps := (satisfies_iff hj).mp hs
  cases op with
  | ne =>
    unfold Interval.constrain
    dsimp only
    split
    case isTrue => exact h
    case isFalse =>
      refine ⟨h.start, h.stop, fun d hd => ?_⟩
      rcases List.mem_append.mp hd with hd | hd
      · exact h.apart d hd
      · rwa [List.mem_singleton.mp hd]
  | lt =>
    have hcut : j.stop ≤ value.cut false := by simpa [KeepsTo] using hkeeps
    exact ⟨by simpa [Interval.constrain] using h.start,
      by simpa [Interval.constrain, stop_lower] using ⟨h.stop, hcut⟩, by simpa [Interval.constrain] using h.apart⟩
  | le =>
    have hcut : j.stop ≤ value.cut true := by simpa [KeepsTo] using hkeeps
    exact ⟨by simpa [Interval.constrain] using h.start,
      by simpa [Interval.constrain, stop_lower] using ⟨h.stop, hcut⟩, by simpa [Interval.constrain] using h.apart⟩
  | gt =>
    have hcut : value.cut true ≤ j.start := by simpa [KeepsTo] using hkeeps
    exact ⟨by simpa [Interval.constrain, start_raise] using ⟨h.start, hcut⟩,
      by simpa [Interval.constrain] using h.stop, by simpa [Interval.constrain] using h.apart⟩
  | ge =>
    have hcut : value.cut false ≤ j.start := by simpa [KeepsTo] using hkeeps
    exact ⟨by simpa [Interval.constrain, start_raise] using ⟨h.start, hcut⟩,
      by simpa [Interval.constrain] using h.stop, by simpa [Interval.constrain] using h.apart⟩
  | eq =>
    have hcuts : value.cut false ≤ j.start ∧ j.stop ≤ value.cut true := by simpa [KeepsTo] using hkeeps
    exact ⟨by simpa [Interval.constrain, start_raise] using ⟨h.start, hcuts.1⟩,
      by simpa [Interval.constrain, stop_lower] using ⟨h.stop, hcuts.2⟩,
      by simpa [Interval.constrain] using h.apart⟩

/-- What an interval satisfies, a narrower one does. -/
theorem Narrower.satisfies (h : j.Narrower i) (hi : i.isEmpty = false) (hj : j.isEmpty = false)
    (hs : i.satisfies op value = true) : j.satisfies op value = true := by
  rcases (satisfies_iff hi).mp hs with hkeeps | ⟨rfl, hside⟩
  · cases op with
    | ne =>
      obtain ⟨d, hd, hpoint⟩ := (excludes_iff i value).mp hkeeps
      rw [satisfies_eq_of_point j .ne hpoint]
      exact h.apart d hd
    | lt => exact (satisfies_iff hj).mpr (.inl (h.stop.trans hkeeps))
    | le => exact (satisfies_iff hj).mpr (.inl (h.stop.trans hkeeps))
    | gt => exact (satisfies_iff hj).mpr (.inl (le_trans hkeeps h.start))
    | ge => exact (satisfies_iff hj).mpr (.inl (le_trans hkeeps h.start))
    | eq => exact (satisfies_iff hj).mpr (.inl ⟨hkeeps.1.trans h.start, h.stop.trans hkeeps.2⟩)
  · refine (satisfies_iff hj).mpr (.inr ⟨rfl, hside.imp ?_ ?_⟩)
    · exact fun hbelow => h.stop.trans hbelow
    · exact fun habove => le_trans habove h.start

end Interval

namespace Ranges

/-- An interval that satisfies all bounds on a subject is narrower than the interval that they leave. -/
theorem narrower_foldl {j : Interval} {subject : String} (hj : j.isEmpty = false) {bounds : List Bound}
    {ranges : Ranges} (h : j.Narrower (ranges.interval subject))
    (hb : ∀ b ∈ bounds, b.subject = subject → j.satisfies b.op b.value = true) :
    j.Narrower ((bounds.foldl constrain ranges).interval subject) := by
  induction bounds generalizing ranges with
  | nil => exact h
  | cons b bounds ih =>
    obtain ⟨hfirst, hrest⟩ := List.forall_mem_cons.mp hb
    refine ih ?_ hrest
    rw [interval, lookup_constrain]
    split
    case isTrue hs => exact h.constrain hj (hfirst (beq_iff_eq.mp hs).symm)
    case isFalse => exact h

end Ranges

namespace Atom

/-- What the logic sees of an atom fits its key. -/
structure Coherent (a : Atom) : Prop where
  /-- A constant states no bound and negates nothing. -/
  constant : a.key = "True" ∨ a.key = "False" → a.bound = none ∧ a.negates = none
  /-- A negation states no bound, and it is not that of the constant for truth. -/
  negation : ∀ key, a.negates = some key → a.bound = none ∧ key ≠ "True"

/-- The atom of a leaf that is spelled out is coherent. -/
theorem coherent_of_leaf {leaf : Expr} {paths : List String} {a : Atom} (hleaf : leaf.isLeaf = true)
    (hspelled : leaf.Spelled) (h : ofExpr leaf paths = .ok a) : a.Coherent := by
  have hkey := key_of_ofExpr h
  obtain ⟨-, hbound, hnegates⟩ := stated_of_ofExpr h
  rw [Expr.core_of_isLeaf hleaf] at hkey hbound hnegates
  rw [negatedKey_of_isLeaf hleaf] at hnegates
  have hnone : a.negates = none := (Except.ok.inj hnegates).symm
  refine ⟨fun hconstant => ⟨?_, hnone⟩, fun key heq => by rw [hnone] at heq; cases heq⟩
  rcases leaf.compare_or_opposite with ⟨left, op, spelling, right, rfl⟩ | ⟨hcompare, -⟩
  · have hne := Expr.key_ne_constant (hspelled.marked_render hleaf (by simp))
    rw [← hkey] at hne
    exact absurd hconstant (not_or.mpr hne)
  · rw [boundOf_of_not_compare hcompare] at hbound
    exact (Except.ok.inj hbound).symm

/-- The atom of a negation is coherent unless it negates the constant for truth. -/
theorem coherent_of_negation {leaf : Expr} {paths : List String} {a : Atom} (hleaf : leaf.isLeaf = true)
    (htrue : leaf.key ≠ "True") (h : ofExpr (.negation " " leaf) paths = .ok a) : a.Coherent := by
  have hkey := key_of_ofExpr h
  obtain ⟨hbound, hnegates⟩ := stated_of_negation h
  rw [Expr.core_of_isLeaf hleaf] at hnegates
  have hmarked : Marked (Expr.negation " " leaf).render := by
    have hnot : Marked "not" := by decide
    rw [Expr.render, marked_append, marked_append]
    exact .inl (.inl hnot)
  have hne := Expr.key_ne_constant hmarked
  refine ⟨fun hconstant => absurd hconstant (not_or.mpr (hkey ▸ hne)), fun key heq => ⟨hbound, ?_⟩⟩
  rw [hnegates] at heq
  exact Option.some.inj heq ▸ htrue

end Atom

namespace Reading

/-- The atoms of leaves, plain or negated, are coherent. -/
theorem coherent_literal {e leaf : Expr} {paths : List String} {negate : Bool} {a : Atom}
    (hspelled : e.Spelled) (hfault : e.fault? = none) (hmem : leaf ∈ e.leaves)
    (h : literal paths negate leaf = .ok a) : a.Coherent := by
  have hleaf := isLeaf_of_mem_leaves hmem
  have hspelledLeaf := hspelled.of_mem_leaves hmem
  cases negate with
  | false => exact Atom.coherent_of_leaf hleaf hspelledLeaf h
  | true =>
    replace h : negatedAtom leaf paths = .ok a := h
    have hname : ∀ id, (Expr.name id).Spelled := fun _ => trivial
    have hunit : ∀ inner, leaf ≠ .unit inner := by
      rintro inner rfl
      exact (negatedAtom_isOk_iff hleaf).mp ⟨a, h⟩
    by_cases htrue : leaf = .name "True"
    · subst htrue
      exact Atom.coherent_of_leaf rfl (hname "False") h
    · rcases negatedAtom_cases paths hleaf hunit with ⟨heq, -⟩ | ⟨rfl, -⟩ | heq
      · exact absurd heq htrue
      · exact Atom.coherent_of_leaf rfl (hname "True") h
      · rw [heq] at h
        rcases leaf.compare_or_opposite with ⟨left, op, spelling, right, rfl⟩ | ⟨-, hopposite⟩
        · have hopposite : (Expr.compare left op spelling right).opposite.Spelled :=
            op.negated.marked_spelling
          exact Atom.coherent_of_leaf rfl hopposite h
        · rw [hopposite] at h
          refine Atom.coherent_of_negation hleaf (fun hkey => htrue ?_) h
          exact hspelled.eq_name_of_key hfault hmem (by decide) hkey

theorem coherent_parseDnf {line : String} {form : List Conjunction} (h : parseDnf line = .ok form) :
    ∀ atoms ∈ form, ∀ a ∈ atoms, a.Coherent := by
  refine forall_mem_parseDnf h ?_ fun e hread leaf hleaf paths negate a ha => ?_
  · exact ⟨fun _ => ⟨rfl, rfl⟩, fun key hkey => by cases hkey⟩
  · obtain ⟨hspelled, hfault⟩ := spelled_of_expression hread
    exact coherent_literal hspelled hfault hleaf ha

end Reading

namespace Condition

/-- The atoms of documented lines are coherent. -/
theorem coherent_ofLines {lines : List String} {c : Condition} (h : ofLines lines = .ok c) :
    ∀ a ∈ c.alternatives.flatten, a.Coherent :=
  forall_mem_ofLines h fun _ _ hline => Reading.coherent_parseDnf hline

end Condition

/-- The logic cannot tell atoms with one key apart. -/
def KeysFixAtoms (atoms : List Atom) : Prop :=
  ∀ a ∈ atoms, ∀ b ∈ atoms, a.key = b.key → a.Alike b

/-- No atom negates the key of an atom with a bound. -/
def NegationsUnbounded (atoms : List Atom) : Prop :=
  ∀ a ∈ atoms, ∀ b ∈ atoms, b.negates = some a.key → a.bound = none

instance (atoms : List Atom) : Decidable (KeysFixAtoms atoms) :=
  inferInstanceAs (Decidable (∀ a ∈ atoms, ∀ b ∈ atoms, a.key = b.key → a.Alike b))

instance (atoms : List Atom) : Decidable (NegationsUnbounded atoms) :=
  inferInstanceAs (Decidable (∀ a ∈ atoms, ∀ b ∈ atoms, b.negates = some a.key → a.bound = none))

namespace Conjunction

variable {stronger weaker : Conjunction}

/-- A conjunction without a contradiction entails what has the key for truth, the key of one of its atoms, or a
bound that its intervals imply. -/
theorem entails_iff_of_satisfiable (hs : stronger.satisfiable = true) {target : Atom} :
    stronger.entails target = true ↔ target.key = "True" ∨ stronger.hasKey target.key = true ∨
      ∃ b, target.bound = some b ∧ stronger.impliesBound b = true := by
  simp [Conjunction.entails, hs, Option.any_eq_true, or_assoc]

/-- The interval that implies a bound is there, and satisfies it. -/
theorem exists_interval_of_impliesBound {b : Bound} (h : stronger.impliesBound b = true) :
    ∃ i, (Ranges.ofAtoms stronger).lookup b.subject = some i ∧ i.satisfies b.op b.value = true := by
  unfold impliesBound at h
  split at h
  case h_1 i hlookup => exact ⟨i, hlookup, h⟩
  case h_2 => cases h

/-- The interval of a subject satisfies the bounds on the subject. -/
theorem exists_interval_of_mem {a : Atom} {b : Bound} (hs : stronger.satisfiable = true) (ha : a ∈ stronger)
    (hb : a.bound = some b) :
    ∃ i, (Ranges.ofAtoms stronger).lookup b.subject = some i ∧ i.satisfies b.op b.value = true := by
  have hsome : ((Ranges.ofAtoms stronger).lookup b.subject).isSome = true :=
    Ranges.isSome_lookup_ofAtoms.mpr ⟨a, ha, b, hb, rfl⟩
  obtain ⟨i, hlookup⟩ := Option.isSome_iff_exists.mp hsome
  have hi := (satisfiable_eq_true_iff.mp hs).2.2 _ (Ranges.mem_of_lookup hlookup)
  have hrefl : ((Ranges.ofAtoms stronger).interval b.subject).Tighter
      ((Ranges.ofAtoms stronger).interval b.subject) := Interval.Tighter.refl _
  have hkeeps := ((Ranges.tighter_foldl _ _).mp hrefl).2 b (List.mem_filterMap.mpr ⟨a, ha, hb⟩) rfl
  rw [Ranges.interval, hlookup] at hkeeps
  exact ⟨i, hlookup, (Interval.satisfies_iff hi).mpr (.inl hkeeps)⟩

section Composition

variable (hs : stronger.satisfiable = true) (hall : ∀ a ∈ weaker, stronger.entails a = true)
  (hkeys : ∀ a ∈ weaker, ∀ b ∈ stronger, a.key = b.key → a.Alike b) (hcoherent : ∀ a ∈ weaker, a.Coherent)

include hs hall hkeys hcoherent

/-- The bounds of entailed atoms are satisfied by the intervals of the atoms that entail them. -/
theorem exists_interval_of_entails {a : Atom} {b : Bound} (ha : a ∈ weaker) (hb : a.bound = some b) :
    ∃ i, (Ranges.ofAtoms stronger).lookup b.subject = some i ∧ i.satisfies b.op b.value = true := by
  rcases (entails_iff_of_satisfiable hs).mp (hall a ha) with htrue | hkey | ⟨b', hb', himplies⟩
  · rw [((hcoherent a ha).constant (.inl htrue)).1] at hb
    cases hb
  · obtain ⟨a', ha', hkey⟩ := List.any_eq_true.mp hkey
    have halike := hkeys a ha a' ha' (beq_iff_eq.mp hkey).symm
    obtain ⟨b', hb', hsubject, hop, hpoint⟩ := halike.bound.exists_bound hb
    obtain ⟨i, hlookup, hsatisfies⟩ := exists_interval_of_mem hs ha' hb'
    rw [hsubject] at hlookup
    rw [hop, i.satisfies_eq_of_point b.op hpoint] at hsatisfies
    exact ⟨i, hlookup, hsatisfies⟩
  · cases hb.symm.trans hb'
    exact exists_interval_of_impliesBound himplies

/-- Atoms that are entailed without a contradiction are free of contradictions, unless one of them negates the
key of another one that has a bound. -/
theorem satisfiable_of_entails (hunbounded : NegationsUnbounded weaker) : weaker.satisfiable = true := by
  obtain ⟨hfalse, hnegates, hempty⟩ := satisfiable_eq_true_iff.mp hs
  -- without a bound there is nothing but its key to entail an atom
  have hkey : ∀ a ∈ weaker, a.bound = none → a.key ≠ "True" → stronger.hasKey a.key = true := by
    intro a ha hbound htrue
    rcases (entails_iff_of_satisfiable hs).mp (hall a ha) with h | h | ⟨b, hb, -⟩
    · exact absurd h htrue
    · exact h
    · rw [hbound] at hb
      cases hb
  refine satisfiable_eq_true_iff.mpr ⟨?_, ?_, ?_⟩
  · by_contra hhas
    obtain ⟨a, ha, heq⟩ := List.any_eq_true.mp (Bool.not_eq_false _ ▸ hhas)
    have heq' : a.key = "False" := beq_iff_eq.mp heq
    have hthere := hkey a ha ((hcoherent a ha).constant (.inr heq')).1 (by rw [heq']; decide)
    rw [heq', hfalse] at hthere
    cases hthere
  · intro q hq key hnegated
    by_contra hhas
    obtain ⟨p, hp, heq⟩ := List.any_eq_true.mp (Bool.not_eq_false _ ▸ hhas)
    cases (beq_iff_eq.mp heq : p.key = key)
    obtain ⟨hbound, htrue⟩ := (hcoherent q hq).negation p.key hnegated
    have hqTrue : q.key ≠ "True" := by
      intro hconstant
      rw [((hcoherent q hq).constant (.inl hconstant)).2] at hnegated
      cases hnegated
    obtain ⟨q', hq', heq'⟩ := List.any_eq_true.mp (hkey q hq hbound hqTrue)
    have halike := hkeys q hq q' hq' (beq_iff_eq.mp heq').symm
    have hthere := hkey p hp (hunbounded p hp q hq hnegated) htrue
    rw [hnegates q' hq' p.key (halike.negates ▸ hnegated)] at hthere
    cases hthere
  · -- numbers within the intervals of the stronger atoms respect the bounds of the weaker ones
    obtain ⟨number, hnumber⟩ := (Ranges.wellFormed_ofAtoms stronger).exists_number hempty
    have hweaker : (Ranges.ofAtoms weaker).Contains number := by
      refine (Ranges.contains_ofAtoms weaker number).mpr fun a ha b hb => ?_
      obtain ⟨i, hlookup, hsatisfies⟩ := exists_interval_of_entails hs hall hkeys hcoherent ha hb
      exact Interval.holds_of_satisfies hsatisfies (hnumber _ (Ranges.mem_of_lookup hlookup))
    intro entry hentry
    by_contra hne
    rw [Bool.not_eq_false] at hne
    exact Interval.not_contains_of_isEmpty hne _ (hweaker entry hentry)

/-- The intervals of the stronger atoms are narrower. -/
theorem narrower_of_entails {subject : String} {i : Interval}
    (hi : (Ranges.ofAtoms stronger).lookup subject = some i) :
    i.Narrower ((Ranges.ofAtoms weaker).interval subject) := by
  have hinterval : (Ranges.ofAtoms stronger).interval subject = i := by simp [Ranges.interval, hi]
  have hnonempty := (satisfiable_eq_true_iff.mp hs).2.2 _ (Ranges.mem_of_lookup hi)
  have hrefl : i.Tighter ((Ranges.ofAtoms stronger).interval subject) := by
    rw [hinterval]
    exact Interval.Tighter.refl i
  have hfull := ((Ranges.tighter_foldl _ _).mp hrefl).1
  refine Ranges.narrower_foldl hnonempty ⟨hfull.start, hfull.stop, fun d hd => absurd hd List.not_mem_nil⟩ ?_
  intro b hb hsubject
  obtain ⟨a, ha, hbound⟩ := List.mem_filterMap.mp hb
  obtain ⟨j, hlookup, hsatisfies⟩ := exists_interval_of_entails hs hall hkeys hcoherent ha hbound
  rw [hsubject, hi] at hlookup
  cases hlookup
  exact hsatisfies

/-- What entailed atoms entail is entailed. -/
theorem entails_of_entails (hunbounded : NegationsUnbounded weaker) {target : Atom}
    (htarget : ∀ a ∈ weaker, a.key = target.key → a.SameBound target) (h : weaker.entails target = true) :
    stronger.entails target = true := by
  have hsWeaker := satisfiable_of_entails hs hall hkeys hcoherent hunbounded
  rcases (entails_iff_of_satisfiable hsWeaker).mp h with htrue | hkey | ⟨b, hb, himplies⟩
  · exact (entails_iff_of_satisfiable hs).mpr (.inl htrue)
  · obtain ⟨a, ha, heq⟩ := List.any_eq_true.mp hkey
    have heq' : a.key = target.key := beq_iff_eq.mp heq
    exact entails_of_sameBound heq' (htarget a ha heq') (hall a ha)
  · obtain ⟨i, hlookup, hsatisfies⟩ := exists_interval_of_impliesBound himplies
    obtain ⟨a, ha, b', hb', hsubject⟩ :=
      Ranges.isSome_lookup_ofAtoms.mp (Option.isSome_iff_exists.mpr ⟨i, hlookup⟩)
    obtain ⟨j, hlookup', -⟩ := exists_interval_of_entails hs hall hkeys hcoherent ha hb'
    rw [hsubject] at hlookup'
    have hnarrower := narrower_of_entails hs hall hkeys hcoherent hlookup'
    rw [Ranges.interval, hlookup] at hnarrower
    have hi := (satisfiable_eq_true_iff.mp hsWeaker).2.2 _ (Ranges.mem_of_lookup hlookup)
    have hj := (satisfiable_eq_true_iff.mp hs).2.2 _ (Ranges.mem_of_lookup hlookup')
    refine (entails_iff_of_satisfiable hs).mpr (.inr (.inr ⟨b, hb, ?_⟩))
    rw [impliesBound, hlookup']
    exact hnarrower.satisfies hi hj hsatisfies

end Composition

end Conjunction

namespace Condition

theorem entailedBy_iff {c assumptions : Condition} :
    c.entailedBy assumptions = true ↔ c.alternatives = [] ∨ ∀ atoms ∈ assumptions.conjunctions,
      atoms.satisfiable = true → atoms.Covers c.alternatives := by
  unfold entailedBy isEmpty
  simp only [Bool.or_eq_true, List.isEmpty_iff, List.all_eq_true, Bool.not_eq_true',
    Option.isNone_iff_eq_none, Conjunction.firstUncovered_eq_none_iff]
  by_cases hnil : c.alternatives = []
  · simp [hnil]
  · simp only [hnil, false_or]
    refine forall₂_congr fun atoms _ => ?_
    cases atoms.satisfiable <;> simp

/-- Every condition entails itself. -/
theorem entailedBy_self (c : Condition) : c.entailedBy c = true := by
  rw [entailedBy_iff]
  by_cases hnil : c.alternatives = []
  · exact .inl hnil
  · have hconjunctions : c.conjunctions = c.alternatives := if_neg (by simpa [isEmpty] using hnil)
    rw [hconjunctions]
    refine .inr fun atoms hatoms hs => ⟨atoms, hatoms, fun a ha => ?_⟩
    have hkey : atoms.hasKey a.key = true := List.any_eq_true.mpr ⟨a, ha, beq_self_eq_true _⟩
    exact (Conjunction.entails_iff_of_satisfiable hs).mpr (.inr (.inl hkey))

/-- A condition that is entailed has a conjunction, the empty one if nothing is asked, that a satisfiable
conjunction of the assumptions entails in full. -/
theorem exists_conjunction_of_entailedBy {c assumptions : Condition} (h : c.entailedBy assumptions = true)
    {atoms : Conjunction} (hatoms : atoms ∈ assumptions.conjunctions) (hs : atoms.satisfiable = true) :
    ∃ fewer ∈ c.conjunctions, ∀ a ∈ fewer, atoms.entails a = true := by
  unfold conjunctions isEmpty
  by_cases hnil : c.alternatives = []
  · exact ⟨[], by simp [hnil], fun a ha => absurd ha List.not_mem_nil⟩
  · obtain ⟨fewer, hfewer, hall⟩ := (entailedBy_iff.mp h).resolve_left hnil atoms hatoms hs
    rw [if_neg (by simpa using hnil)]
    exact ⟨fewer, hfewer, hall⟩

end Condition

/-- A test of the conditions of three lists of lines. -/
def Condition.examine (weakLines middleLines strongLines : List String)
    (test : Condition → Condition → Condition → Bool) : Bool :=
  (ofLines weakLines).toOption.any fun weak => (ofLines middleLines).toOption.any fun middle =>
    (ofLines strongLines).toOption.any fun strong => test weak middle strong

theorem Condition.examine_eq_true_iff {weakLines middleLines strongLines : List String}
    {test : Condition → Condition → Condition → Bool} :
    examine weakLines middleLines strongLines test = true ↔ ∃ weak middle strong,
      ofLines weakLines = .ok weak ∧ ofLines middleLines = .ok middle ∧ ofLines strongLines = .ok strong ∧
        test weak middle strong = true := by
  simp only [examine, Outcome.any_toOption_eq_true_iff]
  constructor
  · rintro ⟨weak, hweak, middle, hmiddle, strong, hstrong, htest⟩
    exact ⟨weak, middle, strong, hweak, hmiddle, hstrong, htest⟩
  · rintro ⟨weak, middle, strong, hweak, hmiddle, hstrong, htest⟩
    exact ⟨weak, hweak, middle, hmiddle, strong, hstrong, htest⟩

/-- Entailment of contracts is a preorder: every condition entails itself, and a condition that is entailed by one
read from documented lines is entailed by whatever entails the latter, where atoms with one key are alike and no
atom in the middle negates the key of another one there that has a bound. -/
theorem contract_entailment_preorder {lines : List String} {weak middle strong : Condition}
    (hmiddle : Condition.ofLines lines = .ok middle)
    (hkeys : KeysFixAtoms (weak.alternatives ++ middle.alternatives ++ strong.alternatives).flatten)
    (hunbounded : NegationsUnbounded middle.alternatives.flatten) :
    weak.entailedBy weak = true ∧
      (weak.entailedBy middle = true → middle.entailedBy strong = true → weak.entailedBy strong = true) := by
  refine ⟨weak.entailedBy_self, fun hwm hms => Condition.entailedBy_iff.mpr ?_⟩
  by_cases hnil : weak.alternatives = []
  · exact .inl hnil
  refine .inr fun atoms hatoms hs => ?_
  -- a conjunction in the middle that the assumptions entail, and that is itself free of contradictions
  obtain ⟨fewer, hfewer, hall⟩ := Condition.exists_conjunction_of_entailedBy hms hatoms hs
  have hatomsMem := Condition.conjunctions_subset hatoms
  have hfewerMem := Condition.conjunctions_subset hfewer
  rw [List.flatten_append, List.flatten_append] at hkeys
  have halike : ∀ a ∈ fewer, ∀ b ∈ atoms, a.key = b.key → a.Alike b := fun a ha b hb =>
    hkeys a (List.mem_append_left _ (List.mem_append_right _ (hfewerMem ha))) b
      (List.mem_append_right _ (hatomsMem hb))
  have hcoherent : ∀ a ∈ fewer, a.Coherent := fun a ha =>
    Condition.coherent_ofLines hmiddle a (hfewerMem ha)
  have hunbounded' : NegationsUnbounded fewer := fun a ha b hb => hunbounded a (hfewerMem ha) b (hfewerMem hb)
  have hsFewer := Conjunction.satisfiable_of_entails hs hall halike hcoherent hunbounded'
  -- it covers the condition, and so do the assumptions
  obtain ⟨least, hleast, hcovers⟩ := (Condition.entailedBy_iff.mp hwm).resolve_left hnil fewer hfewer hsFewer
  refine ⟨least, hleast, fun target htarget => ?_⟩
  refine Conjunction.entails_of_entails hs hall halike hcoherent hunbounded' ?_ (hcovers target htarget)
  intro a ha hkey
  exact (hkeys a (List.mem_append_left _ (List.mem_append_right _ (hfewerMem ha))) target
    (List.mem_append_left _ (List.mem_append_left _ (List.mem_flatten_of_mem hleast htarget))) hkey).bound

/-- A queue's contract asks that a count differ from a number; a stronger one keeps the count below it. -/
theorem queueContract_entailed : ∃ weak middle strong,
    Condition.ofLines ["n != 7 or idle(p)"] = .ok weak ∧
      Condition.ofLines ["n < 5", "not busy(p)"] = .ok middle ∧
      Condition.ofLines ["n < 3 or n == 4", "not busy(p)"] = .ok strong ∧
      KeysFixAtoms (weak.alternatives ++ middle.alternatives ++ strong.alternatives).flatten ∧
      NegationsUnbounded middle.alternatives.flatten ∧ weak.entailedBy strong = true := by
  have hcheck : Condition.examine ["n != 7 or idle(p)"] ["n < 5", "not busy(p)"]
      ["n < 3 or n == 4", "not busy(p)"] (fun weak middle strong =>
        decide (KeysFixAtoms (weak.alternatives ++ middle.alternatives ++ strong.alternatives).flatten) &&
          decide (NegationsUnbounded middle.alternatives.flatten) && weak.entailedBy middle &&
          middle.entailedBy strong) = true := by
    decide +kernel
  obtain ⟨weak, middle, strong, hweak, hmiddle, hstrong, hcheck⟩ := Condition.examine_eq_true_iff.mp hcheck
  simp only [Bool.and_eq_true, decide_eq_true_eq] at hcheck
  obtain ⟨⟨⟨hkeys, hunbounded⟩, hwm⟩, hms⟩ := hcheck
  exact ⟨weak, middle, strong, hweak, hmiddle, hstrong, hkeys, hunbounded,
    (contract_entailment_preorder hmiddle hkeys hunbounded).2 hwm hms⟩

/-- Where comments and line breaks give a negation the key of another atom's bound, a contradiction between the
two is seen in the middle but not in what entails it, and entailment does not compose. -/
theorem commentedSum_not_entailed : ∃ weak middle strong,
    Condition.ofLines ["ready(a)"] = .ok weak ∧
      Condition.ofLines ["(a +#\nb > 0)", "not (a +#b >\n0)"] = .ok middle ∧
      Condition.ofLines ["(a +#\nb > 5)", "not (a +#b >\n0)"] = .ok strong ∧
      KeysFixAtoms (weak.alternatives ++ middle.alternatives ++ strong.alternatives).flatten ∧
      weak.entailedBy middle = true ∧ middle.entailedBy strong = true ∧ weak.entailedBy strong = false := by
  have hcheck : Condition.examine ["ready(a)"] ["(a +#\nb > 0)", "not (a +#b >\n0)"]
      ["(a +#\nb > 5)", "not (a +#b >\n0)"] (fun weak middle strong =>
        decide (KeysFixAtoms (weak.alternatives ++ middle.alternatives ++ strong.alternatives).flatten) &&
          weak.entailedBy middle && middle.entailedBy strong && !weak.entailedBy strong) = true := by
    decide +kernel
  obtain ⟨weak, middle, strong, hweak, hmiddle, hstrong, hcheck⟩ := Condition.examine_eq_true_iff.mp hcheck
  simp only [Bool.and_eq_true, decide_eq_true_eq, Bool.not_eq_true'] at hcheck
  obtain ⟨⟨⟨hkeys, hwm⟩, hms⟩, hws⟩ := hcheck
  exact ⟨weak, middle, strong, hweak, hmiddle, hstrong, hkeys, hwm, hms, hws⟩

end CrateSafety
