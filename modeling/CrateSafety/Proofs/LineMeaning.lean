import CrateSafety.Proofs.NormalForm
import CrateSafety.Proofs.Outcome

/-!
# Meaning of requirement lines

What a documented line says, as a truth function of its leaves: the comparisons, calls, names and other
expressions beneath its connectives and negations. Bringing lines into disjunctive normal form keeps that
meaning wherever a flipped comparison and a negated leaf are the opposite of the plain one. Lines can be
brought into that form exactly if each number that a leaf compares with is in range and no leaf is the empty
tuple.
-/

namespace CrateSafety

deriving instance DecidableEq for Expr, Parts

namespace Expr

/-- The canonical key of the text of an expression. -/
def key (e : Expr) : String := canonicalKey e.render

/-- Whether all links of a chain of comparisons are true; an operand by itself links nothing. -/
def linksTrue (truth : String → Bool) : Expr → Bool
  | compare left op spelling right => truth (compare left op spelling right).key
  | chain left op spelling rest =>
    truth (compare left op spelling rest.leftmost).key && rest.linksTrue truth
  | _ => true

/-- The truth of an expression as a condition, given the truth of keys. -/
def meaning (truth : String → Bool) : Expr → Bool
  | paren _ body _ => body.meaning truth
  | junction left .and _ right => left.meaning truth && right.meaning truth
  | junction left .or _ right => left.meaning truth || right.meaning truth
  | negation _ operand => !operand.meaning truth
  | chain left op spelling rest => (chain left op spelling rest).linksTrue truth
  | e => truth e.key

/-- What stands beneath the connectives and negations of an expression; of a chain, its links. -/
def leaves : Expr → List Expr
  | paren _ body _ => body.leaves
  | junction left _ _ right => left.leaves ++ right.leaves
  | negation _ operand => operand.leaves
  | chain left op spelling rest => Reading.links (chain left op spelling rest)
  | e => [e]

/-- The comparison with its operator flipped, and of any other expression its negation. -/
def opposite : Expr → Expr
  | compare left op _ right => compare left op.negated op.negated.spelling right
  | e => negation " " e

/-- The opposite of an expression that is no comparison is its negation. -/
theorem compare_or_opposite (e : Expr) :
    (∃ left op spelling right, e = compare left op spelling right) ∨
      (∀ left op spelling right, e ≠ compare left op spelling right) ∧ e.opposite = negation " " e := by
  cases e with
  | compare left op spelling right => exact .inl ⟨left, op, spelling, right, rfl⟩
  | _ => exact .inr ⟨by simp, rfl⟩

/-- A truth assignment knows the two constants, and each leaf is the opposite of its opposite. -/
structure Respects (truth : String → Bool) (e : Expr) : Prop where
  /-- The constant for truth is true. -/
  true_key : truth "True" = true
  /-- The constant for falsehood is false. -/
  false_key : truth "False" = false
  /-- Flipped comparisons and negations are opposite. -/
  opposite : ∀ leaf ∈ e.leaves, truth leaf.opposite.key = !truth leaf.key

instance (truth : String → Bool) (e : Expr) : Decidable (e.Respects truth) :=
  decidable_of_iff
    (truth "True" = true ∧ truth "False" = false ∧
      ∀ leaf ∈ e.leaves, truth leaf.opposite.key = !truth leaf.key)
    ⟨fun ⟨ht, hf, ho⟩ => ⟨ht, hf, ho⟩, fun h => ⟨h.true_key, h.false_key, h.opposite⟩⟩

/-- Whether a leaf can be an atom: it is not the empty tuple, and numbers that it compares with are in
range. -/
def Statable : Expr → Prop
  | compare left (.order _) _ right =>
    (∃ value, left.numeric? = .ok value) ∧ ∃ value, right.numeric? = .ok value
  | unit _ => False
  | _ => True

/-- Whether an expression is a leaf by itself. -/
def isLeaf : Expr → Bool
  | paren _ _ _ => false
  | junction _ _ _ _ => false
  | negation _ _ => false
  | chain _ _ _ _ => false
  | _ => true

section Leaves

variable {truth : String → Bool} {e leaf : Expr}

theorem leaves_of_isLeaf (h : e.isLeaf = true) : e.leaves = [e] := by
  cases e <;> simp_all [isLeaf, leaves]

theorem meaning_of_isLeaf (h : e.isLeaf = true) : e.meaning truth = truth e.key := by
  cases e <;> simp_all [isLeaf, meaning]

/-- Leaves have no parentheses of their own. -/
theorem core_of_isLeaf (h : e.isLeaf = true) : e.core = e := by
  cases e <;> simp_all [isLeaf, core]

theorem isLeaf_of_mem_links (h : leaf ∈ Reading.links e) : leaf.isLeaf = true := by
  induction e using Reading.links.induct with
  | case1 left op spelling right =>
    rw [List.mem_singleton.mp h]
    rfl
  | case2 left op spelling rest ih =>
    rw [Reading.links] at h
    rcases List.mem_cons.mp h with hfirst | hrest
    · rw [hfirst]
      rfl
    · exact ih hrest
  | case3 e hcompare hchain => simp [Reading.links] at h

/-- A chain is true exactly if each of its links is. -/
theorem linksTrue_iff :
    e.linksTrue truth = true ↔ ∀ link ∈ Reading.links e, truth link.key = true := by
  induction e using Reading.links.induct with
  | case1 left op spelling right => simp [linksTrue, Reading.links]
  | case2 left op spelling rest ih =>
    rw [linksTrue, Reading.links, Bool.and_eq_true, ih, List.forall_mem_cons]
  | case3 e hcompare hchain => simp [linksTrue, Reading.links]

/-- An assignment respects the parts of what it respects. -/
theorem Respects.of_subset {part : Expr} (h : e.Respects truth) (hs : part.leaves ⊆ e.leaves) :
    part.Respects truth :=
  ⟨h.true_key, h.false_key, fun leaf hleaf => h.opposite leaf (hs hleaf)⟩

end Leaves

theorem strip_eq_ok_iff {e node : Expr} :
    e.strip = .ok node ↔ node = e.core ∧ ∀ inner, e.core ≠ unit inner := by
  unfold strip
  split
  case h_1 inner heq => simp [heq]
  case h_2 hne =>
    simp only [Except.ok.injEq]
    exact ⟨fun h => ⟨h.symm, fun inner heq => hne inner heq⟩, fun h => h.1.symm⟩

/-- The parentheses of a number can be taken off. -/
theorem strip_isOk_of_numeric {e : Expr} {value : Option Double} (h : e.numeric? = .ok value) :
    ∃ node, e.strip = .ok node := by
  obtain ⟨node, hnode, -⟩ := Outcome.bind_eq_ok_iff.mp h
  exact ⟨node, hnode⟩

end Expr

namespace Atom

variable {e : Expr} {paths : List String} {a : Atom}

theorem strippedKey_isOk (h : ∃ node, e.strip = .ok node) : ∃ key, strippedKey e = .ok key := by
  obtain ⟨node, hnode⟩ := h
  exact ⟨_, Outcome.bind_eq_ok_iff.mpr ⟨node, hnode, rfl⟩⟩

/-- The key of an atom is that of its expression without parentheses. -/
theorem key_of_ofExpr (h : ofExpr e paths = .ok a) : a.key = e.core.key := by
  obtain ⟨node, hnode, h⟩ := Outcome.bind_eq_ok_iff.mp h
  obtain ⟨bound, -, h⟩ := Outcome.bind_eq_ok_iff.mp h
  obtain ⟨negates, -, h⟩ := Outcome.bind_eq_ok_iff.mp h
  cases h
  rw [(Expr.strip_eq_ok_iff.mp hnode).1]
  rfl

/-- An atom of an expression comes from the expression without parentheses, and the logic sees of it what that
states. -/
theorem stated_of_ofExpr (h : ofExpr e paths = .ok a) : a.source = .expression e.core paths ∧
    boundOf e.core = .ok a.bound ∧ negatedKey e.core = .ok a.negates := by
  obtain ⟨node, hnode, h⟩ := Outcome.bind_eq_ok_iff.mp h
  obtain ⟨bound, hbound, h⟩ := Outcome.bind_eq_ok_iff.mp h
  obtain ⟨negates, hnegates, h⟩ := Outcome.bind_eq_ok_iff.mp h
  cases h
  rw [(Expr.strip_eq_ok_iff.mp hnode).1] at hbound hnegates
  refine ⟨?_, hbound, hnegates⟩
  rw [(Expr.strip_eq_ok_iff.mp hnode).1]

theorem negatedKey_of_isLeaf (h : e.isLeaf = true) : negatedKey e = .ok none := by
  cases e with
  | negation => cases h
  | _ => rfl

theorem boundOf_of_not_compare (h : ∀ left op spelling right, e ≠ .compare left op spelling right) :
    boundOf e = .ok none := by
  cases e with
  | compare left op spelling right => exact absurd rfl (h left op spelling right)
  | _ => rfl

/-- A negation states no bound, and it negates what stands beneath it without parentheses. -/
theorem stated_of_negation {gap : String} (h : ofExpr (.negation gap e) paths = .ok a) :
    a.bound = none ∧ a.negates = some e.core.key := by
  obtain ⟨-, hbound, hnegates⟩ := stated_of_ofExpr h
  obtain ⟨key, hkey, hsome⟩ := Outcome.bind_eq_ok_iff.mp hnegates
  obtain ⟨node, hnode, hrender⟩ := Outcome.bind_eq_ok_iff.mp hkey
  rw [(Expr.strip_eq_ok_iff.mp hnode).1] at hrender
  refine ⟨(Except.ok.inj hbound).symm, ?_⟩
  rw [← Except.ok.inj hsome, ← Except.ok.inj hrender]
  rfl

/-- A comparison states a bound, or none, exactly if both operands are in range. -/
theorem boundOf_compare_isOk_iff {left right : Expr} {op : Comparison} {spelling : String} :
    (∃ bound, boundOf (.compare left (.order op) spelling right) = .ok bound) ↔
      (∃ value, left.numeric? = .ok value) ∧ ∃ value, right.numeric? = .ok value := by
  constructor
  · rintro ⟨bound, h⟩
    obtain ⟨onRight, hright, h⟩ := Outcome.bind_eq_ok_iff.mp h
    obtain ⟨onLeft, hleft, -⟩ := Outcome.bind_eq_ok_iff.mp h
    exact ⟨⟨onLeft, hleft⟩, ⟨onRight, hright⟩⟩
  · rintro ⟨⟨onLeft, hleft⟩, ⟨onRight, hright⟩⟩
    have hkeyLeft := strippedKey_isOk (Expr.strip_isOk_of_numeric hleft)
    have hkeyRight := strippedKey_isOk (Expr.strip_isOk_of_numeric hright)
    refine Outcome.exists_bind_eq_ok ⟨onRight, hright⟩ fun x hx => ?_
    refine Outcome.exists_bind_eq_ok ⟨onLeft, hleft⟩ fun y hy => ?_
    cases x with
    | some value => exact Outcome.exists_bind_eq_ok hkeyLeft fun _ _ => ⟨_, rfl⟩
    | none =>
      cases y with
      | some value => exact Outcome.exists_bind_eq_ok hkeyRight fun _ _ => ⟨_, rfl⟩
      | none => exact ⟨none, rfl⟩

/-- An expression without parentheses is an atom exactly if its bound and what it negates can be told. -/
theorem ofExpr_isOk_iff (hcore : e.core = e) (hunit : ∀ inner, e ≠ .unit inner) :
    (∃ a, ofExpr e paths = .ok a) ↔
      (∃ bound, boundOf e = .ok bound) ∧ ∃ negates, negatedKey e = .ok negates := by
  have hstrip : e.strip = .ok e :=
    Expr.strip_eq_ok_iff.mpr ⟨hcore.symm, fun inner heq => hunit inner (hcore ▸ heq)⟩
  unfold ofExpr
  simp only [hstrip, bind, Except.bind]
  cases boundOf e with
  | error fault => simp
  | ok bound => cases negatedKey e <;> simp [pure, Except.pure]

/-- A leaf is an atom exactly if it can be one. -/
theorem ofExpr_leaf_isOk_iff (h : e.isLeaf = true) :
    (∃ a, ofExpr e paths = .ok a) ↔ e.Statable := by
  have hcore := Expr.core_of_isLeaf h
  cases e with
  | paren | junction | negation | chain => cases h
  | unit inner =>
    simp [ofExpr, Expr.strip, Expr.core, Expr.Statable, bind, Except.bind]
  | compare left op spelling right =>
    rw [ofExpr_isOk_iff hcore (by simp)]
    cases op with
    | order op => simp only [boundOf_compare_isOk_iff, negatedKey, Expr.Statable]; simp
    | membership | identity => simp [boundOf, negatedKey, Expr.Statable]
  | name | number | quoted | member | call | minus | compound =>
    rw [ofExpr_isOk_iff hcore (by simp)]
    simp [boundOf, negatedKey, Expr.Statable]

end Atom

namespace Reading

variable {v : Valuation} {paths : List String} {negate : Bool} {e : Expr}

section Literals

/-- The negation of a leaf is the other constant for a constant, and else the atom of its opposite. -/
theorem negatedAtom_cases (paths : List String) (h : e.isLeaf = true)
    (hunit : ∀ inner, e ≠ .unit inner) :
    (e = .name "True" ∧ negatedAtom e paths = Atom.ofExpr (.name "False") []) ∨
      (e = .name "False" ∧ negatedAtom e paths = Atom.ofExpr (.name "True") []) ∨
      negatedAtom e paths = Atom.ofExpr e.opposite paths := by
  have hcore := Expr.core_of_isLeaf h
  have hstrip : e.strip = .ok e :=
    Expr.strip_eq_ok_iff.mpr ⟨hcore.symm, fun inner heq => hunit inner (hcore ▸ heq)⟩
  unfold negatedAtom
  simp only [hstrip, bind, Except.bind]
  split
  case h_1 => exact .inr (.inr rfl)
  case h_2 => exact .inl ⟨rfl, rfl⟩
  case h_3 => exact .inr (.inl ⟨rfl, rfl⟩)
  case h_4 hcompare _ _ =>
    refine .inr (.inr ?_)
    cases e with
    | compare left op spelling right => exact absurd rfl (hcompare left op spelling right)
    | _ => rfl

/-- The opposite of a leaf is an atom exactly if the leaf can be one. -/
theorem opposite_isOk_iff (h : e.isLeaf = true) (hunit : ∀ inner, e ≠ .unit inner) :
    (∃ a, Atom.ofExpr e.opposite paths = .ok a) ↔ e.Statable := by
  have hcore := Expr.core_of_isLeaf h
  have hstrip : e.strip = .ok e :=
    Expr.strip_eq_ok_iff.mpr ⟨hcore.symm, fun inner heq => hunit inner (hcore ▸ heq)⟩
  have hnegation : ∃ a, Atom.ofExpr (.negation " " e) paths = .ok a := by
    refine (Atom.ofExpr_isOk_iff rfl (by simp)).mpr ⟨⟨none, rfl⟩, ?_⟩
    exact Outcome.exists_bind_eq_ok (Atom.strippedKey_isOk ⟨e, hstrip⟩) fun _ _ => ⟨_, rfl⟩
  cases e with
  | paren | junction | negation | chain => cases h
  | unit inner => exact absurd rfl (hunit inner)
  | compare left op spelling right =>
    -- the flipped operator compares the same operands
    rw [Expr.opposite, Atom.ofExpr_leaf_isOk_iff rfl]
    cases op <;> rfl
  | name | number | quoted | member | call | minus | compound =>
    exact iff_of_true hnegation trivial

/-- The negation of a leaf is an atom exactly if the leaf can be one. -/
theorem negatedAtom_isOk_iff (h : e.isLeaf = true) :
    (∃ a, negatedAtom e paths = .ok a) ↔ e.Statable := by
  by_cases hunit : ∃ inner, e = .unit inner
  · obtain ⟨inner, rfl⟩ := hunit
    simp [negatedAtom, Expr.strip, Expr.core, Expr.Statable, bind, Except.bind]
  · have hconstant : ∀ id, ∃ a, Atom.ofExpr (.name id) [] = .ok a := fun id =>
      (Atom.ofExpr_leaf_isOk_iff rfl).mpr trivial
    rcases negatedAtom_cases paths h (not_exists.mp hunit) with ⟨rfl, heq⟩ | ⟨rfl, heq⟩ | heq
    · rw [heq]
      exact iff_of_true (hconstant _) trivial
    · rw [heq]
      exact iff_of_true (hconstant _) trivial
    · rw [heq]
      exact opposite_isOk_iff h (not_exists.mp hunit)

/-- The negation of a leaf is true exactly if the leaf is not. -/
theorem truth_negatedAtom {a : Atom} (h : e.isLeaf = true) (hr : e.Respects v.truth)
    (ha : negatedAtom e paths = .ok a) : v.truth a.key = !v.truth e.key := by
  have hunit : ∀ inner, e ≠ .unit inner := by
    rintro inner rfl
    exact (negatedAtom_isOk_iff h).mp ⟨a, ha⟩
  have htrue : (Expr.name "True").core.key = "True" := by decide +kernel
  have hfalse : (Expr.name "False").core.key = "False" := by decide +kernel
  have hcore := Expr.core_of_isLeaf h
  rcases negatedAtom_cases paths h hunit with ⟨rfl, heq⟩ | ⟨rfl, heq⟩ | heq
  · rw [Atom.key_of_ofExpr (heq ▸ ha), ← hcore, hfalse, htrue, hr.false_key, hr.true_key]
    rfl
  · rw [Atom.key_of_ofExpr (heq ▸ ha), ← hcore, hfalse, htrue, hr.false_key, hr.true_key]
    rfl
  · have hopposite : e.opposite.core = e.opposite := by cases e <;> rfl
    rw [Atom.key_of_ofExpr (heq ▸ ha), hopposite]
    exact hr.opposite e (by simp [Expr.leaves_of_isLeaf h])

/-- The atom of a leaf, or of its negation. -/
def literal (paths : List String) (negate : Bool) (leaf : Expr) : Except PredicateError Atom :=
  if negate then negatedAtom leaf paths else Atom.ofExpr leaf paths

theorem literal_isOk_iff (h : e.isLeaf = true) :
    (∃ a, literal paths negate e = .ok a) ↔ e.Statable := by
  cases negate with
  | true => exact negatedAtom_isOk_iff h
  | false => exact Atom.ofExpr_leaf_isOk_iff h

theorem truth_literal {a : Atom} (h : e.isLeaf = true) (hr : e.Respects v.truth)
    (ha : literal paths negate e = .ok a) : v.truth a.key = true ↔ v.truth e.key = !negate := by
  cases negate with
  | true =>
    rw [truth_negatedAtom h hr ha]
    simp
  | false =>
    rw [Atom.key_of_ofExpr ha, Expr.core_of_isLeaf h]
    simp

end Literals

section Products

/-- A product holds exactly if both factors do. -/
theorem exists_holds_product {left right : List Conjunction} :
    (∃ atoms ∈ product left right, atoms.Holds v) ↔
      (∃ atoms ∈ left, atoms.Holds v) ∧ ∃ atoms ∈ right, atoms.Holds v := by
  simp only [product, List.mem_flatMap, List.mem_map]
  constructor
  · rintro ⟨_, ⟨a, ha, b, hb, rfl⟩, hholds⟩
    have hboth := Conjunction.holds_append.mp (Conjunction.holds_dedupe.mp hholds)
    exact ⟨⟨a, ha, hboth.1⟩, ⟨b, hb, hboth.2⟩⟩
  · rintro ⟨⟨a, ha, hholdsA⟩, ⟨b, hb, hholdsB⟩⟩
    refine ⟨_, ⟨a, ha, b, hb, rfl⟩, Conjunction.holds_dedupe.mpr ?_⟩
    exact Conjunction.holds_append.mpr ⟨hholdsA, hholdsB⟩

theorem product_ne_nil {left right : List Conjunction} (hl : left ≠ []) (hr : right ≠ []) :
    product left right ≠ [] := by
  obtain ⟨a, ha⟩ := List.exists_mem_of_ne_nil left hl
  obtain ⟨b, hb⟩ := List.exists_mem_of_ne_nil right hr
  have hmem : Conjunction.dedupe (a ++ b) ∈ product left right :=
    List.mem_flatMap.mpr ⟨a, ha, List.mem_map.mpr ⟨b, hb, rfl⟩⟩
  exact List.ne_nil_of_mem hmem

/-- The product of forms holds exactly if each of them does. -/
theorem exists_holds_foldl_product {forms : List (List Conjunction)} {start : List Conjunction} :
    (∃ atoms ∈ forms.foldl product start, atoms.Holds v) ↔
      (∃ atoms ∈ start, atoms.Holds v) ∧ ∀ form ∈ forms, ∃ atoms ∈ form, atoms.Holds v := by
  induction forms generalizing start with
  | nil => simp
  | cons form rest ih =>
    rw [List.foldl_cons, ih, exists_holds_product, List.forall_mem_cons, and_assoc]

theorem foldl_product_ne_nil {forms : List (List Conjunction)} {start : List Conjunction}
    (hs : start ≠ []) (hf : ∀ form ∈ forms, form ≠ []) : forms.foldl product start ≠ [] := by
  induction forms generalizing start with
  | nil => exact hs
  | cons form rest ih =>
    have hboth := List.forall_mem_cons.mp hf
    exact ih (product_ne_nil hs hboth.1) hboth.2

end Products

section Forms

variable {form : List Conjunction}

theorem dnf_of_isLeaf (h : e.isLeaf = true) :
    dnf paths negate e = literal paths negate e >>= fun a => .ok [[a]] := by
  cases e with
  | paren | junction | negation | chain => cases h
  | _ => cases negate <;> rfl

/-- A chain of comparisons is one conjunction of its links; negated, it is an alternative for each. -/
theorem dnf_chain {left rest : Expr} {op : Relation} {spelling : String} :
    dnf paths negate (.chain left op spelling rest) =
      if negate then (links (.chain left op spelling rest)).mapM fun link =>
        literal paths negate link >>= fun a => .ok [a]
      else (links (.chain left op spelling rest)).mapM (literal paths negate) >>= fun atoms =>
        .ok [atoms] := by
  cases negate <;> rfl

/-- The links of a chain, plain or negated, say what the chain says. -/
theorem exists_holds_dnf_chain {left rest : Expr} {op : Relation} {spelling : String}
    (hr : (Expr.chain left op spelling rest).Respects v.truth)
    (h : dnf paths negate (.chain left op spelling rest) = .ok form) :
    (∃ atoms ∈ form, atoms.Holds v) ↔
      (Expr.chain left op spelling rest).meaning v.truth = !negate := by
  have hlink : ∀ link ∈ links (.chain left op spelling rest), ∀ a,
      literal paths negate link = .ok a → (v.truth a.key = true ↔ v.truth link.key = !negate) := by
    intro link hmem a ha
    have hleaf := Expr.isLeaf_of_mem_links hmem
    refine truth_literal hleaf (hr.of_subset ?_) ha
    rw [Expr.leaves_of_isLeaf hleaf, Expr.leaves]
    exact List.cons_subset.mpr ⟨hmem, List.nil_subset _⟩
  rw [dnf_chain] at h
  rw [Expr.meaning]
  cases negate with
  | true =>
    have hall := Outcome.mapM_eq_ok_iff.mp h
    have hfalse : (Expr.chain left op spelling rest).linksTrue v.truth = false ↔
        ∃ link ∈ links (.chain left op spelling rest), v.truth link.key = false := by
      rw [← Bool.not_eq_true, Expr.linksTrue_iff]
      simp
    have hone : ∀ link ∈ links (.chain left op spelling rest), ∀ atoms,
        (literal paths true link >>= fun a => .ok [a]) = .ok atoms →
          (Conjunction.Holds v atoms ↔ v.truth link.key = false) := by
      intro link hmem atoms hread
      obtain ⟨a, ha, hatoms⟩ := Outcome.bind_eq_ok_iff.mp hread
      cases hatoms
      simpa [Conjunction.Holds] using hlink link hmem a ha
    rw [Bool.not_true, hfalse]
    constructor
    · rintro ⟨atoms, hatoms, hholds⟩
      obtain ⟨link, hmem, hread⟩ := exists_left_of_forall₂ hall hatoms
      exact ⟨link, hmem, (hone link hmem atoms hread).mp hholds⟩
    · rintro ⟨link, hmem, hkey⟩
      obtain ⟨atoms, hatoms, hread⟩ := exists_right_of_forall₂ hall hmem
      exact ⟨atoms, hatoms, (hone link hmem atoms hread).mpr hkey⟩
  | false =>
    obtain ⟨atoms, hatoms, h⟩ := Outcome.bind_eq_ok_iff.mp h
    cases h
    have hall := Outcome.mapM_eq_ok_iff.mp hatoms
    rw [Bool.not_false, Expr.linksTrue_iff]
    simp only [List.mem_singleton, exists_eq_left]
    constructor
    · intro hholds link hmem
      obtain ⟨a, ha, hread⟩ := exists_right_of_forall₂ hall hmem
      exact (hlink link hmem a hread).mp (hholds a ha)
    · intro htrue a ha
      obtain ⟨link, hmem, hread⟩ := exists_left_of_forall₂ hall ha
      exact (hlink link hmem a hread).mpr (htrue link hmem)

theorem isLeaf_of_not_connected (hparen : ∀ lead body trail, e = .paren lead body trail → False)
    (hjunction : ∀ left op spelling right, e = .junction left op spelling right → False)
    (hnegation : ∀ gap operand, e = .negation gap operand → False)
    (hchain : ∀ left op spelling rest, e = .chain left op spelling rest → False) :
    e.isLeaf = true := by
  cases e with
  | paren lead body trail => exact (hparen lead body trail rfl).elim
  | junction left op spelling right => exact (hjunction left op spelling right rfl).elim
  | negation gap operand => exact (hnegation gap operand rfl).elim
  | chain left op spelling rest => exact (hchain left op spelling rest rfl).elim
  | _ => rfl

theorem isLeaf_of_mem_leaves {leaf : Expr} (h : leaf ∈ e.leaves) : leaf.isLeaf = true := by
  induction e using Expr.leaves.induct with
  | case1 lead body trail ih => exact ih h
  | case2 left op spelling right ihLeft ihRight =>
    rcases List.mem_append.mp h with h | h
    · exact ihLeft h
    · exact ihRight h
  | case3 gap operand ih => exact ih h
  | case4 left op spelling rest => exact Expr.isLeaf_of_mem_links h
  | case5 e hparen hjunction hnegation hchain =>
    have hleaf := isLeaf_of_not_connected hparen hjunction hnegation hchain
    rw [Expr.leaves_of_isLeaf hleaf] at h
    rw [List.mem_singleton.mp h]
    exact hleaf

/-- Induction along the connectives and negations of an expression. -/
@[elab_as_elim]
theorem conditionInduction {motive : Bool → Expr → Prop}
    (paren : ∀ negate lead body trail, motive negate body → motive negate (.paren lead body trail))
    (junction : ∀ negate left op spelling right, motive negate left → motive negate right →
      motive negate (.junction left op spelling right))
    (negation : ∀ negate gap operand, motive (!negate) operand → motive negate (.negation gap operand))
    (chain : ∀ negate left op spelling rest, motive negate (.chain left op spelling rest))
    (leaf : ∀ negate e, e.isLeaf = true → motive negate e) (negate : Bool) (e : Expr) :
    motive negate e := by
  induction negate, e using dnf.induct with
  | case1 negate lead body trail ih => exact paren negate lead body trail ih
  | case2 negate left op spelling right ihLeft ihRight =>
    exact junction negate left op spelling right ihLeft ihRight
  | case3 negate gap operand ih => exact negation negate gap operand ih
  | case4 left op spelling rest => exact chain true left op spelling rest
  | case5 negate left op spelling rest _ => exact chain negate left op spelling rest
  | case6 e hparen hjunction hnegation hchain =>
    exact leaf true e (isLeaf_of_not_connected hparen hjunction hnegation hchain)
  | case7 negate e hparen hjunction hnegation hchain _ =>
    exact leaf negate e (isLeaf_of_not_connected hparen hjunction hnegation hchain)

/-- The normal form of an expression has an alternative. -/
theorem dnf_ne_nil (h : dnf paths negate e = .ok form) : form ≠ [] := by
  induction negate, e using conditionInduction generalizing form with
  | paren negate lead body trail ih => exact ih h
  | negation negate gap operand ih => exact ih h
  | junction negate left op spelling right ihLeft ihRight =>
    obtain ⟨leftForm, hleft, h⟩ := Outcome.bind_eq_ok_iff.mp h
    obtain ⟨rightForm, hright, h⟩ := Outcome.bind_eq_ok_iff.mp h
    split at h
    · cases h
      exact product_ne_nil (ihLeft hleft) (ihRight hright)
    · cases h
      exact List.append_ne_nil_of_left_ne_nil (ihLeft hleft) rightForm
  | chain negate left op spelling rest =>
    rw [dnf_chain] at h
    split at h
    · have hlength := (Outcome.mapM_eq_ok_iff.mp h).length_eq
      rintro rfl
      simp [links] at hlength
    · obtain ⟨atoms, -, h⟩ := Outcome.bind_eq_ok_iff.mp h
      cases h
      exact List.cons_ne_nil _ _
  | leaf negate e hleaf =>
    rw [dnf_of_isLeaf hleaf] at h
    obtain ⟨a, -, h⟩ := Outcome.bind_eq_ok_iff.mp h
    cases h
    exact List.cons_ne_nil _ _

/-- The normal form of an expression holds exactly if the expression is true, that of its negation exactly if
it is false. -/
theorem exists_holds_dnf (hr : e.Respects v.truth) (h : dnf paths negate e = .ok form) :
    (∃ atoms ∈ form, atoms.Holds v) ↔ e.meaning v.truth = !negate := by
  induction negate, e using conditionInduction generalizing form with
  | paren negate lead body trail ih => exact ih (hr.of_subset (List.Subset.refl _)) h
  | negation negate gap operand ih =>
    rw [ih (hr.of_subset (List.Subset.refl _)) h, Expr.meaning]
    cases operand.meaning v.truth <;> simp
  | junction negate left op spelling right ihLeft ihRight =>
    obtain ⟨leftForm, hleft, h⟩ := Outcome.bind_eq_ok_iff.mp h
    obtain ⟨rightForm, hright, h⟩ := Outcome.bind_eq_ok_iff.mp h
    have hrLeft : left.Respects v.truth := hr.of_subset (List.subset_append_left _ _)
    have hrRight : right.Respects v.truth := hr.of_subset (List.subset_append_right _ _)
    have hiffLeft := ihLeft hrLeft hleft
    have hiffRight := ihRight hrRight hright
    -- De Morgan: a negated conjunction is the union of the forms, a negated disjunction their product
    cases op <;> cases negate <;> cases h <;>
      simp only [exists_holds_product, List.mem_append, or_and_right, exists_or, hiffLeft, hiffRight,
        Expr.meaning, Bool.not_false, Bool.not_true, Bool.and_eq_true, Bool.or_eq_true,
        Bool.and_eq_false_iff, Bool.or_eq_false_iff]
  | chain negate left op spelling rest => exact exists_holds_dnf_chain hr h
  | leaf negate e hleaf =>
    rw [dnf_of_isLeaf hleaf] at h
    obtain ⟨a, ha, h⟩ := Outcome.bind_eq_ok_iff.mp h
    cases h
    rw [Expr.meaning_of_isLeaf hleaf, ← truth_literal hleaf hr ha]
    simp [Conjunction.Holds]

/-- What all atoms of two forms satisfy, those of their product do. -/
theorem forall_mem_product {left right : List Conjunction} {P : Atom → Prop}
    (hl : ∀ atoms ∈ left, ∀ a ∈ atoms, P a) (hr : ∀ atoms ∈ right, ∀ a ∈ atoms, P a) :
    ∀ atoms ∈ product left right, ∀ a ∈ atoms, P a := by
  intro atoms hatoms a ha
  obtain ⟨x, hx, hatoms⟩ := List.mem_flatMap.mp hatoms
  obtain ⟨y, hy, rfl⟩ := List.mem_map.mp hatoms
  rcases List.mem_append.mp (Conjunction.dedupe_subset _ ha) with ha | ha
  · exact hl x hx a ha
  · exact hr y hy a ha

theorem forall_mem_foldl_product {forms : List (List Conjunction)} {start : List Conjunction}
    {P : Atom → Prop} (hs : ∀ atoms ∈ start, ∀ a ∈ atoms, P a)
    (hf : ∀ form ∈ forms, ∀ atoms ∈ form, ∀ a ∈ atoms, P a) :
    ∀ atoms ∈ forms.foldl product start, ∀ a ∈ atoms, P a := by
  induction forms generalizing start with
  | nil => exact hs
  | cons form rest ih =>
    have hboth := List.forall_mem_cons.mp hf
    exact ih (forall_mem_product hs hboth.1) hboth.2

/-- What the atoms of all leaves satisfy, plain or negated, those of the normal form do. -/
theorem forall_mem_dnf {P : Atom → Prop} (h : dnf paths negate e = .ok form)
    (hP : ∀ leaf ∈ e.leaves, ∀ negate a, literal paths negate leaf = .ok a → P a) :
    ∀ atoms ∈ form, ∀ a ∈ atoms, P a := by
  induction negate, e using conditionInduction generalizing form with
  | paren negate lead body trail ih => exact ih h hP
  | negation negate gap operand ih => exact ih h hP
  | junction negate left op spelling right ihLeft ihRight =>
    obtain ⟨leftForm, hleft, h⟩ := Outcome.bind_eq_ok_iff.mp h
    obtain ⟨rightForm, hright, h⟩ := Outcome.bind_eq_ok_iff.mp h
    have hatomsLeft := ihLeft hleft fun leaf hleaf => hP leaf (List.mem_append_left _ hleaf)
    have hatomsRight := ihRight hright fun leaf hleaf => hP leaf (List.mem_append_right _ hleaf)
    split at h
    · cases h
      exact forall_mem_product hatomsLeft hatomsRight
    · cases h
      exact List.forall_mem_append.mpr ⟨hatomsLeft, hatomsRight⟩
  | chain negate left op spelling rest =>
    rw [dnf_chain] at h
    split at h
    · intro atoms hatoms a ha
      obtain ⟨link, hlink, hread⟩ := exists_left_of_forall₂ (Outcome.mapM_eq_ok_iff.mp h) hatoms
      obtain ⟨b, hb, heq⟩ := Outcome.bind_eq_ok_iff.mp hread
      cases heq
      rw [List.mem_singleton.mp ha]
      exact hP link hlink negate b hb
    · obtain ⟨read, hread, h⟩ := Outcome.bind_eq_ok_iff.mp h
      cases h
      intro atoms hatoms a ha
      rw [List.mem_singleton.mp hatoms] at ha
      obtain ⟨link, hlink, hatom⟩ := exists_left_of_forall₂ (Outcome.mapM_eq_ok_iff.mp hread) ha
      exact hP link hlink negate a hatom
  | leaf negate e hleaf =>
    rw [dnf_of_isLeaf hleaf] at h
    obtain ⟨b, hb, h⟩ := Outcome.bind_eq_ok_iff.mp h
    cases h
    intro atoms hatoms a ha
    rw [List.mem_singleton.mp hatoms] at ha
    rw [List.mem_singleton.mp ha]
    exact hP e (by simp [Expr.leaves_of_isLeaf hleaf]) negate b hb

/-- A chain, plain or negated, has a normal form exactly if each of its links can be an atom. -/
theorem dnf_chain_isOk_iff {left rest : Expr} {op : Relation} {spelling : String} :
    (∃ form, dnf paths negate (.chain left op spelling rest) = .ok form) ↔
      ∀ link ∈ links (.chain left op spelling rest), link.Statable := by
  have hlink : ∀ link ∈ links (.chain left op spelling rest),
      ((∃ a, literal paths negate link = .ok a) ↔ link.Statable) :=
    fun link hmem => literal_isOk_iff (Expr.isLeaf_of_mem_links hmem)
  rw [dnf_chain]
  constructor
  · rintro ⟨form, h⟩ link hmem
    rw [← hlink link hmem]
    split at h
    · obtain ⟨atoms, -, hread⟩ := exists_right_of_forall₂ (Outcome.mapM_eq_ok_iff.mp h) hmem
      obtain ⟨a, ha, -⟩ := Outcome.bind_eq_ok_iff.mp hread
      exact ⟨a, ha⟩
    · obtain ⟨atoms, hatoms, -⟩ := Outcome.bind_eq_ok_iff.mp h
      obtain ⟨a, -, ha⟩ := exists_right_of_forall₂ (Outcome.mapM_eq_ok_iff.mp hatoms) hmem
      exact ⟨a, ha⟩
  · intro hstatable
    have hread := fun link hmem => (hlink link hmem).mpr (hstatable link hmem)
    split
    · exact Outcome.exists_mapM_eq_ok fun link hmem =>
        Outcome.exists_bind_eq_ok (hread link hmem) fun a _ => ⟨[a], rfl⟩
    · exact Outcome.exists_bind_eq_ok (Outcome.exists_mapM_eq_ok hread) fun atoms _ => ⟨[atoms], rfl⟩

/-- An expression has a normal form exactly if each of its leaves can be an atom. -/
theorem dnf_isOk_iff :
    (∃ form, dnf paths negate e = .ok form) ↔ ∀ leaf ∈ e.leaves, leaf.Statable := by
  induction negate, e using conditionInduction with
  | paren negate lead body trail ih => exact ih
  | negation negate gap operand ih => exact ih
  | junction negate left op spelling right ihLeft ihRight =>
    rw [Expr.leaves, List.forall_mem_append, ← ihLeft, ← ihRight]
    constructor
    · rintro ⟨form, h⟩
      obtain ⟨leftForm, hleft, h⟩ := Outcome.bind_eq_ok_iff.mp h
      obtain ⟨rightForm, hright, -⟩ := Outcome.bind_eq_ok_iff.mp h
      exact ⟨⟨leftForm, hleft⟩, ⟨rightForm, hright⟩⟩
    · rintro ⟨hleft, hright⟩
      refine Outcome.exists_bind_eq_ok hleft fun _ _ => Outcome.exists_bind_eq_ok hright fun _ _ => ?_
      split <;> exact ⟨_, rfl⟩
  | chain negate left op spelling rest => exact dnf_chain_isOk_iff
  | leaf negate e hleaf =>
    have hread : (∃ a, literal paths negate e = .ok a) ↔ e.Statable := literal_isOk_iff hleaf
    rw [Expr.leaves_of_isLeaf hleaf, List.forall_mem_singleton, dnf_of_isLeaf hleaf, ← hread]
    constructor
    · rintro ⟨form, h⟩
      obtain ⟨a, ha, -⟩ := Outcome.bind_eq_ok_iff.mp h
      exact ⟨a, ha⟩
    · intro h
      exact Outcome.exists_bind_eq_ok h fun a _ => ⟨[[a]], rfl⟩

end Forms

end Reading

namespace Reading

variable {v : Valuation} {line : String} {form : List Conjunction}

/-- Whether a line can be brought into normal form: it can be written out if it is an expression, and each of
its leaves can be an atom. -/
def Readable (line : String) : Prop :=
  ∃ read, expression? line.toList = .ok read ∧ ∀ e ∈ read, ∀ leaf ∈ e.leaves, leaf.Statable

/-- The expression that a line is, if it is one that can be written out. -/
def read? (line : String) : Option Expr := (expression? line.toList).toOption.join

/-- The truth of a line: that of its expression, and for prose that of its key. -/
def lineMeaning (truth : String → Bool) (line : String) : Bool :=
  (read? line).elim (truth (Atom.ofProse line.toList).key) fun e => e.meaning truth

/-- The lines that are not blank. -/
def inked (lines : List String) : List String := lines.filter fun line => Text.hasInk line.toList

theorem expression_of_read {e : Expr} (h : read? line = some e) : expression? line.toList = .ok (some e) := by
  unfold read? at h
  cases hread : expression? line.toList with
  | error fault => simp [hread, Except.toOption] at h
  | ok read =>
    rw [hread] at h
    exact congrArg Except.ok h

theorem parseDnf_isOk_iff : (∃ form, parseDnf line = .ok form) ↔ Readable line := by
  constructor
  · rintro ⟨form, h⟩
    obtain ⟨read, hread, h⟩ := Outcome.bind_eq_ok_iff.mp h
    refine ⟨read, hread, ?_⟩
    rintro e rfl
    exact dnf_isOk_iff.mp ⟨form, h⟩
  · rintro ⟨read, hread, hleaves⟩
    refine Outcome.exists_bind_eq_ok ⟨read, hread⟩ fun read' hread' => ?_
    cases hread.symm.trans hread'
    cases read with
    | none => exact ⟨_, rfl⟩
    | some e => exact dnf_isOk_iff.mpr (hleaves e rfl)

theorem parseDnf_of_expression {e : Expr} (h : expression? line.toList = .ok (some e)) :
    parseDnf line = dnf (pathHeads line.toList) false e := by
  unfold parseDnf
  rw [h]
  rfl

/-- Whether a line has a single atom, and that passes a test. -/
def soleAtom (line : String) (test : Atom → Bool) : Bool :=
  (parseDnf line).toOption.any fun form => decide (form.map List.length = [1]) && form.flatten.all test

theorem soleAtom_eq_true_iff {line : String} {test : Atom → Bool} :
    soleAtom line test = true ↔ ∃ a, parseDnf line = .ok [[a]] ∧ test a = true := by
  rw [soleAtom, Outcome.any_toOption_eq_true_iff]
  constructor
  · rintro ⟨form, hform, hcheck⟩
    obtain ⟨hlength, htest⟩ := Bool.and_eq_true_iff.mp hcheck
    obtain ⟨atoms, rfl, hatoms⟩ := List.map_eq_singleton_iff.mp (of_decide_eq_true hlength)
    obtain ⟨a, rfl⟩ := List.length_eq_one_iff.mp hatoms
    exact ⟨a, hform, by simpa using htest⟩
  · rintro ⟨a, hform, htest⟩
    exact ⟨[[a]], hform, by simp [htest]⟩

theorem parseDnf_ne_nil (h : parseDnf line = .ok form) : form ≠ [] := by
  obtain ⟨read, -, h⟩ := Outcome.bind_eq_ok_iff.mp h
  cases read with
  | none =>
    cases h
    exact List.cons_ne_nil _ _
  | some e => exact dnf_ne_nil h

/-- What prose and the atoms of all leaves satisfy, the atoms of a line do. -/
theorem forall_mem_parseDnf {P : Atom → Prop} (h : parseDnf line = .ok form)
    (hprose : P (Atom.ofProse line.toList))
    (hP : ∀ e, expression? line.toList = .ok (some e) → ∀ leaf ∈ e.leaves, ∀ paths negate a,
      literal paths negate leaf = .ok a → P a) :
    ∀ atoms ∈ form, ∀ a ∈ atoms, P a := by
  obtain ⟨read, hread, h⟩ := Outcome.bind_eq_ok_iff.mp h
  cases read with
  | some e => exact forall_mem_dnf h fun leaf hleaf => hP e hread leaf hleaf _
  | none =>
    cases h
    intro atoms hatoms a ha
    rw [List.mem_singleton.mp hatoms] at ha
    rw [List.mem_singleton.mp ha]
    exact hprose

/-- The normal form of a line holds exactly if the line is true. -/
theorem exists_holds_parseDnf (hr : ∀ e ∈ read? line, e.Respects v.truth)
    (h : parseDnf line = .ok form) :
    (∃ atoms ∈ form, atoms.Holds v) ↔ lineMeaning v.truth line = true := by
  obtain ⟨read, hread, h⟩ := Outcome.bind_eq_ok_iff.mp h
  have hline : read? line = read := by
    simp only [read?, hread, Except.toOption, Option.join_some]
  rw [lineMeaning, hline]
  cases read with
  | none =>
    cases h
    simp [Conjunction.Holds]
  | some e => exact exists_holds_dnf (hr e hline) h

end Reading

namespace Condition

variable {v : Valuation}

/-- The conjunction of forms holds exactly if each form does. -/
theorem holds_ofForms_iff {forms : List (List Conjunction)} (hforms : ∀ form ∈ forms, form ≠ []) :
    (ofForms forms).Holds v ↔ ∀ form ∈ forms, ∃ atoms ∈ form, atoms.Holds v := by
  unfold ofForms
  split
  case isTrue hempty =>
    rw [List.isEmpty_iff.mp hempty]
    exact iff_of_true (.inl rfl) (by simp)
  case isFalse =>
    have hne : forms.foldl Reading.product [[]] ≠ [] :=
      Reading.foldl_product_ne_nil (List.cons_ne_nil _ _) hforms
    rw [holds_build_iff, or_iff_right hne, Reading.exists_holds_foldl_product]
    simp [Conjunction.Holds]

/-- What the atoms of all lines satisfy, those of their condition do. -/
theorem forall_mem_ofLines {lines : List String} {c : Condition} {P : Atom → Prop} (h : ofLines lines = .ok c)
    (hP : ∀ line form, Reading.parseDnf line = .ok form → ∀ atoms ∈ form, ∀ a ∈ atoms, P a) :
    ∀ a ∈ c.alternatives.flatten, P a := by
  obtain ⟨forms, hforms, h⟩ := Outcome.bind_eq_ok_iff.mp h
  cases h
  intro a ha
  obtain ⟨atoms, hatoms, ha⟩ := List.mem_flatten.mp ha
  unfold ofForms at hatoms
  split at hatoms
  · cases hatoms
  · obtain ⟨given, hgiven, rfl⟩ := exists_of_mem_build hatoms
    refine Reading.forall_mem_foldl_product ?_ (fun form hform => ?_) given hgiven a
      (Conjunction.dedupe_subset _ ha)
    · simp
    · obtain ⟨line, -, hline⟩ := exists_left_of_forall₂ (Outcome.mapM_eq_ok_iff.mp hforms) hform
      exact hP line form hline

/-- Requirement lines make a condition exactly if each line that is not blank can be brought into normal form,
and wherever a truth assignment takes opposites to opposites, the condition holds exactly if each of these
lines is true. -/
theorem ofLines_preserves_meaning (lines : List String) (v : Valuation)
    (hr : ∀ line ∈ Reading.inked lines, ∀ e ∈ Reading.read? line, e.Respects v.truth) :
    ((∃ c, ofLines lines = .ok c) ↔ ∀ line ∈ Reading.inked lines, Reading.Readable line) ∧
      ∀ c, ofLines lines = .ok c →
        (c.Holds v ↔ ∀ line ∈ Reading.inked lines, Reading.lineMeaning v.truth line = true) := by
  constructor
  · constructor
    · rintro ⟨c, h⟩ line hline
      obtain ⟨forms, hforms, -⟩ := Outcome.bind_eq_ok_iff.mp h
      obtain ⟨form, -, hform⟩ := exists_right_of_forall₂ (Outcome.mapM_eq_ok_iff.mp hforms) hline
      exact Reading.parseDnf_isOk_iff.mp ⟨form, hform⟩
    · intro hreadable
      have hforms := Outcome.exists_mapM_eq_ok fun line hline =>
        Reading.parseDnf_isOk_iff.mpr (hreadable line hline)
      exact Outcome.exists_bind_eq_ok hforms fun forms _ => ⟨ofForms forms, rfl⟩
  · intro c h
    obtain ⟨forms, hforms, hc⟩ := Outcome.bind_eq_ok_iff.mp h
    cases hc
    have hall := Outcome.mapM_eq_ok_iff.mp hforms
    have hne : ∀ form ∈ forms, form ≠ [] := by
      intro form hform
      obtain ⟨line, -, hread⟩ := exists_left_of_forall₂ hall hform
      exact Reading.parseDnf_ne_nil hread
    rw [holds_ofForms_iff hne]
    constructor
    · intro hholds line hline
      obtain ⟨form, hform, hread⟩ := exists_right_of_forall₂ hall hline
      exact (Reading.exists_holds_parseDnf (hr line hline) hread).mp (hholds form hform)
    · intro htrue form hform
      obtain ⟨line, hline, hread⟩ := exists_left_of_forall₂ hall hform
      exact (Reading.exists_holds_parseDnf (hr line hline) hread).mpr (htrue line hline)

/-- A negated disjunction with a chain in it, a blank line and a line of prose. -/
def lockedWindow : List String :=
  ["not (a < b < 3 or ok(p))", "  ", "the caller holds the lock"]

/-- An assignment under which only the first link of the chain fails. -/
def lockedValuation : Valuation where
  truth key :=
    ["True", "a > = b", "b < 3", "not ok ( p )", "prose: the caller holds the lock"].contains key
  number _ := 0

theorem lockedWindow_holds :
    (∀ line ∈ Reading.inked lockedWindow, ∀ e ∈ Reading.read? line,
      e.Respects lockedValuation.truth) ∧
    ∃ c, ofLines lockedWindow = .ok c ∧ c.Holds lockedValuation := by
  have hr : ∀ line ∈ Reading.inked lockedWindow, ∀ e ∈ Reading.read? line,
      e.Respects lockedValuation.truth := by decide +kernel
  have htrue : ∀ line ∈ Reading.inked lockedWindow,
      Reading.lineMeaning lockedValuation.truth line = true := by decide +kernel
  have hok : (ofLines lockedWindow).isOk = true := by decide +kernel
  refine ⟨hr, ?_⟩
  cases hc : ofLines lockedWindow with
  | ok c => exact ⟨c, rfl, ((ofLines_preserves_meaning lockedWindow lockedValuation hr).2 c hc).mpr htrue⟩
  | error e => simp [hc, Except.isOk, Except.toBool] at hok

end Condition

end CrateSafety
