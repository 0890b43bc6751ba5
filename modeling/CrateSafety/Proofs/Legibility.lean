import CrateSafety.Proofs.LineMeaning
import CrateSafety.Obligation.Edge

/-!
# Legible texts

Which texts can be read, said of the expressions that they are: an expression has to be one that can be
written out, and an atom must not be the empty tuple or compare with a number out of range. The clauses of a
justification and the texts that stand for names are subject to the same two conditions, and the templates
of primitive operations can always be filled.
-/

namespace CrateSafety

namespace Expr

/-- Whether an expression can be an atom when its parentheses are taken off: numbers that it compares with are
in range, and neither it nor what it negates is the empty tuple. -/
def IsAtomic (e : Expr) : Prop :=
  match e.core with
  | compare left (.order _) _ right =>
    (∃ value, left.numeric? = .ok value) ∧ ∃ value, right.numeric? = .ok value
  | negation _ operand => ∀ inner, operand.core ≠ unit inner
  | unit _ => False
  | _ => True

theorem checked_eq_ok_iff {e written : Expr} :
    e.checked = .ok written ↔ e.fault? = none ∧ written = e := by
  unfold checked
  cases e.fault? with
  | some error => simp
  | none => simp [eq_comm]

theorem core_core : ∀ e : Expr, e.core.core = e.core
  | paren _ body _ => by
    rw [core]
    exact core_core body
  | name _ | number _ _ | quoted _ | unit _ | member _ _ _ | call _ _ | minus _ _ | negation _ _ => rfl
  | junction _ _ _ _ | compare _ _ _ _ | chain _ _ _ _ | compound _ _ => rfl

/-- Parentheses hide no leaf. -/
theorem leaves_core : ∀ e : Expr, e.core.leaves = e.leaves
  | paren _ body _ => by
    rw [core, leaves]
    exact leaves_core body
  | name _ | number _ _ | quoted _ | unit _ | member _ _ _ | call _ _ | minus _ _ | negation _ _ => rfl
  | junction _ _ _ _ | compare _ _ _ _ | chain _ _ _ _ | compound _ _ => rfl

theorem leaves_of_core_unit {e : Expr} {inner : String} (h : e.core = unit inner) :
    e.leaves = [unit inner] := by
  rw [← leaves_core, h]
  rfl

/-- An expression whose leaves can be atoms can be one itself. -/
theorem isAtomic_of_leaves {e : Expr} (h : ∀ leaf ∈ e.leaves, leaf.Statable) : e.IsAtomic := by
  rw [← leaves_core] at h
  unfold IsAtomic
  split
  case h_1 left op spelling right hcore =>
    rw [hcore] at h
    exact h _ (List.mem_singleton_self _)
  case h_2 gap operand hcore =>
    intro inner hinner
    rw [hcore, leaves, leaves_of_core_unit hinner] at h
    exact h _ (List.mem_singleton_self _)
  case h_3 inner hcore =>
    rw [hcore] at h
    exact h _ (List.mem_singleton_self _)
  case h_4 => trivial

end Expr

namespace Atom

variable {a : Atom} {r : Renaming}

theorem ofExpr_core (e : Expr) (paths : List String) : ofExpr e.core paths = ofExpr e paths := by
  unfold ofExpr Expr.strip
  rw [Expr.core_core]

theorem strippedKey_isOk_iff {e : Expr} :
    (∃ key, strippedKey e = .ok key) ↔ ∀ inner, e.core ≠ .unit inner := by
  constructor
  · rintro ⟨key, h⟩
    obtain ⟨node, hnode, -⟩ := Outcome.bind_eq_ok_iff.mp h
    exact (Expr.strip_eq_ok_iff.mp hnode).2
  · intro hunit
    exact strippedKey_isOk ⟨e.core, Expr.strip_eq_ok_iff.mpr ⟨rfl, hunit⟩⟩

/-- An expression is an atom exactly if it can be one when its parentheses are taken off. -/
theorem ofExpr_isOk_iff_isAtomic {e : Expr} {paths : List String} :
    (∃ a, ofExpr e paths = .ok a) ↔ e.IsAtomic := by
  have hcore := Expr.core_core e
  rw [← ofExpr_core]
  unfold Expr.IsAtomic
  split
  case h_1 left op spelling right heq =>
    rw [heq] at hcore ⊢
    exact ofExpr_leaf_isOk_iff rfl
  case h_2 gap operand heq =>
    rw [heq] at hcore ⊢
    rw [ofExpr_isOk_iff hcore (by simp), ← strippedKey_isOk_iff]
    have hnegates : (∃ negates, negatedKey (.negation gap operand) = .ok negates) ↔
        ∃ key, strippedKey operand = .ok key := by
      exact Outcome.bind_ok_isOk_iff
    rw [hnegates]
    exact and_iff_right ⟨none, rfl⟩
  case h_3 inner heq =>
    rw [heq]
    exact ofExpr_leaf_isOk_iff rfl
  case h_4 hcompare hnegation hunit =>
    have hbound : boundOf e.core = .ok none := by
      unfold boundOf
      split
      case h_1 left op spelling right heq => exact absurd heq (hcompare _ _ _ _)
      case h_2 => rfl
    have hnegates : negatedKey e.core = .ok none := by
      unfold negatedKey
      split
      case h_1 gap operand heq => exact absurd heq (hnegation _ _)
      case h_2 => rfl
    rw [ofExpr_isOk_iff hcore hunit]
    exact iff_of_true ⟨⟨none, hbound⟩, ⟨none, hnegates⟩⟩ trivial

/-- The texts for variables that a renaming changes in an atom. -/
def namesIn (a : Atom) (r : Renaming) : List (String × String) :=
  r.names.filter fun (name, text) => a.renameable.contains name && name != text

/-- The texts for members of `self` that a renaming changes in an atom. -/
def membersIn (a : Atom) (r : Renaming) : List (String × String) :=
  r.selfFields.filter fun (name, _) => a.selfMembers.contains name

/-- Whether an atom can be restated: it is prose, nothing of it is renamed, or the texts for its names can be
written out and so can the expression that they make, which is an atom. -/
def Restatable (a : Atom) (r : Renaming) : Prop :=
  ∀ node paths, a.source = .expression node paths → a.namesIn r ≠ [] ∨ a.membersIn r ≠ [] →
    ∃ names members, operands (a.namesIn r) = .ok names ∧ operands (a.membersIn r) = .ok members ∧
      (node.subst ⟨names, members, paths⟩).fault? = none ∧
      (node.subst ⟨names, members, paths⟩).IsAtomic

/-- An atom has a renamed form exactly if it can be restated. -/
theorem rename_isOk_iff : (∃ renamed, a.rename r = .ok renamed) ↔ a.Restatable r := by
  by_cases hempty : ((a.namesIn r).isEmpty && (a.membersIn r).isEmpty) = true
  · have hrename : a.rename r = .ok a := if_pos hempty
    have hnone : a.namesIn r = [] ∧ a.membersIn r = [] := by simpa using hempty
    refine iff_of_true ⟨a, hrename⟩ fun node paths _ hsome => ?_
    simp [hnone] at hsome
  · have hsome : a.namesIn r ≠ [] ∨ a.membersIn r ≠ [] := by
      simpa [← not_and_or] using hempty
    cases hsource : a.source with
    | prose words =>
      have hrename : a.rename r =
          .ok (ofProse (Prose.rename (a.namesIn r) (a.membersIn r) a.text.toList)) := by
        refine (if_neg hempty).trans ?_
        rw [hsource]
        rfl
      refine iff_of_true ⟨_, hrename⟩ fun node paths heq _ => ?_
      rw [hsource] at heq
      cases heq
    | expression node paths =>
      have hrename : a.rename r = operands (a.namesIn r) >>= fun names =>
          operands (a.membersIn r) >>= fun members =>
            (node.subst ⟨names, members, paths⟩).checked >>= fun e => ofExpr e paths := by
        refine (if_neg hempty).trans ?_
        rw [hsource]
        rfl
      simp only [hrename, Outcome.bind_isOk_iff, Expr.checked_eq_ok_iff, ofExpr_isOk_iff_isAtomic]
      constructor
      · rintro ⟨names, hnames, members, hmembers, e, ⟨hfault, rfl⟩, hatomic⟩ node' paths' heq -
        rw [hsource] at heq
        cases heq
        exact ⟨names, members, hnames, hmembers, hfault, hatomic⟩
      · intro h
        obtain ⟨names, members, hnames, hmembers, hfault, hatomic⟩ := h node paths hsource hsome
        exact ⟨names, hnames, members, hmembers, _, ⟨hfault, rfl⟩, hatomic⟩

end Atom

namespace Condition

variable {c : Condition} {r : Renaming}

/-- Whether every atom of a condition can be restated. -/
def Restatable (c : Condition) (r : Renaming) : Prop :=
  ∀ atoms ∈ c.alternatives, ∀ a ∈ atoms, a.Restatable r

theorem rename_isOk_iff : (∃ renamed, c.rename r = .ok renamed) ↔ c.Restatable r := by
  unfold rename
  split
  case isTrue hempty =>
    have hnone : c.alternatives = [] := List.isEmpty_iff.mp hempty
    refine iff_of_true ⟨c, rfl⟩ fun atoms hatoms => ?_
    rw [hnone] at hatoms
    cases hatoms
  case isFalse =>
    have hatoms : (∃ alternatives, (c.alternatives.mapM fun atoms => atoms.mapM (·.rename r)) =
        .ok alternatives) ↔ c.Restatable r := by
      simp only [Outcome.mapM_isOk_iff, Atom.rename_isOk_iff, Restatable]
    rw [← hatoms]
    exact Outcome.bind_ok_isOk_iff

/-- A condition has a form in the terms of a caller exactly if its atoms can be restated. -/
theorem ofRenaming_isOk_iff : (∃ t, CallerTerms.ofRenaming c r = .ok t) ↔ c.Restatable r := by
  have hatom : ∀ a : Atom, (∃ pair, (a.rename r >>= fun renamed => .ok (a, renamed)) = .ok pair) ↔
      a.Restatable r := by
    intro a
    rw [← Atom.rename_isOk_iff]
    exact Outcome.bind_ok_isOk_iff
  have hatoms : (∃ alternatives, (c.alternatives.mapM fun atoms => atoms.mapM fun a =>
      a.rename r >>= fun renamed => Except.ok (a, renamed)) = .ok alternatives) ↔ c.Restatable r := by
    simp only [Outcome.mapM_isOk_iff, hatom, Restatable]
  rw [← hatoms]
  exact Outcome.bind_ok_isOk_iff

theorem ofLines_isOk_iff {lines : List String} :
    (∃ c, ofLines lines = .ok c) ↔ ∀ line ∈ Reading.inked lines, Reading.Readable line := by
  simp only [← Reading.parseDnf_isOk_iff, ← Outcome.mapM_isOk_iff]
  exact Outcome.bind_ok_isOk_iff

end Condition

namespace Claim

/-- The clause of a line: without comment marks, the mark of a list item, and blanks around it. -/
def clause (line : List Char) : List Char := Text.trim (dropMarker (dropBullet line))

/-- Whether the claim of a line can be read: its clause can be cut into predicate and reason, and the
predicate can be brought into normal form. -/
def Legible (line : List Char) : Prop :=
  clause line ≠ [] → ∃ parts, split (clause line) = .ok parts ∧
    (parts.1 ≠ [] → Reading.Readable (String.ofList parts.1))

/-- A predicate claims atoms exactly if it can be brought into normal form. -/
theorem claimed_isOk_iff {predicate : List Char} :
    (∃ atoms, claimed predicate = .ok atoms) ↔ Reading.Readable (String.ofList predicate) := by
  constructor
  · rintro ⟨atoms, h⟩
    obtain ⟨form, hform, -⟩ := Outcome.bind_eq_ok_iff.mp h
    exact Reading.parseDnf_isOk_iff.mp ⟨form, hform⟩
  · intro hreadable
    refine Outcome.exists_bind_eq_ok (Reading.parseDnf_isOk_iff.mpr hreadable) fun form _ => ?_
    split
    case h_1 => exact ⟨_, rfl⟩
    case h_2 =>
      -- with several alternatives the predicate is claimed as one atom, which its leaves allow
      obtain ⟨read, hread, hleaves⟩ := hreadable
      rw [String.toList_ofList] at hread
      refine Outcome.exists_bind_eq_ok ⟨read, hread⟩ fun read' hread' => ?_
      cases hread.symm.trans hread'
      cases read with
      | none => exact ⟨_, rfl⟩
      | some e =>
        have hatomic := Expr.isAtomic_of_leaves (hleaves e rfl)
        exact Outcome.exists_bind_eq_ok (Atom.ofExpr_isOk_iff_isAtomic.mpr hatomic) fun _ _ => ⟨_, rfl⟩

theorem ofLine?_isOk_iff {line : List Char} : (∃ claim, ofLine? line = .ok claim) ↔ Legible line := by
  have hline : ofLine? line =
      if (clause line).isEmpty then .ok none
      else split (clause line) >>= fun parts =>
        if parts.1.isEmpty then .ok none
        else claimed parts.1 >>= fun atoms =>
          .ok (some ⟨String.ofList (clause line), atoms, String.ofList parts.2⟩) := rfl
  rw [hline, Legible]
  split
  case isTrue hempty => exact iff_of_true ⟨none, rfl⟩ fun hne => absurd (List.isEmpty_iff.mp hempty) hne
  case isFalse hempty =>
    have hne : clause line ≠ [] := fun heq => hempty (List.isEmpty_iff.mpr heq)
    have hparts : ∀ parts : List Char × List Char,
        (∃ claim, (if parts.1.isEmpty then Except.ok none
          else claimed parts.1 >>= fun atoms =>
            Except.ok (some (⟨String.ofList (clause line), atoms, String.ofList parts.2⟩ : Claim))) =
          .ok claim) ↔ (parts.1 ≠ [] → Reading.Readable (String.ofList parts.1)) := by
      intro parts
      split
      case isTrue hnone =>
        exact iff_of_true ⟨none, rfl⟩ fun hsome => absurd (List.isEmpty_iff.mp hnone) hsome
      case isFalse hsome =>
        have hsome : parts.1 ≠ [] := fun heq => hsome (List.isEmpty_iff.mpr heq)
        rw [Outcome.bind_ok_isOk_iff, claimed_isOk_iff]
        exact (imp_iff_right hsome).symm
    simp only [Outcome.bind_isOk_iff, hparts, ne_eq, hne, not_false_eq_true, forall_const]

end Claim

namespace Justification

/-- The lines of a justification, which are cut at line ends and semicolons. -/
def lines (raw : String) : List (List Char) :=
  Text.splitAt (fun c => c == '\n' || c == ';') (Claim.dropMarker raw.toList)

/-- Whether every claim of a justification can be read. -/
def Legible (raw : Option String) : Prop :=
  ∀ text ∈ raw, Text.hasInk text.toList = true → ∀ line ∈ lines text, Claim.Legible line

theorem parse_isOk_iff {raw : Option String} : (∃ j, parse raw = .ok j) ↔ Legible raw := by
  cases raw with
  | none => exact iff_of_true ⟨none, rfl⟩ fun _ htext => by cases htext
  | some text =>
    have hparse : parse (some text) =
        if !Text.hasInk text.toList then .ok none
        else (lines text).mapM Claim.ofLine? >>= fun claims => .ok (some ⟨text, claims.filterMap id⟩) := rfl
    rw [hparse]
    simp only [Legible, Option.mem_some_iff, forall_eq', ← Claim.ofLine?_isOk_iff, ← Outcome.mapM_isOk_iff]
    cases Text.hasInk text.toList with
    | false => simp
    | true =>
      rw [if_neg (by simp), Outcome.bind_ok_isOk_iff]
      exact (imp_iff_right rfl).symm

end Justification

namespace Template

theorem pieces_append {cs rest : List Char} {n : Nat} (h : ∀ c ∈ cs, c ≠ opening ∧ c ≠ closing) :
    pieces (cs.length + n) (cs ++ rest) = cs.map .literal ++ pieces n rest := by
  induction cs with
  | nil => simp
  | cons c cs ih =>
    obtain ⟨⟨hopening, hclosing⟩, hcs⟩ := List.forall_mem_cons.mp h
    have hlength : (c :: cs).length + n = cs.length + n + 1 := by
      rw [List.length_cons]
      omega
    rw [hlength, List.cons_append]
    simp only [pieces, beq_iff_eq, hopening, hclosing, if_false, ih hcs, List.map_cons, List.cons_append]

theorem render_literals {piece : Piece → Except TemplateError (List Char)}
    (hliteral : ∀ c, piece (.literal c) = .ok [c]) (cs : List Char) {rest : List Piece}
    {text : List Char} (h : render piece rest = .ok text) :
    render piece (cs.map .literal ++ rest) = .ok (cs ++ text) := by
  induction cs with
  | nil => exact h
  | cons c cs ih =>
    rw [List.map_cons, List.cons_append, render, hliteral, ih]
    rfl

/-- The template of a predicate over the operand. -/
def ofPredicate (predicate : String) : String := predicate ++ "(\x7btarget\x7d)"

/-- The template of a predicate is filled by putting the operand in brackets after it. -/
theorem fill_ofPredicate {predicate : String} (h : ∀ c ∈ predicate.toList, c ≠ opening ∧ c ≠ closing)
    (operand : String) : fill (ofPredicate predicate) operand = .ok (predicate ++ "(" ++ operand ++ ")") := by
  have hlist : (ofPredicate predicate).toList = predicate.toList ++ "(\x7btarget\x7d)".toList := by
    simp [ofPredicate]
  have hpieces : pieces (ofPredicate predicate).toList.length (ofPredicate predicate).toList =
      predicate.toList.map .literal ++ [.literal '(', .field operandName none [], .literal ')'] := by
    rw [hlist, List.length_append, pieces_append h]
    rfl
  have hfill : fillWithin 2 (ofPredicate predicate).toList operand.toList =
      .ok (predicate.toList ++ ('(' :: (operand.toList ++ [')']))) := by
    rw [fillWithin, hpieces]
    refine render_literals (fun _ => rfl) _ ?_
    rfl
  rw [fill, hfill]
  simp [pure, Except.pure, bind, Except.bind, String.ofList_append, ← String.toList_inj]

end Template

end CrateSafety
