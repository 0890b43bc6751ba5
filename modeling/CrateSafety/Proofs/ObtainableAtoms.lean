import CrateSafety.Proofs.InternalsEdges
import CrateSafety.Proofs.Legibility
import CrateSafety.Proofs.ReadNames
import CrateSafety.Proofs.VariableUses

/-!
# Atoms that can arise

Every atom was read from a line, or an atom that was read has been renamed, perhaps more than once. The
expression of such an atom can be written out, and its variables are read back as the names that they are.
-/

namespace CrateSafety

namespace Expr

/-- Whether an expression can be written out and all its names be read as names. -/
structure Readable (e : Expr) : Prop where
  /-- Nothing stands in the way of writing it out. -/
  written : e.fault? = none
  /-- No name is a keyword. -/
  named : e.WellNamed

namespace Readable

variable {e link leaf : Expr}

theorem leftmost (h : e.Readable) : e.leftmost.Readable := by
  cases e with
  | compare => exact ⟨(Option.or_eq_none_iff.mp h.written).1, h.named.1⟩
  | chain => exact ⟨(Option.or_eq_none_iff.mp h.written).1, h.named.1⟩
  | _ => exact h

theorem core : ∀ {e : Expr}, e.Readable → e.core.Readable
  | paren _ body _, h => core (e := body) ⟨h.written, h.named⟩
  | name _, h | number _ _, h | quoted _, h | unit _, h | member _ _ _, h | call _ _, h => h
  | minus _ _, h | negation _ _, h | junction _ _ _ _, h | compare _ _ _ _, h | chain _ _ _ _, h => h
  | compound _ _, h => h

/-- The links of a chain are readable, as each starts and ends where the chain has it. -/
theorem of_mem_links (h : e.Readable) (hlink : link ∈ Reading.links e) : link.Readable := by
  induction e using Reading.links.induct with
  | case1 left op spelling right =>
    rw [List.mem_singleton.mp hlink]
    exact h
  | case2 left op spelling rest ih =>
    obtain ⟨hleft, hwritten⟩ := Option.or_eq_none_iff.mp h.written
    obtain ⟨hrest, hcontact⟩ := Option.or_eq_none_iff.mp hwritten
    have hreadable : rest.Readable := ⟨hrest, h.named.2⟩
    rcases List.mem_cons.mp hlink with rfl | hlink
    · have hstart : rest.leftmost.start = rest.start := by cases rest <;> rfl
      refine ⟨?_, h.named.1, hreadable.leftmost.named⟩
      rw [fault?, hleft, hreadable.leftmost.written, startFault?, hstart]
      exact hcontact
    · exact ih hreadable hlink
  | case3 e hcompare hchain => simp [Reading.links] at hlink

theorem of_mem_leaves (h : e.Readable) (hleaf : leaf ∈ e.leaves) : leaf.Readable := by
  induction e using leaves.induct with
  | case1 lead body trail ih => exact ih ⟨h.written, h.named⟩ hleaf
  | case2 left op spelling right ihLeft ihRight =>
    obtain ⟨hleft, hwritten⟩ := Option.or_eq_none_iff.mp h.written
    rcases List.mem_append.mp hleaf with hleaf | hleaf
    · exact ihLeft ⟨hleft, h.named.1⟩ hleaf
    · exact ihRight ⟨(Option.or_eq_none_iff.mp hwritten).1, h.named.2⟩ hleaf
  | case3 gap operand ih => exact ih ⟨(Option.or_eq_none_iff.mp h.written).1, h.named⟩ hleaf
  | case4 left op spelling rest => exact h.of_mem_links hleaf
  | case5 e hparen hjunction hnegation hchain =>
    rw [leaves_of_isLeaf (Reading.isLeaf_of_not_connected hparen hjunction hnegation hchain)] at hleaf
    rw [List.mem_singleton.mp hleaf]
    exact h

/-- The opposite of what is readable is, because its operator stands between blanks. -/
theorem opposite (h : e.Readable) : e.opposite.Readable := by
  have hblanks : ∀ op : Relation, startsWord op.spelling = false ∧ endsWord op.spelling = false := by
    intro op
    cases op with
    | order c => cases c <;> decide
    | membership negated => cases negated <;> decide
    | identity negated => cases negated <;> decide
  rcases compare_or_opposite e with ⟨left, op, spelling, right, rfl⟩ | ⟨-, heq⟩
  · obtain ⟨hleft, hwritten⟩ := Option.or_eq_none_iff.mp h.written
    refine ⟨?_, h.named⟩
    rw [Expr.opposite, fault?, hleft, (Option.or_eq_none_iff.mp hwritten).1, startFault?, endFault?,
      (hblanks _).1, (hblanks _).2]
    rfl
  · rw [heq]
    refine ⟨?_, h.named⟩
    rw [fault?, h.written]
    rfl

end Readable

/-- A name is readable exactly if it is an identifier that can be read as a name. -/
theorem readable_name_iff {id : String} :
    (name id).Readable ↔ Text.isIdentifier id.toList = true ∧ Grammar.readsAsName id = true := by
  constructor
  · intro h
    refine ⟨?_, h.named⟩
    by_contra hidentifier
    have hfault := h.written
    rw [fault?, nameFault?, if_neg hidentifier] at hfault
    cases hfault
  · rintro ⟨hidentifier, hname⟩
    exact ⟨if_pos hidentifier, hname⟩

end Expr

/-- Whether the expression of an atom, if it has one, is readable. -/
def Atom.Readable (a : Atom) : Prop := ∀ node paths, a.source = .expression node paths → node.Readable

theorem Atom.readable_ofProse (line : List Char) : (ofProse line).Readable := fun _ _ hsource => by cases hsource

namespace Reading

variable {line text : String} {form : List Conjunction} {e leaf : Expr} {paths : List String} {negate : Bool}
  {a : Atom}

theorem readable_ofExpr (he : e.Readable) (h : Atom.ofExpr e paths = .ok a) : a.Readable := by
  intro node heads hsource
  cases (Atom.ofExpr_spec h).1.symm.trans hsource
  exact he.core

theorem readable_literal (hleaf : leaf.isLeaf = true) (hreadable : leaf.Readable)
    (h : literal paths negate leaf = .ok a) : a.Readable := by
  cases negate with
  | false => exact readable_ofExpr hreadable h
  | true =>
    have hunit : ∀ inner, leaf ≠ .unit inner := by
      rintro inner rfl
      exact (negatedAtom_isOk_iff hleaf).mp ⟨a, h⟩
    have h : negatedAtom leaf paths = .ok a := h
    rcases negatedAtom_cases paths hleaf hunit with ⟨-, heq⟩ | ⟨-, heq⟩ | heq
    · exact readable_ofExpr (Expr.readable_name_iff.mpr (by decide)) (heq ▸ h)
    · exact readable_ofExpr (Expr.readable_name_iff.mpr (by decide)) (heq ▸ h)
    · exact readable_ofExpr hreadable.opposite (heq ▸ h)

/-- What is read of a line is readable. -/
theorem readable_expression (h : expression? line.toList = .ok (some e)) : e.Readable := by
  unfold expression? at h
  split at h
  case h_1 parsed hparse =>
    obtain ⟨written, hchecked, hsome⟩ := Outcome.map_eq_ok_iff.mp h
    obtain ⟨hfault, rfl⟩ := Expr.checked_eq_ok_iff.mp hchecked
    cases hsome
    exact ⟨hfault, Expr.wellNamed_of_parse hparse⟩
  case h_2 => cases h

theorem readable_parseDnf (h : parseDnf line = .ok form) : ∀ atoms ∈ form, ∀ a ∈ atoms, a.Readable := by
  refine forall_mem_parseDnf h (Atom.readable_ofProse _) fun e he leaf hleaf paths negate a ha => ?_
  exact readable_literal (isLeaf_of_mem_leaves hleaf) ((readable_expression he).of_mem_leaves hleaf) ha

/-- The names in an operand can be read as names, also where the operand is no expression. -/
theorem wellNamed_operand (h : operand text = .ok e) : e.WellNamed := by
  unfold operand at h
  dsimp only at h
  split at h
  case h_1 parsed hparse =>
    obtain ⟨-, rfl⟩ := Expr.checked_eq_ok_iff.mp h
    exact Expr.wellNamed_of_parse hparse
  case h_2 =>
    cases h
    exact show Grammar.readsAsName unreadOperand = true by decide

end Reading

/-- Whether all replacements of a substitution are well named. -/
structure Substitution.WellNamed (s : Substitution) : Prop where
  /-- Replacements of variables are well named. -/
  ofName : ∀ id e, s.name? id = some e → e.WellNamed
  /-- Replacements of members are well named. -/
  ofMember : ∀ object field e, s.member? object field = some e → e.WellNamed

theorem Expr.WellNamed.guarded {e : Expr} (h : e.WellNamed) : e.guarded.WellNamed := by
  unfold Expr.guarded
  split
  · exact h
  · exact h

section Substitution

variable {s : Substitution}

mutual

/-- Substituting well named expressions for names keeps an expression well named. -/
theorem Expr.wellNamed_subst (hs : s.WellNamed) : ∀ e : Expr, e.WellNamed → (e.subst s).WellNamed
  | .name id, h => by
    rw [Expr.subst]
    cases hname : s.name? id with
    | none => exact h
    | some e => exact (hs.ofName id e hname).guarded
  | .number _ _, _ => trivial
  | .quoted _, _ => trivial
  | .unit _, _ => trivial
  | .paren lead body trail, h => by
    rw [Expr.subst]
    split
    · exact Expr.wellNamed_subst hs body h
    · exact Expr.wellNamed_subst hs body h
  | .member object dot field, h => by
    rw [Expr.subst]
    cases hmember : s.member? object field with
    | some e => exact (hs.ofMember object field e hmember).guarded
    | none =>
      dsimp only
      split
      · exact h
      · exact Expr.wellNamed_subst hs object h
  | .call callee args, h => by
    cases hname : callee.asName? with
    | some id =>
      rw [Expr.subst_call_of_name hname]
      exact ⟨h.1, Parts.wellNamed_substArgs hs args h.2⟩
    | none =>
      rw [Expr.subst_call_of_none hname]
      exact ⟨Expr.wellNamed_subst hs callee h.1, Parts.wellNamed_substArgs hs args h.2⟩
  | .minus _ operand, h => Expr.wellNamed_subst hs operand h
  | .negation _ operand, h => Expr.wellNamed_subst hs operand h
  | .junction left _ _ right, h => ⟨Expr.wellNamed_subst hs left h.1, Expr.wellNamed_subst hs right h.2⟩
  | .compare left _ _ right, h => ⟨Expr.wellNamed_subst hs left h.1, Expr.wellNamed_subst hs right h.2⟩
  | .chain left _ _ rest, h => ⟨Expr.wellNamed_subst hs left h.1, Expr.wellNamed_subst hs rest h.2⟩
  | .compound _ parts, h => Parts.wellNamed_subst hs parts h

theorem Parts.wellNamed_subst (hs : s.WellNamed) : ∀ parts : Parts, parts.WellNamed →
    (parts.subst s).WellNamed
  | .nil, _ => trivial
  | .text _ rest, h => Parts.wellNamed_subst hs rest h
  | .child operand rest, h => ⟨Expr.wellNamed_subst hs operand h.1, Parts.wellNamed_subst hs rest h.2⟩

theorem Parts.wellNamed_substArgs (hs : s.WellNamed) : ∀ parts : Parts, parts.WellNamed →
    (parts.substArgs s).WellNamed
  | .nil, _ => trivial
  | .text _ rest, h => Parts.wellNamed_substArgs hs rest h
  | .child operand rest, h => by
    rw [Parts.substArgs]
    refine ⟨?_, Parts.wellNamed_substArgs hs rest h.2⟩
    cases hargument : s.argument? operand with
    | none => exact Expr.wellNamed_subst hs operand h.1
    | some e =>
      unfold Substitution.argument? at hargument
      split at hargument
      case h_1 id _ => exact hs.ofName id e hargument
      case h_2 => cases hargument

end

end Substitution

mutual

/-- The variables of a readable expression are readable names. -/
theorem Expr.readable_root : ∀ (e : Expr), e.Readable → ∀ u ∈ e.uses, (Expr.name u.root).Readable
  | .name id, h, u, hu => by
    rw [Expr.uses, List.mem_singleton] at hu
    rw [hu]
    exact h
  | .number _ _, _, _, hu => by cases hu
  | .quoted _, _, _, hu => by cases hu
  | .unit _, _, _, hu => by cases hu
  | .paren _ body _, h, u, hu => Expr.readable_root body ⟨h.written, h.named⟩ u hu
  | .member object dot field, h, u, hu => by
    have hobject : object.Readable := ⟨(Option.or_eq_none_iff.mp h.written).1, h.named⟩
    rw [Expr.uses] at hu
    cases hname : object.asName? with
    | none =>
      rw [hname] at hu
      exact Expr.readable_root object hobject u hu
    | some id =>
      rw [hname, List.mem_singleton] at hu
      rw [hu, ← Expr.asName?_eq_some_iff.mp hname]
      exact hobject.core
  | .call callee args, h, u, hu => by
    obtain ⟨hcallee, hargs⟩ := Option.or_eq_none_iff.mp h.written
    rw [Expr.uses] at hu
    rcases List.mem_append.mp hu with hu | hu
    · cases hname : callee.asName? with
      | some id =>
        rw [hname] at hu
        cases hu
      | none =>
        rw [hname] at hu
        exact Expr.readable_root callee ⟨hcallee, h.named.1⟩ u hu
    · exact Parts.readable_root args hargs h.named.2 u hu
  | .minus _ operand, h, u, hu => Expr.readable_root operand ⟨h.written, h.named⟩ u hu
  | .negation _ operand, h, u, hu =>
    Expr.readable_root operand ⟨(Option.or_eq_none_iff.mp h.written).1, h.named⟩ u hu
  | .junction left _ _ right, h, u, hu => by
    obtain ⟨hleft, hwritten⟩ := Option.or_eq_none_iff.mp h.written
    rcases List.mem_append.mp hu with hu | hu
    · exact Expr.readable_root left ⟨hleft, h.named.1⟩ u hu
    · exact Expr.readable_root right ⟨(Option.or_eq_none_iff.mp hwritten).1, h.named.2⟩ u hu
  | .compare left _ _ right, h, u, hu => by
    obtain ⟨hleft, hwritten⟩ := Option.or_eq_none_iff.mp h.written
    rcases List.mem_append.mp hu with hu | hu
    · exact Expr.readable_root left ⟨hleft, h.named.1⟩ u hu
    · exact Expr.readable_root right ⟨(Option.or_eq_none_iff.mp hwritten).1, h.named.2⟩ u hu
  | .chain left _ _ rest, h, u, hu => by
    obtain ⟨hleft, hwritten⟩ := Option.or_eq_none_iff.mp h.written
    rcases List.mem_append.mp hu with hu | hu
    · exact Expr.readable_root left ⟨hleft, h.named.1⟩ u hu
    · exact Expr.readable_root rest ⟨(Option.or_eq_none_iff.mp hwritten).1, h.named.2⟩ u hu
  | .compound _ parts, h, u, hu =>
    Parts.readable_root parts (Option.or_eq_none_iff.mp h.written).1 h.named u hu

theorem Parts.readable_root : ∀ (parts : Parts), parts.fault? = none → parts.WellNamed →
    ∀ u ∈ parts.uses, (Expr.name u.root).Readable
  | .nil, _, _, _, hu => by cases hu
  | .text _ rest, hwritten, hnamed, u, hu => Parts.readable_root rest hwritten hnamed u hu
  | .child operand rest, hwritten, hnamed, u, hu => by
    obtain ⟨hoperand, hrest⟩ := Option.or_eq_none_iff.mp hwritten
    rcases List.mem_append.mp hu with hu | hu
    · exact Expr.readable_root operand ⟨hoperand, hnamed.1⟩ u hu
    · exact Parts.readable_root rest hrest hnamed.2 u hu

end

theorem Expr.Readable.name_of_mem_names {e : Expr} {paths : List String} {id : String} (h : e.Readable)
    (hid : id ∈ e.names paths) : (Expr.name id).Readable := by
  rcases Expr.mem_names_iff.mp hid with hu | ⟨-, field, hu⟩
  · exact e.readable_root h _ hu
  · exact e.readable_root h _ hu

namespace Atom

variable {a b : Atom} {r : Renaming}

/-- An atom that can arise. -/
inductive Obtainable : Atom → Prop where
  /-- An atom of a line. -/
  | read {line : String} {form : List Conjunction} {a : Atom} (parsed : Reading.parseDnf line = .ok form)
      (mem : a ∈ form.flatten) : Obtainable a
  /-- An atom with names replaced. -/
  | renamed {a b : Atom} {r : Renaming} (original : Obtainable a) (rename : a.rename r = .ok b) : Obtainable b

theorem wellNamed_of_operands {pairs : List (String × String)} {read : List (String × Expr)} {id : String}
    {e : Expr} (h : operands pairs = .ok read) (he : read.lookup id = some e) : e.WellNamed := by
  rw [operands_spec h] at he
  obtain ⟨text, -, htext⟩ := Option.bind_eq_some_iff.mp he
  cases hoperand : Reading.operand text with
  | error cause =>
    rw [hoperand] at htext
    cases htext
  | ok found =>
    rw [hoperand] at htext
    cases htext
    exact Reading.wellNamed_operand hoperand

/-- Renaming keeps an atom readable. -/
theorem Readable.rename (ha : a.Readable) (h : a.rename r = .ok b) : b.Readable := by
  unfold Atom.rename at h
  dsimp only at h
  split at h
  case isTrue =>
    cases h
    exact ha
  case isFalse =>
    split at h
    case h_1 =>
      rw [← Except.ok.inj h]
      exact readable_ofProse _
    case h_2 node paths hsource =>
      obtain ⟨names, hnames, h⟩ := Outcome.bind_eq_ok_iff.mp h
      obtain ⟨fields, hfields, h⟩ := Outcome.bind_eq_ok_iff.mp h
      obtain ⟨written, hchecked, h⟩ := Outcome.bind_eq_ok_iff.mp h
      obtain ⟨hfault, rfl⟩ := Expr.checked_eq_ok_iff.mp hchecked
      have hsubstitution : (Substitution.mk names fields paths).WellNamed := by
        refine ⟨fun id e he => wellNamed_of_operands hnames he, fun object field e he => ?_⟩
        unfold Substitution.member? at he
        split at he
        case h_1 id _ =>
          split at he
          case isTrue => exact wellNamed_of_operands hfields he
          case isFalse => cases he
        case h_2 => cases he
      exact Reading.readable_ofExpr ⟨hfault, node.wellNamed_subst hsubstitution (ha node paths hsource).named⟩ h

theorem Obtainable.readable (h : a.Obtainable) : a.Readable := by
  induction h with
  | read parsed mem =>
    obtain ⟨atoms, hatoms, ha⟩ := List.mem_flatten.mp mem
    exact Reading.readable_parseDnf parsed atoms hatoms _ ha
  | renamed _ rename ih => exact ih.rename rename

theorem Obtainable.isRead (h : a.Obtainable) : a.IsRead := by
  induction h with
  | read parsed mem =>
    obtain ⟨atoms, hatoms, ha⟩ := List.mem_flatten.mp mem
    exact Reading.isRead_parseDnf parsed atoms hatoms _ ha
  | renamed _ rename ih => exact ih.rename rename

end Atom

end CrateSafety
