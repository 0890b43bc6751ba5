import CrateSafety.Proofs.InternalsEdges
import CrateSafety.Proofs.KeyTokens
import CrateSafety.Proofs.MemberRenaming

/-!
# What a field write has to establish

A write concerns the atoms of the invariant that mention the written member: a part of the expression takes it of
`self`, or it stands in the line of prose. Of one conjunction exactly those are required, in the terms of the
caller; of several alternatives all atoms are as soon as one mentions the member. An atom that uses `self` as a
whole, or another member of it, is not required on its own.
-/

namespace CrateSafety

theorem Text.isWordChar_of_isNameRest {c : Char} (h : isNameRest c = true) : isWordChar c = true := by
  have hascii : c.toNat < 128 := by
    have hrange := toNat_of_isNameRest h
    omega
  rw [isWordChar, if_pos hascii]
  exact h

theorem Text.isWordChar_of_isNameStart {c : Char} (h : isNameStart c = true) : isWordChar c = true :=
  isWordChar_of_isNameRest (isNameRest_of_isNameStart h)

theorem Text.dropStart?_eq_some_iff {start cs rest : List Char} :
    dropStart? start cs = some rest ↔ cs = start ++ rest := by
  fun_induction dropStart? start cs with
  | case1 cs => simp [eq_comm]
  | case2 p ps c cs heq ih =>
    rw [ih, beq_iff_eq.mp heq]
    simp
  | case3 p ps c cs hne =>
    have hpc : p ≠ c := by simpa using hne
    simp [hpc.symm]
  | case4 p ps => simp

namespace Prose

/-- A member has a name: a letter or an underscore, and characters of words. -/
def IsMemberName (member : List Char) : Prop :=
  ∃ c rest, member = c :: rest ∧ Text.isNameStart c = true ∧ ∀ d ∈ rest, Text.isWordChar d = true

theorem IsMemberName.isWordChar {member : List Char} (h : IsMemberName member) :
    ∀ c ∈ member, Text.isWordChar c = true := by
  obtain ⟨c, rest, rfl, hstart, hrest⟩ := h
  exact List.forall_mem_cons.mpr ⟨Text.isWordChar_of_isNameStart hstart, hrest⟩

/-- A text does not go on with a character of words. -/
def Ends (after : List Char) : Prop := ∀ c ∈ after.head?, Text.isWordChar c = false

theorem ends_dropWhile (cs : List Char) : Ends (cs.dropWhile Text.isWordChar) := fun c hc => by
  have hhead := List.head?_dropWhile_not Text.isWordChar cs
  rw [Option.mem_def.mp hc] at hhead
  exact hhead

/-- Where a word ends is seen from the text. -/
theorem cut_word {word after : List Char} (hword : ∀ c ∈ word, Text.isWordChar c = true) (hends : Ends after) :
    (word ++ after).takeWhile Text.isWordChar = word ∧ (word ++ after).dropWhile Text.isWordChar = after := by
  rw [List.takeWhile_append_of_pos hword, List.dropWhile_append_of_pos hword]
  cases after with
  | nil => simp
  | cons d more =>
    have hd : Text.isWordChar d = false := hends d rfl
    simp [hd]

/-- A member is taken of `self` at the start of a text exactly if the text starts so. -/
theorem selfMember?_eq_some_iff {cs member after : List Char} :
    selfMember? cs = some (member, after) ↔
      cs = ['s', 'e', 'l', 'f', '.'] ++ (member ++ after) ∧ IsMemberName member ∧ Ends after := by
  constructor
  · intro h
    unfold selfMember? at h
    split at h
    case h_1 c rest hdrop =>
      split at h
      case isTrue hstart =>
        cases h
        refine ⟨?_, ⟨c, _, rfl, hstart, fun d hd => List.mem_takeWhile_imp hd⟩, ends_dropWhile rest⟩
        have hcut : rest.takeWhile Text.isWordChar ++ rest.dropWhile Text.isWordChar = rest :=
          List.takeWhile_append_dropWhile
        rw [Text.dropStart?_eq_some_iff.mp hdrop]
        simp [hcut]
      case isFalse => cases h
    case h_2 => cases h
  · rintro ⟨rfl, ⟨c, rest, rfl, hstart, hrest⟩, hends⟩
    have hdrop : Text.dropStart? ['s', 'e', 'l', 'f', '.'] (['s', 'e', 'l', 'f', '.'] ++ ((c :: rest) ++ after)) =
        some (c :: (rest ++ after)) := Text.dropStart?_eq_some_iff.mpr rfl
    obtain ⟨htake, hafter⟩ := cut_word hrest hends
    unfold selfMember?
    rw [hdrop]
    simp only [hstart, if_true, htake, hafter]

/-- A line names a member of `self`, given the character before it: `self` with the member stands in it, after
no character of a word and no dot, and the name of the member goes no further. -/
def NamesMember (previous : Option Char) (line member : List Char) : Prop :=
  ∃ before after, line = before ++ (['s', 'e', 'l', 'f', '.'] ++ (member ++ after)) ∧
    startsAfter (before.getLast?.or previous) = true ∧ IsMemberName member ∧ Ends after

/-- A line names a member at its start, or beyond a word in which none can start. -/
theorem namesMember_append {previous : Option Char} {word rest member : List Char} (hne : word ≠ [])
    (hblock : ∀ c ∈ word.dropLast, startsAfter (some c) = false) :
    NamesMember previous (word ++ rest) member ↔
      (startsAfter previous = true ∧ ∃ after, selfMember? (word ++ rest) = some (member, after)) ∨
        NamesMember word.getLast? rest member := by
  have hlast (before : List Char) :
      (word ++ before).getLast?.or previous = before.getLast?.or word.getLast? := by
    rw [List.getLast?_append, Option.or_assoc]
    congr 1
    cases hword : word.getLast? with
    | none => exact absurd (List.getLast?_eq_none_iff.mp hword) hne
    | some c => rfl
  constructor
  · rintro ⟨before, after, hline, hstarts, hname, hends⟩
    rcases List.append_eq_append_iff.mp hline with ⟨before', rfl, hrest⟩ | ⟨word', hword, hrest⟩
    · rw [hlast] at hstarts
      exact .inr ⟨before', after, hrest, hstarts, hname, hends⟩
    · cases hbefore : before.getLast? with
      | none =>
        rw [List.getLast?_eq_none_iff] at hbefore
        subst hbefore
        exact .inl ⟨hstarts, after, selfMember?_eq_some_iff.mpr ⟨hline, hname, hends⟩⟩
      | some c =>
        rw [hbefore, Option.some_or] at hstarts
        by_cases hend : word' = []
        · -- the member starts right after the word
          rw [hend, List.append_nil] at hword
          refine .inr ⟨[], after, by simpa [hend] using hrest.symm, ?_, hname, hends⟩
          rw [hword, hbefore]
          exact hstarts
        · have hmem : c ∈ word.dropLast := by
            rw [hword, List.dropLast_append_of_ne_nil hend]
            exact List.mem_append_left _ (List.mem_of_getLast? hbefore)
          rw [hblock c hmem] at hstarts
          cases hstarts
  · rintro (⟨hstarts, after, hself⟩ | ⟨before, after, hline, hstarts, hname, hends⟩)
    · obtain ⟨hline, hname, hends⟩ := selfMember?_eq_some_iff.mp hself
      exact ⟨[], after, hline, hstarts, hname, hends⟩
    · refine ⟨word ++ before, after, ?_, ?_, hname, hends⟩
      · rw [hline, List.append_assoc]
      · rw [hlast]
        exact hstarts

theorem startsAfter_of_isWordChar {c : Char} (h : Text.isWordChar c = true) : startsAfter (some c) = false := by
  simp [startsAfter, h]

section Runs

variable {previous : Option Char} {c : Char} {cs rest first after member : List Char}

/-- A line that starts with a member names it, and what the rest of the line does. -/
theorem namesMember_of_selfMember? (hstarts : startsAfter previous = true)
    (hself : selfMember? cs = some (first, after)) :
    NamesMember previous cs member ↔ member = first ∨ NamesMember first.getLast? after member := by
  obtain ⟨hline, hname, -⟩ := selfMember?_eq_some_iff.mp hself
  have hsplit : cs = (['s', 'e', 'l', 'f', '.'] ++ first) ++ after := by
    rw [hline, List.append_assoc]
  have hblock : ∀ d ∈ (['s', 'e', 'l', 'f', '.'] ++ first).dropLast, startsAfter (some d) = false := by
    intro d hd
    rcases List.mem_append.mp (List.mem_of_mem_dropLast hd) with hd | hd
    · have hblocks : (['s', 'e', 'l', 'f', '.'].all fun d => !startsAfter (some d)) = true := by decide
      simpa using List.all_eq_true.mp hblocks d hd
    · exact startsAfter_of_isWordChar (hname.isWordChar d hd)
  have hlast : (['s', 'e', 'l', 'f', '.'] ++ first).getLast? = first.getLast? := by
    obtain ⟨d, more, rfl, -⟩ := hname
    simp [List.getLast?_cons]
  rw [hsplit, namesMember_append (by simp) hblock, ← hsplit, hlast, hself]
  simp [hstarts, eq_comm]

/-- A word that is no member is passed over. -/
theorem namesMember_of_word (hstart : Text.isNameStart c = true) (hself : selfMember? (c :: rest) = none) :
    NamesMember previous (c :: rest) member ↔
      NamesMember (c :: rest.takeWhile Text.isWordChar).getLast? (rest.dropWhile Text.isWordChar) member := by
  have hsplit : c :: rest = (c :: rest.takeWhile Text.isWordChar) ++ rest.dropWhile Text.isWordChar := by
    rw [List.cons_append, List.takeWhile_append_dropWhile]
  have hblock : ∀ d ∈ (c :: rest.takeWhile Text.isWordChar).dropLast, startsAfter (some d) = false := by
    intro d hd
    rcases List.mem_cons.mp (List.mem_of_mem_dropLast hd) with rfl | hd
    · exact startsAfter_of_isWordChar (Text.isWordChar_of_isNameStart hstart)
    · exact startsAfter_of_isWordChar (List.mem_takeWhile_imp hd)
  rw [hsplit, namesMember_append (by simp) hblock, ← hsplit, hself]
  simp

/-- A character at which no word starts is passed over. -/
theorem namesMember_of_between (hbetween : ¬ (startsAfter previous && Text.isNameStart c) = true) :
    NamesMember previous (c :: rest) member ↔ NamesMember (some c) rest member := by
  have hnot : ¬ (startsAfter previous = true ∧ ∃ after, selfMember? (c :: rest) = some (member, after)) := by
    rintro ⟨hstarts, after, hself⟩
    have hc : c = 's' := (List.cons.inj (selfMember?_eq_some_iff.mp hself).1).1
    rw [hstarts, hc] at hbetween
    exact hbetween rfl
  have hsplit := @namesMember_append previous [c] rest member (by simp) (by simp)
  rw [List.singleton_append] at hsplit
  rw [hsplit, or_iff_right hnot]
  rfl

theorem length_after_le {n : Nat} (hself : selfMember? cs = some (first, after)) (hn : cs.length ≤ n + 1) :
    after.length ≤ n := by
  have hline := congrArg List.length (selfMember?_eq_some_iff.mp hself).1
  simp only [List.length_cons, List.length_append, List.length_nil] at hline
  omega

/-- The segments of a line have the members of `self` that it names. -/
theorem exists_mem_segmentsAfter_iff {n : Nat} (hn : cs.length ≤ n) :
    (∃ root, Segment.word root (some member) ∈ segmentsAfter n previous cs) ↔
      NamesMember previous cs member := by
  induction n generalizing previous cs with
  | zero =>
    obtain rfl : cs = [] := List.length_eq_zero_iff.mp (Nat.le_zero.mp hn)
    simp [segmentsAfter, NamesMember]
  | succ n ih =>
    cases cs with
    | nil => simp [segmentsAfter, NamesMember]
    | cons c rest =>
      have hrest : rest.length ≤ n := Nat.le_of_succ_le_succ hn
      rw [segmentsAfter]
      split
      case isTrue hstart =>
        rw [Bool.and_eq_true] at hstart
        split
        case h_1 first after hself =>
          rw [namesMember_of_selfMember? hstart.1 hself, ← ih (length_after_le hself hn)]
          simp [exists_or]
        case h_2 hself =>
          have hword : (rest.dropWhile Text.isWordChar).length ≤ n :=
            (List.length_dropWhile_le Text.isWordChar rest).trans hrest
          rw [namesMember_of_word hstart.2 hself, ← ih hword]
          simp
      case isFalse hbetween =>
        rw [namesMember_of_between hbetween, ← ih hrest]
        simp

end Runs

theorem mem_membersOf_iff {line : List Char} {name : String} :
    name ∈ membersOf (segments line) ↔ NamesMember none line name.toList := by
  rw [membersOf, Text.mem_distinct, List.mem_filterMap, segments, ← exists_mem_segmentsAfter_iff le_rfl]
  constructor
  · rintro ⟨segment, hsegment, hname⟩
    cases segment with
    | between c => cases hname
    | word root member =>
      cases member with
      | none => cases hname
      | some member =>
        rw [← Option.some.inj hname, String.toList_ofList]
        exact ⟨root, hsegment⟩
  · rintro ⟨root, hsegment⟩
    exact ⟨_, hsegment, by simp⟩

end Prose

mutual

/-- The expressions that an expression is made of, itself among them, parentheses disregarded. -/
def Expr.subexpressions : Expr → List Expr
  | .name id => [.name id]
  | .number kind digits => [.number kind digits]
  | .quoted literal => [.quoted literal]
  | .unit inner => [.unit inner]
  | .paren _ body _ => body.subexpressions
  | .member object dot field => .member object dot field :: object.subexpressions
  | .call callee args => .call callee args :: (callee.subexpressions ++ args.subexpressions)
  | .minus gap operand => .minus gap operand :: operand.subexpressions
  | .negation gap operand => .negation gap operand :: operand.subexpressions
  | .junction left op spelling right =>
    .junction left op spelling right :: (left.subexpressions ++ right.subexpressions)
  | .compare left op spelling right =>
    .compare left op spelling right :: (left.subexpressions ++ right.subexpressions)
  | .chain left op spelling rest =>
    .chain left op spelling rest :: (left.subexpressions ++ rest.subexpressions)
  | .compound shape parts => .compound shape parts :: parts.subexpressions

/-- The expressions that a list of parts is made of. -/
def Parts.subexpressions : Parts → List Expr
  | .nil => []
  | .text _ rest => rest.subexpressions
  | .child operand rest => operand.subexpressions ++ rest.subexpressions

end

section Members

variable {paths : List String}

theorem Expr.subexpressions_core (e : Expr) : e.core.subexpressions = e.subexpressions := by
  cases e with
  | paren lead body trail =>
    rw [core, subexpressions]
    exact subexpressions_core body
  | _ => rfl

theorem Expr.subexpressions_of_asName? {e : Expr} {id : String} (h : e.asName? = some id) :
    e.subexpressions = [.name id] := by
  rw [← subexpressions_core, asName?_eq_some_iff.mp h, subexpressions]

mutual

/-- The members that an expression takes of `self` are those that are parts of it. -/
theorem Expr.selfMembers_eq (hself : selfName ∉ paths) : ∀ e : Expr,
    e.selfMembers paths = e.subexpressions.filterMap Expr.asSelfMember?
  | .name _ => rfl
  | .number _ _ => rfl
  | .quoted _ => rfl
  | .unit _ => rfl
  | .paren lead body trail => by
    rw [Expr.selfMembers, Expr.subexpressions]
    exact Expr.selfMembers_eq hself body
  | .member object dot field => by
    rw [Expr.subexpressions]
    cases hname : object.asName? with
    | some id =>
      rw [Expr.selfMembers_member_of_name hname, Expr.subexpressions_of_asName? hname]
      by_cases hid : id = selfName
      · simp [hid, hself, Expr.asSelfMember?, Expr.core, hname]
      · simp [hid, Expr.asSelfMember?, Expr.core, hname]
    | none =>
      rw [Expr.selfMembers_member_of_none hname, Expr.selfMembers_eq hself object]
      simp [Expr.asSelfMember?, Expr.core, hname]
  | .call callee args => by
    rw [Expr.subexpressions]
    cases hname : callee.asName? with
    | some id =>
      rw [Expr.selfMembers_call_of_name hname, Expr.subexpressions_of_asName? hname,
        Parts.selfMembers_eq hself args]
      rfl
    | none =>
      rw [Expr.selfMembers_call_of_none hname, Expr.selfMembers_eq hself callee, Parts.selfMembers_eq hself args,
        ← List.filterMap_append]
      rfl
  | .minus gap operand => by
    rw [Expr.selfMembers, Expr.subexpressions, Expr.selfMembers_eq hself operand]
    rfl
  | .negation gap operand => by
    rw [Expr.selfMembers, Expr.subexpressions, Expr.selfMembers_eq hself operand]
    rfl
  | .junction left op spelling right => by
    rw [Expr.selfMembers, Expr.subexpressions, Expr.selfMembers_eq hself left, Expr.selfMembers_eq hself right,
      ← List.filterMap_append]
    rfl
  | .compare left op spelling right => by
    rw [Expr.selfMembers, Expr.subexpressions, Expr.selfMembers_eq hself left, Expr.selfMembers_eq hself right,
      ← List.filterMap_append]
    rfl
  | .chain left op spelling rest => by
    rw [Expr.selfMembers, Expr.subexpressions, Expr.selfMembers_eq hself left, Expr.selfMembers_eq hself rest,
      ← List.filterMap_append]
    rfl
  | .compound shape parts => by
    rw [Expr.selfMembers, Expr.subexpressions, Parts.selfMembers_eq hself parts]
    rfl

theorem Parts.selfMembers_eq (hself : selfName ∉ paths) : ∀ parts : Parts,
    parts.selfMembers paths = parts.subexpressions.filterMap Expr.asSelfMember?
  | .nil => rfl
  | .text piece rest => by
    rw [Parts.selfMembers, Parts.subexpressions]
    exact Parts.selfMembers_eq hself rest
  | .child operand rest => by
    rw [Parts.selfMembers, Parts.subexpressions, Expr.selfMembers_eq hself operand,
      Parts.selfMembers_eq hself rest, List.filterMap_append]

end

end Members

/-- An atom mentions a member of `self`: a part of its expression takes the member, or its line names it. -/
def Atom.Mentions (a : Atom) (member : String) : Prop :=
  match a.source with
  | .expression node _ => ∃ part ∈ node.subexpressions, part.asSelfMember? = some member
  | .prose _ => Prose.NamesMember none a.text.toList member.toList

/-- The recorded members are the mentioned ones, unless `self` is the head of a path. -/
theorem Atom.IsRead.mem_selfMembers_iff_mentions {a : Atom} (h : a.IsRead) {member : String} :
    member ∈ a.selfMembers ↔ selfName ∉ a.paths ∧ a.Mentions member := by
  cases hs : a.source with
  | expression node paths =>
    have hpaths : a.paths = paths := by rw [Atom.paths, hs]
    rw [h.mem_selfMembers_iff hs, hpaths, Mentions, hs]
    by_cases hself : selfName ∈ paths
    · simp [Expr.selfMembers_of_head hself, hself]
    · simp [Expr.selfMembers_eq hself, hself]
  | prose words =>
    rcases h with ⟨e, paths, he⟩ | ⟨line, rfl⟩
    · rw [(Atom.stated_of_ofExpr he).1] at hs
      cases hs
    · have hpaths : selfName ∉ (Atom.ofProse line).paths := List.not_mem_nil
      rw [and_iff_right hpaths, Mentions, hs]
      simp only [ofProse, String.toList_ofList]
      exact Prose.mem_membersOf_iff

namespace Condition.Keeps

variable {c kept : Condition} {member : String} {a : Atom}

/-- Atoms that touch the member are kept. -/
theorem mem_of_touches (h : c.Keeps member kept) (ha : a ∈ c.atoms) (hmem : member ∈ a.selfMembers) :
    a ∈ kept.alternatives.flatten := by
  cases h with
  | nothing huntouched _ => exact absurd hmem (huntouched a ha)
  | touched _ hkept _ =>
    rw [hkept, List.flatten_singleton]
    exact mem_touching_iff.mpr ⟨ha, hmem⟩
  | whole _ _ hall =>
    rw [hall]
    exact Conjunction.dedupe_subset _ ha

/-- Of one alternative, only atoms that touch the member are kept. -/
theorem touches_of_mem (h : c.Keeps member kept) (hone : c.alternatives.length = 1)
    (ha : a ∈ kept.alternatives.flatten) : a ∈ c.atoms ∧ member ∈ a.selfMembers := by
  cases h with
  | nothing _ hnone =>
    rw [hnone] at ha
    cases ha
  | touched _ hkept _ =>
    rw [hkept, List.flatten_singleton] at ha
    exact mem_touching_iff.mp ha
  | whole hseveral _ _ => exact absurd hone hseveral

/-- Several alternatives are all kept if one atom touches the member. -/
theorem eq_of_touched (h : c.Keeps member kept) (hseveral : c.alternatives.length ≠ 1) (ha : a ∈ c.atoms)
    (hmem : member ∈ a.selfMembers) : kept = c := by
  cases h with
  | nothing huntouched _ => exact absurd hmem (huntouched a ha)
  | touched hsingle _ _ => exact absurd (by rw [hsingle]; rfl) hseveral
  | whole _ _ hall => exact hall

/-- Nothing is kept if no atom touches the member. -/
theorem eq_empty_of_untouched (h : c.Keeps member kept) (hnone : ∀ a ∈ c.atoms, member ∉ a.selfMembers) :
    kept = {} := by
  cases h with
  | nothing _ hempty => exact hempty
  | touched _ _ hsome =>
    obtain ⟨a, ha⟩ := List.exists_mem_of_ne_nil _ hsome
    obtain ⟨hin, hmem⟩ := mem_touching_iff.mp ha
    exact absurd hmem (hnone a hin)
  | whole _ htouched _ =>
    obtain ⟨a, ha, hmem⟩ := htouched
    exact absurd hmem (hnone a ha)

end Condition.Keeps

namespace Edge

variable {caller : Item} {s : Struct} {e : Edge} {a : Atom}

/-- An obligation on internals requires an atom of the invariant: it has the key of the atom in the terms of the
caller. -/
def Requires (e : Edge) (a : Atom) : Prop :=
  ∃ a', a.rename (internalsRenaming e.site.operation) = .ok a' ∧
    ∃ b ∈ e.required.alternatives.flatten, b.key = a'.key

instance (e : Edge) (a : Atom) : Decidable (e.Requires a) :=
  decidable_of_iff
    ((a.rename (internalsRenaming e.site.operation)).toOption.any (fun a' =>
      decide (∃ b ∈ e.required.alternatives.flatten, b.key = a'.key)) = true)
    (Outcome.any_toOption_eq_true_iff.trans
      (exists_congr fun _ => and_congr_right fun _ => decide_eq_true_iff))

/-- The concerned atoms of the invariant are required. -/
theorem requires_of_mem (hedge : ofInternals caller s e.site = .ok e)
    (hne : ∀ atoms ∈ e.calleeTerms.alternatives, atoms ≠ []) (ha : a ∈ e.calleeTerms.alternatives.flatten) :
    e.Requires a := by
  obtain ⟨-, renamed, hrenamed, hrequired⟩ := required_of_ofInternals hedge
  obtain ⟨atoms, hatoms, ha⟩ := List.mem_flatten.mp ha
  obtain ⟨atoms', hatoms', hboth⟩ := exists_right_of_forall₂ hrenamed hatoms
  obtain ⟨a', ha', hrename⟩ := exists_right_of_forall₂ hboth ha
  have hrenamedNe : ∀ given ∈ renamed, given ≠ [] := by
    rintro given hgiven rfl
    obtain ⟨original, horiginal, hnil⟩ := exists_left_of_forall₂ hrenamed hgiven
    exact hne original horiginal (List.forall₂_nil_right_iff.mp hnil)
  rw [Requires, hrequired]
  exact ⟨a', hrename, Condition.exists_key_of_build hrenamedNe hatoms' ha'⟩

/-- What is required are concerned atoms of the invariant in the terms of the caller. -/
theorem exists_of_mem_required (hedge : ofInternals caller s e.site = .ok e)
    (ha : a ∈ e.required.alternatives.flatten) :
    ∃ original ∈ e.calleeTerms.alternatives.flatten,
      original.rename (internalsRenaming e.site.operation) = .ok a := by
  obtain ⟨-, renamed, hrenamed, hrequired⟩ := required_of_ofInternals hedge
  rw [hrequired] at ha
  obtain ⟨atoms, hatoms, ha⟩ := List.mem_flatten.mp ha
  obtain ⟨given, hgiven, rfl⟩ := Condition.exists_of_mem_build hatoms
  obtain ⟨original, horiginal, hboth⟩ := exists_left_of_forall₂ hrenamed hgiven
  obtain ⟨b, hb, hrename⟩ := exists_left_of_forall₂ hboth (Conjunction.dedupe_subset given ha)
  exact ⟨b, List.mem_flatten_of_mem horiginal hb, hrename⟩

theorem required_of_nothing (hedge : ofInternals caller s e.site = .ok e) (hempty : e.calleeTerms = {}) :
    e.required.alternatives = [] := by
  obtain ⟨-, renamed, hrenamed, hrequired⟩ := required_of_ofInternals hedge
  rw [hempty] at hrenamed
  rw [hrequired, List.forall₂_nil_left_iff.mp hrenamed]
  rfl

end Edge

/-- What a write of a member of a struct has to establish of its invariant. Each atom that mentions the member is
required, in the terms of the caller. If the invariant is one conjunction, nothing else is. If it has several
alternatives and one atom mentions the member, all atoms are required, those too that use `self` as a whole or
another member of it. If no atom mentions the member, nothing is. Lines in which `self` is the head of a path are
left aside. -/
theorem write_requires_mentioning_atoms {config : Config} {snapshot : Snapshot} {m : Model} {g : Graph} {i : Item}
    {s : Struct} {e : Edge} {field : String} (hbuild : (Model.build config snapshot).outcome = .ok m)
    (hgraph : (m.graph config).outcome = .ok g) (hi : i ∈ m.items) (he : e ∈ g.edgesFrom i.path)
    (hs : s ∈ m.structs) (htarget : e.target = s.path) (hkind : e.kind = .fieldWrite)
    (hfield : Path.given? e.site.operation.field = some field) :
    (∀ a ∈ s.invariant.atoms, selfName ∉ a.paths → a.Mentions field → e.Requires a) ∧
    (s.invariant.alternatives.length = 1 → ∀ b ∈ e.required.alternatives.flatten, ∃ a ∈ s.invariant.atoms,
      a.Mentions field ∧ a.rename (Edge.internalsRenaming e.site.operation) = .ok b) ∧
    (s.invariant.alternatives.length ≠ 1 →
      (∃ a ∈ s.invariant.atoms, selfName ∉ a.paths ∧ a.Mentions field) →
        ∀ a ∈ s.invariant.alternatives.flatten, e.Requires a) ∧
    ((∀ a ∈ s.invariant.atoms, ¬ a.Mentions field) → e.required.alternatives = []) := by
  have htouches : ∀ a ∈ s.invariant.atoms,
      (field ∈ a.selfMembers ↔ selfName ∉ a.paths ∧ a.Mentions field) := fun a ha =>
    (Model.isRead_invariant hbuild hs a (Conjunction.dedupe_subset _ ha)).mem_selfMembers_iff_mentions
  have hnormal := Model.normal_invariant hbuild hs
  have hinternals : e.kind.touchesInternals = true := by
    rw [hkind]
    rfl
  have hedge := Model.ofInternals_of_edge hbuild hgraph hi he hinternals hs htarget
  have hkeeps := Edge.keeps_of_write hedge hkind hfield hnormal
  have hrequires : ∀ a ∈ e.calleeTerms.alternatives.flatten, e.Requires a := fun a =>
    Edge.requires_of_mem hedge (hkeeps.nonempty_of_normal hnormal)
  refine ⟨fun a ha hself hmentions => ?_, fun hone b hb => ?_, fun hseveral => ?_, fun hnone => ?_⟩
  · exact hrequires a (hkeeps.mem_of_touches ha ((htouches a ha).mpr ⟨hself, hmentions⟩))
  · obtain ⟨a, ha, hrename⟩ := Edge.exists_of_mem_required hedge hb
    obtain ⟨hin, hmem⟩ := hkeeps.touches_of_mem hone ha
    exact ⟨a, hin, ((htouches a hin).mp hmem).2, hrename⟩
  · rintro ⟨a, ha, hmentions⟩
    rwa [hkeeps.eq_of_touched hseveral ha ((htouches a ha).mpr hmentions)] at hrequires
  · have hempty : e.calleeTerms = {} := hkeeps.eq_empty_of_untouched fun a ha hmem =>
      hnone a ha ((htouches a ha).mp hmem).2
    exact Edge.required_of_nothing hedge hempty

/-- A buffer with a condition on its length that is prose, and a latch with two alternatives. -/
def countedBuffer : Snapshot :=
  { items :=
      [.struct
        { path := "crate::Buffer", fields := [{ name := "len" }, { name := "cap" }],
          invariant := ["self.len <= self.cap", "self.len must be even", "well_formed(self)"] },
      .struct
        { path := "crate::Latch", fields := [{ name := "state" }],
          invariant := ["self.state == 0 or held(self)"] },
      .function
        { path := "crate::Buffer::set", kind := .method, owner := some "crate::Buffer", params := ["n"],
          body := [{ kind := .fieldWrite, target := "Self", field := some "len", value := some "n" }] },
      .function
        { path := "crate::arm", params := ["latch"],
          body :=
            [{ kind := .fieldWrite, target := "crate::Latch", receiver := some "latch", field := some "state",
                value := some "1" }] }] }

/-- The two atoms on the length are required of the write to it, and nothing else. Both alternatives are required
of the write to the latch, the one too that does not mention the written member. -/
theorem countedBuffer_requires_mentioning :
    ∃ m g, (Model.build {} countedBuffer).outcome = .ok m ∧ (m.graph {}).outcome = .ok g ∧
      (∃ i ∈ m.items, ∃ e ∈ g.edgesFrom i.path, ∃ s ∈ m.structs,
        s.invariant.text = "self.len <= self.cap and self.len must be even and well_formed(self)" ∧
        e.required.text = "n <= self.cap and n must be even" ∧
        (∀ a ∈ s.invariant.atoms, a.Mentions "len" → e.Requires a) ∧
        ∀ b ∈ e.required.alternatives.flatten, ∃ a ∈ s.invariant.atoms, a.Mentions "len" ∧
          a.rename (Edge.internalsRenaming e.site.operation) = .ok b) ∧
      ∃ i ∈ m.items, ∃ e ∈ g.edgesFrom i.path, ∃ s ∈ m.structs,
        s.invariant.text = "(self.state == 0) or (held(self))" ∧
        e.required.text = "(1 == 0) or (held(latch))" ∧
        ∀ a ∈ s.invariant.alternatives.flatten, e.Requires a := by
  have hcheck : Run.examine {} countedBuffer (fun m g =>
      (m.items.any fun i => (g.edgesFrom i.path).any fun e => m.structs.any fun s =>
        decide (e.target = s.path) && decide (e.kind = .fieldWrite) &&
        decide (Path.given? e.site.operation.field = some "len") &&
        decide (s.invariant.text = "self.len <= self.cap and self.len must be even and well_formed(self)") &&
        decide (e.required.text = "n <= self.cap and n must be even") &&
        decide (s.invariant.alternatives.length = 1) && decide (∀ a ∈ s.invariant.atoms, selfName ∉ a.paths)) &&
      m.items.any fun i => (g.edgesFrom i.path).any fun e => m.structs.any fun s =>
        decide (e.target = s.path) && decide (e.kind = .fieldWrite) &&
        decide (Path.given? e.site.operation.field = some "state") &&
        decide (s.invariant.text = "(self.state == 0) or (held(self))") &&
        decide (e.required.text = "(1 == 0) or (held(latch))") &&
        decide (s.invariant.alternatives.length ≠ 1) &&
        decide (∃ a ∈ s.invariant.atoms, "state" ∈ a.selfMembers)) = true := by
    decide +kernel
  obtain ⟨m, g, hm, hg, hcheck⟩ := Run.examine_eq_true_iff.mp hcheck
  simp only [Bool.and_eq_true, List.any_eq_true, decide_eq_true_eq] at hcheck
  obtain ⟨⟨i, hi, e, he, s, hs, ⟨⟨⟨⟨⟨htarget, hkind⟩, hfield⟩, htext⟩, hrequired⟩, hone⟩, hheads⟩,
    i', hi', e', he', s', hs', ⟨⟨⟨⟨⟨htarget', hkind'⟩, hfield'⟩, htext'⟩, hrequired'⟩, hseveral⟩, htouched⟩ := hcheck
  obtain ⟨hall, honly, -, -⟩ := write_requires_mentioning_atoms hm hg hi he hs htarget hkind hfield
  obtain ⟨-, -, hwhole, -⟩ := write_requires_mentioning_atoms hm hg hi' he' hs' htarget' hkind' hfield'
  refine ⟨m, g, hm, hg, ⟨i, hi, e, he, s, hs, htext, hrequired, fun a ha => hall a ha (hheads a ha), honly hone⟩,
    i', hi', e', he', s', hs', htext', hrequired', hwhole hseveral ?_⟩
  obtain ⟨a, ha, hmem⟩ := htouched
  have hread : a.IsRead := Model.isRead_invariant hm hs' a (Conjunction.dedupe_subset _ ha)
  exact ⟨a, ha, hread.mem_selfMembers_iff_mentions.mp hmem⟩

/-- A buffer with conditions on itself as a whole and on what a method of it says. -/
def sealedBuffer : Snapshot :=
  { items :=
      [.struct
        { path := "crate::Buf", fields := [{ name := "len" }],
          invariant := ["well_formed(self)", "self.is_valid()", "self.len <= 10"] },
      .function
        { path := "crate::Buf::set", kind := .method, owner := some "crate::Buf", params := ["n"],
          body := [{ kind := .fieldWrite, target := "crate::Buf", field := some "len", value := some "n" }] }] }

/-- Neither condition is required of a write to a field. -/
theorem sealedBuffer_write_requires_less :
    ∃ m g, (Model.build {} sealedBuffer).outcome = .ok m ∧ (m.graph {}).outcome = .ok g ∧
      ∃ i ∈ m.items, ∃ e ∈ g.edgesFrom i.path, ∃ s ∈ m.structs, e.target = s.path ∧ e.kind = .fieldWrite ∧
        e.site.operation.field = some "len" ∧ s.fields.map (·.name) = ["len"] ∧
        e.required.text = "n <= 10" ∧
        ∀ text ∈ ["well_formed(self)", "self.is_valid()"], ∃ a ∈ s.invariant.atoms, a.text = text ∧
          ¬ e.Requires a := by
  have hcheck : Run.examine {} sealedBuffer (fun m g =>
      decide (∃ i ∈ m.items, ∃ e ∈ g.edgesFrom i.path, ∃ s ∈ m.structs, e.target = s.path ∧
        e.kind = .fieldWrite ∧ e.site.operation.field = some "len" ∧ s.fields.map (·.name) = ["len"] ∧
        e.required.text = "n <= 10" ∧
        ∀ text ∈ ["well_formed(self)", "self.is_valid()"], ∃ a ∈ s.invariant.atoms, a.text = text ∧
          ¬ e.Requires a)) = true := by
    decide +kernel
  obtain ⟨m, g, hm, hg, hcheck⟩ := Run.examine_eq_true_iff.mp hcheck
  exact ⟨m, g, hm, hg, of_decide_eq_true hcheck⟩

end CrateSafety
