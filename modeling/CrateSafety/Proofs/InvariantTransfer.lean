import CrateSafety.Proofs.InternalsEdges
import CrateSafety.Proofs.MemberRenaming

/-!
# Obligations on internals as preconditions

What a field write or a struct literal requires, true in the state before it, makes the invariant true of the
value after it. The renamed atoms mean before what the atoms of the invariant mean after, by the meaning of a
renaming of members, and the atoms that a write leaves out mean the same before and after, since they read no
member that changes. Atoms with one key are kept once, so they have to agree.
-/

namespace CrateSafety

mutual

/-- Whether an expression uses `self` to take members of it only. A called name is no variable. -/
def Expr.selfByMembers : Expr → Bool
  | .name id => id != selfName
  | .number _ _ => true
  | .quoted _ => true
  | .unit _ => true
  | .paren _ body _ => body.selfByMembers
  | .member object _ _ => object.asName?.isSome || object.selfByMembers
  | .call callee args => (callee.asName?.isSome || callee.selfByMembers) && args.selfByMembers
  | .minus _ operand => operand.selfByMembers
  | .negation _ operand => operand.selfByMembers
  | .junction left _ _ right => left.selfByMembers && right.selfByMembers
  | .compare left _ _ right => left.selfByMembers && right.selfByMembers
  | .chain left _ _ rest => left.selfByMembers && rest.selfByMembers
  | .compound _ parts => parts.selfByMembers

/-- Whether a list of parts uses `self` to take members of it only. -/
def Parts.selfByMembers : Parts → Bool
  | .nil => true
  | .text _ rest => rest.selfByMembers
  | .child operand rest => operand.selfByMembers && rest.selfByMembers

end

section Receiver

variable {D : Type} {I : Interpretation D} {paths : List String} {env : Environment D} {made : D}

/-- The members that an environment gives `self` are those of a value. -/
def Environment.ReadsOf (env : Environment D) (I : Interpretation D) (made : D) (members : List String) : Prop :=
  ∀ m ∈ members, (env.members m).getD (I.member (env.vars selfName) m) = I.member made m

theorem Environment.readsOf_append {members more : List String} :
    env.ReadsOf I made (members ++ more) ↔ env.ReadsOf I made members ∧ env.ReadsOf I made more :=
  List.forall_mem_append

mutual

/-- An expression that uses `self` for its members only means, where they are those of a value, what it means
where `self` denotes that value. -/
theorem Expr.value_of_selfByMembers (hself : selfName ∉ paths) : ∀ e : Expr, e.selfByMembers = true →
    env.ReadsOf I made (e.selfMembers paths) →
      e.value I paths env = e.eval I paths env.heads (Function.update env.vars selfName made)
  | .name id, hby, _ => by
    have hid : id ≠ selfName := by simpa [Expr.selfByMembers] using hby
    rw [Expr.value, Expr.eval, Function.update_of_ne hid]
  | .number _ _, _, _ => rfl
  | .quoted _, _, _ => rfl
  | .unit _, _, _ => rfl
  | .paren lead body trail, hby, hof => by
    rw [Expr.value, Expr.eval]
    exact Expr.value_of_selfByMembers hself body hby hof
  | .member object dot field, hby, hof => by
    rw [Expr.value, Expr.eval]
    cases hname : object.asName? with
    | some id =>
      rw [Expr.selfMembers_member_of_name hname] at hof
      by_cases hid : id = selfName
      · subst hid
        have hmember := hof field (by simp [hself])
        simp [Environment.memberOf, hself, hmember]
      · simp only [Environment.memberOf, if_neg hid, Function.update_of_ne hid]
        split <;> rfl
    | none =>
      rw [Expr.selfMembers_member_of_none hname] at hof
      have hobject : object.selfByMembers = true := by simpa [Expr.selfByMembers, hname] using hby
      rw [Expr.value_of_selfByMembers hself object hobject hof]
  | .call callee args, hby, hof => by
    rw [Expr.selfByMembers, Bool.and_eq_true] at hby
    rw [Expr.value, Expr.eval]
    cases hname : callee.asName? with
    | some id =>
      rw [Expr.selfMembers_call_of_name hname] at hof
      rw [Parts.value_of_selfByMembers hself args hby.2 hof]
    | none =>
      rw [Expr.selfMembers_call_of_none hname, Environment.readsOf_append] at hof
      have hcallee : callee.selfByMembers = true := by simpa [hname] using hby.1
      rw [Expr.value_of_selfByMembers hself callee hcallee hof.1,
        Parts.value_of_selfByMembers hself args hby.2 hof.2]
  | .minus gap operand, hby, hof => by
    rw [Expr.value, Expr.eval, Expr.value_of_selfByMembers hself operand hby hof]
  | .negation gap operand, hby, hof => by
    rw [Expr.value, Expr.eval, Expr.value_of_selfByMembers hself operand hby hof]
  | .junction left op spelling right, hby, hof => by
    rw [Expr.selfByMembers, Bool.and_eq_true] at hby
    rw [Expr.selfMembers, Environment.readsOf_append] at hof
    rw [Expr.value, Expr.eval, Expr.value_of_selfByMembers hself left hby.1 hof.1,
      Expr.value_of_selfByMembers hself right hby.2 hof.2]
  | .compare left op spelling right, hby, hof => by
    rw [Expr.selfByMembers, Bool.and_eq_true] at hby
    rw [Expr.selfMembers, Environment.readsOf_append] at hof
    rw [Expr.value, Expr.eval, Expr.value_of_selfByMembers hself left hby.1 hof.1,
      Expr.value_of_selfByMembers hself right hby.2 hof.2]
  | .chain left op spelling rest, hby, hof => by
    rw [Expr.selfByMembers, Bool.and_eq_true] at hby
    rw [Expr.selfMembers, Environment.readsOf_append] at hof
    rw [Expr.value, Expr.eval, Expr.value_of_selfByMembers hself left hby.1 hof.1,
      Expr.value_of_selfByMembers hself rest hby.2 hof.2]
  | .compound shape parts, hby, hof => by
    rw [Expr.value, Expr.eval, Parts.value_of_selfByMembers hself parts hby hof]

theorem Parts.value_of_selfByMembers (hself : selfName ∉ paths) : ∀ parts : Parts, parts.selfByMembers = true →
    env.ReadsOf I made (parts.selfMembers paths) →
      parts.value I paths env = parts.eval I paths env.heads (Function.update env.vars selfName made)
  | .nil, _, _ => rfl
  | .text piece rest, hby, hof => by
    rw [Parts.value, Parts.eval, Parts.value_of_selfByMembers hself rest hby hof]
  | .child operand rest, hby, hof => by
    rw [Parts.selfByMembers, Bool.and_eq_true] at hby
    rw [Parts.selfMembers, Environment.readsOf_append] at hof
    rw [Parts.value, Parts.eval, Expr.value_of_selfByMembers hself operand hby.1 hof.1,
      Parts.value_of_selfByMembers hself rest hby.2 hof.2]

end

end Receiver

/-- A state: an interpretation with what counts as true, and what names denote. -/
structure Situation (D : Type) where
  /-- The meaning of expressions. -/
  meaning : Interpretation D
  /-- The values that count as true. -/
  IsTrue : D → Prop
  /-- Heads of paths. -/
  heads : String → D
  /-- Variables. -/
  vars : String → D

namespace Situation

variable {D : Type}

/-- The state in which `self` denotes another value. -/
def withSelf (σ : Situation D) (made : D) : Situation D :=
  { σ with vars := Function.update σ.vars selfName made }

instance {σ : Situation D} [h : DecidablePred σ.IsTrue] (made : D) : DecidablePred (σ.withSelf made).IsTrue := h

/-- The value of an operand. -/
def valueOf (σ : Situation D) (e : Expr) : D := e.eval σ.meaning [] σ.vars σ.vars

/-- The value of a member of `self`. -/
def ownMember (σ : Situation D) (m : String) : D := σ.meaning.member (σ.vars selfName) m

/-- A value has given members: those of texts that are read as operands, and else those of `self`. -/
structure Gives (σ : Situation D) (fields : List (String × String)) (made : D) (members : List String) :
    Prop where
  /-- A member with a text has the value of the text. -/
  given : ∀ m ∈ members, ∀ text e, fields.lookup m = some text → Reading.operand text = .ok e →
    σ.meaning.member made m = σ.valueOf e
  /-- A member without a text is a member of `self`. -/
  kept : ∀ m ∈ members, fields.lookup m = none → σ.meaning.member made m = σ.ownMember m

end Situation

namespace Atom

variable {D : Type} {σ : Situation D} {a a' : Atom} {node : Expr} {paths : List String}

/-- An atom is an expression that is true in a state. -/
def TrueIn (σ : Situation D) (a : Atom) : Prop :=
  ∃ node paths, a.source = .expression node paths ∧ σ.IsTrue (node.eval σ.meaning paths σ.heads σ.vars)

theorem trueIn_iff (hs : a.source = .expression node paths) :
    a.TrueIn σ ↔ σ.IsTrue (node.eval σ.meaning paths σ.heads σ.vars) := by
  constructor
  · rintro ⟨node', paths', hs', htrue⟩
    cases hs.symm.trans hs'
    exact htrue
  · intro htrue
    exact ⟨node, paths, hs, htrue⟩

instance [DecidablePred σ.IsTrue] (a : Atom) : Decidable (a.TrueIn σ) :=
  match hs : a.source with
  | .expression _ _ => decidable_of_iff _ (trueIn_iff hs).symm
  | .prose _ => isFalse fun ⟨_, _, hs', _⟩ => by cases hs.symm.trans hs'

/-- An atom is an expression that uses `self` for its members only, and calls none of them. -/
def ReadsMembers (a : Atom) : Prop :=
  ∃ node paths, a.source = .expression node paths ∧ selfName ∉ paths ∧ node.selfByMembers = true ∧
    node.calledMembers = []

theorem readsMembers_iff (hs : a.source = .expression node paths) :
    a.ReadsMembers ↔ selfName ∉ paths ∧ node.selfByMembers = true ∧ node.calledMembers = [] := by
  simp [ReadsMembers, hs]

instance (a : Atom) : Decidable a.ReadsMembers :=
  match hs : a.source with
  | .expression _ _ => decidable_of_iff _ (readsMembers_iff hs).symm
  | .prose _ => isFalse fun ⟨_, _, hs', _⟩ => by cases hs.symm.trans hs'

/-- The variables of the texts for members that an atom takes denote what the heads of its paths with their
names do; so it is where there are no such names. -/
def Apart (σ : Situation D) (fields : List (String × String)) (a : Atom) : Prop :=
  ∀ pair ∈ fields, pair.1 ∈ a.selfMembers → ∀ x, Reading.operand pair.2 = .ok x →
    ∀ id ∈ x.names [], id ∈ a.paths → σ.heads id = σ.vars id

/-- The texts for members that a renamed atom takes are operands. -/
theorem exists_operand_of_rename {r : Renaming} (hs : a.source = .expression node paths)
    (h : a.rename r = .ok a') {m text : String} (hm : m ∈ a.selfMembers)
    (hlookup : r.selfFields.lookup m = some text) : ∃ e, Reading.operand text = .ok e := by
  rw [← lookup_bearingMembers r.selfFields hm] at hlookup
  rcases rename_cases hs h with ⟨-, -, hnone⟩ | ⟨names, fields, -, hfields, -⟩
  · rw [hnone] at hlookup
    cases hlookup
  · rw [operands, Outcome.mapM_eq_ok_iff] at hfields
    obtain ⟨before, after, hsplit, -⟩ := List.lookup_eq_some_iff.mp hlookup
    obtain ⟨entry, -, hread⟩ := exists_right_of_forall₂ hfields (a := (m, text)) (by simp [hsplit])
    obtain ⟨e, he, -⟩ := Outcome.bind_eq_ok_iff.mp hread
    exact ⟨e, he⟩

/-- An atom with its members renamed is true in a state exactly if the atom is true where `self` is a value with
the given members. -/
theorem trueIn_rename_iff {fields : List (String × String)} {made : D} (hread : a.IsRead)
    (hreads : a.ReadsMembers) (hapart : a.Apart σ fields) (hgives : σ.Gives fields made a.selfMembers)
    (h : a.rename ⟨[], fields⟩ = .ok a') : a'.TrueIn σ ↔ a.TrueIn (σ.withSelf made) := by
  obtain ⟨node, paths, hs, hself, hby, hcalled⟩ := hreads
  rw [← rename_bearingMembers] at h
  have hheads : (Renaming.mk [] (a.bearingMembers fields)).Apart paths σ.heads σ.vars := by
    intro text htext x hx id hid hin
    obtain ⟨pair, hpair, rfl⟩ := List.mem_map.mp htext
    obtain ⟨hfield, hmem⟩ := List.mem_filter.mp hpair
    refine hapart pair hfield (List.contains_iff_mem.mp hmem) x hx id hid ?_
    rwa [Atom.paths, hs]
  have hnone : ∀ m ∈ node.calledMembers, (a.bearingMembers fields).lookup m = none := by simp [hcalled]
  obtain ⟨node', hs', hvalue⟩ :=
    eval_renamed (I := σ.meaning) hread hs (by simp) hheads hnone h
  have hof : ((Renaming.mk [] (a.bearingMembers fields)).environment σ.meaning σ.heads σ.vars).ReadsOf σ.meaning
      made (node.selfMembers paths) := by
    intro m hm
    have hmem : m ∈ a.selfMembers := (hread.mem_selfMembers_iff hs).mpr hm
    have hbearing := lookup_bearingMembers fields hmem
    cases hlookup : fields.lookup m with
    | none =>
      rw [hlookup] at hbearing
      rw [hgives.kept m hmem hlookup]
      simp [Renaming.environment, hbearing, Renaming.values, Situation.ownMember]
    | some text =>
      rw [hlookup] at hbearing
      obtain ⟨e, he⟩ := exists_operand_of_rename hs h hmem hbearing
      rw [hgives.given m hmem text e hlookup he]
      simp [Renaming.environment, hbearing, he, Except.toOption, Situation.valueOf]
  rw [trueIn_iff hs', trueIn_iff hs, hvalue, Expr.value_of_selfByMembers hself node hby hof]
  rfl

/-- An atom that takes no member that changes is true before exactly if it is after. -/
theorem trueIn_withSelf_iff {made : D} (hread : a.IsRead) (hreads : a.ReadsMembers)
    (hkept : ∀ m ∈ a.selfMembers, σ.meaning.member made m = σ.ownMember m) :
    a.TrueIn σ ↔ a.TrueIn (σ.withSelf made) := by
  have hnone : a.rename ⟨[], []⟩ = .ok a := rfl
  have hapart : a.Apart σ [] := fun pair hpair => absurd hpair List.not_mem_nil
  have hgives : σ.Gives [] made a.selfMembers :=
    ⟨fun m _ text e hlookup => absurd hlookup (by simp), fun m hm _ => hkept m hm⟩
  exact trueIn_rename_iff hread hreads hapart hgives hnone

end Atom

/-- Atoms of one key have one truth value. -/
def Situation.RespectsKeys {D : Type} (σ : Situation D) (atoms : List Atom) : Prop :=
  ∀ a ∈ atoms, ∀ b ∈ atoms, a.key = b.key → (a.TrueIn σ ↔ b.TrueIn σ)

/-- Where no key occurs twice, there is nothing to agree on. -/
theorem Conjunction.KeysDistinct.respectsKeys {D : Type} {atoms : Conjunction} (h : atoms.KeysDistinct)
    (σ : Situation D) : σ.RespectsKeys atoms := by
  intro a ha b hb hkey
  rw [List.inj_on_of_nodup_map h ha hb hkey]

namespace Condition

variable {D : Type} {σ τ : Situation D} {c : Condition} {r : Renaming}

/-- A condition asks for nothing, or all atoms of one of its alternatives are true in a state. -/
def TrueIn (σ : Situation D) (c : Condition) : Prop :=
  c.alternatives = [] ∨ ∃ atoms ∈ c.alternatives, ∀ a ∈ atoms, a.TrueIn σ

instance [DecidablePred σ.IsTrue] (c : Condition) : Decidable (c.TrueIn σ) :=
  inferInstanceAs (Decidable (c.alternatives = [] ∨ ∃ atoms ∈ c.alternatives, ∀ a ∈ atoms, a.TrueIn σ))

/-- Where atoms of one key agree, a built condition is true exactly if nothing was given or all atoms of one of
the given alternatives are true. -/
theorem trueIn_build_iff {given : List Conjunction} (hkeys : σ.RespectsKeys given.flatten) :
    (build given).TrueIn σ ↔ given = [] ∨ ∃ atoms ∈ given, ∀ a ∈ atoms, a.TrueIn σ := by
  classical
  -- a key is true if some given atom with it is
  let v : Valuation := ⟨fun key => decide (∃ a ∈ given.flatten, a.key = key ∧ a.TrueIn σ), fun _ => 0⟩
  have hatom : ∀ a ∈ given.flatten, v.truth a.key = true ↔ a.TrueIn σ := by
    intro a ha
    refine decide_eq_true_iff.trans ⟨?_, fun htrue => ⟨a, ha, rfl, htrue⟩⟩
    rintro ⟨b, hb, hkey, htrue⟩
    exact (hkeys b hb a ha hkey).mp htrue
  have hgiven : ∀ atoms ∈ given, (atoms.Holds v ↔ ∀ a ∈ atoms, a.TrueIn σ) := fun atoms hatoms =>
    forall₂_congr fun a ha => hatom a (List.mem_flatten_of_mem hatoms ha)
  have hbuilt : ∀ atoms ∈ (build given).alternatives, (atoms.Holds v ↔ ∀ a ∈ atoms, a.TrueIn σ) := by
    intro atoms hatoms
    obtain ⟨original, horiginal, rfl⟩ := exists_of_mem_build hatoms
    refine forall₂_congr fun a ha => hatom a (List.mem_flatten_of_mem horiginal ?_)
    exact Conjunction.dedupe_subset original ha
  have hleft : (build given).TrueIn σ ↔ (build given).Holds v :=
    or_congr_right (exists_congr fun atoms => and_congr_right fun hatoms => (hbuilt atoms hatoms).symm)
  rw [hleft, holds_build_iff]
  exact or_congr_right (exists_congr fun atoms => and_congr_right fun hatoms => hgiven atoms hatoms)

/-- A condition restated atom by atom is true in a state exactly if the condition is in another, where each
atom is. -/
theorem trueIn_restated_iff {renamed : List Conjunction}
    (hrenamed : List.Forall₂ (List.Forall₂ fun a a' => a.rename r = .ok a') c.alternatives renamed)
    (hkeys : σ.RespectsKeys (c.restated r))
    (hatoms : ∀ a ∈ c.alternatives.flatten, ∀ a', a.rename r = .ok a' → (a'.TrueIn σ ↔ a.TrueIn τ)) :
    (build renamed).TrueIn σ ↔ c.TrueIn τ := by
  have hrestated : renamed.flatten ⊆ c.restated r := by
    intro a' ha'
    obtain ⟨atoms', hatoms', ha'⟩ := List.mem_flatten.mp ha'
    obtain ⟨atoms, hmem, hboth⟩ := exists_left_of_forall₂ hrenamed hatoms'
    obtain ⟨a, ha, hrename⟩ := exists_left_of_forall₂ hboth ha'
    exact mem_restated_iff.mpr ⟨a, List.mem_flatten_of_mem hmem ha, hrename⟩
  have hboth (atoms atoms' : Conjunction) (hmem : atoms ∈ c.alternatives)
      (h : List.Forall₂ (fun a a' => a.rename r = .ok a') atoms atoms') :
      (∀ a' ∈ atoms', a'.TrueIn σ) ↔ ∀ a ∈ atoms, a.TrueIn τ := by
    constructor
    · intro htrue a ha
      obtain ⟨a', ha', hrename⟩ := exists_right_of_forall₂ h ha
      exact (hatoms a (List.mem_flatten_of_mem hmem ha) a' hrename).mp (htrue a' ha')
    · intro htrue a' ha'
      obtain ⟨a, ha, hrename⟩ := exists_left_of_forall₂ h ha'
      exact (hatoms a (List.mem_flatten_of_mem hmem ha) a' hrename).mpr (htrue a ha)
  have hnil : renamed = [] ↔ c.alternatives = [] := by
    rw [← List.length_eq_zero_iff, ← List.length_eq_zero_iff, hrenamed.length_eq]
  rw [trueIn_build_iff fun a ha b hb => hkeys a (hrestated ha) b (hrestated hb), hnil]
  refine or_congr_right ⟨?_, ?_⟩
  · rintro ⟨atoms', hatoms', htrue⟩
    obtain ⟨atoms, hmem, h⟩ := exists_left_of_forall₂ hrenamed hatoms'
    exact ⟨atoms, hmem, (hboth atoms atoms' hmem h).mp htrue⟩
  · rintro ⟨atoms, hmem, htrue⟩
    obtain ⟨atoms', hatoms', h⟩ := exists_right_of_forall₂ hrenamed hmem
    exact ⟨atoms', hatoms', (hboth atoms atoms' hmem h).mpr htrue⟩

end Condition

/-- A write of a value to a member of `self`. -/
structure Operation.WritesSelf (o : Operation) (field value : String) : Prop where
  /-- It is a field write. -/
  kind : o.kind = .fieldWrite
  /-- The receiver is `self`, or left out. -/
  receiver : (Path.given? o.receiver).getD selfName = selfName
  /-- The member is given. -/
  field : Path.given? o.field = some field
  /-- The value is given. -/
  value : Path.given? o.value = some value

theorem Operation.writesSelf_iff {o : Operation} {field value : String} :
    o.WritesSelf field value ↔ o.kind = .fieldWrite ∧ (Path.given? o.receiver).getD selfName = selfName ∧
      Path.given? o.field = some field ∧ Path.given? o.value = some value :=
  ⟨fun h => ⟨h.kind, h.receiver, h.field, h.value⟩, fun h => ⟨h.1, h.2.1, h.2.2.1, h.2.2.2⟩⟩

instance (o : Operation) (field value : String) : Decidable (o.WritesSelf field value) :=
  decidable_of_iff _ Operation.writesSelf_iff.symm

namespace Edge

variable {D : Type} {σ : Situation D} {caller : Item} {s : Struct} {e : Edge} {made : D}

theorem internalsRenaming_write {o : Operation} {field value : String} (h : o.WritesSelf field value) :
    internalsRenaming o = ⟨[], [(field, value)]⟩ := by
  simp [internalsRenaming, h.kind, h.receiver, h.field, h.value]

/-- The restated part of an invariant is true before exactly if it is true of a value with the given members. -/
theorem required_trueIn_iff {fields : List (String × String)} (hedge : ofInternals caller s e.site = .ok e)
    (hfields : internalsRenaming e.site.operation = ⟨[], fields⟩)
    (hread : ∀ a ∈ e.calleeTerms.alternatives.flatten, a.IsRead)
    (hreads : ∀ a ∈ e.calleeTerms.alternatives.flatten, a.ReadsMembers)
    (hapart : ∀ a ∈ e.calleeTerms.alternatives.flatten, a.Apart σ fields)
    (hkeys : σ.RespectsKeys (e.calleeTerms.restated (internalsRenaming e.site.operation)))
    (hgives : ∀ a ∈ e.calleeTerms.alternatives.flatten, σ.Gives fields made a.selfMembers) :
    e.required.TrueIn σ ↔ e.calleeTerms.TrueIn (σ.withSelf made) := by
  obtain ⟨-, renamed, hrenamed, hrequired⟩ := required_of_ofInternals hedge
  rw [hfields] at hrenamed hkeys
  rw [hrequired]
  refine Condition.trueIn_restated_iff hrenamed hkeys fun a ha a' hrename => ?_
  exact Atom.trueIn_rename_iff (hread a ha) (hreads a ha) (hapart a ha) (hgives a ha) hrename

end Edge

/-- A condition that is true before a change of one member is true after it exactly if the part that it keeps
for the member is. -/
theorem Condition.Keeps.trueIn_iff {D : Type} {σ : Situation D} {made : D} {c kept : Condition} {member : String}
    (h : c.Keeps member kept) (hread : ∀ a ∈ c.alternatives.flatten, a.IsRead)
    (hreads : ∀ a ∈ c.alternatives.flatten, a.ReadsMembers)
    (hbefore : σ.RespectsKeys c.alternatives.flatten)
    (hafter : (σ.withSelf made).RespectsKeys c.alternatives.flatten)
    (hothers : ∀ other, other ≠ member → σ.meaning.member made other = σ.ownMember other)
    (htrue : c.TrueIn σ) : kept.TrueIn (σ.withSelf made) ↔ c.TrueIn (σ.withSelf made) := by
  have hframe : ∀ a ∈ c.alternatives.flatten, member ∉ a.selfMembers →
      (a.TrueIn σ ↔ a.TrueIn (σ.withSelf made)) := by
    intro a ha hnot
    refine Atom.trueIn_withSelf_iff (hread a ha) (hreads a ha) fun m hm => hothers m ?_
    rintro rfl
    exact hnot hm
  cases h with
  | nothing huntouched hnone =>
    -- an atom has the truth value of the kept atom with its key, before and after
    have hsame : ∀ a ∈ c.alternatives.flatten, a.TrueIn σ → a.TrueIn (σ.withSelf made) := by
      intro a ha
      obtain ⟨b, hb, hkey⟩ := Conjunction.exists_mem_dedupe ha
      have hb' : b ∈ c.alternatives.flatten := Conjunction.dedupe_subset _ hb
      rw [← hbefore b hb' a ha hkey, hframe b hb' (huntouched b hb)]
      exact (hafter b hb' a ha hkey).mp
    rw [hnone]
    refine iff_of_true (.inl rfl) (htrue.imp_right ?_)
    rintro ⟨atoms, hatoms, hall⟩
    exact ⟨atoms, hatoms, fun a ha => hsame a (List.mem_flatten_of_mem hatoms ha) (hall a ha)⟩
  | touched hsingle hkept _ =>
    simp only [TrueIn, hsingle, hkept, List.cons_ne_nil, false_or, List.mem_singleton, exists_eq_left] at htrue ⊢
    rw [hsingle, List.flatten_singleton] at hframe
    refine ⟨fun hall a ha => ?_, fun hall a ha => hall a (mem_touching_iff.mp ha).1⟩
    by_cases hmem : member ∈ a.selfMembers
    · exact hall a (mem_touching_iff.mpr ⟨ha, hmem⟩)
    · exact (hframe a ha hmem).mp (htrue a ha)
  | whole _ _ hall => rw [hall]

namespace Edge

variable {D : Type} {σ : Situation D} {caller : Item} {s : Struct} {e : Edge} {made : D}

/-- What a write of a value to a member of `self` requires is true before exactly if the invariant, true before,
is true after. -/
theorem write_trueIn_iff {field value : String} (hedge : ofInternals caller s e.site = .ok e)
    (hnormal : s.invariant.Normal) (hread : ∀ a ∈ s.invariant.alternatives.flatten, a.IsRead)
    (hreads : ∀ a ∈ s.invariant.alternatives.flatten, a.ReadsMembers)
    (hkeys : σ.RespectsKeys (e.calleeTerms.restated (internalsRenaming e.site.operation)))
    (hwrite : e.site.operation.WritesSelf field value)
    (hapart : ∀ a ∈ s.invariant.alternatives.flatten, a.Apart σ [(field, value)])
    (hbefore : σ.RespectsKeys s.invariant.alternatives.flatten)
    (hafter : (σ.withSelf made).RespectsKeys s.invariant.alternatives.flatten)
    (hvalue : ∀ x, Reading.operand value = .ok x → σ.meaning.member made field = σ.valueOf x)
    (hothers : ∀ other, other ≠ field → σ.meaning.member made other = σ.ownMember other)
    (htrue : s.invariant.TrueIn σ) : e.required.TrueIn σ ↔ s.invariant.TrueIn (σ.withSelf made) := by
  have hkeeps := keeps_of_write hedge hwrite.kind hwrite.field hnormal
  have hsubset := hkeeps.subset
  have hgives (members : List String) : σ.Gives [(field, value)] made members := by
    constructor
    · intro name _ text x hlookup hx
      by_cases hname : name = field
      · subst hname
        obtain rfl : value = text := by simpa using hlookup
        exact hvalue x hx
      · have hbeq : (name == field) = false := by simpa using hname
        simp [List.lookup_cons, hbeq] at hlookup
    · intro name _ hlookup
      refine hothers name ?_
      rintro rfl
      simp at hlookup
  have hrequired : e.required.TrueIn σ ↔ e.calleeTerms.TrueIn (σ.withSelf made) :=
    required_trueIn_iff hedge (internalsRenaming_write hwrite) (fun a ha => hread a (hsubset ha))
      (fun a ha => hreads a (hsubset ha)) (fun a ha => hapart a (hsubset ha)) hkeys fun a _ => hgives a.selfMembers
  exact hrequired.trans (hkeeps.trueIn_iff hread hreads hbefore hafter hothers htrue)

/-- What a struct literal requires is true where it is constructed exactly if the invariant is true of what it
makes. -/
theorem literal_trueIn_iff (hedge : ofInternals caller s e.site = .ok e)
    (hread : ∀ a ∈ s.invariant.alternatives.flatten, a.IsRead)
    (hreads : ∀ a ∈ s.invariant.alternatives.flatten, a.ReadsMembers)
    (hkeys : σ.RespectsKeys (e.calleeTerms.restated (internalsRenaming e.site.operation)))
    (hliteral : e.site.operation.kind = .structLiteral)
    (hapart : ∀ a ∈ s.invariant.alternatives.flatten, a.Apart σ e.site.operation.fields)
    (hall : ∀ a ∈ s.invariant.alternatives.flatten, ∀ field ∈ a.selfMembers,
      (e.site.operation.fields.lookup field).isSome = true)
    (hvalues : ∀ field text x, e.site.operation.fields.lookup field = some text → Reading.operand text = .ok x →
      σ.meaning.member made field = σ.valueOf x) :
    e.required.TrueIn σ ↔ s.invariant.TrueIn (σ.withSelf made) := by
  have hterms : e.calleeTerms = s.invariant := by
    rw [(required_of_ofInternals hedge).1, invariantOf, hliteral]
  have hfields : internalsRenaming e.site.operation = ⟨[], e.site.operation.fields⟩ := by
    rw [internalsRenaming, hliteral]
  have hgives : ∀ a ∈ s.invariant.alternatives.flatten, σ.Gives e.site.operation.fields made a.selfMembers := by
    refine fun a ha => ⟨fun name _ => hvalues name, fun name hname hnone => ?_⟩
    have hsome := hall a ha name hname
    rw [hnone] at hsome
    cases hsome
  rw [← hterms] at hread hreads hapart hgives ⊢
  exact required_trueIn_iff hedge hfields hread hreads hapart hkeys hgives

end Edge

/-- What an obligation on internals requires is the weakest precondition of the invariant. The atoms of the
invariant are expressions that use `self` for members that they do not call, atoms of one key agree, and variables
of given values denote what heads of paths with their names do. A write of a value to a member of `self`, from a
state where the invariant is true, leaves it true exactly if the requirement is true before. A struct literal
that initialises all members in the invariant makes a value of which it is true exactly if the requirement is
true where it is constructed. -/
theorem internals_obligation_is_precondition {config : Config} {snapshot : Snapshot} {m : Model} {g : Graph}
    {i : Item} {s : Struct} {e : Edge} (hbuild : (Model.build config snapshot).outcome = .ok m)
    (hgraph : (m.graph config).outcome = .ok g) (hi : i ∈ m.items) (he : e ∈ g.edgesFrom i.path)
    (hs : s ∈ m.structs) (htarget : e.target = s.path)
    (hreads : ∀ a ∈ s.invariant.alternatives.flatten, a.ReadsMembers) {D : Type} (σ : Situation D)
    (hkeys : σ.RespectsKeys (e.calleeTerms.restated (Edge.internalsRenaming e.site.operation))) (made : D) :
    (∀ field value, e.site.operation.WritesSelf field value →
      (∀ a ∈ s.invariant.alternatives.flatten, a.Apart σ [(field, value)]) →
      σ.RespectsKeys s.invariant.alternatives.flatten →
      (σ.withSelf made).RespectsKeys s.invariant.alternatives.flatten →
      (∀ x, Reading.operand value = .ok x → σ.meaning.member made field = σ.valueOf x) →
      (∀ other, other ≠ field → σ.meaning.member made other = σ.ownMember other) →
      s.invariant.TrueIn σ → (e.required.TrueIn σ ↔ s.invariant.TrueIn (σ.withSelf made))) ∧
    (e.kind = .structLiteral →
      (∀ a ∈ s.invariant.alternatives.flatten, a.Apart σ e.site.operation.fields) →
      (∀ a ∈ s.invariant.alternatives.flatten, ∀ field ∈ a.selfMembers,
        (e.site.operation.fields.lookup field).isSome = true) →
      (∀ field text x, e.site.operation.fields.lookup field = some text → Reading.operand text = .ok x →
        σ.meaning.member made field = σ.valueOf x) →
      (e.required.TrueIn σ ↔ s.invariant.TrueIn (σ.withSelf made))) := by
  have hread := Model.isRead_invariant hbuild hs
  have hnormal := Model.normal_invariant hbuild hs
  have hedge (hinternals : e.kind.touchesInternals = true) : Edge.ofInternals i s e.site = .ok e :=
    Model.ofInternals_of_edge hbuild hgraph hi he hinternals hs htarget
  constructor
  · intro field value hwrite
    have hinternals : e.kind.touchesInternals = true := by
      rw [Edge.kind, hwrite.kind]
      rfl
    exact Edge.write_trueIn_iff (hedge hinternals) hnormal hread hreads hkeys hwrite
  · intro hliteral
    have hinternals : e.kind.touchesInternals = true := by
      rw [hliteral]
      rfl
    exact Edge.literal_trueIn_iff (hedge hinternals) hread hreads hkeys hliteral

/-- A ring of slots that grows in place, and that is made anew. -/
def ringGrowth : Snapshot :=
  { items :=
      [.struct
        { path := "crate::Ring", fields := [{ name := "len" }, { name := "cap" }, { name := "tag" }],
          invariant := ["len <= self.cap", "self.cap <= limits::MAX", "known(tag)"] },
      .function
        { path := "crate::Ring::grow", kind := .method, owner := some "crate::Ring", params := ["n"],
          body := [{ kind := .fieldWrite, target := "Self", field := some "len", value := some "n" }] },
      .function
        { path := "crate::ring", params := ["k", "n", "t"],
          body :=
            [{ kind := .structLiteral, target := "crate::Ring",
                fields := [("tag", "t"), ("cap", "n"), ("len", "k")] }] }] }

/-- The write has to establish one of the three conditions, and the literal all of them, and no more is needed,
whatever the predicates and operators mean. -/
theorem ringGrowth_establishes_invariant :
    ∃ m g, (Model.build {} ringGrowth).outcome = .ok m ∧ (m.graph {}).outcome = .ok g ∧ ∃ s ∈ m.structs,
      s.invariant.text = "self.len <= self.cap and self.cap <= limits.MAX and known(self.tag)" ∧
      (∃ i ∈ m.items, ∃ e ∈ g.edgesFrom i.path, e.required.text = "n <= self.cap" ∧
        ∀ (D : Type) (σ : Situation D) (made : D), σ.meaning.member made "len" = σ.vars "n" →
          (∀ other, other ≠ "len" → σ.meaning.member made other = σ.ownMember other) →
          s.invariant.TrueIn σ → (e.required.TrueIn σ ↔ s.invariant.TrueIn (σ.withSelf made))) ∧
      ∃ i ∈ m.items, ∃ e ∈ g.edgesFrom i.path, e.required.text = "k <= n and n <= limits.MAX and known(t)" ∧
        ∀ (D : Type) (σ : Situation D) (made : D), σ.meaning.member made "len" = σ.vars "k" →
          σ.meaning.member made "cap" = σ.vars "n" → σ.meaning.member made "tag" = σ.vars "t" →
          (e.required.TrueIn σ ↔ s.invariant.TrueIn (σ.withSelf made)) := by
  have hcheck : Run.examine {} ringGrowth (fun m g => m.structs.any fun s =>
      decide (s.invariant.text = "self.len <= self.cap and self.cap <= limits.MAX and known(self.tag)") &&
      decide (∀ a ∈ s.invariant.alternatives.flatten, a.ReadsMembers ∧ a.paths ⊆ ["limits"] ∧
        a.selfMembers ⊆ ["len", "cap", "tag"]) &&
      decide ((s.invariant.alternatives.flatten.map (·.key)).Nodup) &&
      (m.items.any fun i => (g.edgesFrom i.path).any fun e =>
        decide (e.target = s.path) && decide (e.required.text = "n <= self.cap") &&
        decide (((e.calleeTerms.restated (Edge.internalsRenaming e.site.operation)).map (·.key)).Nodup) &&
        decide (e.site.operation.WritesSelf "len" "n")) &&
      m.items.any fun i => (g.edgesFrom i.path).any fun e =>
        decide (e.target = s.path) && decide (e.required.text = "k <= n and n <= limits.MAX and known(t)") &&
        decide (((e.calleeTerms.restated (Edge.internalsRenaming e.site.operation)).map (·.key)).Nodup) &&
        (decide (e.kind = .structLiteral) &&
          decide (e.site.operation.fields = [("tag", "t"), ("cap", "n"), ("len", "k")]))) = true := by
    decide +kernel
  have hoperands : ["n", "k", "t"].all (fun id =>
      decide ((Reading.operand id).toOption = some (.name id))) = true := by decide +kernel
  have hoperand : ∀ id ∈ ["n", "k", "t"], ∀ x, Reading.operand id = .ok x → x = .name id := by
    intro id hid x hx
    have hread := List.all_eq_true.mp hoperands id hid
    rw [hx] at hread
    exact Option.some.inj (of_decide_eq_true hread)
  obtain ⟨m, g, hm, hg, hcheck⟩ := Run.examine_eq_true_iff.mp hcheck
  simp only [Bool.and_eq_true, List.any_eq_true, decide_eq_true_eq] at hcheck
  obtain ⟨s, hs, ⟨⟨⟨htext, hatoms⟩, hdistinct⟩, hwrite⟩, hliteral⟩ := hcheck
  have hreads : ∀ a ∈ s.invariant.alternatives.flatten, a.ReadsMembers := fun a ha => (hatoms a ha).1
  have hapart {D : Type} (σ : Situation D) (fields : List (String × String))
      (hfields : ∀ pair ∈ fields, pair.2 ∈ ["n", "k", "t"]) :
      ∀ a ∈ s.invariant.alternatives.flatten, a.Apart σ fields := by
    intro a ha pair hpair _ x hx id hid hin
    rw [hoperand pair.2 (hfields pair hpair) x hx, Expr.names, List.mem_singleton] at hid
    have hlimits : id = "limits" := List.mem_singleton.mp ((hatoms a ha).2.1 hin)
    have hvariable := hfields pair hpair
    rw [← hid, hlimits] at hvariable
    exact absurd hvariable (by decide)
  refine ⟨m, g, hm, hg, s, hs, htext, ?_, ?_⟩
  · obtain ⟨i, hi, e, he, ⟨⟨htarget, hrequired⟩, hkeys⟩, hwrites⟩ := hwrite
    refine ⟨i, hi, e, he, hrequired, fun D σ made hlen hothers => ?_⟩
    refine (internals_obligation_is_precondition hm hg hi he hs htarget hreads σ
      (Conjunction.KeysDistinct.respectsKeys hkeys σ) made).1 "len" "n" hwrites
      (hapart σ _ (by simp)) (Conjunction.KeysDistinct.respectsKeys hdistinct σ)
      (Conjunction.KeysDistinct.respectsKeys hdistinct _) ?_ hothers
    intro x hx
    rw [hoperand "n" (by simp) x hx]
    exact hlen
  · obtain ⟨i, hi, e, he, ⟨⟨htarget, hrequired⟩, hkeys⟩, hkind, hfields⟩ := hliteral
    refine ⟨i, hi, e, he, hrequired, fun D σ made hlen hcap htag => ?_⟩
    refine (internals_obligation_is_precondition hm hg hi he hs htarget hreads σ
      (Conjunction.KeysDistinct.respectsKeys hkeys σ) made).2 hkind
      (hapart σ _ (by simp [hfields])) (fun a ha field hfield => ?_) ?_
    · have hmem := (hatoms a ha).2.2 hfield
      simp only [List.mem_cons, List.not_mem_nil, or_false] at hmem
      rcases hmem with rfl | rfl | rfl <;> rw [hfields] <;> decide
    · intro field text x hlookup hx
      rw [hfields] at hlookup
      obtain ⟨before, after, hsplit, -⟩ := List.lookup_eq_some_iff.mp hlookup
      have hmem : (field, text) ∈ [("tag", "t"), ("cap", "n"), ("len", "k")] := by simp [hsplit]
      simp only [List.mem_cons, Prod.mk.injEq, List.not_mem_nil, or_false] at hmem
      rcases hmem with ⟨rfl, rfl⟩ | ⟨rfl, rfl⟩ | ⟨rfl, rfl⟩
      · rw [hoperand "t" (by simp) x hx]
        exact htag
      · rw [hoperand "n" (by simp) x hx]
        exact hcap
      · rw [hoperand "k" (by simp) x hx]
        exact hlen

/-- A state in which a call gives its last argument, and only the text with two blanks is true. -/
def blankState : Situation String where
  meaning :=
    { number := fun _ digits => digits
      quoted := id
      unit := ""
      member := fun object name =>
        if object == "new" && name == "b" || object == "local" then "\"x y\"" else "\"x  y\""
      call := fun _ args => ((args.filterMap Sum.getRight?).getLast?).getD ""
      minus := id
      negation := id
      junction := fun left _ _ => left
      compare := fun left _ _ => left
      chain := fun left _ _ => left
      compound := fun _ _ => "" }
  IsTrue v := v = "\"x  y\""
  heads _ := "head"
  vars id := if id == "ptr" then "local" else "old"

instance : DecidablePred blankState.IsTrue := fun v => inferInstanceAs (Decidable (v = "\"x  y\""))

/-- Two texts that differ in a blank are written to members that each have a condition of their own, and a variable
with the name of a path is. -/
def blankTexts : Snapshot :=
  { items :=
      [.struct
        { path := "crate::Span", fields := [{ name := "b" }],
          invariant := ["precedes(self.b, \"x  y\")", "precedes(\"x y\", self.b)"] },
      .struct
        { path := "crate::Pair", fields := [{ name := "a" }, { name := "b" }],
          invariant := ["known(self.a)", "known(self.b)"] },
      .struct
        { path := "crate::Cell", fields := [{ name := "b" }], invariant := ["ptr::aligned(self.b)"] },
      .function
        { path := "crate::Span::move", kind := .method, owner := some "crate::Span",
          body := [{ kind := .fieldWrite, target := "crate::Span", field := some "b", value := some "\"x y\"" }] },
      .function
        { path := "crate::pair",
          body :=
            [{ kind := .structLiteral, target := "crate::Pair",
                fields := [("a", "\"x  y\""), ("b", "\"x y\"")] }] },
      .function
        { path := "crate::cell",
          body := [{ kind := .structLiteral, target := "crate::Cell", fields := [("b", "ptr.x")] }] }] }

/-- Atoms that differ in a blank of a text are kept once, and a variable with the name of a path is taken for its
head. So a write leaves the invariant false, and two literals make values of which it is false, although what they
require is true. -/
theorem blankTexts_break_invariants :
    ∃ m g, (Model.build {} blankTexts).outcome = .ok m ∧ (m.graph {}).outcome = .ok g ∧
      (∃ i ∈ m.items, ∃ e ∈ g.edgesFrom i.path, ∃ s ∈ m.structs, e.target = s.path ∧
        (∀ a ∈ s.invariant.alternatives.flatten, a.ReadsMembers) ∧
        e.site.operation.WritesSelf "b" "\"x y\"" ∧
        (∀ x, Reading.operand "\"x y\"" = .ok x → x.names [] = [] ∧
          blankState.meaning.member "new" "b" = blankState.valueOf x) ∧
        (∀ other, other ≠ "b" → blankState.meaning.member "new" other = blankState.ownMember other) ∧
        s.invariant.TrueIn blankState ∧ e.required.TrueIn blankState ∧
        ¬ s.invariant.TrueIn (blankState.withSelf "new")) ∧
      ∀ target ∈ ["crate::Pair", "crate::Cell"], ∃ i ∈ m.items, ∃ e ∈ g.edgesFrom i.path, ∃ s ∈ m.structs,
        e.target = s.path ∧ s.path = target ∧ e.kind = .structLiteral ∧
        (∀ a ∈ s.invariant.alternatives.flatten, a.ReadsMembers ∧
          ∀ field ∈ a.selfMembers, (e.site.operation.fields.lookup field).isSome = true) ∧
        (∀ pair ∈ e.site.operation.fields, ∀ x, Reading.operand pair.2 = .ok x →
          blankState.meaning.member "new" pair.1 = blankState.valueOf x) ∧
        e.required.TrueIn blankState ∧ ¬ s.invariant.TrueIn (blankState.withSelf "new") := by
  have hcheck : Run.examine {} blankTexts (fun m g =>
      (m.items.any fun i => (g.edgesFrom i.path).any fun e => m.structs.any fun s =>
        decide (e.target = s.path) && decide (∀ a ∈ s.invariant.alternatives.flatten, a.ReadsMembers) &&
        decide (e.site.operation.WritesSelf "b" "\"x y\"") &&
        decide (s.invariant.TrueIn blankState) && decide (e.required.TrueIn blankState) &&
        decide (¬ s.invariant.TrueIn (blankState.withSelf "new"))) &&
      ["crate::Pair", "crate::Cell"].all fun target => m.items.any fun i =>
        (g.edgesFrom i.path).any fun e => m.structs.any fun s =>
          decide (e.target = s.path) && decide (s.path = target) && decide (e.kind = .structLiteral) &&
          decide (∀ a ∈ s.invariant.alternatives.flatten, a.ReadsMembers ∧
            ∀ field ∈ a.selfMembers, (e.site.operation.fields.lookup field).isSome = true) &&
          (e.site.operation.fields.all fun pair => (Reading.operand pair.2).toOption.all fun x =>
            decide (blankState.meaning.member "new" pair.1 = blankState.valueOf x)) &&
          decide (e.required.TrueIn blankState) && decide (¬ s.invariant.TrueIn (blankState.withSelf "new"))) =
      true := by decide +kernel
  have hvalue : ((Reading.operand "\"x y\"").toOption.all fun x => decide (x.names [] = []) &&
      decide (blankState.meaning.member "new" "b" = blankState.valueOf x)) = true := by decide +kernel
  obtain ⟨m, g, hm, hg, hcheck⟩ := Run.examine_eq_true_iff.mp hcheck
  simp only [Bool.and_eq_true, List.any_eq_true, List.all_eq_true, decide_eq_true_eq] at hcheck
  obtain ⟨⟨i, hi, e, he, s, hs, ⟨⟨⟨⟨htarget, hreads⟩, hwrites⟩, hbefore⟩, hrequired⟩, hafter⟩, hliterals⟩ := hcheck
  refine ⟨m, g, hm, hg, ⟨i, hi, e, he, s, hs, htarget, hreads, hwrites, ?_, ?_, hbefore, hrequired, hafter⟩, ?_⟩
  · intro x hx
    simpa [hx, Except.toOption] using hvalue
  · intro other hother
    simp [blankState, Situation.ownMember, selfName, hother]
  · intro target ht
    obtain ⟨i, hi, e, he, s, hs, ⟨⟨⟨⟨⟨htarget, hpath⟩, hliteral⟩, hatoms⟩, hfields⟩, hrequired⟩, hmade⟩ :=
      hliterals target ht
    refine ⟨i, hi, e, he, s, hs, htarget, hpath, hliteral, hatoms, fun pair hpair x hx => ?_, hrequired, hmade⟩
    simpa [hx, Except.toOption] using hfields pair hpair

end CrateSafety
