import CrateSafety.Proofs.Legibility
import CrateSafety.Proofs.SimultaneousRenaming

/-!
# Renaming of variables and members

What a renamed atom means when members of `self` are replaced besides variables. Heads of paths are constants.
Each replaced member denotes the value of its replacement, each other occurrence of a replaced variable, `self`
among them, denotes the value of its own, and nothing else changes. Two things could go wrong, and are excluded:
a replacement that brings in a variable with the name of a head, and a replaced member that is called, since a
name in its place would be the name of a predicate.
-/

namespace CrateSafety

/-- What names and members denote. -/
structure Environment (D : Type) where
  /-- Heads of paths. -/
  heads : String → D
  /-- Variables. -/
  vars : String → D
  /-- Members of `self` with a value of their own; any other is taken of what `self` denotes. -/
  members : String → Option D

/-- What a member of a name denotes. -/
def Environment.memberOf {D : Type} (env : Environment D) (I : Interpretation D) (paths : List String)
    (id field : String) : D :=
  if paths.contains id then I.member (env.heads id) field
  else if id = selfName then (env.members field).getD (I.member (env.vars id) field)
  else I.member (env.vars id) field

mutual

/-- The value of an expression in an environment. -/
def Expr.value {D : Type} (I : Interpretation D) (paths : List String) (env : Environment D) : Expr → D
  | .name id => env.vars id
  | .number kind digits => I.number kind digits
  | .quoted literal => I.quoted literal
  | .unit _ => I.unit
  | .paren _ body _ => body.value I paths env
  | .member object _ field =>
    match object.asName? with
    | some id => env.memberOf I paths id field
    | none => I.member (object.value I paths env) field
  | .call callee args =>
    I.call
      (match callee.asName? with
        | some id => .inl id
        | none => .inr (callee.value I paths env))
      (args.value I paths env)
  | .minus _ operand => I.minus (operand.value I paths env)
  | .negation _ operand => I.negation (operand.value I paths env)
  | .junction left op _ right => I.junction (left.value I paths env) op (right.value I paths env)
  | .compare left op _ right => I.compare (left.value I paths env) op (right.value I paths env)
  | .chain left op _ rest => I.chain (left.value I paths env) op (rest.value I paths env)
  | .compound shape parts => I.compound shape (parts.value I paths env)

/-- The texts of a list of parts, with the values of its operands. -/
def Parts.value {D : Type} (I : Interpretation D) (paths : List String) (env : Environment D) :
    Parts → List (String ⊕ D)
  | .nil => []
  | .text piece rest => .inl piece :: rest.value I paths env
  | .child operand rest => .inr (operand.value I paths env) :: rest.value I paths env

end

/-- The member of `self` that an expression is, parentheses disregarded. -/
def Expr.asSelfMember? (e : Expr) : Option String :=
  match e.core with
  | .member object _ field => if object.asName? = some selfName then some field else none
  | _ => none

mutual

/-- The members of `self` that an expression calls. -/
def Expr.calledMembers : Expr → List String
  | .name _ => []
  | .number _ _ => []
  | .quoted _ => []
  | .unit _ => []
  | .paren _ body _ => body.calledMembers
  | .member object _ _ => object.calledMembers
  | .call callee args => callee.asSelfMember?.toList ++ (callee.calledMembers ++ args.calledMembers)
  | .minus _ operand => operand.calledMembers
  | .negation _ operand => operand.calledMembers
  | .junction left _ _ right => left.calledMembers ++ right.calledMembers
  | .compare left _ _ right => left.calledMembers ++ right.calledMembers
  | .chain left _ _ rest => left.calledMembers ++ rest.calledMembers
  | .compound _ parts => parts.calledMembers

/-- The members of `self` that a list of parts calls. -/
def Parts.calledMembers : Parts → List String
  | .nil => []
  | .text _ rest => rest.calledMembers
  | .child operand rest => operand.calledMembers ++ rest.calledMembers

end

variable {D : Type} {I : Interpretation D} {paths : List String} {heads vars : String → D} {env : Environment D}

namespace Expr

@[simp] theorem value_core (e : Expr) : e.core.value I paths env = e.value I paths env := by
  cases e with
  | paren lead body trail =>
    rw [core, value]
    exact value_core body
  | _ => rfl

theorem value_of_asName? {e : Expr} {id : String} (h : e.asName? = some id) :
    e.value I paths env = env.vars id := by
  rw [← value_core, asName?_eq_some_iff.mp h, value]

theorem asName?_guarded (e : Expr) : e.guarded.asName? = e.asName? := by
  unfold guarded
  split <;> rfl

end Expr

section Plain

/-- The environment in which all members are taken of what `self` denotes. -/
def Environment.plain (heads vars : String → D) : Environment D := ⟨heads, vars, fun _ => none⟩

theorem Environment.memberOf_plain (id field : String) :
    (plain heads vars).memberOf I paths id field =
      I.member (if paths.contains id then heads id else vars id) field := by
  unfold memberOf plain
  split
  · rfl
  · simp

mutual

/-- Where no member has a value of its own, the value of an expression is its meaning. -/
theorem Expr.value_plain : ∀ e : Expr,
    e.value I paths (.plain heads vars) = e.eval I paths heads vars
  | .name _ => rfl
  | .number _ _ => rfl
  | .quoted _ => rfl
  | .unit _ => rfl
  | .paren lead body trail => by rw [Expr.value, Expr.eval, Expr.value_plain body]
  | .member object dot field => by
    rw [Expr.value, Expr.eval]
    cases object.asName? with
    | some id => exact Environment.memberOf_plain id field
    | none => rw [Expr.value_plain object]
  | .call callee args => by
    rw [Expr.value, Expr.eval]
    cases callee.asName? with
    | some id => rw [Parts.value_plain args]
    | none => rw [Expr.value_plain callee, Parts.value_plain args]
  | .minus gap operand => by rw [Expr.value, Expr.eval, Expr.value_plain operand]
  | .negation gap operand => by rw [Expr.value, Expr.eval, Expr.value_plain operand]
  | .junction left op spelling right => by
    rw [Expr.value, Expr.eval, Expr.value_plain left, Expr.value_plain right]
  | .compare left op spelling right => by
    rw [Expr.value, Expr.eval, Expr.value_plain left, Expr.value_plain right]
  | .chain left op spelling rest => by
    rw [Expr.value, Expr.eval, Expr.value_plain left, Expr.value_plain rest]
  | .compound shape parts => by rw [Expr.value, Expr.eval, Parts.value_plain parts]

theorem Parts.value_plain : ∀ parts : Parts,
    parts.value I paths (.plain heads vars) = parts.eval I paths heads vars
  | .nil => rfl
  | .text piece rest => by rw [Parts.value, Parts.eval, Parts.value_plain rest]
  | .child operand rest => by
    rw [Parts.value, Parts.eval, Expr.value_plain operand, Parts.value_plain rest]

end

end Plain

namespace Expr

variable {object callee : Expr} {args : Parts} {id : String}

theorem selfMembers_member_of_name {dot field : String} (h : object.asName? = some id) :
    (member object dot field).selfMembers paths =
      if paths.contains id || id != selfName then [] else [field] := by
  rw [selfMembers, asName?_eq_some_iff.mp h]

theorem selfMembers_member_of_none {dot field : String} (h : object.asName? = none) :
    (member object dot field).selfMembers paths = object.selfMembers paths := by
  rw [selfMembers]
  split
  case h_1 id hcore => exact absurd hcore (core_ne_name h id)
  case h_2 => rfl

theorem selfMembers_call_of_name (h : callee.asName? = some id) :
    (call callee args).selfMembers paths = args.selfMembers paths := by
  rw [selfMembers, asName?_eq_some_iff.mp h]
  rfl

theorem selfMembers_call_of_none (h : callee.asName? = none) :
    (call callee args).selfMembers paths = callee.selfMembers paths ++ args.selfMembers paths := by
  rw [selfMembers]
  split
  case h_1 id hcore => exact absurd hcore (core_ne_name h id)
  case h_2 => rfl

end Expr

/-- Two environments agree on variables and members. -/
structure Environment.Agree (env env' : Environment D) (names members : List String) : Prop where
  /-- The heads of paths are the same. -/
  heads : env.heads = env'.heads
  /-- The variables have the same values. -/
  vars : ∀ id ∈ names, env.vars id = env'.vars id
  /-- The members have the same values. -/
  members : ∀ m ∈ members, env.members m = env'.members m

namespace Environment.Agree

variable {env' : Environment D} {names names' members members' : List String}

theorem mono (h : env.Agree env' names members) (hn : names' ⊆ names) (hm : members' ⊆ members) :
    env.Agree env' names' members' :=
  ⟨h.heads, fun id hid => h.vars id (hn hid), fun m hmem => h.members m (hm hmem)⟩

theorem left (h : env.Agree env' (names ++ names') (members ++ members')) : env.Agree env' names members :=
  h.mono (List.subset_append_left _ _) (List.subset_append_left _ _)

theorem right (h : env.Agree env' (names ++ names') (members ++ members')) : env.Agree env' names' members' :=
  h.mono (List.subset_append_right _ _) (List.subset_append_right _ _)

end Environment.Agree

mutual

/-- The value of an expression depends on its variables and on the members that it takes of `self` only. -/
theorem Expr.value_congr {env' : Environment D} : ∀ e : Expr,
    env.Agree env' (e.names paths) (e.selfMembers paths) → e.value I paths env = e.value I paths env'
  | .name id, h => h.vars id (by simp [Expr.names])
  | .number _ _, _ => rfl
  | .quoted _, _ => rfl
  | .unit _, _ => rfl
  | .paren lead body trail, h => by
    rw [Expr.value, Expr.value]
    exact Expr.value_congr body h
  | .member object dot field, h => by
    rw [Expr.value, Expr.value]
    cases hname : object.asName? with
    | some id =>
      rw [Expr.names_member_of_name hname, Expr.selfMembers_member_of_name hname] at h
      simp only [Environment.memberOf]
      cases hin : paths.contains id with
      | true => simp [h.heads]
      | false =>
        simp only [hin, Bool.false_eq_true, if_false, Bool.false_or] at h
        have hvar : env.vars id = env'.vars id := h.vars id (by simp)
        by_cases hself : id = selfName
        · subst hself
          have hmember : env.members field = env'.members field := h.members field (by simp)
          simp [hmember, hvar]
        · simp [hself, hvar]
    | none =>
      rw [Expr.names_member_of_none hname, Expr.selfMembers_member_of_none hname] at h
      rw [Expr.value_congr object h]
  | .call callee args, h => by
    rw [Expr.value, Expr.value]
    cases hname : callee.asName? with
    | some id =>
      rw [Expr.names_call_of_name hname, Expr.selfMembers_call_of_name hname] at h
      rw [Parts.value_congr args h]
    | none =>
      rw [Expr.names_call_of_none hname, Expr.selfMembers_call_of_none hname] at h
      rw [Expr.value_congr callee h.left, Parts.value_congr args h.right]
  | .minus gap operand, h => by
    rw [Expr.value, Expr.value, Expr.value_congr operand h]
  | .negation gap operand, h => by
    rw [Expr.value, Expr.value, Expr.value_congr operand h]
  | .junction left op spelling right, h => by
    rw [Expr.names, Expr.selfMembers] at h
    rw [Expr.value, Expr.value, Expr.value_congr left h.left, Expr.value_congr right h.right]
  | .compare left op spelling right, h => by
    rw [Expr.names, Expr.selfMembers] at h
    rw [Expr.value, Expr.value, Expr.value_congr left h.left, Expr.value_congr right h.right]
  | .chain left op spelling rest, h => by
    rw [Expr.names, Expr.selfMembers] at h
    rw [Expr.value, Expr.value, Expr.value_congr left h.left, Expr.value_congr rest h.right]
  | .compound shape parts, h => by
    rw [Expr.value, Expr.value, Parts.value_congr parts h]

theorem Parts.value_congr {env' : Environment D} : ∀ parts : Parts,
    env.Agree env' (parts.names paths) (parts.selfMembers paths) →
      parts.value I paths env = parts.value I paths env'
  | .nil, _ => rfl
  | .text piece rest, h => by
    rw [Parts.value, Parts.value, Parts.value_congr rest h]
  | .child operand rest, h => by
    rw [Parts.names, Parts.selfMembers] at h
    rw [Parts.value, Parts.value, Expr.value_congr operand h.left, Parts.value_congr rest h.right]

end

namespace Expr

/-- Parentheses hide no variable. -/
theorem names_core (e : Expr) : e.core.names paths = e.names paths := by
  cases e with
  | paren lead body trail =>
    rw [core, names]
    exact names_core body
  | _ => rfl

theorem names_of_asName? {e : Expr} {id : String} (h : e.asName? = some id) : e.names paths = [id] := by
  rw [← names_core, asName?_eq_some_iff.mp h, names]

theorem names_member_nil (object : Expr) (dot field : String) :
    (member object dot field).names [] = object.names [] := by
  cases hname : object.asName? with
  | some id => rw [names_member_of_name hname, names_of_asName? hname]; rfl
  | none => exact names_member_of_none hname

/-- A member is taken of the value of its object, unless that is a head with a value of its own. -/
theorem eval_member_of_apart {object : Expr} {dot field : String}
    (h : ∀ id, object.asName? = some id → id ∈ paths → heads id = vars id) :
    (member object dot field).eval I paths heads vars = I.member (object.eval I paths heads vars) field := by
  rw [eval]
  cases hname : object.asName? with
  | none => rfl
  | some id =>
    rw [eval_of_asName? hname]
    dsimp only
    split
    case isTrue hin => rw [h id hname (List.contains_iff_mem.mp hin)]
    case isFalse => rfl

end Expr

mutual

/-- An expression whose variables are no heads of paths, or denote the same as heads, means the same whether or
not the heads are told apart. -/
theorem Expr.eval_of_apart : ∀ e : Expr,
    (∀ id ∈ e.names [], id ∈ paths → heads id = vars id) → e.eval I paths heads vars = e.eval I [] vars vars
  | .name _, _ => rfl
  | .number _ _, _ => rfl
  | .quoted _, _ => rfl
  | .unit _, _ => rfl
  | .paren lead body trail, h => by
    rw [Expr.eval, Expr.eval]
    exact Expr.eval_of_apart body h
  | .member object dot field, h => by
    rw [Expr.names_member_nil] at h
    have hname : ∀ id, object.asName? = some id → id ∈ paths → heads id = vars id := fun id hid =>
      h id (by simp [Expr.names_of_asName? hid])
    rw [Expr.eval_member_same, Expr.eval_member_of_apart hname, Expr.eval_of_apart object h]
  | .call callee args, h => by
    rw [Expr.eval, Expr.eval]
    cases hname : callee.asName? with
    | some id =>
      rw [Expr.names_call_of_name hname] at h
      rw [Parts.eval_of_apart args h]
    | none =>
      rw [Expr.names_call_of_none hname, List.forall_mem_append] at h
      rw [Expr.eval_of_apart callee h.1, Parts.eval_of_apart args h.2]
  | .minus gap operand, h => by
    rw [Expr.eval, Expr.eval, Expr.eval_of_apart operand h]
  | .negation gap operand, h => by
    rw [Expr.eval, Expr.eval, Expr.eval_of_apart operand h]
  | .junction left op spelling right, h => by
    rw [Expr.names, List.forall_mem_append] at h
    rw [Expr.eval, Expr.eval, Expr.eval_of_apart left h.1, Expr.eval_of_apart right h.2]
  | .compare left op spelling right, h => by
    rw [Expr.names, List.forall_mem_append] at h
    rw [Expr.eval, Expr.eval, Expr.eval_of_apart left h.1, Expr.eval_of_apart right h.2]
  | .chain left op spelling rest, h => by
    rw [Expr.names, List.forall_mem_append] at h
    rw [Expr.eval, Expr.eval, Expr.eval_of_apart left h.1, Expr.eval_of_apart rest h.2]
  | .compound shape parts, h => by
    rw [Expr.eval, Expr.eval, Parts.eval_of_apart parts h]

theorem Parts.eval_of_apart : ∀ parts : Parts,
    (∀ id ∈ parts.names [], id ∈ paths → heads id = vars id) →
      parts.eval I paths heads vars = parts.eval I [] vars vars
  | .nil, _ => rfl
  | .text piece rest, h => by
    rw [Parts.eval, Parts.eval, Parts.eval_of_apart rest h]
  | .child operand rest, h => by
    rw [Parts.names, List.forall_mem_append] at h
    rw [Parts.eval, Parts.eval, Expr.eval_of_apart operand h.1, Parts.eval_of_apart rest h.2]

end

namespace Expr

theorem asSelfMember?_of_core {e object : Expr} {dot field : String} (h : e.core = member object dot field)
    (hself : object.asName? = some selfName) : e.asSelfMember? = some field := by
  rw [asSelfMember?, h]
  exact if_pos hself

end Expr

namespace Substitution

variable {s : Substitution}

theorem member?_eq_some_iff {object e : Expr} {field : String} :
    s.member? object field = some e ↔ object.asName? = some selfName ∧ s.selfFields.lookup field = some e := by
  unfold member?
  split
  case h_1 id hcore =>
    rw [Expr.asName?_eq_some_iff, hcore]
    by_cases hid : id = selfName
    · simp [hid]
    · simp [hid]
  case h_2 hne =>
    have hnone : object.asName? ≠ some selfName := fun h => hne _ (Expr.asName?_eq_some_iff.mp h)
    simp [hnone]

/-- What takes the place of variables and members. -/
def replacements (s : Substitution) : List Expr := s.names.map (·.2) ++ s.selfFields.map (·.2)

theorem mem_replacements_of_name? {id : String} {e : Expr} (h : s.name? id = some e) : e ∈ s.replacements := by
  obtain ⟨before, after, hnames, -⟩ := List.lookup_eq_some_iff.mp h
  simp [replacements, hnames]

theorem mem_replacements_of_lookup {field : String} {e : Expr} (h : s.selfFields.lookup field = some e) :
    e ∈ s.replacements := by
  obtain ⟨before, after, hfields, -⟩ := List.lookup_eq_some_iff.mp h
  simp [replacements, hfields]

/-- What names and members denote under a substitution: the values of their replacements, if they have one. -/
def environment (s : Substitution) (I : Interpretation D) (heads vars : String → D) : Environment D where
  heads := heads
  vars id := ((s.name? id).map fun e => e.eval I [] vars vars).getD (vars id)
  members m := (s.selfFields.lookup m).map fun e => e.eval I [] vars vars

/-- A substitution fits given values: variables that replacements bring in denote the same as the heads of
paths that have their names, and where `self` is a head no member of it is replaced. -/
structure Fits (s : Substitution) (heads vars : String → D) : Prop where
  /-- Variables of replacements denote what heads with their names do. -/
  apart : ∀ e ∈ s.replacements, ∀ id ∈ e.names [], id ∈ s.paths → heads id = vars id
  /-- Members of a head are not replaced. -/
  headless : selfName ∈ s.paths → s.selfFields = []

theorem Fits.eval_replacement (hs : s.Fits heads vars) {e : Expr} (he : e ∈ s.replacements) :
    e.eval I s.paths heads vars = e.eval I [] vars vars :=
  e.eval_of_apart (hs.apart e he)

end Substitution

namespace Expr

variable {s : Substitution}

/-- A variable that is left by a substitution was there before, or is a replacement. -/
theorem asName?_subst_cases {e : Expr} {id : String} (h : (e.subst s).asName? = some id) :
    e.asName? = some id ∨ ∃ r ∈ s.replacements, r.asName? = some id := by
  cases e with
  | name id' =>
    rw [subst] at h
    cases hname : s.name? id' with
    | none => exact .inl (by simpa [hname] using h)
    | some r =>
      rw [hname, Option.map_some, Option.getD_some, asName?_guarded] at h
      exact .inr ⟨r, Substitution.mem_replacements_of_name? hname, h⟩
  | paren lead body trail =>
    rw [subst] at h
    have hbody : (body.subst s).asName? = some id := by
      split at h <;> exact h
    exact asName?_subst_cases (e := body) hbody
  | member object dot field =>
    rw [subst] at h
    cases hmember : s.member? object field with
    | none =>
      rw [hmember] at h
      dsimp only at h
      split at h <;> cases h
    | some r =>
      rw [hmember] at h
      refine .inr ⟨r, Substitution.mem_replacements_of_lookup (Substitution.member?_eq_some_iff.mp hmember).2, ?_⟩
      rwa [← asName?_guarded]
  | _ => cases h

/-- An expression other than a variable becomes none, unless it is a member that is replaced. -/
theorem asName?_subst_of_kept {e : Expr} (h : e.asName? = none)
    (hm : ∀ m, e.asSelfMember? = some m → s.selfFields.lookup m = none) : (e.subst s).asName? = none := by
  cases e with
  | name id => cases h
  | paren lead body trail =>
    have hbody : body.asName? = none := h
    have hkept : s.replaces body = false := by
      unfold Substitution.replaces
      split
      case h_1 id heq => exact absurd heq (core_ne_name hbody id)
      case h_2 object dot field heq =>
        cases hmember : s.member? object field with
        | none => rfl
        | some r =>
          obtain ⟨hself, hlookup⟩ := Substitution.member?_eq_some_iff.mp hmember
          rw [hm field (asSelfMember?_of_core heq hself)] at hlookup
          cases hlookup
      case h_3 => rfl
    rw [subst, hkept, if_neg Bool.false_ne_true]
    exact asName?_subst_of_kept (e := body) hbody hm
  | member object dot field =>
    rw [subst]
    cases hmember : s.member? object field with
    | none =>
      dsimp only
      split <;> rfl
    | some r =>
      obtain ⟨hself, hlookup⟩ := Substitution.member?_eq_some_iff.mp hmember
      rw [hm field (asSelfMember?_of_core rfl hself)] at hlookup
      cases hlookup
  | _ => rfl

end Expr

/-- A member that is not replaced, and is of no head, is taken of what its object denotes. -/
theorem Expr.value_member_of_kept {s : Substitution} {object : Expr} {dot field : String}
    (hhead : ∀ id, object.asName? = some id → id ∉ s.paths) (hmember : s.member? object field = none) :
    (member object dot field).value I s.paths (s.environment I heads vars) =
      I.member (object.value I s.paths (s.environment I heads vars)) field := by
  rw [value]
  cases hname : object.asName? with
  | none => rfl
  | some id =>
    have hin : s.paths.contains id = false := by simpa using hhead id hname
    rw [value_of_asName? hname]
    simp only [Environment.memberOf, hin, Bool.false_eq_true, if_false]
    split
    case isTrue hself =>
      have hlookup : s.selfFields.lookup field = none := by
        rw [Option.eq_none_iff_forall_ne_some]
        intro e he
        rw [Substitution.member?_eq_some_iff.mpr ⟨hself ▸ hname, he⟩] at hmember
        cases hmember
      simp [Substitution.environment, hlookup]
    case isFalse => rfl

/-- Members that are called are not replaced. -/
def Substitution.Spares (s : Substitution) (called : List String) : Prop :=
  ∀ m ∈ called, s.selfFields.lookup m = none

theorem Substitution.spares_append {s : Substitution} {called more : List String} :
    s.Spares (called ++ more) ↔ s.Spares called ∧ s.Spares more :=
  List.forall_mem_append

mutual

/-- An expression with variables and members replaced means what the expression means where they denote the
values of their replacements. -/
theorem Expr.eval_subst_of_fits {s : Substitution} (hs : s.Fits heads vars) : ∀ e : Expr,
    s.Spares e.calledMembers →
      (e.subst s).eval I s.paths heads vars = e.value I s.paths (s.environment I heads vars)
  | .name id, _ => by
    rw [Expr.subst, Expr.value]
    cases hname : s.name? id with
    | none => simp [Substitution.environment, hname, Expr.eval]
    | some e =>
      have he := hs.eval_replacement (I := I) (Substitution.mem_replacements_of_name? hname)
      simp [Substitution.environment, hname, he]
  | .number _ _, _ => rfl
  | .quoted _, _ => rfl
  | .unit _, _ => rfl
  | .paren lead body trail, hcalled => by
    have hbody := Expr.eval_subst_of_fits hs body hcalled
    rw [Expr.subst, Expr.value]
    split
    · exact hbody
    · rw [Expr.eval]
      exact hbody
  | .member object dot field, hcalled => by
    have hobject := Expr.eval_subst_of_fits hs object hcalled
    rw [Expr.subst]
    cases hmember : s.member? object field with
    | some e =>
      obtain ⟨hself, hlookup⟩ := Substitution.member?_eq_some_iff.mp hmember
      have hheadless : selfName ∉ s.paths := by
        intro hin
        rw [hs.headless hin] at hlookup
        cases hlookup
      have he := hs.eval_replacement (I := I) (Substitution.mem_replacements_of_lookup hlookup)
      simp [Expr.value, hself, Environment.memberOf, hheadless, Substitution.environment, hlookup, he]
    | none =>
      dsimp only
      split
      case isTrue hkeeps =>
        -- a member of the head of a path stays, and is taken of the same constant on both sides
        obtain ⟨id, hid, hin⟩ := Substitution.keeps_eq_true_iff.mp hkeeps
        simp only [Expr.eval, Expr.value, hid, Environment.memberOf, List.contains_iff_mem.mpr hin, if_true]
        rfl
      case isFalse hkeeps =>
        have hhead : ∀ id, object.asName? = some id → id ∉ s.paths := fun id hid hin =>
          hkeeps (Substitution.keeps_eq_true_iff.mpr ⟨id, hid, hin⟩)
        -- a name in the place of the object came in with a replacement
        have hapart : ∀ id, (object.subst s).asName? = some id → id ∈ s.paths → heads id = vars id := by
          intro id hid hin
          rcases Expr.asName?_subst_cases hid with hname | ⟨r, hr, hname⟩
          · exact absurd hin (hhead id hname)
          · exact hs.apart r hr id (by simp [Expr.names_of_asName? hname]) hin
        rw [Expr.eval_member_of_apart hapart, hobject, Expr.value_member_of_kept hhead hmember]
  | .call callee args, hcalled => by
    obtain ⟨hdirect, hrest⟩ := Substitution.spares_append.mp hcalled
    obtain ⟨hinCallee, hinArgs⟩ := Substitution.spares_append.mp hrest
    have hcallee := Expr.eval_subst_of_fits hs callee hinCallee
    have hargs := Parts.eval_substArgs_of_fits hs args hinArgs
    cases hname : callee.asName? with
    | some id => rw [Expr.subst_call_of_name hname, Expr.eval, Expr.value, hargs, hname]
    | none =>
      have hkept : (callee.subst s).asName? = none :=
        Expr.asName?_subst_of_kept hname fun m hm => hdirect m (by simp [hm])
      rw [Expr.subst_call_of_none hname, Expr.eval, Expr.value, hargs, hname, hkept, hcallee]
  | .minus gap operand, hcalled => by
    rw [Expr.subst, Expr.eval, Expr.value, Expr.eval_subst_of_fits hs operand hcalled]
  | .negation gap operand, hcalled => by
    rw [Expr.subst, Expr.eval, Expr.value, Expr.eval_subst_of_fits hs operand hcalled]
  | .junction left op spelling right, hcalled => by
    obtain ⟨hleft, hright⟩ := Substitution.spares_append.mp hcalled
    rw [Expr.subst, Expr.eval, Expr.value, Expr.eval_subst_of_fits hs left hleft,
      Expr.eval_subst_of_fits hs right hright]
  | .compare left op spelling right, hcalled => by
    obtain ⟨hleft, hright⟩ := Substitution.spares_append.mp hcalled
    rw [Expr.subst, Expr.eval, Expr.value, Expr.eval_subst_of_fits hs left hleft,
      Expr.eval_subst_of_fits hs right hright]
  | .chain left op spelling rest, hcalled => by
    obtain ⟨hleft, hrest⟩ := Substitution.spares_append.mp hcalled
    rw [Expr.subst, Expr.eval, Expr.value, Expr.eval_subst_of_fits hs left hleft,
      Expr.eval_subst_of_fits hs rest hrest]
  | .compound shape parts, hcalled => by
    rw [Expr.subst, Expr.eval, Expr.value, Parts.eval_subst_of_fits hs parts hcalled]

theorem Parts.eval_subst_of_fits {s : Substitution} (hs : s.Fits heads vars) : ∀ parts : Parts,
    s.Spares parts.calledMembers →
      (parts.subst s).eval I s.paths heads vars = parts.value I s.paths (s.environment I heads vars)
  | .nil, _ => rfl
  | .text piece rest, hcalled => by
    rw [Parts.subst, Parts.eval, Parts.value, Parts.eval_subst_of_fits hs rest hcalled]
  | .child operand rest, hcalled => by
    obtain ⟨hoperand, hrest⟩ := Substitution.spares_append.mp hcalled
    rw [Parts.subst, Parts.eval, Parts.value, Expr.eval_subst_of_fits hs operand hoperand,
      Parts.eval_subst_of_fits hs rest hrest]

theorem Parts.eval_substArgs_of_fits {s : Substitution} (hs : s.Fits heads vars) : ∀ parts : Parts,
    s.Spares parts.calledMembers →
      (parts.substArgs s).eval I s.paths heads vars = parts.value I s.paths (s.environment I heads vars)
  | .nil, _ => rfl
  | .text piece rest, hcalled => by
    rw [Parts.substArgs, Parts.eval, Parts.value, Parts.eval_substArgs_of_fits hs rest hcalled]
  | .child operand rest, hcalled => by
    obtain ⟨hinOperand, hinRest⟩ := Substitution.spares_append.mp hcalled
    have hoperand := Expr.eval_subst_of_fits hs operand hinOperand
    rw [Parts.substArgs, Parts.eval, Parts.value, Parts.eval_substArgs_of_fits hs rest hinRest]
    congr 2
    unfold Substitution.argument?
    split
    case h_1 id hcore =>
      have hname := Expr.asName?_eq_some_iff.mpr hcore
      cases hreplaced : s.name? id with
      | none => exact hoperand
      | some e =>
        have he := hs.eval_replacement (I := I) (Substitution.mem_replacements_of_name? hreplaced)
        rw [Expr.value_of_asName? hname]
        simp [Substitution.environment, hreplaced, he]
    case h_2 => exact hoperand

end

mutual

/-- Where `self` is the head of a path, no member is taken of the receiver. -/
theorem Expr.selfMembers_of_head (hself : selfName ∈ paths) : ∀ e : Expr, e.selfMembers paths = []
  | .name _ => rfl
  | .number _ _ => rfl
  | .quoted _ => rfl
  | .unit _ => rfl
  | .paren lead body trail => Expr.selfMembers_of_head hself body
  | .member object dot field => by
    cases hname : object.asName? with
    | some id =>
      rw [Expr.selfMembers_member_of_name hname]
      by_cases hid : id = selfName
      · simp [hid, hself]
      · simp [hid]
    | none => rw [Expr.selfMembers_member_of_none hname, Expr.selfMembers_of_head hself object]
  | .call callee args => by
    cases hname : callee.asName? with
    | some id => rw [Expr.selfMembers_call_of_name hname, Parts.selfMembers_of_head hself args]
    | none =>
      rw [Expr.selfMembers_call_of_none hname, Expr.selfMembers_of_head hself callee,
        Parts.selfMembers_of_head hself args, List.append_nil]
  | .minus gap operand => Expr.selfMembers_of_head hself operand
  | .negation gap operand => Expr.selfMembers_of_head hself operand
  | .junction left op spelling right => by
    rw [Expr.selfMembers, Expr.selfMembers_of_head hself left, Expr.selfMembers_of_head hself right,
      List.append_nil]
  | .compare left op spelling right => by
    rw [Expr.selfMembers, Expr.selfMembers_of_head hself left, Expr.selfMembers_of_head hself right,
      List.append_nil]
  | .chain left op spelling rest => by
    rw [Expr.selfMembers, Expr.selfMembers_of_head hself left, Expr.selfMembers_of_head hself rest,
      List.append_nil]
  | .compound shape parts => Parts.selfMembers_of_head hself parts

theorem Parts.selfMembers_of_head (hself : selfName ∈ paths) : ∀ parts : Parts, parts.selfMembers paths = []
  | .nil => rfl
  | .text piece rest => Parts.selfMembers_of_head hself rest
  | .child operand rest => by
    rw [Parts.selfMembers, Expr.selfMembers_of_head hself operand, Parts.selfMembers_of_head hself rest,
      List.append_nil]

end

namespace Renaming

/-- The texts that take the place of names and members. -/
def texts (r : Renaming) : List String := r.names.map (·.2) ++ r.selfFields.map (·.2)

/-- What names and members denote under a renaming: the values of their texts, read as operands. A name that
is put in its own place keeps its value. -/
def environment (r : Renaming) (I : Interpretation D) (heads vars : String → D) : Environment D where
  heads := heads
  vars := values I [] (fun name => r.names.lookup name) vars
  members m := (r.selfFields.lookup m).bind fun text =>
    (Reading.operand text).toOption.map fun e => e.eval I [] vars vars

/-- The variables that the texts of a renaming bring in denote what the heads of paths with their names do. -/
def Apart (r : Renaming) (paths : List String) (heads vars : String → D) : Prop :=
  ∀ text ∈ r.texts, ∀ e, Reading.operand text = .ok e → ∀ id ∈ e.names [], id ∈ paths → heads id = vars id

end Renaming

namespace Atom

variable {a a' : Atom} {node : Expr} {r : Renaming}

/-- The members of `self` that an atom of an expression records are those that the expression takes. -/
theorem IsRead.mem_selfMembers_iff (h : a.IsRead) (hs : a.source = .expression node paths) {m : String} :
    m ∈ a.selfMembers ↔ m ∈ node.selfMembers paths := by
  rcases h with ⟨e, paths', he⟩ | ⟨line, rfl⟩
  · obtain ⟨hstripped, hhe⟩ := Outcome.bind_eq_ok_iff.mp he
    obtain ⟨bound, -, hbound⟩ := Outcome.bind_eq_ok_iff.mp hhe.2
    obtain ⟨negates, -, hatom⟩ := Outcome.bind_eq_ok_iff.mp hbound
    cases hatom
    cases hs
    exact Text.mem_distinct
  · cases hs

/-- The pairs of a renaming of members that bear on an atom. -/
def bearingMembers (a : Atom) (pairs : List (String × String)) : List (String × String) :=
  pairs.filter fun (name, _) => a.selfMembers.contains name

theorem lookup_bearingMembers (pairs : List (String × String)) {m : String} (hm : m ∈ a.selfMembers) :
    (a.bearingMembers pairs).lookup m = pairs.lookup m := by
  induction pairs with
  | nil => rfl
  | cons pair rest ih =>
    obtain ⟨name, text⟩ := pair
    have hfilter : a.bearingMembers ((name, text) :: rest) =
        if a.selfMembers.contains name then (name, text) :: a.bearingMembers rest else a.bearingMembers rest :=
      List.filter_cons
    rw [hfilter, List.lookup_cons, ← ih]
    by_cases hname : m = name
    · subst hname
      simp [hm]
    · have hbeq : (m == name) = false := by simpa using hname
      split <;> simp [List.lookup_cons, hbeq]

/-- Members that an atom does not take can be left out of a renaming. -/
theorem rename_bearingMembers (a : Atom) (fields : List (String × String)) :
    a.rename ⟨[], a.bearingMembers fields⟩ = a.rename ⟨[], fields⟩ := by
  have hfilter : a.bearingMembers (a.bearingMembers fields) = a.bearingMembers fields := by
    simp [bearingMembers]
  unfold rename
  unfold bearingMembers at hfilter ⊢
  simp only [hfilter]

/-- A renamed expression is left as it is if nothing bears on it, and else has what bears on it replaced. -/
theorem rename_cases (hs : a.source = .expression node paths) (h : a.rename r = .ok a') :
    (a' = a ∧ a.bearing r.names = [] ∧ a.bearingMembers r.selfFields = []) ∨
      ∃ names fields, operands (a.bearing r.names) = .ok names ∧
        operands (a.bearingMembers r.selfFields) = .ok fields ∧
        a'.source = .expression (node.subst ⟨names, fields, paths⟩).core paths := by
  unfold rename at h
  dsimp only at h
  split at h
  case isTrue hnone =>
    cases h
    rw [Bool.and_eq_true, List.isEmpty_iff, List.isEmpty_iff] at hnone
    exact .inl ⟨rfl, hnone⟩
  case isFalse =>
    rw [hs] at h
    obtain ⟨names, hnames, h⟩ := Outcome.bind_eq_ok_iff.mp h
    obtain ⟨fields, hfields, h⟩ := Outcome.bind_eq_ok_iff.mp h
    obtain ⟨node', hchecked, h⟩ := Outcome.bind_eq_ok_iff.mp h
    obtain ⟨-, rfl⟩ := Expr.checked_eq_ok_iff.mp hchecked
    exact .inr ⟨names, fields, hnames, hfields, (stated_of_ofExpr h).1⟩

theorem exists_text_of_operands {pairs : List (String × String)} {read : List (String × Expr)}
    (h : operands pairs = .ok read) {entry : String × Expr} (he : entry ∈ read) :
    ∃ pair ∈ pairs, Reading.operand pair.2 = .ok entry.2 := by
  obtain ⟨pair, hpair, hread⟩ := exists_left_of_forall₂ (Outcome.mapM_eq_ok_iff.mp h) he
  obtain ⟨e, hoperand, hentry⟩ := Outcome.bind_eq_ok_iff.mp hread
  cases hentry
  exact ⟨pair, hpair, hoperand⟩

/-- The operands that bear on an atom fit values that the whole renaming is apart from. -/
theorem fits_of_apart (hread : a.IsRead) (hs : a.source = .expression node paths)
    (hapart : r.Apart paths heads vars) {names fields : List (String × Expr)}
    (hnames : operands (a.bearing r.names) = .ok names)
    (hfields : operands (a.bearingMembers r.selfFields) = .ok fields) :
    (Substitution.mk names fields paths).Fits heads vars := by
  constructor
  · intro e he
    obtain ⟨text, htext, hoperand⟩ : ∃ text ∈ r.texts, Reading.operand text = .ok e := by
      rcases List.mem_append.mp he with he | he
      · obtain ⟨entry, hentry, rfl⟩ := List.mem_map.mp he
        obtain ⟨pair, hpair, hoperand⟩ := exists_text_of_operands hnames hentry
        have hmem : pair ∈ r.names := (List.mem_filter.mp hpair).1
        exact ⟨pair.2, List.mem_append_left _ (List.mem_map_of_mem hmem), hoperand⟩
      · obtain ⟨entry, hentry, rfl⟩ := List.mem_map.mp he
        obtain ⟨pair, hpair, hoperand⟩ := exists_text_of_operands hfields hentry
        have hmem : pair ∈ r.selfFields := (List.mem_filter.mp hpair).1
        exact ⟨pair.2, List.mem_append_right _ (List.mem_map_of_mem hmem), hoperand⟩
    exact hapart text htext e hoperand
  · intro hself
    have hnone : a.bearingMembers r.selfFields = [] := by
      refine List.filter_eq_nil_iff.mpr fun pair _ hin => ?_
      have hmem := (hread.mem_selfMembers_iff hs).mp (List.contains_iff_mem.mp hin)
      rw [Expr.selfMembers_of_head hself] at hmem
      cases hmem
    rw [hnone] at hfields
    exact (Except.ok.inj hfields).symm

/-- The names and members that an expression has denote under the operands that bear on its atom what they
denote under the whole renaming. -/
theorem agree_of_operands (hread : a.IsRead) (hs : a.source = .expression node paths)
    (hn : (r.names.map (·.1)).Nodup) {names fields : List (String × Expr)}
    (hnames : operands (a.bearing r.names) = .ok names)
    (hfields : operands (a.bearingMembers r.selfFields) = .ok fields) :
    ((Substitution.mk names fields paths).environment I heads vars).Agree (r.environment I heads vars)
      (node.names paths) (node.selfMembers paths) := by
  refine ⟨rfl, fun id hid => ?_, fun m hm => ?_⟩
  · have hvalue : (Substitution.mk names [] []).values I vars id =
        Renaming.values I [] (fun name => r.names.lookup name) vars id :=
      values_bearing hn hnames (hread.names hs id hid)
    exact hvalue
  · have hmem : m ∈ a.selfMembers := (hread.mem_selfMembers_iff hs).mpr hm
    simp only [Substitution.environment, Renaming.environment, operands_spec hfields,
      lookup_bearingMembers r.selfFields hmem, Option.map_bind, Function.comp_def]

/-- Where nothing bears on an atom, what its expression has denotes the same under the renaming. -/
theorem agree_of_nothing (hread : a.IsRead) (hs : a.source = .expression node paths)
    (hn : (r.names.map (·.1)).Nodup) (hnames : a.bearing r.names = [])
    (hfields : a.bearingMembers r.selfFields = []) :
    (Environment.plain heads vars).Agree (r.environment I heads vars) (node.names paths)
      (node.selfMembers paths) := by
  have hagree : ((Substitution.mk [] [] paths).environment I heads vars).Agree (r.environment I heads vars)
      (node.names paths) (node.selfMembers paths) :=
    agree_of_operands hread hs hn (by rw [hnames]; rfl) (by rw [hfields]; rfl)
  exact hagree

/-- A renamed expression means what the expression means where its names and members denote the values of their
texts. -/
theorem eval_renamed (hread : a.IsRead) (hs : a.source = .expression node paths)
    (hn : (r.names.map (·.1)).Nodup) (hapart : r.Apart paths heads vars)
    (hcalled : ∀ m ∈ node.calledMembers, r.selfFields.lookup m = none) (h : a.rename r = .ok a') :
    ∃ node', a'.source = .expression node' paths ∧
      node'.eval I paths heads vars = node.value I paths (r.environment I heads vars) := by
  rcases rename_cases hs h with ⟨rfl, hnames, hfields⟩ | ⟨names, fields, hnames, hfields, hsource⟩
  · refine ⟨node, hs, ?_⟩
    rw [← Expr.value_plain]
    exact Expr.value_congr node (agree_of_nothing hread hs hn hnames hfields)
  · refine ⟨_, hsource, ?_⟩
    have hfits := fits_of_apart hread hs hapart hnames hfields
    have hspares : (Substitution.mk names fields paths).Spares node.calledMembers := by
      intro m hm
      have hnone := List.lookup_eq_none_iff.mp (hcalled m hm)
      have hbearing : (a.bearingMembers r.selfFields).lookup m = none :=
        List.lookup_eq_none_iff.mpr fun pair hpair => hnone pair (List.mem_filter.mp hpair).1
      rw [operands_spec hfields, hbearing, Option.bind_none]
    rw [Expr.eval_core, Expr.eval_subst_of_fits hfits node hspares]
    exact Expr.value_congr node (agree_of_operands hread hs hn hnames hfields)

end Atom

end CrateSafety
