import CrateSafety.Proofs.CalleeFirst
import CrateSafety.Proofs.LineMeaning

/-!
# Simultaneous renaming

What a renamed expression means. Whatever the forms of expressions are taken to mean, an expression in which
variables were replaced means under given values of names what the original means when each replaced variable
has the value of its replacement. All variables are replaced at once: a name that comes in with a replacement
is not replaced again, so names may be swapped.
-/

namespace CrateSafety

/-- What the forms of expressions are taken to mean, given the values of their operands. Parentheses, blanks
and spellings mean nothing. -/
structure Interpretation (D : Type) where
  /-- A number literal. -/
  number : NumberKind → String → D
  /-- A string literal. -/
  quoted : String → D
  /-- The empty tuple. -/
  unit : D
  /-- A member of an object. -/
  member : D → String → D
  /-- A call of a name or of a value. -/
  call : String ⊕ D → List (String ⊕ D) → D
  /-- A minus sign. -/
  minus : D → D
  /-- A negation. -/
  negation : D → D
  /-- A connective. -/
  junction : D → Connective → D → D
  /-- A comparison. -/
  compare : D → Relation → D → D
  /-- A comparison with the first operand of further comparisons. -/
  chain : D → Relation → D → D
  /-- Any other form, with its texts and operands. -/
  compound : Shape → List (String ⊕ D) → D

namespace Expr

/-- The variable that an expression is, parentheses disregarded. -/
def asName? (e : Expr) : Option String :=
  match e.core with
  | .name id => some id
  | _ => none

theorem asName?_eq_some_iff {e : Expr} {id : String} : e.asName? = some id ↔ e.core = .name id := by
  unfold asName?
  split
  case h_1 heq => simp [heq]
  case h_2 hne => simpa using hne id

theorem core_ne_name {e : Expr} (h : e.asName? = none) (id : String) : e.core ≠ .name id := by
  intro hcore
  rw [asName?_eq_some_iff.mpr hcore] at h
  cases h

end Expr

mutual

/-- The meaning of an expression, given the values of heads of paths and of variables. -/
def Expr.eval {D : Type} (I : Interpretation D) (paths : List String) (heads vars : String → D) : Expr → D
  | .name id => vars id
  | .number kind digits => I.number kind digits
  | .quoted literal => I.quoted literal
  | .unit _ => I.unit
  | .paren _ body _ => body.eval I paths heads vars
  | .member object _ field =>
    I.member
      (match object.asName? with
        | some id => if paths.contains id then heads id else vars id
        | none => object.eval I paths heads vars)
      field
  | .call callee args =>
    I.call
      (match callee.asName? with
        | some id => .inl id
        | none => .inr (callee.eval I paths heads vars))
      (args.eval I paths heads vars)
  | .minus _ operand => I.minus (operand.eval I paths heads vars)
  | .negation _ operand => I.negation (operand.eval I paths heads vars)
  | .junction left op _ right => I.junction (left.eval I paths heads vars) op (right.eval I paths heads vars)
  | .compare left op _ right => I.compare (left.eval I paths heads vars) op (right.eval I paths heads vars)
  | .chain left op _ rest => I.chain (left.eval I paths heads vars) op (rest.eval I paths heads vars)
  | .compound shape parts => I.compound shape (parts.eval I paths heads vars)

/-- The texts of a list of parts, with the meanings of its operands. -/
def Parts.eval {D : Type} (I : Interpretation D) (paths : List String) (heads vars : String → D) :
    Parts → List (String ⊕ D)
  | .nil => []
  | .text piece rest => .inl piece :: rest.eval I paths heads vars
  | .child operand rest => .inr (operand.eval I paths heads vars) :: rest.eval I paths heads vars

end

variable {D : Type} {I : Interpretation D} {paths : List String} {heads vars env : String → D}

namespace Expr

@[simp] theorem eval_core (e : Expr) : e.core.eval I paths heads vars = e.eval I paths heads vars := by
  cases e with
  | paren lead body trail =>
    rw [core, eval]
    exact eval_core body
  | _ => rfl

@[simp] theorem eval_guarded (e : Expr) : e.guarded.eval I paths heads vars = e.eval I paths heads vars := by
  unfold guarded
  split
  · rfl
  · rw [eval]

theorem eval_of_asName? {e : Expr} {id : String} (h : e.asName? = some id) :
    e.eval I paths heads vars = vars id := by
  rw [← eval_core, asName?_eq_some_iff.mp h, eval]

/-- Where heads of paths and variables have the same values, a member is taken of the value of its object. -/
theorem eval_member_same (object : Expr) (dot field : String) :
    (member object dot field).eval I paths env env = I.member (object.eval I paths env env) field := by
  rw [eval]
  split
  case h_1 id hid => rw [ite_self, eval_of_asName? hid]
  case h_2 => rfl

theorem member?_eq_none {s : Substitution} (hs : s.selfFields = []) (object : Expr) (field : String) :
    s.member? object field = none := by
  simp only [Substitution.member?, hs]
  split
  · split <;> rfl
  · rfl

/-- The name of what is called is no variable. -/
theorem subst_call_of_name {s : Substitution} {callee : Expr} {args : Parts} {id : String}
    (h : callee.asName? = some id) : (call callee args).subst s = call callee (args.substArgs s) := by
  rw [subst, asName?_eq_some_iff.mp h]

theorem subst_call_of_none {s : Substitution} {callee : Expr} {args : Parts} (h : callee.asName? = none) :
    (call callee args).subst s = call (callee.subst s) (args.substArgs s) := by
  rw [subst]
  split
  case h_1 id hcore => exact absurd hcore (core_ne_name h id)
  case h_2 => rfl

/-- Replacing variables does not make a variable of another expression. -/
theorem asName?_subst {s : Substitution} (hs : s.selfFields = []) {e : Expr} (h : e.asName? = none) :
    (e.subst s).asName? = none := by
  cases e with
  | name id => cases h
  | paren lead body trail =>
    have hbody : body.asName? = none := h
    have hkept : s.replaces body = false := by
      have hname := core_ne_name hbody
      unfold Substitution.replaces
      split
      case h_1 id heq => exact absurd heq (hname id)
      case h_2 object dot field heq => rw [member?_eq_none hs, Option.isSome_none]
      case h_3 => rfl
    rw [subst, hkept, if_neg Bool.false_ne_true]
    exact asName?_subst hs hbody
  | member object dot field =>
    rw [subst, member?_eq_none hs]
    dsimp only
    split <;> rfl
  | _ => rfl

end Expr

namespace Substitution

/-- Members are left alone of the heads of paths. -/
theorem keeps_eq_true_iff {s : Substitution} {object : Expr} :
    s.keeps object = true ↔ ∃ id, object.asName? = some id ∧ id ∈ s.paths := by
  unfold keeps
  split
  case h_1 id hcore => simp [Expr.asName?_eq_some_iff, hcore]
  case h_2 hne =>
    refine iff_of_false Bool.false_ne_true ?_
    rintro ⟨id, hid, -⟩
    exact hne id (Expr.asName?_eq_some_iff.mp hid)

/-- The values of variables under a substitution: those of their replacements, if they have one. -/
def values (s : Substitution) (I : Interpretation D) (env : String → D) (id : String) : D :=
  ((s.name? id).map fun e => e.eval I s.paths env env).getD (env id)

end Substitution

mutual

/-- An expression with its variables replaced means what the expression means under the values of the
replacements. -/
theorem Expr.eval_subst {s : Substitution} (hs : s.selfFields = []) : ∀ e : Expr,
    (e.subst s).eval I s.paths env env = e.eval I s.paths env (s.values I env)
  | .name id => by
    rw [Expr.subst, Expr.eval, Substitution.values]
    cases s.name? id with
    | none => rfl
    | some e => simp
  | .number _ _ => rfl
  | .quoted _ => rfl
  | .unit _ => rfl
  | .paren lead body trail => by
    have hbody := Expr.eval_subst hs body
    rw [Expr.subst, Expr.eval]
    split
    · exact hbody
    · rw [Expr.eval]
      exact hbody
  | .member object dot field => by
    have hobject := Expr.eval_subst hs object
    rw [Expr.subst, Expr.member?_eq_none hs]
    dsimp only
    split
    case isTrue hkeeps =>
      -- the head of a path stays, and has the value of a head on both sides
      obtain ⟨id, hid, hin⟩ := Substitution.keeps_eq_true_iff.mp hkeeps
      rw [Expr.eval, Expr.eval, hid]
      simp only [List.contains_iff_mem.mpr hin, if_true]
    case isFalse hkeeps =>
      rw [Expr.eval_member_same, hobject, Expr.eval]
      congr 1
      split
      case h_1 id hid =>
        have hin : s.paths.contains id = false := by
          have hout : id ∉ s.paths := fun hin => hkeeps (Substitution.keeps_eq_true_iff.mpr ⟨id, hid, hin⟩)
          simpa using hout
        rw [hin, if_neg Bool.false_ne_true, Expr.eval_of_asName? hid]
      case h_2 => rfl
  | .call callee args => by
    have hcallee := Expr.eval_subst hs callee
    have hargs := Parts.eval_substArgs hs args
    cases hname : callee.asName? with
    | some id =>
      rw [Expr.subst_call_of_name hname, Expr.eval, Expr.eval, hargs, hname]
    | none =>
      rw [Expr.subst_call_of_none hname, Expr.eval, Expr.eval, hargs, hname, Expr.asName?_subst hs hname,
        hcallee]
  | .minus gap operand => by
    rw [Expr.subst, Expr.eval, Expr.eval, Expr.eval_subst hs operand]
  | .negation gap operand => by
    rw [Expr.subst, Expr.eval, Expr.eval, Expr.eval_subst hs operand]
  | .junction left op spelling right => by
    rw [Expr.subst, Expr.eval, Expr.eval, Expr.eval_subst hs left, Expr.eval_subst hs right]
  | .compare left op spelling right => by
    rw [Expr.subst, Expr.eval, Expr.eval, Expr.eval_subst hs left, Expr.eval_subst hs right]
  | .chain left op spelling rest => by
    rw [Expr.subst, Expr.eval, Expr.eval, Expr.eval_subst hs left, Expr.eval_subst hs rest]
  | .compound shape parts => by
    rw [Expr.subst, Expr.eval, Expr.eval, Parts.eval_subst hs parts]

theorem Parts.eval_subst {s : Substitution} (hs : s.selfFields = []) : ∀ parts : Parts,
    (parts.subst s).eval I s.paths env env = parts.eval I s.paths env (s.values I env)
  | .nil => rfl
  | .text piece rest => by
    rw [Parts.subst, Parts.eval, Parts.eval, Parts.eval_subst hs rest]
  | .child operand rest => by
    rw [Parts.subst, Parts.eval, Parts.eval, Expr.eval_subst hs operand, Parts.eval_subst hs rest]

theorem Parts.eval_substArgs {s : Substitution} (hs : s.selfFields = []) : ∀ parts : Parts,
    (parts.substArgs s).eval I s.paths env env = parts.eval I s.paths env (s.values I env)
  | .nil => rfl
  | .text piece rest => by
    rw [Parts.substArgs, Parts.eval, Parts.eval, Parts.eval_substArgs hs rest]
  | .child operand rest => by
    have hoperand := Expr.eval_subst hs operand
    rw [Parts.substArgs, Parts.eval, Parts.eval, Parts.eval_substArgs hs rest]
    congr 2
    unfold Substitution.argument?
    split
    case h_1 id hcore =>
      have hname := Expr.asName?_eq_some_iff.mpr hcore
      rw [Expr.eval_of_asName? hname, Substitution.values]
      cases hreplaced : s.name? id with
      | none =>
        rw [Option.getD_none, hoperand, Expr.eval_of_asName? hname, Substitution.values, hreplaced]
      | some e => rfl
    case h_2 => exact hoperand

end

namespace Expr

variable {object callee : Expr} {args : Parts} {id : String}

theorem names_member_of_name {dot field : String} (h : object.asName? = some id) :
    (member object dot field).names paths = if paths.contains id then [] else [id] := by
  rw [names, asName?_eq_some_iff.mp h]

theorem names_member_of_none {dot field : String} (h : object.asName? = none) :
    (member object dot field).names paths = object.names paths := by
  rw [names]
  split
  case h_1 id hcore => exact absurd hcore (core_ne_name h id)
  case h_2 => rfl

theorem names_call_of_name (h : callee.asName? = some id) :
    (call callee args).names paths = args.names paths := by
  rw [names, asName?_eq_some_iff.mp h]
  rfl

theorem names_call_of_none (h : callee.asName? = none) :
    (call callee args).names paths = callee.names paths ++ args.names paths := by
  rw [names]
  split
  case h_1 id hcore => exact absurd hcore (core_ne_name h id)
  case h_2 => rfl

end Expr

mutual

/-- The meaning of an expression depends on the values of its variables only. -/
theorem Expr.eval_congr {vars' : String → D} : ∀ e : Expr, (∀ id ∈ e.names paths, vars id = vars' id) →
    e.eval I paths heads vars = e.eval I paths heads vars'
  | .name id, h => h id (by simp [Expr.names])
  | .number _ _, _ => rfl
  | .quoted _, _ => rfl
  | .unit _, _ => rfl
  | .paren lead body trail, h => by
    rw [Expr.eval, Expr.eval]
    exact Expr.eval_congr body h
  | .member object dot field, h => by
    rw [Expr.eval, Expr.eval]
    cases hname : object.asName? with
    | some id =>
      rw [Expr.names_member_of_name hname] at h
      cases hin : paths.contains id with
      | true => simp only [hin, if_true]
      | false =>
        rw [hin] at h
        simp only [hin, Bool.false_eq_true, if_false, h id (by simp)]
    | none =>
      rw [Expr.names_member_of_none hname] at h
      rw [Expr.eval_congr object h]
  | .call callee args, h => by
    rw [Expr.eval, Expr.eval]
    cases hname : callee.asName? with
    | some id =>
      rw [Expr.names_call_of_name hname] at h
      rw [Parts.eval_congr args h]
    | none =>
      rw [Expr.names_call_of_none hname, List.forall_mem_append] at h
      rw [Expr.eval_congr callee h.1, Parts.eval_congr args h.2]
  | .minus gap operand, h => by
    rw [Expr.eval, Expr.eval, Expr.eval_congr operand h]
  | .negation gap operand, h => by
    rw [Expr.eval, Expr.eval, Expr.eval_congr operand h]
  | .junction left op spelling right, h => by
    rw [Expr.names, List.forall_mem_append] at h
    rw [Expr.eval, Expr.eval, Expr.eval_congr left h.1, Expr.eval_congr right h.2]
  | .compare left op spelling right, h => by
    rw [Expr.names, List.forall_mem_append] at h
    rw [Expr.eval, Expr.eval, Expr.eval_congr left h.1, Expr.eval_congr right h.2]
  | .chain left op spelling rest, h => by
    rw [Expr.names, List.forall_mem_append] at h
    rw [Expr.eval, Expr.eval, Expr.eval_congr left h.1, Expr.eval_congr rest h.2]
  | .compound shape parts, h => by
    rw [Expr.eval, Expr.eval, Parts.eval_congr parts h]

theorem Parts.eval_congr {vars' : String → D} : ∀ parts : Parts,
    (∀ id ∈ parts.names paths, vars id = vars' id) →
    parts.eval I paths heads vars = parts.eval I paths heads vars'
  | .nil, _ => rfl
  | .text piece rest, h => by
    rw [Parts.eval, Parts.eval, Parts.eval_congr rest h]
  | .child operand rest, h => by
    rw [Parts.names, List.forall_mem_append] at h
    rw [Parts.eval, Parts.eval, Expr.eval_congr operand h.1, Parts.eval_congr rest h.2]

end

namespace Atom

/-- An atom that was read from an expression or from a line of prose. -/
def IsRead (a : Atom) : Prop := (∃ e paths, ofExpr e paths = .ok a) ∨ ∃ line, a = ofProse line

/-- What an atom of an expression refers to. -/
theorem ofExpr_spec {e : Expr} {a : Atom} (h : ofExpr e paths = .ok a) :
    a.source = .expression e.core paths ∧ a.identifiers = Text.distinct (e.core.names paths) := by
  obtain ⟨node, hnode, h⟩ := Outcome.bind_eq_ok_iff.mp h
  obtain ⟨bound, -, h⟩ := Outcome.bind_eq_ok_iff.mp h
  obtain ⟨negates, -, h⟩ := Outcome.bind_eq_ok_iff.mp h
  cases h
  rw [(Expr.strip_eq_ok_iff.mp hnode).1]
  exact ⟨rfl, rfl⟩

end Atom

namespace Reading

variable {negate : Bool} {e : Expr} {form : List Conjunction}

theorem isRead_literal {a : Atom} (h : literal paths negate e = .ok a) : a.IsRead := by
  left
  unfold literal at h
  split at h
  · obtain ⟨node, -, h⟩ := Outcome.bind_eq_ok_iff.mp h
    split at h <;> exact ⟨_, _, h⟩
  · exact ⟨e, paths, h⟩

theorem isRead_parseDnf {line : String} (h : parseDnf line = .ok form) :
    ∀ atoms ∈ form, ∀ a ∈ atoms, a.IsRead :=
  forall_mem_parseDnf h (.inr ⟨_, rfl⟩) fun _ _ _ _ _ _ _ ha => isRead_literal ha

end Reading

namespace Condition

/-- The atoms of documented lines were read from them. -/
theorem isRead_ofLines {lines : List String} {c : Condition} (h : ofLines lines = .ok c) :
    ∀ a ∈ c.alternatives.flatten, a.IsRead :=
  forall_mem_ofLines h fun _ _ hline => Reading.isRead_parseDnf hline

end Condition

section Pairs

variable {α : Type}

/-- Where keys are distinct, the value of a key is that of the one pair with it. -/
theorem lookup_eq_some_iff_mem {pairs : List (String × α)} (hn : (pairs.map (·.1)).Nodup) {key : String}
    {value : α} : pairs.lookup key = some value ↔ (key, value) ∈ pairs := by
  induction pairs with
  | nil => simp
  | cons pair rest ih =>
    obtain ⟨k, x⟩ := pair
    rw [List.map_cons, List.nodup_cons] at hn
    by_cases hk : key = k
    · subst hk
      have hlater : (key, value) ∉ rest := fun hmem => hn.1 (List.mem_map.mpr ⟨_, hmem, rfl⟩)
      simp [hlater, eq_comm]
    · have hbeq : (key == k) = false := by simpa using hk
      simp [List.lookup_cons, hbeq, ih hn.2, hk]

end Pairs

namespace Renaming

/-- The text in the position of a name; of a name that stands several times, in its last position. -/
def counterpart (names texts : List String) (name : String) : Option String :=
  (names.zip texts).reverse.lookup name

theorem lookup_put (pairs : List (String × String)) (key text name : String) :
    (put pairs key text).lookup name = if name == key then some text else pairs.lookup name := by
  induction pairs with
  | nil => cases hname : name == key <;> simp [put, List.lookup_cons, hname, -beq_iff_eq]
  | cons pair rest ih =>
    obtain ⟨k, x⟩ := pair
    unfold put
    by_cases hk : k = key
    · subst hk
      cases hname : name == k <;> simp [List.lookup_cons, hname]
    · rw [if_neg (by simpa using hk), List.lookup_cons, List.lookup_cons, ih]
      by_cases hname : name = k
      · subst hname
        simp [hk]
      · have hbeq : (name == k) = false := by simpa using hname
        simp [hbeq]

theorem mem_keys_put {pairs : List (String × String)} {key text k : String}
    (h : k ∈ (put pairs key text).map (·.1)) : k = key ∨ k ∈ pairs.map (·.1) := by
  induction pairs with
  | nil => exact .inl (by simpa [put] using h)
  | cons pair rest ih =>
    unfold put at h
    split at h
    · exact .inr h
    · rcases List.mem_cons.mp h with h | h
      · exact .inr (h ▸ List.mem_cons_self)
      · exact (ih h).imp id (List.mem_cons_of_mem _)

theorem nodup_put {pairs : List (String × String)} {key text : String}
    (h : (pairs.map (·.1)).Nodup) : ((put pairs key text).map (·.1)).Nodup := by
  induction pairs with
  | nil => simp [put]
  | cons pair rest ih =>
    rw [List.map_cons, List.nodup_cons] at h
    unfold put
    split
    · exact List.nodup_cons.mpr h
    case isFalse hk =>
      refine List.nodup_cons.mpr ⟨fun hmem => ?_, ih h.2⟩
      rcases mem_keys_put hmem with heq | hmem
      · exact hk (by simpa using heq)
      · exact h.1 hmem

/-- Pairs that are put one after the other: the last one of a name counts. -/
theorem foldl_put (l pairs : List (String × String)) (hn : (pairs.map (·.1)).Nodup) :
    ((l.foldl (fun pairs (name, text) => put pairs name text) pairs).map (·.1)).Nodup ∧
      ∀ name, (l.foldl (fun pairs (name, text) => put pairs name text) pairs).lookup name =
        (l.reverse.lookup name).or (pairs.lookup name) := by
  induction l generalizing pairs with
  | nil => simpa using hn
  | cons pair rest ih =>
    obtain ⟨key, text⟩ := pair
    obtain ⟨hkeys, hlookup⟩ := ih (put pairs key text) (nodup_put hn)
    refine ⟨hkeys, fun name => ?_⟩
    have hpair : ([(key, text)].lookup name).or (pairs.lookup name) = (put pairs key text).lookup name := by
      rw [show [(key, text)] = put [] key text from rfl, lookup_put, lookup_put]
      cases name == key <;> rfl
    rw [List.foldl_cons, hlookup, List.reverse_cons, List.lookup_append, Option.or_assoc, hpair]

theorem nodup_zip (names texts : List String) : ((zip names texts).map (·.1)).Nodup :=
  (foldl_put _ [] List.nodup_nil).1

/-- Names are replaced by position. -/
theorem lookup_zip (names texts : List String) (name : String) :
    (zip names texts).lookup name = counterpart names texts name := by
  rw [zip, (foldl_put _ [] List.nodup_nil).2, counterpart]
  simp

/-- The values that names stand for when others are put in their place: a name keeps its value if nothing or
the name itself is put there. -/
def values (I : Interpretation D) (paths : List String) (replacement : String → Option String)
    (env : String → D) (id : String) : D :=
  match replacement id with
  | none => env id
  | some text =>
    if text = id then env id
    else
      match Reading.operand text with
      | .ok e => e.eval I paths env env
      | .error _ => env id

end Renaming

/-- The second expression means, under any interpretation and any values of names, what the first one means
when names have the values of their replacements. -/
def Expr.RenamedBy (replacement : String → Option String) (paths : List String) (e e' : Expr) : Prop :=
  ∀ (D : Type) (I : Interpretation D) (env : String → D),
    e'.eval I paths env env = e.eval I paths env (Renaming.values I paths replacement env)

/-- A segment of prose with its word replaced. -/
def Prose.Segment.renamedBy (replacement : String → Option String) : Segment → List Char
  | .between c => [c]
  | .word root none => ((replacement (String.ofList root)).map String.toList).getD root
  | .word root (some member) =>
    ((replacement (String.ofList root)).map String.toList).getD root ++ '.' :: member

/-- The second atom is the first one with names replaced. -/
inductive Atom.RenamedBy (replacement : String → Option String) (a : Atom) : Atom → Prop where
  /-- No name of the atom is replaced by another one. -/
  | untouched (kept : ∀ name ∈ a.renameable, ∀ text, replacement name = some text → text = name) :
      a.RenamedBy replacement a
  /-- The atom of an expression with its variables replaced. -/
  | expression {node node' : Expr} {paths : List String} {a' : Atom}
      (source : a.source = .expression node paths) (meaning : node.RenamedBy replacement paths node')
      (read : Atom.ofExpr node' paths = .ok a') : a.RenamedBy replacement a'
  /-- A line of prose with its words replaced. -/
  | prose {words : List String} (source : a.source = .prose words) :
      a.RenamedBy replacement
        (Atom.ofProse ((Prose.segments a.text.toList).flatMap (Prose.Segment.renamedBy replacement)))

namespace Atom

variable {a a' : Atom} {pairs : List (String × String)}

/-- The pairs of a renaming that bear on an atom. -/
def bearing (a : Atom) (pairs : List (String × String)) : List (String × String) :=
  pairs.filter fun (name, text) => a.renameable.contains name && name != text

theorem mem_bearing {name text : String} :
    (name, text) ∈ a.bearing pairs ↔ (name, text) ∈ pairs ∧ name ∈ a.renameable ∧ name ≠ text := by
  simp [bearing, List.mem_filter]

/-- The pairs that bear on an atom replace its names as all pairs do. -/
theorem lookup_bearing (hn : (pairs.map (·.1)).Nodup) {name : String} (hname : name ∈ a.renameable) :
    (a.bearing pairs).lookup name = (pairs.lookup name).filter fun text => name != text := by
  have hkeys : ((a.bearing pairs).map (·.1)).Nodup := (List.filter_sublist.map _).nodup hn
  ext text
  rw [lookup_eq_some_iff_mem hkeys, mem_bearing, Option.filter_eq_some_iff, lookup_eq_some_iff_mem hn]
  simp [hname]

/-- The replacement of a name by operands is that of its text, read as an operand. -/
theorem operands_spec {read : List (String × Expr)} (h : operands pairs = .ok read) (id : String) :
    read.lookup id = (pairs.lookup id).bind fun text => (Reading.operand text).toOption := by
  have hall : List.Forall₂ (fun pair entry => entry.1 = pair.1 ∧ Reading.operand pair.2 = .ok entry.2)
      pairs read := by
    refine (Outcome.mapM_eq_ok_iff.mp h).imp fun pair entry hentry => ?_
    obtain ⟨e, he, hentry⟩ := Outcome.bind_eq_ok_iff.mp hentry
    cases hentry
    exact ⟨rfl, he⟩
  clear h
  induction hall with
  | nil => rfl
  | @cons pair entry _ _ hpair _ ih =>
    obtain ⟨name, text⟩ := pair
    obtain ⟨key, e⟩ := entry
    obtain ⟨hkey, hoperand⟩ := hpair
    dsimp only at hkey hoperand
    subst hkey
    cases hid : id == key with
    | true => simp [List.lookup_cons, hid, hoperand, Except.toOption]
    | false => simp [List.lookup_cons, hid, ih]

/-- The names of an atom have the values of their replacements. -/
theorem values_bearing (hn : (pairs.map (·.1)).Nodup) {read : List (String × Expr)}
    (h : operands (a.bearing pairs) = .ok read) {id : String} (hid : id ∈ a.renameable) :
    (Substitution.mk read [] paths).values I env id =
      Renaming.values I paths (fun name => pairs.lookup name) env id := by
  have hname : (Substitution.mk read [] paths).name? id =
      ((pairs.lookup id).filter fun text => id != text).bind fun text =>
        (Reading.operand text).toOption := by
    rw [← lookup_bearing hn hid, ← operands_spec h]
    rfl
  rw [Substitution.values, hname, Renaming.values]
  cases pairs.lookup id with
  | none => rfl
  | some text =>
    by_cases htext : text = id
    · simp [htext, Option.filter]
    · have hne : (id != text) = true := by simpa using fun heq => htext heq.symm
      cases hoperand : Reading.operand text <;>
        simp [Option.filter, hne, htext, hoperand, Except.toOption]

/-- The variables of an expression that an atom was read from can be renamed. -/
theorem IsRead.names {node : Expr} (h : a.IsRead) (hs : a.source = .expression node paths) :
    ∀ id ∈ node.names paths, id ∈ a.renameable := by
  intro id hid
  rcases h with ⟨e, paths', he⟩ | ⟨line, rfl⟩
  · obtain ⟨hsource, hidentifiers⟩ := ofExpr_spec he
    cases hsource.symm.trans hs
    rw [renameable, hs]
    dsimp only
    rw [hidentifiers, Text.mem_distinct]
    exact hid
  · cases hs

/-- The words of a line that an atom was read from can be renamed. -/
theorem IsRead.words {words : List String} (h : a.IsRead) (hs : a.source = .prose words) :
    ∀ root member, .word root member ∈ Prose.segments a.text.toList →
      String.ofList root ∈ a.renameable := by
  intro root member hmem
  rcases h with ⟨e, paths', he⟩ | ⟨line, rfl⟩
  · cases (ofExpr_spec he).1.symm.trans hs
  · simp only [renameable, ofProse, Prose.wordsOf, Text.mem_distinct, List.mem_filterMap]
    refine ⟨.word root member, ?_, rfl⟩
    simpa [ofProse] using hmem

/-- Words of prose that bear on an atom are replaced as all pairs replace them. -/
theorem renamed_bearing (hn : (pairs.map (·.1)).Nodup) {segment : Prose.Segment}
    (hwords : ∀ root member, segment = .word root member → String.ofList root ∈ a.renameable) :
    segment.renamed (a.bearing pairs) [] = segment.renamedBy fun name => pairs.lookup name := by
  have hword : ∀ root, String.ofList root ∈ a.renameable →
      (((a.bearing pairs).lookup (String.ofList root)).map String.toList).getD root =
        ((pairs.lookup (String.ofList root)).map String.toList).getD root := by
    intro root hroot
    rw [lookup_bearing hn hroot]
    cases pairs.lookup (String.ofList root) with
    | none => rfl
    | some text =>
      by_cases htext : String.ofList root = text
      · simp [← htext, Option.filter]
      · have hne : (String.ofList root != text) = true := by simpa using htext
        simp [Option.filter, hne]
  cases segment with
  | between c => rfl
  | word root member =>
    have hroot := hword root (hwords root member rfl)
    cases member with
    | none => exact hroot
    | some member =>
      rw [Prose.Segment.renamedBy, ← hroot, Prose.Segment.renamed]
      cases (a.bearing pairs).lookup (String.ofList root) <;> rfl

/-- Renaming an atom that was read replaces all its names at once. -/
theorem renamedBy_of_rename (hread : a.IsRead) (hn : (pairs.map (·.1)).Nodup)
    (h : a.rename ⟨pairs, []⟩ = .ok a') : a.RenamedBy (fun name => pairs.lookup name) a' := by
  unfold rename at h
  dsimp only at h
  split at h
  case isTrue hnone =>
    cases h
    refine .untouched fun name hname text htext => ?_
    by_contra hne
    have hmem : (name, text) ∈ a.bearing pairs :=
      mem_bearing.mpr ⟨(lookup_eq_some_iff_mem hn).mp htext, hname, fun heq => hne heq.symm⟩
    rw [Bool.and_eq_true, List.isEmpty_iff] at hnone
    exact absurd hmem (by rw [bearing, hnone.1]; exact List.not_mem_nil)
  case isFalse =>
    split at h
    case h_1 words hsource =>
      cases h
      have hrenamed : Prose.rename (a.bearing pairs) [] a.text.toList =
          (Prose.segments a.text.toList).flatMap
            (Prose.Segment.renamedBy fun name => pairs.lookup name) := by
        refine List.flatMap_congr fun segment hsegment => renamed_bearing hn ?_
        rintro root member rfl
        exact hread.words hsource root member hsegment
      exact hrenamed ▸ .prose hsource
    case h_2 node paths hsource =>
      obtain ⟨read, hnames, h⟩ := Outcome.bind_eq_ok_iff.mp h
      obtain ⟨fields, hfields, h⟩ := Outcome.bind_eq_ok_iff.mp h
      obtain ⟨node', hchecked, h⟩ := Outcome.bind_eq_ok_iff.mp h
      cases hfields
      have hnode : node' = node.subst ⟨read, [], paths⟩ := by
        unfold Expr.checked at hchecked
        split at hchecked
        · cases hchecked
        · exact (Except.ok.inj hchecked).symm
      subst hnode
      refine .expression hsource (fun D I env => ?_) h
      have hsubst : (node.subst ⟨read, [], paths⟩).eval I paths env env =
          node.eval I paths env (Substitution.values ⟨read, [], paths⟩ I env) :=
        Expr.eval_subst (s := ⟨read, [], paths⟩) rfl node
      rw [hsubst]
      refine Expr.eval_congr node fun id hid => ?_
      exact values_bearing hn hnames (hread.names hsource id hid)

end Atom

namespace Condition

/-- A renamed condition has the renamed atoms of each alternative, and holds exactly if nothing was asked or
one of the renamed alternatives holds. -/
theorem rename_spec {c renamed : Condition} {r : Renaming} (h : c.rename r = .ok renamed) :
    ∃ alternatives : List Conjunction,
      List.Forall₂ (List.Forall₂ fun a a' => a.rename r = .ok a') c.alternatives alternatives ∧
      (∀ v, renamed.Holds v ↔ alternatives = [] ∨ ∃ atoms ∈ alternatives, atoms.Holds v) ∧
      renamed.alternatives.flatten ⊆ alternatives.flatten := by
  unfold rename at h
  split at h
  case isTrue hempty =>
    cases h
    have hnil : c.alternatives = [] := List.isEmpty_iff.mp hempty
    refine ⟨[], by rw [hnil]; exact .nil, fun v => ?_, by rw [hnil]; exact List.Subset.refl _⟩
    simp [Holds, hnil]
  case isFalse =>
    obtain ⟨alternatives, halternatives, h⟩ := Outcome.bind_eq_ok_iff.mp h
    cases h
    refine ⟨alternatives, ?_, fun v => holds_build_iff, fun a ha => ?_⟩
    · exact (Outcome.mapM_eq_ok_iff.mp halternatives).imp fun _ _ => Outcome.mapM_eq_ok_iff.mp
    · obtain ⟨atoms, hatoms, ha⟩ := List.mem_flatten.mp ha
      obtain ⟨given, hgiven, rfl⟩ := exists_of_mem_build hatoms
      exact List.mem_flatten_of_mem hgiven (Conjunction.dedupe_subset _ ha)

end Condition

end CrateSafety
