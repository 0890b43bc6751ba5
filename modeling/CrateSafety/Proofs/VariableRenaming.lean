import CrateSafety.Proofs.Legibility
import CrateSafety.Proofs.VariableUses

/-!
# Renaming of variables

Substitution of names for variables, as a renaming that follows the form of an expression: every use that
counts as a reference gets its new name and everything else stays, blanks and parentheses included. Seen from
outside nothing changes: a renamed expression can be written out if the original can, and it can be an atom
exactly if the original can. Renaming back restores it unless a new name heads a path.
-/

namespace CrateSafety

/-- A use with its variable renamed, if it counts as a reference. -/
def Use.renamed (paths : List String) (f : String → String) (u : Use) : Use :=
  if u.counts paths then { u with root := f u.root } else u

/-- Whether an expression is the head of a path. -/
def Expr.isHead (paths : List String) (e : Expr) : Bool := e.asName?.any fun id => paths.contains id

mutual

/-- The expression with its variables renamed. -/
def Expr.renamed (paths : List String) (f : String → String) : Expr → Expr
  | .name id => .name (f id)
  | .number kind digits => .number kind digits
  | .quoted literal => .quoted literal
  | .unit inner => .unit inner
  | .paren lead body trail => .paren lead (body.renamed paths f) trail
  | .member object dot field =>
    .member (if object.isHead paths then object else object.renamed paths f) dot field
  | .call callee args =>
    .call (if callee.asName?.isSome then callee else callee.renamed paths f) (args.renamed paths f)
  | .minus gap operand => .minus gap (operand.renamed paths f)
  | .negation gap operand => .negation gap (operand.renamed paths f)
  | .junction left op spelling right => .junction (left.renamed paths f) op spelling (right.renamed paths f)
  | .compare left op spelling right => .compare (left.renamed paths f) op spelling (right.renamed paths f)
  | .chain left op spelling rest => .chain (left.renamed paths f) op spelling (rest.renamed paths f)
  | .compound shape parts => .compound shape (parts.renamed paths f)

/-- The parts with their variables renamed. -/
def Parts.renamed (paths : List String) (f : String → String) : Parts → Parts
  | .nil => .nil
  | .text piece rest => .text piece (rest.renamed paths f)
  | .child operand rest => .child (operand.renamed paths f) (rest.renamed paths f)

end

mutual

/-- Whether no variable of an expression stands in parentheses of its own. -/
def Expr.isBare (paths : List String) : Expr → Bool
  | .name _ => true
  | .number _ _ => true
  | .quoted _ => true
  | .unit _ => true
  | .paren _ body _ => body.asName?.isNone && body.isBare paths
  | .member object _ _ => object.isHead paths || object.isBare paths
  | .call callee args => (callee.asName?.isSome || callee.isBare paths) && args.isBare paths
  | .minus _ operand => operand.isBare paths
  | .negation _ operand => operand.isBare paths
  | .junction left _ _ right => left.isBare paths && right.isBare paths
  | .compare left _ _ right => left.isBare paths && right.isBare paths
  | .chain left _ _ rest => left.isBare paths && rest.isBare paths
  | .compound _ parts => parts.isBare paths

/-- Whether no variable among the parts stands in parentheses of its own. -/
def Parts.isBare (paths : List String) : Parts → Bool
  | .nil => true
  | .text _ rest => rest.isBare paths
  | .child operand rest => operand.isBare paths && rest.isBare paths

end

variable {paths : List String} {f g : String → String}

namespace Expr

theorem isHead_eq_true_iff {e : Expr} : e.isHead paths = true ↔ ∃ id, e.asName? = some id ∧ id ∈ paths := by
  simp [isHead, Option.any_eq_true]

theorem isHead_of_name {e : Expr} {id : String} (h : e.asName? = some id) :
    e.isHead paths = true ↔ id ∈ paths := by
  simp [isHead, h]

theorem isHead_of_none {e : Expr} (h : e.asName? = none) : e.isHead paths = false := by
  simp [isHead, h]

/-- Renaming does not look at parentheses. -/
theorem core_renamed : ∀ e : Expr, (e.renamed paths f).core = e.core.renamed paths f
  | paren _ body _ => core_renamed body
  | name _ | number _ _ | quoted _ | unit _ | member _ _ _ | call _ _ | minus _ _ | negation _ _ => rfl
  | junction _ _ _ _ | compare _ _ _ _ | chain _ _ _ _ | compound _ _ => rfl

theorem asName?_renamed : ∀ e : Expr, (e.renamed paths f).asName? = e.asName?.map f
  | paren _ body _ => asName?_renamed body
  | name _ | number _ _ | quoted _ | unit _ | member _ _ _ | call _ _ | minus _ _ | negation _ _ => rfl
  | junction _ _ _ _ | compare _ _ _ _ | chain _ _ _ _ | compound _ _ => rfl

/-- Of a bare expression only a name is a variable. -/
theorem eq_name_of_isBare {e : Expr} {id : String} (hb : e.isBare paths = true) (h : e.asName? = some id) :
    e = name id := by
  cases e with
  | name other => exact congrArg name (Option.some.inj h)
  | paren lead body trail =>
    have hbody : body.asName? = some id := h
    rw [isBare, hbody] at hb
    cases hb
  | _ => cases h

theorem renamed_member_of_head {object : Expr} {dot field : String} (h : object.isHead paths = true) :
    (member object dot field).renamed paths f = member object dot field := by
  rw [renamed, if_pos h]

theorem renamed_member_of_other {object : Expr} {dot field : String} (h : object.isHead paths = false) :
    (member object dot field).renamed paths f = member (object.renamed paths f) dot field := by
  rw [renamed, if_neg (by simp [h])]

/-- Unless it heads a path, an object is referred to through its members. -/
theorem names_member_of_other {object : Expr} {dot field : String} (h : object.isHead paths = false) :
    (member object dot field).names paths = object.names paths := by
  cases hname : object.asName? with
  | none => exact names_member_of_none hname
  | some id =>
    have hpath : id ∉ paths := by simpa [isHead, hname] using h
    rw [names_member_of_name hname, names_of_asName? hname, if_neg (by simpa using hpath)]

theorem renamed_call_of_name {callee : Expr} {args : Parts} {id : String} (h : callee.asName? = some id) :
    (call callee args).renamed paths f = call callee (args.renamed paths f) := by
  rw [renamed, if_pos (by simp [h])]

theorem renamed_call_of_none {callee : Expr} {args : Parts} (h : callee.asName? = none) :
    (call callee args).renamed paths f = call (callee.renamed paths f) (args.renamed paths f) := by
  rw [renamed, if_neg (by simp [h])]

end Expr

mutual

/-- The uses in a renamed expression are the renamed uses. -/
theorem Expr.uses_renamed : ∀ e : Expr, (e.renamed paths f).uses = e.uses.map (Use.renamed paths f)
  | .name id => rfl
  | .number _ _ => rfl
  | .quoted _ => rfl
  | .unit _ => rfl
  | .paren _ body _ => by
    rw [Expr.renamed, Expr.uses, Expr.uses, Expr.uses_renamed body]
  | .member object dot field => by
    have hobject := Expr.uses_renamed object
    cases hname : object.asName? with
    | some id =>
      -- a member of a path head is not the use of a variable
      by_cases hpath : id ∈ paths
      · rw [Expr.renamed_member_of_head ((Expr.isHead_of_name hname).mpr hpath), Expr.uses, hname]
        simp [Use.renamed, Use.counts, hpath]
      · have hhead : object.isHead paths = false := by simpa [Expr.isHead, hname] using hpath
        rw [Expr.renamed_member_of_other hhead, Expr.uses, Expr.asName?_renamed, Expr.uses, hname]
        simp [Use.renamed, Use.counts, hpath]
    | none =>
      rw [Expr.renamed_member_of_other (Expr.isHead_of_none hname), Expr.uses, Expr.asName?_renamed,
        Expr.uses, hname]
      exact hobject
  | .call callee args => by
    have hcallee := Expr.uses_renamed callee
    have hargs := Parts.uses_renamed args
    cases hname : callee.asName? with
    | some id =>
      rw [Expr.renamed_call_of_name hname, Expr.uses, Expr.uses, hname, hargs]
      rfl
    | none =>
      rw [Expr.renamed_call_of_none hname, Expr.uses, Expr.uses, Expr.asName?_renamed, hname, hargs,
        List.map_append]
      exact congrArg (· ++ _) hcallee
  | .minus _ operand => by
    rw [Expr.renamed, Expr.uses, Expr.uses, Expr.uses_renamed operand]
  | .negation _ operand => by
    rw [Expr.renamed, Expr.uses, Expr.uses, Expr.uses_renamed operand]
  | .junction left _ _ right => by
    rw [Expr.renamed, Expr.uses, Expr.uses, Expr.uses_renamed left, Expr.uses_renamed right, List.map_append]
  | .compare left _ _ right => by
    rw [Expr.renamed, Expr.uses, Expr.uses, Expr.uses_renamed left, Expr.uses_renamed right, List.map_append]
  | .chain left _ _ rest => by
    rw [Expr.renamed, Expr.uses, Expr.uses, Expr.uses_renamed left, Expr.uses_renamed rest, List.map_append]
  | .compound _ parts => by
    rw [Expr.renamed, Expr.uses, Expr.uses, Parts.uses_renamed parts]

theorem Parts.uses_renamed : ∀ parts : Parts,
    (parts.renamed paths f).uses = parts.uses.map (Use.renamed paths f)
  | .nil => rfl
  | .text _ rest => by
    rw [Parts.renamed, Parts.uses, Parts.uses, Parts.uses_renamed rest]
  | .child operand rest => by
    rw [Parts.renamed, Parts.uses, Parts.uses, Expr.uses_renamed operand, Parts.uses_renamed rest,
      List.map_append]

end

theorem Expr.mem_names_of_counts {e : Expr} {u : Use} (hu : u ∈ e.uses) (hcounts : u.counts paths = true) :
    u.root ∈ e.names paths := by
  rw [Expr.names_eq_uses]
  exact List.mem_map.mpr ⟨u, List.mem_filter.mpr ⟨hu, hcounts⟩, rfl⟩

/-- The variables of a renamed expression are new names of variables. -/
theorem Expr.exists_of_mem_names_renamed {e : Expr} {id : String} (h : id ∈ (e.renamed paths f).names paths) :
    ∃ old ∈ e.names paths, id = f old := by
  rw [Expr.names_eq_uses, Expr.uses_renamed] at h
  obtain ⟨use, huse, rfl⟩ := List.mem_map.mp h
  obtain ⟨hmem, hcounts⟩ := List.mem_filter.mp huse
  obtain ⟨u, hu, rfl⟩ := List.mem_map.mp hmem
  rw [Use.renamed] at hcounts ⊢
  split at hcounts
  case isTrue hold =>
    rw [if_pos hold]
    exact ⟨u.root, Expr.mem_names_of_counts hu hold, rfl⟩
  case isFalse hold => exact absurd hcounts hold

section Substitution

variable {s : Substitution}

/-- A substitution puts names for variables. -/
structure Substitution.Renames (s : Substitution) (paths : List String) (f : String → String)
    (ids : List String) : Prop where
  /-- No member of `self` is replaced. -/
  fields : s.selfFields = []
  /-- The heads of paths are those given. -/
  heads : s.paths = paths
  /-- Variables are replaced by their new names. -/
  replaced : ∀ id ∈ ids, (s.name? id).getD (.name id) = .name (f id)

namespace Substitution.Renames

variable {ids more : List String}

theorem mono (h : s.Renames paths f more) (hs : ∀ id ∈ ids, id ∈ more) : s.Renames paths f ids :=
  ⟨h.fields, h.heads, fun id hid => h.replaced id (hs id hid)⟩

theorem left (h : s.Renames paths f (ids ++ more)) : s.Renames paths f ids :=
  h.mono fun _ hid => List.mem_append_left _ hid

theorem right (h : s.Renames paths f (ids ++ more)) : s.Renames paths f more :=
  h.mono fun _ hid => List.mem_append_right _ hid

theorem keeps_eq (h : s.Renames paths f ids) (object : Expr) : s.keeps object = object.isHead paths := by
  rw [Bool.eq_iff_iff, Substitution.keeps_eq_true_iff, Expr.isHead_eq_true_iff, h.heads]

/-- Nothing but a variable is replaced as a whole. -/
theorem replaces_eq_false (h : s.Renames paths f ids) {e : Expr} (he : e.asName? = none) :
    s.replaces e = false := by
  unfold Substitution.replaces
  split
  case h_1 id hcore => exact absurd hcore (Expr.core_ne_name he id)
  case h_2 => rw [Expr.member?_eq_none h.fields, Option.isSome_none]
  case h_3 => rfl

end Substitution.Renames

mutual

/-- Substituting names for the variables of a bare expression renames them. -/
theorem Expr.subst_eq_renamed : ∀ e : Expr, e.isBare paths = true → s.Renames paths f (e.names paths) →
    e.subst s = e.renamed paths f
  | .name id, _, h => by
    have hname := h.replaced id (by simp [Expr.names])
    rw [Expr.subst, Expr.renamed]
    cases hfound : s.name? id with
    | none => rwa [hfound] at hname
    | some e =>
      rw [hfound, Option.getD_some] at hname
      rw [hname]
      rfl
  | .number _ _, _, _ => rfl
  | .quoted _, _, _ => rfl
  | .unit _, _, _ => rfl
  | .paren lead body trail, hb, h => by
    obtain ⟨hnone, hb⟩ := Bool.and_eq_true_iff.mp hb
    rw [Expr.subst, h.replaces_eq_false (Option.isNone_iff_eq_none.mp hnone), if_neg Bool.false_ne_true,
      Expr.renamed, Expr.subst_eq_renamed body hb h]
  | .member object dot field, hb, h => by
    rw [Expr.subst, Expr.member?_eq_none h.fields]
    dsimp only
    rw [h.keeps_eq]
    cases hhead : object.isHead paths with
    | true => rw [if_pos rfl, Expr.renamed_member_of_head hhead]
    | false =>
      have hbare : object.isBare paths = true := by
        simpa [Expr.isBare, hhead] using hb
      rw [Expr.names_member_of_other hhead] at h
      rw [if_neg Bool.false_ne_true, Expr.renamed_member_of_other hhead,
        Expr.subst_eq_renamed object hbare h]
  | .call callee args, hb, h => by
    obtain ⟨hcallee, hargs⟩ := Bool.and_eq_true_iff.mp hb
    cases hname : callee.asName? with
    | some id =>
      rw [Expr.names_call_of_name hname] at h
      rw [Expr.subst_call_of_name hname, Expr.renamed_call_of_name hname,
        Parts.substArgs_eq_renamed args hargs h]
    | none =>
      rw [Expr.names_call_of_none hname] at h
      have hbare : callee.isBare paths = true := by simpa [hname] using hcallee
      rw [Expr.subst_call_of_none hname, Expr.renamed_call_of_none hname,
        Expr.subst_eq_renamed callee hbare h.left, Parts.substArgs_eq_renamed args hargs h.right]
  | .minus _ operand, hb, h => by
    rw [Expr.subst, Expr.renamed, Expr.subst_eq_renamed operand hb h]
  | .negation _ operand, hb, h => by
    rw [Expr.subst, Expr.renamed, Expr.subst_eq_renamed operand hb h]
  | .junction left _ _ right, hb, h => by
    obtain ⟨hleft, hright⟩ := Bool.and_eq_true_iff.mp hb
    rw [Expr.subst, Expr.renamed, Expr.subst_eq_renamed left hleft h.left,
      Expr.subst_eq_renamed right hright h.right]
  | .compare left _ _ right, hb, h => by
    obtain ⟨hleft, hright⟩ := Bool.and_eq_true_iff.mp hb
    rw [Expr.subst, Expr.renamed, Expr.subst_eq_renamed left hleft h.left,
      Expr.subst_eq_renamed right hright h.right]
  | .chain left _ _ rest, hb, h => by
    obtain ⟨hleft, hrest⟩ := Bool.and_eq_true_iff.mp hb
    rw [Expr.subst, Expr.renamed, Expr.subst_eq_renamed left hleft h.left,
      Expr.subst_eq_renamed rest hrest h.right]
  | .compound _ parts, hb, h => by
    rw [Expr.subst, Expr.renamed, Parts.subst_eq_renamed parts hb h]

theorem Parts.subst_eq_renamed : ∀ parts : Parts, parts.isBare paths = true →
    s.Renames paths f (parts.names paths) → parts.subst s = parts.renamed paths f
  | .nil, _, _ => rfl
  | .text _ rest, hb, h => by
    rw [Parts.subst, Parts.renamed, Parts.subst_eq_renamed rest hb h]
  | .child operand rest, hb, h => by
    obtain ⟨hoperand, hrest⟩ := Bool.and_eq_true_iff.mp hb
    rw [Parts.subst, Parts.renamed, Expr.subst_eq_renamed operand hoperand h.left,
      Parts.subst_eq_renamed rest hrest h.right]

/-- Arguments are renamed alike. -/
theorem Parts.substArgs_eq_renamed : ∀ parts : Parts, parts.isBare paths = true →
    s.Renames paths f (parts.names paths) → parts.substArgs s = parts.renamed paths f
  | .nil, _, _ => rfl
  | .text _ rest, hb, h => by
    rw [Parts.substArgs, Parts.renamed, Parts.substArgs_eq_renamed rest hb h]
  | .child operand rest, hb, h => by
    obtain ⟨hoperand, hrest⟩ := Bool.and_eq_true_iff.mp hb
    have hsubst := Expr.subst_eq_renamed operand hoperand h.left
    have hargument : (s.argument? operand).getD (operand.subst s) = operand.renamed paths f := by
      cases hargument : s.argument? operand with
      | none => rw [Option.getD_none, hsubst]
      | some e =>
        unfold Substitution.argument? at hargument
        split at hargument
        case h_1 id hcore =>
          have heq := Expr.eq_name_of_isBare hoperand (Expr.asName?_eq_some_iff.mpr hcore)
          have hname := h.left.replaced id (by rw [heq]; simp [Expr.names])
          rw [hargument] at hname
          rw [heq, Option.getD_some]
          exact hname
        case h_2 => cases hargument
    rw [Parts.substArgs, Parts.renamed, hargument, Parts.substArgs_eq_renamed rest hrest h.right]

end

end Substitution

mutual

/-- Renamed variables stand in no parentheses of their own either. -/
theorem Expr.isBare_renamed : ∀ e : Expr, e.isBare paths = true → (e.renamed paths f).isBare paths = true
  | .name _, _ => rfl
  | .number _ _, _ => rfl
  | .quoted _, _ => rfl
  | .unit _, _ => rfl
  | .paren _ body _, hb => by
    obtain ⟨hnone, hb⟩ := Bool.and_eq_true_iff.mp hb
    rw [Expr.renamed, Expr.isBare, Expr.asName?_renamed, Expr.isBare_renamed body hb,
      Option.isNone_iff_eq_none.mp hnone]
    rfl
  | .member object dot field, hb => by
    cases hhead : object.isHead paths with
    | true => rwa [Expr.renamed_member_of_head hhead]
    | false =>
      have hbare : object.isBare paths = true := by simpa [Expr.isBare, hhead] using hb
      rw [Expr.renamed_member_of_other hhead, Expr.isBare, Expr.isBare_renamed object hbare, Bool.or_true]
  | .call callee args, hb => by
    obtain ⟨hcallee, hargs⟩ := Bool.and_eq_true_iff.mp hb
    cases hname : callee.asName? with
    | some id =>
      rw [Expr.renamed_call_of_name hname, Expr.isBare, hcallee, Parts.isBare_renamed args hargs]
      rfl
    | none =>
      have hbare : callee.isBare paths = true := by simpa [hname] using hcallee
      rw [Expr.renamed_call_of_none hname, Expr.isBare, Expr.isBare_renamed callee hbare, Bool.or_true,
        Parts.isBare_renamed args hargs]
      rfl
  | .minus _ operand, hb => Expr.isBare_renamed operand hb
  | .negation _ operand, hb => Expr.isBare_renamed operand hb
  | .junction left _ _ right, hb => by
    obtain ⟨hleft, hright⟩ := Bool.and_eq_true_iff.mp hb
    rw [Expr.renamed, Expr.isBare, Expr.isBare_renamed left hleft, Expr.isBare_renamed right hright]
    rfl
  | .compare left _ _ right, hb => by
    obtain ⟨hleft, hright⟩ := Bool.and_eq_true_iff.mp hb
    rw [Expr.renamed, Expr.isBare, Expr.isBare_renamed left hleft, Expr.isBare_renamed right hright]
    rfl
  | .chain left _ _ rest, hb => by
    obtain ⟨hleft, hrest⟩ := Bool.and_eq_true_iff.mp hb
    rw [Expr.renamed, Expr.isBare, Expr.isBare_renamed left hleft, Expr.isBare_renamed rest hrest]
    rfl
  | .compound _ parts, hb => Parts.isBare_renamed parts hb

theorem Parts.isBare_renamed : ∀ parts : Parts, parts.isBare paths = true →
    (parts.renamed paths f).isBare paths = true
  | .nil, _ => rfl
  | .text _ rest, hb => Parts.isBare_renamed rest hb
  | .child operand rest, hb => by
    obtain ⟨hoperand, hrest⟩ := Bool.and_eq_true_iff.mp hb
    rw [Parts.renamed, Parts.isBare, Expr.isBare_renamed operand hoperand, Parts.isBare_renamed rest hrest]
    rfl

end

/-- A use is restored by renaming it back: no member is taken of a new name that heads a path, and the old
name comes back. -/
def Use.Restored (paths : List String) (f g : String → String) (u : Use) : Prop :=
  u.counts paths = true → (u.member = none ∨ f u.root ∉ paths) ∧ g (f u.root) = u.root

theorem Expr.uses_of_asName? {e : Expr} {id : String} (h : e.asName? = some id) : e.uses = [⟨id, none⟩] := by
  cases e with
  | name other => rw [Option.some.inj h]; rfl
  | paren lead body trail =>
    rw [Expr.uses]
    exact Expr.uses_of_asName? h
  | _ => cases h

mutual

/-- An expression whose uses are restored is restored. -/
theorem Expr.renamed_renamed : ∀ e : Expr, (∀ u ∈ e.uses, u.Restored paths f g) →
    (e.renamed paths f).renamed paths g = e
  | .name id, h => congrArg Expr.name (h ⟨id, none⟩ (by simp [Expr.uses]) rfl).2
  | .number _ _, _ => rfl
  | .quoted _, _ => rfl
  | .unit _, _ => rfl
  | .paren _ body _, h => by
    rw [Expr.renamed, Expr.renamed, Expr.renamed_renamed body h]
  | .member object dot field, h => by
    cases hname : object.asName? with
    | none =>
      rw [Expr.uses, hname] at h
      have hnone : (object.renamed paths f).asName? = none := by rw [Expr.asName?_renamed, hname]; rfl
      rw [Expr.renamed_member_of_other (Expr.isHead_of_none hname),
        Expr.renamed_member_of_other (Expr.isHead_of_none hnone), Expr.renamed_renamed object h]
    | some id =>
      by_cases hpath : id ∈ paths
      · have hhead := (Expr.isHead_of_name hname).mpr hpath
        rw [Expr.renamed_member_of_head hhead, Expr.renamed_member_of_head hhead]
      · have hother : object.isHead paths = false := by simpa [Expr.isHead, hname] using hpath
        have hrestored := h ⟨id, some field⟩ (by simp [Expr.uses, hname]) (by simp [Use.counts, hpath])
        have hfree : f id ∉ paths := hrestored.1.resolve_left (by simp)
        have hrenamed : (object.renamed paths f).isHead paths = false := by
          simpa [Expr.isHead, Expr.asName?_renamed, hname] using hfree
        have hobject : ∀ u ∈ object.uses, u.Restored paths f g := by
          intro u hu _
          rw [Expr.uses_of_asName? hname, List.mem_singleton] at hu
          rw [hu]
          exact ⟨.inl rfl, hrestored.2⟩
        rw [Expr.renamed_member_of_other hother, Expr.renamed_member_of_other hrenamed,
          Expr.renamed_renamed object hobject]
  | .call callee args, h => by
    cases hname : callee.asName? with
    | some id =>
      rw [Expr.uses, hname] at h
      rw [Expr.renamed_call_of_name hname, Expr.renamed_call_of_name hname, Parts.renamed_renamed args h]
    | none =>
      rw [Expr.uses, hname] at h
      obtain ⟨hcallee, hargs⟩ := List.forall_mem_append.mp h
      have hnone : (callee.renamed paths f).asName? = none := by rw [Expr.asName?_renamed, hname]; rfl
      rw [Expr.renamed_call_of_none hname, Expr.renamed_call_of_none hnone,
        Expr.renamed_renamed callee hcallee, Parts.renamed_renamed args hargs]
  | .minus _ operand, h => by
    rw [Expr.renamed, Expr.renamed, Expr.renamed_renamed operand h]
  | .negation _ operand, h => by
    rw [Expr.renamed, Expr.renamed, Expr.renamed_renamed operand h]
  | .junction left _ _ right, h => by
    obtain ⟨hleft, hright⟩ := List.forall_mem_append.mp h
    rw [Expr.renamed, Expr.renamed, Expr.renamed_renamed left hleft, Expr.renamed_renamed right hright]
  | .compare left _ _ right, h => by
    obtain ⟨hleft, hright⟩ := List.forall_mem_append.mp h
    rw [Expr.renamed, Expr.renamed, Expr.renamed_renamed left hleft, Expr.renamed_renamed right hright]
  | .chain left _ _ rest, h => by
    obtain ⟨hleft, hrest⟩ := List.forall_mem_append.mp h
    rw [Expr.renamed, Expr.renamed, Expr.renamed_renamed left hleft, Expr.renamed_renamed rest hrest]
  | .compound _ parts, h => by
    rw [Expr.renamed, Expr.renamed, Parts.renamed_renamed parts h]

theorem Parts.renamed_renamed : ∀ parts : Parts, (∀ u ∈ parts.uses, u.Restored paths f g) →
    (parts.renamed paths f).renamed paths g = parts
  | .nil, _ => rfl
  | .text _ rest, h => by
    rw [Parts.renamed, Parts.renamed, Parts.renamed_renamed rest h]
  | .child operand rest, h => by
    obtain ⟨hoperand, hrest⟩ := List.forall_mem_append.mp h
    rw [Parts.renamed, Parts.renamed, Expr.renamed_renamed operand hoperand,
      Parts.renamed_renamed rest hrest]

end

mutual

/-- Renaming no variable to another one changes nothing. -/
theorem Expr.renamed_eq_self : ∀ e : Expr, (∀ id ∈ e.names paths, f id = id) → e.renamed paths f = e
  | .name id, h => congrArg Expr.name (h id (by simp [Expr.names]))
  | .number _ _, _ => rfl
  | .quoted _, _ => rfl
  | .unit _, _ => rfl
  | .paren _ body _, h => by
    rw [Expr.renamed, Expr.renamed_eq_self body h]
  | .member object dot field, h => by
    cases hhead : object.isHead paths with
    | true => exact Expr.renamed_member_of_head hhead
    | false =>
      rw [Expr.names_member_of_other hhead] at h
      rw [Expr.renamed_member_of_other hhead, Expr.renamed_eq_self object h]
  | .call callee args, h => by
    cases hname : callee.asName? with
    | some id =>
      rw [Expr.names_call_of_name hname] at h
      rw [Expr.renamed_call_of_name hname, Parts.renamed_eq_self args h]
    | none =>
      rw [Expr.names_call_of_none hname, List.forall_mem_append] at h
      rw [Expr.renamed_call_of_none hname, Expr.renamed_eq_self callee h.1, Parts.renamed_eq_self args h.2]
  | .minus _ operand, h => by
    rw [Expr.renamed, Expr.renamed_eq_self operand h]
  | .negation _ operand, h => by
    rw [Expr.renamed, Expr.renamed_eq_self operand h]
  | .junction left _ _ right, h => by
    obtain ⟨hleft, hright⟩ := List.forall_mem_append.mp h
    rw [Expr.renamed, Expr.renamed_eq_self left hleft, Expr.renamed_eq_self right hright]
  | .compare left _ _ right, h => by
    obtain ⟨hleft, hright⟩ := List.forall_mem_append.mp h
    rw [Expr.renamed, Expr.renamed_eq_self left hleft, Expr.renamed_eq_self right hright]
  | .chain left _ _ rest, h => by
    obtain ⟨hleft, hrest⟩ := List.forall_mem_append.mp h
    rw [Expr.renamed, Expr.renamed_eq_self left hleft, Expr.renamed_eq_self rest hrest]
  | .compound _ parts, h => by
    rw [Expr.renamed, Parts.renamed_eq_self parts h]

theorem Parts.renamed_eq_self : ∀ parts : Parts, (∀ id ∈ parts.names paths, f id = id) →
    parts.renamed paths f = parts
  | .nil, _ => rfl
  | .text _ rest, h => by
    rw [Parts.renamed, Parts.renamed_eq_self rest h]
  | .child operand rest, h => by
    obtain ⟨hoperand, hrest⟩ := List.forall_mem_append.mp h
    rw [Parts.renamed, Expr.renamed_eq_self operand hoperand, Parts.renamed_eq_self rest hrest]

end

mutual

/-- The text of an expression has the variables that are used in it. -/
theorem Expr.root_isInfix_render : ∀ (e : Expr) {u : Use}, u ∈ e.uses → u.root.toList <:+: e.render.toList
  | .name id, u, h => by
    rw [Expr.uses, List.mem_singleton] at h
    rw [h]
    exact List.infix_rfl
  | .number _ _, _, h => by cases h
  | .quoted _, _, h => by cases h
  | .unit _, _, h => by cases h
  | .paren lead body trail, u, h => by
    have hbody := Expr.root_isInfix_render body h
    simp only [Expr.render, String.toList_append]
    exact ((hbody.trans (List.suffix_append _ _).isInfix).trans (List.prefix_append _ _).isInfix).trans
      (List.prefix_append _ _).isInfix
  | .member object dot field, u, h => by
    have hobject : u.root.toList <:+: object.render.toList := by
      rw [Expr.uses] at h
      cases hname : object.asName? with
      | none =>
        rw [hname] at h
        exact Expr.root_isInfix_render object h
      | some id =>
        rw [hname, List.mem_singleton] at h
        rw [h]
        exact Expr.root_isInfix_render object (u := ⟨id, none⟩) (by simp [Expr.uses_of_asName? hname])
    simp only [Expr.render, String.toList_append]
    exact (hobject.trans (List.prefix_append _ _).isInfix).trans (List.prefix_append _ _).isInfix
  | .call callee args, u, h => by
    simp only [Expr.render, String.toList_append]
    rw [Expr.uses] at h
    rcases List.mem_append.mp h with h | h
    · cases hname : callee.asName? with
      | some id =>
        rw [hname] at h
        cases h
      | none =>
        rw [hname] at h
        exact (Expr.root_isInfix_render callee h).trans (List.prefix_append _ _).isInfix
    · exact (Parts.root_isInfix_render args h).trans (List.suffix_append _ _).isInfix
  | .minus gap operand, u, h => by
    simp only [Expr.render, String.toList_append]
    exact (Expr.root_isInfix_render operand h).trans (List.suffix_append _ _).isInfix
  | .negation gap operand, u, h => by
    simp only [Expr.render, String.toList_append]
    exact (Expr.root_isInfix_render operand h).trans (List.suffix_append _ _).isInfix
  | .junction left op spelling right, u, h => by
    simp only [Expr.render, String.toList_append]
    rcases List.mem_append.mp h with h | h
    · exact ((Expr.root_isInfix_render left h).trans (List.prefix_append _ _).isInfix).trans
        (List.prefix_append _ _).isInfix
    · exact (Expr.root_isInfix_render right h).trans (List.suffix_append _ _).isInfix
  | .compare left op spelling right, u, h => by
    simp only [Expr.render, String.toList_append]
    rcases List.mem_append.mp h with h | h
    · exact ((Expr.root_isInfix_render left h).trans (List.prefix_append _ _).isInfix).trans
        (List.prefix_append _ _).isInfix
    · exact (Expr.root_isInfix_render right h).trans (List.suffix_append _ _).isInfix
  | .chain left op spelling rest, u, h => by
    simp only [Expr.render, String.toList_append]
    rcases List.mem_append.mp h with h | h
    · exact ((Expr.root_isInfix_render left h).trans (List.prefix_append _ _).isInfix).trans
        (List.prefix_append _ _).isInfix
    · exact (Expr.root_isInfix_render rest h).trans (List.suffix_append _ _).isInfix
  | .compound _ parts, u, h => Parts.root_isInfix_render parts h

theorem Parts.root_isInfix_render : ∀ (parts : Parts) {u : Use}, u ∈ parts.uses →
    u.root.toList <:+: parts.render.toList
  | .nil, _, h => by cases h
  | .text piece rest, u, h => by
    simp only [Parts.render, String.toList_append]
    exact (Parts.root_isInfix_render rest h).trans (List.suffix_append _ _).isInfix
  | .child operand rest, u, h => by
    simp only [Parts.render, String.toList_append]
    rcases List.mem_append.mp h with h | h
    · exact (Expr.root_isInfix_render operand h).trans (List.prefix_append _ _).isInfix
    · exact (Parts.root_isInfix_render rest h).trans (List.suffix_append _ _).isInfix

end

/-! ### What a renamed expression looks like from outside -/

theorem Expr.isStarred_renamed (e : Expr) : (e.renamed paths f).isStarred = e.isStarred := by
  cases e with
  | compound shape parts => cases shape <;> rfl
  | _ => rfl

theorem Parts.starredFirst_renamed (parts : Parts) :
    (parts.renamed paths f).starredFirst = parts.starredFirst := by
  cases parts with
  | child operand rest => exact Expr.isStarred_renamed operand
  | _ => rfl

mutual

/-- A word before a renamed expression meets what it met before. -/
theorem Expr.start_renamed : ∀ e : Expr, (e.renamed paths f).start = e.start
  | .name _ => rfl
  | .number _ _ => rfl
  | .quoted _ => rfl
  | .unit _ => rfl
  | .paren _ body _ => Expr.startInside_renamed body
  | .member object dot field => by
    cases hhead : object.isHead paths with
    | true => rw [Expr.renamed_member_of_head hhead]
    | false =>
      rw [Expr.renamed_member_of_other hhead]
      exact Expr.start_renamed object
  | .call callee args => by
    cases hname : callee.asName? with
    | some id => rw [Expr.renamed_call_of_name hname, Expr.start, Expr.start]
    | none =>
      rw [Expr.renamed_call_of_none hname]
      exact Expr.start_renamed callee
  | .minus _ _ => rfl
  | .negation _ _ => rfl
  | .junction left _ _ _ => Expr.start_renamed left
  | .compare left _ _ _ => Expr.start_renamed left
  | .chain left _ _ _ => Expr.start_renamed left
  | .compound shape parts => by
    rw [Expr.renamed, Expr.start, Expr.start, Parts.starredFirst_renamed, Parts.start_renamed parts]

theorem Expr.startInside_renamed : ∀ e : Expr, (e.renamed paths f).startInside = e.startInside
  | .paren _ body _ => Expr.startInside_renamed body
  | .compound shape parts => by
    rw [Expr.renamed, Expr.startInside, Expr.startInside, Parts.start_renamed parts]
  | .name _ | .number _ _ | .quoted _ | .unit _ | .member _ _ _ | .call _ _ | .minus _ _ | .negation _ _ => rfl
  | .junction _ _ _ _ | .compare _ _ _ _ | .chain _ _ _ _ => rfl

theorem Parts.start_renamed : ∀ parts : Parts, (parts.renamed paths f).start = parts.start
  | .nil => rfl
  | .text _ _ => rfl
  | .child operand _ => Expr.start_renamed operand

end

/-- What stands at the end of a list of parts is the last of them. -/
theorem Parts.openEnd_child {operand : Expr} {rest : Parts} {tuple : Bool} (h : rest ≠ .nil) :
    (Parts.child operand rest).openEnd tuple = rest.openEnd tuple := by
  rw [Parts.openEnd]
  · exact fun _ _ hrest => h hrest
  · exact h

mutual

/-- A word after a renamed expression meets what it met before. -/
theorem Expr.openEnd_renamed : ∀ e : Expr, (e.renamed paths f).openEnd = e.openEnd
  | .name _ => rfl
  | .number _ _ => rfl
  | .quoted _ => rfl
  | .unit _ => rfl
  | .paren _ body _ => Expr.openEndInside_renamed body
  | .member _ _ _ => rfl
  | .call _ _ => rfl
  | .minus _ operand => Expr.openEnd_renamed operand
  | .negation _ operand => Expr.openEnd_renamed operand
  | .junction _ _ _ right => Expr.openEnd_renamed right
  | .compare _ _ _ right => Expr.openEnd_renamed right
  | .chain _ _ _ rest => Expr.openEnd_renamed rest
  | .compound shape parts => by
    rw [Expr.renamed, Expr.openEnd, Expr.openEnd, Parts.openEnd_renamed parts _]

theorem Expr.openEndInside_renamed : ∀ e : Expr, (e.renamed paths f).openEndInside = e.openEndInside
  | .paren _ body _ => Expr.openEndInside_renamed body
  | .compound shape parts => by
    rw [Expr.renamed, Expr.openEndInside, Expr.openEndInside, Parts.openEnd_renamed parts _]
  | .name _ | .number _ _ | .quoted _ | .unit _ | .member _ _ _ | .call _ _ | .minus _ _ | .negation _ _ => rfl
  | .junction _ _ _ _ | .compare _ _ _ _ | .chain _ _ _ _ => rfl

theorem Parts.openEnd_renamed : ∀ (parts : Parts) (tuple : Bool),
    (parts.renamed paths f).openEnd tuple = parts.openEnd tuple
  | .nil, _ => rfl
  | .text _ .nil, _ => rfl
  | .text _ (.text piece rest), _ => Parts.openEnd_renamed (.text piece rest) _
  | .text _ (.child operand rest), _ => Parts.openEnd_renamed (.child operand rest) _
  | .child operand .nil, tuple => by
    have hoperand := Expr.openEnd_renamed operand
    cases operand with
    | compound shape inner =>
      have hinner := Parts.openEnd_renamed inner
      cases shape <;> simp only [Parts.renamed, Expr.renamed, Parts.openEnd, Expr.openEnd, hinner]
    | _ => exact hoperand
  | .child _ (.text piece rest), tuple => by
    rw [Parts.renamed, Parts.openEnd_child (by simp [Parts.renamed]), Parts.openEnd_child (by simp)]
    exact Parts.openEnd_renamed (.text piece rest) tuple
  | .child _ (.child next rest), tuple => by
    rw [Parts.renamed, Parts.openEnd_child (by simp [Parts.renamed]), Parts.openEnd_child (by simp)]
    exact Parts.openEnd_renamed (.child next rest) tuple

end

theorem Parts.wordFirst_renamed (parts : Parts) : (parts.renamed paths f).wordFirst = parts.wordFirst := by
  cases parts with
  | child operand rest =>
    cases operand with
    | compound shape inner => cases shape <;> cases inner <;> rfl
    | _ => rfl
  | _ => rfl

theorem Parts.contactFault?_renamed : ∀ parts : Parts,
    (parts.renamed paths f).contactFault? = parts.contactFault?
  | .nil => rfl
  | .text piece rest => by
    rw [Parts.renamed, Parts.contactFault?, Parts.contactFault?, Parts.start_renamed,
      Parts.contactFault?_renamed rest]
  | .child operand rest => by
    rw [Parts.renamed, Parts.contactFault?, Parts.contactFault?, Parts.wordFirst_renamed, Expr.openEnd_renamed,
      Parts.contactFault?_renamed rest]

theorem Parts.literalsAgree_renamed : ∀ (parts : Parts) (bytes : Option Bool),
    (parts.renamed paths f).literalsAgree bytes = parts.literalsAgree bytes
  | .text literal (.text _ rest), bytes =>
    congrArg (bytes.getD (isBytes literal) == isBytes literal && ·) (Parts.literalsAgree_renamed rest _)
  | .nil, _ => rfl
  | .child _ _, _ => rfl
  | .text _ .nil, _ => rfl
  | .text _ (.child _ _), _ => rfl

theorem Parts.ownFault?_renamed (parts : Parts) (shape : Shape) :
    (parts.renamed paths f).ownFault? shape = parts.ownFault? shape := by
  cases shape with
  | label => cases parts <;> rfl
  | strings =>
    simp only [Parts.ownFault?]
    rw [Parts.literalsAgree_renamed]
  | _ => rfl

theorem endFault?_renamed (left : Expr) (spelling : String) :
    endFault? (left.renamed paths f) spelling = endFault? left spelling := by
  rw [endFault?, endFault?, Expr.openEnd_renamed]

theorem startFault?_renamed (spelling : String) (right : Expr) :
    startFault? spelling (right.renamed paths f) = startFault? spelling right := by
  rw [startFault?, startFault?, Expr.start_renamed]

mutual

/-- An expression that can be written out can be so with other identifiers for its variables. -/
theorem Expr.fault?_renamed : ∀ e : Expr, e.fault? = none →
    (∀ id ∈ e.names paths, Text.isIdentifier (f id).toList = true) → (e.renamed paths f).fault? = none
  | .name id, _, hf => if_pos (hf id (by simp [Expr.names]))
  | .number _ _, _, _ => rfl
  | .quoted _, _, _ => rfl
  | .unit _, _, _ => rfl
  | .paren _ body _, h, hf => Expr.fault?_renamed body h hf
  | .member object dot field, h, hf => by
    cases hhead : object.isHead paths with
    | true => rwa [Expr.renamed_member_of_head hhead]
    | false =>
      obtain ⟨hobject, hfield⟩ := Option.or_eq_none_iff.mp h
      rw [Expr.names_member_of_other hhead] at hf
      rw [Expr.renamed_member_of_other hhead, Expr.fault?, Expr.fault?_renamed object hobject hf, hfield]
      rfl
  | .call callee args, h, hf => by
    obtain ⟨hcallee, hargs⟩ := Option.or_eq_none_iff.mp h
    cases hname : callee.asName? with
    | some id =>
      rw [Expr.names_call_of_name hname] at hf
      rw [Expr.renamed_call_of_name hname, Expr.fault?, hcallee, Parts.fault?_renamed args hargs hf]
      rfl
    | none =>
      rw [Expr.names_call_of_none hname, List.forall_mem_append] at hf
      rw [Expr.renamed_call_of_none hname, Expr.fault?, Expr.fault?_renamed callee hcallee hf.1,
        Parts.fault?_renamed args hargs hf.2]
      rfl
  | .minus _ operand, h, hf => Expr.fault?_renamed operand h hf
  | .negation gap operand, h, hf => by
    obtain ⟨hoperand, hstart⟩ := Option.or_eq_none_iff.mp h
    rw [Expr.renamed, Expr.fault?, Expr.fault?_renamed operand hoperand hf, Expr.start_renamed, hstart]
    rfl
  | .junction left op spelling right, h, hf => by
    obtain ⟨hleft, h⟩ := Option.or_eq_none_iff.mp h
    obtain ⟨hright, hcontact⟩ := Option.or_eq_none_iff.mp h
    obtain ⟨hfleft, hfright⟩ := List.forall_mem_append.mp hf
    rw [Expr.renamed, Expr.fault?, Expr.fault?_renamed left hleft hfleft,
      Expr.fault?_renamed right hright hfright, endFault?_renamed, startFault?_renamed]
    exact hcontact
  | .compare left op spelling right, h, hf => by
    obtain ⟨hleft, h⟩ := Option.or_eq_none_iff.mp h
    obtain ⟨hright, hcontact⟩ := Option.or_eq_none_iff.mp h
    obtain ⟨hfleft, hfright⟩ := List.forall_mem_append.mp hf
    rw [Expr.renamed, Expr.fault?, Expr.fault?_renamed left hleft hfleft,
      Expr.fault?_renamed right hright hfright, endFault?_renamed, startFault?_renamed]
    exact hcontact
  | .chain left op spelling rest, h, hf => by
    obtain ⟨hleft, h⟩ := Option.or_eq_none_iff.mp h
    obtain ⟨hrest, hcontact⟩ := Option.or_eq_none_iff.mp h
    obtain ⟨hfleft, hfrest⟩ := List.forall_mem_append.mp hf
    rw [Expr.renamed, Expr.fault?, Expr.fault?_renamed left hleft hfleft,
      Expr.fault?_renamed rest hrest hfrest, endFault?_renamed, startFault?_renamed]
    exact hcontact
  | .compound shape parts, h, hf => by
    obtain ⟨hparts, hown⟩ := Option.or_eq_none_iff.mp h
    rw [Expr.renamed, Expr.fault?, Parts.fault?_renamed parts hparts hf, Parts.contactFault?_renamed,
      Parts.ownFault?_renamed]
    exact hown

theorem Parts.fault?_renamed : ∀ parts : Parts, parts.fault? = none →
    (∀ id ∈ parts.names paths, Text.isIdentifier (f id).toList = true) →
    (parts.renamed paths f).fault? = none
  | .nil, _, _ => rfl
  | .text _ rest, h, hf => Parts.fault?_renamed rest h hf
  | .child operand rest, h, hf => by
    obtain ⟨hoperand, hrest⟩ := Option.or_eq_none_iff.mp h
    obtain ⟨hfoperand, hfrest⟩ := List.forall_mem_append.mp hf
    rw [Parts.renamed, Parts.fault?, Expr.fault?_renamed operand hoperand hfoperand,
      Parts.fault?_renamed rest hrest hfrest]
    rfl

end

theorem Expr.strip_renamed (e : Expr) :
    (e.renamed paths f).strip = e.strip.map (Expr.renamed paths f) := by
  rw [Expr.strip, Expr.strip, Expr.core_renamed]
  cases e.core <;> rfl

theorem Expr.literal?_renamed (e : Expr) : (e.renamed paths f).literal? = e.literal? := by
  cases e <;> rfl

/-- Renaming changes no number. -/
theorem Expr.numeric?_renamed (e : Expr) : (e.renamed paths f).numeric? = e.numeric? := by
  rw [Expr.numeric?, Expr.numeric?, Expr.strip_renamed]
  cases e.strip with
  | error cause => rfl
  | ok core =>
    cases core with
    | minus gap operand =>
      change ((operand.renamed paths f).strip >>= fun inner => inner.literal? >>= fun value =>
          pure (value.map Double.neg)) = (operand.strip >>= fun inner => inner.literal? >>= fun value =>
          pure (value.map Double.neg))
      rw [Expr.strip_renamed]
      cases operand.strip with
      | error cause => rfl
      | ok inner => exact congrArg (· >>= fun value => pure (value.map Double.neg)) (Expr.literal?_renamed inner)
    | _ => rfl

/-- A renamed expression can be an atom exactly if the original can. -/
theorem Expr.isAtomic_renamed {e : Expr} : (e.renamed paths f).IsAtomic ↔ e.IsAtomic := by
  rw [Expr.IsAtomic, Expr.IsAtomic, Expr.core_renamed]
  cases e.core with
  | compare left op spelling right =>
    cases op with
    | order op => simp only [Expr.renamed, Expr.numeric?_renamed]
    | _ => rfl
  | negation gap operand =>
    simp only [Expr.renamed, Expr.core_renamed]
    cases operand.core <;> simp [Expr.renamed]
  | _ => rfl

end CrateSafety
