import CrateSafety.Proofs.MemberRenaming

/-!
# Uses of variables

Where a requirement uses variables, said without regard to paths: each variable that stands by itself or as
the object of a member, called names apart. The references of an atom are those uses, less every member taken
of a name that heads a path somewhere in the line. So a name that stands by itself is never hidden, and a name
of which only members are taken is hidden from all atoms of a line as soon as one path in it starts with that
name.
-/

namespace CrateSafety

/-- A use of a variable: by itself, or with the member that is taken of it. -/
structure Use where
  /-- The variable. -/
  root : String
  /-- The member, if one is taken. -/
  member : Option String
  deriving DecidableEq, Repr

namespace Use

/-- Whether a use counts as a reference beside the given heads of paths. -/
def counts (paths : List String) (u : Use) : Bool := u.member.isNone || !paths.contains u.root

/-- The member that a use takes of `self`. -/
def selfMember? (u : Use) : Option String := if u.root == selfName then u.member else none

end Use

mutual

/-- The uses of variables in an expression. The name of what is called is no variable. -/
def Expr.uses : Expr → List Use
  | .name id => [⟨id, none⟩]
  | .number _ _ => []
  | .quoted _ => []
  | .unit _ => []
  | .paren _ body _ => body.uses
  | .member object _ field =>
    match object.asName? with
    | some id => [⟨id, some field⟩]
    | none => object.uses
  | .call callee args =>
    (match callee.asName? with
      | some _ => []
      | none => callee.uses) ++ args.uses
  | .minus _ operand => operand.uses
  | .negation _ operand => operand.uses
  | .junction left _ _ right => left.uses ++ right.uses
  | .compare left _ _ right => left.uses ++ right.uses
  | .chain left _ _ rest => left.uses ++ rest.uses
  | .compound _ parts => parts.uses

/-- The uses of variables in a list of parts. -/
def Parts.uses : Parts → List Use
  | .nil => []
  | .text _ rest => rest.uses
  | .child operand rest => operand.uses ++ rest.uses

end

section References

variable {paths : List String}

mutual

/-- The variables that an expression refers to are those of the uses that count. -/
theorem Expr.names_eq_uses : ∀ e : Expr, e.names paths = (e.uses.filter (Use.counts paths)).map Use.root
  | .name _ => rfl
  | .number _ _ => rfl
  | .quoted _ => rfl
  | .unit _ => rfl
  | .paren _ body _ => by
    rw [Expr.names, Expr.uses, Expr.names_eq_uses body]
  | .member object dot field => by
    have hobject := Expr.names_eq_uses object
    rw [Expr.uses]
    cases hname : object.asName? with
    | some id =>
      rw [Expr.names_member_of_name hname]
      by_cases hpath : id ∈ paths <;> simp [List.filter, Use.counts, hpath]
    | none => rw [Expr.names_member_of_none hname, hobject]
  | .call callee args => by
    have hcallee := Expr.names_eq_uses callee
    have hargs := Parts.names_eq_uses args
    rw [Expr.uses]
    cases hname : callee.asName? with
    | some id => rw [Expr.names_call_of_name hname, hargs, List.nil_append]
    | none => rw [Expr.names_call_of_none hname, hcallee, hargs, List.filter_append, List.map_append]
  | .minus _ operand => by
    rw [Expr.names, Expr.uses, Expr.names_eq_uses operand]
  | .negation _ operand => by
    rw [Expr.names, Expr.uses, Expr.names_eq_uses operand]
  | .junction left _ _ right => by
    rw [Expr.names, Expr.uses, Expr.names_eq_uses left, Expr.names_eq_uses right, List.filter_append,
      List.map_append]
  | .compare left _ _ right => by
    rw [Expr.names, Expr.uses, Expr.names_eq_uses left, Expr.names_eq_uses right, List.filter_append,
      List.map_append]
  | .chain left _ _ rest => by
    rw [Expr.names, Expr.uses, Expr.names_eq_uses left, Expr.names_eq_uses rest, List.filter_append,
      List.map_append]
  | .compound _ parts => by
    rw [Expr.names, Expr.uses, Parts.names_eq_uses parts]

theorem Parts.names_eq_uses : ∀ parts : Parts,
    parts.names paths = (parts.uses.filter (Use.counts paths)).map Use.root
  | .nil => rfl
  | .text _ rest => by
    rw [Parts.names, Parts.uses, Parts.names_eq_uses rest]
  | .child operand rest => by
    rw [Parts.names, Parts.uses, Expr.names_eq_uses operand, Parts.names_eq_uses rest, List.filter_append,
      List.map_append]

end

mutual

/-- The members that an expression takes of `self` are those of the uses that count. -/
theorem Expr.selfMembers_eq_uses : ∀ e : Expr,
    e.selfMembers paths = (e.uses.filter (Use.counts paths)).filterMap Use.selfMember?
  | .name id => by
    simp [Expr.selfMembers, Expr.uses, Use.counts, Use.selfMember?]
  | .number _ _ => rfl
  | .quoted _ => rfl
  | .unit _ => rfl
  | .paren _ body _ => by
    rw [Expr.selfMembers, Expr.uses, Expr.selfMembers_eq_uses body]
  | .member object dot field => by
    have hobject := Expr.selfMembers_eq_uses object
    rw [Expr.uses]
    cases hname : object.asName? with
    | some id =>
      rw [Expr.selfMembers_member_of_name hname]
      by_cases hself : id = selfName
      · subst hself
        by_cases hpath : selfName ∈ paths <;> simp [List.filter, Use.counts, Use.selfMember?, hpath]
      · by_cases hpath : id ∈ paths <;> simp [List.filter, Use.counts, Use.selfMember?, hpath, hself]
    | none => rw [Expr.selfMembers_member_of_none hname, hobject]
  | .call callee args => by
    have hcallee := Expr.selfMembers_eq_uses callee
    have hargs := Parts.selfMembers_eq_uses args
    rw [Expr.uses]
    cases hname : callee.asName? with
    | some id => rw [Expr.selfMembers_call_of_name hname, hargs, List.nil_append]
    | none =>
      rw [Expr.selfMembers_call_of_none hname, hcallee, hargs, List.filter_append, List.filterMap_append]
  | .minus _ operand => by
    rw [Expr.selfMembers, Expr.uses, Expr.selfMembers_eq_uses operand]
  | .negation _ operand => by
    rw [Expr.selfMembers, Expr.uses, Expr.selfMembers_eq_uses operand]
  | .junction left _ _ right => by
    rw [Expr.selfMembers, Expr.uses, Expr.selfMembers_eq_uses left, Expr.selfMembers_eq_uses right,
      List.filter_append, List.filterMap_append]
  | .compare left _ _ right => by
    rw [Expr.selfMembers, Expr.uses, Expr.selfMembers_eq_uses left, Expr.selfMembers_eq_uses right,
      List.filter_append, List.filterMap_append]
  | .chain left _ _ rest => by
    rw [Expr.selfMembers, Expr.uses, Expr.selfMembers_eq_uses left, Expr.selfMembers_eq_uses rest,
      List.filter_append, List.filterMap_append]
  | .compound _ parts => by
    rw [Expr.selfMembers, Expr.uses, Parts.selfMembers_eq_uses parts]

theorem Parts.selfMembers_eq_uses : ∀ parts : Parts,
    parts.selfMembers paths = (parts.uses.filter (Use.counts paths)).filterMap Use.selfMember?
  | .nil => rfl
  | .text _ rest => by
    rw [Parts.selfMembers, Parts.uses, Parts.selfMembers_eq_uses rest]
  | .child operand rest => by
    rw [Parts.selfMembers, Parts.uses, Expr.selfMembers_eq_uses operand, Parts.selfMembers_eq_uses rest,
      List.filter_append, List.filterMap_append]

end

namespace Expr

/-- A name is referred to if it stands by itself, or if members are taken of it and it heads no path. -/
theorem mem_names_iff {e : Expr} {x : String} :
    x ∈ e.names paths ↔ ⟨x, none⟩ ∈ e.uses ∨ x ∉ paths ∧ ∃ field, ⟨x, some field⟩ ∈ e.uses := by
  rw [names_eq_uses, List.mem_map]
  simp only [List.mem_filter, Use.counts, Bool.or_eq_true, Option.isNone_iff_eq_none, Bool.not_eq_true',
    List.contains_eq_mem, decide_eq_false_iff_not]
  constructor
  · rintro ⟨⟨root, member⟩, ⟨hu, hcounts⟩, rfl⟩
    cases member with
    | none => exact .inl hu
    | some field => exact .inr ⟨hcounts.resolve_left (by simp), field, hu⟩
  · rintro (hu | ⟨hpath, field, hu⟩)
    · exact ⟨_, ⟨hu, .inl rfl⟩, rfl⟩
    · exact ⟨_, ⟨hu, .inr hpath⟩, rfl⟩

theorem mem_selfMembers_iff {e : Expr} {field : String} :
    field ∈ e.selfMembers paths ↔ selfName ∉ paths ∧ ⟨selfName, some field⟩ ∈ e.uses := by
  rw [selfMembers_eq_uses, List.mem_filterMap]
  simp only [List.mem_filter, Use.counts, Use.selfMember?, Bool.or_eq_true, Option.isNone_iff_eq_none,
    Bool.not_eq_true', List.contains_eq_mem, decide_eq_false_iff_not, Option.ite_none_right_eq_some,
    beq_iff_eq]
  constructor
  · rintro ⟨⟨root, member⟩, ⟨hu, hcounts⟩, rfl, rfl⟩
    exact ⟨hcounts.resolve_left (by simp), hu⟩
  · rintro ⟨hpath, hu⟩
    exact ⟨_, ⟨hu, .inr hpath⟩, rfl, rfl⟩

end Expr

end References

namespace Expr

variable {e : Expr} {u : Use}

/-- The uses in a chain of comparisons are those in its first operand and in its links. -/
theorem mem_uses_iff_links (e : Expr) :
    u ∈ e.uses ↔ u ∈ e.leftmost.uses ∨ ∃ link ∈ Reading.links e, u ∈ link.uses := by
  induction e using Reading.links.induct with
  | case1 left op spelling right =>
    simp only [uses, leftmost, Reading.links, List.mem_singleton, exists_eq_left, List.mem_append]
    tauto
  | case2 left op spelling rest ih =>
    simp only [uses, leftmost, Reading.links, List.mem_cons, exists_eq_or_imp, List.mem_append, ih]
    tauto
  | case3 e hcompare hchain =>
    have hleftmost : e.leftmost = e := by
      cases e with
      | compare left op spelling right => exact (hcompare left op spelling right rfl).elim
      | chain left op spelling rest => exact (hchain left op spelling rest rfl).elim
      | _ => rfl
    simp [Reading.links, hleftmost]

/-- The uses in an expression are those in its leaves. -/
theorem mem_uses_iff_leaves : u ∈ e.uses ↔ ∃ leaf ∈ e.leaves, u ∈ leaf.uses := by
  induction e using leaves.induct with
  | case1 lead body trail ih => exact ih
  | case2 left op spelling right ihLeft ihRight =>
    rw [uses, leaves, List.mem_append, ihLeft, ihRight]
    simp only [List.mem_append, or_and_right, exists_or]
  | case3 gap operand ih => exact ih
  | case4 left op spelling rest =>
    rw [mem_uses_iff_links, leaves]
    refine or_iff_right_of_imp fun hu => ?_
    -- the first operand stands in the first link
    exact ⟨_, List.mem_cons_self, List.mem_append_left _ hu⟩
  | case5 e hparen hjunction hnegation hchain =>
    rw [leaves_of_isLeaf (Reading.isLeaf_of_not_connected hparen hjunction hnegation hchain)]
    simp

end Expr

namespace Reading

variable {paths : List String} {negate : Bool} {e leaf : Expr} {form : List Conjunction} {a : Atom}

/-- The names of the two truth values, which are no variables. -/
def truthNames : List String := ["True", "False"]

/-- The atom of a leaf, plain or negated, refers to what the leaf refers to. -/
theorem refers_literal (hleaf : leaf.isLeaf = true) (h : literal paths negate leaf = .ok a) :
    (∀ x ∉ truthNames, x ∈ a.identifiers ↔ x ∈ leaf.names paths) ∧
      ∀ field, field ∈ a.selfMembers ↔ field ∈ leaf.selfMembers paths := by
  have hunit : ∀ inner, leaf ≠ .unit inner := by
    rintro inner rfl
    exact (literal_isOk_iff hleaf).mp ⟨a, h⟩
  have hread : ∀ (node : Expr) (heads : List String), node.core = node → Atom.ofExpr node heads = .ok a →
      (∀ x, x ∈ a.identifiers ↔ x ∈ node.names heads) ∧
        ∀ field, field ∈ a.selfMembers ↔ field ∈ node.selfMembers heads := by
    intro node heads hcore hnode
    obtain ⟨hsource, hnames⟩ := Atom.ofExpr_spec hnode
    rw [hcore] at hsource hnames
    refine ⟨fun x => by rw [hnames, Text.mem_distinct], fun field => ?_⟩
    exact Atom.IsRead.mem_selfMembers_iff (.inl ⟨node, heads, hnode⟩) hsource
  cases negate with
  | false =>
    obtain ⟨hnames, hmembers⟩ := hread leaf paths (Expr.core_of_isLeaf hleaf) h
    exact ⟨fun x _ => hnames x, hmembers⟩
  | true =>
    have hnegated : negatedAtom leaf paths = .ok a := h
    have hconstant : ∀ id other, id ∈ truthNames → other ∈ truthNames →
        Atom.ofExpr (.name other) [] = .ok a →
        (∀ x ∉ truthNames, x ∈ a.identifiers ↔ x ∈ (Expr.name id).names paths) ∧
          ∀ field, field ∈ a.selfMembers ↔ field ∈ (Expr.name id).selfMembers paths := by
      intro id other hid hother hatom
      obtain ⟨hnames, hmembers⟩ := hread (.name other) [] rfl hatom
      refine ⟨fun x hx => ?_, hmembers⟩
      rw [hnames, Expr.names, Expr.names, List.mem_singleton, List.mem_singleton]
      exact iff_of_false (fun heq => hx (heq ▸ hother)) fun heq => hx (heq ▸ hid)
    rcases negatedAtom_cases paths hleaf hunit with ⟨rfl, heq⟩ | ⟨rfl, heq⟩ | heq
    · exact hconstant _ _ (by decide) (by decide) (heq ▸ hnegated)
    · exact hconstant _ _ (by decide) (by decide) (heq ▸ hnegated)
    · -- the opposite of a leaf has the operands of the leaf
      have hopposite : leaf.opposite.core = leaf.opposite ∧ leaf.opposite.names paths = leaf.names paths ∧
          leaf.opposite.selfMembers paths = leaf.selfMembers paths := by
        cases leaf <;> exact ⟨rfl, rfl, rfl⟩
      obtain ⟨hcore, hsameNames, hsameMembers⟩ := hopposite
      obtain ⟨hnames, hmembers⟩ := hread leaf.opposite paths hcore (heq ▸ hnegated)
      rw [hsameMembers] at hmembers
      rw [hsameNames] at hnames
      exact ⟨fun x _ => hnames x, hmembers⟩

/-- No key of either factor is lost in a product. -/
theorem exists_key_of_product {left right : List Conjunction} {key : String} (hl : left ≠ [])
    (hr : right ≠ []) (h : (∃ b ∈ left.flatten, b.key = key) ∨ ∃ b ∈ right.flatten, b.key = key) :
    ∃ b ∈ (product left right).flatten, b.key = key := by
  have hpair : ∀ x ∈ left, ∀ y ∈ right, ∀ b ∈ x ++ y,
      ∃ b' ∈ (product left right).flatten, b'.key = b.key := by
    intro x hx y hy b hb
    obtain ⟨b', hb', hkey⟩ := Conjunction.exists_mem_dedupe hb
    refine ⟨b', List.mem_flatten_of_mem ?_ hb', hkey⟩
    exact List.mem_flatMap.mpr ⟨x, hx, List.mem_map.mpr ⟨y, hy, rfl⟩⟩
  rcases h with ⟨b, hb, rfl⟩ | ⟨b, hb, rfl⟩
  · obtain ⟨x, hx, hb⟩ := List.mem_flatten.mp hb
    obtain ⟨y, hy⟩ := List.exists_mem_of_ne_nil right hr
    exact hpair x hx y hy b (List.mem_append_left _ hb)
  · obtain ⟨y, hy, hb⟩ := List.mem_flatten.mp hb
    obtain ⟨x, hx⟩ := List.exists_mem_of_ne_nil left hl
    exact hpair x hx y hy b (List.mem_append_right _ hb)

/-- Every leaf leaves its key in the normal form. -/
theorem exists_key_of_dnf (h : dnf paths negate e = .ok form) (hleaf : leaf ∈ e.leaves) :
    ∃ negate a, literal paths negate leaf = .ok a ∧ ∃ b ∈ form.flatten, b.key = a.key := by
  induction negate, e using conditionInduction generalizing form with
  | paren negate lead body trail ih => exact ih h hleaf
  | negation negate gap operand ih => exact ih h hleaf
  | junction negate left op spelling right ihLeft ihRight =>
    obtain ⟨leftForm, hleft, h⟩ := Outcome.bind_eq_ok_iff.mp h
    obtain ⟨rightForm, hright, h⟩ := Outcome.bind_eq_ok_iff.mp h
    have hboth : ∃ negate a, literal paths negate leaf = .ok a ∧
        ((∃ b ∈ leftForm.flatten, b.key = a.key) ∨ ∃ b ∈ rightForm.flatten, b.key = a.key) := by
      rcases List.mem_append.mp hleaf with hleaf | hleaf
      · obtain ⟨n, a, ha, hkey⟩ := ihLeft hleft hleaf
        exact ⟨n, a, ha, .inl hkey⟩
      · obtain ⟨n, a, ha, hkey⟩ := ihRight hright hleaf
        exact ⟨n, a, ha, .inr hkey⟩
    obtain ⟨n, a, ha, hkey⟩ := hboth
    refine ⟨n, a, ha, ?_⟩
    split at h
    · cases h
      exact exists_key_of_product (dnf_ne_nil hleft) (dnf_ne_nil hright) hkey
    · cases h
      rcases hkey with ⟨b, hb, hkey⟩ | ⟨b, hb, hkey⟩
      · exact ⟨b, by rw [List.flatten_append]; exact List.mem_append_left _ hb, hkey⟩
      · exact ⟨b, by rw [List.flatten_append]; exact List.mem_append_right _ hb, hkey⟩
  | chain negate left op spelling rest =>
    rw [dnf_chain] at h
    split at h
    · obtain ⟨atoms, hatoms, hlink⟩ := exists_right_of_forall₂ (Outcome.mapM_eq_ok_iff.mp h) hleaf
      obtain ⟨a, ha, heq⟩ := Outcome.bind_eq_ok_iff.mp hlink
      cases heq
      exact ⟨negate, a, ha, a, List.mem_flatten_of_mem hatoms List.mem_cons_self, rfl⟩
    · obtain ⟨atoms, hatoms, h⟩ := Outcome.bind_eq_ok_iff.mp h
      cases h
      obtain ⟨a, hmem, ha⟩ := exists_right_of_forall₂ (Outcome.mapM_eq_ok_iff.mp hatoms) hleaf
      exact ⟨negate, a, ha, a, by simpa using hmem, rfl⟩
  | leaf negate e hisLeaf =>
    rw [dnf_of_isLeaf hisLeaf] at h
    obtain ⟨a, ha, h⟩ := Outcome.bind_eq_ok_iff.mp h
    cases h
    rw [Expr.leaves_of_isLeaf hisLeaf, List.mem_singleton] at hleaf
    exact ⟨negate, a, hleaf ▸ ha, a, by simp, rfl⟩

/-- The atoms of all leaves of an expression, plain and negated. -/
def literals (paths : List String) (e : Expr) : List Atom :=
  e.leaves.flatMap fun leaf => [false, true].filterMap fun negate => (literal paths negate leaf).toOption

theorem mem_literals (hleaf : leaf ∈ e.leaves) (h : literal paths negate leaf = .ok a) :
    a ∈ literals paths e := by
  refine List.mem_flatMap.mpr ⟨leaf, hleaf, List.mem_filterMap.mpr ⟨negate, ?_, ?_⟩⟩
  · cases negate <;> simp
  · rw [h]
    rfl

/-- Literals of an expression with one key refer to the same names. Of two such literals in a conjunction one
is kept, and comments within parentheses can give one key to different references. -/
def KeysTellUses (paths : List String) (e : Expr) : Prop :=
  ∀ a ∈ literals paths e, ∀ b ∈ literals paths e, a.key = b.key →
    (∀ x ∈ a.identifiers, x ∈ b.identifiers) ∧ ∀ field ∈ a.selfMembers, field ∈ b.selfMembers

instance (paths : List String) (e : Expr) : Decidable (KeysTellUses paths e) :=
  inferInstanceAs (Decidable (∀ a ∈ literals paths e, ∀ b ∈ literals paths e, a.key = b.key →
    (∀ x ∈ a.identifiers, x ∈ b.identifiers) ∧ ∀ field ∈ a.selfMembers, field ∈ b.selfMembers))

/-- An atom of the normal form refers to what some leaf refers to. -/
theorem exists_leaf_of_dnf (h : dnf paths negate e = .ok form) (ha : a ∈ form.flatten) :
    ∃ leaf ∈ e.leaves, ∃ n, literal paths n leaf = .ok a := by
  obtain ⟨atoms, hatoms, ha⟩ := List.mem_flatten.mp ha
  have hall := forall_mem_dnf (P := fun b => ∃ leaf ∈ e.leaves, ∃ n, literal paths n leaf = .ok b) h
    fun leaf hleaf n b hb => ⟨leaf, hleaf, n, hb⟩
  exact hall atoms hatoms a ha

/-- Every leaf has an atom in the normal form that refers to all that the leaf refers to. -/
theorem exists_atom_of_leaf (hkeys : KeysTellUses paths e) (h : dnf paths negate e = .ok form)
    (hleaf : leaf ∈ e.leaves) : ∃ b ∈ form.flatten,
      (∀ x ∉ truthNames, x ∈ leaf.names paths → x ∈ b.identifiers) ∧
        ∀ field ∈ leaf.selfMembers paths, field ∈ b.selfMembers := by
  obtain ⟨n, a, ha, b, hb, hkey⟩ := exists_key_of_dnf h hleaf
  obtain ⟨other, hother, n', hb'⟩ := exists_leaf_of_dnf h hb
  obtain ⟨hnames, hmembers⟩ :=
    hkeys a (mem_literals hleaf ha) b (mem_literals hother hb') hkey.symm
  obtain ⟨hrefers, htakes⟩ := refers_literal (isLeaf_of_mem_leaves hleaf) ha
  exact ⟨b, hb, fun x hx hin => hnames x ((hrefers x hx).mpr hin),
    fun field hin => hmembers field ((htakes field).mpr hin)⟩

end Reading

/-- What the atoms of a line refer to. A name is referred to exactly if it stands by itself in the line, or if
members are taken of it and no path in the line starts with it; the members of `self` are recorded exactly if
no path in the line starts with `self`. -/
theorem identifiers_iff_uses {line : String} {e : Expr}
    (hread : Reading.expression? line.toList = .ok (some e))
    (hstatable : ∀ leaf ∈ e.leaves, leaf.Statable)
    (hkeys : Reading.KeysTellUses (Reading.pathHeads line.toList) e) :
    ∃ form, Reading.parseDnf line = .ok form ∧
      (∀ x ∉ Reading.truthNames, (∃ a ∈ form.flatten, x ∈ a.identifiers) ↔
        ⟨x, none⟩ ∈ e.uses ∨ x ∉ Reading.pathHeads line.toList ∧ ∃ field, ⟨x, some field⟩ ∈ e.uses) ∧
      ∀ field, (∃ a ∈ form.flatten, selfName ∈ a.identifiers ∧ field ∈ a.selfMembers) ↔
        selfName ∉ Reading.pathHeads line.toList ∧ ⟨selfName, some field⟩ ∈ e.uses := by
  obtain ⟨form, hform⟩ := Reading.dnf_isOk_iff.mpr hstatable
  refine ⟨form, (Reading.parseDnf_of_expression hread).trans hform, fun x hx => ?_, fun field => ?_⟩
  · simp only [Expr.mem_uses_iff_leaves (e := e)]
    constructor
    · rintro ⟨a, ha, hin⟩
      obtain ⟨leaf, hleaf, n, hatom⟩ := Reading.exists_leaf_of_dnf hform ha
      have hrefers := (Reading.refers_literal (Reading.isLeaf_of_mem_leaves hleaf) hatom).1 x hx
      rcases Expr.mem_names_iff.mp (hrefers.mp hin) with hu | ⟨hpath, field, hu⟩
      · exact .inl ⟨leaf, hleaf, hu⟩
      · exact .inr ⟨hpath, field, leaf, hleaf, hu⟩
    · intro huses
      obtain ⟨leaf, hleaf, hnames⟩ : ∃ leaf ∈ e.leaves, x ∈ leaf.names (Reading.pathHeads line.toList) := by
        rcases huses with ⟨leaf, hleaf, hu⟩ | ⟨hpath, field, leaf, hleaf, hu⟩
        · exact ⟨leaf, hleaf, Expr.mem_names_iff.mpr (.inl hu)⟩
        · exact ⟨leaf, hleaf, Expr.mem_names_iff.mpr (.inr ⟨hpath, field, hu⟩)⟩
      obtain ⟨b, hb, hrefers, -⟩ := Reading.exists_atom_of_leaf hkeys hform hleaf
      exact ⟨b, hb, hrefers x hx hnames⟩
  · constructor
    · rintro ⟨a, ha, -, hin⟩
      obtain ⟨leaf, hleaf, n, hatom⟩ := Reading.exists_leaf_of_dnf hform ha
      have htakes := (Reading.refers_literal (Reading.isLeaf_of_mem_leaves hleaf) hatom).2 field
      obtain ⟨hpath, hu⟩ := Expr.mem_selfMembers_iff.mp (htakes.mp hin)
      exact ⟨hpath, Expr.mem_uses_iff_leaves.mpr ⟨leaf, hleaf, hu⟩⟩
    · rintro ⟨hpath, hu⟩
      obtain ⟨leaf, hleaf, hu⟩ := Expr.mem_uses_iff_leaves.mp hu
      obtain ⟨b, hb, hrefers, htakes⟩ := Reading.exists_atom_of_leaf hkeys hform hleaf
      refine ⟨b, hb, hrefers selfName (by decide) ?_, htakes field ?_⟩
      · exact Expr.mem_names_iff.mpr (.inr ⟨hpath, field, hu⟩)
      · exact Expr.mem_selfMembers_iff.mpr ⟨hpath, hu⟩

/-- A line that takes a member of `self` and names a constant of the module of the same name: the atoms refer
to the count, and the member of `self` is hidden by the path. -/
theorem capacityLine_hides_self : ∃ form,
    Reading.parseDnf "self.len <= self::MAX and count > 0" = .ok form ∧
      (∃ a ∈ form.flatten, "count" ∈ a.identifiers) ∧ ¬ (∃ a ∈ form.flatten, selfName ∈ a.identifiers) ∧
      ¬ ∃ a ∈ form.flatten, selfName ∈ a.identifiers ∧ "len" ∈ a.selfMembers := by
  have hread : Reading.read? "self.len <= self::MAX and count > 0" =
      some (.junction
        (.compare (.member (.name "self") "." "len") (.order .le) " <= "
          (.member (.name "self") "." "MAX")) .and " and "
        (.compare (.name "count") (.order .gt) " > " (.number .integer "0"))) := by
    decide +kernel
  have hexpression := Reading.expression_of_read hread
  have hform : ((Reading.parseDnf "self.len <= self::MAX and count > 0").toOption.any fun _ => true) = true := by
    decide +kernel
  obtain ⟨form, hform, -⟩ := Outcome.any_toOption_eq_true_iff.mp hform
  rw [Reading.parseDnf_of_expression hexpression] at hform
  obtain ⟨form, hform, hnames, hmembers⟩ :=
    identifiers_iff_uses hexpression (Reading.dnf_isOk_iff.mp ⟨form, hform⟩) (by decide +kernel)
  have hpath : selfName ∈ Reading.pathHeads "self.len <= self::MAX and count > 0".toList := by decide +kernel
  refine ⟨form, hform, (hnames "count" (by decide)).mpr (.inl (by decide +kernel)), fun hself => ?_,
    fun hself => ((hmembers "len").mp hself).1 hpath⟩
  rcases (hnames selfName (by decide)).mp hself with hbare | ⟨hfree, -⟩
  · revert hbare
    decide +kernel
  · exact hfree hpath

end CrateSafety
