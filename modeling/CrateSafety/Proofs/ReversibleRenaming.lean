import CrateSafety.Proofs.ObtainableAtoms
import CrateSafety.Proofs.ProseRenaming
import CrateSafety.Proofs.VariableRenaming

/-!
# Renaming back

Names of an atom are replaced by new ones that do not occur in its text, and then replaced back. A line of
prose is always restored, and so is an expression, unless a member is taken of a renamed variable whose new
name heads a path elsewhere in the line: then the variable has become a path head and keeps the new name.
-/

namespace CrateSafety

/-- Whether a text is a name in ASCII letters, digits and underscores. -/
def Text.isPlainName : List Char → Bool
  | [] => false
  | c :: rest => isNameStart c && rest.all isNameRest

theorem Text.isIdentifier_of_isPlainName {cs : List Char} (h : isPlainName cs = true) :
    isIdentifier cs = true := by
  cases cs with
  | nil => cases h
  | cons c rest =>
    obtain ⟨hstart, hrest⟩ := Bool.and_eq_true_iff.mp h
    have hlow : ∀ d, isNameRest d = true → d.toNat < 128 := fun d hd => by
      have hrange := toNat_of_isNameRest hd
      omega
    refine Bool.and_eq_true_iff.mpr ⟨?_, List.all_eq_true.mpr fun d hd => ?_⟩
    · rw [isIdentifierStart, if_pos (hlow c (isNameRest_of_isNameStart hstart))]
      exact hstart
    · have hd := List.all_eq_true.mp hrest d hd
      rw [isIdentifierRest, if_pos (hlow d hd)]
      exact hd

theorem Prose.isMemberName_of_isPlainName {cs : List Char} (h : Text.isPlainName cs = true) :
    IsMemberName cs := by
  cases cs with
  | nil => cases h
  | cons c rest =>
    obtain ⟨hstart, hrest⟩ := Bool.and_eq_true_iff.mp h
    exact ⟨c, rest, rfl, hstart, fun d hd => Text.isWordChar_of_isNameRest (List.all_eq_true.mp hrest d hd)⟩

/-- Pairs of names that are an injective map with the given domain. -/
structure IsInjectiveMap (names : List (String × String)) (domain : List String) : Prop where
  /-- No name is mapped twice. -/
  keys : (names.map Prod.fst).Nodup
  /-- No two names are mapped to one. -/
  values : (names.map Prod.snd).Nodup
  /-- The names that are mapped. -/
  domain : ∀ name, name ∈ names.map Prod.fst ↔ name ∈ domain

namespace IsInjectiveMap

variable {names : List (String × String)} {domain : List String} {name : String}

theorem swapped_keys (h : IsInjectiveMap names domain) : ((names.map Prod.swap).map Prod.fst).Nodup := by
  rw [List.map_map]
  exact h.values

/-- A name of the domain has a new name, which leads back to it. -/
theorem exists_new (h : IsInjectiveMap names domain) (hname : name ∈ domain) :
    ∃ new, (name, new) ∈ names ∧ names.lookup name = some new ∧
      (names.map Prod.swap).lookup new = some name := by
  obtain ⟨pair, hpair, rfl⟩ := List.mem_map.mp ((h.domain name).mpr hname)
  refine ⟨pair.2, hpair, (lookup_eq_some_iff_mem h.keys).mpr hpair, ?_⟩
  exact (lookup_eq_some_iff_mem h.swapped_keys).mpr (List.mem_map.mpr ⟨pair, hpair, rfl⟩)

end IsInjectiveMap

namespace Atom

variable {a : Atom} {names : List (String × String)}

/-- A name that may be put for a name of an atom: in ASCII, no keyword, and nowhere in the text. -/
structure IsNewName (a : Atom) (new : String) : Prop where
  /-- It is a name in ASCII. -/
  plain : Text.isPlainName new.toList = true
  /-- It is no keyword. -/
  free : Grammar.keywords.contains new = false
  /-- It does not occur in the text. -/
  absent : ¬ new.toList <:+: a.text.toList

theorem IsNewName.readable {new : String} (h : a.IsNewName new) : (Expr.name new).Readable := by
  refine Expr.readable_name_iff.mpr ⟨Text.isIdentifier_of_isPlainName h.plain, ?_⟩
  rw [Grammar.readsAsName, h.free]
  rfl

/-- Words of prose have new names that lead back. -/
theorem returns_of_isNewName {line : List Char} (ha : a = ofProse line)
    (hnames : IsInjectiveMap names a.renameable) (hnew : ∀ pair ∈ names, a.IsNewName pair.2) :
    ∀ part ∈ Prose.segments a.text.toList,
      part.Returns (fun name => names.lookup name) fun name => (names.map Prod.swap).lookup name := by
  intro part hpart
  cases part with
  | between c => trivial
  | word root member =>
    have hread : a.IsRead := .inr ⟨line, ha⟩
    have hsource : a.source = .prose a.words := by rw [ha]; rfl
    obtain ⟨new, hpair, hthere, hback⟩ := hnames.exists_new (hread.words hsource root member hpart)
    have hfresh := hnew _ hpair
    refine ⟨new, hthere, hback, Prose.isMemberName_of_isPlainName hfresh.plain, ?_⟩
    rintro rfl
    apply hfresh.absent
    rw [String.toList_ofList]
    exact (Prose.cut_segmentsAfter le_rfl).root_isInfix hpart

/-- Prose is restored by renaming it back. -/
theorem rename_back_of_prose {line : List Char} (ha : a = ofProse line)
    (hnames : IsInjectiveMap names a.renameable) (hnew : ∀ pair ∈ names, a.IsNewName pair.2) :
    ∃ b, a.rename ⟨names, []⟩ = .ok b ∧ b.rename ⟨names.map Prod.swap, []⟩ = .ok a := by
  have hreturns := returns_of_isNewName ha hnames hnew
  have htidy : Prose.IsTidy a.text.toList := by
    rw [ha, ofProse, String.toList_ofList]
    exact Prose.isTidy_clean line
  refine ⟨_, rename_ofProse ha hnames.keys, ?_⟩
  rw [rename_ofProse rfl hnames.swapped_keys, ofProse_of_isTidy_text (Prose.isTidy_renamedBy htidy hreturns),
    Prose.renamedBy_renamedBy hreturns, ha, ofProse_text]

section Expression

variable {node : Expr} {paths : List String} {f : String → String} {pairs : List (String × String)}

theorem mem_renameable_of_expression (h : ofExpr node paths = .ok a) {id : String} :
    id ∈ a.renameable ↔ id ∈ node.names paths := by
  obtain ⟨hsource, hidentifiers⟩ := ofExpr_spec h
  rw [renameable, hsource]
  dsimp only
  rw [hidentifiers, Text.mem_distinct, Expr.names_core]

/-- The texts of new names are read as those names. -/
theorem renames_of_readable (h : ofExpr node paths = .ok a) (hn : (pairs.map Prod.fst).Nodup)
    (hf : ∀ id ∈ node.names paths, pairs.lookup id = some (f id) ∧ (Expr.name (f id)).Readable) :
    ∃ read, operands (a.bearing pairs) = .ok read ∧
      (Substitution.mk read [] paths).Renames paths f (node.names paths) := by
  have hoperand : ∀ id ∈ node.names paths, Reading.operand (f id) = .ok (.name (f id)) := fun id hid => by
    obtain ⟨hidentifier, hname⟩ := Expr.readable_name_iff.mp (hf id hid).2
    exact Reading.operand_of_identifier hidentifier hname
  obtain ⟨read, hread⟩ : ∃ read, operands (a.bearing pairs) = .ok read := by
    refine Outcome.exists_mapM_eq_ok fun pair hpair => ?_
    obtain ⟨name, text⟩ := pair
    obtain ⟨hmem, hname, -⟩ := mem_bearing.mp hpair
    have hid := (mem_renameable_of_expression h).mp hname
    have htext := (lookup_eq_some_iff_mem hn).mpr hmem
    rw [(hf name hid).1] at htext
    cases htext
    exact ⟨(name, .name (f name)), by dsimp only; rw [hoperand name hid]; rfl⟩
  refine ⟨read, hread, rfl, rfl, fun id hid => ?_⟩
  have hname : (Substitution.mk read [] paths).name? id = ((pairs.lookup id).filter fun text => id != text).bind
      fun text => (Reading.operand text).toOption := by
    rw [← lookup_bearing hn ((mem_renameable_of_expression h).mpr hid), ← operands_spec hread]
    rfl
  rw [hname, (hf id hid).1]
  by_cases hsame : f id = id
  · simp [hsame, Option.filter]
  · have hne : (id != f id) = true := by simpa using fun heq => hsame heq.symm
    simp [Option.filter, hne, hoperand id hid, Except.toOption]

/-- Renaming an atom whose expression is bare renames the variables of the expression. -/
theorem rename_of_expression (h : ofExpr node paths = .ok a) (hcore : node.core = node)
    (hreadable : node.Readable) (hbare : node.isBare paths = true) (hn : (pairs.map Prod.fst).Nodup)
    (hf : ∀ id ∈ node.names paths, pairs.lookup id = some (f id) ∧ (Expr.name (f id)).Readable) :
    ∃ b, a.rename ⟨pairs, []⟩ = .ok b ∧ ofExpr (node.renamed paths f) paths = .ok b := by
  have hsource : a.source = .expression node paths := by rw [(ofExpr_spec h).1, hcore]
  obtain ⟨b, hb⟩ : ∃ b, ofExpr (node.renamed paths f) paths = .ok b := by
    rw [ofExpr_isOk_iff_isAtomic, Expr.isAtomic_renamed, ← ofExpr_isOk_iff_isAtomic]
    exact ⟨a, h⟩
  obtain ⟨read, hread, hrenames⟩ := renames_of_readable h hn hf
  have hsubst := node.subst_eq_renamed hbare hrenames
  have hfault : (node.renamed paths f).fault? = none :=
    node.fault?_renamed hreadable.written fun id hid => (Expr.readable_name_iff.mp (hf id hid).2).1
  refine ⟨b, ?_, hb⟩
  -- an atom with no name to replace is left alone, and then the new names are the old ones
  by_cases hnone : (a.bearing pairs).isEmpty = true
  · have hself : node.renamed paths f = node := node.renamed_eq_self fun id hid => by
      by_contra hne
      have hmem : (id, f id) ∈ a.bearing pairs :=
        mem_bearing.mpr ⟨(lookup_eq_some_iff_mem hn).mp (hf id hid).1,
          (mem_renameable_of_expression h).mpr hid, fun heq => hne heq.symm⟩
      rw [List.isEmpty_iff.mp hnone] at hmem
      cases hmem
    rw [hself, h] at hb
    cases hb
    exact if_pos (by rw [Bool.and_eq_true]; exact ⟨hnone, rfl⟩)
  · refine (if_neg (by rw [Bool.and_eq_true]; exact fun hboth => hnone hboth.1)).trans ?_
    rw [hsource]
    change (operands (a.bearing pairs) >>= fun names => operands [] >>= fun fields =>
      (node.subst ⟨names, fields, paths⟩).checked >>= fun e => ofExpr e paths) = .ok b
    rw [hread]
    change ((node.subst ⟨read, [], paths⟩).checked >>= fun e => ofExpr e paths) = .ok b
    rw [hsubst, Expr.checked_eq_ok_iff.mpr ⟨hfault, rfl⟩]
    exact hb

theorem text_of_ofExpr (h : ofExpr node paths = .ok a) : a.text = node.core.render := by
  obtain ⟨stripped, hstripped, h⟩ := Outcome.bind_eq_ok_iff.mp h
  obtain ⟨bound, -, h⟩ := Outcome.bind_eq_ok_iff.mp h
  obtain ⟨negates, -, h⟩ := Outcome.bind_eq_ok_iff.mp h
  cases h
  rw [(Expr.strip_eq_ok_iff.mp hstripped).1]

end Expression

/-- The uses of variables in an atom; a line of prose has none. -/
def uses (a : Atom) : List Use :=
  match a.source with
  | .expression node _ => node.uses
  | .prose _ => []

/-- Whether no variable of the atom stands in parentheses of its own. -/
def isBare (a : Atom) : Bool :=
  match a.source with
  | .expression node paths => node.isBare paths
  | .prose _ => true

/-- Whether no variable that a member is taken of gets a name that heads a path. -/
def StaysClear (a : Atom) (names : List (String × String)) : Prop :=
  ∀ u ∈ a.uses, u.member ≠ none → u.root ∉ a.paths → ∀ pair ∈ names, pair.1 = u.root → pair.2 ∉ a.paths

/-- Whether two atoms agree in their texts and in what the logic sees of them. -/
structure SameAs (c a : Atom) : Prop where
  text : c.text = a.text
  key : c.key = a.key
  identifiers : c.identifiers = a.identifiers
  selfMembers : c.selfMembers = a.selfMembers
  bound : c.bound = a.bound
  negates : c.negates = a.negates

theorem SameAs.refl (a : Atom) : a.SameAs a := ⟨rfl, rfl, rfl, rfl, rfl, rfl⟩

/-- The new name of a variable. -/
def newName (names : List (String × String)) (id : String) : String := (names.lookup id).getD id

section Back

variable {node : Expr} {paths : List String}

theorem uses_of_ofExpr (h : ofExpr node paths = .ok a) : a.uses = node.core.uses := by
  rw [uses, (ofExpr_spec h).1]

theorem paths_of_ofExpr (h : ofExpr node paths = .ok a) : a.paths = paths := by
  rw [Atom.paths, (ofExpr_spec h).1]

/-- An expression atom is renamed there and back as its expression is. -/
theorem rename_back_of_expression (ha : a.Obtainable) (h : ofExpr node paths = .ok a) (hcore : node.core = node)
    (hbare : node.isBare paths = true) (hnames : IsInjectiveMap names a.renameable)
    (hnew : ∀ pair ∈ names, a.IsNewName pair.2) :
    ∃ b c, a.rename ⟨names, []⟩ = .ok b ∧ b.rename ⟨names.map Prod.swap, []⟩ = .ok c ∧
      ofExpr ((node.renamed paths (newName names)).renamed paths (newName (names.map Prod.swap))) paths =
        .ok c := by
  have hsource : a.source = .expression node paths := by rw [(ofExpr_spec h).1, hcore]
  have hreadable := ha.readable node paths hsource
  have hthere : ∀ id ∈ node.names paths, names.lookup id = some (newName names id) ∧
      (Expr.name (newName names id)).Readable := by
    intro id hid
    obtain ⟨new, hpair, hlookup, -⟩ := hnames.exists_new ((mem_renameable_of_expression h).mpr hid)
    rw [newName, hlookup]
    exact ⟨rfl, (hnew _ hpair).readable⟩
  obtain ⟨b, hb, hrenamed⟩ := rename_of_expression h hcore hreadable hbare hnames.keys hthere
  have hcore' : (node.renamed paths (newName names)).core = node.renamed paths (newName names) := by
    rw [Expr.core_renamed, hcore]
  have hsource' : b.source = .expression (node.renamed paths (newName names)) paths := by
    rw [(ofExpr_spec hrenamed).1, hcore']
  have hback : ∀ id ∈ (node.renamed paths (newName names)).names paths,
      (names.map Prod.swap).lookup id = some (newName (names.map Prod.swap) id) ∧
        (Expr.name (newName (names.map Prod.swap) id)).Readable := by
    intro id hid
    obtain ⟨old, hold, rfl⟩ := Expr.exists_of_mem_names_renamed hid
    obtain ⟨new, -, hlookup, hswapped⟩ := hnames.exists_new ((mem_renameable_of_expression h).mpr hold)
    rw [newName, hlookup, Option.getD_some, newName, hswapped]
    exact ⟨rfl, hreadable.name_of_mem_names hold⟩
  obtain ⟨c, hc, hrestored⟩ := rename_of_expression hrenamed hcore'
    ((Obtainable.renamed ha hb).readable _ _ hsource') (Expr.isBare_renamed node hbare) hnames.swapped_keys hback
  exact ⟨b, c, hb, hc, hrestored⟩

/-- An expression is restored if the new names of its variables stay clear of paths. -/
theorem restored_of_staysClear (h : ofExpr node paths = .ok a) (hcore : node.core = node)
    (hnames : IsInjectiveMap names a.renameable) (hclear : a.StaysClear names) :
    (node.renamed paths (newName names)).renamed paths (newName (names.map Prod.swap)) = node := by
  refine Expr.renamed_renamed node fun u hu hcounts => ?_
  have hroot := (mem_renameable_of_expression h).mpr (Expr.mem_names_of_counts hu hcounts)
  obtain ⟨new, hpair, hlookup, hswapped⟩ := hnames.exists_new hroot
  rw [newName, hlookup, Option.getD_some, newName, hswapped]
  refine ⟨?_, rfl⟩
  by_cases hmember : u.member = none
  · exact .inl hmember
  · have hfree : u.root ∉ paths := by simpa [Use.counts, hmember] using hcounts
    rw [← hcore, ← uses_of_ofExpr h] at hu
    rw [← paths_of_ofExpr h] at hfree ⊢
    exact .inr (hclear u hu hmember hfree _ hpair rfl)

/-- A variable with a member whose new name heads a path keeps the new name when it is renamed back. -/
theorem isInfix_of_head {f g : String → String} {u : Use} (hu : u ∈ node.uses) (hmember : u.member ≠ none)
    (hroot : u.root ∉ paths) (hhead : f u.root ∈ paths) :
    (f u.root).toList <:+: ((node.renamed paths f).renamed paths g).render.toList := by
  have hcounts : u.counts paths = true := by simp [Use.counts, hroot]
  have hkept : Use.counts paths { u with root := f u.root } = false := by
    simp [Use.counts, Option.isNone_eq_false_iff, Option.isSome_iff_ne_none, hmember, hhead]
  have hmem : { u with root := f u.root } ∈ ((node.renamed paths f).renamed paths g).uses := by
    rw [Expr.uses_renamed, Expr.uses_renamed]
    refine List.mem_map.mpr ⟨{ u with root := f u.root }, List.mem_map.mpr ⟨u, hu, ?_⟩, ?_⟩
    · rw [Use.renamed, if_pos hcounts]
    · rw [Use.renamed, hkept, if_neg Bool.false_ne_true]
  exact Expr.root_isInfix_render _ hmem

/-- If an expression is restored, the new names of its variables stay clear of paths. -/
theorem staysClear_of_text {c : Atom} (h : ofExpr node paths = .ok a) (hcore : node.core = node)
    (hnames : IsInjectiveMap names a.renameable) (hnew : ∀ pair ∈ names, a.IsNewName pair.2)
    (hc : ofExpr ((node.renamed paths (newName names)).renamed paths (newName (names.map Prod.swap))) paths =
      .ok c) (htext : c.text = a.text) : a.StaysClear names := by
  intro u hu hmember hroot pair hpair hkey hhead
  rw [uses_of_ofExpr h, hcore] at hu
  rw [paths_of_ofExpr h] at hroot hhead
  have hname : newName names u.root = pair.2 := by
    rw [newName, ← hkey, (lookup_eq_some_iff_mem hnames.keys).mpr hpair, Option.getD_some]
  refine (hnew pair hpair).absent ?_
  rw [← htext, text_of_ofExpr hc, Expr.core_renamed, Expr.core_renamed, hcore, ← hname]
  rw [← hname] at hhead
  exact isInfix_of_head hu hmember hroot hhead

end Back

end Atom

/-- Renaming names of an atom to new ones and back can always be done. It gives an atom with the same text, key,
references, bound and negated key exactly if no variable that a member is taken of gets the name of a path head
of the line. -/
theorem renaming_back_restores_iff {a : Atom} {names : List (String × String)} (ha : a.Obtainable)
    (hbare : a.isBare = true) (hnames : IsInjectiveMap names a.renameable)
    (hnew : ∀ pair ∈ names, a.IsNewName pair.2) :
    ∃ b c, a.rename ⟨names, []⟩ = .ok b ∧ b.rename ⟨names.map Prod.swap, []⟩ = .ok c ∧
      (c.SameAs a ↔ a.StaysClear names) := by
  rcases ha.isRead with ⟨e, paths, he⟩ | ⟨line, hline⟩
  · have h : Atom.ofExpr e.core paths = .ok a := by rw [Atom.ofExpr_core, he]
    have hcore := Expr.core_core e
    rw [Atom.isBare, (Atom.ofExpr_spec he).1] at hbare
    obtain ⟨b, c, hb, hc, hback⟩ := Atom.rename_back_of_expression ha h hcore hbare hnames hnew
    refine ⟨b, c, hb, hc, fun hsame => Atom.staysClear_of_text h hcore hnames hnew hback hsame.text,
      fun hclear => ?_⟩
    rw [Atom.restored_of_staysClear h hcore hnames hclear, h] at hback
    cases hback
    exact .refl a
  · obtain ⟨b, hb, hc⟩ := Atom.rename_back_of_prose hline hnames hnew
    have huses : a.uses = [] := by rw [hline]; rfl
    refine ⟨b, a, hb, hc, iff_of_true (.refl a) fun u hu => ?_⟩
    rw [huses] at hu
    cases hu

/-- A buffer that is renamed to the module of a path in its line keeps that name, while any other new name is
taken back. -/
theorem bufferName_taken_back : ∃ form, ∃ a ∈ form.flatten,
    Reading.parseDnf "heap::live(p) and buf.len > 0" = .ok form ∧ a.text = "buf.len > 0" ∧
      (∃ b c, a.rename ⟨[("buf", "ring")], []⟩ = .ok b ∧ b.rename ⟨[("ring", "buf")], []⟩ = .ok c ∧
        c.SameAs a) ∧
      ∃ b c, a.rename ⟨[("buf", "heap")], []⟩ = .ok b ∧ b.rename ⟨[("heap", "buf")], []⟩ = .ok c ∧
        ¬ c.SameAs a := by
  have hcheck : ((Reading.parseDnf "heap::live(p) and buf.len > 0").toOption.any fun form =>
      form.flatten.any fun a => a.text == "buf.len > 0" && a.renameable == ["buf"] && a.paths == ["heap"] &&
        a.isBare && a.uses == [⟨"buf", some "len"⟩]) = true := by
    decide +kernel
  obtain ⟨form, hform, hcheck⟩ := Outcome.any_toOption_eq_true_iff.mp hcheck
  obtain ⟨a, ha, hcheck⟩ := List.any_eq_true.mp hcheck
  simp only [Bool.and_eq_true, beq_iff_eq] at hcheck
  obtain ⟨⟨⟨⟨htext, hnames⟩, hpaths⟩, hbare⟩, huses⟩ := hcheck
  have hmap : ∀ new, IsInjectiveMap [("buf", new)] a.renameable := fun new => by
    rw [hnames]
    exact ⟨by simp, by simp, by simp⟩
  have hnew : ∀ new ∈ ["ring", "heap"], ∀ pair ∈ [("buf", new)], a.IsNewName pair.2 := by
    intro new hmem pair hpair
    rw [List.mem_singleton.mp hpair]
    have hall : ∀ new ∈ ["ring", "heap"], Text.isPlainName new.toList = true ∧
        Grammar.keywords.contains new = false ∧ ¬ new.toList <:+: "buf.len > 0".toList := by decide +kernel
    obtain ⟨hplain, hfree, habsent⟩ := hall new hmem
    exact ⟨hplain, hfree, by rw [htext]; exact habsent⟩
  have hobtainable : a.Obtainable := .read hform ha
  refine ⟨form, a, ha, hform, htext, ?_, ?_⟩
  · obtain ⟨b, c, hb, hc, hsame⟩ :=
      renaming_back_restores_iff hobtainable hbare (hmap "ring") (hnew "ring" (by simp))
    refine ⟨b, c, hb, hc, hsame.mpr ?_⟩
    unfold Atom.StaysClear
    rw [huses, hpaths]
    decide
  · obtain ⟨b, c, hb, hc, hsame⟩ :=
      renaming_back_restores_iff hobtainable hbare (hmap "heap") (hnew "heap" (by simp))
    refine ⟨b, c, hb, hc, fun hrestored => ?_⟩
    have hclear := hsame.mp hrestored
    unfold Atom.StaysClear at hclear
    rw [huses, hpaths] at hclear
    revert hclear
    decide

end CrateSafety
