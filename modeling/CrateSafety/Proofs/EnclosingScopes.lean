import CrateSafety.Proofs.Assembly
import CrateSafety.Proofs.ScopeResolution

/-!
# Scopes as intersections

The scope of an entity is kept as one root, the narrowest among those of its own marker, of the modules around
it and of its owner. All of these lie on one chain of ancestors as long as the separators of module paths do
not run into each other, so the narrowest root admits exactly the observers that every one of them admits.
-/

namespace CrateSafety

namespace Path

/-- A name of a module: not empty, and without a colon. -/
def IsName (name : String) : Prop := name ≠ "" ∧ ':' ∉ name.toList

instance (name : String) : Decidable (IsName name) :=
  inferInstanceAs (Decidable (name ≠ "" ∧ ':' ∉ name.toList))

/-- The text of a path with the separator before its children. -/
def closed (path : String) : List Char := path.toList ++ [':', ':']

/-- No separator of a path runs into another one. -/
def Clear (path : String) : Prop := ¬ [':', ':', ':'] <:+: closed path

section Within

variable {path a b c : String}

theorem within_iff : within path a = true ↔ path = a ∨ closed a <+: path.toList := by
  rw [within, Bool.or_eq_true, beq_iff_eq, List.isPrefixOf_iff_prefix]
  rfl

theorem within_refl (path : String) : within path path = true :=
  within_iff.mpr (.inl rfl)

theorem toList_prefix_closed (path : String) : path.toList <+: closed path :=
  List.prefix_append _ _

theorem closed_prefix_of_within (h : within path a = true) : closed a <+: closed path := by
  rcases within_iff.mp h with rfl | h
  · exact List.prefix_rfl
  · exact h.trans (toList_prefix_closed path)

theorem within_trans (hab : within a b = true) (hbc : within b c = true) : within a c = true := by
  rcases within_iff.mp hab with rfl | hab
  · exact hbc
  · exact within_iff.mpr (.inr ((closed_prefix_of_within hbc).trans hab))

/-- Among the ancestors of a clear path, a shorter one lies above a longer one. -/
theorem within_of_shorter (hp : Clear path) (hb : within path b = true)
    (h : closed a <+: closed b) : within b a = true := by
  have hlength : a.toList.length + 2 ≤ b.toList.length + 2 := by
    simpa [closed] using h.length_le
  by_cases hshort : a.toList.length + 2 ≤ b.toList.length
  · refine within_iff.mpr (.inr (List.prefix_of_prefix_length_le h (toList_prefix_closed b) ?_))
    simpa [closed] using hshort
  · obtain ⟨rest, hrest⟩ := h
    have hrestLength : rest.length + a.toList.length = b.toList.length := by
      have heq := congrArg List.length hrest
      simp only [closed, List.length_append, List.length_cons, List.length_nil] at heq
      omega
    rcases rest with _ | ⟨colon, rest⟩
    · -- equally long: the two are one path
      have hsame : a.toList = b.toList := by
        rw [List.append_nil] at hrest
        exact List.append_cancel_right hrest
      exact within_iff.mpr (.inl (String.toList_inj.mp hsame.symm))
    · -- longer by one character: that character is a third colon
      exfalso
      have hnil : rest = [] := by
        rw [List.length_cons] at hrestLength
        exact List.eq_nil_of_length_eq_zero (by omega)
      subst hnil
      have hlast : colon = ':' := by
        have heq := congrArg List.getLast? hrest
        simpa [closed] using heq
      subst hlast
      refine hp (List.IsInfix.trans ⟨a.toList, [], ?_⟩ (closed_prefix_of_within hb).isInfix)
      simpa [closed] using hrest

/-- Of two ancestors of a clear path, one lies within the other. -/
theorem within_or_within (hp : Clear path) (ha : within path a = true) (hb : within path b = true) :
    within a b = true ∨ within b a = true := by
  have hca := closed_prefix_of_within ha
  have hcb := closed_prefix_of_within hb
  rcases List.prefix_or_prefix_of_prefix hca hcb with hab | hba
  · exact .inr (within_of_shorter hp hb hab)
  · exact .inl (within_of_shorter hp ha hba)

end Within

section Parents

variable {path : String}

/-- A path beneath the root is its parent with its last segment. -/
theorem child_of_within (h : within path crateRoot = true) (hne : path ≠ crateRoot) :
    path.toList = closed (parentOrRoot path) ++ (lastSegment path).toList := by
  have hprefix := (within_iff.mp h).resolve_left hne
  obtain ⟨rest, hrest⟩ := hprefix
  have hcut : cutLast path.toList ≠ none := by
    rw [← hrest, closed, List.append_assoc]
    exact cutLast_append_ne_none _ rest
  obtain ⟨⟨before, after⟩, hparts⟩ := Option.ne_none_iff_exists'.mp hcut
  have hsplit := eq_of_cutLast hparts
  have hbefore : String.ofList before ≠ "" := by
    intro hempty
    have hnil : before = [] := by
      have heq := congrArg String.toList hempty
      simpa using heq
    rw [hnil, ← hrest] at hsplit
    cases hsplit
  have hparent : parentOrRoot path = String.ofList before := by
    simp [parentOrRoot, parent?, hparts, hbefore]
  have hlast : lastSegment path = String.ofList after := by
    simp [lastSegment, hparts]
  rw [hparent, hlast, closed, hsplit]
  simp

theorem within_parentOrRoot (h : within path crateRoot = true) :
    within path (parentOrRoot path) = true := by
  by_cases hne : path = crateRoot
  · subst hne
    decide +kernel
  · exact within_iff.mpr (.inr ⟨_, (child_of_within h hne).symm⟩)

/-- A pattern of colons that lies in a text around a character other than a colon lies on one side of it. -/
theorem infix_of_infix_around {pattern before after : List Char} {c : Char} (hc : c ∉ pattern)
    (h : pattern <:+: before ++ c :: after) : pattern <:+: before ∨ pattern <:+: after := by
  obtain ⟨left, right, heq⟩ := h
  rw [List.append_assoc] at heq
  rcases List.append_eq_append_iff.mp heq with ⟨t, hbefore, hrest⟩ | ⟨t, hleft, hrest⟩
  · rcases List.append_eq_append_iff.mp hrest with ⟨u, ht, -⟩ | ⟨u, hpattern, hu⟩
    · left
      exact ⟨left, u, by rw [hbefore, ht, List.append_assoc]⟩
    · -- the pattern would reach over the character
      rcases u with _ | ⟨d, u⟩
      · left
        exact ⟨left, [], by rw [hbefore, hpattern]; simp⟩
      · have hd : d = c := (List.cons.inj hu).1.symm
        refine absurd ?_ hc
        rw [hpattern, hd]
        simp
  · rcases t with _ | ⟨d, t⟩
    · rcases pattern with _ | ⟨d, pattern⟩
      · exact .inl (List.nil_infix)
      · have hd : d = c := (List.cons.inj hrest).1.symm
        exact absurd (by simp [hd]) hc
    · right
      have hafter : after = t ++ (pattern ++ right) := (List.cons.inj hrest).2
      exact ⟨t, right, by rw [hafter, List.append_assoc]⟩

/-- A name after a clear path makes a clear path. -/
theorem clear_of_name {parent name : String} (hparent : Clear parent) (hname : IsName name)
    (hpath : path.toList = closed parent ++ name.toList) : Clear path := by
  obtain ⟨hne, hcolon⟩ := hname
  intro hinfix
  rw [closed, hpath, List.append_assoc] at hinfix
  -- the first letter of the name parts what comes before it from what comes after it
  obtain ⟨letter, letters, hletters⟩ : ∃ letter letters, name.toList = letter :: letters := by
    refine List.exists_cons_of_ne_nil fun hnil => hne ?_
    exact String.toList_inj.mp hnil
  have hall : ∀ d ∈ letter :: letters, d ≠ ':' := by
    rintro d hd rfl
    exact hcolon (hletters ▸ hd)
  rw [hletters, List.cons_append] at hinfix
  have hout : ∀ d, d ≠ ':' → d ∉ [':', ':', ':'] := by
    intro d hd
    simpa using hd
  rcases infix_of_infix_around (hout _ (hall letter List.mem_cons_self)) hinfix with hleft | hright
  · exact hparent hleft
  · obtain ⟨left, right, heq⟩ := hright
    have hcount := congrArg (List.count ':') heq
    have hnone : letters.count ':' = 0 := by
      refine List.count_eq_zero.mpr fun hmem => ?_
      exact hall ':' (List.mem_cons_of_mem _ hmem) rfl
    simp [List.count_append, hnone] at hcount
    omega

end Parents

end Path

section Roots

variable {module : String}

/-- No path in the crate lies beneath the empty path. -/
theorem not_within_empty (h : Path.within module Path.crateRoot = true) :
    Path.within module "" ≠ true := by
  intro hempty
  have hcrate := Path.closed_prefix_of_within h
  have hcolons := Path.closed_prefix_of_within hempty
  have hshort : Path.closed "" <+: Path.closed Path.crateRoot :=
    List.prefix_of_prefix_length_le hcolons hcrate (by decide +kernel)
  exact absurd hshort (by decide +kernel)

namespace Visibility

variable {v : Visibility}

/-- A marker that names an ancestor of its module allows the module itself. -/
theorem admits_scopeRoot (hm : Path.within module Path.crateRoot = true)
    (ht : v.targetsAncestor module = true) : (v.scopeRoot module).admits (.inModule module) = true := by
  obtain ⟨reach, path⟩ := v
  cases reach with
  | ownModule => exact Path.within_refl module
  | parentModule => exact Path.within_parentOrRoot hm
  | wholeCrate => exact hm
  | everywhere => rfl
  | ancestor =>
    cases path with
    | none => rfl
    | some root => simpa [targetsAncestor, pathText, scopeRoot, Scope.admits] using ht

/-- Code outside the crate is allowed by one marker only. -/
theorem admits_scopeRoot_outside_iff (hm : Path.within module Path.crateRoot = true)
    (ht : v.targetsAncestor module = true) :
    (v.scopeRoot module).admits .outside = true ↔ v.reach = .everywhere := by
  obtain ⟨reach, path⟩ := v
  cases reach with
  | ancestor =>
    cases path with
    | none => exact absurd (by simpa [targetsAncestor, pathText] using ht) (not_within_empty hm)
    | some root => simp [scopeRoot, Scope.admits]
  | _ => simp [scopeRoot, Scope.admits]

end Visibility

namespace Scope

/-- A scope that admits a module admits those beneath it. -/
theorem admits_of_within {scope : Scope} {path inner : String}
    (h : scope.admits (.inModule path) = true) (hw : Path.within inner path = true) :
    scope.admits (.inModule inner) = true := by
  rcases scope with _ | root
  · rfl
  · exact Path.within_trans hw h

/-- Of two scopes around one clear path, the narrowest admits exactly what both admit. -/
theorem admits_narrowest {path : String} {a b : Scope} (hp : Path.Clear path)
    (ha : a.admits (.inModule path) = true) (hb : b.admits (.inModule path) = true) (o : Observer) :
    (Scope.narrowest a b).admits o = true ↔ a.admits o = true ∧ b.admits o = true := by
  rcases a with _ | a
  · simp [narrowest, admits]
  rcases b with _ | b
  · simp [narrowest, admits]
  cases o with
  | outside =>
    simp only [narrowest]
    split <;> simp [admits]
  | inModule observer =>
    by_cases hab : Path.within a b = true
    · simp only [narrowest, if_pos hab, admits]
      exact ⟨fun h => ⟨h, Path.within_trans h hab⟩, And.left⟩
    · have hba := (Path.within_or_within hp ha hb).resolve_left hab
      simp only [narrowest, if_neg hab, admits]
      exact ⟨fun h => ⟨Path.within_trans h hba, h⟩, And.right⟩

end Scope

end Roots

/-- The scope that the marker of a module allows, seen from its parent. -/
def Module.scope (x : Module) : Scope := x.visibility.scopeRoot (Path.parentOrRoot x.path)

namespace Entity

/-- The marker that bounds the scope of an entity. Trait methods, their implementations and implementation
blocks have the scope of another entity. -/
def marker? : Entity → Option Visibility
  | item i => if i.kind == .traitMethod || i.implements?.isSome then none else some i.visibility
  | struct s => some s.visibility
  | trait t => some t.visibility
  | enum d => some d.visibility
  | impl _ => none

/-- The owner that an entity is an item of. -/
def owner? : Entity → Option String
  | item i => i.owner?
  | _ => none

end Entity

namespace Model

/-- A module stands on the chain from a path of a module up to the root. -/
inductive Encloses (m : Model) (x : Module) : String → Prop where
  /-- The module of the path itself. -/
  | own {path : String} (found : m.module? path = some x) : m.Encloses x path
  /-- A module around its parent. -/
  | outer {path : String} (beneath : path ≠ Path.crateRoot)
      (around : m.Encloses x (Path.parentOrRoot path)) : m.Encloses x path

/-- What the build checks about markers, with the separators of module paths apart. -/
structure Anchored (m : Model) : Prop where
  /-- The root is open to all. -/
  root : m.module? Path.crateRoot = some rootModule
  /-- The separators of module paths do not run together. -/
  clear : ∀ x ∈ m.modules, Path.Clear x.path
  /-- Markers of modules name ancestors of the parent. -/
  module : ∀ x ∈ m.modules, x.path ≠ Path.crateRoot →
    x.visibility.targetsAncestor (Path.parentOrRoot x.path) = true
  /-- Markers of entities name ancestors of their module. -/
  entity : ∀ e ∈ m.entities, ∀ v, e.marker? = some v → v.targetsAncestor e.module = true

section Anchors

variable {config : Config} {s : Snapshot} {m : Model}

theorem Nested.within_root {modules : List Module} (h : Nested modules) {x : Module}
    (hx : x ∈ modules) : Path.within x.path Path.crateRoot = true := by
  by_cases hroot : x.path = Path.crateRoot
  · rw [hroot]
    exact Path.within_refl _
  · exact (h.parent x hx hroot).1

/-- In a tree of modules with proper names, separators are apart: each path is that of its parent with a
name after it. -/
theorem Nested.clear {modules : List Module} (h : Nested modules)
    (hnames : ∀ x ∈ modules, x.path ≠ Path.crateRoot → Path.IsName (Path.lastSegment x.path)) (x : Module)
    (hx : x ∈ modules) : Path.Clear x.path := by
  induction hlength : x.path.length using Nat.strong_induction_on generalizing x with
  | _ length ih =>
    by_cases hroot : x.path = Path.crateRoot
    · rw [hroot]
      unfold Path.Clear
      decide +kernel
    · obtain ⟨hwithin, parent, hparent, hpath⟩ := h.parent x hx hroot
      have hshort := Path.length_of_parentOrRoot hwithin hroot
      have hclear := ih parent.path.length (by rw [hpath]; omega) parent hparent rfl
      rw [hpath] at hclear
      exact Path.clear_of_name hclear (hnames x hx hroot) (Path.child_of_within hwithin hroot)

theorem target_of_buildEntities {modules : List Module} {declarations : List Declaration}
    {d : Declaration} {es : List Entity}
    (h : (buildEntities config modules declarations d).outcome = .ok es) {e : Entity} (he : e ∈ es)
    {v : Visibility} (hv : e.marker? = some v) : v.targetsAncestor e.module = true := by
  have hcases := (buildEntities_cases h).2
  cases d with
  | struct d =>
    obtain ⟨s, hs, rfl⟩ := hcases
    rw [List.mem_singleton.mp he] at hv ⊢
    simp only [buildStruct, Traced.outcome_bind, Outcome.bind_eq_ok_iff, Traced.outcome_pure,
      Visibility.require, Build.outcome_require_eq_ok_iff, Except.ok.injEq] at hs
    obtain ⟨-, htarget, -, -, stated, -, invariant, -, rfl⟩ := hs
    cases hv
    exact htarget
  | enum d =>
    rw [hcases] at he
    rw [List.mem_singleton.mp he] at hv ⊢
    simp only [buildEntities, Traced.outcome_bind, Outcome.bind_eq_ok_iff, Visibility.require,
      Build.outcome_require_eq_ok_iff] at h
    obtain ⟨-, -, -, htarget, -⟩ := h
    cases hv
    exact htarget
  | trait d =>
    obtain ⟨t, methods, ht, rfl⟩ := hcases
    rcases List.mem_cons.mp he with rfl | he
    · simp only [buildTrait, Traced.outcome_bind, Outcome.bind_eq_ok_iff, Traced.outcome_pure,
        Visibility.require, Build.outcome_require_eq_ok_iff, Except.ok.injEq, Prod.mk.injEq] at ht
      obtain ⟨-, htarget, invariant, -, built, -, rfl, -⟩ := ht
      cases hv
      exact htarget
    · -- methods of a trait have no marker of their own
      obtain ⟨i, hi, rfl⟩ := List.mem_map.mp he
      obtain ⟨-, -, -, -, hkind, -⟩ := exists_left_of_forall₂ (buildTrait_spec ht).2.2 hi
      simp [Entity.marker?, hkind] at hv
  | impl d =>
    obtain ⟨i, rfl, -⟩ := hcases
    rw [List.mem_singleton.mp he] at hv
    cases hv
  | function d =>
    obtain ⟨i, hi, rfl⟩ := hcases
    rw [List.mem_singleton.mp he] at hv ⊢
    simp only [buildFunction, Traced.outcome_bind, Outcome.bind_eq_ok_iff, Traced.outcome_pure,
      Visibility.require, Build.outcome_require_eq_ok_iff, Except.ok.injEq] at hi
    obtain ⟨-, -, -, -, -, htarget, requirements, -, sites, -, rfl⟩ := hi
    simp only [Entity.marker?] at hv
    split at hv
    · cases hv
    · cases hv
      exact htarget

/-- The modules of a model that is built are the root and the declared ones. -/
theorem modules_of_build (h : (build config s).outcome = .ok m) :
    Registrable [rootModule] (beneathRoot s.modules) ∧ m.modules.Perm (rootModule :: beneathRoot s.modules) := by
  obtain ⟨modules, hb, rfl⟩ := buildable_of_build h
  have houtcome : (registerModules s.modules).outcome = .ok modules := by
    rw [hb.registered]
    rfl
  have hregistrable := registrable_of_registerModules houtcome
  obtain ⟨found, hfound, hperm⟩ := registerModules_of_registrable hregistrable
  rw [hfound] at houtcome
  rw [← Except.ok.inj houtcome]
  exact ⟨hregistrable, hperm⟩

/-- The markers of a model that is built are anchored, if its modules have proper names. -/
theorem anchored_of_build (h : (build config s).outcome = .ok m)
    (hnames : ∀ x ∈ s.modules, Path.IsName (Path.lastSegment x.path)) : m.Anchored := by
  have hc := consistent_of_build h
  obtain ⟨hregistrable, hperm⟩ := modules_of_build h
  obtain ⟨modules, hb, rfl⟩ := buildable_of_build h
  have hdeclared : ∀ x ∈ modules, x.path ≠ Path.crateRoot → x ∈ beneathRoot s.modules := by
    intro x hx hne
    rcases List.mem_cons.mp (hperm.mem_iff.mp hx) with rfl | hx
    · exact absurd rfl hne
    · exact hx
  constructor
  case root =>
    have hdistinct : (modules.map Module.path).Nodup :=
      (hperm.map Module.path).nodup_iff.mpr hregistrable.distinct
    exact (find?_key_eq_some_iff hdistinct).mpr ⟨hperm.mem_iff.mpr List.mem_cons_self, rfl⟩
  case clear =>
    refine hc.nested.clear fun x hx hne => ?_
    exact hnames x (List.mem_of_mem_filter (hdeclared x hx hne))
  case module => exact fun x hx hne => hregistrable.target x (hdeclared x hx hne)
  case entity =>
    intro e he v hv
    obtain ⟨d, hd, hmem⟩ := List.mem_flatMap.mp he
    exact target_of_buildEntities (hb.entities d hd) hmem hv

end Anchors

section Modules

variable {m : Model}

theorem module?_spec {path : String} {x : Module} (h : m.module? path = some x) :
    x ∈ m.modules ∧ x.path = path :=
  ⟨List.mem_of_find?_eq_some h, by simpa using List.find?_some h⟩

/-- A module around another one is the module of its own path. -/
theorem Encloses.found {path : String} {x : Module} (h : m.Encloses x path) : m.module? x.path = some x := by
  induction h with
  | own found => rwa [(module?_spec found).2]
  | outer _ _ ih => exact ih

theorem encloses_root_iff (ha : m.Anchored) {x : Module} :
    m.Encloses x Path.crateRoot ↔ x = rootModule := by
  constructor
  · intro h
    cases h with
    | own found => exact Option.some.inj (found.symm.trans ha.root)
    | outer beneath => exact absurd rfl beneath
  · rintro rfl
    exact .own ha.root

theorem encloses_iff {path : String} (hne : path ≠ Path.crateRoot) {declared x : Module}
    (hd : m.module? path = some declared) :
    m.Encloses x path ↔ x = declared ∨ m.Encloses x (Path.parentOrRoot path) := by
  constructor
  · intro h
    cases h with
    | own found => exact .inl (Option.some.inj (found.symm.trans hd))
    | outer _ around => exact .inr around
  · rintro (rfl | h)
    · exact .own hd
    · exact .outer hne h

/-- A scope is the common part of those of the modules around a path, and takes in the path. -/
structure BoundedBy (m : Model) (scope : Scope) (path : String) : Prop where
  inside : scope.admits (.inModule path) = true
  admits_iff : ∀ o, scope.admits o = true ↔ ∀ x, m.Encloses x path → x.scope.admits o = true

theorem moduleScopeWithin_spec (hn : Nested m.modules) (ha : m.Anchored) (fuel : Nat) {path : String}
    (hp : ∃ x ∈ m.modules, x.path = path) (hf : path.length < fuel) :
    ∃ scope, m.moduleScopeWithin fuel path = .ok scope ∧ m.BoundedBy scope path := by
  induction fuel generalizing path with
  | zero => omega
  | succ fuel ih =>
    unfold moduleScopeWithin
    by_cases hroot : path = Path.crateRoot
    · subst hroot
      refine ⟨none, rfl, rfl, fun o => ?_⟩
      simp [encloses_root_iff ha, Module.scope, rootModule, Visibility.scopeRoot, Scope.admits]
    · obtain ⟨declared, hdeclared⟩ := exists_module?_of_mem hp
      obtain ⟨hmem, hpath⟩ := module?_spec hdeclared
      subst hpath
      obtain ⟨hwithin, parent, hparent, hparentPath⟩ := hn.parent declared hmem hroot
      have hshort := Path.length_of_parentOrRoot hwithin hroot
      obtain ⟨outer, houter, hinside, hadmits⟩ := ih ⟨parent, hparent, hparentPath⟩ (by omega)
      have hparentWithin := hn.within_root hparent
      have hclear := ha.clear parent hparent
      rw [hparentPath] at hparentWithin hclear
      have hown : declared.scope.admits (.inModule (Path.parentOrRoot declared.path)) = true :=
        Visibility.admits_scopeRoot hparentWithin (ha.module declared hmem hroot)
      -- both scopes lie around the parent, so the narrowest is their common part
      have hboth := Scope.admits_narrowest hclear hown hinside
      refine ⟨Scope.narrowest declared.scope outer, ?_, ?_, fun o => ?_⟩
      · simp [hroot, hdeclared, houter, Module.scope, bind, Except.bind, pure, Except.pure]
      · exact Scope.admits_of_within ((hboth _).mpr ⟨hown, hinside⟩) (Path.within_parentOrRoot hwithin)
      · rw [hboth, hadmits]
        simp only [encloses_iff hroot hdeclared, forall_eq_or_imp]

theorem moduleScope_spec (hn : Nested m.modules) (ha : m.Anchored) {path : String}
    (hp : ∃ x ∈ m.modules, x.path = path) :
    ∃ scope, m.moduleScope path = .ok scope ∧ m.BoundedBy scope path :=
  moduleScopeWithin_spec hn ha _ hp (Nat.lt_succ_self _)

end Modules

section Entities

variable {m : Model}

/-- The scope of an entity with a marker is that of its marker, and that of its owner if it has one. -/
theorem scopeWithin_marked (hc : m.Consistent) {e : Entity} (he : e ∈ m.entities) {v : Visibility}
    (hv : e.marker? = some v) (hm : m.module? e.path = none) (fuel : Nat) :
    m.scopeWithin (fuel + 1) e.path = (do
      let own ← m.markedScope v e.module
      match e.owner? with
      | some owner => return Scope.narrowest own (← m.scopeWithin fuel owner)
      | none => return own) := by
  have hentity : m.entity? e.path = some e := hc.entity?_eq_some_iff.mpr ⟨he, rfl⟩
  rw [scopeWithin, hm, hentity]
  cases e with
  | item i =>
    simp only [Entity.marker?] at hv
    split at hv
    case isTrue => cases hv
    case isFalse hkind =>
      cases hv
      simp only [Bool.or_eq_true, not_or, Bool.not_eq_true, Option.isSome_eq_false_iff,
        Option.isNone_iff_eq_none] at hkind
      simp only [Option.isSome_none, hkind.1, hkind.2, Bool.false_eq_true, if_false]
      rfl
  | impl i => cases hv
  | struct s => cases hv; simp [Entity.owner?, Entity.module]
  | trait t => cases hv; simp [Entity.owner?, Entity.module]
  | enum d => cases hv; simp [Entity.owner?, Entity.module]

/-- Structs, traits and enumeration types have one scope, whatever the bound. -/
theorem scopeWithin_type_eq (hc : m.Consistent) {e : Entity} (he : e ∈ m.entities)
    (hitem : e.item? = none) (himpl : e.impl? = none) (fuel : Nat) :
    m.scopeWithin (fuel + 1) e.path = m.scopeOf e.path := by
  have hentity : m.entity? e.path = some e := hc.entity?_eq_some_iff.mpr ⟨he, rfl⟩
  rw [scopeOf, scopeWithin, scopeWithin, hentity]
  cases e with
  | item i => cases hitem
  | impl i => cases himpl
  | _ => rfl

/-- An owner has a scope, whatever the bound. -/
theorem scopeWithin_owner (hc : m.Consistent) {e : Entity} (he : e ∈ m.entities) {v : Visibility}
    (hv : e.marker? = some v) {owner : String} (ho : e.owner? = some owner) (fuel : Nat) :
    m.scopeWithin (fuel + 1) owner = m.scopeOf owner ∧ ∃ scope, m.scopeOf owner = .ok scope := by
  have htype : ∀ d ∈ m.entities, d.item? = none → d.impl? = none →
      m.scopeWithin (fuel + 1) d.path = m.scopeOf d.path ∧ ∃ scope, m.scopeOf d.path = .ok scope :=
    fun d hd hitem himpl => ⟨scopeWithin_type_eq hc hd hitem himpl fuel,
      scopeWithin_type_isOk hc hd hitem himpl _⟩
  cases e with
  | item i =>
    have hkind : i.kind ≠ .traitMethod := by
      intro hkind
      simp [Entity.marker?, hkind] at hv
    rcases hc.owner i (mem_items.mpr he) hkind owner ho with ⟨s, hs, rfl⟩ | ⟨d, hd, rfl⟩
    · exact htype _ (mem_structs.mp hs) rfl rfl
    · exact htype _ (mem_enums.mp hd) rfl rfl
  | _ => cases ho

theorem canSee_eq {path : String} {scope : Scope} (h : m.scopeOf path = .ok scope) (o : Observer) :
    m.canSee path o = .ok (scope.admits o) := by
  rw [canSee, h]
  rfl

/-- A marker admits what its own root and all modules around its module admit. -/
theorem markedScope_spec (hn : Nested m.modules) (ha : m.Anchored) {v : Visibility} {module : String}
    (hp : ∃ x ∈ m.modules, x.path = module) (ht : v.targetsAncestor module = true) :
    ∃ scope, m.markedScope v module = .ok scope ∧ scope.admits (.inModule module) = true ∧
      ∀ o, scope.admits o = true ↔ (v.scopeRoot module).admits o = true ∧
        ∀ x, m.Encloses x module → x.scope.admits o = true := by
  obtain ⟨outer, houter, hinside, hadmits⟩ := moduleScope_spec hn ha hp
  obtain ⟨x, hx, rfl⟩ := hp
  have hroot := Visibility.admits_scopeRoot (hn.within_root hx) ht
  have hboth := Scope.admits_narrowest (ha.clear x hx) hroot hinside
  refine ⟨Scope.narrowest (v.scopeRoot x.path) outer, ?_, (hboth _).mpr ⟨hroot, hinside⟩, fun o => ?_⟩
  · rw [markedScope, houter]
    rfl
  · rw [hboth, hadmits]

/-- The scope of an entity with a marker admits what its marker, the modules around it and its owner
admit. -/
theorem scopeOf_marked_spec (hc : m.Consistent) (ha : m.Anchored) {e : Entity} (he : e ∈ m.entities)
    {v : Visibility} (hv : e.marker? = some v) (hm : m.module? e.path = none)
    (howner : ∀ owner, e.owner? = some owner → m.canSee owner (.inModule e.module) = .ok true) :
    ∃ scope, m.scopeOf e.path = .ok scope ∧ ∀ o, scope.admits o = true ↔
      (v.scopeRoot e.module).admits o = true ∧ (∀ x, m.Encloses x e.module → x.scope.admits o = true) ∧
        ∀ owner, e.owner? = some owner → m.canSee owner o = .ok true := by
  obtain ⟨own, hown, hinside, hadmits⟩ :=
    markedScope_spec hc.nested ha (hc.module e he) (ha.entity e he v hv)
  rw [scopeOf, scopeWithin_marked hc he hv hm, hown]
  cases ho : e.owner? with
  | none =>
    refine ⟨own, rfl, fun o => ?_⟩
    simp [hadmits]
  | some owner =>
    obtain ⟨heq, scope, hscope⟩ := scopeWithin_owner hc he hv ho m.entities.length
    have hseen := howner owner ho
    rw [canSee_eq hscope, Except.ok.injEq] at hseen
    obtain ⟨x, hx, hpath⟩ := hc.module e he
    have hclear := ha.clear x hx
    rw [hpath] at hclear
    have hboth := Scope.admits_narrowest hclear hinside hseen
    refine ⟨Scope.narrowest own scope, ?_, fun o => ?_⟩
    · rw [← heq] at hscope
      simp only [bind, Except.bind, hscope]
      rfl
    · rw [hboth, hadmits]
      simp [canSee_eq hscope, and_assoc]

/-- A module around another one admits code outside the crate if its marker is open to all. -/
theorem encloses_outside_iff (hn : Nested m.modules) (ha : m.Anchored) {path : String} {x : Module}
    (hx : m.Encloses x path) : x.scope.admits .outside = true ↔ x.visibility.reach = .everywhere := by
  have hfound := hx.found
  by_cases hroot : x.path = Path.crateRoot
  · have heq : rootModule = x := by
      rw [hroot, ha.root] at hfound
      exact Option.some.inj hfound
    rw [← heq]
    simp [Module.scope, rootModule, Visibility.scopeRoot, Scope.admits]
  · obtain ⟨hmem, -⟩ := module?_spec hfound
    obtain ⟨-, parent, hparent, hpath⟩ := hn.parent x hmem hroot
    have hwithin := hn.within_root hparent
    rw [hpath] at hwithin
    exact Visibility.admits_scopeRoot_outside_iff hwithin (ha.module x hmem hroot)

end Entities

end Model

/-- Scope resolution is the intersection of all scopes around an entity: code can name it exactly if its own
marker, the marker of every module from its own up to the root, and its owner admit that code. Code outside
the crate can name it exactly if all those markers are open to all. -/
theorem canSee_iff_all_enclosing {config : Config} {s : Snapshot} {m : Model}
    (hbuild : (Model.build config s).outcome = .ok m)
    (hnames : ∀ x ∈ s.modules, Path.IsName (Path.lastSegment x.path)) {e : Entity}
    (he : e ∈ m.entities) {v : Visibility} (hv : e.marker? = some v) (hm : m.module? e.path = none)
    (howner : ∀ owner, e.owner? = some owner → m.canSee owner (.inModule e.module) = .ok true) :
    (∀ observer : String, ∃ seen, m.canSee e.path (.inModule observer) = .ok seen ∧
      (seen = true ↔ (v.scopeRoot e.module).admits (.inModule observer) = true ∧
        (∀ x, m.Encloses x e.module → x.scope.admits (.inModule observer) = true) ∧
        ∀ owner, e.owner? = some owner → m.canSee owner (.inModule observer) = .ok true)) ∧
    ∃ seen, m.canSee e.path .outside = .ok seen ∧
      (seen = true ↔ v.reach = .everywhere ∧
        (∀ x, m.Encloses x e.module → x.visibility.reach = .everywhere) ∧
        ∀ owner, e.owner? = some owner → m.canSee owner .outside = .ok true) := by
  have hc := Model.consistent_of_build hbuild
  have ha := Model.anchored_of_build hbuild hnames
  obtain ⟨scope, hscope, hadmits⟩ := Model.scopeOf_marked_spec hc ha he hv hm howner
  refine ⟨fun observer => ⟨_, Model.canSee_eq hscope _, hadmits _⟩, _, Model.canSee_eq hscope _, ?_⟩
  -- outside the crate, what a root admits is a matter of the marker alone
  have hwithin : Path.within e.module Path.crateRoot = true := by
    obtain ⟨x, hx, hpath⟩ := hc.module e he
    rw [← hpath]
    exact hc.nested.within_root hx
  have hmodules : (∀ x, m.Encloses x e.module → x.scope.admits .outside = true) ↔
      ∀ x, m.Encloses x e.module → x.visibility.reach = .everywhere :=
    forall₂_congr fun _ hx => Model.encloses_outside_iff hc.nested ha hx
  rw [hadmits, Visibility.admits_scopeRoot_outside_iff hwithin (ha.entity e he v hv), hmodules]

/-- A method open to all, in a module that only its grandparent can name, of a struct that the parent of its
module can name. -/
def sharedPool : Snapshot :=
  { modules :=
      [{ path := "crate::mem", visibility := { reach := .wholeCrate } },
       { path := "crate::mem::pool" },
       { path := "crate::mem::pool::slab",
         visibility := { reach := .ancestor, path := some "crate::mem" } }],
    items :=
      [.struct
        { path := "crate::mem::pool::Pool", module := "crate::mem::pool",
          visibility := { reach := .parentModule } },
      .function
        { kind := .method, path := "crate::mem::pool::Pool::grow", module := "crate::mem::pool::slab",
          visibility := { reach := .everywhere }, owner := some "crate::mem::pool::Pool" }] }

/-- The method of the shared pool can be named in the modules beneath the grandparent, and neither elsewhere
in the crate nor outside. -/
theorem sharedPool_canSee : ∃ m, (Model.build {} sharedPool).outcome = .ok m ∧
    m.canSee "crate::mem::pool::Pool::grow" (.inModule "crate::mem::page") = .ok true ∧
    m.canSee "crate::mem::pool::Pool::grow" (.inModule "crate::net") = .ok false ∧
    m.canSee "crate::mem::pool::Pool::grow" .outside = .ok false := by
  have hcheck : ((Model.build {} sharedPool).outcome.toOption.any fun m =>
      (m.entities.any fun e => e.path == "crate::mem::pool::Pool::grow" &&
        e.marker? == some { reach := .everywhere } && e.module == "crate::mem::pool::slab" &&
        e.owner? == some "crate::mem::pool::Pool") &&
      decide (m.modules = Model.rootModule :: sharedPool.modules) &&
      decide (m.canSee "crate::mem::pool::Pool" (.inModule "crate::mem::pool::slab") = .ok true) &&
      decide (m.canSee "crate::mem::pool::Pool" (.inModule "crate::mem::page") = .ok true)) = true := by
    decide +kernel
  obtain ⟨m, hbuild, hmodel⟩ := Outcome.any_toOption_eq_true_iff.mp hcheck
  simp only [Bool.and_eq_true, List.any_eq_true, beq_iff_eq, decide_eq_true_eq] at hmodel
  obtain ⟨⟨⟨⟨e, he, ⟨⟨hpath, hv⟩, hmodule⟩, howner⟩, hmodules⟩, hslab⟩, hpage⟩ := hmodel
  have hfree : m.module? e.path = none := by
    rw [hpath, Model.module?, hmodules]
    decide +kernel
  obtain ⟨hinside, seen, hseen, houtside⟩ := canSee_iff_all_enclosing hbuild (by decide +kernel) he hv hfree
    (by rw [howner, hmodule]; rintro owner ⟨⟩; exact hslab)
  rw [hpath, hmodule, howner] at hinside
  rw [hpath] at hseen
  rw [hmodule] at houtside
  -- the innermost module is the one that shuts out the rest
  have hinner : m.Encloses ⟨"crate::mem::pool::slab", { reach := .ancestor, path := some "crate::mem" }⟩
      "crate::mem::pool::slab" := by
    refine .own ?_
    rw [Model.module?, hmodules]
    decide +kernel
  refine ⟨m, hbuild, ?_, ?_, ?_⟩
  · obtain ⟨seen, hseen, hiff⟩ := hinside "crate::mem::page"
    have hmodulesAdmit : ∀ x ∈ Model.rootModule :: sharedPool.modules,
        x.scope.admits (.inModule "crate::mem::page") = true := by
      decide +kernel
    have htrue : seen = true := by
      refine hiff.mpr ⟨rfl, fun x hx => hmodulesAdmit x ?_, ?_⟩
      · rw [← hmodules]
        exact (Model.module?_spec hx.found).1
      · rintro owner ⟨⟩
        exact hpage
    rw [hseen, htrue]
  · obtain ⟨seen, hseen, hiff⟩ := hinside "crate::net"
    have hfalse : seen = false := by
      refine Bool.eq_false_iff.mpr fun htrue => ?_
      exact absurd ((hiff.mp htrue).2.1 _ hinner) (by decide +kernel)
    rw [hseen, hfalse]
  · have hfalse : seen = false := by
      refine Bool.eq_false_iff.mpr fun htrue => ?_
      exact absurd ((houtside.mp htrue).2.1 _ hinner) (by decide +kernel)
    rw [hseen, hfalse]

end CrateSafety
