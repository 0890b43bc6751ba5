import CrateSafety.Proofs.Outcome
import CrateSafety.Model.Build
import Mathlib.Data.List.Nodup

/-!
# Consistent models

What every model that is built satisfies: no two entities share a path, modules form a tree beneath the
root, entities stand in known modules, and owners and implemented trait methods are declared. The facts are
read off the build, one lemma per function of it.
-/

namespace CrateSafety

/-- Where keys are distinct, looking a key up finds the entry that has it. -/
theorem find?_key_eq_some_iff {α : Type} {key : α → String} {l : List α} (hn : (l.map key).Nodup)
    {k : String} {a : α} : l.find? (fun x => key x == k) = some a ↔ a ∈ l ∧ key a = k := by
  induction l with
  | nil => simp
  | cons first rest ih =>
    rw [List.map_cons, List.nodup_cons] at hn
    by_cases hk : key first = k
    · -- no later entry has the key of the first one
      have hlater : a ∈ rest → key a ≠ k := fun ha heq =>
        hn.1 (List.mem_map.mpr ⟨a, ha, heq.trans hk.symm⟩)
      rw [List.find?_cons_of_pos (by simpa using hk), Option.some.injEq, List.mem_cons]
      constructor
      · intro heq
        exact ⟨.inl heq.symm, heq ▸ hk⟩
      · intro h
        exact (h.1.resolve_right fun ha => hlater ha h.2).symm
    · have hne : key a = k → a ≠ first := fun ha heq => hk (heq ▸ ha)
      rw [List.find?_cons_of_neg (by simpa using hk), ih hn.2, List.mem_cons]
      exact and_congr_left fun ha => (or_iff_right (hne ha)).symm

namespace Build

theorem outcome_require_eq_ok_iff {holds : Bool} {error : ModelError} {u : Unit} :
    (require holds error).outcome = .ok u ↔ holds = true := by
  unfold require
  cases holds <;> simp

end Build

namespace Entity

/-- The module that an entity is declared in. -/
def module : Entity → String
  | item i => i.module
  | struct s => s.module
  | trait t => t.module
  | enum e => e.module
  | impl i => i.module

theorem item?_eq_some_iff {e : Entity} {i : Item} : e.item? = some i ↔ e = .item i := by
  cases e <;> simp [item?]

theorem struct?_eq_some_iff {e : Entity} {s : Struct} : e.struct? = some s ↔ e = .struct s := by
  cases e <;> simp [struct?]

theorem trait?_eq_some_iff {e : Entity} {t : Trait} : e.trait? = some t ↔ e = .trait t := by
  cases e <;> simp [trait?]

theorem impl?_eq_some_iff {e : Entity} {i : Impl} : e.impl? = some i ↔ e = .impl i := by
  cases e <;> simp [impl?]

theorem enum?_eq_some_iff {e : Entity} {d : EnumDeclaration} : e.enum? = some d ↔ e = .enum d := by
  cases e <;> simp [enum?]

end Entity

namespace Model

/-- Modules form a tree: each but the root lies in the crate and has its parent among them. -/
structure Nested (modules : List Module) : Prop where
  /-- The root is a module. -/
  root : ∃ x ∈ modules, x.path = Path.crateRoot
  /-- Any other module has a parent. -/
  parent : ∀ x ∈ modules, x.path ≠ Path.crateRoot → Path.within x.path Path.crateRoot = true ∧
    ∃ y ∈ modules, y.path = Path.parentOrRoot x.path

/-- The structure that declarations refer to is there. -/
structure Consistent (m : Model) : Prop where
  /-- No two entities share a path. -/
  distinct : (m.entities.map Entity.path).Nodup
  /-- The modules form a tree. -/
  nested : Nested m.modules
  /-- Entities stand in known modules. -/
  module : ∀ e ∈ m.entities, ∃ x ∈ m.modules, x.path = e.module
  /-- Trait methods belong to a trait. -/
  traitOwner : ∀ i ∈ m.items, i.kind = .traitMethod → ∃ t ∈ m.traits, i.owner = some t.path
  /-- Owners of other items are structs or enumeration types. -/
  owner : ∀ i ∈ m.items, i.kind ≠ .traitMethod → ∀ path, i.owner? = some path →
    (∃ s ∈ m.structs, s.path = path) ∨ ∃ e ∈ m.enums, e.path = path
  /-- Items implement trait methods only. -/
  implements : ∀ i ∈ m.items, ∀ path, i.implements? = some path →
    ∃ declared ∈ m.items, declared.path = path ∧ declared.kind = .traitMethod

section Modules

/-- One more module under a known parent keeps the tree. -/
theorem Nested.snoc {known : List Module} {x : Module} (h : Nested known)
    (hw : Path.within x.path Path.crateRoot = true)
    (hp : ∃ y ∈ known, y.path = Path.parentOrRoot x.path) : Nested (known ++ [x]) := by
  constructor
  · obtain ⟨r, hr, he⟩ := h.root
    exact ⟨r, List.mem_append_left _ hr, he⟩
  · intro y hy hne
    have hparent : Path.within y.path Path.crateRoot = true ∧
        ∃ z ∈ known, z.path = Path.parentOrRoot y.path := by
      rcases List.mem_append.mp hy with hy | hy
      · exact h.parent y hy hne
      · rw [List.mem_singleton.mp hy]
        exact ⟨hw, hp⟩
    obtain ⟨hwithin, z, hz, he⟩ := hparent
    exact ⟨hwithin, z, List.mem_append_left _ hz, he⟩

theorem nested_of_registerAll {known declared modules : List Module} (hn : Nested known)
    (h : (registerAll known declared).outcome = .ok modules) : Nested modules := by
  induction declared generalizing known with
  | nil =>
    cases h
    exact hn
  | cons x rest ih =>
    unfold registerAll at h
    split at h
    case isTrue => exact ih hn h
    case isFalse =>
      simp only [Traced.outcome_bind, Outcome.bind_eq_ok_iff, Build.outcome_require_eq_ok_iff,
        List.any_eq_true, beq_iff_eq] at h
      obtain ⟨-, hwithin, -, -, -, hparent, -, -, hrest⟩ := h
      exact ih (hn.snoc hwithin hparent) hrest

theorem nested_of_registerModules {declared modules : List Module}
    (h : (registerModules declared).outcome = .ok modules) : Nested modules := by
  refine nested_of_registerAll ⟨⟨rootModule, List.mem_singleton_self _, rfl⟩, ?_⟩ h
  intro x hx hne
  rw [List.mem_singleton.mp hx] at hne
  exact absurd rfl hne

end Modules

section Paths

theorem firstRepeated_eq_none_iff {seen paths : List String} :
    firstRepeated seen paths = none ↔ paths.Nodup ∧ ∀ path ∈ paths, path ∉ seen := by
  induction paths generalizing seen with
  | nil => simp [firstRepeated]
  | cons path rest ih =>
    unfold firstRepeated
    split
    case isTrue h =>
      have hm : path ∈ seen := by simpa using h
      simp [hm]
    case isFalse h =>
      have hm : path ∉ seen := by simpa using h
      rw [ih, List.nodup_cons, List.forall_mem_cons]
      simp only [List.mem_cons, not_or]
      constructor
      · rintro ⟨hn, hall⟩
        exact ⟨⟨fun hp => (hall path hp).1 rfl, hn⟩, hm, fun q hq => (hall q hq).2⟩
      · rintro ⟨⟨hp, hn⟩, -, hall⟩
        exact ⟨hn, fun q hq => ⟨fun he => hp (he ▸ hq), hall q hq⟩⟩

theorem nodup_of_requireDistinct {declarations : List Declaration} {u : Unit}
    (h : (requireDistinct declarations).outcome = .ok u) :
    (declarations.flatMap declaredPaths).Nodup := by
  unfold requireDistinct at h
  split at h
  case h_1 => cases h
  case h_2 hr => exact (firstRepeated_eq_none_iff.mp hr).1

end Paths

section Entities

variable {config : Config} {modules : List Module} {declarations : List Declaration}

/-- Documented lines are read as a condition, whatever issues they have. -/
theorem ofLines_of_documented {path : String} {rule : Rule} {visible : List String}
    {members : Option (List String)} {lines : List String} {c : Condition}
    (h : (documented config path rule visible members lines).outcome = .ok c) :
    Condition.ofLines lines = .ok c := by
  simp only [documented, Build.reading, Traced.outcome_bind, Traced.outcome_lift, Traced.outcome_pure,
    Outcome.bind_eq_ok_iff, Outcome.mapError_eq_ok_iff, Except.ok.injEq] at h
  obtain ⟨_, hread, _, -, rfl⟩ := h
  exact hread

theorem buildStruct_spec {d : StructDeclaration} {s : Struct}
    (h : (buildStruct config d).outcome = .ok s) : s.path = d.path ∧ s.module = d.module := by
  simp only [buildStruct, Traced.outcome_bind, Outcome.bind_eq_ok_iff, Traced.outcome_pure,
    Except.ok.injEq] at h
  obtain ⟨-, -, -, -, stated, -, invariant, -, rfl⟩ := h
  exact ⟨rfl, rfl⟩

theorem buildTraitMethod_spec {d : TraitDeclaration} {method : TraitMethodDeclaration} {i : Item}
    (h : (buildTraitMethod config d method).outcome = .ok i) :
    i.path = Path.child d.path method.name ∧ i.module = d.module ∧ i.kind = .traitMethod ∧
      i.owner = some d.path := by
  simp only [buildTraitMethod, Traced.outcome_bind, Outcome.bind_eq_ok_iff, Traced.outcome_pure,
    Except.ok.injEq] at h
  obtain ⟨requirements, -, sites, -, rfl⟩ := h
  exact ⟨rfl, rfl, rfl, rfl⟩

theorem buildTrait_spec {d : TraitDeclaration} {t : Trait} {methods : List Item}
    (h : (buildTrait config d).outcome = .ok (t, methods)) :
    t.path = d.path ∧ t.module = d.module ∧
      List.Forall₂ (fun method i => i.path = Path.child d.path method.name ∧ i.module = d.module ∧
        i.kind = .traitMethod ∧ i.owner = some d.path) d.methods methods := by
  simp only [buildTrait, Traced.outcome_bind, Outcome.bind_eq_ok_iff, Traced.outcome_pure,
    Traced.outcome_mapM, Outcome.mapM_eq_ok_iff, Except.ok.injEq, Prod.mk.injEq] at h
  obtain ⟨-, -, invariant, -, built, hbuilt, rfl, rfl⟩ := h
  exact ⟨rfl, rfl, hbuilt.imp fun _ _ => buildTraitMethod_spec⟩

theorem buildFunction_spec {d : FunctionDeclaration} {i : Item}
    (h : (buildFunction config declarations d).outcome = .ok i) :
    i.path = d.path ∧ i.module = d.module ∧ i.kind ≠ .traitMethod ∧
      ∀ path, i.owner? = some path → isOwner declarations path = true := by
  simp only [buildFunction, Traced.outcome_bind, Outcome.bind_eq_ok_iff, Traced.outcome_pure,
    Build.outcome_require_eq_ok_iff, Except.ok.injEq] at h
  obtain ⟨-, howner, -, -, -, -, requirements, -, sites, -, rfl⟩ := h
  refine ⟨rfl, rfl, ?_, fun path hpath => (Option.all_eq_true _ _).mp howner path hpath⟩
  cases d.kind <;> simp [ItemKind.ofFunction]

/-- What the entities of a declaration are. -/
theorem buildEntities_cases {d : Declaration} {es : List Entity}
    (h : (buildEntities config modules declarations d).outcome = .ok es) :
    (∃ x ∈ modules, x.path = d.module) ∧
      match d with
      | .struct d => ∃ s, (buildStruct config d).outcome = .ok s ∧ es = [.struct s]
      | .enum d => es = [.enum d]
      | .trait d => ∃ t methods, (buildTrait config d).outcome = .ok (t, methods) ∧
          es = .trait t :: methods.map .item
      | .impl d => ∃ i : Impl, es = [.impl i] ∧ i.path = d.path ∧ i.module = d.module
      | .function d => ∃ i, (buildFunction config declarations d).outcome = .ok i ∧
          es = [.item i] := by
  simp only [buildEntities, Traced.outcome_bind, Outcome.bind_eq_ok_iff,
    Build.outcome_require_eq_ok_iff, List.any_eq_true, beq_iff_eq] at h
  obtain ⟨-, hmodule, h⟩ := h
  refine ⟨hmodule, ?_⟩
  cases d
  all_goals
    simp only [Traced.outcome_bind, Outcome.bind_eq_ok_iff, Traced.outcome_pure,
      Except.ok.injEq] at h
  case struct d =>
    obtain ⟨s, hs, rfl⟩ := h
    exact ⟨s, hs, rfl⟩
  case enum d =>
    obtain ⟨-, -, rfl⟩ := h
    rfl
  case trait d =>
    obtain ⟨⟨t, methods⟩, ht, rfl⟩ := h
    exact ⟨t, methods, ht, rfl⟩
  case impl d =>
    obtain ⟨justification, -, rfl⟩ := h
    exact ⟨_, rfl, rfl, rfl⟩
  case function d =>
    obtain ⟨i, hi, rfl⟩ := h
    exact ⟨i, hi, rfl⟩

theorem path_of_buildEntities {d : Declaration} {es : List Entity}
    (h : (buildEntities config modules declarations d).outcome = .ok es) :
    es.map Entity.path = declaredPaths d := by
  have hcases := (buildEntities_cases h).2
  cases d with
  | struct d =>
    obtain ⟨s, hs, rfl⟩ := hcases
    simp [declaredPaths, Entity.path, Declaration.path, buildStruct_spec hs]
  | enum d =>
    rw [hcases]
    rfl
  | trait d =>
    obtain ⟨t, methods, ht, rfl⟩ := hcases
    obtain ⟨hpath, -, hmethods⟩ := buildTrait_spec ht
    have hall : d.methods.map (fun m => Path.child d.path m.name) = methods.map (·.path) :=
      map_eq_map_of_forall₂ (hmethods.imp fun _ _ hm => hm.1.symm)
    rw [declaredPaths, hall, ← hpath, List.map_cons, List.map_map]
    rfl
  | impl d =>
    obtain ⟨i, rfl, hpath, -⟩ := hcases
    simp [declaredPaths, Entity.path, Declaration.path, hpath]
  | function d =>
    obtain ⟨i, hi, rfl⟩ := hcases
    simp [declaredPaths, Entity.path, Declaration.path, buildFunction_spec hi]

theorem module_of_buildEntities {d : Declaration} {es : List Entity}
    (h : (buildEntities config modules declarations d).outcome = .ok es) :
    ∀ e ∈ es, ∃ x ∈ modules, x.path = e.module := by
  obtain ⟨hmodule, hcases⟩ := buildEntities_cases h
  suffices hall : ∀ e ∈ es, e.module = d.module from fun e he => (hall e he) ▸ hmodule
  intro e he
  cases d with
  | struct d =>
    obtain ⟨s, hs, rfl⟩ := hcases
    rw [List.mem_singleton.mp he]
    exact (buildStruct_spec hs).2
  | enum d =>
    rw [hcases] at he
    rw [List.mem_singleton.mp he]
    rfl
  | trait d =>
    obtain ⟨t, methods, ht, rfl⟩ := hcases
    obtain ⟨-, hm, hmethods⟩ := buildTrait_spec ht
    rcases List.mem_cons.mp he with rfl | he
    · exact hm
    · obtain ⟨i, hi, rfl⟩ := List.mem_map.mp he
      obtain ⟨-, -, -, hmod, -⟩ := exists_left_of_forall₂ hmethods hi
      exact hmod
  | impl d =>
    obtain ⟨i, rfl, -, hm⟩ := hcases
    rw [List.mem_singleton.mp he]
    exact hm
  | function d =>
    obtain ⟨i, hi, rfl⟩ := hcases
    rw [List.mem_singleton.mp he]
    exact (buildFunction_spec hi).2.1

/-- Methods of a trait come with their trait; other items name declared owners. -/
theorem owner_of_buildEntities {d : Declaration} {es : List Entity} {i : Item}
    (h : (buildEntities config modules declarations d).outcome = .ok es) (hi : .item i ∈ es) :
    (i.kind = .traitMethod → ∃ t, .trait t ∈ es ∧ i.owner = some t.path) ∧
      (i.kind ≠ .traitMethod → ∀ path, i.owner? = some path →
        isOwner declarations path = true) := by
  have hcases := (buildEntities_cases h).2
  cases d with
  | struct d =>
    obtain ⟨s, -, rfl⟩ := hcases
    simp at hi
  | enum d =>
    rw [hcases] at hi
    simp at hi
  | trait d =>
    obtain ⟨t, methods, ht, rfl⟩ := hcases
    obtain ⟨hpath, -, hmethods⟩ := buildTrait_spec ht
    have him : i ∈ methods := by simpa using hi
    obtain ⟨-, -, -, -, hkind, howner⟩ := exists_left_of_forall₂ hmethods him
    refine ⟨fun _ => ⟨t, List.mem_cons_self, ?_⟩, fun hne => absurd hkind hne⟩
    rw [howner, hpath]
  | impl d =>
    obtain ⟨_, rfl, -⟩ := hcases
    simp at hi
  | function d =>
    obtain ⟨f, hf, rfl⟩ := hcases
    have he : i = f := by simpa using hi
    subst he
    obtain ⟨-, -, hkind, howner⟩ := buildFunction_spec hf
    exact ⟨fun hk => absurd hk hkind, fun _ => howner⟩

/-- The requirements of an item are documented lines. -/
theorem requirements_of_buildEntities {d : Declaration} {es : List Entity} {i : Item}
    (h : (buildEntities config modules declarations d).outcome = .ok es) (hi : .item i ∈ es) :
    ∃ lines, Condition.ofLines lines = .ok i.requirements := by
  have hcases := (buildEntities_cases h).2
  cases d with
  | struct d =>
    obtain ⟨s, -, rfl⟩ := hcases
    simp at hi
  | enum d =>
    rw [hcases] at hi
    simp at hi
  | trait d =>
    obtain ⟨t, methods, ht, rfl⟩ := hcases
    have him : i ∈ methods := by simpa using hi
    simp only [buildTrait, Traced.outcome_bind, Outcome.bind_eq_ok_iff, Traced.outcome_pure,
      Traced.outcome_mapM, Outcome.mapM_eq_ok_iff, Except.ok.injEq, Prod.mk.injEq] at ht
    obtain ⟨-, -, -, -, built, hbuilt, -, rfl⟩ := ht
    obtain ⟨method, -, hmethod⟩ := exists_left_of_forall₂ hbuilt him
    simp only [buildTraitMethod, Traced.outcome_bind, Outcome.bind_eq_ok_iff, Traced.outcome_pure,
      Except.ok.injEq] at hmethod
    obtain ⟨requirements, hrequirements, sites, -, rfl⟩ := hmethod
    exact ⟨method.requirements, ofLines_of_documented hrequirements⟩
  | impl d =>
    obtain ⟨_, rfl, -⟩ := hcases
    simp at hi
  | function d =>
    obtain ⟨f, hf, rfl⟩ := hcases
    have he : i = f := by simpa using hi
    subst he
    simp only [buildFunction, Traced.outcome_bind, Outcome.bind_eq_ok_iff, Traced.outcome_pure,
      Except.ok.injEq] at hf
    obtain ⟨-, -, -, -, -, -, requirements, hrequirements, sites, -, rfl⟩ := hf
    exact ⟨d.requirements, ofLines_of_documented hrequirements⟩

end Entities

section Membership

variable {m : Model}

@[simp] theorem mem_items {i : Item} : i ∈ m.items ↔ .item i ∈ m.entities := by
  simp [items, Entity.item?_eq_some_iff]

@[simp] theorem mem_structs {s : Struct} : s ∈ m.structs ↔ .struct s ∈ m.entities := by
  simp [structs, Entity.struct?_eq_some_iff]

@[simp] theorem mem_traits {t : Trait} : t ∈ m.traits ↔ .trait t ∈ m.entities := by
  simp [traits, Entity.trait?_eq_some_iff]

@[simp] theorem mem_impls {i : Impl} : i ∈ m.impls ↔ .impl i ∈ m.entities := by
  simp [impls, Entity.impl?_eq_some_iff]

@[simp] theorem mem_enums {e : EnumDeclaration} : e ∈ m.enums ↔ .enum e ∈ m.entities := by
  simp [enums, Entity.enum?_eq_some_iff]

end Membership

section Build

variable {config : Config} {s : Snapshot}

/-- A declared owner is among the entities that are built. -/
theorem exists_owner_of_isOwner {modules : List Module} {declarations all : List Declaration}
    {built : List (List Entity)} {path : String}
    (hb : List.Forall₂ (fun d es => (buildEntities config modules all d).outcome = .ok es)
      declarations built) (h : isOwner declarations path = true) :
    (∃ s, .struct s ∈ built.flatten ∧ s.path = path) ∨
      ∃ e, .enum e ∈ built.flatten ∧ e.path = path := by
  obtain ⟨d, hd, hpath⟩ := List.any_eq_true.mp h
  obtain ⟨es, hes, hbuild⟩ := exists_right_of_forall₂ hb hd
  have hcases := (buildEntities_cases hbuild).2
  cases d with
  | struct d =>
    obtain ⟨s, hs, rfl⟩ := hcases
    refine .inl ⟨s, List.mem_flatten_of_mem hes List.mem_cons_self, ?_⟩
    rw [(buildStruct_spec hs).1]
    simpa using hpath
  | enum d =>
    rw [hcases] at hes
    exact .inr ⟨d, List.mem_flatten_of_mem hes List.mem_cons_self, by simpa using hpath⟩
  | trait d => cases hpath
  | impl d => cases hpath
  | function d => cases hpath

/-- The entities that are built have the paths that are declared. -/
theorem paths_of_built {modules : List Module} {declarations all : List Declaration}
    {built : List (List Entity)}
    (hb : List.Forall₂ (fun d es => (buildEntities config modules all d).outcome = .ok es)
      declarations built) : built.flatten.map Entity.path = declarations.flatMap declaredPaths := by
  have hpaths : declarations.map declaredPaths = built.map fun es => es.map Entity.path :=
    map_eq_map_of_forall₂ (hb.imp fun _ _ hes => (path_of_buildEntities hes).symm)
  rw [List.flatMap_def, hpaths, List.map_flatten]

/-- What a model was built from: the entities of each declaration, in known modules. -/
structure BuiltFrom (config : Config) (s : Snapshot) (m : Model) (built : List (List Entity)) : Prop where
  /-- The modules were registered. -/
  modules : (registerModules s.modules).outcome = .ok m.modules
  /-- No path was declared twice. -/
  distinct : (s.items.flatMap declaredPaths).Nodup
  /-- Each declaration has its entities. -/
  declarations :
    List.Forall₂ (fun d es => (buildEntities config m.modules s.items d).outcome = .ok es) s.items built
  /-- The entities are those of the declarations. -/
  entities : m.entities = built.flatten
  /-- Implemented trait methods were declared. -/
  implemented : ∀ i ∈ m.items, (requireImplemented m.items i).outcome = .ok ()

theorem builtFrom_of_build {m : Model} (h : (build config s).outcome = .ok m) :
    ∃ built, BuiltFrom config s m built := by
  obtain ⟨⟨modules, entities⟩, hparts, rfl⟩ := Outcome.map_eq_ok_iff.mp h
  simp only [buildParts, Traced.outcome_bind, Outcome.bind_eq_ok_iff, Traced.outcome_pure,
    Traced.outcome_mapM, Outcome.mapM_eq_ok_iff, List.forM_eq_forM, Traced.outcome_forM,
    Except.ok.injEq, Prod.mk.injEq] at hparts
  obtain ⟨_, hmodules, _, hdistinct, built, hbuilt, _, himplemented, rfl, rfl⟩ := hparts
  exact ⟨built, hmodules, nodup_of_requireDistinct hdistinct, hbuilt, rfl,
    Outcome.forM_eq_ok_iff.mp himplemented⟩

/-- An entity of a model comes from a declaration, together with the other entities of it. -/
theorem BuiltFrom.exists_declaration {m : Model} {built : List (List Entity)}
    (h : BuiltFrom config s m built) {e : Entity} (he : e ∈ m.entities) :
    ∃ d es, (buildEntities config m.modules s.items d).outcome = .ok es ∧ e ∈ es ∧ es ⊆ m.entities := by
  rw [h.entities] at he
  obtain ⟨es, hes, hmem⟩ := List.mem_flatten.mp he
  obtain ⟨d, -, hd⟩ := exists_left_of_forall₂ h.declarations hes
  refine ⟨d, es, hd, hmem, fun e' he' => ?_⟩
  rw [h.entities]
  exact List.mem_flatten_of_mem hes he'

/-- Every model that is built is consistent. -/
theorem consistent_of_build {m : Model} (h : (build config s).outcome = .ok m) : m.Consistent := by
  obtain ⟨built, hbuilt⟩ := builtFrom_of_build h
  constructor
  case distinct =>
    rw [hbuilt.entities, paths_of_built hbuilt.declarations]
    exact hbuilt.distinct
  case nested => exact nested_of_registerModules hbuilt.modules
  case module =>
    intro e he
    obtain ⟨d, es, hd, hmem, -⟩ := hbuilt.exists_declaration he
    exact module_of_buildEntities hd e hmem
  case traitOwner =>
    intro i hi hkind
    obtain ⟨d, es, hd, hmem, hsubset⟩ := hbuilt.exists_declaration (mem_items.mp hi)
    obtain ⟨t, ht, howner⟩ := (owner_of_buildEntities hd hmem).1 hkind
    exact ⟨t, mem_traits.mpr (hsubset ht), howner⟩
  case owner =>
    intro i hi hkind path hpath
    obtain ⟨d, es, hd, hmem, -⟩ := hbuilt.exists_declaration (mem_items.mp hi)
    have howner := (owner_of_buildEntities hd hmem).2 hkind path hpath
    simp only [mem_structs, mem_enums, hbuilt.entities]
    exact exists_owner_of_isOwner hbuilt.declarations howner
  case implements =>
    intro i hi path hpath
    have hreq := hbuilt.implemented i hi
    unfold requireImplemented at hreq
    simp only [hpath, Build.outcome_require_eq_ok_iff, List.any_eq_true, Bool.and_eq_true,
      beq_iff_eq] at hreq
    exact hreq

end Build

namespace Consistent

variable {m : Model}

/-- An entity is determined by its path. -/
theorem eq_of_path (h : m.Consistent) {e e' : Entity} (he : e ∈ m.entities) (he' : e' ∈ m.entities)
    (hp : e.path = e'.path) : e = e' :=
  List.inj_on_of_nodup_map h.distinct he he' hp

theorem nodup_items (h : m.Consistent) : (m.items.map Item.path).Nodup := by
  have hd := List.pairwise_map.mp h.distinct
  rw [List.Nodup, List.pairwise_map, items, List.pairwise_filterMap]
  refine hd.imp fun {e e'} hne i hi i' hi' => ?_
  rw [Entity.item?_eq_some_iff.mp hi, Entity.item?_eq_some_iff.mp hi'] at hne
  exact hne

/-- The item of a path is the one that has it. -/
theorem item?_eq_some_iff (h : m.Consistent) {path : String} {i : Item} :
    m.item? path = some i ↔ i ∈ m.items ∧ i.path = path :=
  find?_key_eq_some_iff h.nodup_items

theorem entity?_eq_some_iff (h : m.Consistent) {path : String} {e : Entity} :
    m.entity? path = some e ↔ e ∈ m.entities ∧ e.path = path :=
  find?_key_eq_some_iff h.distinct

end Consistent

end Model

end CrateSafety
