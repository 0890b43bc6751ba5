import CrateSafety.Proofs.ModuleRegistration
import CrateSafety.Proofs.RunOutcome

/-!
# The structure of snapshots

What the declarations of a snapshot need of each other: modules form a tree of distinct paths, markers name
ancestors, items have distinct paths and known modules, and owners and implemented methods are declared. None
of it depends on the order of declarations. The checks of the build are spread over the registration of
modules, the declarations one by one and a last pass over the items; each is shown to fail exactly if its part
of the structure is missing, so that the build as a whole has a structural fault exactly if the snapshot has
no structure.
-/

namespace CrateSafety

namespace Path

theorem given?_eq_some_iff {path : Option String} {given : String} :
    given? path = some given ↔ path = some given ∧ given ≠ "" := by
  simp [given?, Option.filter_eq_some_iff]

end Path

/-- Whether a marker in a module names an ancestor of it, if it names one at all. -/
def Visibility.NamesAncestor (v : Visibility) (module : String) : Prop :=
  v.reach = .ancestor → Path.within module v.pathText = true

theorem Visibility.targetsAncestor_iff {v : Visibility} {module : String} :
    v.targetsAncestor module = true ↔ v.NamesAncestor module := by
  unfold targetsAncestor NamesAncestor
  cases v.reach <;> simp

section Parts

/-- What a declaration brings into a model. -/
inductive Part where
  /-- A declared item. -/
  | whole (d : Declaration)
  /-- A method of a trait. -/
  | method (d : TraitDeclaration) (m : TraitMethodDeclaration)

/-- The path of a part; methods lie beneath their trait. -/
def Part.path : Part → String
  | whole d => d.path
  | method d m => Path.child d.path m.name

/-- The parts of a declaration: itself, and the methods of a trait right after it. -/
def Declaration.parts : Declaration → List Part
  | trait d => .whole (.trait d) :: d.methods.map (.method d)
  | d => [.whole d]

/-- The entity of a part: its data as declared, with its texts read. -/
def Part.entity : Part → Except PredicateError Entity
  | whole (.function d) => do
    let requirements ← Condition.ofLines d.requirements
    let sites ← d.body.mapM Model.site
    return .item {
      path := d.path, kind := .ofFunction d.kind, module := d.module, visibility := d.visibility,
      declaredUnsafe := d.declaredUnsafe, params := d.params, requirements := requirements,
      owner := d.owner, body := sites, constructor := d.constructor, implements := d.implements,
      hasReceiver := d.kind == .method, line := d.line }
  | whole (.trait d) => do
    let invariant ← Condition.ofLines d.invariant
    let methods := d.methods.map fun m => Path.child d.path m.name
    return .trait ⟨d.path, d.module, d.visibility, d.declaredUnsafe, invariant, methods, d.line⟩
  | whole (.struct d) => do
    let stated ← Condition.ofLines d.invariant
    let invariant ← stated.rename d.qualified
    return .struct ⟨d.path, d.module, d.visibility, d.fields, invariant, d.line⟩
  | whole (.enum d) => return .enum d
  | whole (.impl d) => do
    let justification ← Justification.parse d.justification
    return .impl ⟨d.path, d.module, d.trait, d.target, d.declaredUnsafe, justification, d.line⟩
  | method d m => do
    let requirements ← Condition.ofLines m.requirements
    let sites ← m.body.mapM Model.site
    return .item {
      path := Path.child d.path m.name, kind := .traitMethod, module := d.module,
      visibility := d.visibility, declaredUnsafe := m.declaredUnsafe, params := m.params,
      requirements := requirements, owner := some d.path, body := sites, constructor := false,
      implements := none, hasReceiver := m.receiver, line := m.line }

/-- The markers of a declaration, with those of the fields of a struct. -/
def Declaration.markers : Declaration → List Visibility
  | function d => [d.visibility]
  | trait d => [d.visibility]
  | struct d => d.visibility :: d.fields.map (·.visibility)
  | enum d => [d.visibility]
  | impl _ => []

theorem Declaration.path_parts (d : Declaration) : d.parts.map Part.path = Model.declaredPaths d := by
  cases d with
  | trait d => simp [parts, Model.declaredPaths, Part.path, path, Function.comp_def]
  | function d | struct d | enum d | impl d => rfl

end Parts

namespace Snapshot

/-- The root, or a declared module. -/
def HasModule (s : Snapshot) (path : String) : Prop :=
  path = Path.crateRoot ∨ ∃ m ∈ s.modules, m.path = path

/-- A declared struct or enumeration type. -/
def HasType (s : Snapshot) (path : String) : Prop :=
  (∃ d, .struct d ∈ s.items ∧ d.path = path) ∨ ∃ d, .enum d ∈ s.items ∧ d.path = path

/-- A method of a declared trait. -/
def HasTraitMethod (s : Snapshot) (path : String) : Prop :=
  ∃ d, .trait d ∈ s.items ∧ ∃ m ∈ d.methods, Path.child d.path m.name = path

/-- What the declarations of a snapshot need of each other. An owner or an implemented method with an empty
path counts as left out, and a declaration of the root module as not made. -/
structure Structured (s : Snapshot) : Prop where
  /-- Modules other than the root lie in the crate. -/
  within : ∀ m ∈ s.modules, m.path ≠ Path.crateRoot → Path.within m.path Path.crateRoot = true
  /-- They are declared once. -/
  once : ((s.modules.filter fun m => m.path != Path.crateRoot).map Module.path).Nodup
  /-- Their parents are modules. -/
  parent : ∀ m ∈ s.modules, m.path ≠ Path.crateRoot → s.HasModule (Path.parentOrRoot m.path)
  /-- Their markers name ancestors of the parent. -/
  ancestor : ∀ m ∈ s.modules, m.path ≠ Path.crateRoot →
    m.visibility.NamesAncestor (Path.parentOrRoot m.path)
  /-- Markers of items and fields name ancestors of the module. -/
  target : ∀ d ∈ s.items, ∀ v ∈ d.markers, v.NamesAncestor d.module
  /-- No path is declared twice, methods of traits included. -/
  distinct : ((s.items.flatMap Declaration.parts).map Part.path).Nodup
  /-- Items stand in modules. -/
  module : ∀ d ∈ s.items, s.HasModule d.module
  /-- Owners are declared. -/
  owner : ∀ d, .function d ∈ s.items → ∀ path, d.owner = some path → path ≠ "" → s.HasType path
  /-- Methods and associated functions have owners. -/
  owned : ∀ d, .function d ∈ s.items → d.kind ≠ .free → ∃ path, d.owner = some path ∧ path ≠ ""
  /-- Implemented methods are declared in traits. -/
  implements : ∀ d, .function d ∈ s.items → ∀ path, d.implements = some path → path ≠ "" →
    s.HasTraitMethod path

theorem Structured.perm {s s' : Snapshot} (h : s.Structured) (hm : s.modules.Perm s'.modules)
    (hi : s.items.Perm s'.items) : s'.Structured := by
  constructor
  case within => simpa only [hm.mem_iff] using h.within
  case once => exact ((hm.filter _).map Module.path).nodup_iff.mp h.once
  case parent => simpa only [HasModule, hm.mem_iff] using h.parent
  case ancestor => simpa only [hm.mem_iff] using h.ancestor
  case target => simpa only [hi.mem_iff] using h.target
  case distinct => exact ((hi.flatMap_right _).map Part.path).nodup_iff.mp h.distinct
  case module => simpa only [HasModule, hm.mem_iff, hi.mem_iff] using h.module
  case owner => simpa only [HasType, hi.mem_iff] using h.owner
  case owned => simpa only [hi.mem_iff] using h.owned
  case implements => simpa only [HasTraitMethod, hi.mem_iff] using h.implements

/-- The structure of a snapshot does not depend on the order of its declarations. -/
theorem structured_perm_iff {s s' : Snapshot} (hm : s.modules.Perm s'.modules)
    (hi : s.items.Perm s'.items) : s'.Structured ↔ s.Structured :=
  ⟨fun h => h.perm hm.symm hi.symm, fun h => h.perm hm hi⟩

end Snapshot

namespace Build

variable {α β : Type} {p q : Prop}

/-- A build succeeds only if a condition holds, and fails only at a text or because the condition does not
hold, with a structural fault then. -/
structure Judges (x : Build α) (sound : Prop) : Prop where
  /-- What is accepted is sound. -/
  accepts : ∀ a, x.outcome = .ok a → sound
  /-- What is rejected has a text that cannot be read, or is unsound. -/
  rejects : ∀ e, x.outcome = .error e →
    (∃ fault, e = .predicate fault) ∨ (∃ fault, e = .structural fault) ∧ ¬ sound

namespace Judges

theorem congr {x : Build α} (hx : x.Judges p) (h : p ↔ q) : x.Judges q := by
  rwa [← propext h]

theorem done (a : α) : Judges (Traced.done a : Build α) True :=
  ⟨fun _ _ => trivial, fun _ => nofun⟩

theorem require (holds : Bool) (error : ModelError) :
    (Build.require holds error).Judges (holds = true) := by
  cases holds with
  | true => exact (done ()).congr (by simp)
  | false =>
    refine ⟨fun _ => nofun, fun e he => ?_⟩
    cases he
    exact .inr ⟨⟨error, rfl⟩, Bool.false_ne_true⟩

theorem reading (x : Except PredicateError α) : (Build.reading x).Judges True := by
  refine ⟨fun _ _ => trivial, fun e he => ?_⟩
  cases x with
  | ok a => cases he
  | error fault =>
    cases he
    exact .inl ⟨fault, rfl⟩

theorem bind {x : Build α} {f : α → Build β} (hx : x.Judges p)
    (hf : ∀ a, x.outcome = .ok a → (f a).Judges q) : (x >>= f).Judges (p ∧ q) := by
  constructor
  · intro b hb
    rw [Traced.outcome_bind] at hb
    obtain ⟨a, ha, hb⟩ := Outcome.bind_eq_ok_iff.mp hb
    exact ⟨hx.accepts a ha, (hf a ha).accepts b hb⟩
  · intro e he
    rw [Traced.outcome_bind] at he
    rcases Outcome.bind_eq_error_iff.mp he with hfirst | ⟨a, ha, hsecond⟩
    · exact (hx.rejects e hfirst).imp_right fun h => ⟨h.1, fun hpq => h.2 hpq.1⟩
    · exact ((hf a ha).rejects e hsecond).imp_right fun h => ⟨h.1, fun hpq => h.2 hpq.2⟩

/-- A step that checks nothing, before one that does. -/
theorem after {x : Build α} {f : α → Build β} (hx : x.Judges True) (hf : ∀ a, (f a).Judges q) :
    (x >>= f).Judges q :=
  (hx.bind fun a _ => hf a).congr (iff_of_eq (true_and q))

/-- A step that checks nothing, after one that does. -/
theorem before {x : Build α} {f : α → Build β} (hx : x.Judges p) (hf : ∀ a, (f a).Judges True) :
    (x >>= f).Judges p :=
  (hx.bind fun a _ => hf a).congr (iff_of_eq (and_true p))

theorem mapM {f : α → Build β} {sound : α → Prop} {l : List α}
    (h : ∀ a ∈ l, (f a).Judges (sound a)) : Judges (l.mapM f) (∀ a ∈ l, sound a) := by
  induction l with
  | nil => exact (done []).congr (by simp)
  | cons a l ih =>
    obtain ⟨ha, hl⟩ := List.forall_mem_cons.mp h
    rw [List.mapM_cons]
    have hrest := ha.bind fun b _ => (ih hl).before fun bs => done (b :: bs)
    exact hrest.congr List.forall_mem_cons.symm

theorem forM {f : α → Build Unit} {sound : α → Prop} {l : List α}
    (h : ∀ a ∈ l, (f a).Judges (sound a)) : Judges (forM l f) (∀ a ∈ l, sound a) := by
  induction l with
  | nil => exact (done ()).congr (by simp)
  | cons a l ih =>
    obtain ⟨ha, hl⟩ := List.forall_mem_cons.mp h
    rw [List.forM_cons]
    exact (ha.bind fun _ _ => ih hl).congr List.forall_mem_cons.symm

/-- Whatever a build judges, it judges whether it succeeds. -/
theorem succeeds {x : Build α} (hx : x.Judges p) : x.Judges (∃ a, x.outcome = .ok a) := by
  refine ⟨fun a ha => ⟨a, ha⟩, fun e he => (hx.rejects e he).imp_right fun h => ⟨h.1, ?_⟩⟩
  rintro ⟨a, ha⟩
  rw [ha] at he
  cases he

end Judges

end Build

/-- A marker is accepted exactly if it names an ancestor. -/
theorem Visibility.judges_require (v : Visibility) (module path : String) :
    (v.require module path).Judges (v.NamesAncestor module) :=
  (Build.Judges.require _ _).congr targetsAncestor_iff

namespace Model

variable {config : Config} {s : Snapshot} {modules : List Module}

section Modules

theorem judges_registerAll (known declared : List Module) :
    (registerAll known declared).Judges (∃ modules, (registerAll known declared).outcome = .ok modules) := by
  induction declared generalizing known with
  | nil => exact (Build.Judges.done known).succeeds
  | cons m rest ih =>
    by_cases hroot : m.path = Path.crateRoot
    · rw [registerAll, if_pos (by simpa using hroot)]
      exact ih known
    · rw [registerAll_cons hroot]
      exact ((Build.Judges.require _ _).bind fun _ _ => (Build.Judges.require _ _).bind fun _ _ =>
        (Build.Judges.require _ _).bind fun _ _ => (m.visibility.judges_require _ _).bind fun _ _ =>
          ih _).succeeds

theorem judges_registerModules (declared : List Module) :
    (registerModules declared).Judges (Registrable [rootModule] (beneathRoot declared)) := by
  refine (judges_registerAll _ _).congr ⟨fun ⟨_, h⟩ => registrable_of_registerModules h, fun h => ?_⟩
  obtain ⟨modules, hmodules, -⟩ := registerModules_of_registrable h
  exact ⟨modules, congrArg Traced.outcome hmodules⟩

theorem mem_beneathRoot {declared : List Module} {m : Module} :
    m ∈ beneathRoot declared ↔ m ∈ declared ∧ m.path ≠ Path.crateRoot := by
  simp [beneathRoot]

/-- The root and the modules beneath it are the modules of a snapshot. -/
theorem exists_beneathRoot_iff {path : String} :
    (∃ m ∈ rootModule :: beneathRoot s.modules, m.path = path) ↔ s.HasModule path := by
  constructor
  · rintro ⟨m, hm, rfl⟩
    rcases List.mem_cons.mp hm with rfl | hm
    · exact .inl rfl
    · exact .inr ⟨m, (mem_beneathRoot.mp hm).1, rfl⟩
  · rintro (rfl | ⟨m, hm, rfl⟩)
    · exact ⟨rootModule, List.mem_cons_self, rfl⟩
    · by_cases hroot : m.path = Path.crateRoot
      · exact ⟨rootModule, List.mem_cons_self, hroot.symm⟩
      · exact ⟨m, List.mem_cons_of_mem _ (mem_beneathRoot.mpr ⟨hm, hroot⟩), rfl⟩

theorem exists_registered_iff (h : (registerModules s.modules).outcome = .ok modules) {path : String} :
    (∃ m ∈ modules, m.path = path) ↔ s.HasModule path := by
  obtain ⟨found, hfound, hperm⟩ := registerModules_of_registrable (registrable_of_registerModules h)
  rw [hfound] at h
  cases h
  simp only [hperm.mem_iff]
  exact exists_beneathRoot_iff

/-- Modules can be registered exactly if they have their part of the structure. -/
theorem registrable_iff : Registrable [rootModule] (beneathRoot s.modules) ↔
    ((beneathRoot s.modules).map Module.path).Nodup ∧ ∀ m ∈ s.modules, m.path ≠ Path.crateRoot →
      Path.within m.path Path.crateRoot = true ∧ s.HasModule (Path.parentOrRoot m.path) ∧
        m.visibility.NamesAncestor (Path.parentOrRoot m.path) := by
  constructor
  · intro h
    refine ⟨(List.nodup_cons.mp h.distinct).2, fun m hm hroot => ?_⟩
    have hmem : m ∈ beneathRoot s.modules := mem_beneathRoot.mpr ⟨hm, hroot⟩
    exact ⟨h.within m hmem, exists_beneathRoot_iff.mp (h.parent m hmem),
      Visibility.targetsAncestor_iff.mp (h.target m hmem)⟩
  · rintro ⟨hnodup, hall⟩
    have hbeneath : ∀ m ∈ beneathRoot s.modules, Path.within m.path Path.crateRoot = true ∧
        s.HasModule (Path.parentOrRoot m.path) ∧
          m.visibility.NamesAncestor (Path.parentOrRoot m.path) := by
      intro m hm
      obtain ⟨hmem, hroot⟩ := mem_beneathRoot.mp hm
      exact hall m hmem hroot
    constructor
    case beneath => exact fun m hm => (mem_beneathRoot.mp hm).2
    case within => exact fun m hm => (hbeneath m hm).1
    case target => exact fun m hm => Visibility.targetsAncestor_iff.mpr (hbeneath m hm).2.2
    case parent => exact fun m hm => exists_beneathRoot_iff.mpr (hbeneath m hm).2.1
    case distinct =>
      refine List.nodup_cons.mpr ⟨?_, hnodup⟩
      intro hroot
      obtain ⟨m, hm, hpath⟩ := List.mem_map.mp hroot
      exact (mem_beneathRoot.mp hm).2 hpath

end Modules

section Declarations

/-- What a declaration is checked for within its module. -/
structure Fits (s : Snapshot) (d : Declaration) : Prop where
  /-- Its markers name ancestors of the module. -/
  target : ∀ v ∈ d.markers, v.NamesAncestor d.module
  /-- Its owner is declared. -/
  owner : ∀ f, d = .function f → ∀ path, f.owner = some path → path ≠ "" → s.HasType path
  /-- It has an owner, unless it is a free function. -/
  owned : ∀ f, d = .function f → f.kind ≠ .free → ∃ path, f.owner = some path ∧ path ≠ ""

/-- Only functions have owners. -/
theorem fits_iff {d : Declaration} (hd : ∀ f, d ≠ .function f) :
    Fits s d ↔ ∀ v ∈ d.markers, v.NamesAncestor d.module :=
  ⟨Fits.target, fun h => ⟨h, fun f hf => absurd hf (hd f), fun f hf => absurd hf (hd f)⟩⟩

theorem isOwner_iff {path : String} : isOwner s.items path = true ↔ s.HasType path := by
  rw [isOwner, List.any_eq_true]
  constructor
  · rintro ⟨d, hd, hpath⟩
    cases d with
    | struct d => exact .inl ⟨d, hd, by simpa using hpath⟩
    | enum d => exact .inr ⟨d, hd, by simpa using hpath⟩
    | function d | trait d | impl d => cases hpath
  · rintro (⟨d, hd, rfl⟩ | ⟨d, hd, rfl⟩)
    · exact ⟨.struct d, hd, by simp⟩
    · exact ⟨.enum d, hd, by simp⟩

/-- Where requirements are not strict, documented lines are not checked. -/
theorem judges_documented (hlenient : config.strictRequirements = false) (path : String) (rule : Rule)
    (visible : List String) (members : Option (List String)) (lines : List String) :
    (documented config path rule visible members lines).Judges True := by
  refine (Build.Judges.reading _).after fun condition => ?_
  rw [hlenient]
  have hreport : ∀ issues, (Build.report false issues).Judges True :=
    fun _ => ⟨fun _ _ => trivial, fun _ => nofun⟩
  exact (hreport _).after fun _ => .done condition

theorem judges_buildStruct (hlenient : config.strictRequirements = false) (d : StructDeclaration) :
    (buildStruct config d).Judges (∀ v ∈ (Declaration.struct d).markers, v.NamesAncestor d.module) := by
  have hfields : (d.fields.forM fun f => f.visibility.require d.module (Path.child d.path f.name)).Judges
      (∀ f ∈ d.fields, f.visibility.NamesAncestor d.module) := by
    rw [List.forM_eq_forM]
    exact .forM fun f _ => f.visibility.judges_require _ _
  rw [Declaration.markers, List.forall_mem_cons, List.forall_mem_map]
  refine (d.visibility.judges_require _ _).bind fun _ _ => ?_
  refine hfields.before fun _ => ?_
  refine (judges_documented hlenient _ _ _ _ _).after fun _ => ?_
  exact (Build.Judges.reading _).after fun _ => .done _

theorem judges_buildTrait (hlenient : config.strictRequirements = false) (d : TraitDeclaration) :
    (buildTrait config d).Judges (d.visibility.NamesAncestor d.module) := by
  refine (d.visibility.judges_require _ _).before fun _ => ?_
  refine (judges_documented hlenient _ _ _ _ _).after fun _ => ?_
  have hmethods : Build.Judges (d.methods.mapM (buildTraitMethod config d)) (∀ m ∈ d.methods, True) := by
    refine .mapM fun m _ => ?_
    exact (judges_documented hlenient _ _ _ _ _).after fun _ =>
      (Build.Judges.reading _).after fun _ => .done _
  exact (hmethods.congr (by simp)).after fun _ => .done _

theorem judges_buildFunction (hlenient : config.strictRequirements = false) (d : FunctionDeclaration) :
    (buildFunction config s.items d).Judges
      ((∀ path, d.owner = some path → path ≠ "" → s.HasType path) ∧
        (d.kind ≠ .free → ∃ path, d.owner = some path ∧ path ≠ "") ∧
          d.visibility.NamesAncestor d.module) := by
  have howner : (Path.given? d.owner).all (isOwner s.items) = true ↔
      ∀ path, d.owner = some path → path ≠ "" → s.HasType path := by
    simp only [Option.all_eq_true, Path.given?_eq_some_iff, isOwner_iff, and_imp]
  have howned : (d.kind == .free || (Path.given? d.owner).isSome) = true ↔
      (d.kind ≠ .free → ∃ path, d.owner = some path ∧ path ≠ "") := by
    rw [Bool.or_eq_true, beq_iff_eq, Option.isSome_iff_exists, or_iff_not_imp_left]
    simp only [Path.given?_eq_some_iff]
  refine ((Build.Judges.require _ _).congr howner).bind fun _ _ => ?_
  refine ((Build.Judges.require _ _).congr howned).bind fun _ _ => ?_
  refine (d.visibility.judges_require _ _).before fun _ => ?_
  exact (judges_documented hlenient _ _ _ _ _).after fun _ =>
    (Build.Judges.reading _).after fun _ => .done _

theorem judges_buildEntities (hlenient : config.strictRequirements = false)
    (hmodules : (registerModules s.modules).outcome = .ok modules) (d : Declaration) :
    (buildEntities config modules s.items d).Judges (s.HasModule d.module ∧ Fits s d) := by
  have hmodule : (modules.any fun m => m.path == d.module) = true ↔ s.HasModule d.module := by
    rw [← exists_registered_iff hmodules]
    simp
  refine ((Build.Judges.require _ _).congr hmodule).bind fun _ _ => ?_
  have hmarker : ∀ {v : Visibility}, d.markers = [v] →
      ((∀ u ∈ d.markers, u.NamesAncestor d.module) ↔ v.NamesAncestor d.module) := by
    intro v hv
    rw [hv, List.forall_mem_singleton]
  cases d with
  | struct d =>
    refine ((judges_buildStruct hlenient d).before fun _ => .done _).congr ?_
    exact (fits_iff (by simp)).symm
  | enum d =>
    refine ((d.visibility.judges_require _ _).before fun _ => .done _).congr ?_
    exact (hmarker rfl).symm.trans (fits_iff (by simp)).symm
  | trait d =>
    refine ((judges_buildTrait hlenient d).before fun _ => .done _).congr ?_
    exact (hmarker rfl).symm.trans (fits_iff (by simp)).symm
  | impl d =>
    refine ((Build.Judges.reading _).before fun _ => .done _).congr ?_
    exact (iff_of_true trivial nofun).trans (fits_iff (by simp)).symm
  | function d =>
    refine ((judges_buildFunction hlenient d).before fun _ => .done _).congr ?_
    constructor
    · rintro ⟨howner, howned, htarget⟩
      refine ⟨(hmarker rfl).mpr htarget, fun f hf => ?_, fun f hf => ?_⟩
      · cases hf
        exact howner
      · cases hf
        exact howned
    · intro h
      exact ⟨h.owner d rfl, h.owned d rfl, (hmarker rfl).mp h.target⟩

end Declarations

section Entities

variable {declarations : List Declaration}

theorem entity_of_buildStruct {d : StructDeclaration} {built : Struct}
    (h : (buildStruct config d).outcome = .ok built) :
    (Part.whole (.struct d)).entity = .ok (.struct built) := by
  simp only [buildStruct, Traced.outcome_bind, Outcome.bind_eq_ok_iff, Traced.outcome_pure,
    Build.reading, Traced.outcome_lift, Outcome.mapError_eq_ok_iff, Except.ok.injEq] at h
  obtain ⟨-, -, -, -, stated, hstated, invariant, hinvariant, rfl⟩ := h
  refine Outcome.bind_eq_ok_iff.mpr ⟨stated, ofLines_of_documented hstated, ?_⟩
  exact Outcome.bind_eq_ok_iff.mpr ⟨invariant, hinvariant, rfl⟩

theorem entity_of_buildTraitMethod {d : TraitDeclaration} {method : TraitMethodDeclaration} {i : Item}
    (h : (buildTraitMethod config d method).outcome = .ok i) :
    (Part.method d method).entity = .ok (.item i) := by
  simp only [buildTraitMethod, Traced.outcome_bind, Outcome.bind_eq_ok_iff, Traced.outcome_pure, body,
    Build.reading, Traced.outcome_lift, Outcome.mapError_eq_ok_iff, Except.ok.injEq] at h
  obtain ⟨requirements, hrequirements, sites, hsites, rfl⟩ := h
  refine Outcome.bind_eq_ok_iff.mpr ⟨requirements, ofLines_of_documented hrequirements, ?_⟩
  exact Outcome.bind_eq_ok_iff.mpr ⟨sites, hsites, rfl⟩

theorem entity_of_buildFunction {d : FunctionDeclaration} {i : Item}
    (h : (buildFunction config declarations d).outcome = .ok i) :
    (Part.whole (.function d)).entity = .ok (.item i) := by
  simp only [buildFunction, Traced.outcome_bind, Outcome.bind_eq_ok_iff, Traced.outcome_pure, body,
    Build.reading, Traced.outcome_lift, Outcome.mapError_eq_ok_iff, Except.ok.injEq] at h
  obtain ⟨-, -, -, -, -, -, requirements, hrequirements, sites, hsites, rfl⟩ := h
  refine Outcome.bind_eq_ok_iff.mpr ⟨requirements, ofLines_of_documented hrequirements, ?_⟩
  exact Outcome.bind_eq_ok_iff.mpr ⟨sites, hsites, rfl⟩

theorem entities_of_buildTrait {d : TraitDeclaration} {t : Trait} {methods : List Item}
    (h : (buildTrait config d).outcome = .ok (t, methods)) :
    List.Forall₂ (fun part e => part.entity = .ok e) (Declaration.trait d).parts
      (.trait t :: methods.map .item) := by
  have hpaths := (buildTrait_spec h).2.2
  simp only [buildTrait, Traced.outcome_bind, Outcome.bind_eq_ok_iff, Traced.outcome_pure,
    Traced.outcome_mapM, Outcome.mapM_eq_ok_iff, Except.ok.injEq, Prod.mk.injEq] at h
  obtain ⟨-, -, invariant, hinvariant, built, hbuilt, rfl, rfl⟩ := h
  refine .cons ?_ ?_
  · have hsame : d.methods.map (fun m => Path.child d.path m.name) = built.map (·.path) :=
      map_eq_map_of_forall₂ (hpaths.imp fun _ _ hm => hm.1.symm)
    rw [← hsame]
    exact Outcome.bind_eq_ok_iff.mpr ⟨invariant, ofLines_of_documented hinvariant, rfl⟩
  · rw [List.forall₂_map_left_iff, List.forall₂_map_right_iff]
    exact hbuilt.imp fun _ _ => entity_of_buildTraitMethod

/-- A declaration is built into the entities of its parts. -/
theorem entities_of_buildEntities {d : Declaration} {es : List Entity}
    (h : (buildEntities config modules declarations d).outcome = .ok es) :
    List.Forall₂ (fun part e => part.entity = .ok e) d.parts es := by
  have hcases := (buildEntities_cases h).2
  cases d with
  | struct d =>
    obtain ⟨built, hbuilt, rfl⟩ := hcases
    exact .cons (entity_of_buildStruct hbuilt) .nil
  | enum d =>
    rw [hcases]
    exact .cons rfl .nil
  | trait d =>
    obtain ⟨t, methods, ht, rfl⟩ := hcases
    exact entities_of_buildTrait ht
  | impl d =>
    simp only [buildEntities, Traced.outcome_bind, Outcome.bind_eq_ok_iff, Traced.outcome_pure,
      Build.reading, Traced.outcome_lift, Outcome.mapError_eq_ok_iff, Except.ok.injEq] at h
    obtain ⟨-, -, justification, hjustification, rfl⟩ := h
    exact .cons (Outcome.bind_eq_ok_iff.mpr ⟨justification, hjustification, rfl⟩) .nil
  | function d =>
    obtain ⟨i, hi, rfl⟩ := hcases
    exact .cons (entity_of_buildFunction hi) .nil

/-- The declarations of a snapshot are built into the entities of their parts, one after the other. -/
theorem entities_of_built {built : List (List Entity)}
    (h : (declarations.mapM (buildEntities config modules s.items)).outcome = .ok built) :
    List.Forall₂ (fun part e => part.entity = .ok e) (declarations.flatMap Declaration.parts)
      built.flatten := by
  rw [Traced.outcome_mapM, Outcome.mapM_eq_ok_iff] at h
  rw [List.flatMap_def]
  refine List.rel_flatten ?_
  rw [List.forall₂_map_left_iff]
  exact h.imp fun _ _ => entities_of_buildEntities

/-- Which items are functions and which are methods of traits, and what they implement. -/
theorem item_of_entity {part : Part} {i : Item} (h : part.entity = .ok (.item i)) :
    i.path = part.path ∧
      ((∃ d, part = .whole (.function d) ∧ i.kind ≠ .traitMethod ∧ i.implements = d.implements) ∨
        ∃ d m, part = .method d m ∧ i.kind = .traitMethod ∧ i.implements = none) := by
  cases part with
  | method d m =>
    simp only [Part.entity, Outcome.bind_eq_ok_iff] at h
    obtain ⟨requirements, -, sites, -, hi⟩ := h
    cases hi
    exact ⟨rfl, .inr ⟨d, m, rfl, rfl, rfl⟩⟩
  | whole d =>
    cases d with
    | function d =>
      simp only [Part.entity, Outcome.bind_eq_ok_iff] at h
      obtain ⟨requirements, -, sites, -, hi⟩ := h
      cases hi
      refine ⟨rfl, .inl ⟨d, rfl, ?_, rfl⟩⟩
      cases d.kind <;> simp [ItemKind.ofFunction]
    | trait d =>
      simp only [Part.entity, Outcome.bind_eq_ok_iff] at h
      obtain ⟨invariant, -, hi⟩ := h
      cases hi
    | struct d =>
      simp only [Part.entity, Outcome.bind_eq_ok_iff] at h
      obtain ⟨stated, -, invariant, -, hi⟩ := h
      cases hi
    | enum d => cases h
    | impl d =>
      simp only [Part.entity, Outcome.bind_eq_ok_iff] at h
      obtain ⟨justification, -, hi⟩ := h
      cases hi

/-- Functions and methods of traits become items. -/
theorem exists_item_of_entity {part : Part} {e : Entity} (h : part.entity = .ok e)
    (hpart : (∃ d, part = .whole (.function d)) ∨ ∃ d m, part = .method d m) : ∃ i, e = .item i := by
  rcases hpart with ⟨d, rfl⟩ | ⟨d, m, rfl⟩
  all_goals
    simp only [Part.entity, Outcome.bind_eq_ok_iff] at h
    obtain ⟨requirements, -, sites, -, he⟩ := h
    cases he
    exact ⟨_, rfl⟩

end Entities

section Implementations

theorem whole_mem_parts {d : Declaration} :
    Part.whole d ∈ s.items.flatMap Declaration.parts ↔ d ∈ s.items := by
  rw [List.mem_flatMap]
  constructor
  · rintro ⟨d', hd', hmem⟩
    cases d' <;> simp [Declaration.parts] at hmem <;> rwa [hmem]
  · intro hd
    refine ⟨d, hd, ?_⟩
    cases d <;> simp [Declaration.parts]

theorem method_mem_parts {d : TraitDeclaration} {m : TraitMethodDeclaration} :
    Part.method d m ∈ s.items.flatMap Declaration.parts ↔ .trait d ∈ s.items ∧ m ∈ d.methods := by
  rw [List.mem_flatMap]
  constructor
  · rintro ⟨d', hd', hmem⟩
    cases d' with
    | trait t =>
      have hmethod : m ∈ t.methods ∧ t = d := by simpa [Declaration.parts] using hmem
      obtain ⟨hm, rfl⟩ := hmethod
      exact ⟨hd', hm⟩
    | function _ | struct _ | enum _ | impl _ => simp [Declaration.parts] at hmem
  · rintro ⟨hd, hm⟩
    exact ⟨.trait d, hd, List.mem_cons_of_mem _ (List.mem_map_of_mem hm)⟩

variable {entities : List Entity}

/-- The trait methods among the items are those of the declared traits. -/
theorem exists_traitMethod_iff {path : String}
    (h : List.Forall₂ (fun part e => part.entity = .ok e) (s.items.flatMap Declaration.parts) entities) :
    (∃ i ∈ entities.filterMap Entity.item?, i.path = path ∧ i.kind = .traitMethod) ↔
      s.HasTraitMethod path := by
  simp only [List.mem_filterMap, Entity.item?_eq_some_iff, exists_eq_right]
  constructor
  · rintro ⟨i, hi, rfl, hkind⟩
    obtain ⟨part, hmem, hentity⟩ := exists_left_of_forall₂ h hi
    obtain ⟨hpath, ⟨d, -, hfree, -⟩ | ⟨d, m, rfl, -, -⟩⟩ := item_of_entity hentity
    · exact absurd hkind hfree
    · obtain ⟨hd, hm⟩ := method_mem_parts.mp hmem
      exact ⟨d, hd, m, hm, hpath.symm⟩
  · rintro ⟨d, hd, m, hm, rfl⟩
    obtain ⟨e, he, hentity⟩ := exists_right_of_forall₂ h (method_mem_parts.mpr ⟨hd, hm⟩)
    obtain ⟨i, rfl⟩ := exists_item_of_entity hentity (.inr ⟨d, m, rfl⟩)
    obtain ⟨hpath, ⟨d', hpart, -⟩ | ⟨d', m', -, hkind, -⟩⟩ := item_of_entity hentity
    · cases hpart
    · exact ⟨i, he, hpath, hkind⟩

theorem judges_requireImplemented (items : List Item) (i : Item) :
    (requireImplemented items i).Judges (∀ path, i.implements? = some path →
      ∃ x ∈ items, x.path = path ∧ x.kind = .traitMethod) := by
  unfold requireImplemented
  split
  case h_1 hnone => exact (Build.Judges.done ()).congr (by simp [hnone])
  case h_2 method hmethod => exact (Build.Judges.require _ _).congr (by simp [hmethod])

/-- The last pass accepts the items exactly if declared functions implement methods of declared traits. -/
theorem implemented_iff
    (h : List.Forall₂ (fun part e => part.entity = .ok e) (s.items.flatMap Declaration.parts) entities) :
    (∀ i ∈ entities.filterMap Entity.item?, ∀ path, i.implements? = some path →
        ∃ x ∈ entities.filterMap Entity.item?, x.path = path ∧ x.kind = .traitMethod) ↔
      ∀ d, .function d ∈ s.items → ∀ path, d.implements = some path → path ≠ "" →
        s.HasTraitMethod path := by
  simp only [exists_traitMethod_iff h]
  simp only [Item.implements?, Path.given?_eq_some_iff, List.mem_filterMap, Entity.item?_eq_some_iff,
    exists_eq_right, and_imp]
  constructor
  · intro hall d hd path himplements hne
    obtain ⟨e, he, hentity⟩ := exists_right_of_forall₂ h (whole_mem_parts.mpr hd)
    obtain ⟨i, rfl⟩ := exists_item_of_entity hentity (.inl ⟨d, rfl⟩)
    obtain ⟨-, ⟨d', hpart, -, hsame⟩ | ⟨d', m', hpart, -⟩⟩ := item_of_entity hentity
    · cases hpart
      exact hall i he path (hsame.trans himplements) hne
    · cases hpart
  · intro hall i hi path himplements hne
    obtain ⟨part, hmem, hentity⟩ := exists_left_of_forall₂ h hi
    obtain ⟨-, ⟨d, rfl, -, hsame⟩ | ⟨d, m, -, -, hnone⟩⟩ := item_of_entity hentity
    · exact hall d (whole_mem_parts.mp hmem) path (hsame.symm.trans himplements) hne
    · rw [hnone] at himplements
      cases himplements

end Implementations

section Build

theorem judges_requireDistinct (declarations : List Declaration) :
    (requireDistinct declarations).Judges
      ((declarations.flatMap Declaration.parts).map Part.path).Nodup := by
  have hpaths : (declarations.flatMap Declaration.parts).map Part.path =
      declarations.flatMap declaredPaths := by
    simp only [List.map_flatMap, Declaration.path_parts]
  rw [hpaths]
  unfold requireDistinct
  split
  case h_1 path hrepeated =>
    refine (Build.Judges.require false (.duplicatePath path)).congr (iff_of_false Bool.false_ne_true ?_)
    intro hnodup
    rw [firstRepeated_eq_none_iff.mpr ⟨hnodup, fun _ _ => List.not_mem_nil⟩] at hrepeated
    cases hrepeated
  case h_2 hnone =>
    exact (Build.Judges.done ()).congr (iff_of_true trivial (firstRepeated_eq_none_iff.mp hnone).1)

/-- The structure of a snapshot, check by check. -/
theorem structured_iff : s.Structured ↔
    Registrable [rootModule] (beneathRoot s.modules) ∧
      ((s.items.flatMap Declaration.parts).map Part.path).Nodup ∧
        (∀ d ∈ s.items, s.HasModule d.module ∧ Fits s d) ∧
          ∀ d, .function d ∈ s.items → ∀ path, d.implements = some path → path ≠ "" →
            s.HasTraitMethod path := by
  rw [registrable_iff]
  constructor
  · intro h
    have hmodules : ∀ m ∈ s.modules, m.path ≠ Path.crateRoot →
        Path.within m.path Path.crateRoot = true ∧ s.HasModule (Path.parentOrRoot m.path) ∧
          m.visibility.NamesAncestor (Path.parentOrRoot m.path) :=
      fun m hm hroot => ⟨h.within m hm hroot, h.parent m hm hroot, h.ancestor m hm hroot⟩
    have hfits : ∀ d ∈ s.items, s.HasModule d.module ∧ Fits s d := by
      intro d hd
      refine ⟨h.module d hd, h.target d hd, ?_, ?_⟩
      · rintro f rfl
        exact h.owner f hd
      · rintro f rfl
        exact h.owned f hd
    exact ⟨⟨h.once, hmodules⟩, h.distinct, hfits, h.implements⟩
  · rintro ⟨⟨honce, hmodules⟩, hdistinct, hfits, himplements⟩
    constructor
    case within => exact fun m hm hroot => (hmodules m hm hroot).1
    case once => exact honce
    case parent => exact fun m hm hroot => (hmodules m hm hroot).2.1
    case ancestor => exact fun m hm hroot => (hmodules m hm hroot).2.2
    case target => exact fun d hd => (hfits d hd).2.target
    case distinct => exact hdistinct
    case module => exact fun d hd => (hfits d hd).1
    case owner => exact fun d hd => (hfits _ hd).2.owner d rfl
    case owned => exact fun d hd => (hfits _ hd).2.owned d rfl
    case implements => exact himplements

/-- Where requirements are not strict, a build judges the structure of its snapshot. -/
theorem judges_build (hlenient : config.strictRequirements = false) (s : Snapshot) :
    (build config s).Judges s.Structured := by
  have hparts : (buildParts config s).Judges s.Structured := by
    refine Build.Judges.congr ?_ structured_iff.symm
    refine (judges_registerModules _).bind fun modules hmodules => ?_
    refine (judges_requireDistinct _).bind fun _ _ => ?_
    refine (Build.Judges.mapM fun d _ => judges_buildEntities hlenient hmodules d).bind
      fun built hbuilt => ?_
    rw [List.forM_eq_forM]
    -- what the items implement is settled by the declarations that were built
    have hitems := (Build.Judges.forM fun i _ => judges_requireImplemented
      (built.flatten.filterMap Entity.item?) i).congr (implemented_iff (entities_of_built hbuilt))
    exact hitems.before fun _ => .done _
  constructor
  · intro m hm
    obtain ⟨parts, hp, -⟩ := Outcome.map_eq_ok_iff.mp hm
    exact hparts.accepts parts hp
  · intro e he
    refine hparts.rejects e ?_
    cases hp : (buildParts config s).outcome with
    | ok parts => simp [build, hp, Except.map] at he
    | error error => simpa [build, hp, Except.map] using he

theorem entities_of_build {m : Model} (h : (build config s).outcome = .ok m) :
    List.Forall₂ (fun part e => part.entity = .ok e) (s.items.flatMap Declaration.parts) m.entities := by
  obtain ⟨built, hbuilt⟩ := builtFrom_of_build h
  have houtcome : (s.items.mapM (buildEntities config m.modules s.items)).outcome = .ok built := by
    rw [Traced.outcome_mapM]
    exact Outcome.mapM_eq_ok_iff.mpr hbuilt.declarations
  rw [hbuilt.entities]
  exact entities_of_built houtcome

/-- The order numbers of a model count the parts of its snapshot. -/
theorem declarationOrder_of_build {m : Model} (h : (build config s).outcome = .ok m) :
    m.declarationOrder =
      (s.items.flatMap Declaration.parts).mapIdx fun n part => (part.path, (n : Int)) := by
  obtain ⟨built, hbuilt⟩ := builtFrom_of_build h
  have hpaths : m.entities.map Entity.path = (s.items.flatMap Declaration.parts).map Part.path := by
    rw [hbuilt.entities, paths_of_built hbuilt.declarations, List.map_flatMap]
    simp only [Declaration.path_parts]
  have hnumbered := congrArg (List.mapIdx fun n path => (path, (n : Int))) hpaths
  simpa only [declarationOrder, List.mapIdx_eq_zipIdx_map, List.zipIdx_map, List.map_map,
    Function.comp_def, Prod.map, id] using hnumbered

end Build

end Model

/-- Where requirements are not strict and every text can be read, the build has a structural fault exactly if
the snapshot has no structure. Otherwise its model has one entity for each declared item and for each method
of a trait, numbered in the order of declaration with the methods right after their trait. The structure, and
with it the verdict, is the same for any order of the declarations. -/
theorem build_fails_iff_not_structured {config : Config} {s : Snapshot}
    (hlenient : config.strictRequirements = false)
    (hread : ∀ e, (Model.build config s).outcome ≠ .error (.predicate e)) :
    ((∃ e, (Model.build config s).outcome = .error (.structural e)) ↔ ¬ s.Structured) ∧
      (s.Structured → ∃ m, (Model.build config s).outcome = .ok m ∧
        (s.items.flatMap Declaration.parts).mapM Part.entity = .ok m.entities ∧
        m.declarationOrder =
          (s.items.flatMap Declaration.parts).mapIdx fun n part => (part.path, (n : Int))) ∧
      ∀ s' : Snapshot, s.modules.Perm s'.modules → s.items.Perm s'.items →
        (s'.Structured ↔ s.Structured) := by
  have hjudges := Model.judges_build hlenient s
  have hfault : ∀ e, (Model.build config s).outcome = .error e →
      (∃ fault, e = .structural fault) ∧ ¬ s.Structured := by
    intro e he
    rcases hjudges.rejects e he with ⟨fault, rfl⟩ | h
    · exact absurd he (hread fault)
    · exact h
  refine ⟨⟨fun ⟨e, he⟩ => (hfault _ he).2, fun hnot => ?_⟩, fun hstructured => ?_,
    fun s' => Snapshot.structured_perm_iff⟩
  · cases houtcome : (Model.build config s).outcome with
    | ok m => exact absurd (hjudges.accepts m houtcome) hnot
    | error e =>
      obtain ⟨⟨fault, rfl⟩, -⟩ := hfault e houtcome
      exact ⟨fault, rfl⟩
  · cases houtcome : (Model.build config s).outcome with
    | ok m =>
      exact ⟨m, rfl, Outcome.mapM_eq_ok_iff.mpr (Model.entities_of_build houtcome),
        Model.declarationOrder_of_build houtcome⟩
    | error e => exact absurd hstructured (hfault e houtcome).2

/-- A module before its parent, a method before its owner and before the trait method that it implements. -/
def forwardCell : Snapshot :=
  { name := "demo"
    modules := [⟨"crate::store::cell", {}⟩, ⟨"crate::store", ⟨.ancestor, some "crate"⟩⟩]
    items := [
      .function {
        kind := .method, path := "crate::store::cell::Cell::get", module := "crate::store::cell",
        params := ["i"], owner := some "crate::store::cell::Cell", implements := some "crate::Read::get" },
      .trait { path := "crate::Read", methods := [{ name := "get", params := ["i"] }, { name := "size" }] },
      .struct {
        path := "crate::store::cell::Cell", module := "crate::store::cell",
        fields := [⟨"len", ⟨.ancestor, some "crate::store"⟩⟩], invariant := ["len <= 8"] }] }

theorem forwardCell_builds :
    (∀ e, (Model.build {} forwardCell).outcome ≠ .error (.predicate e)) ∧ forwardCell.Structured ∧
      ∃ m, (Model.build {} forwardCell).outcome = .ok m ∧ m.declarationOrder =
        [("crate::store::cell::Cell::get", 0), ("crate::Read", 1), ("crate::Read::get", 2),
          ("crate::Read::size", 3), ("crate::store::cell::Cell", 4)] := by
  have hok : (Model.build {} forwardCell).outcome.toOption.isSome = true := by decide +kernel
  have hfails : ∀ e, (Model.build {} forwardCell).outcome ≠ .error e := by
    intro e he
    rw [he] at hok
    cases hok
  have hbuild := @build_fails_iff_not_structured {} forwardCell rfl fun e => hfails (.predicate e)
  have hstructured : forwardCell.Structured := by
    by_contra hnot
    obtain ⟨e, he⟩ := hbuild.1.mpr hnot
    exact hfails _ he
  obtain ⟨m, hm, -, horder⟩ := hbuild.2.1 hstructured
  exact ⟨fun e => hfails (.predicate e), hstructured, m, hm, horder.trans (by decide +kernel)⟩

/-- One function, in a crate whose root is declared with a marker. -/
def loneFunction (root : Visibility) (owner implements : Option String) : Snapshot :=
  { name := "demo", modules := [⟨"crate", root⟩],
    items := [.function { path := "crate::f", owner := owner, implements := implements }] }

/-- A method of a struct with an empty path. -/
def namelessOwner : Snapshot :=
  { name := "demo", items := [.struct { path := "" },
      .function { kind := .method, path := "crate::get", owner := some "" }] }

/-- An implemented method and an owner with an empty path need not be declared, nor does the marker of the root
matter; and a declared owner with an empty path is none. -/
theorem blank_references_unchecked :
    ((∃ m, (Model.build {} (loneFunction {} none (some ""))).outcome = .ok m) ∧
        ¬ (loneFunction {} none (some "")).HasTraitMethod "") ∧
      ((∃ m, (Model.build {} (loneFunction {} (some "") none)).outcome = .ok m) ∧
        ¬ (loneFunction {} (some "") none).HasType "") ∧
      ((∃ m, (Model.build {} (loneFunction ⟨.ancestor, some "other"⟩ none none)).outcome = .ok m) ∧
        ¬ (⟨.ancestor, some "other"⟩ : Visibility).NamesAncestor (Path.parentOrRoot Path.crateRoot)) ∧
      (∃ e, (Model.build {} namelessOwner).outcome = .error (.structural e)) ∧
        namelessOwner.HasType "" := by
  refine ⟨⟨⟨_, rfl⟩, ?_⟩, ⟨⟨_, rfl⟩, ?_⟩, ⟨⟨_, rfl⟩, ?_⟩, ⟨_, rfl⟩, ?_⟩
  · simp [Snapshot.HasTraitMethod, loneFunction]
  · simp [Snapshot.HasType, loneFunction]
  · unfold Visibility.NamesAncestor
    decide +kernel
  · exact .inl ⟨_, List.mem_cons_self, rfl⟩

end CrateSafety
