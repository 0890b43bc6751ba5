import CrateSafety.Proofs.ModuleRegistration

/-!
# Models from their parts

What a snapshot needs in order to have a model, part by part, and which model it has then: the registered
modules, the entities of its declarations one after the other, and the issues that each declaration left.
The issues of a declaration are about the paths that it brings in.
-/

namespace CrateSafety

namespace Traced

variable {ν ε α β : Type}

theorem done_bind (a : α) (f : α → Traced ν ε β) : (done a >>= f) = f a := rfl

theorem ok_bind (notes : List ν) (a : α) (f : α → Traced ν ε β) :
    ((⟨notes, .ok a⟩ : Traced ν ε α) >>= f) = ⟨notes ++ (f a).notes, (f a).outcome⟩ := rfl

/-- A traversal whose entries all succeed leaves their notes one after the other. -/
theorem mapM_eq_ok {f : α → Traced ν ε β} {value : α → β} {l : List α}
    (h : ∀ a ∈ l, (f a).outcome = .ok (value a)) :
    l.mapM f = ⟨l.flatMap fun a => (f a).notes, .ok (l.map value)⟩ := by
  induction l with
  | nil => rfl
  | cons a l ih =>
    obtain ⟨ha, hl⟩ := List.forall_mem_cons.mp h
    rw [List.mapM_cons, ih hl]
    simp only [Bind.bind, andThen, ha]
    simp [pure, done]

theorem forM_eq_done {f : α → Traced ν ε Unit} {l : List α} (h : ∀ a ∈ l, f a = done ()) :
    forM l f = done () := by
  induction l with
  | nil => rfl
  | cons a l ih =>
    obtain ⟨ha, hl⟩ := List.forall_mem_cons.mp h
    rw [List.forM_cons, ha, done_bind, ih hl]

end Traced

/-- Every note of a computation passes a test. -/
def Traced.NotesPass {ν ε α : Type} (p : ν → Prop) (x : Traced ν ε α) : Prop := ∀ n ∈ x.notes, p n

namespace Traced.NotesPass

variable {ν ε ε' α β : Type} {p : ν → Prop}

theorem done (a : α) : NotesPass p (done a : Traced ν ε α) := by
  simp [NotesPass, Traced.done]

theorem imp {q : ν → Prop} {x : Traced ν ε α} (hx : NotesPass p x) (h : ∀ n, p n → q n) :
    NotesPass q x :=
  fun n hn => h n (hx n hn)

theorem bind {x : Traced ν ε α} {f : α → Traced ν ε β} (hx : NotesPass p x)
    (hf : ∀ a, NotesPass p (f a)) : NotesPass p (x >>= f) := by
  intro n hn
  simp only [Bind.bind, andThen] at hn
  split at hn
  case h_1 a _ =>
    rcases List.mem_append.mp hn with hn | hn
    · exact hx n hn
    · exact hf a n hn
  case h_2 => exact hx n hn

theorem lift (rename : ε' → ε) (x : Except ε' α) : NotesPass p (lift rename x : Traced ν ε α) := by
  cases x <;> simp [NotesPass, Traced.lift, Traced.done, Traced.fail]

theorem mapM {f : α → Traced ν ε β} {l : List α} (h : ∀ a ∈ l, NotesPass p (f a)) :
    NotesPass p (l.mapM f) := by
  induction l with
  | nil => exact done []
  | cons a l ih =>
    obtain ⟨ha, hl⟩ := List.forall_mem_cons.mp h
    rw [List.mapM_cons]
    exact ha.bind fun b => (ih hl).bind fun bs => done (b :: bs)

theorem forM {f : α → Traced ν ε Unit} {l : List α} (h : ∀ a ∈ l, NotesPass p (f a)) :
    NotesPass p (forM l f) := by
  induction l with
  | nil => exact done ()
  | cons a l ih =>
    obtain ⟨ha, hl⟩ := List.forall_mem_cons.mp h
    rw [List.forM_cons]
    exact ha.bind fun _ => ih hl

end Traced.NotesPass

namespace Model

variable {config : Config}

section Notes

theorem notesPass_require {p : Issue → Prop} (holds : Bool) (error : ModelError) :
    (Build.require holds error).NotesPass p := by
  cases holds <;> simp [Traced.NotesPass, Build.require, Traced.done, Traced.fail]

/-- The issues of documented lines are about the path of their declaration. -/
theorem notesPass_documented {p : Issue → Prop} {path : String} {rule : Rule} {visible : List String}
    {members : Option (List String)} {lines : List String} (hp : ∀ issue, issue.path = path → p issue) :
    (documented config path rule visible members lines).NotesPass p := by
  refine (Traced.NotesPass.lift _ _).bind fun condition => ?_
  refine Traced.NotesPass.bind ?_ fun _ => .done condition
  intro issue hissue
  have hmem : issue ∈ issuesOf config path rule visible members condition.atoms := by
    unfold Build.report at hissue
    split at hissue
    · cases hissue
    · cases hissue
    · exact hissue
  obtain ⟨a, -, ha⟩ := List.mem_filterMap.mp hmem
  dsimp only at ha
  split at ha
  · cases ha
  · cases ha
    exact hp _ rfl

theorem notesPass_body {p : Issue → Prop} (operations : List Operation) : (body operations).NotesPass p :=
  .lift _ _

theorem notesPass_buildStruct (d : StructDeclaration) :
    (buildStruct config d).NotesPass fun issue => issue.path = d.path := by
  refine (notesPass_require _ _).bind fun _ => ?_
  have hfields : (d.fields.forM fun f => f.visibility.require d.module (Path.child d.path f.name)).NotesPass
      fun issue : Issue => issue.path = d.path := by
    rw [List.forM_eq_forM]
    exact .forM fun f _ => notesPass_require _ _
  refine hfields.bind fun _ => ?_
  refine (notesPass_documented fun _ h => h).bind fun _ => ?_
  exact (Traced.NotesPass.lift _ _).bind fun _ => .done _

theorem notesPass_buildFunction {declarations : List Declaration} (d : FunctionDeclaration) :
    (buildFunction config declarations d).NotesPass fun issue => issue.path = d.path := by
  refine (notesPass_require _ _).bind fun _ => ?_
  refine (notesPass_require _ _).bind fun _ => ?_
  refine (notesPass_require _ _).bind fun _ => ?_
  refine (notesPass_documented fun _ h => h).bind fun _ => ?_
  exact (notesPass_body _).bind fun _ => .done _

theorem notesPass_buildTrait (d : TraitDeclaration) :
    (buildTrait config d).NotesPass fun issue => issue.path ∈ declaredPaths (.trait d) := by
  refine (notesPass_require _ _).bind fun _ => ?_
  refine (notesPass_documented fun issue h => ?_).bind fun _ => ?_
  · rw [declaredPaths, h]
    exact List.mem_cons_self
  have hmethods : (d.methods.mapM (buildTraitMethod config d)).NotesPass
      fun issue => issue.path ∈ declaredPaths (.trait d) := by
    refine .mapM fun method hmethod => ?_
    refine (notesPass_documented fun issue h => ?_).bind fun _ => (notesPass_body _).bind fun _ => .done _
    rw [declaredPaths, h]
    exact List.mem_cons_of_mem _ (List.mem_map.mpr ⟨method, hmethod, rfl⟩)
  exact hmethods.bind fun _ => .done _

/-- The issues of a declaration are about the paths that it brings in. -/
theorem notesPass_buildEntities {modules : List Module} {declarations : List Declaration}
    (d : Declaration) :
    (buildEntities config modules declarations d).NotesPass fun issue =>
      issue.path ∈ declaredPaths d := by
  refine (notesPass_require _ _).bind fun _ => ?_
  cases d with
  | struct d =>
    refine ((notesPass_buildStruct d).imp fun issue h => ?_).bind fun _ => .done _
    exact List.mem_singleton.mpr h
  | enum d => exact (notesPass_require _ _).bind fun _ => .done _
  | impl d => exact (Traced.NotesPass.lift _ _).bind fun _ => .done _
  | function d =>
    refine ((notesPass_buildFunction d).imp fun issue h => ?_).bind fun _ => .done _
    exact List.mem_singleton.mpr h
  | trait d => exact (notesPass_buildTrait d).bind fun _ => .done _

end Notes

section Assembly

variable {s : Snapshot} {modules : List Module}

/-- The entities of a declaration; none where it cannot be built. -/
def entitiesOf (config : Config) (modules : List Module) (declarations : List Declaration)
    (d : Declaration) : List Entity :=
  (buildEntities config modules declarations d).outcome.toOption.getD []

/-- The model that the parts of a snapshot make up. -/
def assemble (config : Config) (s : Snapshot) (modules : List Module) : Model :=
  { crate := s.name, modules := modules,
    entities := s.items.flatMap (entitiesOf config modules s.items),
    issues := s.items.flatMap fun d => (buildEntities config modules s.items d).notes }

/-- What a snapshot needs in order to have a model with the given modules. -/
structure Buildable (config : Config) (s : Snapshot) (modules : List Module) : Prop where
  /-- The modules can be registered. -/
  registered : registerModules s.modules = .done modules
  /-- No path is declared twice. -/
  distinct : (s.items.flatMap declaredPaths).Nodup
  /-- Every declaration has its entities. -/
  entities : ∀ d ∈ s.items, (buildEntities config modules s.items d).outcome =
    .ok (entitiesOf config modules s.items d)
  /-- Implemented trait methods are declared. -/
  implemented : ∀ i ∈ (assemble config s modules).items,
    requireImplemented (assemble config s modules).items i = .done ()

theorem requireImplemented_of_ok {items : List Item} {i : Item} {u : Unit}
    (h : (requireImplemented items i).outcome = .ok u) : requireImplemented items i = .done () := by
  unfold requireImplemented at h ⊢
  split
  · rfl
  case h_2 method hmethod =>
    simp only [hmethod, Build.outcome_require_eq_ok_iff] at h
    rw [h]
    rfl

theorem requireDistinct_of_nodup {declarations : List Declaration}
    (h : (declarations.flatMap declaredPaths).Nodup) : requireDistinct declarations = .done () := by
  have hnone : firstRepeated [] (declarations.flatMap declaredPaths) = none :=
    firstRepeated_eq_none_iff.mpr ⟨h, fun _ _ => List.not_mem_nil⟩
  rw [requireDistinct, hnone]

/-- A snapshot that meets the needs has the model of its parts. -/
theorem build_of_buildable (h : Buildable config s modules) :
    (build config s).outcome = .ok (assemble config s modules) := by
  have hitems : forM (assemble config s modules).items
      (requireImplemented (assemble config s modules).items) = .done () :=
    Traced.forM_eq_done h.implemented
  have hparts : buildParts config s =
      ⟨(assemble config s modules).issues, .ok (modules, (assemble config s modules).entities)⟩ := by
    unfold buildParts
    rw [h.registered, Traced.done_bind, requireDistinct_of_nodup h.distinct, Traced.done_bind,
      Traced.mapM_eq_ok h.entities, Traced.ok_bind]
    simp only [items, assemble] at hitems
    simp only [List.forM_eq_forM, ← List.flatMap_def, hitems, Traced.done_bind]
    exact congrArg (Traced.mk · _) (List.append_nil _)
  rw [build, hparts]
  rfl

/-- A model that is built is that of the parts of its snapshot. -/
theorem buildable_of_build {m : Model} (h : (build config s).outcome = .ok m) :
    ∃ modules, Buildable config s modules ∧ m = assemble config s modules := by
  obtain ⟨built, hbuilt⟩ := builtFrom_of_build h
  have hentities : ∀ d es, (buildEntities config m.modules s.items d).outcome = .ok es →
      entitiesOf config m.modules s.items d = es := by
    intro d es hes
    rw [entitiesOf, hes]
    rfl
  have hflat : (assemble config s m.modules).entities = m.entities := by
    have hmap : s.items.map (entitiesOf config m.modules s.items) = built.map id :=
      map_eq_map_of_forall₂ (hbuilt.declarations.imp fun d es => hentities d es)
    rw [assemble, List.flatMap_def, hmap, List.map_id, hbuilt.entities]
  have hparts : Buildable config s m.modules := by
    constructor
    case registered =>
      have hmodules := hbuilt.modules
      obtain ⟨modules', hdone, -⟩ :=
        registerModules_of_registrable (registrable_of_registerModules hmodules)
      rw [hdone] at hmodules
      rw [hdone, Except.ok.inj hmodules]
    case distinct => exact hbuilt.distinct
    case entities =>
      intro d hd
      obtain ⟨es, -, hes⟩ := exists_right_of_forall₂ hbuilt.declarations hd
      rw [hes, hentities d es hes]
    case implemented =>
      rw [items, hflat]
      exact fun i hi => requireImplemented_of_ok (hbuilt.implemented i hi)
  refine ⟨m.modules, hparts, ?_⟩
  rw [build_of_buildable hparts] at h
  exact (Except.ok.inj h).symm

end Assembly

end Model

end CrateSafety
