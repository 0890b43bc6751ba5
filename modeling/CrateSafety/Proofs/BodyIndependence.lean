import CrateSafety.Proofs.Interface

/-!
# Independence of other bodies

Checking is modular: verdicts rest on declared contracts. Leaving the body of one item out of a snapshot
leaves it out of the model and changes nothing else there, so two snapshots that differ in that body alone
have models of one interface, and every other entity is reported alike.
-/

namespace CrateSafety

/-- Where one computation succeeds, another leaves the same notes and succeeds with the image of its value. -/
def Traced.Follows {ν ε α β : Type} (f : α → β) (x : Traced ν ε α) (y : Traced ν ε β) : Prop :=
  ∀ a, x.outcome = .ok a → y = ⟨x.notes, .ok (f a)⟩

namespace Traced.Follows

variable {ν ε α β γ δ : Type} {f : α → β} {x : Traced ν ε α} {y : Traced ν ε β}

theorem refl (x : Traced ν ε α) : Follows id x x := by
  rcases x with ⟨notes, outcome⟩
  rintro a rfl
  rfl

theorem pure (f : α → β) (a : α) : Follows f (pure a : Traced ν ε α) (pure (f a)) := by
  intro b hb
  cases hb
  rfl

theorem congr {g : α → β} (h : Follows f x y) (heq : ∀ a, x.outcome = .ok a → f a = g a) :
    Follows g x y := by
  intro a ha
  rw [← heq a ha]
  exact h a ha

/-- Compositions follow each other where their parts do. -/
theorem bind {g : γ → δ} {k : α → Traced ν ε γ} {k' : β → Traced ν ε δ} (hx : Follows f x y)
    (hk : ∀ a, x.outcome = .ok a → Follows g (k a) (k' (f a))) : Follows g (x >>= k) (y >>= k') := by
  intro c hc
  rw [outcome_bind] at hc
  obtain ⟨a, ha, hc⟩ := Outcome.bind_eq_ok_iff.mp hc
  rcases x with ⟨notes, outcome⟩
  cases ha
  simp only [Bind.bind, andThen, hx a rfl, hk a rfl c hc]

theorem mapM {φ : α → γ} {g : β → δ} {k : α → Traced ν ε β} {k' : γ → Traced ν ε δ} {l : List α}
    (h : ∀ a ∈ l, Follows g (k a) (k' (φ a))) :
    Follows (List.map g) (l.mapM k) ((l.map φ).mapM k') := by
  induction l with
  | nil => exact pure _ _
  | cons a l ih =>
    obtain ⟨ha, hl⟩ := List.forall_mem_cons.mp h
    rw [List.map_cons, List.mapM_cons, List.mapM_cons]
    exact ha.bind fun b _ => (ih hl).bind fun bs _ => pure (List.map g) (b :: bs)

theorem forM {φ : α → β} {k : α → Traced ν ε Unit} {k' : β → Traced ν ε Unit} {l : List α}
    (h : ∀ a ∈ l, Follows id (k a) (k' (φ a))) :
    Follows id (forM l k) (forM (l.map φ) k') := by
  induction l with
  | nil => exact pure _ _
  | cons a l ih =>
    obtain ⟨ha, hl⟩ := List.forall_mem_cons.mp h
    rw [List.map_cons, List.forM_cons, List.forM_cons]
    exact ha.bind fun _ _ => ih hl

end Traced.Follows

section WithoutBody

/-- A function without its body, if it has the path. -/
def FunctionDeclaration.withoutBody (path : String) (d : FunctionDeclaration) : FunctionDeclaration :=
  if d.path = path then { d with body := [] } else d

/-- A method of a trait without its body, if it has the path. -/
def TraitMethodDeclaration.withoutBody (path trait : String) (m : TraitMethodDeclaration) :
    TraitMethodDeclaration :=
  if Path.child trait m.name = path then { m with body := [] } else m

/-- A trait without the body of the method of a path. -/
def TraitDeclaration.withoutBody (path : String) (d : TraitDeclaration) : TraitDeclaration :=
  { d with methods := d.methods.map (TraitMethodDeclaration.withoutBody path d.path) }

/-- A declaration without the body of the item of a path. -/
def Declaration.withoutBody (path : String) : Declaration → Declaration
  | function d => function (d.withoutBody path)
  | trait d => trait (d.withoutBody path)
  | d => d

/-- A snapshot without the body of the item of a path. -/
def Snapshot.withoutBody (s : Snapshot) (path : String) : Snapshot :=
  { s with items := s.items.map (Declaration.withoutBody path) }

/-- An item without its body, if it has the path. -/
def Item.withoutBody (path : String) (i : Item) : Item :=
  if i.path = path then i.header else i

/-- An entity without its body, if it has the path. -/
def Entity.withoutBody (path : String) : Entity → Entity
  | item i => item (i.withoutBody path)
  | e => e

/-- A model without the body of the item of a path. -/
def Model.withoutBody (m : Model) (path : String) : Model :=
  { m with entities := m.entities.map (Entity.withoutBody path) }

@[simp] theorem Item.path_withoutBody (path : String) (i : Item) :
    (i.withoutBody path).path = i.path := by
  unfold withoutBody
  split <;> rfl

@[simp] theorem Item.header_withoutBody (path : String) (i : Item) :
    (i.withoutBody path).header = i.header := by
  unfold withoutBody
  split <;> rfl

@[simp] theorem Entity.path_withoutBody (path : String) (e : Entity) :
    (e.withoutBody path).path = e.path := by
  cases e with
  | item i => exact i.path_withoutBody path
  | _ => rfl

@[simp] theorem Entity.header_withoutBody (path : String) (e : Entity) :
    (e.withoutBody path).header = e.header := by
  cases e with
  | item i => exact congrArg Entity.item (i.header_withoutBody path)
  | _ => rfl

theorem Entity.withoutBody_of_ne {path : String} {e : Entity} (h : e.path ≠ path) :
    e.withoutBody path = e := by
  cases e with
  | item i => exact congrArg Entity.item (if_neg h)
  | _ => rfl

end WithoutBody

namespace Model

variable {config : Config} {path : String}

section Declarations

variable {declarations : List Declaration}

theorem declaredPaths_withoutBody (d : Declaration) :
    declaredPaths (d.withoutBody path) = declaredPaths d := by
  cases d with
  | function d =>
    rw [Declaration.withoutBody, FunctionDeclaration.withoutBody]
    split <;> rfl
  | trait d =>
    have hname : ∀ m : TraitMethodDeclaration, (m.withoutBody path d.path).name = m.name := by
      intro m
      unfold TraitMethodDeclaration.withoutBody
      split <;> rfl
    simp only [Declaration.withoutBody, TraitDeclaration.withoutBody, declaredPaths, List.map_map]
    congr 2
    funext m
    exact congrArg (Path.child d.path) (hname m)
  | _ => rfl

theorem isOwner_withoutBody :
    isOwner (declarations.map (Declaration.withoutBody path)) = isOwner declarations := by
  funext owner
  rw [isOwner, isOwner, List.any_map]
  congr 1
  funext d
  cases d <;> rfl

theorem membersOf_withoutBody :
    membersOf (declarations.map (Declaration.withoutBody path)) = membersOf declarations := by
  funext owner
  unfold membersOf
  rw [List.findSome?_map]
  congr 1
  funext d
  cases d with
  | struct d =>
    simp only [Function.comp, Declaration.withoutBody, List.filterMap_map]
    congr 4
    funext d
    cases d with
    | function d =>
      simp only [Function.comp, Declaration.withoutBody, FunctionDeclaration.withoutBody]
      split <;> rfl
    | _ => rfl
  | _ => rfl

end Declarations

section Build

variable {declarations : List Declaration} {modules : List Module}

/-- A body that can be read leaves no notes, and neither does an empty one. -/
theorem follows_body (operations : List Operation) :
    Traced.Follows (fun _ => []) (body operations) (body []) := by
  intro sites h
  unfold body Build.reading at h ⊢
  cases hread : operations.mapM site with
  | error e =>
    rw [hread] at h
    cases h
  | ok sites' => rfl

/-- The item of a path without its body, where only the last part of a build reads the body. -/
theorem follows_pure_withoutBody {i : Item} (hp : i.path = path) :
    Traced.Follows (Item.withoutBody path) (pure i : Build Item) (pure i.header) := by
  have h : Traced.Follows (Item.withoutBody path) (pure i : Build Item) (pure (i.withoutBody path)) :=
    .pure _ i
  rw [Item.withoutBody, if_pos hp] at h
  exact h

theorem follows_buildFunction (d : FunctionDeclaration) :
    Traced.Follows (Item.withoutBody path) (buildFunction config declarations d)
      (buildFunction config declarations (d.withoutBody path)) := by
  by_cases hp : d.path = path
  · rw [FunctionDeclaration.withoutBody, if_pos hp]
    unfold buildFunction
    refine (Traced.Follows.refl _).bind fun _ _ => ?_
    refine (Traced.Follows.refl _).bind fun _ _ => ?_
    refine (Traced.Follows.refl _).bind fun _ _ => ?_
    refine (Traced.Follows.refl _).bind fun requirements _ => ?_
    exact (follows_body d.body).bind fun sites _ => follows_pure_withoutBody hp
  · rw [FunctionDeclaration.withoutBody, if_neg hp]
    refine (Traced.Follows.refl _).congr fun i hi => ?_
    have hpath : i.path = d.path := (buildFunction_spec hi).1
    rw [id, Item.withoutBody, if_neg (hpath ▸ hp)]

theorem follows_buildTraitMethod (d : TraitDeclaration) (method : TraitMethodDeclaration) :
    Traced.Follows (Item.withoutBody path) (buildTraitMethod config d method)
      (buildTraitMethod config d (method.withoutBody path d.path)) := by
  by_cases hp : Path.child d.path method.name = path
  · rw [TraitMethodDeclaration.withoutBody, if_pos hp]
    unfold buildTraitMethod
    refine (Traced.Follows.refl _).bind fun requirements _ => ?_
    exact (follows_body method.body).bind fun sites _ => follows_pure_withoutBody hp
  · rw [TraitMethodDeclaration.withoutBody, if_neg hp]
    refine (Traced.Follows.refl _).congr fun i hi => ?_
    have hpath : i.path = Path.child d.path method.name := (buildTraitMethod_spec hi).1
    rw [id, Item.withoutBody, if_neg (hpath ▸ hp)]

theorem follows_buildTrait (d : TraitDeclaration) :
    Traced.Follows (fun built => (built.1, built.2.map (Item.withoutBody path)))
      (buildTrait config d) (buildTrait config (d.withoutBody path)) := by
  unfold buildTrait
  refine (Traced.Follows.refl _).bind fun _ _ => ?_
  refine (Traced.Follows.refl _).bind fun invariant _ => ?_
  have hmethods : Traced.Follows (List.map (Item.withoutBody path))
      (d.methods.mapM (buildTraitMethod config d))
      ((d.methods.map (TraitMethodDeclaration.withoutBody path d.path)).mapM
        (buildTraitMethod config d)) :=
    .mapM fun method _ => follows_buildTraitMethod d method
  refine hmethods.bind fun methods _ => ?_
  have hpaths : (methods.map (Item.withoutBody path)).map Item.path = methods.map Item.path := by
    rw [List.map_map]
    exact List.map_congr_left fun i _ => i.path_withoutBody path
  intro built hbuilt
  cases hbuilt
  simp only [hpaths]
  rfl

/-- Bodies of other declarations play no role for a function. -/
theorem buildFunction_withoutBody :
    buildFunction config (declarations.map (Declaration.withoutBody path)) =
      buildFunction config declarations := by
  funext d
  simp only [buildFunction, isOwner_withoutBody, membersOf_withoutBody]

theorem require_withoutBody (d : Declaration) :
    Build.require (modules.any fun m => m.path == (d.withoutBody path).module)
        (.unknownModule (d.withoutBody path).path (d.withoutBody path).module) =
      Build.require (modules.any fun m => m.path == d.module) (.unknownModule d.path d.module) := by
  cases d with
  | function d =>
    simp only [Declaration.withoutBody, FunctionDeclaration.withoutBody]
    split <;> rfl
  | _ => rfl

/-- The entities of a declaration without a body are its entities without that body. -/
theorem follows_buildEntities (d : Declaration) :
    Traced.Follows (List.map (Entity.withoutBody path))
      (buildEntities config modules declarations d)
      (buildEntities config modules (declarations.map (Declaration.withoutBody path))
        (d.withoutBody path)) := by
  unfold buildEntities
  rw [require_withoutBody, buildFunction_withoutBody]
  refine (Traced.Follows.refl _).bind fun _ _ => ?_
  cases d with
  | struct d => exact (Traced.Follows.refl _).bind fun s _ => .pure (List.map _) [Entity.struct s]
  | enum d => exact (Traced.Follows.refl _).bind fun _ _ => .pure (List.map _) [Entity.enum d]
  | impl d => exact (Traced.Follows.refl _).bind fun justification _ => .pure (List.map _) [Entity.impl _]
  | function d => exact (follows_buildFunction d).bind fun i _ => .pure (List.map _) [Entity.item i]
  | trait d =>
    refine (follows_buildTrait d).bind fun built _ => ?_
    intro es hes
    cases hes
    simp only [List.map_cons, List.map_map]
    rfl

/-- Trait methods that items implement are declared with and without a body. -/
theorem follows_requireImplemented (items : List Item) :
    Traced.Follows id (forM items (requireImplemented items))
      (forM (items.map (Item.withoutBody path))
        (requireImplemented (items.map (Item.withoutBody path)))) := by
  have hitem : ∀ i : Item, (i.withoutBody path).implements? = i.implements? ∧
      (i.withoutBody path).kind = i.kind := by
    intro i
    unfold Item.withoutBody
    split <;> exact ⟨rfl, rfl⟩
  refine .forM fun i _ => ?_
  have hsame : requireImplemented (items.map (Item.withoutBody path)) (i.withoutBody path) =
      requireImplemented items i := by
    simp only [requireImplemented, (hitem i).1, List.any_map, Function.comp_def,
      Item.path_withoutBody, (hitem _).2]
  rw [hsame]
  exact .refl _

theorem follows_buildParts (s : Snapshot) (path : String) :
    Traced.Follows (fun parts => (parts.1, parts.2.map (Entity.withoutBody path)))
      (buildParts config s) (buildParts config (s.withoutBody path)) := by
  have hdistinct : requireDistinct (s.withoutBody path).items = requireDistinct s.items := by
    simp only [requireDistinct, Snapshot.withoutBody, List.flatMap_map, declaredPaths_withoutBody]
  have hitems : ∀ entities : List Entity,
      (entities.map (Entity.withoutBody path)).filterMap Entity.item? =
        (entities.filterMap Entity.item?).map (Item.withoutBody path) := by
    intro entities
    rw [List.filterMap_map, List.map_filterMap]
    congr 1
    funext e
    cases e <;> rfl
  unfold buildParts
  rw [hdistinct]
  refine (Traced.Follows.refl _).bind fun modules _ => ?_
  refine (Traced.Follows.refl _).bind fun _ _ => ?_
  have hbuilt : Traced.Follows (List.map (List.map (Entity.withoutBody path)))
      (s.items.mapM (buildEntities config modules s.items))
      ((s.withoutBody path).items.mapM
        (buildEntities config modules (s.withoutBody path).items)) :=
    .mapM fun d _ => follows_buildEntities d
  refine hbuilt.bind fun built _ => ?_
  simp only [← List.map_flatten, hitems, List.forM_eq_forM]
  refine (follows_requireImplemented _).bind fun _ _ => ?_
  exact .pure (fun parts => (parts.1, parts.2.map (Entity.withoutBody path))) (modules, built.flatten)

/-- The model of a snapshot without a body is its model without that body. -/
theorem build_withoutBody {s : Snapshot} {m : Model} (h : (build config s).outcome = .ok m)
    (path : String) :
    (build config (s.withoutBody path)).outcome = .ok (m.withoutBody path) := by
  obtain ⟨⟨modules, entities⟩, hparts, rfl⟩ := Outcome.map_eq_ok_iff.mp h
  have hwithout := follows_buildParts s path (modules, entities) hparts
  rw [build, hwithout]
  rfl

end Build

section Agreement

variable {m m' : Model}

theorem entity?_withoutBody (m : Model) (path other : String) :
    (m.withoutBody path).entity? other = (m.entity? other).map (Entity.withoutBody path) := by
  simp only [entity?, withoutBody, List.find?_map, Function.comp_def, Entity.path_withoutBody]

/-- Models that differ in one body have one interface. -/
theorem SameInterface.of_withoutBody (h : m.withoutBody path = m'.withoutBody path) :
    m.SameInterface m' := by
  have hmodules : m.modules = m'.modules := (Model.mk.inj h).2.1
  have hentities : m.entities.map (Entity.withoutBody path) =
      m'.entities.map (Entity.withoutBody path) := (Model.mk.inj h).2.2.1
  have hissues : m.issues = m'.issues := (Model.mk.inj h).2.2.2
  have hheader : Entity.header ∘ Entity.withoutBody path = Entity.header :=
    funext fun e => e.header_withoutBody path
  constructor
  case module =>
    intro other
    rw [module?, module?, hmodules]
  case entity =>
    intro other
    have hlook := congrArg (fun x => (x.entity? other).map Entity.header) h
    simpa only [entity?_withoutBody, Option.map_map, hheader] using hlook
  case size =>
    have hlength := congrArg List.length hentities
    rwa [List.length_map, List.length_map] at hlength
  case issues =>
    intro other
    rw [issuesFor, issuesFor, hissues]

/-- Models that differ in one body have the same entity under every other path. -/
theorem entity?_eq_of_withoutBody (h : m.withoutBody path = m'.withoutBody path) {other : String}
    (hne : other ≠ path) : m.entity? other = m'.entity? other := by
  have hsame : ∀ x : Model, (x.withoutBody path).entity? other = x.entity? other := by
    intro x
    rw [entity?_withoutBody]
    cases he : x.entity? other with
    | none => rfl
    | some e =>
      have hpath : e.path = other := by simpa using List.find?_some he
      rw [Option.map_some, Entity.withoutBody_of_ne (hpath ▸ hne)]
  rw [← hsame m, h, hsame m']

end Agreement

end Model

/-- Checking rests on declared contracts: if two snapshots differ in the body of one item only and both runs
succeed, every other path has the same state and the same findings in both reports, and it has a state
exactly if something is declared under it. -/
theorem reports_agree_off_changed_body {config : Config} {s s' : Snapshot} {changed : String}
    {report report' : Report} (hs : s.withoutBody changed = s'.withoutBody changed)
    (hrun : (Run.ofSnapshot config s).outcome = .ok report) (hok : report.success = true)
    (hrun' : (Run.ofSnapshot config s').outcome = .ok report') (hok' : report'.success = true) :
    ∀ path, path ≠ changed →
      report.state? path = report'.state? path ∧
      report.findingsAt path = report'.findingsAt path ∧
      ((report.state? path).isSome = true ↔ path ∈ s.items.flatMap Model.declaredPaths) := by
  obtain ⟨m, hb, hmodel⟩ := Run.ofSnapshot_succeeds_iff.mp ⟨hrun, hok⟩
  obtain ⟨m', hb', hmodel'⟩ := Run.ofSnapshot_succeeds_iff.mp ⟨hrun', hok'⟩
  obtain ⟨g, verdicts, hg, hv, rfl⟩ := Run.ofModel_succeeds_iff.mp hmodel
  obtain ⟨g', verdicts', hg', hv', rfl⟩ := Run.ofModel_succeeds_iff.mp hmodel'
  have hc := Model.consistent_of_build hb
  have hc' := Model.consistent_of_build hb'
  have hwithout : m.withoutBody changed = m'.withoutBody changed := by
    have hbuild := Model.build_withoutBody hb changed
    rw [hs, Model.build_withoutBody hb' changed] at hbuild
    exact (Except.ok.inj hbuild).symm
  have hsame := Model.SameInterface.of_withoutBody hwithout
  intro path hne
  have hentity := Model.entity?_eq_of_withoutBody hwithout hne
  obtain ⟨hstate, hfindings⟩ := hsame.report_eq hc hc' hg hg' hv hv' hentity
  refine ⟨hstate, hfindings, ?_⟩
  rw [Model.isSome_state?_iff hc hg hv, Model.paths_of_build hb]

/-- A caller, its callee with some body, and a helper that is declared after both. -/
def layeredAccess (body : List Operation) : Snapshot :=
  { items :=
      [.function
        { path := "crate::main", params := ["k"],
          body := [{ kind := .call, target := "crate::get", args := ["k"], guards := ["k < 10"] }] },
      .function
        { path := "crate::get", declaredUnsafe := true, params := ["n"], requirements := ["n < 16"],
          body := body },
      .function
        { path := "crate::load", declaredUnsafe := true, params := ["p"],
          requirements := ["valid(p)"] }] }

/-- With a call of the helper in its body the callee is no longer sound, and the caller is as before. -/
theorem layeredAccess_reports_agree :
    ∃ report report',
      (Run.ofSnapshot {} (layeredAccess [])).outcome = .ok report ∧ report.success = true ∧
      (Run.ofSnapshot {} (layeredAccess [{ kind := .call, target := "load", args := ["n"] }])).outcome =
        .ok report' ∧ report'.success = true ∧
      report.state? "crate::get" = some .soundUnsafe ∧
      report'.state? "crate::get" = some .classificationViolation ∧
      report.state? "crate::main" = report'.state? "crate::main" ∧
      report.findingsAt "crate::main" = report'.findingsAt "crate::main" ∧
      (report.state? "crate::main").isSome = true := by
  have hplain : ((Run.ofSnapshot {} (layeredAccess [])).outcome.toOption.any fun r =>
      r.success && r.state? "crate::get" == some .soundUnsafe) = true := by
    decide +kernel
  have hcalling : ((Run.ofSnapshot {} (layeredAccess
      [{ kind := .call, target := "load", args := ["n"] }])).outcome.toOption.any fun r =>
      r.success && r.state? "crate::get" == some .classificationViolation) = true := by
    decide +kernel
  obtain ⟨report, hrun, hreport⟩ := Outcome.any_toOption_eq_true_iff.mp hplain
  obtain ⟨report', hrun', hreport'⟩ := Outcome.any_toOption_eq_true_iff.mp hcalling
  simp only [Bool.and_eq_true, beq_iff_eq] at hreport hreport'
  have hbody : (layeredAccess []).withoutBody "crate::get" =
      (layeredAccess [{ kind := .call, target := "load", args := ["n"] }]).withoutBody "crate::get" := by
    decide +kernel
  obtain ⟨hstate, hfindings, hsome⟩ := reports_agree_off_changed_body hbody hrun hreport.1 hrun'
    hreport'.1 "crate::main" (by decide)
  exact ⟨report, report', hrun, hreport.1, hrun', hreport'.1, hreport.2, hreport'.2, hstate, hfindings,
    hsome.mpr (by decide +kernel)⟩

end CrateSafety
