import CrateSafety.Proofs.Consistency

/-!
# Strict builds

A strict build is the lenient one stopped at its first issue. Stopping commutes with the composition of builds,
so the statement goes through the functions of the build one by one; only the report of issues tells the two
apart. What comes before the first issue, structural faults and faults of reading included, is the same in both.
-/

namespace CrateSafety

namespace Build

variable {α β : Type}

/-- A build that ends at its first issue, which is then no note but the failure. -/
def stopped (x : Build α) : Build α :=
  match x.notes with
  | [] => x
  | issue :: _ => .fail (.malformed issue)

theorem stopped_of_notes_eq_nil {x : Build α} (h : x.notes = []) : x.stopped = x := by
  rw [stopped, h]

theorem stopped_of_notes_eq_cons {x : Build α} {issue : Issue} {rest : List Issue}
    (h : x.notes = issue :: rest) : x.stopped = .fail (.malformed issue) := by
  rw [stopped, h]

@[simp] theorem stopped_pure (a : α) : (pure a : Build α).stopped = pure a := rfl

@[simp] theorem stopped_require (holds : Bool) (error : ModelError) :
    (require holds error).stopped = require holds error := by
  cases holds <;> rfl

@[simp] theorem stopped_reading (x : Except PredicateError α) : (reading x).stopped = reading x := by
  cases x <;> rfl

/-- A strict report is the lenient one stopped. -/
@[simp] theorem stopped_report (issues : List Issue) : (report false issues).stopped = report true issues := by
  cases issues <;> rfl

/-- The first issue of a composition is that of its first part that has one. -/
@[simp] theorem stopped_bind (x : Build α) (f : α → Build β) :
    (x >>= f).stopped = x.stopped >>= fun a => (f a).stopped := by
  obtain ⟨notes, outcome⟩ := x
  cases notes with
  | nil =>
    cases outcome with
    | error e => rfl
    | ok a => rfl
  | cons issue rest =>
    cases outcome with
    | error e => rfl
    | ok a => rfl

@[simp] theorem stopped_map (f : α → β) (x : Build α) : (f <$> x).stopped = f <$> x.stopped := by
  rw [map_eq_pure_bind, stopped_bind, map_eq_pure_bind]
  rfl

@[simp] theorem stopped_mapM (f : α → Build β) (l : List α) :
    (l.mapM f).stopped = l.mapM fun a => (f a).stopped := by
  induction l with
  | nil => rfl
  | cons a l ih => simp only [List.mapM_cons, stopped_bind, stopped_pure, ih]

@[simp] theorem stopped_forM (f : α → Build Unit) (l : List α) :
    (forM l f).stopped = forM l fun a => (f a).stopped := by
  induction l with
  | nil => rfl
  | cons a l ih => simp only [List.forM_cons, stopped_bind, ih]

end Build

/-- The configuration with malformed requirements noted, or fatal. -/
def Config.withStrict (config : Config) (strict : Bool) : Config :=
  { config with strictRequirements := strict }

namespace Model

open Build

variable {config : Config}

@[simp] theorem stopped_documented (path : String) (rule : Rule) (visible : List String)
    (members : Option (List String)) (lines : List String) :
    (documented (config.withStrict false) path rule visible members lines).stopped =
      documented (config.withStrict true) path rule visible members lines := by
  simp only [documented, stopped_bind, stopped_reading, Config.withStrict, stopped_report, stopped_pure]
  rfl

@[simp] theorem stopped_body (operations : List Operation) : (body operations).stopped = body operations :=
  stopped_reading _

@[simp] theorem stopped_marker (v : Visibility) (module path : String) :
    (v.require module path).stopped = v.require module path :=
  stopped_require _ _

@[simp] theorem stopped_buildStruct (d : StructDeclaration) :
    (buildStruct (config.withStrict false) d).stopped = buildStruct (config.withStrict true) d := by
  simp [buildStruct]

@[simp] theorem stopped_buildTraitMethod (d : TraitDeclaration) (m : TraitMethodDeclaration) :
    (buildTraitMethod (config.withStrict false) d m).stopped =
      buildTraitMethod (config.withStrict true) d m := by
  simp [buildTraitMethod]

@[simp] theorem stopped_buildTrait (d : TraitDeclaration) :
    (buildTrait (config.withStrict false) d).stopped = buildTrait (config.withStrict true) d := by
  simp [buildTrait]

@[simp] theorem stopped_buildFunction (declarations : List Declaration) (d : FunctionDeclaration) :
    (buildFunction (config.withStrict false) declarations d).stopped =
      buildFunction (config.withStrict true) declarations d := by
  simp [buildFunction]

@[simp] theorem stopped_buildEntities (modules : List Module) (declarations : List Declaration)
    (d : Declaration) :
    (buildEntities (config.withStrict false) modules declarations d).stopped =
      buildEntities (config.withStrict true) modules declarations d := by
  cases d <;> simp [buildEntities]

@[simp] theorem stopped_registerAll (known modules : List Module) :
    (registerAll known modules).stopped = registerAll known modules := by
  induction modules generalizing known with
  | nil => rfl
  | cons m rest ih =>
    unfold registerAll
    split
    case isTrue => exact ih known
    case isFalse => simp [ih]

@[simp] theorem stopped_requireDistinct (declarations : List Declaration) :
    (requireDistinct declarations).stopped = requireDistinct declarations := by
  unfold requireDistinct
  split <;> rfl

@[simp] theorem stopped_requireImplemented (items : List Item) (i : Item) :
    (requireImplemented items i).stopped = requireImplemented items i := by
  unfold requireImplemented
  split
  case h_1 => rfl
  case h_2 => exact stopped_require _ _

theorem stopped_buildParts (config : Config) (s : Snapshot) :
    (buildParts (config.withStrict false) s).stopped = buildParts (config.withStrict true) s := by
  simp [buildParts, registerModules]

/-- The strict build is the lenient one stopped at its first issue. -/
theorem stopped_build (config : Config) (s : Snapshot) :
    (build (config.withStrict false) s).stopped = build (config.withStrict true) s := by
  have hparts := stopped_buildParts config s
  -- the build has the notes of its parts, and a model has them for its issues
  cases h : (buildParts (config.withStrict false) s).notes with
  | nil =>
    have hnotes : (build (config.withStrict false) s).notes = [] := h
    rw [stopped_of_notes_eq_nil h] at hparts
    rw [stopped_of_notes_eq_nil hnotes, build, build, hparts]
  | cons issue rest =>
    have hnotes : (build (config.withStrict false) s).notes = issue :: rest := h
    rw [stopped_of_notes_eq_cons h] at hparts
    rw [stopped_of_notes_eq_cons hnotes, build, ← hparts]
    rfl

end Model

/-- Where the lenient build has no issue, the strict one is the same, model or failure. Where it has, whether it
ends in a model or not, the strict build fails with the first issue and notes nothing. -/
theorem strict_build_ends_at_first_issue (config : Config) (s : Snapshot) :
    ((Model.build (config.withStrict false) s).notes = [] →
      Model.build (config.withStrict true) s = Model.build (config.withStrict false) s) ∧
    ∀ first rest, (Model.build (config.withStrict false) s).notes = first :: rest →
      (Model.build (config.withStrict true) s).outcome = .error (.malformed first) ∧
        (Model.build (config.withStrict true) s).notes = [] := by
  rw [← Model.stopped_build]
  constructor
  · intro hnone
    exact Build.stopped_of_notes_eq_nil hnone
  · intro first rest hsome
    rw [Build.stopped_of_notes_eq_cons hsome]
    exact ⟨rfl, rfl⟩

/-- A ring whose invariant and whose access name what is not visible, before a function of an unknown owner. -/
def looseRing : Snapshot :=
  { name := "ring"
    items := [
      .struct { path := "crate::Ring", fields := [⟨"cap", {}⟩], invariant := ["cap > 0", "head < cap"] },
      .function
        { kind := .method, path := "crate::Ring::at", owner := some "crate::Ring", declaredUnsafe := true,
          params := ["i"], requirements := ["i < size", "valid(self.cap)"] },
      .function { path := "crate::reset", owner := some "crate::Pool" }] }

/-- The lenient build of the ring notes two issues and fails at the owner; the strict one fails at the first
issue. -/
theorem looseRing_ends_at_invariant :
    (Model.build (Config.withStrict {} false) looseRing).notes =
        [⟨"crate::Ring", .structComment1, "head < cap", ["head"]⟩,
          ⟨"crate::Ring::at", .functionComment2, "i < size", ["size"]⟩] ∧
      (Model.build (Config.withStrict {} false) looseRing).outcome.toOption.isNone = true ∧
      (Model.build (Config.withStrict {} true) looseRing).outcome =
        .error (.malformed ⟨"crate::Ring", .structComment1, "head < cap", ["head"]⟩) ∧
      (Model.build (Config.withStrict {} true) looseRing).notes = [] := by
  have hnotes : (Model.build (Config.withStrict {} false) looseRing).notes =
      [⟨"crate::Ring", .structComment1, "head < cap", ["head"]⟩,
        ⟨"crate::Ring::at", .functionComment2, "i < size", ["size"]⟩] := by
    decide +kernel
  have hfails : (Model.build (Config.withStrict {} false) looseRing).outcome.toOption.isNone = true := by
    decide +kernel
  exact ⟨hnotes, hfails, (strict_build_ends_at_first_issue {} looseRing).2 _ _ hnotes⟩

end CrateSafety
