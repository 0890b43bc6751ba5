import CrateSafety.Proofs.CheckTotality
import CrateSafety.Proofs.Legibility
import CrateSafety.Proofs.ReportAgreement

/-!
# Outcomes of runs

A run on any value ends in a report, completed or not, unless a text cannot be read. The build has a fault of
reading only if a documented line, a guard or a justification is not legible; the obligations have one only if
a primitive requirement, an invariant or a contract cannot be put into the terms of the caller; and the
classification has one only if the contract of a trait method cannot be put into those of its implementation.
Nothing else can keep a run from its report: templates can be filled, and every path that is looked up has a
scope.
-/

namespace CrateSafety

namespace Build

variable {α β : Type} {p q : Prop}

/-- A build has no fault of reading where its texts are legible, and they are where it succeeds. -/
structure Reads (x : Build α) (legible : Prop) : Prop where
  /-- Legible texts are read. -/
  reads : legible → ∀ e, x.outcome ≠ .error (.predicate e)
  /-- What is read is legible. -/
  legible : ∀ a, x.outcome = .ok a → legible

namespace Reads

theorem congr {x : Build α} (hx : x.Reads p) (h : p ↔ q) : x.Reads q :=
  ⟨fun hq => hx.reads (h.mpr hq), fun a ha => h.mp (hx.legible a ha)⟩

theorem done (a : α) : Reads (Traced.done a : Build α) True :=
  ⟨fun _ _ => nofun, fun _ _ => trivial⟩

theorem require (holds : Bool) (error : ModelError) : (Build.require holds error).Reads True := by
  refine ⟨fun _ e he => ?_, fun _ _ => trivial⟩
  cases holds <;> cases he

theorem report (strict : Bool) (issues : List Issue) : (Build.report strict issues).Reads True := by
  refine ⟨fun _ e he => ?_, fun _ _ => trivial⟩
  cases strict <;> cases issues <;> cases he

theorem reading (x : Except PredicateError α) : (Build.reading x).Reads (∃ a, x = .ok a) := by
  cases x with
  | ok a => exact ⟨fun _ _ => nofun, fun _ _ => ⟨a, rfl⟩⟩
  | error e => exact ⟨fun ⟨_, ha⟩ => (nomatch ha), fun _ => nofun⟩

theorem bind {x : Build α} {f : α → Build β} (hx : x.Reads p)
    (hf : ∀ a, x.outcome = .ok a → (f a).Reads q) : (x >>= f).Reads (p ∧ q) := by
  constructor
  · rintro ⟨hp, hq⟩ e he
    rw [Traced.outcome_bind] at he
    rcases Outcome.bind_eq_error_iff.mp he with hfirst | ⟨a, ha, hsecond⟩
    · exact hx.reads hp e hfirst
    · exact (hf a ha).reads hq e hsecond
  · intro b hb
    rw [Traced.outcome_bind] at hb
    obtain ⟨a, ha, hb⟩ := Outcome.bind_eq_ok_iff.mp hb
    exact ⟨hx.legible a ha, (hf a ha).legible b hb⟩

/-- A step that reads nothing, before one that does. -/
theorem after {x : Build α} {f : α → Build β} (hx : x.Reads True) (hf : ∀ a, (f a).Reads q) :
    (x >>= f).Reads q :=
  (hx.bind fun a _ => hf a).congr (iff_of_eq (true_and q))

/-- A step that reads nothing, after one that does. -/
theorem before {x : Build α} {f : α → Build β} (hx : x.Reads p) (hf : ∀ a, (f a).Reads True) :
    (x >>= f).Reads p :=
  (hx.bind fun a _ => hf a).congr (iff_of_eq (and_true p))

theorem mapM {f : α → Build β} {legible : α → Prop} {l : List α}
    (h : ∀ a ∈ l, (f a).Reads (legible a)) : Reads (l.mapM f) (∀ a ∈ l, legible a) := by
  induction l with
  | nil => exact (done []).congr (by simp)
  | cons a l ih =>
    obtain ⟨ha, hl⟩ := List.forall_mem_cons.mp h
    rw [List.mapM_cons]
    have hrest := ha.bind fun b _ => (ih hl).before fun bs => done (b :: bs)
    exact hrest.congr List.forall_mem_cons.symm

theorem forM {f : α → Build Unit} {l : List α} (h : ∀ a ∈ l, (f a).Reads True) :
    Reads (forM l f) True := by
  induction l with
  | nil => exact done ()
  | cons a l ih =>
    obtain ⟨ha, hl⟩ := List.forall_mem_cons.mp h
    rw [List.forM_cons]
    exact ha.after fun _ => ih hl

end Reads

end Build

section Legible

/-- Whether every line that is not blank can be brought into normal form. -/
def LegibleLines (lines : List String) : Prop :=
  ∀ line ∈ Reading.inked lines, Reading.Readable line

/-- Whether the guards and the justification of an operation can be read. -/
def Operation.Legible (o : Operation) : Prop :=
  LegibleLines o.guards ∧ Justification.Legible o.justification

/-- The fields of a struct as members of `self`. -/
def StructDeclaration.qualified (d : StructDeclaration) : Renaming :=
  let names := d.fields.map (·.name)
  ⟨Renaming.zip names (names.map fun name => selfName ++ "." ++ name), []⟩

/-- Whether the texts of a declaration can be read; an invariant also in terms of `self`. -/
def Declaration.Legible : Declaration → Prop
  | .function d => LegibleLines d.requirements ∧ ∀ o ∈ d.body, o.Legible
  | .trait d => LegibleLines d.invariant ∧
      ∀ method ∈ d.methods, LegibleLines method.requirements ∧ ∀ o ∈ method.body, o.Legible
  | .struct d => LegibleLines d.invariant ∧
      ∀ stated, Condition.ofLines d.invariant = .ok stated → stated.Restatable d.qualified
  | .enum _ => True
  | .impl d => Justification.Legible d.justification

end Legible

namespace Model

section Texts

variable {config : Config}

theorem site_isOk_iff {o : Operation} : (∃ read, site o = .ok read) ↔ o.Legible := by
  rw [Operation.Legible, LegibleLines, ← Condition.ofLines_isOk_iff, ← Justification.parse_isOk_iff]
  constructor
  · rintro ⟨read, h⟩
    obtain ⟨guards, hguards, h⟩ := Outcome.bind_eq_ok_iff.mp h
    obtain ⟨justification, hjustification, -⟩ := Outcome.bind_eq_ok_iff.mp h
    exact ⟨⟨guards, hguards⟩, ⟨justification, hjustification⟩⟩
  · rintro ⟨hguards, hjustification⟩
    exact Outcome.exists_bind_eq_ok hguards fun _ _ =>
      Outcome.exists_bind_eq_ok hjustification fun _ _ => ⟨_, rfl⟩

theorem reads_documented (path : String) (rule : Rule) (visible : List String)
    (members : Option (List String)) (lines : List String) :
    (documented config path rule visible members lines).Reads (LegibleLines lines) := by
  have hlines := (Build.Reads.reading (Condition.ofLines lines)).congr Condition.ofLines_isOk_iff
  exact hlines.before fun c => (Build.Reads.report _ _).after fun _ => .done c

theorem reads_body (operations : List Operation) :
    (body operations).Reads (∀ o ∈ operations, o.Legible) := by
  refine (Build.Reads.reading _).congr ?_
  simp only [Outcome.mapM_isOk_iff, site_isOk_iff]

theorem reads_buildStruct (d : StructDeclaration) :
    (buildStruct config d).Reads (Declaration.struct d).Legible := by
  refine (Build.Reads.require _ _).after fun _ => ?_
  refine (Build.Reads.forM fun f _ => Build.Reads.require _ _).after fun _ => ?_
  refine (reads_documented _ _ _ _ _).bind fun stated hstated => ?_
  have hread := ofLines_of_documented hstated
  -- the condition to be restated is the one that the lines were read as
  have hqualified := (Build.Reads.reading (stated.rename d.qualified)).congr Condition.rename_isOk_iff
  refine (hqualified.before fun _ => .done _).congr ?_
  constructor
  · intro hrestatable stated' hstated'
    cases hread.symm.trans hstated'
    exact hrestatable
  · intro h
    exact h stated hread

theorem reads_buildTraitMethod (d : TraitDeclaration) (method : TraitMethodDeclaration) :
    (buildTraitMethod config d method).Reads
      (LegibleLines method.requirements ∧ ∀ o ∈ method.body, o.Legible) := by
  refine (reads_documented _ _ _ _ _).bind fun _ _ => ?_
  exact (reads_body _).before fun _ => .done _

theorem reads_buildTrait (d : TraitDeclaration) :
    (buildTrait config d).Reads (Declaration.trait d).Legible := by
  refine (Build.Reads.require _ _).after fun _ => ?_
  refine (reads_documented _ _ _ _ _).bind fun _ _ => ?_
  exact (Build.Reads.mapM fun method _ => reads_buildTraitMethod d method).before fun _ => .done _

theorem reads_buildFunction (declarations : List Declaration) (d : FunctionDeclaration) :
    (buildFunction config declarations d).Reads (Declaration.function d).Legible := by
  refine (Build.Reads.require _ _).after fun _ => ?_
  refine (Build.Reads.require _ _).after fun _ => ?_
  refine (Build.Reads.require _ _).after fun _ => ?_
  refine (reads_documented _ _ _ _ _).bind fun _ _ => ?_
  exact (reads_body _).before fun _ => .done _

theorem reads_buildEntities (modules : List Module) (declarations : List Declaration)
    (d : Declaration) : (buildEntities config modules declarations d).Reads d.Legible := by
  refine (Build.Reads.require _ _).after fun _ => ?_
  cases d with
  | struct d => exact (reads_buildStruct d).before fun _ => .done _
  | enum d => exact (Build.Reads.require _ _).after fun _ => .done _
  | trait d => exact (reads_buildTrait d).before fun _ => .done _
  | impl d =>
    have hread := (Build.Reads.reading (Justification.parse d.justification)).congr
      Justification.parse_isOk_iff
    exact hread.before fun _ => .done _
  | function d => exact (reads_buildFunction declarations d).before fun _ => .done _

theorem reads_registerAll (known modules : List Module) : (registerAll known modules).Reads True := by
  induction modules generalizing known with
  | nil => exact .done known
  | cons m rest ih =>
    rw [registerAll]
    split
    case isTrue => exact ih known
    case isFalse =>
      refine (Build.Reads.require _ _).after fun _ => ?_
      refine (Build.Reads.require _ _).after fun _ => ?_
      refine (Build.Reads.require _ _).after fun _ => ?_
      exact (Build.Reads.require _ _).after fun _ => ih _

theorem reads_requireDistinct (declarations : List Declaration) :
    (requireDistinct declarations).Reads True := by
  unfold requireDistinct
  split
  case h_1 path _ => exact .require false (.duplicatePath path)
  case h_2 => exact .done ()

theorem reads_requireImplemented (items : List Item) (i : Item) :
    (requireImplemented items i).Reads True := by
  unfold requireImplemented
  split
  case h_1 => exact .done ()
  case h_2 => exact .require _ _

/-- The build has a fault of reading only if a text of a declaration is not legible. -/
theorem reads_build (s : Snapshot) : (build config s).Reads (∀ d ∈ s.items, d.Legible) := by
  have hparts : (buildParts config s).Reads (∀ d ∈ s.items, d.Legible) := by
    refine (reads_registerAll _ _).after fun modules => ?_
    refine (reads_requireDistinct s.items).after fun _ => ?_
    refine (Build.Reads.mapM fun d _ => reads_buildEntities modules s.items d).before fun _ => ?_
    exact (Build.Reads.forM fun i _ => reads_requireImplemented _ i).after fun _ => .done _
  constructor
  · intro hlegible e he
    refine hparts.reads hlegible e ?_
    cases hp : (buildParts config s).outcome with
    | ok parts => simp [build, hp, Except.map] at he
    | error error => simpa [build, hp, Except.map] using he
  · intro m hm
    obtain ⟨parts, hp, -⟩ := Outcome.map_eq_ok_iff.mp hm
    exact hparts.legible parts hp

end Texts

end Model

/-- The predicates that a primitive operation requires of its operand unless configured otherwise. -/
def primitivePredicates : OperationKind → Access → List String
  | .rawDeref, .read => ["valid_for_reads", "aligned"]
  | .rawDeref, .write => ["valid_for_writes", "aligned"]
  | .staticMut, _ => ["exclusive_access"]
  | .unionField, _ => ["initialized_as"]
  | _, _ => []

theorem templatesFor_default (kind : OperationKind) (access : Access) :
    ({} : Config).templatesFor kind access = (primitivePredicates kind access).map Template.ofPredicate := by
  cases kind <;> cases access <;> decide +kernel

theorem primitivePredicates_plain (kind : OperationKind) (access : Access) :
    ∀ predicate ∈ primitivePredicates kind access, ∀ c ∈ predicate.toList,
      c ≠ Template.opening ∧ c ≠ Template.closing := by
  have hplain : ((primitivePredicates kind access).all fun predicate =>
      predicate.toList.all fun c => c != Template.opening && c != Template.closing) = true := by
    cases kind <;> cases access <;> decide +kernel
  simpa using hplain

theorem primitivePredicates_eq_nil {kind : OperationKind} (h : kind.isPrimitive = false)
    (access : Access) : primitivePredicates kind access = [] := by
  cases kind with
  | rawDeref | staticMut | unionField => cases h
  | call | structLiteral | fieldWrite => rfl

namespace Edge

variable {caller : Item} {site : Site}

/-- The requirement of a predicate over an operand, as a line. -/
def requirementOf (predicate operand : String) : String := predicate ++ "(" ++ operand ++ ")"

/-- The template of a predicate requires what the line with the operand says. -/
theorem templateForm_ofPredicate {predicate : String}
    (h : ∀ c ∈ predicate.toList, c ≠ Template.opening ∧ c ≠ Template.closing) (operand : String) :
    templateForm (Template.ofPredicate predicate) operand =
      (Reading.parseDnf (requirementOf predicate operand)).mapError .predicate >>= fun form =>
        .ok (some form) := by
  have hink : Text.hasInk (requirementOf predicate operand).toList = true := by
    have hbracket : '(' ∈ (requirementOf predicate operand).toList := by simp [requirementOf]
    exact List.any_eq_true.mpr ⟨'(', hbracket, by decide⟩
  have hfill : Template.fill (Template.ofPredicate predicate) operand = .ok (requirementOf predicate operand) :=
    Template.fill_ofPredicate h operand
  unfold templateForm
  simp only [hfill, Except.mapError, bind, Except.bind, hink, if_true]
  cases Reading.parseDnf (requirementOf predicate operand) <;> rfl

/-- The requirements of a primitive operation can be stated exactly if its predicates can be read over its
operand. -/
theorem ofPrimitive_isOk_iff : (∃ e, ofPrimitive {} caller site = .ok e) ↔
    ∀ predicate ∈ primitivePredicates site.operation.kind site.operation.access,
      Reading.Readable (requirementOf predicate site.operation.target) := by
  have hplain := primitivePredicates_plain site.operation.kind site.operation.access
  have hforms : (∃ forms, ((primitivePredicates site.operation.kind site.operation.access).map
      Template.ofPredicate).mapM (fun t => templateForm t site.operation.target) = .ok forms) ↔
      ∀ predicate ∈ primitivePredicates site.operation.kind site.operation.access,
        Reading.Readable (requirementOf predicate site.operation.target) := by
    rw [Outcome.mapM_isOk_iff, List.forall_mem_map]
    refine forall₂_congr fun predicate hmem => ?_
    rw [templateForm_ofPredicate (hplain predicate hmem), Outcome.bind_ok_isOk_iff,
      ← Reading.parseDnf_isOk_iff]
    simp only [Outcome.mapError_eq_ok_iff]
  rw [← hforms, ← templatesFor_default]
  exact Outcome.bind_ok_isOk_iff

/-- Templates are filled, so what keeps the requirements of a primitive operation from being stated is a
text. -/
theorem ofPrimitive_eq_error {error : ObligationError} (h : ofPrimitive {} caller site = .error error) :
    ∃ e, error = .predicate e := by
  rcases Outcome.bind_eq_error_iff.mp h with hforms | ⟨forms, -, h⟩
  · rw [templatesFor_default] at hforms
    obtain ⟨template, htemplate, hform⟩ := Outcome.exists_of_mapM_eq_error hforms
    obtain ⟨predicate, hmem, rfl⟩ := List.mem_map.mp htemplate
    rw [templateForm_ofPredicate (primitivePredicates_plain _ _ predicate hmem)] at hform
    cases hread : Reading.parseDnf (requirementOf predicate site.operation.target) with
    | ok form =>
      rw [hread] at hform
      cases hform
    | error e =>
      rw [hread] at hform
      cases hform
      exact ⟨e, rfl⟩
  · cases h

theorem ofInternals_isOk_iff {s : Struct} : (∃ e, ofInternals caller s site = .ok e) ↔
    (invariantOf s site.operation).Restatable (internalsRenaming site.operation) := by
  rw [← Condition.ofRenaming_isOk_iff]
  exact Outcome.bind_ok_isOk_iff

theorem ofCall_isOk_iff {callee : Item} : (∃ e, ofCall caller callee site = .ok e) ↔
    callee.contract.Restatable ⟨argumentsFor callee site.operation, []⟩ := by
  rw [← Condition.ofRenaming_isOk_iff]
  exact Outcome.bind_ok_isOk_iff

end Edge

namespace Model

variable {m : Model} {i : Item} {site : Site}

/-- Whether the obligation at a site can be put into the terms of the caller. -/
structure LegibleAt (m : Model) (caller : Item) (site : Site) : Prop where
  /-- The predicates of a primitive operation can be read over its operand. -/
  primitive : ∀ predicate ∈ primitivePredicates site.operation.kind site.operation.access,
    Reading.Readable (Edge.requirementOf predicate site.operation.target)
  /-- The invariant of a struct can be restated for the values that are put into it. -/
  internals : site.operation.kind.touchesInternals = true →
    ∀ s, m.resolveStruct caller site.operation.target = some s →
      (Edge.invariantOf s site.operation).Restatable (Edge.internalsRenaming site.operation)
  /-- The contract of a callee can be restated for the arguments. -/
  call : site.operation.kind = .call →
    ∀ callee, m.resolveItem caller site.operation.target = some callee →
      callee.contract.Restatable ⟨Edge.argumentsFor callee site.operation, []⟩

/-- Whether the obligations and the contracts of implemented trait methods can be put into the terms of the
items that have them. -/
structure Legible (m : Model) : Prop where
  /-- Obligations can be stated. -/
  obligations : ∀ i ∈ m.items, ∀ site ∈ i.body, m.LegibleAt i site
  /-- Contracts of trait methods can be restated for the parameters of implementations. -/
  contracts : ∀ i ∈ m.items, ∀ declared, i.implements?.bind m.item? = some declared →
    declared.requirements.documented.Restatable ⟨Renaming.zip declared.params i.params, []⟩

section Edges

variable {ε : Type} {f : ε → GraphError} {x : Except ε Edge}

theorem outcome_lifted_isOk_iff :
    (∃ e, (some <$> (.lift f x : Traced Unresolved GraphError Edge)).outcome = .ok e) ↔
      ∃ e, x = .ok e := by
  simp only [Traced.outcome_map, Traced.outcome_lift, Outcome.map_eq_ok_iff, Outcome.mapError_eq_ok_iff]
  exact ⟨fun ⟨_, e, he, _⟩ => ⟨e, he⟩, fun ⟨e, he⟩ => ⟨some e, e, he, rfl⟩⟩

theorem edge_isOk_of_primitive (h : site.operation.kind.isPrimitive = true) :
    (∃ e, (m.edge {} i site).outcome = .ok e) ↔ m.LegibleAt i site := by
  unfold Model.edge
  dsimp only
  rw [if_pos h, outcome_lifted_isOk_iff, Edge.ofPrimitive_isOk_iff]
  constructor
  · intro hread
    refine ⟨hread, fun hinternals => ?_, fun hcall => ?_⟩
    · revert h hinternals
      cases site.operation.kind <;> simp [OperationKind.isPrimitive, OperationKind.touchesInternals]
    · rw [hcall] at h
      cases h
  · exact LegibleAt.primitive

theorem edge_isOk_of_internals (hprimitive : site.operation.kind.isPrimitive = false)
    (h : site.operation.kind.touchesInternals = true) :
    (∃ e, (m.edge {} i site).outcome = .ok e) ↔ m.LegibleAt i site := by
  have hpredicates := primitivePredicates_eq_nil hprimitive site.operation.access
  have hcall : site.operation.kind ≠ .call := by
    intro hcall
    rw [hcall] at h
    cases h
  have hlegible : m.LegibleAt i site ↔ ∀ s, m.resolveStruct i site.operation.target = some s →
      (Edge.invariantOf s site.operation).Restatable (Edge.internalsRenaming site.operation) := by
    refine ⟨fun hread => hread.internals h, fun hread => ?_⟩
    exact ⟨by simp [hpredicates], fun _ => hread, fun heq => absurd heq hcall⟩
  rw [hlegible]
  unfold Model.edge
  dsimp only
  rw [if_neg (by simp [hprimitive]), if_pos h]
  cases hs : m.resolveStruct i site.operation.target with
  | none => exact iff_of_true ⟨none, rfl⟩ (by simp)
  | some s =>
    dsimp only
    rw [outcome_lifted_isOk_iff, Edge.ofInternals_isOk_iff]
    simp

theorem edge_isOk_of_call (h : site.operation.kind = .call) :
    (∃ e, (m.edge {} i site).outcome = .ok e) ↔ m.LegibleAt i site := by
  have hlegible : m.LegibleAt i site ↔ ∀ callee, m.resolveItem i site.operation.target = some callee →
      callee.contract.Restatable ⟨Edge.argumentsFor callee site.operation, []⟩ := by
    refine ⟨fun hread => hread.call h, fun hread => ⟨?_, fun heq => ?_, fun _ => hread⟩⟩
    · simp [h, primitivePredicates]
    · rw [h] at heq
      cases heq
  rw [hlegible]
  unfold Model.edge
  dsimp only
  rw [if_neg (by simp [h, OperationKind.isPrimitive]), if_neg (by simp [h, OperationKind.touchesInternals])]
  cases hr : m.resolveItem i site.operation.target with
  | none => exact iff_of_true ⟨none, rfl⟩ (by simp)
  | some callee =>
    dsimp only
    rw [outcome_lifted_isOk_iff, Edge.ofCall_isOk_iff]
    simp

end Edges

/-- An obligation can be stated exactly if its texts can be put into the terms of the caller. -/
theorem edge_isOk_iff : (∃ e, (m.edge {} i site).outcome = .ok e) ↔ m.LegibleAt i site := by
  cases hkind : site.operation.kind with
  | call => exact edge_isOk_of_call hkind
  | structLiteral | fieldWrite => exact edge_isOk_of_internals (by rw [hkind]; rfl) (by rw [hkind]; rfl)
  | rawDeref | staticMut | unionField => exact edge_isOk_of_primitive (by rw [hkind]; rfl)

/-- What keeps an obligation from being stated is a text. -/
theorem edge_eq_predicate {error : GraphError} (h : (m.edge {} i site).outcome = .error error) :
    ∃ e, error = .obligation (.predicate e) := by
  have hlift : ∀ x : Except PredicateError Edge,
      (some <$> (.lift (.obligation ∘ .predicate) x : Traced Unresolved GraphError Edge)).outcome =
        .error error → ∃ e, error = .obligation (.predicate e) := by
    intro x hx
    cases x with
    | ok e => cases hx
    | error e =>
      cases hx
      exact ⟨e, rfl⟩
  unfold Model.edge at h
  dsimp only at h
  split at h
  case isTrue =>
    cases hmade : Edge.ofPrimitive {} i site with
    | ok e =>
      rw [hmade] at h
      cases h
    | error e =>
      rw [hmade] at h
      cases h
      obtain ⟨e', rfl⟩ := Edge.ofPrimitive_eq_error hmade
      exact ⟨e', rfl⟩
  case isFalse =>
    split at h
    case isTrue =>
      split at h
      case h_1 => exact hlift _ h
      case h_2 => cases h
    case isFalse =>
      split at h
      case h_1 => exact hlift _ h
      case h_2 => cases h

/-- There is no graph only if an obligation cannot be stated or calls form a cycle. -/
theorem graph_eq_error {error : GraphError} (h : (m.graph {}).outcome = .error error) :
    (∃ e, error = .obligation (.predicate e) ∧ ¬ m.Legible) ∨ ∃ cycle, error = .cyclic cycle := by
  simp only [graph, Traced.outcome_bind, Traced.outcome_mapM, Traced.outcome_lift] at h
  rcases Outcome.bind_eq_error_iff.mp h with hedges | ⟨edges, -, h⟩
  · obtain ⟨i, hi, hedges⟩ := Outcome.exists_of_mapM_eq_error hedges
    simp only [edgesOf, Traced.outcome_bind, Traced.outcome_mapM] at hedges
    rcases Outcome.bind_eq_error_iff.mp hedges with hsites | ⟨_, -, hpure⟩
    · obtain ⟨site, hsite, hedge⟩ := Outcome.exists_of_mapM_eq_error hsites
      obtain ⟨e, rfl⟩ := edge_eq_predicate hedge
      refine .inl ⟨e, rfl, fun hlegible => ?_⟩
      obtain ⟨_, hstated⟩ := edge_isOk_iff.mpr (hlegible.obligations i hi site hsite)
      rw [hstated] at hedge
      cases hedge
    · cases hpure
  · rcases Outcome.bind_eq_error_iff.mp h with horder | ⟨_, -, hpure⟩
    · cases hordered : Graph.calleeFirst (fun path => calleesOf (Graph.lookUp edges path))
        (edges.map (·.1)) with
      | ok order =>
        rw [hordered] at horder
        cases horder
      | error cycle =>
        rw [hordered] at horder
        cases horder
        exact .inr ⟨cycle, rfl⟩
    · cases hpure

theorem translatable_iff_restatable : (∀ e ∈ m.entities, m.Translatable e) ↔
    ∀ i ∈ m.items, ∀ declared, i.implements?.bind m.item? = some declared →
      declared.requirements.documented.Restatable ⟨Renaming.zip declared.params i.params, []⟩ := by
  constructor
  · intro h i hi declared hd
    exact Condition.rename_isOk_iff.mp (h (.item i) (mem_items.mp hi) i declared rfl hd)
  · rintro h e he i declared rfl hd
    exact Condition.rename_isOk_iff.mpr (h i (mem_items.mpr he) declared hd)

section Classification

variable {config : Config} {g : Graph}

/-- What keeps an entity from being classified is the contract of a trait method. -/
theorem findingsOf_eq_error (hc : m.Consistent) (hg : (m.graph config).outcome = .ok g) {e : Entity}
    (he : e ∈ m.entities) {error : CheckError} (h : m.findingsOf config g e = .error error) :
    ∃ fault, error = .predicate fault := by
  have hnot : ¬ m.Translatable e := by
    intro ht
    obtain ⟨findings, hfindings⟩ := (findingsOf_isOk_iff config hc hg he).mpr ht
    rw [hfindings] at h
    cases h
  unfold Translatable at hnot
  push Not at hnot
  obtain ⟨i, declared, rfl, hd, hcontract⟩ := hnot
  cases hrename : traitContract declared i with
  | ok contract => exact absurd hrename (hcontract contract)
  | error fault =>
    -- the contract is put into other terms before any scope is looked up
    refine ⟨fault, ?_⟩
    simp only [findingsOf, itemFindings, hd, implementationFindings, hrename] at h
    cases h
    rfl

/-- There are verdicts unless the contract of a trait method cannot be restated. -/
theorem verdicts_eq_error (hc : m.Consistent) (hg : (m.graph config).outcome = .ok g)
    {error : CheckError} (h : m.verdicts config g = .error error) :
    ∃ fault, error = .predicate fault ∧ ¬ ∀ e ∈ m.entities, m.Translatable e := by
  obtain ⟨e, hchecked, hverdict⟩ := Outcome.exists_of_mapM_eq_error h
  have he := mem_entities_of_checked hchecked
  rcases Outcome.bind_eq_error_iff.mp hverdict with hfindings | ⟨_, -, hpure⟩
  · obtain ⟨fault, rfl⟩ := findingsOf_eq_error hc hg he hfindings
    refine ⟨fault, rfl, fun ht => ?_⟩
    obtain ⟨findings, hok⟩ := (findingsOf_isOk_iff config hc hg he).mpr (ht e he)
    rw [hok] at hfindings
    cases hfindings
  · cases hpure

end Classification

/-- Where there is a graph and there are verdicts, all texts of a model could be put into other terms. -/
theorem legible_of_verdicts (hc : m.Consistent) {g : Graph} (hg : (m.graph {}).outcome = .ok g)
    {verdicts : List Verdict} (hv : m.verdicts {} g = .ok verdicts) : m.Legible := by
  refine ⟨fun i hi => ?_, translatable_iff_restatable.mp (translatable_of_verdicts hc hg hv)⟩
  obtain ⟨entry, -, hentry⟩ := exists_right_of_forall₂ (graph_spec hg).1 hi
  have hsites := edgesOf_isOk_iff.mp ⟨entry, hentry⟩
  exact fun site hsite => edge_isOk_iff.mp (hsites site hsite)

end Model

/-- Whether all texts of a snapshot can be read, and those of its model be put into the terms that they are
needed in. -/
structure Snapshot.Legible (s : Snapshot) : Prop where
  /-- The texts of declarations can be read. -/
  declarations : ∀ d ∈ s.items, d.Legible
  /-- The texts of the model can be put into other terms. -/
  model : ∀ m, (Model.build {} s).outcome = .ok m → m.Legible

/-- A report of a completed run, with a state for each declared path. -/
structure Report.Completes (r : Report) (s : Snapshot) : Prop where
  /-- The run was completed. -/
  success : r.success = true
  /-- Nothing ended it. -/
  errors : r.errors = []
  /-- Each declared path has a state. -/
  states : r.states.map (·.1) = s.items.flatMap Model.declaredPaths

/-- A report of a run that an error ended, without states. -/
structure Report.Aborts (r : Report) : Prop where
  /-- The run was not completed. -/
  success : r.success = false
  /-- An error ended it. -/
  errors : r.errors ≠ []
  /-- No path has a state. -/
  states : r.states = []

namespace Run

variable {m : Model} {s : Snapshot}

theorem aborts_failure (criterion : Criterion) (error : String) :
    (Report.failure criterion error).Aborts :=
  ⟨rfl, List.cons_ne_nil _ _, rfl⟩

theorem aborts_cyclicReport (config : Config) (m : Model) (cycle : List String) :
    (cyclicReport config m cycle).Aborts :=
  ⟨rfl, List.cons_ne_nil _ _, rfl⟩

/-- The ways in which a run on a snapshot ends. -/
inductive Ends (s : Snapshot) : Except RunError Report → Prop where
  /-- With a state for each declared path. -/
  | completed (report : Report) (completes : report.Completes s) (legible : s.Legible) : Ends s (.ok report)
  /-- With an error, as the snapshot has no model or its calls form a cycle. -/
  | aborted (report : Report) (aborts : report.Aborts)
      (cause : ∀ m, (Model.build {} s).outcome = .ok m →
        ∃ cycle, (m.graph {}).outcome = .error (.cyclic cycle)) : Ends s (.ok report)
  /-- At a text that cannot be read. -/
  | illegible (e : PredicateError) (fault : ¬ s.Legible) : Ends s (.error (.predicate e))

/-- A run on a model ends in one of the ways. -/
theorem ends_ofModel (hb : (Model.build {} s).outcome = .ok m) : Ends s (ofModel {} m).outcome := by
  have hc := Model.consistent_of_build hb
  have hnot : ¬ m.Legible → ¬ s.Legible := fun hm hs => hm (hs.model m hb)
  rw [outcome_ofModel]
  cases hg : (m.graph {}).outcome with
  | error error =>
    rcases Model.graph_eq_error hg with ⟨e, rfl, hm⟩ | ⟨cycle, rfl⟩
    · exact .illegible e (hnot hm)
    · refine .aborted _ (aborts_cyclicReport {} m cycle) fun m' hm' => ?_
      cases hb.symm.trans hm'
      exact ⟨cycle, hg⟩
  | ok g =>
    dsimp only
    rw [outcome_classify]
    cases hv : m.verdicts {} g with
    | error error =>
      obtain ⟨e, rfl, ht⟩ := Model.verdicts_eq_error hc hg hv
      refine .illegible e (hnot fun hm => ht ?_)
      exact Model.translatable_iff_restatable.mpr hm.contracts
    | ok verdicts =>
      obtain ⟨found, hfound⟩ := Model.exists_found hc hg hv
      have hpaths : (verdictReport {} m verdicts).states.map (·.1) = s.items.flatMap Model.declaredPaths := by
        rw [Model.states_of_verdicts hc hg hv hfound, List.map_map, ← Model.paths_of_build hb]
        rfl
      refine .completed _ ⟨rfl, rfl, hpaths⟩ ⟨(Model.reads_build s).legible m hb, fun m' hm' => ?_⟩
      cases hb.symm.trans hm'
      exact Model.legible_of_verdicts hc hg hv

/-- A run on a snapshot ends in one of the ways. -/
theorem ends_ofSnapshot (s : Snapshot) : Ends s (ofSnapshot {} s).outcome := by
  unfold ofSnapshot
  cases hb : (Model.build {} s).outcome with
  | ok m => exact ends_ofModel hb
  | error error =>
    have hnone : ∀ m, (Model.build {} s).outcome = .ok m →
        ∃ cycle, (m.graph {}).outcome = .error (.cyclic cycle) := by
      intro m hm
      rw [hb] at hm
      cases hm
    cases error with
    | structural e => exact .aborted _ (aborts_failure _ _) hnone
    | malformed issue => exact .aborted _ (aborts_failure _ _) hnone
    | predicate e =>
      refine .illegible e fun hs => ?_
      exact (Model.reads_build s).reads hs.declarations e hb

end Run

/-- Under the default configuration a run on any value ends in a report: one that has a state for each
declared path, or one that has an error and no states, as the value is no snapshot, the snapshot has no model,
or its calls form a cycle. It has no report only where it comes to a text that is not legible, and no text of a
run that is completed is of that kind. -/
theorem run_reports_unless_illegible (value : Json) :
    (∃ report, (Run.ofJson {} value).outcome = .ok report ∧
      ((∃ s, Snapshot.ofJson value = .valid s ∧ report.Completes s ∧ s.Legible) ∨
        report.Aborts ∧ ∀ s m, Snapshot.ofJson value = .valid s → (Model.build {} s).outcome = .ok m →
          ∃ cycle, (m.graph {}).outcome = .error (.cyclic cycle))) ∨
      ∃ s e, Snapshot.ofJson value = .valid s ∧ (Run.ofJson {} value).outcome = .error (.predicate e) ∧
        ¬ s.Legible := by
  unfold Run.ofJson
  cases hs : Snapshot.ofJson value with
  | invalid faults => exact .inl ⟨_, rfl, .inr ⟨Run.aborts_failure _ _, fun s m h => by cases h⟩⟩
  | valid s =>
    dsimp only
    have hends := Run.ends_ofSnapshot s
    cases hrun : (Run.ofSnapshot {} s).outcome with
    | ok report =>
      rw [hrun] at hends
      refine .inl ⟨report, rfl, ?_⟩
      cases hends with
      | completed _ completes legible => exact .inl ⟨s, rfl, completes, legible⟩
      | aborted _ aborts cause =>
        refine .inr ⟨aborts, fun s' m h hb => ?_⟩
        cases h
        exact cause m hb
    | error error =>
      rw [hrun] at hends
      cases hends with
      | illegible e fault => exact .inr ⟨s, e, rfl, rfl, fault⟩

/-- A call that passes an argument for a number. -/
def passing (argument : String) : Json :=
  .object [("name", .string "demo"), ("items", .array [
    .object [("kind", .string "function"), ("path", .string "crate::get"), ("unsafe", .bool true),
      ("params", .array [.string "n"]), ("requirements", .array [.string "n < 8"])],
    .object [("kind", .string "function"), ("path", .string "crate::first"),
      ("body", .array [.object [("op", .string "call"), ("target", .string "crate::get"),
        ("args", .array [.string argument]), ("justification", .string "n < 8: it is a constant")]])]])]

theorem passing_reports_unless_tuple :
    ((Run.ofJson {} (passing "()")).outcome = .error (.predicate .unprintable) ∧
      ∃ s, Snapshot.ofJson (passing "()") = .valid s ∧ ¬ s.Legible) ∧
    ∃ report, (Run.ofJson {} (passing "3")).outcome = .ok report ∧
      ∃ s, Snapshot.ofJson (passing "3") = .valid s ∧ report.Completes s ∧ s.Legible := by
  have htuple : (Run.ofJson {} (passing "()")).outcome = .error (.predicate .unprintable) := by
    decide +kernel
  have hnumber : (Run.ofJson {} (passing "3")).outcome.toOption.map (·.success) = some true := by
    decide +kernel
  constructor
  · rcases run_reports_unless_illegible (passing "()") with ⟨report, hreport, -⟩ | ⟨s, e, hs, -, hfault⟩
    · rw [htuple] at hreport
      cases hreport
    · exact ⟨htuple, s, hs, hfault⟩
  · rcases run_reports_unless_illegible (passing "3") with ⟨report, hreport, hends⟩ | ⟨s, e, -, hrun, -⟩
    · have hsuccess : report.success = true := by simpa [hreport, Except.toOption] using hnumber
      rcases hends with hcompleted | ⟨haborts, -⟩
      · exact ⟨report, hreport, hcompleted⟩
      · rw [haborts.success] at hsuccess
        cases hsuccess
    · simp [hrun, Except.toOption] at hnumber

end CrateSafety
