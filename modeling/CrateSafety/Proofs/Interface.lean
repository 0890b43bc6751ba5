import CrateSafety.Proofs.ReportEntries

/-!
# Interfaces of models

What checking reads of the rest of a crate: the modules, the issues, how many entities there are, and of each
entity everything but the body. Two models that agree in these resolve the same targets, compute the same
scopes and state the same obligations, so an entity that is the same in both gets the same findings and the
same state.
-/

namespace CrateSafety

/-- An item without its body. -/
def Item.header (i : Item) : Item := { i with body := [] }

/-- An entity without its body, if it has one. -/
def Entity.header : Entity → Entity
  | item i => item i.header
  | e => e

/-- Items of one header differ in their bodies only. -/
theorem Item.eq_of_header_eq {i j : Item} (h : i.header = j.header) : j = { i with body := j.body } := by
  cases i
  cases j
  simp only [header, Item.mk.injEq] at h ⊢
  simp [h]

namespace Model

/-- Two models agree in what is read of an entity from elsewhere. -/
structure SameInterface (m m' : Model) : Prop where
  /-- The modules. -/
  module : ∀ path, m.module? path = m'.module? path
  /-- The entities, but for bodies. -/
  entity : ∀ path, (m.entity? path).map Entity.header = (m'.entity? path).map Entity.header
  /-- The number of entities. -/
  size : m.entities.length = m'.entities.length
  /-- The issues of each declaration. -/
  issues : ∀ path, m.issuesFor path = m'.issuesFor path

section Lookups

variable {m : Model}

/-- Looking a path up among the entities of a kind is looking it up among all of them. -/
theorem Consistent.find?_kind (hc : m.Consistent) {α : Type} {view : Entity → Option α}
    {key : α → String} (hkey : ∀ e a, view e = some a → key a = e.path) (path : String) :
    (m.entities.filterMap view).find? (fun a => key a == path) = (m.entity? path).bind view := by
  have hnodup : ((m.entities.filterMap view).map key).Nodup := by
    rw [List.Nodup, List.pairwise_map, List.pairwise_filterMap]
    refine (List.pairwise_map.mp hc.distinct).imp fun {e e'} hne a ha a' ha' => ?_
    rw [hkey e a ha, hkey e' a' ha']
    exact hne
  refine Option.ext fun a => ?_
  rw [find?_key_eq_some_iff hnodup, List.mem_filterMap, Option.bind_eq_some_iff]
  constructor
  · rintro ⟨⟨e, he, ha⟩, rfl⟩
    exact ⟨e, hc.entity?_eq_some_iff.mpr ⟨he, (hkey e a ha).symm⟩, ha⟩
  · rintro ⟨e, he, ha⟩
    obtain ⟨hmem, rfl⟩ := hc.entity?_eq_some_iff.mp he
    exact ⟨⟨e, hmem, ha⟩, hkey e a ha⟩

theorem Consistent.item?_eq_bind (hc : m.Consistent) (path : String) :
    m.item? path = (m.entity? path).bind Entity.item? :=
  hc.find?_kind (fun e i h => by rw [Entity.item?_eq_some_iff.mp h]; rfl) path

theorem Consistent.struct?_eq_bind (hc : m.Consistent) (path : String) :
    m.struct? path = (m.entity? path).bind Entity.struct? :=
  hc.find?_kind (fun e s h => by rw [Entity.struct?_eq_some_iff.mp h]; rfl) path

theorem Consistent.trait?_eq_bind (hc : m.Consistent) (path : String) :
    m.trait? path = (m.entity? path).bind Entity.trait? :=
  hc.find?_kind (fun e t h => by rw [Entity.trait?_eq_some_iff.mp h]; rfl) path

theorem Consistent.enum?_eq_bind (hc : m.Consistent) (path : String) :
    m.enum? path = (m.entity? path).bind Entity.enum? :=
  hc.find?_kind (fun e d h => by rw [Entity.enum?_eq_some_iff.mp h]; rfl) path

/-- The obligations listed for an item are those of its body. -/
theorem edgesOf_of_graph {config : Config} {g : Graph} {i : Item} (hc : m.Consistent)
    (hg : (m.graph config).outcome = .ok g) (hi : i ∈ m.items) :
    (m.edgesOf config i).outcome = .ok (i.path, g.edgesFrom i.path) := by
  have hedges := (graph_spec hg).1
  obtain ⟨⟨path, edges⟩, hentry, hspec⟩ := exists_right_of_forall₂ hedges hi
  have hpath : path = i.path := (edgesOf_spec hspec).1
  subst hpath
  have hnodup : (g.edges.map (·.1)).Nodup := paths_of_edges hedges ▸ hc.nodup_items
  rw [hspec, Graph.edgesFrom, Graph.lookUp, (find?_key_eq_some_iff hnodup).mpr ⟨hentry, rfl⟩]
  rfl

end Lookups

namespace SameInterface

variable {m m' : Model} {config : Config}

section Resolution

/-- What does not read bodies is looked up alike. -/
theorem bind_eq (h : m.SameInterface m') {α : Type} {view : Entity → Option α}
    (hview : ∀ e, view e.header = view e) (path : String) :
    (m.entity? path).bind view = (m'.entity? path).bind view := by
  have hbare : ∀ o : Option Entity, o.bind view = (o.map Entity.header).bind view := by
    intro o
    cases o with
    | none => rfl
    | some e => exact (hview e).symm
  rw [hbare, h.entity path, ← hbare]

variable (h : m.SameInterface m') (hc : m.Consistent) (hc' : m'.Consistent)

include h hc hc'

theorem struct?_eq : m.struct? = m'.struct? := by
  funext path
  rw [hc.struct?_eq_bind, hc'.struct?_eq_bind]
  exact h.bind_eq (fun e => by cases e <;> rfl) path

theorem trait?_eq : m.trait? = m'.trait? := by
  funext path
  rw [hc.trait?_eq_bind, hc'.trait?_eq_bind]
  exact h.bind_eq (fun e => by cases e <;> rfl) path

theorem enum?_eq : m.enum? = m'.enum? := by
  funext path
  rw [hc.enum?_eq_bind, hc'.enum?_eq_bind]
  exact h.bind_eq (fun e => by cases e <;> rfl) path

theorem item?_header (path : String) :
    (m.item? path).map Item.header = (m'.item? path).map Item.header := by
  have hview : ∀ e : Entity, e.header.item?.map Item.header = e.item?.map Item.header := by
    intro e
    cases e <;> rfl
  rw [hc.item?_eq_bind, hc'.item?_eq_bind, Option.map_bind, Option.map_bind]
  exact h.bind_eq hview path

theorem resolveStruct_eq (caller : Item) (target : String) :
    m.resolveStruct caller target = m'.resolveStruct caller target := by
  simp only [resolveStruct, h.struct?_eq hc hc']

theorem resolveItem_header (caller : Item) (target : String) :
    (m.resolveItem caller target).map Item.header = (m'.resolveItem caller target).map Item.header := by
  simp only [resolveItem, List.map_findSome?]
  congr 1
  funext path
  exact h.item?_header hc hc' path

/-- An operation raises the same obligation. -/
theorem edge_eq (caller : Item) (site : Site) :
    m.edge config caller site = m'.edge config caller site := by
  unfold Model.edge
  dsimp only
  rw [h.resolveStruct_eq hc hc']
  have hcallee := h.resolveItem_header hc hc' caller site.operation.target
  congr 2
  cases hr : m.resolveItem caller site.operation.target with
  | none =>
    cases hr' : m'.resolveItem caller site.operation.target with
    | none => rfl
    | some callee' => simp [hr, hr'] at hcallee
  | some callee =>
    cases hr' : m'.resolveItem caller site.operation.target with
    | none => simp [hr, hr'] at hcallee
    | some callee' =>
      -- the contract of a callee is part of its header
      rw [hr, hr', Option.map_some, Option.map_some, Option.some.injEq] at hcallee
      rw [Item.eq_of_header_eq hcallee]
      rfl

theorem edgesOf_eq (i : Item) : m.edgesOf config i = m'.edgesOf config i := by
  have hedge : m.edge config i = m'.edge config i := funext fun site => h.edge_eq hc hc' i site
  rw [edgesOf, edgesOf, hedge]

end Resolution

section Scopes

theorem moduleScopeWithin_eq (h : m.SameInterface m') (fuel : Nat) (path : String) :
    m.moduleScopeWithin fuel path = m'.moduleScopeWithin fuel path := by
  induction fuel generalizing path with
  | zero => rfl
  | succ fuel ih =>
    rw [moduleScopeWithin, moduleScopeWithin, h.module path]
    simp only [ih]

theorem moduleScope_eq (h : m.SameInterface m') : m.moduleScope = m'.moduleScope := by
  funext path
  exact h.moduleScopeWithin_eq _ path

theorem markedScope_eq (h : m.SameInterface m') : m.markedScope = m'.markedScope := by
  funext v module
  rw [markedScope, markedScope, h.moduleScope_eq]

variable (h : m.SameInterface m') (hc : m.Consistent) (hc' : m'.Consistent)

include h hc hc'

theorem scopeWithin_eq (fuel : Nat) (path : String) :
    m.scopeWithin fuel path = m'.scopeWithin fuel path := by
  induction fuel generalizing path with
  | zero => rfl
  | succ fuel ih =>
    have hentity := h.entity path
    have hsome : ∀ path, (m.entity? path).isSome = (m'.entity? path).isSome := by
      intro path
      rw [← Option.isSome_map, h.entity path, Option.isSome_map]
    rw [scopeWithin, scopeWithin, h.module path, h.moduleScope_eq]
    simp only [ih, h.markedScope_eq, hsome, variantOwner?, h.enum?_eq hc hc']
    congr 1
    cases he : m.entity? path with
    | none =>
      cases he' : m'.entity? path with
      | none => rfl
      | some e' => simp [he, he'] at hentity
    | some e =>
      cases he' : m'.entity? path with
      | none => simp [he, he'] at hentity
      | some e' =>
        rw [he, he', Option.map_some, Option.map_some, Option.some.injEq] at hentity
        cases e with
        | item i =>
          cases e' with
          | item i' =>
            rw [Item.eq_of_header_eq (Entity.item.inj hentity)]
            rfl
          | _ => cases hentity
        | _ =>
          cases e' <;> cases hentity
          rfl

theorem scopeOf_eq : m.scopeOf = m'.scopeOf := by
  funext path
  rw [scopeOf, scopeOf, h.size]
  exact h.scopeWithin_eq hc hc' _ path

end Scopes

section Findings

theorem issueFindings_eq (h : m.SameInterface m') : m.issueFindings = m'.issueFindings := by
  funext path
  rw [issueFindings, issueFindings, h.issues path]

variable (h : m.SameInterface m') (hc : m.Consistent) (hc' : m'.Consistent)

include h hc hc'

theorem boundaryOf_eq : m.boundaryOf config = m'.boundaryOf config := by
  funext e
  simp only [boundaryOf, boundary?, h.struct?_eq hc hc']

theorem uncovered_eq : m.uncovered config = m'.uncovered config := by
  funext i contract edges
  simp only [uncovered, coverageOf, placement, exposedOutside, invariantFor, h.boundaryOf_eq hc hc',
    h.scopeOf_eq hc hc', h.struct?_eq hc hc']

theorem escape_eq : m.escape config = m'.escape config := by
  funext i u
  simp only [escape, h.boundaryOf_eq hc hc']

theorem plainFindings_eq : m.plainFindings config = m'.plainFindings config := by
  funext i edges
  simp only [plainFindings, stuckFindings, h.uncovered_eq hc hc', h.escape_eq hc hc']

/-- Of the trait method that an item implements, checking reads the header. -/
theorem implementationFindings_eq {declared declared' : Item}
    (hd : declared.header = declared'.header) (i : Item) (edges : List Edge) :
    m.implementationFindings config i declared edges =
      m'.implementationFindings config i declared' edges := by
  rw [Item.eq_of_header_eq hd]
  simp only [implementationFindings, h.uncovered_eq hc hc', h.escape_eq hc hc']
  rfl

theorem itemFindings_eq (edges : List Edge) (i : Item) :
    m.itemFindings config edges i = m'.itemFindings config edges i := by
  have hdeclared : (i.implements?.bind m.item?).map Item.header =
      (i.implements?.bind m'.item?).map Item.header := by
    rw [Option.map_bind, Option.map_bind]
    exact congrArg i.implements?.bind (funext (h.item?_header hc hc'))
  unfold itemFindings
  rw [h.issueFindings_eq, h.plainFindings_eq hc hc']
  cases hd : i.implements?.bind m.item? with
  | none =>
    cases hd' : i.implements?.bind m'.item? with
    | none => rfl
    | some declared' => simp [hd, hd'] at hdeclared
  | some declared =>
    cases hd' : i.implements?.bind m'.item? with
    | none => simp [hd, hd'] at hdeclared
    | some declared' =>
      rw [hd, hd', Option.map_some, Option.map_some, Option.some.injEq] at hdeclared
      simp only [h.implementationFindings_eq hc hc' hdeclared]

theorem structFindings_eq : m.structFindings config = m'.structFindings config := by
  funext s
  simp only [structFindings, fieldExposed, fieldScope, h.scopeOf_eq hc hc', h.issueFindings_eq]

theorem implFindings_eq : m.implFindings config = m'.implFindings config := by
  have htrait : m.implementedTrait? = m'.implementedTrait? := by
    funext i
    rw [implementedTrait?, implementedTrait?, h.trait?_eq hc hc']
  funext i
  rw [implFindings, implFindings, htrait]

/-- The obligations of an item that both models have are the same. -/
theorem edgesFrom_eq {g g' : Graph} (hg : (m.graph config).outcome = .ok g)
    (hg' : (m'.graph config).outcome = .ok g') {i : Item} (hi : i ∈ m.items) (hi' : i ∈ m'.items) :
    g.edgesFrom i.path = g'.edgesFrom i.path := by
  have hone := edgesOf_of_graph hc hg hi
  have hother := edgesOf_of_graph hc' hg' hi'
  rw [h.edgesOf_eq hc hc', hother] at hone
  exact (Prod.mk.inj (Except.ok.inj hone)).2.symm

/-- An entity that both models have gets the same findings. -/
theorem findingsOf_eq {g g' : Graph} (hg : (m.graph config).outcome = .ok g)
    (hg' : (m'.graph config).outcome = .ok g') {e : Entity} (he : e ∈ m.entities)
    (he' : e ∈ m'.entities) : m.findingsOf config g e = m'.findingsOf config g' e := by
  cases e with
  | item i =>
    rw [findingsOf, findingsOf, h.itemFindings_eq hc hc',
      h.edgesFrom_eq hc hc' hg hg' (mem_items.mpr he) (mem_items.mpr he')]
  | struct s => rw [findingsOf, findingsOf, h.structFindings_eq hc hc']
  | trait t => rw [findingsOf, findingsOf, traitFindings, traitFindings, h.issueFindings_eq]
  | impl i => rw [findingsOf, findingsOf, h.implFindings_eq hc hc']
  | enum d => rfl

/-- Where the entities of a path are the same, so is what is reported under it. -/
theorem report_eq {g g' : Graph} {verdicts verdicts' : List Verdict}
    (hg : (m.graph config).outcome = .ok g) (hg' : (m'.graph config).outcome = .ok g')
    (hv : m.verdicts config g = .ok verdicts) (hv' : m'.verdicts config g' = .ok verdicts')
    {path : String} (hpath : m.entity? path = m'.entity? path) :
    (Run.verdictReport config m verdicts).state? path =
        (Run.verdictReport config m' verdicts').state? path ∧
      (Run.verdictReport config m verdicts).findingsAt path =
        (Run.verdictReport config m' verdicts').findingsAt path := by
  cases he : m.entity? path with
  | none =>
    have hnot : ∀ {x : Model}, x.entity? path = none → path ∉ x.entities.map Entity.path := by
      intro x hx hmem
      obtain ⟨e, hentity, heq⟩ := List.mem_map.mp hmem
      exact List.find?_eq_none.mp hx e hentity (beq_iff_eq.mpr heq)
    obtain ⟨hstate, hfindings⟩ := report_of_not_mem hc hg hv (hnot he)
    obtain ⟨hstate', hfindings'⟩ := report_of_not_mem hc' hg' hv' (hnot (hpath ▸ he))
    exact ⟨hstate.trans hstate'.symm, hfindings.trans hfindings'.symm⟩
  | some e =>
    obtain ⟨hmem, rfl⟩ := hc.entity?_eq_some_iff.mp he
    obtain ⟨hmem', -⟩ := hc'.entity?_eq_some_iff.mp (hpath ▸ he)
    obtain ⟨findings, hf, hstate, hfindings⟩ := report_of_mem hc hg hv hmem
    obtain ⟨findings', hf', hstate', hfindings'⟩ := report_of_mem hc' hg' hv' hmem'
    rw [h.findingsOf_eq hc hc' hg hg' hmem hmem', hf'] at hf
    cases hf
    exact ⟨hstate.trans hstate'.symm, hfindings.trans hfindings'.symm⟩

end Findings

end SameInterface

end Model

end CrateSafety
