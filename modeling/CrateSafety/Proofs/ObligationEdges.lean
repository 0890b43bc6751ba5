import CrateSafety.Proofs.Consistency
import CrateSafety.Obligation.Graph

/-!
# Obligations of a graph

Where the obligations of a graph come from: each arises at a site of the body of its item, from a primitive
operation, from the invariant of a struct that the site resolves to, or from the contract of an item that
it resolves to. Its outstanding part is the required one without the discharged atoms.
-/

namespace CrateSafety

namespace Edge

/-- An obligation is the terms of a caller at a site. -/
def StatedAt (e : Edge) (caller : Item) (site : Site) : Prop :=
  ∃ t target calleeTerms requiresUnsafe,
    e = CallerTerms.edge t caller site target calleeTerms requiresUnsafe

theorem StatedAt.site_eq {e : Edge} {caller : Item} {site : Site} (h : e.StatedAt caller site) :
    e.site = site := by
  obtain ⟨t, target, calleeTerms, requiresUnsafe, rfl⟩ := h
  rfl

theorem StatedAt.outstanding_eq {e : Edge} {caller : Item} {site : Site}
    (h : e.StatedAt caller site) : e.outstanding = e.required.without e.discharged := by
  obtain ⟨t, target, calleeTerms, requiresUnsafe, rfl⟩ := h
  rfl

theorem ofCall_spec {caller callee : Item} {site : Site} {e : Edge}
    (h : ofCall caller callee site = .ok e) :
    e.StatedAt caller site ∧ e.target = callee.path ∧ e.calleeTerms = callee.contract := by
  obtain ⟨t, -, he⟩ := Outcome.bind_eq_ok_iff.mp h
  cases he
  exact ⟨⟨t, _, _, _, rfl⟩, rfl, rfl⟩

theorem ofPrimitive_spec {config : Config} {caller : Item} {site : Site} {e : Edge}
    (h : ofPrimitive config caller site = .ok e) : e.StatedAt caller site := by
  obtain ⟨forms, -, he⟩ := Outcome.bind_eq_ok_iff.mp h
  cases he
  exact ⟨_, _, _, _, rfl⟩

theorem ofInternals_spec {caller : Item} {s : Struct} {site : Site} {e : Edge}
    (h : ofInternals caller s site = .ok e) : e.StatedAt caller site ∧ e.target = s.path := by
  obtain ⟨t, -, he⟩ := Outcome.bind_eq_ok_iff.mp h
  cases he
  exact ⟨⟨t, _, _, _, rfl⟩, rfl⟩

end Edge

namespace Model

variable {m : Model} {config : Config} {g : Graph} {i : Item}

/-- How an obligation arises at a site. -/
inductive Arises (m : Model) (config : Config) (caller : Item) (site : Site) (e : Edge) : Prop where
  /-- From a primitive operation. -/
  | primitive (kind : site.operation.kind.isPrimitive = true)
      (made : Edge.ofPrimitive config caller site = .ok e)
  /-- From the invariant of a struct. -/
  | internals (s : Struct) (kind : site.operation.kind.touchesInternals = true)
      (resolved : m.resolveStruct caller site.operation.target = some s)
      (made : Edge.ofInternals caller s site = .ok e)
  /-- From the contract of an item. -/
  | call (callee : Item) (kind : site.operation.kind = .call)
      (resolved : m.resolveItem caller site.operation.target = some callee)
      (made : Edge.ofCall caller callee site = .ok e)

theorem edge_eq_some_iff {caller : Item} {site : Site} {e : Edge} :
    (m.edge config caller site).outcome = .ok (some e) ↔ m.Arises config caller site e := by
  have hcall : site.operation.kind.isPrimitive = false →
      site.operation.kind.touchesInternals = false → site.operation.kind = .call := by
    cases site.operation.kind <;> simp [OperationKind.isPrimitive, OperationKind.touchesInternals]
  unfold Model.edge
  dsimp only
  constructor
  · intro h
    split at h
    case isTrue hp =>
      simp only [Traced.outcome_map, Traced.outcome_lift, Outcome.map_eq_ok_iff,
        Outcome.mapError_eq_ok_iff, Option.some.injEq, exists_eq_right] at h
      exact .primitive hp h
    case isFalse hp =>
      split at h
      case isTrue ht =>
        split at h
        case h_1 s hs =>
          simp only [Traced.outcome_map, Traced.outcome_lift, Outcome.map_eq_ok_iff,
            Outcome.mapError_eq_ok_iff, Option.some.injEq, exists_eq_right] at h
          exact .internals s ht hs h
        case h_2 => cases h
      case isFalse ht =>
        split at h
        case h_1 callee hr =>
          simp only [Traced.outcome_map, Traced.outcome_lift, Outcome.map_eq_ok_iff,
            Outcome.mapError_eq_ok_iff, Option.some.injEq, exists_eq_right] at h
          exact .call callee (hcall (by simpa using hp) (by simpa using ht)) hr h
        case h_2 => cases h
  · rintro (⟨hp, h⟩ | ⟨s, ht, hs, h⟩ | ⟨callee, hk, hr, h⟩)
    · simp [hp, h, Outcome.map_eq_ok_iff, Outcome.mapError_eq_ok_iff]
    · have hp : site.operation.kind.isPrimitive = false := by
        revert ht
        cases site.operation.kind <;> simp [OperationKind.isPrimitive, OperationKind.touchesInternals]
      simp [hp, ht, hs, h, Outcome.map_eq_ok_iff, Outcome.mapError_eq_ok_iff]
    · simp [hk, hr, h, OperationKind.isPrimitive, OperationKind.touchesInternals,
        Outcome.map_eq_ok_iff, Outcome.mapError_eq_ok_iff]

theorem Arises.statedAt {caller : Item} {site : Site} {e : Edge}
    (h : m.Arises config caller site e) : e.StatedAt caller site := by
  cases h with
  | primitive _ made => exact Edge.ofPrimitive_spec made
  | internals s _ _ made => exact (Edge.ofInternals_spec made).1
  | call callee _ _ made => exact (Edge.ofCall_spec made).1

theorem Arises.kind_eq_call {caller : Item} {site : Site} {e : Edge}
    (h : m.Arises config caller site e) (hk : e.kind = .call) : site.operation.kind = .call := by
  rw [← h.statedAt.site_eq]
  exact hk

/-- A resolved call target is an item of the model. -/
theorem mem_items_of_resolveItem {caller callee : Item} {target : String}
    (h : m.resolveItem caller target = some callee) : callee ∈ m.items := by
  obtain ⟨path, -, hp⟩ := List.exists_of_findSome?_eq_some h
  exact List.mem_of_find?_eq_some hp

/-- The obligation of a call is the contract of the item that its target resolves to. -/
theorem Arises.callee {caller : Item} {site : Site} {e : Edge} (h : m.Arises config caller site e)
    (hk : e.kind = .call) :
    ∃ callee ∈ m.items, m.resolveItem caller site.operation.target = some callee ∧
      e.target = callee.path ∧ e.calleeTerms = callee.contract := by
  have hsite := h.kind_eq_call hk
  cases h with
  | primitive kind _ => simp [hsite, OperationKind.isPrimitive] at kind
  | internals s kind _ _ => simp [hsite, OperationKind.touchesInternals] at kind
  | call callee _ resolved made =>
    obtain ⟨-, htarget, hterms⟩ := Edge.ofCall_spec made
    exact ⟨callee, mem_items_of_resolveItem resolved, resolved, htarget, hterms⟩

/-- The parts that a graph is made of. -/
theorem graph_spec (h : (m.graph config).outcome = .ok g) :
    List.Forall₂ (fun i entry => (m.edgesOf config i).outcome = .ok entry) m.items g.edges ∧
      Graph.calleeFirst g.callees (g.edges.map (·.1)) = .ok g.order := by
  simp only [graph, Traced.outcome_bind, Traced.outcome_mapM, Traced.outcome_lift,
    Outcome.bind_eq_ok_iff, Outcome.mapM_eq_ok_iff, Outcome.mapError_eq_ok_iff,
    Traced.outcome_pure, Except.ok.injEq] at h
  obtain ⟨edges, hedges, order, horder, rfl⟩ := h
  exact ⟨hedges, horder⟩

theorem edgesOf_spec {entry : String × List Edge} (h : (m.edgesOf config i).outcome = .ok entry) :
    entry.1 = i.path ∧ ∀ e, e ∈ entry.2 ↔ ∃ site ∈ i.body, m.Arises config i site e := by
  simp only [edgesOf, Traced.outcome_bind, Traced.outcome_mapM, Outcome.bind_eq_ok_iff,
    Outcome.mapM_eq_ok_iff, Traced.outcome_pure, Except.ok.injEq] at h
  obtain ⟨results, hresults, rfl⟩ := h
  refine ⟨rfl, fun e => ?_⟩
  simp only [List.mem_filterMap, id, exists_eq_right, ← edge_eq_some_iff]
  constructor
  · intro he
    exact exists_left_of_forall₂ hresults he
  · rintro ⟨site, hsite, hr⟩
    obtain ⟨r, hr', heq⟩ := exists_right_of_forall₂ hresults hsite
    rw [hr] at heq
    cases heq
    exact hr'

/-- Obligations are listed under the paths of the items. -/
theorem paths_of_edges {edges : List (String × List Edge)}
    (h : List.Forall₂ (fun i entry => (m.edgesOf config i).outcome = .ok entry) m.items edges) :
    edges.map (·.1) = m.items.map Item.path :=
  (map_eq_map_of_forall₂ (h.imp fun _ _ hspec => (edgesOf_spec hspec).1.symm)).symm

/-- The obligations of an item are those that arise at the sites of its body. -/
theorem mem_lookUp_iff (hc : m.Consistent) {edges : List (String × List Edge)}
    (h : List.Forall₂ (fun i entry => (m.edgesOf config i).outcome = .ok entry) m.items edges)
    (hi : i ∈ m.items) {e : Edge} :
    e ∈ Graph.lookUp edges i.path ↔ ∃ site ∈ i.body, m.Arises config i site e := by
  obtain ⟨entry, hentry, hspec⟩ := exists_right_of_forall₂ h hi
  obtain ⟨hpath, hmem⟩ := edgesOf_spec hspec
  have hnodup : (edges.map (·.1)).Nodup := paths_of_edges h ▸ hc.nodup_items
  rw [← hmem, Graph.lookUp, (find?_key_eq_some_iff hnodup).mpr ⟨hentry, hpath⟩]
  rfl

theorem mem_edgesFrom_iff (hc : m.Consistent) (hg : (m.graph config).outcome = .ok g)
    (hi : i ∈ m.items) {e : Edge} :
    e ∈ g.edgesFrom i.path ↔ ∃ site ∈ i.body, m.Arises config i site e :=
  mem_lookUp_iff hc (graph_spec hg).1 hi

end Model

end CrateSafety
