import CrateSafety.Proofs.ObligationEdges
import CrateSafety.Proofs.ReadyOrder
import CrateSafety.Verdict.Finding

/-!
# Callees first

Where every obligation can be stated, a model has either an order of its items, each the earliest declared
one that is ready, or a cycle of calls. It has a cycle exactly if some item calls itself, if only through
others.
-/

namespace CrateSafety

/-- Dropping repetitions keeps what is named. -/
theorem Text.mem_distinct {name : String} {names : List String} :
    name ∈ Text.distinct names ↔ name ∈ names := by
  have hfold : ∀ seen : List String,
      name ∈ names.foldl (fun seen name => if seen.contains name then seen else seen ++ [name]) seen ↔
        name ∈ seen ∨ name ∈ names := by
    induction names with
    | nil => simp
    | cons head rest ih =>
      intro seen
      rw [List.foldl_cons, ih]
      split
      case isTrue h =>
        have hseen : head ∈ seen := by simpa using h
        rw [List.mem_cons]
        constructor
        · exact fun hm => hm.imp_right .inr
        · rintro (hm | rfl | hm)
          · exact .inl hm
          · exact .inl hseen
          · exact .inr hm
      case isFalse => rw [List.mem_append, List.mem_singleton, List.mem_cons, or_assoc]
  rw [Text.distinct, hfold]
  simp

theorem mem_calleesOf {edges : List Edge} {path : String} :
    path ∈ calleesOf edges ↔ ∃ e ∈ edges, e.kind = .call ∧ e.target = path := by
  simp [calleesOf, Text.mem_distinct, and_assoc]

namespace Model

variable {m : Model} {config : Config} {i : Item}

/-- The item of one path has a call that resolves to the item of another path. -/
def Calls (m : Model) (path callee : String) : Prop :=
  ∃ i ∈ m.items, i.path = path ∧ ∃ site ∈ i.body, site.operation.kind = .call ∧
    ∃ target, m.resolveItem i site.operation.target = some target ∧ target.path = callee

/-- The obligation of every operation can be stated, or is none. -/
def Statable (m : Model) (config : Config) : Prop :=
  ∀ i ∈ m.items, ∀ site ∈ i.body, ∃ e, (m.edge config i site).outcome = .ok e

section Positions

/-- The position of an entity is its index. -/
theorem Consistent.positionIn_path (h : m.Consistent) {n : Nat} (hn : n < m.entities.length) :
    positionIn m.declarationOrder m.entities[n].path = n := by
  have hkeys : m.declarationOrder.map (·.1) = m.entities.map Entity.path := by
    refine List.ext_getElem ?_ fun n hn hn' => ?_
    · simp [declarationOrder]
    · simp [declarationOrder]
  have hmem : (m.entities[n].path, (n : Int)) ∈ m.declarationOrder :=
    List.mem_mapIdx.mpr ⟨n, hn, rfl⟩
  have hfind := (find?_key_eq_some_iff (hkeys ▸ h.distinct)).mpr ⟨hmem, rfl⟩
  rw [positionIn, hfind]
  rfl

/-- Entities stand by position. -/
theorem Consistent.pairwise_entities (h : m.Consistent) : m.entities.Pairwise fun a b =>
    positionIn m.declarationOrder a.path < positionIn m.declarationOrder b.path := by
  refine List.pairwise_iff_getElem.mpr fun n k hn hk hlt => ?_
  rw [h.positionIn_path hn, h.positionIn_path hk]
  omega

/-- Items stand by position. -/
theorem Consistent.pairwise_position (h : m.Consistent) : (m.items.map Item.path).Pairwise
    fun a b => positionIn m.declarationOrder a < positionIn m.declarationOrder b := by
  rw [List.pairwise_map, items, List.pairwise_filterMap]
  refine h.pairwise_entities.imp fun {e e'} hlt i hi i' hi' => ?_
  rw [Entity.item?_eq_some_iff.mp hi, Entity.item?_eq_some_iff.mp hi'] at hlt
  exact hlt

end Positions

section Outcomes

/-- What keeps an obligation from being stated is a text or a template. -/
theorem edge_eq_error {site : Site} {error : GraphError}
    (h : (m.edge config i site).outcome = .error error) : ∃ e, error = .obligation e := by
  have hlift : ∀ {ε : Type} (f : ε → ObligationError) (x : Except ε Edge),
      (some <$> (.lift (.obligation ∘ f) x : Traced Unresolved GraphError Edge)).outcome =
        .error error → ∃ e, error = .obligation e := by
    intro ε f x hx
    cases x with
    | ok e => cases hx
    | error e =>
      cases hx
      exact ⟨f e, rfl⟩
  unfold Model.edge at h
  dsimp only at h
  split at h
  case isTrue => exact hlift id _ h
  case isFalse =>
    split at h
    case isTrue =>
      split at h
      case h_1 => exact hlift _ _ h
      case h_2 => cases h
    case isFalse =>
      split at h
      case h_1 => exact hlift _ _ h
      case h_2 => cases h

/-- The obligations of an item are known exactly if each can be stated. -/
theorem edgesOf_isOk_iff : (∃ entry, (m.edgesOf config i).outcome = .ok entry) ↔
    ∀ site ∈ i.body, ∃ e, (m.edge config i site).outcome = .ok e := by
  simp only [edgesOf, Traced.outcome_bind, Traced.outcome_mapM, Outcome.bind_eq_ok_iff,
    Traced.outcome_pure, Except.ok.injEq]
  constructor
  · rintro ⟨-, results, hresults, -⟩ site hsite
    obtain ⟨e, -, he⟩ := exists_right_of_forall₂ (Outcome.mapM_eq_ok_iff.mp hresults) hsite
    exact ⟨e, he⟩
  · intro h
    obtain ⟨results, hresults⟩ := Outcome.exists_mapM_eq_ok h
    exact ⟨_, results, hresults, rfl⟩

/-- Where an obligation cannot be stated there is no graph. -/
theorem graph_of_not_statable (h : ¬ m.Statable config) :
    ∃ e, (m.graph config).outcome = .error (.obligation e) := by
  cases hedges : m.items.mapM (fun i => (m.edgesOf config i).outcome) with
  | ok edges =>
    refine absurd (fun i hi => edgesOf_isOk_iff.mp ?_) h
    obtain ⟨entry, -, hentry⟩ := exists_right_of_forall₂ (Outcome.mapM_eq_ok_iff.mp hedges) hi
    exact ⟨entry, hentry⟩
  | error error =>
    obtain ⟨i, -, hi⟩ := Outcome.exists_of_mapM_eq_error hedges
    simp only [edgesOf, Traced.outcome_bind, Traced.outcome_mapM] at hi
    rcases Outcome.bind_eq_error_iff.mp hi with hi | ⟨_, -, hi⟩
    · obtain ⟨site, -, hsite⟩ := Outcome.exists_of_mapM_eq_error hi
      obtain ⟨e, rfl⟩ := edge_eq_error hsite
      refine ⟨e, ?_⟩
      rw [graph, Traced.outcome_bind, Traced.outcome_mapM, hedges]
      rfl
    · cases hi

/-- Where every obligation can be stated, the graph depends on the order alone. -/
theorem graph_of_statable (h : m.Statable config) :
    ∃ edges, List.Forall₂ (fun i entry => (m.edgesOf config i).outcome = .ok entry) m.items edges ∧
      (m.graph config).outcome =
        (Graph.calleeFirst (fun path => calleesOf (Graph.lookUp edges path))
          (m.items.map Item.path)).mapError .cyclic >>= fun order => .ok ⟨edges, order⟩ := by
  obtain ⟨edges, hedges⟩ := Outcome.exists_mapM_eq_ok fun i hi => edgesOf_isOk_iff.mpr (h i hi)
  have hall := Outcome.mapM_eq_ok_iff.mp hedges
  refine ⟨edges, hall, ?_⟩
  simp only [graph, Traced.outcome_bind, Traced.outcome_mapM, hedges, Traced.outcome_lift,
    ← paths_of_edges hall]
  rfl

/-- The callees among obligations are the items that are called. -/
theorem mem_calleesOf_lookUp_iff (hc : m.Consistent) {edges : List (String × List Edge)}
    (h : List.Forall₂ (fun i entry => (m.edgesOf config i).outcome = .ok entry) m.items edges)
    {path callee : String} :
    callee ∈ calleesOf (Graph.lookUp edges path) ↔ m.Calls path callee := by
  rw [mem_calleesOf]
  constructor
  · rintro ⟨e, he, hkind, rfl⟩
    have hpath : path ∈ m.items.map Item.path := by
      rw [← paths_of_edges h]
      by_contra hnot
      have hnone : edges.find? (fun entry => entry.1 == path) = none := by
        rw [List.find?_eq_none]
        intro entry hentry heq
        exact hnot (List.mem_map.mpr ⟨entry, hentry, by simpa using heq⟩)
      simp [Graph.lookUp, hnone] at he
    obtain ⟨i, hi, rfl⟩ := List.mem_map.mp hpath
    obtain ⟨site, hsite, harises⟩ := (mem_lookUp_iff hc h hi).mp he
    obtain ⟨target, -, hresolved, htarget, -⟩ := harises.callee hkind
    exact ⟨i, hi, rfl, site, hsite, harises.kind_eq_call hkind, target, hresolved, htarget.symm⟩
  · rintro ⟨i, hi, rfl, site, hsite, hkind, target, hresolved, rfl⟩
    obtain ⟨entry, -, hentry⟩ := exists_right_of_forall₂ h hi
    obtain ⟨result, hresult⟩ := edgesOf_isOk_iff.mp ⟨entry, hentry⟩ site hsite
    obtain ⟨e, hmade⟩ : ∃ e, Edge.ofCall i target site = .ok e := by
      simp only [Model.edge, hkind, OperationKind.isPrimitive, OperationKind.touchesInternals,
        Bool.false_eq_true, if_false, hresolved, Traced.outcome_map, Traced.outcome_lift,
        Outcome.map_eq_ok_iff, Outcome.mapError_eq_ok_iff] at hresult
      obtain ⟨e, hmade, -⟩ := hresult
      exact ⟨e, hmade⟩
    obtain ⟨hstated, htarget, -⟩ := Edge.ofCall_spec hmade
    refine ⟨e, (mem_lookUp_iff hc h hi).mpr ⟨site, hsite, .call target hkind hresolved hmade⟩, ?_,
      htarget⟩
    rw [Edge.kind, hstated.site_eq, hkind]

theorem callees_eq_calls (hc : m.Consistent) {edges : List (String × List Edge)}
    (h : List.Forall₂ (fun i entry => (m.edgesOf config i).outcome = .ok entry) m.items edges) :
    (fun path callee => callee ∈ calleesOf (Graph.lookUp edges path)) = m.Calls := by
  funext path callee
  exact propext (mem_calleesOf_lookUp_iff hc h)

/-- The order of a graph lists every item, each as the earliest declared one that is ready. -/
theorem order_of_graph {g : Graph} (hc : m.Consistent) (hg : (m.graph config).outcome = .ok g) :
    Graph.Greedy m.Calls (positionIn m.declarationOrder) (m.items.map Item.path) g.order ∧
      ∀ path, path ∈ g.order ↔ path ∈ m.items.map Item.path := by
  obtain ⟨hedges, hfirst⟩ := graph_spec hg
  rw [paths_of_edges hedges] at hfirst
  rw [← callees_eq_calls hc hedges]
  exact Graph.greedy_of_calleeFirst hc.pairwise_position hfirst

end Outcomes

end Model

end CrateSafety
