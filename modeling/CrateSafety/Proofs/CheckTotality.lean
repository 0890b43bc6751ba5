import CrateSafety.Proofs.CalleeFirst
import CrateSafety.Proofs.CompletedRun
import CrateSafety.Proofs.ScopeResolution

/-!
# When entities can be classified

On a consistent model every path that is looked up while entities are checked has a scope, and every struct
whose internals are reached has a boundary. So an entity cannot be classified only if the contract of the
trait method that it implements cannot be put into its terms, whatever the configuration.
-/

namespace CrateSafety

namespace Model

variable {m : Model} {config : Config} {g : Graph} {i : Item} {e : Edge}

/-- An obligation reaches the internals of a known struct, if of any. -/
def Grounded (m : Model) (e : Edge) : Prop :=
  e.kind.touchesInternals = true → ∃ s, m.struct? e.target = some s

theorem mem_structs_of_resolveStruct {caller : Item} {target : String} {s : Struct}
    (h : m.resolveStruct caller target = some s) : s ∈ m.structs := by
  unfold resolveStruct at h
  dsimp only at h
  rcases Option.or_eq_some_iff.mp h with hown | ⟨-, hnamed⟩
  · split at hown
    · obtain ⟨path, -, hpath⟩ := Option.bind_eq_some_iff.mp hown
      exact List.mem_of_find?_eq_some hpath
    · cases hown
  · obtain ⟨path, -, hpath⟩ := List.exists_of_findSome?_eq_some hnamed
    exact List.mem_of_find?_eq_some hpath

/-- The obligations of a graph reach into known structs. -/
theorem Arises.grounded {site : Site} (h : m.Arises config i site e) : m.Grounded e := by
  have hsite := h.statedAt.site_eq
  intro hkind
  rw [Edge.kind, hsite] at hkind
  cases h with
  | primitive kind _ =>
    revert kind hkind
    cases site.operation.kind <;> simp [OperationKind.isPrimitive, OperationKind.touchesInternals]
  | internals s _ resolved made =>
    rw [(Edge.ofInternals_spec made).2, ← Option.isSome_iff_exists, struct?, List.find?_isSome]
    exact ⟨s, mem_structs_of_resolveStruct resolved, by simp⟩
  | call callee kind _ _ => simp [kind, OperationKind.touchesInternals] at hkind

theorem boundaryOf_isOk (config : Config) (h : ∃ s, m.struct? e.target = some s) :
    ∃ b, m.boundaryOf config e = .ok b := by
  obtain ⟨s, hs⟩ := h
  exact ⟨_, boundaryOf_eq_ok_iff.mpr ⟨s, hs, rfl⟩⟩

theorem exposedOutside_isOk (hc : m.Consistent) (hi : i ∈ m.items) (b : Boundary) :
    ∃ exposed, m.exposedOutside i b = .ok exposed := by
  obtain ⟨scope, hscope⟩ := scopeOf_item_isOk hc hi
  exact ⟨_, exposedOutside_eq_ok_iff.mpr ⟨scope, hscope, rfl⟩⟩

theorem placement_isOk (hc : m.Consistent) (hi : i ∈ m.items) (hg : m.Grounded e) :
    ∃ placed, m.placement config i e = .ok placed := by
  unfold placement
  split
  case isTrue => exact ⟨_, rfl⟩
  case isFalse hk =>
    obtain ⟨b, hb⟩ := boundaryOf_isOk config (hg (by simpa using hk))
    obtain ⟨exposed, hexposed⟩ := exposedOutside_isOk hc hi b
    simp only [hb, hexposed, bind, Except.bind, pure, Except.pure]
    split
    case isTrue =>
      split
      case isTrue => exact ⟨_, rfl⟩
      case isFalse => cases exposed <;> exact ⟨_, rfl⟩
    case isFalse =>
      split
      case isTrue => cases exposed <;> exact ⟨_, rfl⟩
      case isFalse => exact ⟨_, rfl⟩

theorem coverageOf_isOk (hc : m.Consistent) (hi : i ∈ m.items) (hg : m.Grounded e)
    (contract : Condition) : ∃ result, m.coverageOf config i contract e = .ok result := by
  unfold coverageOf
  split
  case isTrue => exact ⟨_, rfl⟩
  case isFalse =>
    obtain ⟨placed, hplaced⟩ := placement_isOk hc hi hg
    rw [hplaced]
    cases placed <;> exact ⟨_, rfl⟩

section Findings

variable {edges : List Edge}

theorem uncovered_isOk (config : Config) (hc : m.Consistent) (hi : i ∈ m.items)
    (hg : ∀ e ∈ edges, m.Grounded e) (contract : Condition) :
    ∃ result, m.uncovered config i contract edges = .ok result := by
  refine Outcome.exists_bind_eq_ok (Outcome.exists_mapM_eq_ok fun e he => ?_) fun _ _ => ⟨_, rfl⟩
  exact Outcome.exists_bind_eq_ok (coverageOf_isOk hc hi (hg e he) contract) fun _ _ => ⟨_, rfl⟩

/-- What does not pass on reaches into a known struct. -/
theorem Placed.known {p : Placement} (h : m.Placed config i e p) (hp : p.propagates = false) :
    ∃ s, m.struct? e.target = some s := by
  cases h with
  | foreign s _ known => exact ⟨s, known⟩
  | requirement | constructor | method => cases hp

theorem escape_isOk {u : Uncovered} (hp : m.placement config i u.edge = .ok (some u.placement))
    (hprop : u.placement.propagates = false) : ∃ f, m.escape config i u = .ok f :=
  Outcome.exists_bind_eq_ok (boundaryOf_isOk config ((placement_eq_some_iff.mp hp).known hprop))
    fun _ _ => ⟨_, rfl⟩

theorem plainFindings_isOk (hc : m.Consistent) (hi : i ∈ m.items)
    (hg : ∀ e ∈ edges, m.Grounded e) : ∃ findings, m.plainFindings config i edges = .ok findings := by
  refine Outcome.exists_bind_eq_ok (uncovered_isOk config hc hi hg _) fun ⟨gaps, relies⟩ hgaps => ?_
  refine Outcome.exists_bind_eq_ok (Outcome.exists_mapM_eq_ok fun u hu => ?_) fun _ _ => ⟨_, rfl⟩
  have hplaced := placement_of_mem_uncovered hgaps (List.mem_of_mem_filter hu)
  split
  case isTrue => exact ⟨_, rfl⟩
  case isFalse hprop => exact escape_isOk hplaced (by simpa using hprop)

theorem implementationFindings_isOk (hc : m.Consistent) (hi : i ∈ m.items)
    (hg : ∀ e ∈ edges, m.Grounded e) {declared : Item}
    (hcontract : ∃ contract, traitContract declared i = .ok contract) :
    ∃ findings, m.implementationFindings config i declared edges = .ok findings := by
  obtain ⟨contract, hcontract⟩ := hcontract
  obtain ⟨⟨gaps, relies⟩, hgaps⟩ := uncovered_isOk config hc hi hg (assumedFrom declared contract)
  refine Outcome.exists_bind_eq_ok ⟨contract, Outcome.mapError_eq_ok_iff.mpr hcontract⟩ ?_
  intro contract' hcontract'
  cases (Outcome.mapError_eq_ok_iff.mp hcontract').symm.trans hcontract
  refine Outcome.exists_bind_eq_ok ⟨_, Outcome.mapError_eq_ok_iff.mpr hgaps⟩ ?_
  intro result hresult
  cases (Outcome.mapError_eq_ok_iff.mp hresult).symm.trans hgaps
  refine Outcome.exists_bind_eq_ok (Outcome.exists_mapM_eq_ok fun u hu => ?_) fun _ _ => ⟨_, rfl⟩
  have hplaced := placement_of_mem_uncovered hgaps hu
  split
  case isTrue => exact ⟨_, rfl⟩
  case isFalse hprop =>
    obtain ⟨f, hf⟩ := escape_isOk hplaced (by simpa using hprop)
    exact ⟨f, Outcome.mapError_eq_ok_iff.mpr hf⟩

theorem structFindings_isOk (hc : m.Consistent) {s : Struct} (hs : s ∈ m.structs) :
    ∃ findings, m.structFindings config s = .ok findings := by
  refine Outcome.exists_bind_eq_ok (Outcome.exists_filterM_eq_ok fun name hname => ?_)
    fun _ _ => ⟨_, rfl⟩
  exact Outcome.exists_bind_eq_ok (fieldScope_isOk hc hs (List.mem_of_mem_filter hname))
    fun _ _ => ⟨_, rfl⟩

end Findings

/-- The contract of the trait method that an entity implements can be put into its terms. -/
def Translatable (m : Model) (e : Entity) : Prop :=
  ∀ i declared, e = .item i → i.implements?.bind m.item? = some declared →
    ∃ contract, traitContract declared i = .ok contract

/-- An entity can be classified exactly if the contract of its trait method can be put into its terms. -/
theorem findingsOf_isOk_iff (config : Config) {config' : Config} (hc : m.Consistent)
    (hg : (m.graph config').outcome = .ok g) {e : Entity} (he : e ∈ m.entities) :
    (∃ findings, m.findingsOf config g e = .ok findings) ↔ m.Translatable e := by
  constructor
  · rintro ⟨findings, h⟩ i declared rfl hd
    obtain ⟨rest, -, hrest⟩ := itemFindings_spec h
    simp only [hd] at hrest
    obtain ⟨contract, -, -, hcontract, -⟩ := implementationFindings_spec hrest
    exact ⟨contract, hcontract⟩
  · intro ht
    cases e with
    | struct s =>
      obtain ⟨findings, hfindings⟩ := structFindings_isOk hc (mem_structs.mpr he)
      exact ⟨findings, Outcome.mapError_eq_ok_iff.mpr hfindings⟩
    | trait t => exact ⟨_, rfl⟩
    | impl i => exact ⟨_, rfl⟩
    | enum d => exact ⟨_, rfl⟩
    | item i =>
      have hi := mem_items.mpr he
      have hedges : ∀ e ∈ g.edgesFrom i.path, m.Grounded e := by
        intro e hmem
        obtain ⟨site, -, harises⟩ := (mem_edgesFrom_iff hc hg hi).mp hmem
        exact harises.grounded
      unfold findingsOf itemFindings
      dsimp only
      split
      case h_1 declared hd =>
        exact Outcome.exists_bind_eq_ok
          (implementationFindings_isOk hc hi hedges (ht i declared rfl hd)) fun _ _ => ⟨_, rfl⟩
      case h_2 =>
        obtain ⟨rest, hrest⟩ := plainFindings_isOk hc hi hedges
        exact ⟨_, Outcome.bind_eq_ok_iff.mpr ⟨rest, Outcome.mapError_eq_ok_iff.mpr hrest, rfl⟩⟩

/-- Every entity is checked. -/
theorem mem_checkingOrder_iff (hc : m.Consistent) (hg : (m.graph config).outcome = .ok g)
    {e : Entity} : e ∈ m.checkingOrder g ↔ e ∈ m.entities := by
  refine ⟨mem_entities_of_checked, fun he => ?_⟩
  simp only [checkingOrder, List.mem_append, List.mem_map, List.mem_filterMap, mem_structs, mem_traits,
    mem_impls, mem_enums]
  cases e with
  | item i =>
    have hi := mem_items.mpr he
    have horder := ((order_of_graph hc hg).2 i.path).mpr (List.mem_map_of_mem hi)
    exact .inl (.inl (.inl (.inl ⟨i, ⟨i.path, horder, hc.item?_eq_some_iff.mpr ⟨hi, rfl⟩⟩, rfl⟩)))
  | struct s => exact .inl (.inl (.inl (.inr ⟨s, he, rfl⟩)))
  | trait t => exact .inl (.inl (.inr ⟨t, he, rfl⟩))
  | impl i => exact .inl (.inr ⟨i, he, rfl⟩)
  | enum d => exact .inr ⟨d, he, rfl⟩

/-- The state that an entity is settled in by its findings. -/
def settledState (m : Model) (config : Config) (g : Graph) (e : Entity) : TerminalState :=
  settle (.sound e.declaredUnsafe) ((m.findingsOf config g e).toOption.getD [])

theorem settledState_of_findings {e : Entity} {findings : List Finding}
    (h : m.findingsOf config g e = .ok findings) :
    m.settledState config g e = settle (.sound e.declaredUnsafe) findings := by
  rw [settledState, h]
  rfl

/-- A run on a model with obligations succeeds as soon as all contracts can be translated, and reports for
every entity the one state that it is settled in. -/
theorem ofModel_of_translatable (hc : m.Consistent) (hg : (m.graph config).outcome = .ok g)
    (ht : ∀ e ∈ m.entities, m.Translatable e) :
    ∃ report, (Run.ofModel config m).outcome = .ok report ∧ report.success = true ∧
      ∀ e ∈ m.entities, ∀ state,
        (e.path, state) ∈ report.states ↔ state = m.settledState config g e := by
  have hverdict : ∀ e ∈ m.checkingOrder g, ∃ v, m.verdict config g e = .ok v := by
    intro e he
    have hmem := mem_entities_of_checked he
    exact Outcome.exists_bind_eq_ok ((findingsOf_isOk_iff config hc hg hmem).mpr (ht e hmem))
      fun _ _ => ⟨_, rfl⟩
  obtain ⟨verdicts, hverdicts⟩ := Outcome.exists_mapM_eq_ok hverdict
  obtain ⟨hrun, hs⟩ := Run.ofModel_succeeds_iff.mpr ⟨g, verdicts, hg, hverdicts, rfl⟩
  refine ⟨_, hrun, hs, fun e he state => ⟨fun hstate => ?_, ?_⟩⟩
  · obtain ⟨findings, hfindings, rfl⟩ := findings_of_state hc hverdicts he hstate
    exact (settledState_of_findings hfindings).symm
  · rintro rfl
    have hchecked := (mem_checkingOrder_iff hc hg).mpr he
    obtain ⟨v, hv, hve⟩ := exists_right_of_forall₂ (Outcome.mapM_eq_ok_iff.mp hverdicts) hchecked
    obtain ⟨findings, hfindings, rfl⟩ := verdict_eq_ok_iff.mp hve
    exact Run.mem_states_iff.mpr ⟨_, hv, rfl, (settledState_of_findings hfindings).symm⟩

/-- In a run that succeeds all contracts could be translated. -/
theorem translatable_of_verdicts (hc : m.Consistent) (hg : (m.graph config).outcome = .ok g)
    {verdicts : List Verdict} (hv : m.verdicts config g = .ok verdicts) :
    ∀ e ∈ m.entities, m.Translatable e := by
  intro e he
  have hchecked := (mem_checkingOrder_iff hc hg).mpr he
  obtain ⟨v, -, hve⟩ := exists_right_of_forall₂ (Outcome.mapM_eq_ok_iff.mp hv) hchecked
  obtain ⟨findings, hfindings, -⟩ := verdict_eq_ok_iff.mp hve
  exact (findingsOf_isOk_iff config hc hg he).mp ⟨findings, hfindings⟩

end Model

end CrateSafety
