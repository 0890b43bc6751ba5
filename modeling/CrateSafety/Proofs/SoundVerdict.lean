import CrateSafety.Proofs.CompletedRun
import CrateSafety.Proofs.CoverageMeaning
import CrateSafety.Proofs.NormalForm
import CrateSafety.Proofs.ObligationEdges

/-!
# Sound verdicts

An item with a sound state meets its obligations: wherever the guards of a site hold and the claims of its
justification are true, the contract that the item assumes and the invariant of its receiver imply what the
site requires. Only internals that the soundness boundary tolerates are exempt.
-/

namespace CrateSafety

/-- What an item may take for granted at an obligation, in a valuation that respects all atoms involved. -/
structure Edge.Premises (e : Edge) (contract invariant : Condition) (v : Valuation) : Prop where
  /-- The valuation respects the atoms. -/
  admits : v.Admits (e.required.alternatives.flatten ++ e.site.guards.alternatives.flatten ++
    contract.alternatives.flatten ++ invariant.alternatives.flatten)
  /-- The branch conditions hold. -/
  guards : e.site.guards.Holds v
  /-- What the justification claims is true. -/
  discharged : ∀ key ∈ e.discharged, v.truth key = true
  /-- The contract holds. -/
  contract : contract.Holds v
  /-- The invariant holds. -/
  invariant : invariant.Holds v

instance (e : Edge) (contract invariant : Condition) (v : Valuation) :
    Decidable (e.Premises contract invariant v) :=
  decidable_of_iff
    (v.Admits (e.required.alternatives.flatten ++ e.site.guards.alternatives.flatten ++
        contract.alternatives.flatten ++ invariant.alternatives.flatten) ∧
      e.site.guards.Holds v ∧ (∀ key ∈ e.discharged, v.truth key = true) ∧ contract.Holds v ∧
        invariant.Holds v)
    ⟨fun ⟨ha, hg, hd, hc, hi⟩ => ⟨ha, hg, hd, hc, hi⟩,
      fun h => ⟨h.admits, h.guards, h.discharged, h.contract, h.invariant⟩⟩

namespace Model

variable {m : Model} {config : Config} {i : Item} {e : Edge} {contract : Condition} {v : Valuation}

/-- Only internals are ever tolerated. -/
theorem placement_ne_none (h : e.kind.touchesInternals = false) :
    m.placement config i e ≠ .ok none := by
  simp [placement, h, pure, Except.pure]

/-- Where no obligation is uncovered, the outstanding part of each follows from what is assumed. -/
theorem outstanding_holds_of_uncovered {edges : List Edge} {relies : Bool}
    (hu : m.uncovered config i contract edges = .ok ([], relies)) (he : e ∈ edges)
    (hp : m.placement config i e ≠ .ok none)
    (ha : v.Admits (e.outstanding.alternatives.flatten ++ e.site.guards.alternatives.flatten ++
      contract.alternatives.flatten ++ (m.invariantFor i).alternatives.flatten))
    (hg : e.site.guards.Holds v) (hk : contract.Holds v) (hi : (m.invariantFor i).Holds v) :
    e.outstanding.Holds v := by
  obtain ⟨hall, hgaps, -⟩ := uncovered_spec hu
  cases hd : e.isDischarged with
  | true => exact .inl (List.isEmpty_iff.mp hd)
  | false =>
    obtain ⟨result, hresult⟩ := hall e he
    obtain ⟨placed, hplaced⟩ := exists_placement_of_coverageOf hd hresult
    cases placed with
    | none => exact absurd hplaced hp
    | some p =>
      refine Coverage.holds_of_check ?_ ha hg hk hi
      refine Option.eq_none_iff_forall_not_mem.mpr fun missing hm => ?_
      have hgap := (hgaps ⟨e, missing, p⟩).mpr
        ⟨he, _, coverageOf_eq_some_iff.mpr ⟨hd, hplaced, rfl⟩, hm⟩
      exact List.not_mem_nil hgap

/-- Claimed atoms put back, the obligation is met in full. -/
theorem required_holds_of_uncovered {edges : List Edge} {relies : Bool} {site : Site}
    (hu : m.uncovered config i contract edges = .ok ([], relies)) (he : e ∈ edges)
    (hp : m.placement config i e ≠ .ok none) (hsite : e.StatedAt i site)
    (h : e.Premises contract (m.invariantFor i) v) : e.required.Holds v := by
  have hout := hsite.outstanding_eq
  have hadmits : v.Admits (e.outstanding.alternatives.flatten ++
      e.site.guards.alternatives.flatten ++ contract.alternatives.flatten ++
      (m.invariantFor i).alternatives.flatten) := by
    refine h.admits.mono fun a ha => ?_
    simp only [List.mem_append, or_assoc] at ha ⊢
    refine ha.imp_left fun ha => Condition.flatten_without_subset e.required e.discharged ?_
    rwa [← hout]
  have hholds := outstanding_holds_of_uncovered hu he hp hadmits h.guards h.contract h.invariant
  rw [hout] at hholds
  exact (Condition.holds_without_iff h.discharged).mp hholds

end Model

/-- A completed run whose state for an item is sound vouches for its obligations: in every admissible
valuation, guards, claims, the assumed contract and the invariant of the receiver imply the requirements of
each call, primitive operation and use of internals that is not tolerated. -/
theorem required_holds_of_sound {config : Config} {s : Snapshot} {report : Report}
    (hrun : (Run.ofSnapshot config s).outcome = .ok report) (hs : report.success = true) :
    ∃ m g, (Model.build config s).outcome = .ok m ∧ (m.graph config).outcome = .ok g ∧
      ∀ i ∈ m.items, ∀ state, (i.path, state) ∈ report.states → state.isSound = true →
        ∃ contract, m.assumedContract i = .ok contract ∧
          ∀ e ∈ g.edgesFrom i.path,
            (e.kind.touchesInternals = true → m.placement config i e ≠ .ok none) →
            ∀ v, e.Premises contract (m.invariantFor i) v → e.required.Holds v := by
  obtain ⟨m, hbuild, hmodel⟩ := Run.ofSnapshot_succeeds_iff.mp ⟨hrun, hs⟩
  obtain ⟨g, verdicts, hgraph, hverdicts, rfl⟩ := Run.ofModel_succeeds_iff.mp hmodel
  have hc := Model.consistent_of_build hbuild
  refine ⟨m, g, hbuild, hgraph, fun i hi state hstate hsound => ?_⟩
  obtain ⟨findings, hfindings, rfl⟩ :=
    Model.findings_of_state hc hverdicts (Model.mem_items.mp hi) hstate
  have hrank := (rank_settle_le_iff.mp (TerminalState.isSound_iff_rank_le.mp hsound)).2
  obtain ⟨contract, relies, hcontract, hgaps⟩ := Model.uncovered_of_itemFindings hfindings hrank
  refine ⟨contract, hcontract, fun e he hplaced v hv => ?_⟩
  obtain ⟨site, -, harises⟩ := (Model.mem_edgesFrom_iff hc hgraph hi).mp he
  refine Model.required_holds_of_uncovered hgaps he ?_ harises.statedAt hv
  cases ht : e.kind.touchesInternals with
  | true => exact hplaced ht
  | false => exact Model.placement_ne_none ht

/-- An element access that is met by a contract, a guard and a claim together. -/
def elementAccess : Snapshot :=
  { items :=
      [.function
        { path := "crate::element", declaredUnsafe := true, params := ["n"],
          requirements := ["n > 1 && n < 16", "ready(n)"] },
      .function
        { path := "crate::access", declaredUnsafe := true, params := ["k"], requirements := ["k > 2"],
          body :=
            [{ kind := .call, target := "crate::element", args := ["k"], guards := ["k < 10"],
                justification := some "SAFETY: ready(k): it was started" }] }] }

/-- The run on the element access succeeds with sound states, and its call requires something that a
valuation of the premises makes true. -/
theorem elementAccess_required_holds :
    ∃ report m g, (Run.ofSnapshot {} elementAccess).outcome = .ok report ∧ report.success = true ∧
      (Model.build {} elementAccess).outcome = .ok m ∧ (m.graph {}).outcome = .ok g ∧
      ∃ i ∈ m.items, (i.path, .soundUnsafe) ∈ report.states ∧
        ∃ e ∈ g.edgesFrom i.path, e.required.isEmpty = false ∧ ∃ contract,
          m.assumedContract i = .ok contract ∧ ∃ v, e.Premises contract (m.invariantFor i) v ∧
            e.required.Holds v := by
  have hrun : (Run.ofSnapshot {} elementAccess).outcome = .ok
      { criterion := .module,
        states := [("crate::element", .soundUnsafe), ("crate::access", .soundUnsafe)] } := by
    decide +kernel
  obtain ⟨m, g, hm, hg, hall⟩ := required_holds_of_sound hrun rfl
  -- the valuation of a ready element at index three
  let v : Valuation := ⟨fun key => key != "False", fun _ => 3⟩
  have hcheck : Run.examine {} elementAccess (fun m g => m.items.any fun i =>
      i.path == "crate::access" && (g.edgesFrom i.path).any fun e =>
        !e.required.isEmpty && !e.kind.touchesInternals &&
          (m.assumedContract i).toOption.any fun contract =>
            e.Premises contract (m.invariantFor i) v) = true := by
    decide +kernel
  obtain ⟨m', g', hm', hg', hcheck⟩ := Run.examine_eq_true_iff.mp hcheck
  cases hm.symm.trans hm'
  cases hg.symm.trans hg'
  simp only [List.any_eq_true, Bool.and_eq_true, beq_iff_eq, Bool.not_eq_true'] at hcheck
  obtain ⟨i, hi, hpath, e, he, ⟨hne, hkind⟩, hpremises⟩ := hcheck
  have hstate : (i.path, TerminalState.soundUnsafe) ∈
      [("crate::element", TerminalState.soundUnsafe), ("crate::access", .soundUnsafe)] := by
    simp [hpath]
  obtain ⟨contract, hcontract, hedges⟩ := hall i hi .soundUnsafe hstate rfl
  simp only [hcontract, Except.toOption, Option.any_some, decide_eq_true_eq] at hpremises
  have hheld := hedges e he (by simp [hkind]) v hpremises
  exact ⟨_, m, g, hrun, rfl, hm, hg, i, hi, hstate, e, he, hne, contract, hcontract, v, hpremises,
    hheld⟩

end CrateSafety
