import CrateSafety.Proofs.CompletedRun
import CrateSafety.Proofs.CoverageMeaning
import CrateSafety.Proofs.NormalForm
import CrateSafety.Proofs.ObligationEdges

/-!
# Assumed and imposed contracts

The contract under which the body of an item is checked, against the one that its callers are held to. For
an item of its own, and for the implementation of a safe trait method, both are the same. For the
implementation of an unsafe trait method the body is checked under the contract of the trait, while callers
are held to the contract of the implementation, which may be weaker and is nothing for a safe one.
-/

namespace CrateSafety

/-- Wherever the first condition holds, the second one does, in valuations that respect both. -/
def Condition.Implies (c other : Condition) : Prop :=
  ∀ v : Valuation, v.Admits (c.alternatives.flatten ++ other.alternatives.flatten) →
    c.Holds v → other.Holds v

namespace Condition

theorem implies_refl (c : Condition) : c.Implies c :=
  fun _ _ h => h

/-- The condition that asks for nothing follows from any. -/
theorem implies_empty (c : Condition) : c.Implies {} :=
  fun _ _ _ => .inl rfl

theorem implies_of_entailedBy {c assumptions : Condition} (h : c.entailedBy assumptions = true) :
    assumptions.Implies c :=
  fun _ ha hh => holds_of_entailedBy h ha hh

end Condition

namespace Model

variable {m : Model} {config : Config} {i : Item} {edges : List Edge} {findings : List Finding}

/-- The contract of an implementation is strictly weaker than that of its unsafe trait method. -/
def WeakensTrait (m : Model) (i : Item) : Prop :=
  ∃ declared contract, i.implements?.bind m.item? = some declared ∧ declared.declaredUnsafe = true ∧
    traitContract declared i = .ok contract ∧ contract.Implies i.contract ∧
    ¬ i.contract.Implies contract

/-- The own contract of a sound implementation follows from that of its trait method. -/
theorem implies_contract_of_sound {declared : Item} {contract : Condition}
    (h : m.itemFindings config edges i = .ok findings) (hr : RankedWithin 1 findings)
    (hd : i.implements?.bind m.item? = some declared)
    (hcontract : traitContract declared i = .ok contract) : contract.Implies i.contract := by
  obtain ⟨_, htrait, -, hdemands⟩ := demands_of_itemFindings h hr hd
  cases htrait.symm.trans hcontract
  unfold Item.contract
  split
  · exact Condition.implies_of_entailedBy hdemands
  · exact Condition.implies_empty _

/-- A sound item assumes no more than its own contract gives, unless it weakens that of its trait
method. -/
theorem contract_implies_assumed_iff {assumed : Condition}
    (h : m.itemFindings config edges i = .ok findings) (hr : RankedWithin 1 findings)
    (ha : m.assumedContract i = .ok assumed) :
    i.contract.Implies assumed ↔ ¬ m.WeakensTrait i := by
  unfold assumedContract at ha
  constructor
  · rintro himp ⟨declared, contract, hd, hflag, hcontract, -, hnot⟩
    have heq : assumedFrom declared contract = contract := if_pos hflag
    simp only [hd, hcontract] at ha
    cases ha
    exact hnot (heq ▸ himp)
  · intro hweak
    split at ha
    case h_1 declared hd =>
      obtain ⟨contract, hcontract, rfl⟩ := Outcome.map_eq_ok_iff.mp ha
      unfold assumedFrom
      split
      case isTrue hflag =>
        by_contra hnot
        exact hweak ⟨declared, contract, hd, hflag, hcontract,
          implies_contract_of_sound h hr hd hcontract, hnot⟩
      case isFalse => exact Condition.implies_empty _
    case h_2 =>
      cases ha
      exact Condition.implies_refl _

end Model

/-- In a run with sound items only, what a call imposes implies the contract under which the body of the
callee was checked, except at implementations that weaken the contract of an unsafe trait method. -/
theorem imposed_implies_assumed_iff {config : Config} {s : Snapshot} {report : Report} {m : Model}
    {g : Graph} (hrun : (Run.ofSnapshot config s).outcome = .ok report)
    (hs : report.success = true) (hbuild : (Model.build config s).outcome = .ok m)
    (hgraph : (m.graph config).outcome = .ok g)
    (hsound : ∀ i ∈ m.items, ∃ state, (i.path, state) ∈ report.states ∧ state.isSound = true)
    {i : Item} (hi : i ∈ m.items) {e : Edge} (he : e ∈ g.edgesFrom i.path) (hk : e.kind = .call) :
    ∃ callee ∈ m.items, m.item? e.target = some callee ∧ e.calleeTerms = callee.contract ∧
      ∃ assumed, m.assumedContract callee = .ok assumed ∧
        (e.calleeTerms.Implies assumed ↔ ¬ m.WeakensTrait callee) := by
  have hc := Model.consistent_of_build hbuild
  obtain ⟨m', hbuild', hmodel⟩ := Run.ofSnapshot_succeeds_iff.mp ⟨hrun, hs⟩
  cases hbuild.symm.trans hbuild'
  obtain ⟨g', verdicts, hgraph', hverdicts, rfl⟩ := Run.ofModel_succeeds_iff.mp hmodel
  cases hgraph.symm.trans hgraph'
  obtain ⟨site, -, harises⟩ := (Model.mem_edgesFrom_iff hc hgraph hi).mp he
  obtain ⟨callee, hcallee, -, htarget, hterms⟩ := harises.callee hk
  obtain ⟨state, hstate, hstateSound⟩ := hsound callee hcallee
  obtain ⟨findings, hfindings, rfl⟩ :=
    Model.findings_of_state hc hverdicts (Model.mem_items.mp hcallee) hstate
  have hrank := (rank_settle_le_iff.mp (TerminalState.isSound_iff_rank_le.mp hstateSound)).2
  obtain ⟨assumed, -, hassumed, -⟩ := Model.uncovered_of_itemFindings hfindings hrank
  refine ⟨callee, hcallee, hc.item?_eq_some_iff.mpr ⟨hcallee, htarget.symm⟩, hterms, assumed,
    hassumed, ?_⟩
  rw [hterms]
  exact Model.contract_implies_assumed_iff hfindings hrank hassumed

/-- A safe method that implements an unsafe one, with a caller that knows nothing of its argument. -/
def relaxedReader : Snapshot :=
  { items :=
      [.function
        { path := "crate::get", declaredUnsafe := true, params := ["n"], requirements := ["n < 16"] },
      .trait
        { path := "crate::Reader",
          methods :=
            [{ name := "at", declaredUnsafe := true, params := ["i"], requirements := ["i < 10"] }] },
      .struct { path := "crate::File" },
      .function
        { kind := .method, path := "crate::File::at", owner := some "crate::File", params := ["i"],
          implements := some "crate::Reader::at",
          body := [{ kind := .call, target := "crate::get", args := ["i"] }] },
      .function
        { path := "crate::main", params := ["k"],
          body :=
            [{ kind := .call, target := "crate::File::at", args := ["k"], receiver := some "file" }] }] }

/-- All items of the relaxed reader are sound, and yet its caller need not establish what the body of the
method was checked under. -/
theorem relaxedReader_weakens :
    ∃ report m g, (Run.ofSnapshot { reportRecommended := false } relaxedReader).outcome = .ok report ∧
      report.success = true ∧
      (Model.build { reportRecommended := false } relaxedReader).outcome = .ok m ∧
      (m.graph { reportRecommended := false }).outcome = .ok g ∧
      (∀ i ∈ m.items, ∃ state, (i.path, state) ∈ report.states ∧ state.isSound = true) ∧
      ∃ i ∈ m.items, ∃ e ∈ g.edgesFrom i.path, e.kind = .call ∧ ∃ callee assumed,
        m.item? e.target = some callee ∧ m.assumedContract callee = .ok assumed ∧
          ¬ e.calleeTerms.Implies assumed ∧ m.WeakensTrait callee := by
  let report : Report :=
    { criterion := .module,
      states := [("crate::get", .soundUnsafe), ("crate::Reader", .soundSafe),
        ("crate::Reader::at", .soundUnsafe), ("crate::File", .soundSafe),
        ("crate::File::at", .soundSafe), ("crate::main", .soundSafe)] }
  have hrun : (Run.ofSnapshot { reportRecommended := false } relaxedReader).outcome = .ok report := by
    decide +kernel
  -- the valuation of an index that the trait rules out
  let v : Valuation := ⟨fun key => key == "True", fun _ => 12⟩
  have hcheck : Run.examine { reportRecommended := false } relaxedReader (fun m g =>
      (m.items.all fun i => report.states.any fun entry => entry.1 == i.path && entry.2.isSound) &&
      m.items.any fun i => (g.edgesFrom i.path).any fun e => e.kind == .call &&
        (m.item? e.target).any fun callee => (m.assumedContract callee).toOption.any fun assumed =>
          v.Admits (e.calleeTerms.alternatives.flatten ++ assumed.alternatives.flatten) ∧
            e.calleeTerms.Holds v ∧ ¬ assumed.Holds v) = true := by
    decide +kernel
  obtain ⟨m, g, hm, hg, hcheck⟩ := Run.examine_eq_true_iff.mp hcheck
  simp only [Bool.and_eq_true, List.all_eq_true, List.any_eq_true, Prod.exists, beq_iff_eq,
    Option.any_eq_true, decide_eq_true_eq] at hcheck
  obtain ⟨hsound, i, hi, e, he, hk, callee, hcallee, assumed, hassumed, hv, hh, hnot⟩ := hcheck
  have hstates : ∀ i ∈ m.items, ∃ state, (i.path, state) ∈ report.states ∧ state.isSound = true := by
    intro i hi
    obtain ⟨path, state, hmem, rfl, hs⟩ := hsound i hi
    exact ⟨state, hmem, hs⟩
  obtain ⟨_, -, hcallee', -, _, hassumed', hiff⟩ :=
    imposed_implies_assumed_iff hrun rfl hm hg hstates hi he hk
  cases hcallee.symm.trans hcallee'
  have hne : ¬ e.calleeTerms.Implies assumed := fun himp => hnot (himp v hv hh)
  have hok : m.assumedContract callee = .ok assumed := by
    revert hassumed
    cases m.assumedContract callee <;> simp [Except.toOption]
  cases hok.symm.trans hassumed'
  exact ⟨report, m, g, hrun, rfl, hm, hg, hstates, i, hi, e, he, hk, callee, assumed, hcallee, hok,
    hne, not_not.mp fun hweak => hne (hiff.mpr hweak)⟩

end CrateSafety
