import CrateSafety.Proofs.Consistency
import CrateSafety.Proofs.Settlement
import CrateSafety.Analysis.Run

/-!
# Completed runs

A run that succeeds has a model, an obligation graph and a verdict on each entity, and its report is made of
these alone. The state that it reports for a path is settled from the findings of the entity of that path.
-/

namespace CrateSafety

namespace Run

variable {config : Config} {m : Model} {s : Snapshot} {report : Report}

@[simp] theorem outcome_log (level : LogLevel) (message : String) :
    (log level message).outcome = .ok () := rfl

theorem outcome_classify (g : Graph) : (classify config m g).outcome =
    (m.verdicts config g).mapError .ofCheck >>= fun verdicts =>
      .ok (verdictReport config m verdicts) := by
  unfold classify
  simp only [Traced.outcome_bind, Traced.outcome_lift]
  congr 1
  funext verdicts
  split <;> rfl

/-- A run on a model ends as its obligations and their classification do. -/
theorem outcome_ofModel : (ofModel config m).outcome =
    match (m.graph config).outcome with
    | .ok g => (classify config m g).outcome
    | .error (.cyclic cycle) => .ok (cyclicReport config m cycle)
    | .error (.obligation e) => .error (.ofObligation e) := by
  have hwarn : ∀ (warn : Bool) (message : String) (rest : Run Report),
      (if warn = true then do log .warning message; rest else rest).outcome = rest.outcome := by
    intro warn message rest
    cases warn with
    | false => rfl
    | true =>
      rw [if_pos rfl, Traced.outcome_bind]
      rfl
  unfold ofModel
  simp only [Traced.outcome_bind, outcome_log, hwarn]
  cases hg : (m.graph config).outcome with
  | ok g => rfl
  | error e => cases e <;> rfl

/-- A run on a model succeeds exactly with the report of the verdicts on its obligations. -/
theorem ofModel_succeeds_iff :
    (ofModel config m).outcome = .ok report ∧ report.success = true ↔
      ∃ g verdicts, (m.graph config).outcome = .ok g ∧ m.verdicts config g = .ok verdicts ∧
        report = verdictReport config m verdicts := by
  rw [outcome_ofModel]
  cases hg : (m.graph config).outcome with
  | ok g =>
    simp only [outcome_classify, Outcome.bind_eq_ok_iff, Outcome.mapError_eq_ok_iff,
      Except.ok.injEq]
    constructor
    · rintro ⟨⟨verdicts, hv, rfl⟩, -⟩
      exact ⟨g, verdicts, rfl, hv, rfl⟩
    · rintro ⟨_, verdicts, rfl, hv, rfl⟩
      exact ⟨⟨verdicts, hv, rfl⟩, rfl⟩
  | error e =>
    simp only [reduceCtorEq, false_and, exists_false, iff_false, not_and]
    intro h
    cases e <;> cases h
    simp [cyclicReport]

/-- A run on a snapshot succeeds exactly if there is a model and the run on it succeeds. -/
theorem ofSnapshot_succeeds_iff :
    (ofSnapshot config s).outcome = .ok report ∧ report.success = true ↔
      ∃ m, (Model.build config s).outcome = .ok m ∧ (ofModel config m).outcome = .ok report ∧
        report.success = true := by
  unfold ofSnapshot
  cases hb : (Model.build config s).outcome with
  | ok m => simp
  | error e =>
    simp only [reduceCtorEq, false_and, exists_false, iff_false, not_and]
    intro h
    cases e <;> cases h <;> simp [Report.failure]

/-- Whether a snapshot has a model and obligations that pass a test. -/
def examine (config : Config) (s : Snapshot) (test : Model → Graph → Bool) : Bool :=
  match (Model.build config s).outcome with
  | .ok m =>
    match (m.graph config).outcome with
    | .ok g => test m g
    | .error _ => false
  | .error _ => false

theorem examine_eq_true_iff {test : Model → Graph → Bool} : examine config s test = true ↔
    ∃ m g, (Model.build config s).outcome = .ok m ∧ (m.graph config).outcome = .ok g ∧
      test m g = true := by
  unfold examine
  cases hb : (Model.build config s).outcome with
  | error e => simp
  | ok m => cases hg : (m.graph config).outcome <;> simp [hg]

/-- The states of a report are those of its verdicts. -/
theorem mem_states_iff {verdicts : List Verdict} {path : String} {state : TerminalState} :
    (path, state) ∈ (verdictReport config m verdicts).states ↔
      ∃ v ∈ verdicts, v.path = path ∧ v.state = state := by
  simp [verdictReport]

end Run

namespace Model

variable {m : Model} {config : Config} {g : Graph} {e : Entity}

theorem verdict_eq_ok_iff {v : Verdict} : m.verdict config g e = .ok v ↔
    ∃ findings, m.findingsOf config g e = .ok findings ∧
      v = ⟨e.path, settle (.sound e.declaredUnsafe) findings, findings⟩ := by
  unfold verdict
  rw [Outcome.bind_eq_ok_iff]
  simp only [pure, Except.pure, Except.ok.injEq, eq_comm]

/-- Only entities of the model are checked. -/
theorem mem_entities_of_checked (h : e ∈ m.checkingOrder g) : e ∈ m.entities := by
  simp only [checkingOrder, List.mem_append, List.mem_map, List.mem_filterMap, mem_structs, mem_traits,
    mem_impls, mem_enums] at h
  rcases h with (((⟨i, ⟨path, -, hi⟩, rfl⟩ | ⟨s, hs, rfl⟩) | ⟨t, ht, rfl⟩) | ⟨b, hb, rfl⟩) |
    ⟨d, hd, rfl⟩
  · exact mem_items.mp (List.mem_of_find?_eq_some hi)
  · exact hs
  · exact ht
  · exact hb
  · exact hd

/-- The state that is reported for the path of an entity is settled from the findings of that entity. -/
theorem findings_of_state (hc : m.Consistent) {verdicts : List Verdict}
    (hv : m.verdicts config g = .ok verdicts) (he : e ∈ m.entities) {state : TerminalState}
    (hs : (e.path, state) ∈ (Run.verdictReport config m verdicts).states) :
    ∃ findings, m.findingsOf config g e = .ok findings ∧
      state = settle (.sound e.declaredUnsafe) findings := by
  obtain ⟨v, hm, hpath, rfl⟩ := Run.mem_states_iff.mp hs
  obtain ⟨e', he', hverdict⟩ := exists_left_of_forall₂ (Outcome.mapM_eq_ok_iff.mp hv) hm
  obtain ⟨findings, hfindings, rfl⟩ := verdict_eq_ok_iff.mp hverdict
  rw [hc.eq_of_path (mem_entities_of_checked he') he hpath] at hfindings ⊢
  exact ⟨findings, hfindings, rfl⟩

end Model

end CrateSafety
