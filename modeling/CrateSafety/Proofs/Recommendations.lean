import CrateSafety.Proofs.ReportEntries

/-!
# Recommendations

Recommendations stand among the violations of an entity but do not bear on its state. So a run that does
not report them ends as the run that does, with the recommendations left out of its findings and everything
else the same. Findings are sorted stably, so that they can be left out before or after sorting.
-/

namespace CrateSafety

/-- The same configuration, with recommendations reported or not. -/
def Config.reporting (config : Config) (recommended : Bool) : Config :=
  { config with reportRecommended := recommended }

/-- The findings that are not recommendations. -/
def binding (findings : List Finding) : List Finding :=
  findings.filter fun f => f.severity != .recommended

section Findings

variable {findings : List Finding}

theorem binding_append (left right : List Finding) :
    binding (left ++ right) = binding left ++ binding right :=
  List.filter_append left right

theorem binding_of_recommended (h : ∀ f ∈ findings, f.severity = .recommended) :
    binding findings = [] := by
  rw [binding, List.filter_eq_nil_iff]
  intro f hf
  simp [h f hf]

theorem binding_of_violating (h : Violating findings) : binding findings = findings := by
  rw [binding, List.filter_eq_self]
  intro f hf
  simp [(h f hf).1]

/-- Recommendations do not bear on the settled state. -/
theorem settle_binding (sound : TerminalState) (findings : List Finding) :
    settle sound (binding findings) = settle sound findings := by
  rw [binding, settle, List.foldl_filter, settle]
  congr 1
  funext state f
  cases hs : f.severity <;> simp

/-- Recommendations that stand between violations drop out. -/
theorem binding_between {ε : Type} {issues advice : List Finding} {found : Except ε (List Finding)}
    (hissues : Violating issues) (hadvice : ∀ f ∈ advice, f.severity = .recommended)
    (hfound : ∀ rest, found = .ok rest → Violating rest) :
    (do return issues ++ (← found)) = binding <$> (do return issues ++ advice ++ (← found)) := by
  cases found with
  | error e => rfl
  | ok rest =>
    have hrest := hfound rest rfl
    show Except.ok (issues ++ rest) = Except.ok (binding (issues ++ advice ++ rest))
    rw [binding_append, binding_append, binding_of_violating hissues, binding_of_recommended hadvice,
      binding_of_violating hrest, List.append_nil]

end Findings

/-- A verdict without its recommendations. -/
def Verdict.unadorned (v : Verdict) : Verdict := { v with findings := binding v.findings }

/-- A report without its recommendations. -/
def Report.unadorned (r : Report) : Report := { r with findings := binding r.findings }

namespace Model

variable {m : Model} {config : Config} {g : Graph} {i : Item} {edges : List Edge}

theorem recommendationsAt_silent (e : Edge) : recommendationsAt (config.reporting false) i e = [] := by
  have hnone : ∀ (rule : Rule) (explanation : String),
      recommendation (config.reporting false) i.path i.declaredUnsafe rule explanation e.line = [] :=
    fun _ _ => rfl
  unfold recommendationsAt
  dsimp only
  split <;> simp [hnone]

/-- Where recommendations are not reported, an item has its other findings. -/
theorem itemFindings_silent :
    m.itemFindings (config.reporting false) edges i = binding <$> m.itemFindings config edges i := by
  have hsilent : edges.flatMap (recommendationsAt (config.reporting false) i) = [] := by
    simp [List.flatMap_eq_nil_iff, recommendationsAt_silent]
  have hadvice : ∀ f ∈ edges.flatMap (recommendationsAt config i), f.severity = .recommended := by
    intro f hf
    obtain ⟨e, -, hf⟩ := List.mem_flatMap.mp hf
    exact severity_recommendationsAt f hf
  -- what follows the recommendations does not look at whether they are reported
  unfold itemFindings
  dsimp only
  rw [hsilent, List.append_nil]
  split
  case h_1 declared _ =>
    exact binding_between (violating_issueFindings i.path) hadvice fun rest hrest =>
      violating_implementationFindings hrest
  case h_2 =>
    exact binding_between (violating_issueFindings i.path) hadvice fun rest hrest =>
      violating_plainFindings (Outcome.mapError_eq_ok_iff.mp hrest)

theorem implFindings_silent (i : Impl) :
    m.implFindings (config.reporting false) i = binding (m.implFindings config i) := by
  unfold implFindings
  dsimp only
  rw [binding_append]
  congr 1
  · exact (binding_of_violating (.ite .nil (.single (by decide)))).symm
  · rw [binding_of_recommended]
    · split <;> rfl
    · split
      · exact severity_recommendation
      · simp

/-- Where recommendations are not reported, an entity has its other findings. -/
theorem findingsOf_silent (e : Entity) :
    m.findingsOf (config.reporting false) g e = binding <$> m.findingsOf config g e := by
  cases e with
  | item i => exact itemFindings_silent
  | struct s =>
    show (m.structFindings config s).mapError CheckError.scope =
      binding <$> (m.structFindings config s).mapError CheckError.scope
    cases hf : m.structFindings config s with
    | error e => rfl
    | ok findings => exact congrArg Except.ok (binding_of_violating (violating_structFindings hf)).symm
  | trait t => exact congrArg Except.ok (binding_of_violating (violating_traitFindings t)).symm
  | impl i => exact congrArg Except.ok (implFindings_silent i)
  | enum d => rfl

theorem verdict_silent (e : Entity) :
    m.verdict (config.reporting false) g e = Verdict.unadorned <$> m.verdict config g e := by
  unfold verdict
  rw [findingsOf_silent]
  cases m.findingsOf config g e with
  | error e => rfl
  | ok findings =>
    show Except.ok (Verdict.mk _ (settle _ (binding findings)) _) = Except.ok _
    rw [settle_binding]
    rfl

theorem verdicts_silent :
    m.verdicts (config.reporting false) g = List.map Verdict.unadorned <$> m.verdicts config g := by
  have hverdict : m.verdict (config.reporting false) g =
      fun e => Verdict.unadorned <$> m.verdict config g e := funext verdict_silent
  rw [verdicts, hverdict, Outcome.mapM_map, verdicts]

end Model

namespace Run

variable {config : Config} {m : Model}

/-- The report of verdicts without recommendations is the report without them. -/
theorem verdictReport_unadorned (verdicts : List Verdict) :
    verdictReport (config.reporting false) m (verdicts.map Verdict.unadorned) =
      (verdictReport config m verdicts).unadorned := by
  have hstates : (verdictReport (config.reporting false) m (verdicts.map Verdict.unadorned)).states =
      (verdictReport config m verdicts).states := by
    simp only [verdictReport, Sorting.sort_map, List.map_map]
    rfl
  have hfindings : (verdictReport (config.reporting false) m (verdicts.map Verdict.unadorned)).findings =
      binding (verdictReport config m verdicts).findings := by
    simp only [verdictReport, Register.findings, binding, Sorting.filter_sort_key, List.filter_flatMap,
      List.flatMap_map]
    rfl
  show Report.mk _ _ _ _ _ _ = Report.mk _ _ _ _ _ _
  rw [Report.mk.injEq]
  exact ⟨rfl, rfl, hstates, hfindings, rfl, rfl⟩

theorem outcome_ofModel_silent :
    (ofModel (config.reporting false) m).outcome = Report.unadorned <$> (ofModel config m).outcome := by
  have hgraph : m.graph (config.reporting false) = m.graph config := rfl
  rw [outcome_ofModel, outcome_ofModel, hgraph]
  cases (m.graph config).outcome with
  | ok g =>
    dsimp only
    rw [outcome_classify, outcome_classify, Model.verdicts_silent]
    cases m.verdicts config g with
    | error e => rfl
    | ok verdicts => exact congrArg Except.ok (verdictReport_unadorned verdicts)
  | error e => cases e <;> rfl

theorem outcome_ofSnapshot_silent (s : Snapshot) :
    (ofSnapshot (config.reporting false) s).outcome =
      Report.unadorned <$> (ofSnapshot config s).outcome := by
  have hbuild : Model.build (config.reporting false) s = Model.build config s := rfl
  unfold ofSnapshot
  rw [hbuild]
  cases (Model.build config s).outcome with
  | ok m => exact outcome_ofModel_silent
  | error e => cases e <;> rfl

theorem outcome_ofJson_silent (value : Json) :
    (ofJson (config.reporting false) value).outcome = Report.unadorned <$> (ofJson config value).outcome := by
  unfold ofJson
  cases Snapshot.ofJson value with
  | valid s => exact outcome_ofSnapshot_silent s
  | invalid faults => rfl

/-- Two runs end alike but for the recommendations of the first: both fail with one error, or both report,
with one outcome, the same errors and the same states, and the second finds what the first finds apart from
its recommendations, in the same order. -/
inductive AlikeButAdvice : Except RunError Report → Except RunError Report → Prop where
  /-- Neither run has a report. -/
  | failed (e : RunError) : AlikeButAdvice (.error e) (.error e)
  /-- Both runs have a report. -/
  | reported (full bare : Report) (success : bare.success = full.success)
      (errors : bare.errors = full.errors) (states : bare.states = full.states)
      (findings : bare.findings = full.findings.filter fun f => f.severity != .recommended) :
      AlikeButAdvice (.ok full) (.ok bare)

theorem alikeButAdvice_unadorned (outcome : Except RunError Report) :
    AlikeButAdvice outcome (Report.unadorned <$> outcome) := by
  cases outcome with
  | error e => exact .failed e
  | ok report => exact .reported report report.unadorned rfl rfl rfl rfl

end Run

/-- Recommendations never bear on verdicts: whether a run takes a value, a snapshot or a model, its outcome
with recommendations and the one without are alike but for these. -/
theorem recommendations_leave_verdicts (config : Config) :
    (∀ value : Json, Run.AlikeButAdvice (Run.ofJson (config.reporting true) value).outcome
      (Run.ofJson (config.reporting false) value).outcome) ∧
    (∀ s : Snapshot, Run.AlikeButAdvice (Run.ofSnapshot (config.reporting true) s).outcome
      (Run.ofSnapshot (config.reporting false) s).outcome) ∧
    ∀ m : Model, Run.AlikeButAdvice (Run.ofModel (config.reporting true) m).outcome
      (Run.ofModel (config.reporting false) m).outcome := by
  have htwice : (config.reporting true).reporting false = config.reporting false := rfl
  refine ⟨fun value => ?_, fun s => ?_, fun m => ?_⟩
  · rw [← htwice, Run.outcome_ofJson_silent]
    exact Run.alikeButAdvice_unadorned _
  · rw [← htwice, Run.outcome_ofSnapshot_silent]
    exact Run.alikeButAdvice_unadorned _
  · rw [← htwice, Run.outcome_ofModel_silent]
    exact Run.alikeButAdvice_unadorned _

/-- A read through a raw pointer, neither justified nor documented in full. -/
def hastyRead : Snapshot :=
  { items :=
      [.function
        { path := "crate::read", declaredUnsafe := true, params := ["p"], requirements := ["aligned(p)"],
          body := [{ kind := .rawDeref, target := "p" }] }] }

/-- The hasty read is found at fault with or without the advice to justify it. -/
theorem hastyRead_without_advice :
    ∃ full bare, (Run.ofSnapshot (Config.reporting {} true) hastyRead).outcome = .ok full ∧
      (Run.ofSnapshot (Config.reporting {} false) hastyRead).outcome = .ok bare ∧
      full.findings.map Finding.rule = [.recommendedSafetyComment, .functionComment1] ∧
      bare.findings.map Finding.rule = [.functionComment1] ∧ bare.success = true ∧
      bare.states = [("crate::read", .classificationViolation)] := by
  have hcheck : ((Run.ofSnapshot (Config.reporting {} true) hastyRead).outcome.toOption.any fun r =>
      r.success && r.states == [("crate::read", .classificationViolation)] &&
      r.findings.map Finding.rule == [.recommendedSafetyComment, .functionComment1] &&
      (r.findings.filter fun f => f.severity != .recommended).map Finding.rule == [.functionComment1]) =
        true := by
    decide +kernel
  obtain ⟨full, hfull, hreport⟩ := Outcome.any_toOption_eq_true_iff.mp hcheck
  simp only [Bool.and_eq_true, beq_iff_eq] at hreport
  obtain ⟨⟨⟨hok, hstates⟩, hrules⟩, hbinding⟩ := hreport
  have halike := (recommendations_leave_verdicts {}).2.1 hastyRead
  rw [hfull] at halike
  cases hbare : (Run.ofSnapshot (Config.reporting {} false) hastyRead).outcome with
  | error e =>
    rw [hbare] at halike
    cases halike
  | ok bare =>
    rw [hbare] at halike
    cases halike with
    | reported _ _ success _ states findings =>
      refine ⟨full, bare, hfull, rfl, hrules, ?_, success.trans hok, states.trans hstates⟩
      rw [findings, hbinding]

end CrateSafety
