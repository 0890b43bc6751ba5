import CrateSafety.Proofs.ReportEntries

/-!
# Agreement of states and findings

A report lists the states and the findings of all entities in declaration order, whatever the order in which
they were checked. Findings are recommendations, which do not bear on the state, or violations, which rank
above the sound states. So the states of a report can be read off its findings.
-/

namespace CrateSafety

/-- Two lists in ascending order are equal if they have the same entries of each kind in the same order, and
entries of different kinds do not rank alike. -/
theorem Sorting.eq_of_filter_eq {α κ : Type} [DecidableEq κ] (kind : α → κ) (rank : κ → Int) {a b : List α}
    (ha : a.Pairwise fun x y => rank (kind x) ≤ rank (kind y))
    (hb : b.Pairwise fun x y => rank (kind x) ≤ rank (kind y))
    (hrank : ∀ x ∈ a, ∀ y ∈ b, rank (kind x) = rank (kind y) → kind x = kind y)
    (h : ∀ k, (a.filter fun x => kind x == k) = b.filter fun x => kind x == k) : a = b := by
  induction a generalizing b with
  | nil =>
    rcases b with _ | ⟨y, b⟩
    · rfl
    · have hy := h (kind y)
      simp at hy
  | cons x a ih =>
    rcases b with _ | ⟨y, b⟩
    · have hx := h (kind x)
      simp at hx
    · rw [List.pairwise_cons] at ha hb
      -- each first entry occurs in the other list, so neither ranks above the other
      have hxy : rank (kind y) ≤ rank (kind x) := by
        have hmem : x ∈ (y :: b).filter fun z => kind z == kind x := by
          rw [← h]
          simp
        rcases List.mem_cons.mp (List.mem_filter.mp hmem).1 with rfl | hmem
        · exact le_rfl
        · exact hb.1 x hmem
      have hyx : rank (kind x) ≤ rank (kind y) := by
        have hmem : y ∈ (x :: a).filter fun z => kind z == kind y := by
          rw [h]
          simp
        rcases List.mem_cons.mp (List.mem_filter.mp hmem).1 with rfl | hmem
        · exact le_rfl
        · exact ha.1 y hmem
      have hkind := hrank x List.mem_cons_self y List.mem_cons_self (le_antisymm hyx hxy)
      have hhead : x = y := by
        have hfirst := h (kind x)
        rw [List.filter_cons_of_pos (by simp), List.filter_cons_of_pos (by simp [hkind])] at hfirst
        exact (List.cons.inj hfirst).1
      subst hhead
      have hrest : a = b := by
        refine ih ha.2 hb.2 (fun z hz w hw => ?_) fun k => ?_
        · exact hrank z (List.mem_cons_of_mem x hz) w (List.mem_cons_of_mem x hw)
        · have hk := h k
          rw [List.filter_cons, List.filter_cons] at hk
          split at hk
          · exact (List.cons.inj hk).2
          · exact hk
      rw [hrest]

section Settling

variable {sound : TerminalState} {findings : List Finding}

/-- A settled state is the sound one, or that of a violation. -/
theorem settle_eq_or_exists (sound : TerminalState) (findings : List Finding) :
    settle sound findings = sound ∨
      ∃ f ∈ findings, f.severity = .violation ∧ f.state = settle sound findings := by
  induction findings generalizing sound with
  | nil => exact .inl rfl
  | cons f rest ih =>
    have hstep : settle sound (f :: rest) = settle
        (if f.severity == .violation && sound.rank < f.state.rank then f.state else sound) rest := rfl
    rw [hstep]
    have hlater : ∀ state, (∃ f' ∈ rest, f'.severity = .violation ∧ f'.state = settle state rest) →
        ∃ f' ∈ f :: rest, f'.severity = .violation ∧ f'.state = settle state rest := by
      rintro state ⟨f', hf', hspec⟩
      exact ⟨f', List.mem_cons_of_mem f hf', hspec⟩
    split
    case isTrue hraise =>
      simp only [Bool.and_eq_true, beq_iff_eq] at hraise
      right
      rcases ih f.state with heq | hexists
      · exact ⟨f, List.mem_cons_self, hraise.1, heq.symm⟩
      · exact hlater _ hexists
    case isFalse => exact (ih sound).imp id (hlater _)

/-- No violation ranks above the settled state. -/
theorem rank_le_settle {f : Finding} (hf : f ∈ findings) (hv : f.severity = .violation) :
    f.state.rank ≤ (settle sound findings).rank :=
  (rank_settle_le_iff.mp le_rfl).2 f hf hv

/-- Findings are recommendations, or violations that rank above the sound states. -/
def Graded (findings : List Finding) : Prop :=
  ∀ f ∈ findings, f.severity = .recommended ∨ f.severity = .violation ∧ 2 ≤ f.state.rank

namespace Graded

theorem nil : Graded [] := by
  simp [Graded]

theorem append {left right : List Finding} (hl : Graded left) (hr : Graded right) :
    Graded (left ++ right) :=
  List.forall_mem_append.mpr ⟨hl, hr⟩

theorem ite {c : Prop} [Decidable c] {left right : List Finding} (hl : Graded left)
    (hr : Graded right) : Graded (if c then left else right) := by
  split
  · exact hl
  · exact hr

theorem of_recommended (h : ∀ f ∈ findings, f.severity = .recommended) : Graded findings :=
  fun f hf => .inl (h f hf)

theorem of_violating (h : Violating findings) : Graded findings :=
  fun f hf => .inr (h f hf)

end Graded

theorem rank_sound_le (declaredUnsafe : Bool) : (TerminalState.sound declaredUnsafe).rank ≤ 1 := by
  cases declaredUnsafe <;> decide

/-- Graded findings settle on a sound state exactly if there is no violation among them. -/
theorem isSound_settle_iff (hg : Graded findings) {declaredUnsafe : Bool} :
    (settle (.sound declaredUnsafe) findings).isSound = true ↔
      ∀ f ∈ findings, f.severity ≠ .violation := by
  rw [TerminalState.isSound_iff_rank_le, rank_settle_le_iff, and_iff_right (rank_sound_le declaredUnsafe)]
  refine forall₂_congr fun f hf => ⟨fun hrank hv => ?_, fun hne hv => absurd hv hne⟩
  rcases hg f hf with hrec | ⟨-, habove⟩
  · rw [hrec] at hv
    cases hv
  · have hle := hrank hv
    omega

/-- A sound state is settled on only by the declaration. -/
theorem settle_of_isSound (hg : Graded findings)
    (hs : (settle sound findings).isSound = true) : settle sound findings = sound := by
  rcases settle_eq_or_exists sound findings with heq | ⟨f, hf, hv, hstate⟩
  · exact heq
  · rw [← hstate, TerminalState.isSound_iff_rank_le] at hs
    rcases hg f hf with hrec | ⟨-, habove⟩
    · rw [hrec] at hv
      cases hv
    · omega

/-- A state that is not sound is that of a violation. -/
theorem exists_violation_of_not_isSound {declaredUnsafe : Bool}
    (hs : (settle (.sound declaredUnsafe) findings).isSound = false) :
    ∃ f ∈ findings, f.severity = .violation ∧ f.state = settle (.sound declaredUnsafe) findings := by
  refine (settle_eq_or_exists _ _).resolve_left fun heq => ?_
  have hsound : (TerminalState.sound declaredUnsafe).isSound = true :=
    TerminalState.isSound_iff_rank_le.mpr (rank_sound_le declaredUnsafe)
  rw [heq, hsound] at hs
  cases hs

end Settling

namespace Model

variable {m : Model} {config : Config} {g : Graph}

section Grades

variable {i : Item} {edges : List Edge} {findings : List Finding}

theorem graded_itemFindings (h : m.itemFindings config edges i = .ok findings) : Graded findings := by
  have hfirst : Graded (m.issueFindings i.path ++ edges.flatMap (recommendationsAt config i)) := by
    refine .append (.of_violating (violating_issueFindings i.path)) (.of_recommended fun f hf => ?_)
    obtain ⟨e, -, hf⟩ := List.mem_flatMap.mp hf
    exact severity_recommendationsAt f hf
  unfold itemFindings at h
  dsimp only at h
  split at h
  · obtain ⟨rest, hrest, h⟩ := Outcome.bind_eq_ok_iff.mp h
    cases h
    exact .append hfirst (.of_violating (violating_implementationFindings hrest))
  · obtain ⟨rest, hrest, h⟩ := Outcome.bind_eq_ok_iff.mp h
    cases h
    exact .append hfirst (.of_violating (violating_plainFindings (Outcome.mapError_eq_ok_iff.mp hrest)))

/-- The findings of any entity are recommendations, or violations that rank above the sound states. -/
theorem graded_findingsOf {e : Entity} (h : m.findingsOf config g e = .ok findings) :
    Graded findings := by
  cases e with
  | item i => exact graded_itemFindings h
  | struct s => exact .of_violating (violating_structFindings (Outcome.mapError_eq_ok_iff.mp h))
  | trait t =>
    cases h
    exact .of_violating (violating_traitFindings t)
  | impl i =>
    cases h
    exact .append (.of_violating (.ite .nil (.single (by decide))))
      (.ite (.of_recommended severity_recommendation) .nil)
  | enum e =>
    cases h
    exact .nil

end Grades

section Order

variable {verdicts : List Verdict}

/-- Positions tell entities apart. -/
theorem Consistent.path_of_position (hc : m.Consistent) {e e' : Entity} (he : e ∈ m.entities)
    (he' : e' ∈ m.entities)
    (h : positionIn m.declarationOrder e.path = positionIn m.declarationOrder e'.path) :
    e.path = e'.path := by
  obtain ⟨n, hn, rfl⟩ := List.getElem_of_mem he
  obtain ⟨k, hk, rfl⟩ := List.getElem_of_mem he'
  rw [hc.positionIn_path hn, hc.positionIn_path hk] at h
  have hnk : n = k := by omega
  subst hnk
  rfl

/-- The entities of a run that succeeds have their findings. -/
theorem exists_found (hc : m.Consistent) (hg : (m.graph config).outcome = .ok g)
    (hv : m.verdicts config g = .ok verdicts) :
    ∃ found : Entity → List Finding, ∀ e ∈ m.entities, m.findingsOf config g e = .ok (found e) := by
  refine ⟨fun e => (m.findingsOf config g e).toOption.getD [], fun e he => ?_⟩
  obtain ⟨findings, hfindings, -⟩ := report_of_mem hc hg hv he
  simp [hfindings, Except.toOption]

/-- The states of a report are those of the entities in declaration order. -/
theorem states_of_verdicts (hc : m.Consistent) (hg : (m.graph config).outcome = .ok g)
    (hv : m.verdicts config g = .ok verdicts) {found : Entity → List Finding}
    (hfound : ∀ e ∈ m.entities, m.findingsOf config g e = .ok (found e)) :
    (Run.verdictReport config m verdicts).states =
      m.entities.map fun e => (e.path, settle (.sound e.declaredUnsafe) (found e)) := by
  let verdictOf (e : Entity) : Verdict := ⟨e.path, settle (.sound e.declaredUnsafe) (found e), found e⟩
  have hverdicts : (m.checkingOrder g).map verdictOf = verdicts.map id := by
    have hchecked : ∀ e ∈ m.checkingOrder g, e ∈ m.entities := fun e he => mem_entities_of_checked he
    have hboth := (List.forall₂_and_left _ _).mpr ⟨hchecked, Outcome.mapM_eq_ok_iff.mp hv⟩
    refine map_eq_map_of_forall₂ (hboth.imp fun e v ⟨he, hev⟩ => ?_)
    obtain ⟨findings, hfindings, rfl⟩ := verdict_eq_ok_iff.mp hev
    rw [← Except.ok.inj ((hfound e he).symm.trans hfindings)]
    rfl
  have hperm : verdicts.Perm (m.entities.map verdictOf) := by
    rw [← verdicts.map_id, ← hverdicts]
    have hentities : (m.checkingOrder g).Perm m.entities :=
      (List.perm_ext_iff_of_nodup (nodup_checkingOrder hc hg) hc.distinct.of_map).mpr
        fun e => mem_checkingOrder_iff hc hg
    exact hentities.map verdictOf
  have hsorted : Sorting.sort (fun a b => decide (positionIn m.declarationOrder a.path ≤
      positionIn m.declarationOrder b.path)) verdicts = m.entities.map verdictOf := by
    have hdeclared : (m.entities.map verdictOf).Pairwise fun a b =>
        positionIn m.declarationOrder a.path ≤ positionIn m.declarationOrder b.path :=
      List.pairwise_map.mpr (hc.pairwise_entities.imp le_of_lt)
    refine List.Perm.eq_of_pairwise (fun v v' hv hv' hle hge => ?_)
      (Sorting.pairwise_sort_key _ verdicts) hdeclared ((Sorting.sort_perm _ verdicts).trans hperm)
    -- entities at one position are one entity
    obtain ⟨e, he, rfl⟩ := List.mem_map.mp (hperm.mem_iff.mp (Sorting.mem_sort.mp hv))
    obtain ⟨e', he', rfl⟩ := List.mem_map.mp hv'
    rw [hc.eq_of_path he he' (hc.path_of_position he he' (le_antisymm hle hge))]
  simp only [Run.verdictReport, hsorted, List.map_map]
  rfl

/-- The findings of a report are those of the entities in declaration order, those of one entity as they
arose. -/
theorem findings_of_verdicts (hc : m.Consistent) (hg : (m.graph config).outcome = .ok g)
    (hv : m.verdicts config g = .ok verdicts) {found : Entity → List Finding}
    (hfound : ∀ e ∈ m.entities, m.findingsOf config g e = .ok (found e)) :
    (Run.verdictReport config m verdicts).findings = m.entities.flatMap found := by
  have habout : ∀ e ∈ m.entities, About e.path (found e) := fun e he => about_findingsOf (hfound e he)
  have hentity : ∀ f ∈ m.entities.flatMap found, ∃ e ∈ m.entities, f.path = e.path := by
    intro f hf
    obtain ⟨e, he, hf⟩ := List.mem_flatMap.mp hf
    exact ⟨e, he, habout e he f hf⟩
  have hfilter : ∀ path, (Run.verdictReport config m verdicts).findingsAt path =
      (m.entities.flatMap found).filter fun f => f.path == path := by
    intro path
    by_cases hpath : path ∈ m.entities.map Entity.path
    · obtain ⟨e, he, rfl⟩ := List.mem_map.mp hpath
      obtain ⟨findings, hfindings, -, hat⟩ := report_of_mem hc hg hv he
      rw [hat, About.filter_flatMap_of_mem hc.distinct habout he]
      exact Except.ok.inj (hfindings.symm.trans (hfound e he))
    · rw [(report_of_not_mem hc hg hv hpath).2, About.filter_flatMap_of_ne habout]
      exact fun e he heq => hpath (List.mem_map.mpr ⟨e, he, heq⟩)
  have hmem : ∀ f ∈ (Run.verdictReport config m verdicts).findings, f ∈ m.entities.flatMap found := by
    intro f hf
    have hat : f ∈ (Run.verdictReport config m verdicts).findingsAt f.path :=
      List.mem_filter.mpr ⟨hf, by simp⟩
    rw [hfilter] at hat
    exact List.mem_of_mem_filter hat
  refine Sorting.eq_of_filter_eq Finding.path (positionIn m.declarationOrder) ?_ ?_
    (fun f hf f' hf' heq => ?_) hfilter
  · exact Sorting.pairwise_sort_key (fun f : Finding => positionIn m.declarationOrder f.path) _
  · rw [List.pairwise_flatMap]
    refine ⟨fun e he => ?_, ?_⟩
    · refine List.pairwise_of_forall_mem_list fun f hf f' hf' => ?_
      rw [habout e he f hf, habout e he f' hf']
    · refine hc.pairwise_entities.imp_of_mem fun {e e'} he he' hlt f hf f' hf' => ?_
      rw [habout e he f hf, habout e' he' f' hf']
      exact le_of_lt hlt
  · obtain ⟨e, he, hpath⟩ := hentity f (hmem f hf)
    obtain ⟨e', he', hpath'⟩ := hentity f' hf'
    rw [hpath, hpath'] at heq ⊢
    exact hc.path_of_position he he' heq

end Order

section Reports

variable {verdicts : List Verdict}

/-- A report is sound exactly if it has no finding but recommendations. -/
theorem isSound_iff_violations (hc : m.Consistent) (hg : (m.graph config).outcome = .ok g)
    (hv : m.verdicts config g = .ok verdicts) :
    (Run.verdictReport config m verdicts).isSound = true ↔
      (Run.verdictReport config m verdicts).violations = [] := by
  obtain ⟨found, hfound⟩ := exists_found hc hg hv
  have hgraded : ∀ e ∈ m.entities, Graded (found e) := fun e he => graded_findingsOf (hfound e he)
  have hsound : (Run.verdictReport config m verdicts).isSound = true ↔
      ∀ e ∈ m.entities, ∀ f ∈ found e, f.severity ≠ .violation := by
    rw [Report.isSound, states_of_verdicts hc hg hv hfound]
    simp only [Run.verdictReport, Bool.true_and, List.all_map, List.all_eq_true, Function.comp_apply]
    exact forall₂_congr fun e he => isSound_settle_iff (hgraded e he)
  have hviolations : (Run.verdictReport config m verdicts).violations = [] ↔
      ∀ e ∈ m.entities, ∀ f ∈ found e, f.severity = .recommended := by
    rw [Report.violations, findings_of_verdicts hc hg hv hfound, List.filter_eq_nil_iff]
    simp only [List.mem_flatMap, bne_iff_ne, ne_eq, not_not, forall_exists_index, and_imp]
    exact ⟨fun h e he f hf => h f e he hf, fun h f e he hf => h e he f hf⟩
  rw [hsound, hviolations]
  refine forall₂_congr fun e he => forall₂_congr fun f hf => ?_
  rcases hgraded e he f hf with hrec | ⟨hvio, -⟩
  · simp [hrec]
  · simp [hvio]

end Reports

end Model

/-- In a run that succeeds, states and findings agree. States stand in declaration order, one for each
entity, and findings too, those of one entity as they arose. The state of an entity is sound exactly if it
has no violation, and is then the one of its declaration; otherwise it is the highest state among its
violations. The crate is sound exactly if there is no finding but recommendations. -/
theorem states_agree_with_findings {config : Config} {s : Snapshot} {report : Report}
    (hrun : (Run.ofSnapshot config s).outcome = .ok report) (hok : report.success = true) :
    ∃ m g, (Model.build config s).outcome = .ok m ∧ (m.graph config).outcome = .ok g ∧
      report.states.map (·.1) = m.entities.map Entity.path ∧ (report.states.map (·.1)).Nodup ∧
      (∃ found : Entity → List Finding,
        (∀ e ∈ m.entities, m.findingsOf config g e = .ok (found e)) ∧
        report.findings = m.entities.flatMap found ∧
        (∀ f ∈ report.findings, ∃ e ∈ m.entities, f.path = e.path) ∧
        ∀ e ∈ m.entities, report.findingsAt e.path = found e ∧
          ∃ state, report.state? e.path = some state ∧
            (state.isSound = true ↔ ∀ f ∈ report.findingsAt e.path, f.severity ≠ .violation) ∧
            (state.isSound = true → state = if e.declaredUnsafe then .soundUnsafe else .soundSafe) ∧
            (state.isSound = true → (∃ d, e = .struct d) ∨ (∃ d, e = .enum d) → state = .soundSafe) ∧
            (state.isSound = false →
              (∃ f ∈ report.findingsAt e.path, f.severity = .violation ∧ f.state = state) ∧
              ∀ f ∈ report.findingsAt e.path, f.severity = .violation → f.state.rank ≤ state.rank)) ∧
      (report.isSound = true ↔ report.violations = []) := by
  obtain ⟨m, hbuild, hmodel, -⟩ := Run.ofSnapshot_succeeds_iff.mp ⟨hrun, hok⟩
  obtain ⟨g, verdicts, hg, hv, rfl⟩ := Run.ofModel_succeeds_iff.mp ⟨hmodel, hok⟩
  have hc := Model.consistent_of_build hbuild
  obtain ⟨found, hfound⟩ := Model.exists_found hc hg hv
  have hfindings := Model.findings_of_verdicts hc hg hv hfound
  refine ⟨m, g, hbuild, hg, ?_, Model.nodup_states (Model.nodup_verdicts hc hg hv),
    ⟨found, hfound, hfindings, ?_, fun e he => ?_⟩, Model.isSound_iff_violations hc hg hv⟩
  · rw [Model.states_of_verdicts hc hg hv hfound, List.map_map]
    rfl
  · rw [hfindings]
    intro f hf
    obtain ⟨e, he, hf⟩ := List.mem_flatMap.mp hf
    exact ⟨e, he, Model.about_findingsOf (hfound e he) f hf⟩
  · obtain ⟨findings, hof, hstate, hat⟩ := Model.report_of_mem hc hg hv he
    have heq : findings = found e := Except.ok.inj (hof.symm.trans (hfound e he))
    subst heq
    have hgraded := Model.graded_findingsOf hof
    rw [hat]
    refine ⟨rfl, _, hstate, isSound_settle_iff hgraded, settle_of_isSound hgraded, fun hsound htype => ?_,
      fun hunsound => ⟨exists_violation_of_not_isSound hunsound, fun f hf hvio => rank_le_settle hf hvio⟩⟩
    rw [settle_of_isSound hgraded hsound]
    rcases htype with ⟨d, rfl⟩ | ⟨d, rfl⟩ <;> rfl

/-- A caller with a malformed requirement, declared before the struct that it stands beside and before the
unsafe function that it calls. -/
def openCell : Snapshot :=
  { items :=
      [.function
        { path := "crate::main", params := ["k"], requirements := ["ready(q)"],
          body := [{ kind := .call, target := "crate::fill", args := ["k"] }] },
      .struct
        { path := "crate::Cell", fields := [{ name := "len", visibility := { reach := .everywhere } }],
          visibility := { reach := .everywhere }, invariant := ["len < 8"] },
      .function
        { path := "crate::fill", declaredUnsafe := true, params := ["n"], requirements := ["n < 8"] }] }

/-- The caller of the open cell has violations of two states and a recommendation, and gets the higher
state; the report as a whole is not sound. -/
theorem openCell_agrees : ∃ report, (Run.ofSnapshot {} openCell).outcome = .ok report ∧
    report.success = true ∧
    report.states = [("crate::main", .malformedRequirement), ("crate::Cell", .boundaryViolation),
      ("crate::fill", .soundUnsafe)] ∧
    (report.findingsAt "crate::main").map (fun f => (f.severity, f.state.rank)) =
      [(.violation, 5), (.recommended, 0), (.violation, 2), (.violation, 2)] ∧
    report.violations ≠ [] := by
  have hcheck : ((Run.ofSnapshot {} openCell).outcome.toOption.any fun r =>
      r.success && r.states == [("crate::main", .malformedRequirement), ("crate::Cell", .boundaryViolation),
        ("crate::fill", .soundUnsafe)] &&
      (r.findingsAt "crate::main").map (fun f => (f.severity, f.state.rank)) ==
        [(.violation, 5), (.recommended, 0), (.violation, 2), (.violation, 2)]) = true := by
    decide +kernel
  obtain ⟨report, hrun, hreport⟩ := Outcome.any_toOption_eq_true_iff.mp hcheck
  simp only [Bool.and_eq_true, beq_iff_eq] at hreport
  obtain ⟨⟨hok, hstates⟩, hmain⟩ := hreport
  obtain ⟨m, g, -, -, -, -, -, hsound⟩ := states_agree_with_findings hrun hok
  refine ⟨report, hrun, hok, hstates, hmain, fun hnone => ?_⟩
  have hall := hsound.mpr hnone
  rw [Report.isSound, hstates] at hall
  simp [TerminalState.isSound] at hall

end CrateSafety
