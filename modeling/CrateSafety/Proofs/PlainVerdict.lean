import CrateSafety.Proofs.ReportAgreement

/-!
# The verdict on a plain item

An item that implements no trait method is sound exactly if it is in order: its requirements are well formed,
each obligation of its body is discharged, tolerated or covered, reliance on the invariant of its receiver is
marked, and it is declared unsafe exactly if it documents a requirement. Each way to fall short is reported as
a violation, and nothing else is.
-/

namespace CrateSafety

namespace Model

variable {m : Model} {config : Config} {g : Graph} {i : Item} {edges : List Edge}

/-- The coverage of an obligation by the contract of a plain item and the invariant of its receiver. -/
def ownCoverage (m : Model) (i : Item) (e : Edge) : Coverage :=
  Coverage.check e.outstanding e.site.guards i.contract (m.invariantFor i)

/-- What a plain item has to meet, given the obligations of its body. -/
structure InOrder (m : Model) (config : Config) (i : Item) (edges : List Edge) : Prop where
  /-- The model records no malformed requirement for it. -/
  wellFormed : m.issuesFor i.path = []
  /-- Each obligation is discharged, tolerated or covered. -/
  met : ∀ e ∈ edges, e.isDischarged = true ∨ m.placement config i e = .ok none ∨
    (m.ownCoverage i e).covered = true
  /-- Reliance on the invariant, at an obligation that is neither discharged nor tolerated, is marked. -/
  marked : (∃ e ∈ edges, e.isDischarged = false ∧ (∃ p, m.placement config i e = .ok (some p)) ∧
    (m.ownCoverage i e).reliesOnInvariant = true) → i.requirements.hasMarker = true
  /-- It is declared unsafe exactly if it documents a requirement. -/
  declared : i.declaredUnsafe = true ↔ i.requirements.documented.isEmpty = false

/-- Malformed requirements rank highest. -/
theorem rankedWithin_issueFindings_iff {n : Nat} {path : String} :
    RankedWithin n (m.issueFindings path) ↔ (m.issuesFor path ≠ [] → 5 ≤ n) := by
  rw [RankedWithin, issueFindings, List.forall_mem_map]
  constructor
  · intro h hne
    obtain ⟨issue, hissue⟩ := List.exists_mem_of_ne_nil _ hne
    exact h issue hissue rfl
  · intro h issue hissue _
    exact h (List.ne_nil_of_mem hissue)

section Obligations

variable {contract : Condition} {gaps : List Uncovered} {relies : Bool}

/-- No obligation is left uncovered exactly if each is discharged, tolerated or covered. -/
theorem uncovered_eq_nil_iff (h : m.uncovered config i contract edges = .ok (gaps, relies)) :
    gaps = [] ↔ ∀ e ∈ edges, e.isDischarged = true ∨ m.placement config i e = .ok none ∨
      (Coverage.check e.outstanding e.site.guards contract (m.invariantFor i)).covered = true := by
  obtain ⟨hall, hgaps, -⟩ := uncovered_spec h
  rw [List.eq_nil_iff_forall_not_mem]
  constructor
  · intro hnone e he
    cases hd : e.isDischarged with
    | true => exact .inl rfl
    | false =>
      right
      obtain ⟨result, hresult⟩ := hall e he
      obtain ⟨placed, hplaced⟩ := exists_placement_of_coverageOf hd hresult
      cases placed with
      | none => exact .inl hplaced
      | some p =>
        right
        rw [Coverage.covered, Option.isNone_iff_eq_none, Option.eq_none_iff_forall_ne_some]
        intro missing hm
        refine hnone ⟨e, missing, p⟩ ((hgaps _).mpr ⟨he, _, ?_, hm⟩)
        exact coverageOf_eq_some_iff.mpr ⟨hd, hplaced, rfl⟩
  · intro hmet u hu
    obtain ⟨he, c, hc, hm⟩ := (hgaps u).mp hu
    obtain ⟨hd, hp, rfl⟩ := coverageOf_eq_some_iff.mp hc
    rcases hmet u.edge he with hdischarged | htolerated | hcovered
    · rw [hd] at hdischarged
      cases hdischarged
    · rw [hp] at htolerated
      cases htolerated
    · rw [Coverage.covered, hm] at hcovered
      cases hcovered

/-- The invariant is relied on exactly if it is at an obligation that is neither discharged nor tolerated. -/
theorem relies_iff (h : m.uncovered config i contract edges = .ok (gaps, relies)) :
    relies = true ↔ ∃ e ∈ edges, e.isDischarged = false ∧ (∃ p, m.placement config i e = .ok (some p)) ∧
      (Coverage.check e.outstanding e.site.guards contract (m.invariantFor i)).reliesOnInvariant = true := by
  rw [(uncovered_spec h).2.2]
  constructor
  · rintro ⟨e, he, p, c, hc, hrelies⟩
    obtain ⟨hd, hp, rfl⟩ := coverageOf_eq_some_iff.mp hc
    exact ⟨e, he, hd, ⟨p, hp⟩, hrelies⟩
  · rintro ⟨e, he, hd, ⟨p, hp⟩, hrelies⟩
    exact ⟨e, he, p, _, coverageOf_eq_some_iff.mpr ⟨hd, hp, rfl⟩, hrelies⟩

end Obligations

/-- Without uncovered obligations, a declaration fits exactly if unsafety and documentation go together. -/
theorem not_misdeclared_nil_iff :
    ¬ Misdeclared i [] ↔ (i.declaredUnsafe = true ↔ i.requirements.documented.isEmpty = false) := by
  unfold Misdeclared
  cases i.declaredUnsafe <;> cases i.requirements.documented.isEmpty <;> simp

/-- The findings of a plain item stay within the sound states exactly if the item is in order. -/
theorem rankedWithin_one_iff_inOrder {findings : List Finding} (hplain : i.implements? = none)
    (h : m.itemFindings config edges i = .ok findings) :
    RankedWithin 1 findings ↔ m.InOrder config i edges := by
  obtain ⟨rest, hsplit, hrest⟩ := itemFindings_spec h
  simp only [hplain, Option.bind_none] at hrest
  obtain ⟨gaps, relies, hgaps, hranks⟩ := plainFindings_spec hrest
  have hnil := uncovered_eq_nil_iff hgaps
  have hrelies := relies_iff hgaps
  rw [hsplit 1, hranks 1, rankedWithin_issueFindings_iff]
  constructor
  · rintro ⟨hissues, hmarker, hstates, hdeclared⟩
    have hempty : gaps = [] := eq_nil_of_uncovered hgaps hstates
    rw [hempty] at hdeclared
    refine ⟨?_, hnil.mp hempty, fun hrel => ?_, ?_⟩
    · by_contra hne
      have hle := hissues hne
      omega
    · by_contra hne
      have hle := hmarker (hrelies.mpr hrel) (by simpa using hne)
      omega
    · refine not_misdeclared_nil_iff.mp fun hmis => ?_
      have hle := hdeclared hmis
      omega
  · rintro ⟨hissues, hmet, hmarked, hdeclared⟩
    have hempty : gaps = [] := hnil.mpr hmet
    subst hempty
    refine ⟨fun hne => absurd hissues hne, fun hrel hnot => ?_, by simp, fun hmis => ?_⟩
    · have hmarker := hmarked (hrelies.mp hrel)
      rw [hnot] at hmarker
      cases hmarker
    · exact absurd hmis (not_misdeclared_nil_iff.mpr hdeclared)

end Model

/-- In a run that succeeds, an item that implements no trait method has a sound state exactly if it is in
order, and this state is then the unsafe one exactly if the item is declared unsafe. -/
theorem plain_sound_iff_inOrder {config : Config} {s : Snapshot} {report : Report}
    (hrun : (Run.ofSnapshot config s).outcome = .ok report) (hok : report.success = true) :
    ∃ m g, (Model.build config s).outcome = .ok m ∧ (m.graph config).outcome = .ok g ∧
      ∀ i ∈ m.items, i.implements? = none → ∃ state, report.state? i.path = some state ∧
        (state.isSound = true ↔ m.InOrder config i (g.edgesFrom i.path)) ∧
        (state.isSound = true → (state = .soundUnsafe ↔ i.declaredUnsafe = true)) := by
  obtain ⟨m, hbuild, hmodel, -⟩ := Run.ofSnapshot_succeeds_iff.mp ⟨hrun, hok⟩
  obtain ⟨g, verdicts, hg, hv, rfl⟩ := Run.ofModel_succeeds_iff.mp ⟨hmodel, hok⟩
  have hc := Model.consistent_of_build hbuild
  refine ⟨m, g, hbuild, hg, fun i hi hplain => ?_⟩
  obtain ⟨findings, hfindings, hstate, -⟩ := Model.report_of_mem hc hg hv (Model.mem_items.mp hi)
  refine ⟨_, hstate, ?_, fun hsound => ?_⟩
  · rw [TerminalState.isSound_iff_rank_le, rank_settle_le_iff, and_iff_right (rank_sound_le _)]
    exact Model.rankedWithin_one_iff_inOrder hplain hfindings
  · rw [settle_of_isSound (Model.graded_findingsOf hfindings) hsound]
    cases hu : i.declaredUnsafe <;> simp [Entity.declaredUnsafe, TerminalState.sound, hu]

/-- A ring whose invariant bounds the slot that its methods reach; one of them does not say that it relies on
the invariant. -/
def ringAccess : Snapshot :=
  { items :=
      [.function
        { path := "crate::slot", declaredUnsafe := true, params := ["n"], requirements := ["n < 8"] },
      .struct
        { path := "crate::Ring", fields := [{ name := "len" }], invariant := ["len < 8"] },
      .function
        { path := "crate::Ring::last", kind := .method, owner := some "crate::Ring",
          requirements := ["invariant(self)"],
          body := [{ kind := .call, target := "crate::slot", args := ["self.len"] }] },
      .function
        { path := "crate::Ring::next", kind := .method, owner := some "crate::Ring",
          body := [{ kind := .call, target := "crate::slot", args := ["self.len"] }] }] }

/-- Both methods of the ring rely on its invariant; only the one that is marked is in order. -/
theorem ringAccess_inOrder :
    ∃ report m g, (Run.ofSnapshot {} ringAccess).outcome = .ok report ∧ report.success = true ∧
      (Model.build {} ringAccess).outcome = .ok m ∧ (m.graph {}).outcome = .ok g ∧
      (∃ i ∈ m.items, i.path = "crate::Ring::last" ∧ m.InOrder {} i (g.edgesFrom i.path)) ∧
      ∃ i ∈ m.items, i.path = "crate::Ring::next" ∧ ¬ m.InOrder {} i (g.edgesFrom i.path) := by
  have hcheck : ((Run.ofSnapshot {} ringAccess).outcome.toOption.any fun r =>
      r.success && r.state? "crate::Ring::last" == some .soundSafe &&
        r.state? "crate::Ring::next" == some .classificationViolation) = true := by
    decide +kernel
  have hitems : Run.examine {} ringAccess (fun m _ =>
      (m.items.any fun i => i.path == "crate::Ring::last" && i.implements? == none) &&
        m.items.any fun i => i.path == "crate::Ring::next" && i.implements? == none) = true := by
    decide +kernel
  obtain ⟨report, hrun, hreport⟩ := Outcome.any_toOption_eq_true_iff.mp hcheck
  simp only [Bool.and_eq_true, beq_iff_eq] at hreport
  obtain ⟨⟨hok, hlast⟩, hnext⟩ := hreport
  obtain ⟨m, g, hm, hg, hall⟩ := plain_sound_iff_inOrder hrun hok
  obtain ⟨m', g', hm', -, hitems⟩ := Run.examine_eq_true_iff.mp hitems
  cases hm.symm.trans hm'
  simp only [Bool.and_eq_true, List.any_eq_true, beq_iff_eq] at hitems
  obtain ⟨⟨last, hlastMem, hlastPath, hlastPlain⟩, next, hnextMem, hnextPath, hnextPlain⟩ := hitems
  obtain ⟨state, hstate, hiff, -⟩ := hall last hlastMem hlastPlain
  obtain ⟨state', hstate', hiff', -⟩ := hall next hnextMem hnextPlain
  rw [hlastPath, hlast] at hstate
  rw [hnextPath, hnext] at hstate'
  cases hstate
  cases hstate'
  refine ⟨report, m, g, hrun, hok, hm, hg, ⟨last, hlastMem, hlastPath, hiff.mp rfl⟩, next, hnextMem,
    hnextPath, fun horder => ?_⟩
  have hsound := hiff'.mpr horder
  cases hsound

end CrateSafety
