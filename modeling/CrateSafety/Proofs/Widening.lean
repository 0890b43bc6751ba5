import CrateSafety.Proofs.CheckTotality

/-!
# Wider criteria

A wider soundness boundary never makes a verdict worse. Whatever leaves the wider boundary leaves the
narrower one too, so obligations and exposed fields only drop out; and where an item without requirements
of its own comes to be declared unsafe for nothing, the obligations that dropped out ranked as high.
-/

namespace CrateSafety

namespace Criterion

/-- The criteria from the narrowest to the widest. -/
def width : Criterion → Nat
  | struct => 0
  | module => 1
  | crate => 2

end Criterion

/-- The same configuration under another criterion. -/
def Config.under (config : Config) (criterion : Criterion) : Config :=
  { config with criterion := criterion }

variable {narrow wide : Criterion}

namespace Boundary

variable {struct module : String} {scope : Scope}

/-- What can be named outside a boundary can be named outside a narrower one. -/
theorem escapes_of_wider (h : narrow.width ≤ wide.width)
    (he : Boundary.escapes ⟨struct, module, wide⟩ scope = true) :
    Boundary.escapes ⟨struct, module, narrow⟩ scope = true := by
  cases narrow <;> cases wide <;> simp_all [escapes, Criterion.width]

/-- An item inside a boundary lies inside a wider one, items of the struct itself apart. -/
theorem contains_of_wider (h : narrow.width ≤ wide.width) {i : Item} (ho : i.owner ≠ some struct)
    (hc : Boundary.contains ⟨struct, module, narrow⟩ i = true) :
    Boundary.contains ⟨struct, module, wide⟩ i = true := by
  cases narrow <;> cases wide <;> simp_all [contains, Criterion.width]

theorem forFields_escapes_of_wider (h : narrow.width ≤ wide.width)
    (he : (Boundary.forFields ⟨struct, module, wide⟩).escapes scope = true) :
    (Boundary.forFields ⟨struct, module, narrow⟩).escapes scope = true := by
  cases narrow <;> cases wide <;> simp_all [forFields, escapes, Criterion.width]

end Boundary

namespace Model

variable {m : Model} {config : Config} {g : Graph} {i : Item} {n : Nat}

/-- An obligation that counts under a criterion counts under a narrower one, and means the same. -/
theorem Placed.of_wider (h : narrow.width ≤ wide.width) {e : Edge} {p : Placement}
    (hp : m.Placed (config.under wide) i e p) : m.Placed (config.under narrow) i e p := by
  cases hp with
  | requirement kind => exact .requirement kind
  | constructor s kind known owner builds => exact .constructor s kind known owner builds
  | method s scope kind known owner uses found exposed =>
    exact .method s scope kind known owner uses found (Boundary.escapes_of_wider h exposed)
  | foreign s kind known owner reaches =>
    refine .foreign s kind known owner fun hin => ?_
    obtain ⟨scope, hscope, hescapes⟩ := reaches (Boundary.contains_of_wider h owner hin)
    exact ⟨scope, hscope, Boundary.escapes_of_wider h hescapes⟩

theorem coverageOf_of_wider (h : narrow.width ≤ wide.width) {contract : Condition} {e : Edge}
    {p : Placement} {c : Coverage}
    (hc : m.coverageOf (config.under wide) i contract e = .ok (some (p, c))) :
    m.coverageOf (config.under narrow) i contract e = .ok (some (p, c)) := by
  obtain ⟨hd, hp, hcheck⟩ := coverageOf_eq_some_iff.mp hc
  have hplaced := (placement_eq_some_iff.mp hp).of_wider h
  exact coverageOf_eq_some_iff.mpr ⟨hd, placement_eq_some_iff.mpr hplaced, hcheck⟩

section Items

variable {contract : Condition} {edges : List Edge} {gaps gaps' : List Uncovered} {relies relies' : Bool}
  {findings findings' : List Finding}

/-- A wider criterion leaves fewer obligations uncovered and relies on the invariant less. -/
theorem uncovered_of_wider (h : narrow.width ≤ wide.width)
    (hn : m.uncovered (config.under narrow) i contract edges = .ok (gaps, relies))
    (hw : m.uncovered (config.under wide) i contract edges = .ok (gaps', relies')) :
    gaps' ⊆ gaps ∧ (relies' = true → relies = true) := by
  obtain ⟨-, hgaps, hrelies⟩ := uncovered_spec hn
  obtain ⟨-, hgaps', hrelies'⟩ := uncovered_spec hw
  constructor
  · intro u hu
    obtain ⟨he, c, hc, hm⟩ := (hgaps' u).mp hu
    exact (hgaps u).mpr ⟨he, c, coverageOf_of_wider h hc, hm⟩
  · intro hr
    obtain ⟨e, he, p, c, hc, hrel⟩ := hrelies'.mp hr
    exact hrelies.mpr ⟨e, he, p, c, coverageOf_of_wider h hc, hrel⟩

theorem plainFindings_of_wider (h : narrow.width ≤ wide.width)
    (hn : m.plainFindings (config.under narrow) i edges = .ok findings)
    (hw : m.plainFindings (config.under wide) i edges = .ok findings')
    (hr : RankedWithin n findings) : RankedWithin n findings' := by
  obtain ⟨gaps, relies, hgaps, hiff⟩ := plainFindings_spec hn
  obtain ⟨gaps', relies', hgaps', hiff'⟩ := plainFindings_spec hw
  obtain ⟨hsub, hrelies⟩ := uncovered_of_wider h hgaps hgaps'
  obtain ⟨hmarker, hranks, hdeclared⟩ := (hiff n).mp hr
  refine (hiff' n).mpr ⟨fun hr' => hmarker (hrelies hr'), fun u hu => hranks u (hsub hu), ?_⟩
  rintro ⟨hdoc, hpassed'⟩
  -- either the narrower criterion finds the declaration at fault too, or an obligation that passes on
  by_cases hpassed : gaps.filter (passesOn (config.under narrow) i) = []
  · exact hdeclared ⟨hdoc, fun _ => hpassed⟩
  · obtain ⟨u, hu⟩ := List.exists_mem_of_ne_nil _ hpassed
    have hmem := List.mem_of_mem_filter hu
    have hrank := rank_of_placement (placement_of_mem_uncovered hgaps hmem)
    exact hrank.trans (hranks u hmem)

theorem implementationFindings_of_wider (h : narrow.width ≤ wide.width) {declared : Item}
    (hn : m.implementationFindings (config.under narrow) i declared edges = .ok findings)
    (hw : m.implementationFindings (config.under wide) i declared edges = .ok findings')
    (hr : RankedWithin n findings) : RankedWithin n findings' := by
  obtain ⟨contract, gaps, relies, hcontract, hgaps, hiff⟩ := implementationFindings_spec hn
  obtain ⟨contract', gaps', relies', hcontract', hgaps', hiff'⟩ := implementationFindings_spec hw
  cases hcontract.symm.trans hcontract'
  obtain ⟨hsub, -⟩ := uncovered_of_wider h hgaps hgaps'
  obtain ⟨hflag, hdemands, hranks⟩ := (hiff n).mp hr
  exact (hiff' n).mpr ⟨hflag, hdemands, fun u hu => hranks u (hsub hu)⟩

theorem itemFindings_of_wider (h : narrow.width ≤ wide.width)
    (hn : m.itemFindings (config.under narrow) edges i = .ok findings)
    (hw : m.itemFindings (config.under wide) edges i = .ok findings')
    (hr : RankedWithin n findings) : RankedWithin n findings' := by
  obtain ⟨rest, hiff, hrest⟩ := itemFindings_spec hn
  obtain ⟨rest', hiff', hrest'⟩ := itemFindings_spec hw
  obtain ⟨hissues, hranks⟩ := (hiff n).mp hr
  refine (hiff' n).mpr ⟨hissues, ?_⟩
  cases hd : i.implements?.bind m.item? with
  | some declared =>
    simp only [hd] at hrest hrest'
    exact implementationFindings_of_wider h hrest hrest' hranks
  | none =>
    simp only [hd] at hrest hrest'
    exact plainFindings_of_wider h hrest hrest' hranks

end Items

section Entities

theorem fieldExposed_of_wider (h : narrow.width ≤ wide.width) {s : Struct} {name : String}
    (hw : m.fieldExposed s name ⟨s.path, s.module, wide⟩ = .ok true) :
    m.fieldExposed s name ⟨s.path, s.module, narrow⟩ = .ok true := by
  obtain ⟨scope, hscope, hw⟩ := Outcome.bind_eq_ok_iff.mp hw
  injection hw with hescapes
  refine Outcome.bind_eq_ok_iff.mpr ⟨scope, hscope, ?_⟩
  rw [Boundary.forFields_escapes_of_wider h hescapes]
  rfl

theorem structFindings_of_wider (h : narrow.width ≤ wide.width) {s : Struct}
    {findings findings' : List Finding}
    (hn : m.structFindings (config.under narrow) s = .ok findings)
    (hw : m.structFindings (config.under wide) s = .ok findings')
    (hr : RankedWithin n findings) : RankedWithin n findings' := by
  obtain ⟨hissues, hexposed⟩ := (structFindings_spec hn).mp hr
  refine (structFindings_spec hw).mpr ⟨hissues, fun name hname hout => ?_⟩
  exact hexposed name hname (fieldExposed_of_wider h hout)

/-- Findings of an entity under a wider criterion rank no higher. -/
theorem findingsOf_of_wider (h : narrow.width ≤ wide.width) {e : Entity}
    {findings findings' : List Finding}
    (hn : m.findingsOf (config.under narrow) g e = .ok findings)
    (hw : m.findingsOf (config.under wide) g e = .ok findings')
    (hr : RankedWithin n findings) : RankedWithin n findings' := by
  cases e with
  | item i => exact itemFindings_of_wider h hn hw hr
  | struct s =>
    exact structFindings_of_wider h (Outcome.mapError_eq_ok_iff.mp hn)
      (Outcome.mapError_eq_ok_iff.mp hw) hr
  | trait t =>
    cases hn
    cases hw
    exact hr
  | impl i =>
    cases hn
    cases hw
    exact hr
  | enum d =>
    cases hn
    cases hw
    exact hr

/-- The state of an entity under a wider criterion ranks no higher. -/
theorem rank_settledState_le (hc : m.Consistent) (hg : (m.graph config).outcome = .ok g) {e : Entity}
    (he : e ∈ m.entities) (ht : m.Translatable e) (h : narrow.width ≤ wide.width) :
    (m.settledState (config.under wide) g e).rank ≤ (m.settledState (config.under narrow) g e).rank := by
  obtain ⟨findings, hn⟩ := (findingsOf_isOk_iff (config.under narrow) hc hg he).mpr ht
  obtain ⟨findings', hw⟩ := (findingsOf_isOk_iff (config.under wide) hc hg he).mpr ht
  rw [settledState_of_findings hn, settledState_of_findings hw]
  obtain ⟨hsound, hranked⟩ := rank_settle_le_iff.mp (Nat.le_refl _)
  exact rank_settle_le_iff.mpr ⟨hsound, findingsOf_of_wider h hn hw hranked⟩

end Entities

end Model

/-- A run that succeeds on a model under one criterion succeeds under every one, and settles each entity in
one state under each: the state under the module criterion ranks no higher than under the struct criterion,
and that under the crate criterion no higher than under the module criterion. What is sound stays so. -/
theorem wider_ranks_no_higher {base config : Config} {s : Snapshot} {m : Model} {criterion : Criterion}
    {report : Report} (hb : (Model.build base s).outcome = .ok m)
    (hrun : (Run.ofModel (config.under criterion) m).outcome = .ok report)
    (hs : report.success = true) :
    ∃ state : Criterion → Entity → TerminalState,
      (∀ c, ∃ report', (Run.ofModel (config.under c) m).outcome = .ok report' ∧
        report'.success = true ∧
        ∀ e ∈ m.entities, ∀ st, (e.path, st) ∈ report'.states ↔ st = state c e) ∧
      ∀ e ∈ m.entities,
        (state .module e).rank ≤ (state .struct e).rank ∧
        (state .crate e).rank ≤ (state .module e).rank ∧
        ((state .struct e).isSound = true → (state .module e).isSound = true) ∧
        ((state .module e).isSound = true → (state .crate e).isSound = true) := by
  have hc := Model.consistent_of_build hb
  obtain ⟨g, verdicts, hg, hverdicts, -⟩ := Run.ofModel_succeeds_iff.mp ⟨hrun, hs⟩
  have ht := Model.translatable_of_verdicts hc hg hverdicts
  have hle : ∀ (narrow wide : Criterion), narrow.width ≤ wide.width → ∀ e ∈ m.entities,
      (m.settledState (config.under wide) g e).rank ≤
        (m.settledState (config.under narrow) g e).rank :=
    fun _ _ hwidth e he => Model.rank_settledState_le hc hg he (ht e he) hwidth
  refine ⟨fun c e => m.settledState (config.under c) g e,
    fun c => Model.ofModel_of_translatable hc hg ht, fun e he => ?_⟩
  have hmodule := hle .struct .module (by decide) e he
  have hcrate := hle .module .crate (by decide) e he
  simp only [TerminalState.isSound_iff_rank_le]
  exact ⟨hmodule, hcrate, fun hsound => hmodule.trans hsound, fun hsound => hcrate.trans hsound⟩

/-- A buffer whose length is written without a check, in its own module and from another one. -/
def openBuffer : Snapshot :=
  { modules := [{ path := "crate::data" }],
    items :=
      [.struct
        { path := "crate::data::Buffer", module := "crate::data", visibility := { reach := .wholeCrate },
          fields := [{ name := "len", visibility := { reach := .wholeCrate } }],
          invariant := ["len < 8"] },
      .function
        { path := "crate::data::fill", module := "crate::data", params := ["n"],
          body :=
            [{ kind := .fieldWrite, target := "crate::data::Buffer", receiver := some "buffer",
               field := some "len", value := some "n" }] },
      .function
        { path := "crate::poke", params := ["n"],
          body :=
            [{ kind := .fieldWrite, target := "crate::data::Buffer", receiver := some "buffer",
               field := some "len", value := some "n" }] }] }

/-- The open buffer is sound as a crate, so that it has a state under every criterion; one of its functions
breaks the boundary of the struct only, the other one that of the module too. -/
theorem openBuffer_ranks :
    ∃ m, (Model.build {} openBuffer).outcome = .ok m ∧
      (∃ report, (Run.ofModel (Config.under {} .crate) m).outcome = .ok report ∧
        report.success = true) ∧
      ∃ state : Criterion → Entity → TerminalState,
        (∀ e ∈ m.entities,
          (state .module e).rank ≤ (state .struct e).rank ∧
          (state .crate e).rank ≤ (state .module e).rank) ∧
        (∃ e ∈ m.entities, state .struct e = .boundaryViolation ∧ state .module e = .soundSafe) ∧
        ∃ e ∈ m.entities, state .module e = .boundaryViolation ∧ state .crate e = .soundSafe := by
  have hcheck : ((Model.build {} openBuffer).outcome.toOption.any fun m =>
        decide ((Run.ofModel (Config.under {} .crate) m).outcome = .ok
          { criterion := .crate,
            states := [("crate::data::Buffer", .soundSafe), ("crate::data::fill", .soundSafe),
              ("crate::poke", .soundSafe)] }) &&
        ((Run.ofModel (Config.under {} .struct) m).outcome.toOption.any fun r =>
          r.states.contains ("crate::data::fill", .boundaryViolation)) &&
        ((Run.ofModel (Config.under {} .module) m).outcome.toOption.any fun r =>
          r.states.contains ("crate::data::fill", .soundSafe) &&
            r.states.contains ("crate::poke", .boundaryViolation)) &&
        ["crate::data::fill", "crate::poke"].all fun path => m.entities.any fun e => e.path == path) =
      true := by
    decide +kernel
  cases hb : (Model.build {} openBuffer).outcome with
  | error e => simp [hb, Except.toOption] at hcheck
  | ok m =>
    simp only [hb, Except.toOption, Option.any_some, Bool.and_eq_true, decide_eq_true_eq, Option.any_eq_true, List.contains_iff_mem,
      List.all_cons, List.all_nil, and_true, List.any_eq_true, beq_iff_eq] at hcheck
    obtain ⟨⟨⟨hcrate, rs, hstruct, hfill⟩, rm, hmodule, hfill', hpoke'⟩, ⟨fill, hfe, hfp⟩, poke, hpe, hpp⟩ :=
      hcheck
    obtain ⟨state, hstates, hranks⟩ := wider_ranks_no_higher hb hcrate rfl
    have hstate : ∀ c r, (Run.ofModel (Config.under {} c) m).outcome.toOption = some r →
        ∀ e ∈ m.entities, ∀ st, (e.path, st) ∈ r.states → state c e = st := by
      intro c r hr e he st hst
      obtain ⟨report', hrun', -, hiff⟩ := hstates c
      rw [hrun'] at hr
      cases hr
      exact ((hiff e he st).mp hst).symm
    have hcrate' := congrArg Except.toOption hcrate
    refine ⟨m, rfl, ⟨_, hcrate, rfl⟩, state, fun e he => ⟨(hranks e he).1, (hranks e he).2.1⟩,
      ⟨fill, hfe, ?_, ?_⟩, poke, hpe, ?_, ?_⟩
    · exact hstate .struct rs hstruct fill hfe _ (hfp ▸ hfill)
    · exact hstate .module rm hmodule fill hfe _ (hfp ▸ hfill')
    · exact hstate .module rm hmodule poke hpe _ (hpp ▸ hpoke')
    · exact hstate .crate _ hcrate' poke hpe _ (by simp [hpp])

end CrateSafety
