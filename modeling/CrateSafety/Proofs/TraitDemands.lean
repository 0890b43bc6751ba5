import CrateSafety.Proofs.AssumedContract
import CrateSafety.Proofs.SimultaneousRenaming

/-!
# Demands of implementations

An item that implements a trait method may be called through the trait, by callers that know the documented
requirements of the trait method only. A sound one asks nothing more of them: its requirements follow from
those of the trait method, with the parameters of the trait method renamed to its own by position.
-/

namespace CrateSafety

namespace Model

variable {config : Config} {s : Snapshot} {m : Model} {declared i : Item} {contract : Condition}

/-- The requirements of an item are documented lines. -/
theorem requirements_of_build (h : (build config s).outcome = .ok m) (hi : i ∈ m.items) :
    ∃ lines, Condition.ofLines lines = .ok i.requirements := by
  obtain ⟨built, hbuilt⟩ := builtFrom_of_build h
  obtain ⟨d, es, hd, hmem, -⟩ := hbuilt.exists_declaration (mem_items.mp hi)
  exact requirements_of_buildEntities hd hmem

/-- The atoms of the documented requirements of an item were read from its lines. -/
theorem isRead_documented (h : (build config s).outcome = .ok m) (hi : i ∈ m.items) :
    ∀ a ∈ i.requirements.documented.alternatives.flatten, a.IsRead := by
  obtain ⟨lines, hlines⟩ := requirements_of_build h hi
  intro a ha
  exact Condition.isRead_ofLines hlines a (Condition.flatten_without_subset _ _ ha)

/-- The contract of a trait method, in the terms of an item, has the atoms of its documented requirements
with the parameters replaced by position. -/
theorem traitContract_spec (hread : ∀ a ∈ declared.requirements.documented.alternatives.flatten, a.IsRead)
    (h : traitContract declared i = .ok contract) :
    ∃ renamed : List Conjunction,
      List.Forall₂ (List.Forall₂ (Atom.RenamedBy (Renaming.counterpart declared.params i.params)))
        declared.requirements.documented.alternatives renamed ∧
      (∀ v, contract.Holds v ↔ renamed = [] ∨ ∃ atoms ∈ renamed, atoms.Holds v) ∧
      contract.alternatives.flatten ⊆ renamed.flatten := by
  obtain ⟨renamed, hrenamed, hholds, hsubset⟩ := Condition.rename_spec h
  have hposition : Renaming.counterpart declared.params i.params =
      fun name => (Renaming.zip declared.params i.params).lookup name := by
    funext name
    exact (Renaming.lookup_zip _ _ _).symm
  refine ⟨renamed, ?_, hholds, hsubset⟩
  rw [hposition]
  have hatoms : ∀ atoms ∈ declared.requirements.documented.alternatives, ∀ a ∈ atoms, a.IsRead :=
    fun atoms hatoms a ha => hread a (List.mem_flatten_of_mem hatoms ha)
  refine ((List.forall₂_and_left _ _).mpr ⟨hatoms, hrenamed⟩).imp fun atoms atoms' ⟨hall, hboth⟩ => ?_
  refine ((List.forall₂_and_left _ _).mpr ⟨hall, hboth⟩).imp fun a a' ⟨ha, haa'⟩ => ?_
  exact Atom.renamedBy_of_rename ha (Renaming.nodup_zip _ _) haa'

end Model

/-- A sound implementation never demands more than its trait: it is declared unsafe only if the trait method
is, and wherever the documented requirements of the trait method hold, with all its parameters renamed at once
to those of the item by position, the documented requirements of the item hold too. -/
theorem implementation_demands_no_more {config : Config} {s : Snapshot} {report : Report} {m : Model}
    (hrun : (Run.ofSnapshot config s).outcome = .ok report) (hok : report.success = true)
    (hbuild : (Model.build config s).outcome = .ok m) {i : Item} (hi : i ∈ m.items) {path : String}
    (himplements : i.implements? = some path) {state : TerminalState}
    (hstate : (i.path, state) ∈ report.states) (hsound : state.isSound = true) :
    ∃ declared ∈ m.items, declared.path = path ∧ declared.kind = .traitMethod ∧
      (i.declaredUnsafe = true → declared.declaredUnsafe = true) ∧
      ∃ (contract : Condition) (renamed : List Conjunction),
        Model.traitContract declared i = .ok contract ∧
        List.Forall₂ (List.Forall₂ (Atom.RenamedBy (Renaming.counterpart declared.params i.params)))
          declared.requirements.documented.alternatives renamed ∧
        (∀ v, contract.Holds v ↔ renamed = [] ∨ ∃ atoms ∈ renamed, atoms.Holds v) ∧
        contract.alternatives.flatten ⊆ renamed.flatten ∧
        ∀ v : Valuation,
          v.Admits (contract.alternatives.flatten ++ i.requirements.documented.alternatives.flatten) →
            contract.Holds v → i.requirements.documented.Holds v := by
  have hc := Model.consistent_of_build hbuild
  obtain ⟨m', hbuild', hmodel⟩ := Run.ofSnapshot_succeeds_iff.mp ⟨hrun, hok⟩
  cases hbuild.symm.trans hbuild'
  obtain ⟨g, verdicts, hgraph, hverdicts, rfl⟩ := Run.ofModel_succeeds_iff.mp hmodel
  obtain ⟨declared, hdeclared, hpath, hkind⟩ := hc.implements i hi path himplements
  have hfound : i.implements?.bind m.item? = some declared := by
    rw [himplements]
    exact hc.item?_eq_some_iff.mpr ⟨hdeclared, hpath⟩
  obtain ⟨findings, hfindings, rfl⟩ :=
    Model.findings_of_state hc hverdicts (Model.mem_items.mp hi) hstate
  have hrank := (rank_settle_le_iff.mp (TerminalState.isSound_iff_rank_le.mp hsound)).2
  obtain ⟨contract, hcontract, hunsafe, hdemands⟩ :=
    Model.demands_of_itemFindings hfindings hrank hfound
  obtain ⟨renamed, hrenamed, hholds, hsubset⟩ :=
    Model.traitContract_spec (Model.isRead_documented hbuild hdeclared) hcontract
  exact ⟨declared, hdeclared, hpath, hkind, hunsafe, contract, renamed, hcontract, hrenamed, hholds, hsubset,
    Condition.implies_of_entailedBy hdemands⟩

/-- A trait method and an implementation of it that has the names of the two parameters the other way round,
and one parameter more. -/
def swappedCopy : Snapshot :=
  { items :=
      [.trait
        { path := "crate::Copier",
          methods :=
            [{ name := "copy", declaredUnsafe := true, params := ["dst", "src"],
               requirements := ["writable(dst)", "src < 8 or dst == src"] }] },
      .struct { path := "crate::Fast" },
      .function
        { kind := .method, path := "crate::Fast::copy", owner := some "crate::Fast", declaredUnsafe := true,
          params := ["src", "dst", "hint"], implements := some "crate::Copier::copy",
          requirements := ["writable(src) and (dst < 16 or src == dst)"] }] }

/-- The implementation of the swapped copy is sound, and its requirements hold where those of the trait method
do with the names swapped, although they do not with the names as they are. -/
theorem swappedCopy_demands_no_more :
    ∃ report m i declared, (Run.ofSnapshot {} swappedCopy).outcome = .ok report ∧ report.success = true ∧
      (Model.build {} swappedCopy).outcome = .ok m ∧ i ∈ m.items ∧
      i.implements? = some "crate::Copier::copy" ∧ (i.path, .soundUnsafe) ∈ report.states ∧
      declared ∈ m.items ∧ declared.path = "crate::Copier::copy" ∧ ∃ v : Valuation,
        ¬ declared.requirements.documented.Holds v ∧ i.requirements.documented.Holds v := by
  let report : Report :=
    { criterion := .module,
      states := [("crate::Copier", .soundSafe), ("crate::Copier::copy", .soundUnsafe),
        ("crate::Fast", .soundSafe), ("crate::Fast::copy", .soundUnsafe)] }
  have hrun : (Run.ofSnapshot {} swappedCopy).outcome = .ok report := by
    decide +kernel
  -- a writable source, and a small number as the destination
  let v : Valuation :=
    ⟨fun key => ["True", "writable ( src )", "dst < 8", "dst < 16"].contains key,
      fun subject => if subject = "dst" then 5 else 20⟩
  have hcheck : ((Model.build {} swappedCopy).outcome.toOption.any fun m =>
      m.items.any fun i => i.path == "crate::Fast::copy" &&
        decide (i.implements? = some "crate::Copier::copy") &&
        (m.item? "crate::Copier::copy").any fun declared =>
          !decide (declared.requirements.documented.Holds v) &&
          (Model.traitContract declared i).toOption.any fun contract =>
            decide (v.Admits (contract.alternatives.flatten ++
              i.requirements.documented.alternatives.flatten) ∧ contract.Holds v)) = true := by
    decide +kernel
  obtain ⟨m, hbuild, hmodel⟩ := Outcome.any_toOption_eq_true_iff.mp hcheck
  simp only [List.any_eq_true, Bool.and_eq_true, beq_iff_eq, decide_eq_true_eq, Option.any_eq_true,
    Bool.not_eq_true', decide_eq_false_iff_not] at hmodel
  obtain ⟨i, hi, ⟨hpath, himplements⟩, declared, hdeclared, hnot, contract, hcontract, hadmits, hholds⟩ :=
    hmodel
  have hstate : (i.path, TerminalState.soundUnsafe) ∈ report.states := by
    simp [report, hpath]
  obtain ⟨found, hfound, hname, -, -, contract', -, hcontract', -, -, -, himplies⟩ :=
    implementation_demands_no_more hrun rfl hbuild hi himplements hstate rfl
  have heq : found = declared := by
    have hc := Model.consistent_of_build hbuild
    rw [hc.item?_eq_some_iff.mpr ⟨hfound, hname⟩] at hdeclared
    exact Option.some.inj hdeclared
  subst heq
  rw [hcontract'] at hcontract
  cases hcontract
  exact ⟨report, m, i, found, hrun, rfl, hbuild, hi, himplements, hstate, hfound, hname, v, hnot,
    himplies v hadmits hholds⟩

end CrateSafety
