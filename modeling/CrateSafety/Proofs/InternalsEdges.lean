import CrateSafety.Proofs.CheckTotality
import CrateSafety.Proofs.Discharge
import CrateSafety.Proofs.SimultaneousRenaming

/-!
# Obligations on the internals of a struct

A struct literal and a field write have to establish the invariant of a struct. The invariant of a built model
was read from documented lines, and no key occurs twice in an alternative of it. What an obligation requires is
the concerned part of the invariant, its atoms renamed one by one. A write concerns nothing if no atom touches
the written member, the atoms that touch it if there is one alternative, and the whole invariant else.
-/

namespace CrateSafety

/-- A renamed atom is read like the atom itself. -/
theorem Atom.IsRead.rename {a a' : Atom} {r : Renaming} (hread : a.IsRead) (h : a.rename r = .ok a') :
    a'.IsRead := by
  unfold Atom.rename at h
  dsimp only at h
  split at h
  case isTrue =>
    cases h
    exact hread
  case isFalse =>
    split at h
    case h_1 => exact .inr ⟨_, (Except.ok.inj h).symm⟩
    case h_2 node paths hsource =>
      obtain ⟨names, -, h⟩ := Outcome.bind_eq_ok_iff.mp h
      obtain ⟨fields, -, h⟩ := Outcome.bind_eq_ok_iff.mp h
      obtain ⟨renamed, -, h⟩ := Outcome.bind_eq_ok_iff.mp h
      exact .inl ⟨renamed, paths, h⟩

namespace Condition

variable {c renamed : Condition} {r : Renaming}

theorem isRead_rename (hread : ∀ a ∈ c.alternatives.flatten, a.IsRead) (h : c.rename r = .ok renamed) :
    ∀ a ∈ renamed.alternatives.flatten, a.IsRead := by
  intro a ha
  obtain ⟨alternatives, hrenamed, -, hsubset⟩ := rename_spec h
  obtain ⟨atoms', hatoms', ha⟩ := List.mem_flatten.mp (hsubset ha)
  obtain ⟨atoms, hatoms, hboth⟩ := exists_left_of_forall₂ hrenamed hatoms'
  obtain ⟨original, horiginal, hrename⟩ := exists_left_of_forall₂ hboth ha
  exact (hread original (List.mem_flatten_of_mem hatoms horiginal)).rename hrename

/-- A condition in normal form: no alternative is empty, and no key occurs twice in one. -/
structure Normal (c : Condition) : Prop where
  /-- No key occurs twice in an alternative. -/
  distinct : ∀ atoms ∈ c.alternatives, atoms.KeysDistinct
  /-- No alternative is empty. -/
  nonempty : ∀ atoms ∈ c.alternatives, atoms ≠ []

theorem normal_build (given : List Conjunction) : (build given).Normal := by
  refine ⟨fun _ => keysDistinct_of_mem_build, fun atoms hatoms hnil => ?_⟩
  obtain ⟨original, horiginal, hdedupe⟩ := exists_of_mem_build hatoms
  have hempty : original = [] := Conjunction.dedupe_eq_nil_iff.mp (hdedupe.symm.trans hnil)
  have hnone : (build given).alternatives = [] :=
    alternatives_build_eq_nil_iff.mpr (.inr (hempty ▸ horiginal))
  rw [hnone] at hatoms
  cases hatoms

theorem normal_rename (h : c.rename r = .ok renamed) : renamed.Normal := by
  unfold rename at h
  split at h
  case isTrue hempty =>
    cases h
    have hnil : c.alternatives = [] := List.isEmpty_iff.mp hempty
    constructor <;> simp [hnil]
  case isFalse =>
    obtain ⟨alternatives, -, h⟩ := Outcome.bind_eq_ok_iff.mp h
    cases h
    exact normal_build alternatives

/-- The atoms that touch a member of `self`. -/
def touching (member : String) (atoms : Conjunction) : Conjunction :=
  atoms.filter fun a => a.selfMembers.contains member

theorem mem_touching_iff {member : String} {atoms : Conjunction} {a : Atom} :
    a ∈ touching member atoms ↔ a ∈ atoms ∧ member ∈ a.selfMembers := by
  rw [touching, List.mem_filter, List.contains_iff_mem]

/-- What a condition keeps for one member of `self`. -/
inductive Keeps (c : Condition) (member : String) (kept : Condition) : Prop where
  /-- No atom touches the member: nothing is kept. -/
  | nothing (untouched : ∀ a ∈ c.atoms, member ∉ a.selfMembers) (none : kept = {})
  /-- There is one alternative: its atoms that touch the member are kept. -/
  | touched (single : c.alternatives = [c.atoms]) (some : kept.alternatives = [touching member c.atoms])
      (nonempty : touching member c.atoms ≠ [])
  /-- There are several alternatives: all are kept. -/
  | whole (several : c.alternatives.length ≠ 1) (touched : ∃ a ∈ c.atoms, member ∈ a.selfMembers)
      (all : kept = c)

theorem keeps_restrictedTo (hc : c.Normal) (member : String) :
    c.Keeps member (c.restrictedTo [member]) := by
  have htouching : (c.atoms.filter fun a => a.selfMembers.any [member].contains) =
      touching member c.atoms := by
    refine List.filter_congr fun a _ => ?_
    rw [Bool.eq_iff_iff, List.any_eq_true, List.contains_iff_mem]
    simp
  unfold restrictedTo
  simp only [htouching]
  split
  case isTrue hnone =>
    rw [List.isEmpty_iff] at hnone
    refine .nothing (fun a ha hmem => ?_) rfl
    have hin : a ∈ touching member c.atoms := mem_touching_iff.mpr ⟨ha, hmem⟩
    rw [hnone] at hin
    cases hin
  case isFalse hsome =>
    rw [List.isEmpty_iff] at hsome
    split
    case isTrue hlength =>
      obtain ⟨atoms, halternatives⟩ := List.length_eq_one_iff.mp hlength
      have hdistinct : atoms.KeysDistinct := hc.distinct atoms (by simp [halternatives])
      have hatoms : c.atoms = atoms := by
        rw [Condition.atoms, halternatives, List.flatten_singleton]
        exact Conjunction.dedupe_of_keysDistinct hdistinct
      have hkept : (touching member c.atoms).KeysDistinct :=
        (hatoms ▸ hdistinct).sublist (List.filter_sublist.map _)
      refine .touched (hatoms ▸ halternatives) ?_ hsome
      rw [build_of_keysDistinct (List.forall_mem_singleton.mpr hkept)]
      simp [hsome, insert]
    case isFalse hlength =>
      obtain ⟨a, ha⟩ := List.exists_mem_of_ne_nil _ hsome
      exact .whole hlength ⟨a, mem_touching_iff.mp ha⟩ rfl

/-- What a condition keeps for a member are atoms of it. -/
theorem Keeps.subset {kept : Condition} {member : String} (h : c.Keeps member kept) :
    kept.alternatives.flatten ⊆ c.alternatives.flatten := by
  cases h with
  | nothing _ hnone =>
    rw [hnone]
    exact List.nil_subset _
  | touched hsingle hkept _ =>
    rw [hsingle, hkept, List.flatten_singleton, List.flatten_singleton]
    exact List.filter_subset_self _
  | whole _ _ hall =>
    rw [hall]
    exact List.Subset.refl _

theorem Keeps.nonempty_of_normal {kept : Condition} {member : String} (h : c.Keeps member kept) (hc : c.Normal) :
    ∀ atoms ∈ kept.alternatives, atoms ≠ [] := by
  cases h with
  | nothing _ hnone => simp [hnone]
  | touched _ hkept hsome => simpa [hkept] using hsome
  | whole _ _ hall =>
    rw [hall]
    exact hc.nonempty

/-- Every key of the given alternatives is a key of the built condition, unless one of them is empty. -/
theorem exists_key_of_build {given : List Conjunction} (hne : ∀ atoms ∈ given, atoms ≠ []) {atoms : Conjunction}
    (hatoms : atoms ∈ given) {a : Atom} (ha : a ∈ atoms) :
    ∃ b ∈ (build given).alternatives.flatten, b.key = a.key := by
  have hsome : (build given).alternatives ≠ [] := by
    intro hnone
    rcases alternatives_build_eq_nil_iff.mp hnone with rfl | hempty
    · cases hatoms
    · exact hne [] hempty rfl
  obtain ⟨kept, hkept, hsignature⟩ := exists_signature_build hatoms hsome
  obtain ⟨first, hfirst, hkey⟩ := Conjunction.exists_mem_dedupe ha
  obtain ⟨b, hb, hbkey⟩ := Conjunction.exists_key_of_signature_eq hsignature hfirst
  exact ⟨b, List.mem_flatten_of_mem hkept hb, hbkey.trans hkey⟩

/-- The atoms of a condition as a renaming restates them. -/
def restated (c : Condition) (r : Renaming) : List Atom :=
  c.alternatives.flatten.filterMap fun a => (a.rename r).toOption

theorem mem_restated_iff {a' : Atom} :
    a' ∈ c.restated r ↔ ∃ a ∈ c.alternatives.flatten, a.rename r = .ok a' := by
  rw [restated, List.mem_filterMap]
  refine exists_congr fun a => and_congr_right fun _ => ?_
  cases a.rename r <;> simp [Except.toOption]

end Condition

/-- The terms of a caller are built from the atoms of a condition, each renamed. -/
theorem CallerTerms.ofRenaming_spec {c : Condition} {r : Renaming} {t : CallerTerms}
    (h : ofRenaming c r = .ok t) :
    ∃ renamed : List Conjunction,
      List.Forall₂ (List.Forall₂ fun a a' => a.rename r = .ok a') c.alternatives renamed ∧
      t.condition = .build renamed := by
  obtain ⟨pairs, hpairs, h⟩ := Outcome.bind_eq_ok_iff.mp h
  cases h
  refine ⟨_, ?_, rfl⟩
  rw [List.forall₂_map_right_iff]
  refine (Outcome.mapM_eq_ok_iff.mp hpairs).imp fun atoms paired hatoms => ?_
  rw [List.forall₂_map_right_iff]
  refine (Outcome.mapM_eq_ok_iff.mp hatoms).imp fun a pair hpair => ?_
  obtain ⟨a', hrename, hpair⟩ := Outcome.bind_eq_ok_iff.mp hpair
  cases hpair
  exact hrename

/-- What an obligation on internals requires: the concerned part of the invariant, its atoms renamed. -/
theorem Edge.required_of_ofInternals {caller : Item} {s : Struct} {site : Site} {e : Edge}
    (h : ofInternals caller s site = .ok e) :
    e.calleeTerms = invariantOf s site.operation ∧ ∃ renamed : List Conjunction,
      List.Forall₂ (List.Forall₂ fun a a' => a.rename (internalsRenaming site.operation) = .ok a')
        e.calleeTerms.alternatives renamed ∧ e.required = .build renamed := by
  obtain ⟨t, ht, he⟩ := Outcome.bind_eq_ok_iff.mp h
  cases he
  exact ⟨rfl, CallerTerms.ofRenaming_spec ht⟩

/-- A write of a member keeps of the invariant what concerns the member. -/
theorem Edge.keeps_of_write {caller : Item} {s : Struct} {e : Edge} {field : String}
    (hedge : ofInternals caller s e.site = .ok e) (hkind : e.kind = .fieldWrite)
    (hfield : Path.given? e.site.operation.field = some field)
    (hnormal : s.invariant.Normal) : s.invariant.Keeps field e.calleeTerms := by
  have hwrite : e.site.operation.kind = .fieldWrite := hkind
  have hterms : e.calleeTerms = s.invariant.restrictedTo [field] := by
    rw [(required_of_ofInternals hedge).1]
    simp [invariantOf, hwrite, hfield]
  rw [hterms]
  exact Condition.keeps_restrictedTo hnormal field

namespace Model

variable {config : Config} {snapshot : Snapshot} {m : Model} {g : Graph} {i : Item} {s : Struct} {e : Edge}

/-- The invariant of a struct is what its lines state, with the names of fields made members of `self`. -/
theorem invariant_of_build (h : (build config snapshot).outcome = .ok m) (hs : s ∈ m.structs) :
    ∃ lines stated r, Condition.ofLines lines = .ok stated ∧ stated.rename r = .ok s.invariant := by
  obtain ⟨built, hbuilt⟩ := builtFrom_of_build h
  obtain ⟨d, es, hd, hmem, -⟩ := hbuilt.exists_declaration (mem_structs.mp hs)
  have hcases := (buildEntities_cases hd).2
  cases d with
  | struct d =>
    obtain ⟨s', hs', rfl⟩ := hcases
    obtain rfl : s = s' := by simpa using hmem
    simp only [buildStruct, Build.reading, Traced.outcome_bind, Traced.outcome_lift, Outcome.bind_eq_ok_iff,
      Outcome.mapError_eq_ok_iff, Traced.outcome_pure, Except.ok.injEq] at hs'
    obtain ⟨-, -, -, -, stated, hstated, invariant, hinvariant, rfl⟩ := hs'
    exact ⟨d.invariant, stated, _, ofLines_of_documented hstated, hinvariant⟩
  | enum d =>
    rw [hcases] at hmem
    simp at hmem
  | trait d =>
    obtain ⟨t, methods, -, rfl⟩ := hcases
    simp at hmem
  | impl d =>
    obtain ⟨i, rfl, -⟩ := hcases
    simp at hmem
  | function d =>
    obtain ⟨i, -, rfl⟩ := hcases
    simp at hmem

theorem isRead_invariant (h : (build config snapshot).outcome = .ok m) (hs : s ∈ m.structs) :
    ∀ a ∈ s.invariant.alternatives.flatten, a.IsRead := by
  obtain ⟨lines, stated, r, hlines, hrename⟩ := invariant_of_build h hs
  exact Condition.isRead_rename (Condition.isRead_ofLines hlines) hrename

theorem normal_invariant (h : (build config snapshot).outcome = .ok m) (hs : s ∈ m.structs) :
    s.invariant.Normal := by
  obtain ⟨lines, stated, r, -, hrename⟩ := invariant_of_build h hs
  exact Condition.normal_rename hrename

/-- An obligation on internals is the invariant of the struct that it names, at its site. -/
theorem ofInternals_of_edge (hbuild : (build config snapshot).outcome = .ok m)
    (hgraph : (m.graph config).outcome = .ok g) (hi : i ∈ m.items) (he : e ∈ g.edgesFrom i.path)
    (hkind : e.kind.touchesInternals = true) (hs : s ∈ m.structs) (htarget : e.target = s.path) :
    Edge.ofInternals i s e.site = .ok e := by
  have hconsistent := consistent_of_build hbuild
  obtain ⟨site, -, harises⟩ := (mem_edgesFrom_iff hconsistent hgraph hi).mp he
  have hsite := harises.statedAt.site_eq
  have hinternals : site.operation.kind.touchesInternals = true := hsite ▸ hkind
  cases harises with
  | primitive hprimitive _ =>
    revert hprimitive hinternals
    cases site.operation.kind <;> simp [OperationKind.isPrimitive, OperationKind.touchesInternals]
  | call callee hcall _ _ => simp [hcall, OperationKind.touchesInternals] at hinternals
  | internals s' _ resolved made =>
    have hpath : s'.path = s.path := (Edge.ofInternals_spec made).2.symm.trans htarget
    have hentity : Entity.struct s' = Entity.struct s :=
      hconsistent.eq_of_path (mem_structs.mp (mem_structs_of_resolveStruct resolved)) (mem_structs.mp hs) hpath
    cases hentity
    rw [hsite]
    exact made

end Model

end CrateSafety
