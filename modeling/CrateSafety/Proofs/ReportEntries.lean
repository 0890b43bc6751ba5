import CrateSafety.Proofs.CheckTotality
import CrateSafety.Proofs.SortedLists

/-!
# Entries of a report

What a report says about one path. Sorting by declaration order keeps the findings of a path as they arose,
and every finding is about the entity that it was found for, so a report lists under the path of an entity
exactly the findings of that entity, and one state settled from them.
-/

namespace CrateSafety

namespace Report

/-- The state of a path, if it has one. -/
def state? (r : Report) (path : String) : Option TerminalState :=
  (r.states.find? fun entry => entry.1 == path).map (·.2)

/-- The findings of a path, in the order of the report. -/
def findingsAt (r : Report) (path : String) : List Finding :=
  r.findings.filter fun f => f.path == path

theorem state?_eq_some_iff {r : Report} (hn : (r.states.map (·.1)).Nodup) {path : String}
    {state : TerminalState} : r.state? path = some state ↔ (path, state) ∈ r.states := by
  simp only [state?, Option.map_eq_some_iff, find?_key_eq_some_iff hn]
  constructor
  · rintro ⟨⟨p, s⟩, ⟨hmem, rfl⟩, rfl⟩
    exact hmem
  · intro hmem
    exact ⟨_, ⟨hmem, rfl⟩, rfl⟩

/-- Reports that give every path the same state agree on whether the crate is sound. -/
theorem isSound_eq {r r' : Report} (hs : r.success = r'.success) (hn : (r.states.map (·.1)).Nodup)
    (hn' : (r'.states.map (·.1)).Nodup) (h : ∀ path, r.state? path = r'.state? path) :
    r.isSound = r'.isSound := by
  have hmem : ∀ entry, entry ∈ r.states ↔ entry ∈ r'.states := by
    intro entry
    have hentry := h entry.1
    rw [← state?_eq_some_iff hn, ← state?_eq_some_iff hn', hentry]
  have hall : (r.states.all fun entry => entry.2.isSound) =
      r'.states.all fun entry => entry.2.isSound := by
    rw [Bool.eq_iff_iff, List.all_eq_true, List.all_eq_true]
    simp only [hmem]
  rw [isSound, isSound, hs, hall]

end Report

/-- All findings are about one path. -/
def About (path : String) (findings : List Finding) : Prop := ∀ f ∈ findings, f.path = path

namespace About

variable {path : String}

@[simp] theorem nil : About path [] := by
  simp [About]

@[simp] theorem append_iff {left right : List Finding} :
    About path (left ++ right) ↔ About path left ∧ About path right :=
  List.forall_mem_append

theorem singleton {f : Finding} (h : f.path = path) : About path [f] := by
  simpa [About] using h

theorem map {α : Type} {l : List α} {f : α → Finding} (h : ∀ a ∈ l, (f a).path = path) :
    About path (l.map f) := by
  simpa [About] using h

theorem flatMap {α : Type} {l : List α} {f : α → List Finding} (h : ∀ a ∈ l, About path (f a)) :
    About path (l.flatMap f) := by
  intro x hx
  obtain ⟨a, ha, hmem⟩ := List.mem_flatMap.mp hx
  exact h a ha x hmem

/-- A condition on whether there are findings does not change what they are about. -/
theorem ite {c : Prop} [Decidable c] {left right : List Finding} (hl : About path left)
    (hr : About path right) : About path (if c then left else right) := by
  split
  · exact hl
  · exact hr

theorem of_forall₂ {α : Type} {l : List α} {findings : List Finding} {R : α → Finding → Prop}
    (h : List.Forall₂ R l findings) (hR : ∀ a f, R a f → f.path = path) : About path findings := by
  intro f hf
  obtain ⟨a, -, ha⟩ := exists_left_of_forall₂ h hf
  exact hR a f ha

/-- Filtering by the path keeps all findings about it. -/
theorem filter_self {findings : List Finding} (h : About path findings) :
    (findings.filter fun f => f.path == path) = findings := by
  rw [List.filter_eq_self]
  intro f hf
  simpa using h f hf

theorem filter_of_ne {findings : List Finding} (h : About path findings) {other : String}
    (hne : path ≠ other) : (findings.filter fun f => f.path == other) = [] := by
  rw [List.filter_eq_nil_iff]
  intro f hf
  simpa [h f hf] using hne

section Collections

variable {α : Type} {key : α → String} {found : α → List Finding} {l : List α}

/-- Findings about the keys of entries have none about another path. -/
theorem filter_flatMap_of_ne (ha : ∀ a ∈ l, About (key a) (found a)) {other : String}
    (hne : ∀ a ∈ l, key a ≠ other) : ((l.flatMap found).filter fun f => f.path == other) = [] := by
  rw [List.filter_flatMap, List.flatMap_eq_nil_iff]
  exact fun a hmem => (ha a hmem).filter_of_ne (hne a hmem)

/-- Where keys are distinct, the findings about the key of an entry are those of the entry. -/
theorem filter_flatMap_of_mem (hn : (l.map key).Nodup) (ha : ∀ a ∈ l, About (key a) (found a)) {a : α}
    (hmem : a ∈ l) : ((l.flatMap found).filter fun f => f.path == key a) = found a := by
  obtain ⟨before, after, rfl⟩ := List.append_of_mem hmem
  rw [List.map_append, List.map_cons, List.nodup_middle, ← List.map_append, List.nodup_cons] at hn
  have hother : ∀ b ∈ before ++ after, key b ≠ key a := fun b hb heq =>
    hn.1 (List.mem_map.mpr ⟨b, hb, heq⟩)
  simp only [List.forall_mem_append, List.forall_mem_cons] at ha hother
  rw [List.flatMap_append, List.flatMap_cons, List.filter_append, List.filter_append, ha.2.1.filter_self,
    filter_flatMap_of_ne ha.1 hother.1, filter_flatMap_of_ne ha.2.2 hother.2]
  simp

end Collections

end About

namespace Model

variable {m : Model} {config : Config} {g : Graph}

section Findings

variable {i : Item} {edges : List Edge} {findings : List Finding}

theorem about_issueFindings (path : String) : About path (m.issueFindings path) :=
  .map fun _ _ => rfl

theorem about_recommendation {path : String} {declaredUnsafe : Bool} {rule : Rule}
    {explanation : String} {line : Option Int} :
    About path (recommendation config path declaredUnsafe rule explanation line) :=
  .ite (.singleton rfl) .nil

theorem about_recommendationsAt (e : Edge) : About i.path (recommendationsAt config i e) := by
  unfold recommendationsAt
  dsimp only
  split
  · exact .ite about_recommendation .nil
  · exact About.append_iff.mpr
      ⟨.flatMap fun _ _ => about_recommendation, .flatMap fun _ _ => about_recommendation⟩

theorem path_of_escape {u : Uncovered} {f : Finding} (h : m.escape config i u = .ok f) :
    f.path = i.path := by
  obtain ⟨boundary, -, hf⟩ := Outcome.bind_eq_ok_iff.mp h
  cases hf
  rfl

theorem about_stuckFindings {gaps : List Uncovered}
    (h : m.stuckFindings config i gaps = .ok findings) : About i.path findings := by
  refine .of_forall₂ (Outcome.mapM_eq_ok_iff.mp h) fun u f hu => ?_
  split at hu
  · cases hu
    rfl
  · exact path_of_escape hu

theorem about_classify (passed : List Uncovered) : About i.path (classify i passed) := by
  unfold classify
  dsimp only
  split
  · exact About.append_iff.mpr ⟨.ite (.singleton rfl) .nil, .map fun _ _ => rfl⟩
  · exact About.append_iff.mpr ⟨.map fun _ _ => rfl, .ite .nil (.singleton rfl)⟩

theorem about_plainFindings (h : m.plainFindings config i edges = .ok findings) :
    About i.path findings := by
  obtain ⟨⟨gaps, relies⟩, -, h⟩ := Outcome.bind_eq_ok_iff.mp h
  obtain ⟨stuck, hstuck, h⟩ := Outcome.bind_eq_ok_iff.mp h
  cases h
  rw [About.append_iff, About.append_iff]
  exact ⟨⟨.ite (.singleton rfl) .nil, about_stuckFindings hstuck⟩, about_classify _⟩

theorem about_implementationFindings {declared : Item}
    (h : m.implementationFindings config i declared edges = .ok findings) :
    About i.path findings := by
  obtain ⟨contract, -, h⟩ := Outcome.bind_eq_ok_iff.mp h
  obtain ⟨⟨gaps, relies⟩, -, h⟩ := Outcome.bind_eq_ok_iff.mp h
  obtain ⟨uncovered, huncovered, h⟩ := Outcome.bind_eq_ok_iff.mp h
  cases h
  have hgaps : About i.path uncovered := by
    refine .of_forall₂ (Outcome.mapM_eq_ok_iff.mp huncovered) fun u f hu => ?_
    split at hu
    · cases hu
      rfl
    · exact path_of_escape (Outcome.mapError_eq_ok_iff.mp hu)
  rw [About.append_iff, About.append_iff]
  exact ⟨⟨.ite (.singleton rfl) .nil, .ite .nil (.singleton rfl)⟩, hgaps⟩

theorem about_itemFindings (h : m.itemFindings config edges i = .ok findings) :
    About i.path findings := by
  have hfirst : About i.path (m.issueFindings i.path ++ edges.flatMap (recommendationsAt config i)) :=
    About.append_iff.mpr
      ⟨about_issueFindings i.path, .flatMap fun e _ => about_recommendationsAt e⟩
  unfold itemFindings at h
  dsimp only at h
  split at h
  · obtain ⟨rest, hrest, h⟩ := Outcome.bind_eq_ok_iff.mp h
    cases h
    exact About.append_iff.mpr ⟨hfirst, about_implementationFindings hrest⟩
  · obtain ⟨rest, hrest, h⟩ := Outcome.bind_eq_ok_iff.mp h
    cases h
    exact About.append_iff.mpr
      ⟨hfirst, about_plainFindings (Outcome.mapError_eq_ok_iff.mp hrest)⟩

/-- Every finding is about the entity that it was found for. -/
theorem about_findingsOf {e : Entity} (h : m.findingsOf config g e = .ok findings) :
    About e.path findings := by
  cases e with
  | item i => exact about_itemFindings h
  | struct s =>
    obtain ⟨exposed, -, h⟩ := Outcome.bind_eq_ok_iff.mp (Outcome.mapError_eq_ok_iff.mp h)
    cases h
    exact About.append_iff.mpr ⟨about_issueFindings s.path, .map fun _ _ => rfl⟩
  | trait t =>
    cases h
    refine About.append_iff.mpr ⟨about_issueFindings t.path, ?_⟩
    split
    · exact .singleton rfl
    · exact .singleton rfl
    · exact .nil
  | impl i =>
    cases h
    exact About.append_iff.mpr
      ⟨.ite .nil (.singleton rfl), .ite about_recommendation .nil⟩
  | enum e =>
    cases h
    exact .nil

end Findings

section Reports

variable {verdicts : List Verdict} {e : Entity}

/-- No entity of a kind is listed twice. -/
theorem Consistent.nodup_kind (hc : m.Consistent) {α : Type} {view : Entity → Option α}
    {wrap : α → Entity} (hview : ∀ e a, view e = some a ↔ e = wrap a) :
    ((m.entities.filterMap view).map wrap).Nodup := by
  have hinj : Function.Injective wrap := by
    intro a b hab
    have ha : view (wrap a) = some a := (hview _ a).mpr rfl
    have hb : view (wrap a) = some b := (hview _ b).mpr hab
    exact Option.some.inj (ha.symm.trans hb)
  have hentities : m.entities.Nodup := hc.distinct.of_map
  refine (hentities.filterMap fun x y a hx hy => ?_).map hinj
  rw [(hview x a).mp hx, (hview y a).mp hy]

/-- No entity is checked twice. -/
theorem nodup_checkingOrder (hc : m.Consistent) (hg : (m.graph config).outcome = .ok g) :
    (m.checkingOrder g).Nodup := by
  have hitems : ((g.order.filterMap m.item?).map Entity.item).Nodup := by
    refine ((order_of_graph hc hg).1.nodup.filterMap fun x y i hx hy => ?_).map
      fun i j hij => Entity.item.inj hij
    rw [← (hc.item?_eq_some_iff.mp hx).2, ← (hc.item?_eq_some_iff.mp hy).2]
  have hstructs : (m.structs.map Entity.struct).Nodup :=
    hc.nodup_kind fun _ _ => Entity.struct?_eq_some_iff
  have htraits : (m.traits.map Entity.trait).Nodup :=
    hc.nodup_kind fun _ _ => Entity.trait?_eq_some_iff
  have himpls : (m.impls.map Entity.impl).Nodup := hc.nodup_kind fun _ _ => Entity.impl?_eq_some_iff
  have henums : (m.enums.map Entity.enum).Nodup := hc.nodup_kind fun _ _ => Entity.enum?_eq_some_iff
  simp only [checkingOrder, List.nodup_append', hitems, hstructs, htraits, himpls, henums, true_and]
  -- entities of different kinds differ
  refine ⟨⟨⟨?_, ?_⟩, ?_⟩, ?_⟩
  all_goals
    intro e hearlier hkind
    obtain ⟨value, -, rfl⟩ := List.mem_map.mp hkind
    simp at hearlier

/-- The paths of the verdicts are those of the entities, in the order in which they are checked. -/
theorem paths_of_verdicts (hv : m.verdicts config g = .ok verdicts) :
    verdicts.map Verdict.path = (m.checkingOrder g).map Entity.path := by
  refine (map_eq_map_of_forall₂ ((Outcome.mapM_eq_ok_iff.mp hv).imp fun e v hev => ?_)).symm
  obtain ⟨findings, -, rfl⟩ := verdict_eq_ok_iff.mp hev
  rfl

theorem nodup_verdicts (hc : m.Consistent) (hg : (m.graph config).outcome = .ok g)
    (hv : m.verdicts config g = .ok verdicts) : (verdicts.map Verdict.path).Nodup := by
  rw [paths_of_verdicts hv]
  refine (nodup_checkingOrder hc hg).map_on fun x hx y hy hxy => ?_
  exact hc.eq_of_path (mem_entities_of_checked hx) (mem_entities_of_checked hy) hxy

theorem mem_paths_of_verdicts (hc : m.Consistent) (hg : (m.graph config).outcome = .ok g)
    (hv : m.verdicts config g = .ok verdicts) {path : String} :
    path ∈ verdicts.map Verdict.path ↔ path ∈ m.entities.map Entity.path := by
  rw [paths_of_verdicts hv]
  simp only [List.mem_map, mem_checkingOrder_iff hc hg]

/-- A report lists the findings of a path as the verdicts have them. -/
theorem findingsAt_verdictReport (verdicts : List Verdict) (path : String) :
    (Run.verdictReport config m verdicts).findingsAt path =
      (verdicts.flatMap Verdict.findings).filter fun f => f.path == path := by
  have halike : ∀ a b : Finding, (a.path == path) = true → (b.path == path) = true →
      decide (positionIn m.declarationOrder a.path ≤ positionIn m.declarationOrder b.path) = true := by
    intro a b ha hb
    rw [beq_iff_eq.mp ha, beq_iff_eq.mp hb]
    simp
  exact Sorting.filter_sort halike _

/-- The findings of a verdict are about its path. -/
theorem about_verdicts (hv : m.verdicts config g = .ok verdicts) :
    ∀ v ∈ verdicts, About v.path v.findings := by
  intro v hmem
  obtain ⟨e, -, hev⟩ := exists_left_of_forall₂ (Outcome.mapM_eq_ok_iff.mp hv) hmem
  obtain ⟨findings, hfindings, rfl⟩ := verdict_eq_ok_iff.mp hev
  exact about_findingsOf hfindings

theorem nodup_states (hn : (verdicts.map Verdict.path).Nodup) :
    ((Run.verdictReport config m verdicts).states.map (·.1)).Nodup := by
  simp only [Run.verdictReport, List.map_map]
  exact ((Sorting.sort_perm _ verdicts).map Verdict.path).nodup_iff.mpr hn

/-- The report of a run has, under the path of an entity, the findings of that entity and the state that is
settled from them. -/
theorem report_of_mem (hc : m.Consistent) (hg : (m.graph config).outcome = .ok g)
    (hv : m.verdicts config g = .ok verdicts) (he : e ∈ m.entities) :
    ∃ findings, m.findingsOf config g e = .ok findings ∧
      (Run.verdictReport config m verdicts).state? e.path =
        some (settle (.sound e.declaredUnsafe) findings) ∧
      (Run.verdictReport config m verdicts).findingsAt e.path = findings := by
  have hnodup := nodup_verdicts hc hg hv
  obtain ⟨v, hmem, hev⟩ := exists_right_of_forall₂ (Outcome.mapM_eq_ok_iff.mp hv)
    ((mem_checkingOrder_iff hc hg).mpr he)
  obtain ⟨findings, hfindings, rfl⟩ := verdict_eq_ok_iff.mp hev
  refine ⟨findings, hfindings, ?_, ?_⟩
  · rw [Report.state?_eq_some_iff (nodup_states hnodup)]
    exact Run.mem_states_iff.mpr ⟨_, hmem, rfl, rfl⟩
  · rw [findingsAt_verdictReport]
    exact About.filter_flatMap_of_mem hnodup (about_verdicts hv) hmem

/-- The report of a run has nothing under a path that no entity has. -/
theorem report_of_not_mem (hc : m.Consistent) (hg : (m.graph config).outcome = .ok g)
    (hv : m.verdicts config g = .ok verdicts) {path : String}
    (hp : path ∉ m.entities.map Entity.path) :
    (Run.verdictReport config m verdicts).state? path = none ∧
      (Run.verdictReport config m verdicts).findingsAt path = [] := by
  have hnone : ∀ v ∈ verdicts, v.path ≠ path := fun v hm heq =>
    hp ((mem_paths_of_verdicts hc hg hv).mp (List.mem_map.mpr ⟨v, hm, heq⟩))
  constructor
  · rw [Option.eq_none_iff_forall_ne_some]
    intro state hstate
    obtain ⟨v, hm, hpath, -⟩ := Run.mem_states_iff.mp
      ((Report.state?_eq_some_iff (nodup_states (nodup_verdicts hc hg hv))).mp hstate)
    exact hnone v hm hpath
  · rw [findingsAt_verdictReport]
    exact About.filter_flatMap_of_ne (about_verdicts hv) hnone

/-- A path has a state in the report of a run exactly if an entity has it. -/
theorem isSome_state?_iff (hc : m.Consistent) (hg : (m.graph config).outcome = .ok g)
    (hv : m.verdicts config g = .ok verdicts) {path : String} :
    ((Run.verdictReport config m verdicts).state? path).isSome = true ↔
      path ∈ m.entities.map Entity.path := by
  constructor
  · intro hsome
    by_contra hp
    rw [(report_of_not_mem hc hg hv hp).1] at hsome
    cases hsome
  · intro hp
    obtain ⟨e, he, rfl⟩ := List.mem_map.mp hp
    obtain ⟨findings, -, hstate, -⟩ := report_of_mem hc hg hv he
    rw [hstate]
    rfl

/-- The entities of a built model have the paths that are declared. -/
theorem paths_of_build {s : Snapshot} (h : (build config s).outcome = .ok m) :
    m.entities.map Entity.path = s.items.flatMap declaredPaths := by
  obtain ⟨built, hbuilt⟩ := builtFrom_of_build h
  rw [hbuilt.entities]
  exact paths_of_built hbuilt.declarations

end Reports

end Model

end CrateSafety
