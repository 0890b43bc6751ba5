import CrateSafety.Proofs.Assembly
import CrateSafety.Proofs.Interface

/-!
# Independence of the declaration order

The order of the modules and of the items of a snapshot does not affect what is reported about a path. The
entities of a declaration are built alike wherever it stands, so the models of a snapshot and of a
rearrangement of it have the same entities in another order and one interface. Whether there is an order of
the items with callees first depends on the calls alone.
-/

namespace CrateSafety

section Rearrangement

variable {α β : Type} {l l' : List α}

/-- Where at most one entry contributes, the order of the entries does not matter. -/
theorem flatMap_eq_of_perm {f : α → List β} (hp : l.Perm l')
    (h : l.Pairwise fun a b => f a = [] ∨ f b = []) : l.flatMap f = l'.flatMap f := by
  induction hp with
  | nil => rfl
  | cons a _ ih => rw [List.flatMap_cons, List.flatMap_cons, ih (List.pairwise_cons.mp h).2]
  | swap a b l =>
    have hone : f b = [] ∨ f a = [] := (List.pairwise_cons.mp h).1 a List.mem_cons_self
    simp only [List.flatMap_cons]
    rcases hone with hb | ha
    · simp [hb]
    · simp [ha]
  | trans hfirst _ ih ih' =>
    rw [ih h, ih' ((hfirst.pairwise_iff fun hab => hab.symm).mp h)]

/-- Where the entries that are found agree, the order of the entries does not matter. -/
theorem findSome?_eq_of_perm {f : α → Option β} (hp : l.Perm l')
    (h : ∀ a ∈ l, ∀ b ∈ l, ∀ x y, f a = some x → f b = some y → x = y) :
    l.findSome? f = l'.findSome? f := by
  cases hl : l.findSome? f with
  | none =>
    rw [List.findSome?_eq_none_iff] at hl
    rw [eq_comm, List.findSome?_eq_none_iff]
    exact fun a ha => hl a (hp.mem_iff.mpr ha)
  | some x =>
    obtain ⟨a, ha, hx⟩ := List.exists_of_findSome?_eq_some hl
    cases hl' : l'.findSome? f with
    | none =>
      rw [List.findSome?_eq_none_iff] at hl'
      rw [hl' a (hp.mem_iff.mp ha)] at hx
      cases hx
    | some y =>
      obtain ⟨b, hb, hy⟩ := List.exists_of_findSome?_eq_some hl'
      rw [h a ha b (hp.mem_iff.mpr hb) x y hx hy]

/-- Where keys are distinct, looking a key up does not depend on the order of the entries. -/
theorem find?_key_eq_of_perm {key : α → String} (hp : l.Perm l') (hn : (l.map key).Nodup) (k : String) :
    l.find? (fun x => key x == k) = l'.find? fun x => key x == k := by
  refine Option.ext fun a => ?_
  rw [find?_key_eq_some_iff hn, find?_key_eq_some_iff ((hp.map key).nodup_iff.mp hn), hp.mem_iff]

end Rearrangement

namespace Model

variable {config : Config}

section Entities

variable {modules modules' : List Module} {declarations declarations' : List Declaration}

/-- Of the members of `self`, only which ones they are plays a role for an atom. -/
theorem hidden_eq_of_members {members members' : Option (List String)}
    (h : members.map List.contains = members'.map List.contains) (a : Atom)
    (visible ambient : List String) :
    a.hidden visible ambient members = a.hidden visible ambient members' := by
  cases members with
  | none =>
    cases members' with
    | none => rfl
    | some allowed' => cases h
  | some allowed =>
    cases members' with
    | none => cases h
    | some allowed' =>
      have hcontains : ∀ name, allowed.contains name = allowed'.contains name :=
        congrFun (Option.some.inj h)
      simp only [Atom.hidden, hcontains]

theorem documented_eq_of_members {members members' : Option (List String)}
    (h : members.map List.contains = members'.map List.contains) {path : String} {rule : Rule}
    {visible lines : List String} :
    documented config path rule visible members lines =
      documented config path rule visible members' lines := by
  simp only [documented, issuesOf, hidden_eq_of_members h]

/-- Declarations that share a path are one. -/
theorem eq_of_declaredPath (hn : (declarations.flatMap declaredPaths).Nodup) {d d' : Declaration}
    (hd : d ∈ declarations) (hd' : d' ∈ declarations) {path : String} (hp : path ∈ declaredPaths d)
    (hp' : path ∈ declaredPaths d') : d = d' := by
  have hsymm : Std.Symm (Function.onFun List.Disjoint declaredPaths) :=
    ⟨fun _ _ hab => List.disjoint_symm hab⟩
  have hdisjoint := (List.nodup_flatMap.mp hn).2
  by_contra hne
  exact hdisjoint.forall hd hd' hne hp hp'

theorem isOwner_eq_of_perm (hp : declarations.Perm declarations') :
    isOwner declarations = isOwner declarations' := by
  funext path
  exact hp.any_eq

/-- The struct of a path, if the declaration is one. -/
def structOf (path : String) : Declaration → Option StructDeclaration
  | .struct d => if d.path == path then some d else none
  | _ => none

/-- The names of the functions that belong to an owner. -/
def functionsOf (declarations : List Declaration) (owner : String) : List String :=
  declarations.filterMap fun
    | .function f => if f.owner == some owner then some (Path.lastSegment f.path) else none
    | _ => none

theorem membersOf_eq (owner : String) :
    membersOf declarations owner = (declarations.findSome? (structOf owner)).map fun d =>
      d.fields.map (·.name) ++ functionsOf declarations owner := by
  rw [membersOf, List.map_findSome?]
  congr 1
  funext d
  cases d with
  | struct d =>
    simp only [structOf, Function.comp]
    split <;> rfl
  | _ => rfl

/-- The fields and functions of a struct are the same in every order of the declarations. -/
theorem membersOf_eq_of_perm (hp : declarations.Perm declarations')
    (hn : (declarations.flatMap declaredPaths).Nodup) (owner : String) :
    (membersOf declarations owner).map List.contains =
      (membersOf declarations' owner).map List.contains := by
  have hstruct : declarations.findSome? (structOf owner) =
      declarations'.findSome? (structOf owner) := by
    have hfound : ∀ d x, structOf owner d = some x → d = .struct x ∧ owner ∈ declaredPaths d := by
      intro d x hx
      cases d with
      | struct d =>
        simp only [structOf, Option.ite_none_right_eq_some, beq_iff_eq, Option.some.injEq] at hx
        obtain ⟨hpath, rfl⟩ := hx
        exact ⟨rfl, List.mem_singleton.mpr hpath.symm⟩
      | _ => cases hx
    refine findSome?_eq_of_perm hp fun d hd d' hd' x y hx hy => ?_
    obtain ⟨hdx, hpath⟩ := hfound d x hx
    obtain ⟨hdy, hpath'⟩ := hfound d' y hy
    have hsame := eq_of_declaredPath hn hd hd' hpath hpath'
    rw [hdx, hdy] at hsame
    exact Declaration.struct.inj hsame
  have hfunctions : ∀ name, name ∈ functionsOf declarations owner ↔
      name ∈ functionsOf declarations' owner := fun name => (hp.filterMap _).mem_iff
  rw [membersOf_eq, membersOf_eq, hstruct, Option.map_map, Option.map_map]
  congr 1
  funext d name
  rw [Bool.eq_iff_iff]
  simp only [Function.comp, List.contains_iff_mem, List.mem_append, hfunctions]

/-- The entities of a declaration do not depend on the order of the modules and declarations. -/
theorem buildEntities_eq_of_perm (hm : modules.Perm modules') (hp : declarations.Perm declarations')
    (hn : (declarations.flatMap declaredPaths).Nodup) (d : Declaration) :
    buildEntities config modules declarations d = buildEntities config modules' declarations' d := by
  have hmembers : ∀ owner : Option String,
      (owner.bind (membersOf declarations)).map List.contains =
        (owner.bind (membersOf declarations')).map List.contains := by
    intro owner
    cases owner with
    | none => rfl
    | some path => exact membersOf_eq_of_perm hp hn path
  have hfunction : buildFunction config declarations = buildFunction config declarations' := by
    funext f
    simp only [buildFunction, isOwner_eq_of_perm hp, documented_eq_of_members (hmembers _)]
  unfold buildEntities
  rw [hm.any_eq, hfunction]

end Entities

section Reordering

variable {s s' : Snapshot} {modules modules' : List Module}

theorem Buildable.buildEntities_eq (h : Buildable config s modules) (hm : modules.Perm modules')
    (hi : s.items.Perm s'.items) :
    buildEntities config modules s.items = buildEntities config modules' s'.items :=
  funext fun d => buildEntities_eq_of_perm hm hi h.distinct d

/-- What is needed for a model does not depend on the order of the declarations. -/
theorem Buildable.perm (h : Buildable config s modules) (hm : modules.Perm modules')
    (hregistered : registerModules s'.modules = .done modules') (hi : s.items.Perm s'.items) :
    Buildable config s' modules' ∧
      (assemble config s modules).entities.Perm (assemble config s' modules').entities := by
  have hbuild := h.buildEntities_eq hm hi
  have hof : entitiesOf config modules s.items = entitiesOf config modules' s'.items := by
    funext d
    rw [entitiesOf, entitiesOf, hbuild]
  have hentities : (assemble config s modules).entities.Perm
      (assemble config s' modules').entities := by
    simp only [assemble, ← hof]
    exact hi.flatMap_right _
  have hitems : (assemble config s modules).items.Perm (assemble config s' modules').items :=
    hentities.filterMap _
  refine ⟨?_, hentities⟩
  constructor
  case registered => exact hregistered
  case distinct => exact (hi.flatMap_right _).nodup_iff.mp h.distinct
  case entities =>
    intro d hd
    rw [← hbuild, ← hof]
    exact h.entities d (hi.mem_iff.mpr hd)
  case implemented =>
    intro i hi'
    rw [← h.implemented i (hitems.mem_iff.mpr hi')]
    simp only [requireImplemented, hitems.any_eq]

/-- The issues of a path come from the one declaration that brings it in. -/
theorem issuesFor_eq_of_perm (h : Buildable config s modules) (hm : modules.Perm modules')
    (hi : s.items.Perm s'.items) (path : String) :
    (assemble config s modules).issuesFor path = (assemble config s' modules').issuesFor path := by
  have hbuild := h.buildEntities_eq hm hi
  have hother : ∀ d, path ∉ declaredPaths d →
      ((buildEntities config modules s.items d).notes.filter fun issue => issue.path == path) = [] := by
    intro d hd
    rw [List.filter_eq_nil_iff]
    intro issue hissue hpath
    exact hd (beq_iff_eq.mp hpath ▸ notesPass_buildEntities d issue hissue)
  simp only [issuesFor, assemble, List.filter_flatMap, ← hbuild]
  refine flatMap_eq_of_perm hi ?_
  refine (List.nodup_flatMap.mp h.distinct).2.imp fun {d d'} hdisjoint => ?_
  by_cases hd : path ∈ declaredPaths d
  · exact .inr (hother d' fun hd' => hdisjoint hd hd')
  · exact .inl (hother d hd)

theorem entity?_eq_of_perm {m m' : Model} (hc : m.Consistent) (hp : m.entities.Perm m'.entities)
    (path : String) : m.entity? path = m'.entity? path :=
  find?_key_eq_of_perm hp hc.distinct path

/-- Models of one snapshot in two orders have one interface. -/
theorem sameInterface_of_perm (h : Buildable config s modules) (hm : modules.Perm modules')
    (hn : (modules.map Module.path).Nodup) (hi : s.items.Perm s'.items)
    (hc : (assemble config s modules).Consistent)
    (hp : (assemble config s modules).entities.Perm (assemble config s' modules').entities) :
    (assemble config s modules).SameInterface (assemble config s' modules') := by
  constructor
  case module => exact find?_key_eq_of_perm hm hn
  case entity =>
    intro path
    rw [entity?_eq_of_perm hc hp]
  case size => exact hp.length_eq
  case issues => exact issuesFor_eq_of_perm h hm hi

end Reordering

section Runs

variable {m m' : Model}

/-- There is a graph exactly if every obligation can be stated and no item calls itself, if only through
others. -/
theorem graph_isOk_iff (hc : m.Consistent) : (∃ g, (m.graph config).outcome = .ok g) ↔
    m.Statable config ∧ ∀ path, ¬ Relation.TransGen m.Calls path path := by
  constructor
  · rintro ⟨g, hg⟩
    constructor
    · by_contra hnot
      obtain ⟨e, he⟩ := graph_of_not_statable hnot
      rw [hg] at he
      cases he
    · obtain ⟨hgreedy, hmem⟩ := order_of_graph hc hg
      refine hgreedy.acyclic fun path callee hcalls => ?_
      obtain ⟨i, hi, hpath, -⟩ := hcalls
      exact (hmem path).mpr (List.mem_map.mpr ⟨i, hi, hpath⟩)
  · rintro ⟨hstatable, hacyclic⟩
    obtain ⟨edges, hedges, hgraph⟩ := graph_of_statable hstatable
    cases hfirst : Graph.calleeFirst (fun path => calleesOf (Graph.lookUp edges path))
        (m.items.map Item.path) with
    | ok order =>
      rw [hgraph, hfirst]
      exact ⟨_, rfl⟩
    | error cycle =>
      have hclosed : ∀ path ∈ m.items.map Item.path,
          ∀ callee ∈ calleesOf (Graph.lookUp edges path), callee ∈ m.items.map Item.path := by
        intro path _ callee hcallee
        obtain ⟨_, _, _, _, _, _, target, hresolved, rfl⟩ :=
          (mem_calleesOf_lookUp_iff hc hedges).mp hcallee
        exact List.mem_map_of_mem (mem_items_of_resolveItem hresolved)
      have hcycle := (Graph.isCycle_of_calleeFirst hc.pairwise_position hclosed hfirst).1
      rw [callees_eq_calls hc hedges] at hcycle
      obtain ⟨path, hpath⟩ := hcycle.transGen
      exact absurd hpath (hacyclic path)

variable (h : m.SameInterface m') (hc : m.Consistent) (hc' : m'.Consistent)
  (hp : m.entities.Perm m'.entities)

include h hc hc' hp

theorem statable_of_perm (hs : m.Statable config) : m'.Statable config := by
  intro i hi site hsite
  rw [← h.edge_eq hc hc']
  exact hs i (mem_items.mpr (hp.mem_iff.mpr (mem_items.mp hi))) site hsite

theorem calls_eq_of_perm : m.Calls = m'.Calls := by
  have hitems : ∀ i, i ∈ m.items ↔ i ∈ m'.items := by
    intro i
    rw [mem_items, mem_items, hp.mem_iff]
  have hresolve : ∀ i target, (m.resolveItem i target).map Item.path =
      (m'.resolveItem i target).map Item.path := by
    intro i target
    have hheader := congrArg (Option.map Item.path) (h.resolveItem_header hc hc' i target)
    rwa [Option.map_map, Option.map_map] at hheader
  funext path callee
  simp only [Calls, ← Option.map_eq_some_iff, hitems, hresolve]

/-- A model with the same entities in another order has a graph and verdicts as well. -/
theorem verdicts_of_perm {g : Graph} {verdicts : List Verdict}
    (hg : (m.graph config).outcome = .ok g) (hv : m.verdicts config g = .ok verdicts) :
    ∃ g' verdicts', (m'.graph config).outcome = .ok g' ∧ m'.verdicts config g' = .ok verdicts' := by
  have hacyclic := (graph_isOk_iff hc).mp ⟨g, hg⟩
  have hgraph : ∃ g', (m'.graph config).outcome = .ok g' := by
    rw [graph_isOk_iff hc', ← calls_eq_of_perm h hc hc' hp]
    exact ⟨statable_of_perm h hc hc' hp hacyclic.1, hacyclic.2⟩
  obtain ⟨g', hg'⟩ := hgraph
  have hverdict : ∀ e ∈ m'.checkingOrder g', ∃ v, m'.verdict config g' e = .ok v := by
    intro e he
    have hmem' := mem_entities_of_checked he
    have hmem := hp.mem_iff.mpr hmem'
    obtain ⟨findings, hfindings, -⟩ := report_of_mem hc hg hv hmem
    rw [h.findingsOf_eq hc hc' hg hg' hmem hmem'] at hfindings
    exact ⟨_, verdict_eq_ok_iff.mpr ⟨findings, hfindings, rfl⟩⟩
  obtain ⟨verdicts', hv'⟩ := Outcome.exists_mapM_eq_ok hverdict
  exact ⟨g', verdicts', hg', hv'⟩

end Runs

end Model

/-- The declaration order does not affect verdicts: if the run on a snapshot succeeds, so does the run on it
with its modules and its items in another order, and both report the same state and the same findings for
every path and agree on whether the crate is sound. -/
theorem reports_agree_in_any_order {config : Config} {s : Snapshot} {modules : List Module}
    {items : List Declaration} {report : Report} (hm : s.modules.Perm modules)
    (hi : s.items.Perm items) (hrun : (Run.ofSnapshot config s).outcome = .ok report)
    (hok : report.success = true) :
    ∃ report',
      (Run.ofSnapshot config { s with modules := modules, items := items }).outcome = .ok report' ∧
      report'.success = true ∧
      (∀ path, report.state? path = report'.state? path ∧
        report.findingsAt path = report'.findingsAt path) ∧
      report.isSound = report'.isSound := by
  obtain ⟨m, hb, hmodel⟩ := Run.ofSnapshot_succeeds_iff.mp ⟨hrun, hok⟩
  obtain ⟨g, verdicts, hg, hv, rfl⟩ := Run.ofModel_succeeds_iff.mp hmodel
  obtain ⟨known, hbuildable, rfl⟩ := Model.buildable_of_build hb
  have hknown : (Model.registerModules s.modules).outcome = .ok known := by
    rw [hbuildable.registered]
    rfl
  obtain ⟨known', hregistered, hperm, hdistinct⟩ := Model.registerModules_perm hknown hm
  have hregistered' : Model.registerModules
      ({ s with modules := modules, items := items } : Snapshot).modules = .done known' := hregistered
  obtain ⟨hbuildable', hentities⟩ := hbuildable.perm hperm hregistered' hi
  have hb' := Model.build_of_buildable hbuildable'
  have hc := Model.consistent_of_build hb
  have hc' := Model.consistent_of_build hb'
  have hsame := Model.sameInterface_of_perm hbuildable hperm hdistinct hi hc hentities
  obtain ⟨g', verdicts', hg', hv'⟩ := Model.verdicts_of_perm hsame hc hc' hentities hg hv
  have hmodel' := Run.ofModel_succeeds_iff.mpr ⟨g', verdicts', hg', hv', rfl⟩
  obtain ⟨hrun', hok'⟩ := Run.ofSnapshot_succeeds_iff.mpr ⟨_, hb', hmodel'⟩
  have hagree := fun path =>
    hsame.report_eq hc hc' hg hg' hv hv' (Model.entity?_eq_of_perm hc hentities path)
  refine ⟨_, hrun', hok', hagree, ?_⟩
  exact Report.isSound_eq (hok.trans hok'.symm)
    (Model.nodup_states (Model.nodup_verdicts hc hg hv))
    (Model.nodup_states (Model.nodup_verdicts hc' hg' hv')) fun path => (hagree path).1

/-- A struct in a nested module with a method and a caller, modules and items in reading order. -/
def nestedBuffer : Snapshot :=
  { modules := [{ path := "crate::data" }, { path := "crate::data::raw" }],
    items :=
      [.struct
        { path := "crate::data::raw::Buffer", module := "crate::data::raw",
          fields := [{ name := "len" }], invariant := ["len < 8"] },
      .function
        { kind := .method, path := "crate::data::raw::Buffer::fill", module := "crate::data::raw",
          owner := some "crate::data::raw::Buffer", declaredUnsafe := true, params := ["n"],
          requirements := ["n < 8", "self.full(n)"],
          body := [{ kind := .fieldWrite, target := "Self", field := some "len", value := some "n" }] },
      .function
        { path := "crate::main", params := ["k"],
          body :=
            [{ kind := .call, target := "crate::data::raw::Buffer::fill", args := ["k"],
               receiver := some "buffer", guards := ["k < 4"] }] }] }

/-- With its modules and items in reverse, children before parents and callers before callees, the nested
buffer gets the same report on its caller, which has findings. -/
theorem nestedBuffer_reports_agree :
    ∃ report report',
      (Run.ofSnapshot {} nestedBuffer).outcome = .ok report ∧ report.success = true ∧
      (Run.ofSnapshot {} { nestedBuffer with
        modules := nestedBuffer.modules.reverse, items := nestedBuffer.items.reverse }).outcome =
          .ok report' ∧ report'.success = true ∧
      report'.state? "crate::main" = some .classificationViolation ∧
      (report'.findingsAt "crate::main").length = 2 ∧
      report.findingsAt "crate::main" = report'.findingsAt "crate::main" ∧
      report'.isSound = false := by
  have hcheck : ((Run.ofSnapshot {} nestedBuffer).outcome.toOption.any fun r =>
      r.success && r.state? "crate::main" == some .classificationViolation &&
        (r.findingsAt "crate::main").length == 2 && !r.isSound) = true := by
    decide +kernel
  obtain ⟨report, hrun, hreport⟩ := Outcome.any_toOption_eq_true_iff.mp hcheck
  simp only [Bool.and_eq_true, beq_iff_eq, Bool.not_eq_true'] at hreport
  obtain ⟨⟨⟨hok, hstate⟩, hlength⟩, hsound⟩ := hreport
  obtain ⟨report', hrun', hok', hagree, hsame⟩ := reports_agree_in_any_order
    (List.reverse_perm nestedBuffer.modules).symm (List.reverse_perm nestedBuffer.items).symm hrun hok
  have hmain := hagree "crate::main"
  refine ⟨report, report', hrun, hok, hrun', hok', ?_, ?_, hmain.2, ?_⟩
  · rw [← hmain.1, hstate]
  · rw [← hmain.2, hlength]
  · rw [← hsame, hsound]

end CrateSafety
