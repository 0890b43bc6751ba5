import CrateSafety.Proofs.InternalsEdges
import CrateSafety.Proofs.TraitDemands

/-!
# Contracts at call sites

A call requires the contract of its callee: the documented requirements with the parameters and the receiver
replaced by what stands at the site, and without the calls of the marker. The marker is told by the called name
alone, so every documented atom reaches the caller but the calls of that name, whatever they are given.
-/

namespace CrateSafety

theorem Conjunction.mem_keep_iff {keys : List String} {atoms : Conjunction} {a : Atom} :
    a ∈ atoms.keep keys ↔ a ∈ atoms ∧ a.key ∉ keys := by
  simp [Conjunction.keep]

namespace Condition

variable {c : Condition} {r : Renaming} {v : Valuation}

/-- The keys of the calls of the marker. -/
def markerKeys (c : Condition) : List String := (c.atoms.filter (·.isMarker)).map (·.key)

/-- The condition holds with its atoms renamed, where the atoms of some keys are taken as true. -/
def HoldsRenamed (c : Condition) (r : Renaming) (taken : String → Prop) (v : Valuation) : Prop :=
  c.alternatives = [] ∨ ∃ atoms ∈ c.alternatives, ∀ a ∈ atoms,
    taken a.key ∨ ∃ a', a.rename r = .ok a' ∧ v.truth a'.key = true

theorem HoldsRenamed.mono {taken taken' : String → Prop} (h : c.HoldsRenamed r taken v)
    (htaken : ∀ key, taken key → taken' key) : c.HoldsRenamed r taken' v := by
  refine h.imp_right fun ⟨atoms, hatoms, hall⟩ => ⟨atoms, hatoms, fun a ha => ?_⟩
  exact (hall a ha).imp_left (htaken a.key)

theorem normal_ofLines {lines : List String} (h : ofLines lines = .ok c) : c.Normal := by
  obtain ⟨forms, -, h⟩ := Outcome.bind_eq_ok_iff.mp h
  cases h
  unfold ofForms
  split
  case isTrue => constructor <;> simp
  case isFalse => exact normal_build _

/-- An alternative of the documented part is one of the condition without the calls of the marker. -/
theorem exists_of_mem_documented (hc : c.Normal) {kept : Conjunction} (h : kept ∈ c.documented.alternatives) :
    ∃ atoms ∈ c.alternatives, kept = atoms.keep c.markerKeys := by
  obtain ⟨given, hgiven, rfl⟩ := exists_of_mem_build h
  obtain ⟨atoms, hatoms, rfl⟩ := List.mem_map.mp hgiven
  refine ⟨atoms, hatoms, Conjunction.dedupe_of_keysDistinct ?_⟩
  exact (hc.distinct atoms hatoms).keep c.markerKeys

/-- Where the documented part asks for nothing, the condition asks for nothing but the marker. -/
theorem holdsRenamed_of_documented_eq_nil (h : c.documented.alternatives = []) :
    c.HoldsRenamed r (· ∈ c.markerKeys) v := by
  rcases alternatives_build_eq_nil_iff.mp h with hnone | hnil
  · exact .inl (List.map_eq_nil_iff.mp hnone)
  · obtain ⟨atoms, hatoms, hkept⟩ := List.mem_map.mp hnil
    refine .inr ⟨atoms, hatoms, fun a ha => .inl ?_⟩
    have hempty : atoms.keep c.markerKeys = [] := hkept
    by_contra hdocumented
    have hin : a ∈ atoms.keep c.markerKeys := Conjunction.mem_keep_iff.mpr ⟨ha, hdocumented⟩
    rw [hempty] at hin
    cases hin

/-- Where the renamed documented part holds, the renamed condition does, the calls of the marker taken as true. -/
theorem holdsRenamed_of_documented (hc : c.Normal) {renamed : List Conjunction}
    (hrenamed : List.Forall₂ (List.Forall₂ fun a a' => a.rename r = .ok a') c.documented.alternatives renamed)
    (h : (build renamed).Holds v) : c.HoldsRenamed r (· ∈ c.markerKeys) v := by
  rcases holds_build_iff.mp h with hnone | ⟨atoms', hatoms', hholds⟩
  · rw [hnone, List.forall₂_nil_right_iff] at hrenamed
    exact holdsRenamed_of_documented_eq_nil hrenamed
  · obtain ⟨kept, hkept, hboth⟩ := exists_left_of_forall₂ hrenamed hatoms'
    obtain ⟨atoms, hatoms, rfl⟩ := exists_of_mem_documented hc hkept
    refine .inr ⟨atoms, hatoms, fun a ha => ?_⟩
    by_cases hmarker : a.key ∈ c.markerKeys
    · exact .inl hmarker
    · obtain ⟨a', ha', hrename⟩ := exists_right_of_forall₂ hboth (Conjunction.mem_keep_iff.mpr ⟨ha, hmarker⟩)
      exact .inr ⟨a', hrename, hholds a' ha'⟩

end Condition

namespace Edge

variable {caller callee : Item} {site : Site} {e : Edge}

/-- What stands for the names of a callee at a call. -/
def callRenaming (callee : Item) (o : Operation) : Renaming := ⟨argumentsFor callee o, []⟩

/-- The obligation of a call is the contract of the callee in the terms of the caller. -/
theorem ofCall_eq_ok_iff : ofCall caller callee site = .ok e ↔
    ∃ t, CallerTerms.ofRenaming callee.contract (callRenaming callee site.operation) = .ok t ∧
      e = t.edge caller site callee.path callee.contract callee.declaredUnsafe := by
  unfold ofCall
  rw [Outcome.bind_eq_ok_iff]
  refine exists_congr fun t => and_congr_right fun _ => ?_
  exact ⟨fun h => (Except.ok.inj h).symm, fun h => h ▸ rfl⟩

/-- What a call requires: the contract of the callee, its atoms renamed. -/
theorem required_of_ofCall (h : ofCall caller callee site = .ok e) :
    e.calleeTerms = callee.contract ∧ ∃ renamed : List Conjunction,
      List.Forall₂ (List.Forall₂ fun a a' => a.rename (callRenaming callee site.operation) = .ok a')
        callee.contract.alternatives renamed ∧ e.required = .build renamed := by
  obtain ⟨t, hterms, rfl⟩ := ofCall_eq_ok_iff.mp h
  exact ⟨rfl, CallerTerms.ofRenaming_spec hterms⟩

end Edge

namespace Model

variable {config : Config} {snapshot : Snapshot} {m : Model} {g : Graph} {caller callee : Item} {e : Edge}

/-- The obligation of a call is made for the item that its target resolves to. -/
theorem ofCall_of_edge (hbuild : (build config snapshot).outcome = .ok m)
    (hgraph : (m.graph config).outcome = .ok g) (hcaller : caller ∈ m.items)
    (he : e ∈ g.edgesFrom caller.path) (hkind : e.kind = .call)
    (hresolved : m.resolveItem caller e.site.operation.target = some callee) :
    Edge.ofCall caller callee e.site = .ok e := by
  obtain ⟨site, -, harises⟩ := (mem_edgesFrom_iff (consistent_of_build hbuild) hgraph hcaller).mp he
  have hsite := harises.statedAt.site_eq
  have hcall := harises.kind_eq_call hkind
  cases harises with
  | primitive kind _ => simp [hcall, OperationKind.isPrimitive] at kind
  | internals s kind _ _ => simp [hcall, OperationKind.touchesInternals] at kind
  | call found _ resolved made =>
    rw [hsite, resolved] at hresolved
    cases hresolved
    rw [hsite]
    exact made

theorem normal_requirements (h : (build config snapshot).outcome = .ok m) (hi : callee ∈ m.items) :
    callee.requirements.Normal := by
  obtain ⟨lines, hlines⟩ := requirements_of_build h hi
  exact Condition.normal_ofLines hlines

end Model

/-- The key of the marker for reliance on the type invariant of the receiver. -/
def selfMarkerKey : String := "invariant ( self )"

/-- What an unsafe callee documents reaches its callers, the calls of the marker apart. Each atom that a call
requires is an atom of the callee other than such a call, in the terms of the caller. Wherever the required
atoms hold, the requirements of the callee hold in those terms, with the calls of the marker taken as true. If
the marker is called on `self` only, it is enough to take that one atom as true. -/
theorem call_requires_all_but_markers {config : Config} {snapshot : Snapshot} {m : Model} {g : Graph}
    (hbuild : (Model.build config snapshot).outcome = .ok m) (hgraph : (m.graph config).outcome = .ok g)
    {caller callee : Item} (hcaller : caller ∈ m.items) {e : Edge} (he : e ∈ g.edgesFrom caller.path)
    (hkind : e.kind = .call) (hresolved : m.resolveItem caller e.site.operation.target = some callee)
    (hdeclared : callee.declaredUnsafe = true) :
    (∀ a' ∈ e.required.alternatives.flatten, ∃ a ∈ callee.requirements.alternatives.flatten,
      a.key ∉ callee.requirements.markerKeys ∧
        a.rename (Edge.callRenaming callee e.site.operation) = .ok a') ∧
    ∀ v : Valuation, e.required.Holds v →
      callee.requirements.HoldsRenamed (Edge.callRenaming callee e.site.operation)
        (· ∈ callee.requirements.markerKeys) v ∧
      ((∀ key ∈ callee.requirements.markerKeys, key = selfMarkerKey) →
        callee.requirements.HoldsRenamed (Edge.callRenaming callee e.site.operation) (· = selfMarkerKey) v) := by
  have hnormal := Model.normal_requirements hbuild (Model.mem_items_of_resolveItem hresolved)
  have hcontract : callee.contract = callee.requirements.documented := if_pos hdeclared
  obtain ⟨-, renamed, hrenamed, hrequired⟩ :=
    Edge.required_of_ofCall (Model.ofCall_of_edge hbuild hgraph hcaller he hkind hresolved)
  rw [hcontract] at hrenamed
  rw [hrequired]
  refine ⟨fun a' ha' => ?_, fun v hholds => ?_⟩
  · obtain ⟨atoms', hatoms', ha'⟩ := List.mem_flatten.mp ha'
    obtain ⟨given, hgiven, rfl⟩ := Condition.exists_of_mem_build hatoms'
    obtain ⟨kept, hkept, hboth⟩ := exists_left_of_forall₂ hrenamed hgiven
    obtain ⟨atoms, hatoms, rfl⟩ := Condition.exists_of_mem_documented hnormal hkept
    obtain ⟨a, ha, hrename⟩ := exists_left_of_forall₂ hboth (Conjunction.dedupe_subset _ ha')
    obtain ⟨ha, hkey⟩ := Conjunction.mem_keep_iff.mp ha
    exact ⟨a, List.mem_flatten_of_mem hatoms ha, hkey, hrename⟩
  · have hall := Condition.holdsRenamed_of_documented hnormal hrenamed hholds
    exact ⟨hall, hall.mono⟩

/-- A method that relies on the invariant of its receiver in one of two cases, and a call of it. -/
def firstOrChecked : Snapshot :=
  { items :=
      [.struct { path := "crate::Ring", fields := [{ name := "len" }] },
      .function
        { path := "crate::Ring::get", kind := .method, owner := some "crate::Ring", declaredUnsafe := true,
          params := ["i"], requirements := ["i == 0 or invariant(self) and i < self.len", "live(self)"] },
      .function
        { path := "crate::peek", params := ["ring", "k"],
          body := [{ kind := .call, target := "crate::Ring::get", args := ["k"], receiver := some "ring" }] }] }

/-- The call requires both cases without the marker. Where it holds in the second one, so do the requirements of
the method, if its marker is taken as true. -/
theorem firstOrChecked_requires_all :
    ∃ m g, (Model.build {} firstOrChecked).outcome = .ok m ∧ (m.graph {}).outcome = .ok g ∧
      ∃ caller ∈ m.items, ∃ e ∈ g.edgesFrom caller.path, ∃ callee, e.kind = .call ∧
        m.resolveItem caller e.site.operation.target = some callee ∧ callee.declaredUnsafe = true ∧
        callee.requirements.text =
          "(i == 0 and live(self)) or (invariant(self) and i < self.len and live(self))" ∧
        e.required.text = "(k == 0 and live(ring)) or (k < ring.len and live(ring))" ∧
        ∀ v : Valuation, v.truth "k < ring . len" = true → v.truth "live ( ring )" = true →
          callee.requirements.HoldsRenamed (Edge.callRenaming callee e.site.operation) (· = selfMarkerKey) v := by
  have hcheck : Run.examine {} firstOrChecked (fun m g => m.items.any fun caller =>
      (g.edgesFrom caller.path).any fun e => (m.resolveItem caller e.site.operation.target).any fun callee =>
        decide (e.kind = .call) && callee.declaredUnsafe &&
        decide (callee.requirements.text =
          "(i == 0 and live(self)) or (invariant(self) and i < self.len and live(self))") &&
        decide (e.required.text = "(k == 0 and live(ring)) or (k < ring.len and live(ring))") &&
        decide (callee.requirements.markerKeys = [selfMarkerKey]) &&
        e.required.alternatives.any fun atoms =>
          decide (atoms.map (·.key) = ["k < ring . len", "live ( ring )"])) = true := by
    decide +kernel
  obtain ⟨m, g, hm, hg, hcheck⟩ := Run.examine_eq_true_iff.mp hcheck
  simp only [Bool.and_eq_true, List.any_eq_true, Option.any_eq_true, decide_eq_true_eq] at hcheck
  obtain ⟨caller, hcaller, e, he, callee, hresolved, ⟨⟨⟨⟨hkind, hdeclared⟩, htext⟩, hrequired⟩, hmarkers⟩,
    atoms, hatoms, hkeys⟩ := hcheck
  obtain ⟨-, hholds⟩ := call_requires_all_but_markers hm hg hcaller he hkind hresolved hdeclared
  refine ⟨m, g, hm, hg, caller, hcaller, e, he, callee, hkind, hresolved, hdeclared, htext, hrequired,
    fun v hlen hlive => (hholds v (.inr ⟨atoms, hatoms, fun a ha => ?_⟩)).2 (by simp [hmarkers])⟩
  have hkey : a.key ∈ ["k < ring . len", "live ( ring )"] := hkeys ▸ List.mem_map_of_mem ha
  rcases List.mem_pair.mp hkey with h | h
  · rw [h, hlen]
  · rw [h, hlive]

end CrateSafety
