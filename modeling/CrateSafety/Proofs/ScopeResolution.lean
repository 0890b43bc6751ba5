import CrateSafety.Proofs.Consistency
import CrateSafety.Model.Scope

/-!
# Scopes of consistent models

Every module, item and struct of a consistent model has a scope. The way from a module to the root gets
shorter with each parent, and the way from an entity leads through its trait or its owner at most, so the
bounds of both searches are never reached.
-/

namespace CrateSafety

namespace Path

/-- A text is put together again from the parts that it is cut into. -/
theorem eq_of_cutLast {cs before after : List Char} (h : cutLast cs = some (before, after)) :
    cs = before ++ ':' :: ':' :: after := by
  induction cs generalizing before with
  | nil => cases h
  | cons c rest ih =>
    unfold cutLast at h
    split at h
    case h_1 before' after' hrest =>
      cases h
      rw [ih hrest, List.cons_append]
    case h_2 =>
      split at h
      case h_1 =>
        cases h
        rfl
      case h_2 => cases h

/-- A parent is shorter by its separator at least. -/
theorem length_of_parent? {path parent : String} (h : parent? path = some parent) :
    parent.length + 2 ≤ path.length := by
  obtain ⟨⟨before, after⟩, hcut, rfl⟩ := Option.map_eq_some_iff.mp h
  have hlength := congrArg List.length (eq_of_cutLast hcut)
  simp only [List.length_append, List.length_cons, String.length_toList] at hlength
  rw [String.length_ofList]
  omega

/-- Paths beneath the root are longer than it. -/
theorem length_of_within {path : String} (h : within path crateRoot = true)
    (hne : path ≠ crateRoot) : 7 ≤ path.length := by
  have hbeq : (path == crateRoot) = false := by simpa using hne
  rw [within, hbeq, Bool.false_or, List.isPrefixOf_iff_prefix] at h
  have hlength := h.length_le
  rw [String.length_toList] at hlength
  exact hlength

theorem length_of_parentOrRoot {path : String} (h : within path crateRoot = true)
    (hne : path ≠ crateRoot) : (parentOrRoot path).length < path.length := by
  have hlong := length_of_within h hne
  have hroot : crateRoot.length = 5 := rfl
  unfold parentOrRoot
  split
  case h_1 parent hparent =>
    have hshort := length_of_parent? hparent
    split <;> omega
  case h_2 => omega

end Path

namespace Model

variable {m : Model}

section Modules

theorem exists_module?_of_mem {path : String} (h : ∃ x ∈ m.modules, x.path = path) :
    ∃ x, m.module? path = some x := by
  obtain ⟨x, hx, rfl⟩ := h
  rw [← Option.isSome_iff_exists, module?, List.find?_isSome]
  exact ⟨x, hx, by simp⟩

/-- A bound above the length of the path is enough. -/
theorem moduleScopeWithin_isOk (hn : Nested m.modules) (fuel : Nat) {path : String}
    (hp : ∃ x ∈ m.modules, x.path = path) (hf : path.length < fuel) :
    ∃ scope, m.moduleScopeWithin fuel path = .ok scope := by
  induction fuel generalizing path with
  | zero => omega
  | succ fuel ih =>
    unfold moduleScopeWithin
    by_cases hroot : path = Path.crateRoot
    · simp [hroot]
    · obtain ⟨declared, hdeclared⟩ := exists_module?_of_mem hp
      obtain ⟨x, hx, rfl⟩ := hp
      obtain ⟨hwithin, hparent⟩ := hn.parent x hx hroot
      have hshort := Path.length_of_parentOrRoot hwithin hroot
      obtain ⟨outer, houter⟩ := ih hparent (by omega)
      simp [hroot, hdeclared, houter, bind, Except.bind, pure, Except.pure]

theorem moduleScope_isOk (hn : Nested m.modules) {path : String}
    (hp : ∃ x ∈ m.modules, x.path = path) : ∃ scope, m.moduleScope path = .ok scope :=
  moduleScopeWithin_isOk hn _ hp (Nat.lt_succ_self _)

theorem markedScope_isOk (hn : Nested m.modules) (v : Visibility) {module : String}
    (hp : ∃ x ∈ m.modules, x.path = module) : ∃ scope, m.markedScope v module = .ok scope := by
  obtain ⟨outer, houter⟩ := moduleScope_isOk hn hp
  exact ⟨_, by rw [markedScope, houter]; rfl⟩

end Modules

section Entities

/-- A path that is also that of a module has the scope of the module. -/
theorem scopeWithin_of_module (hn : Nested m.modules) {path : String} (fuel : Nat)
    (h : (m.module? path).isSome = true) : ∃ scope, m.scopeWithin (fuel + 1) path = .ok scope := by
  have hp : ∃ x ∈ m.modules, x.path = path := by
    obtain ⟨x, hx⟩ := Option.isSome_iff_exists.mp h
    exact ⟨x, List.mem_of_find?_eq_some hx, by simpa using List.find?_some hx⟩
  obtain ⟨scope, hscope⟩ := moduleScope_isOk hn hp
  exact ⟨scope, by rw [scopeWithin, if_pos h, hscope]⟩

/-- Structs, traits and enumeration types have the scope of their marker. -/
theorem scopeWithin_type_isOk (hc : m.Consistent) {e : Entity} (he : e ∈ m.entities)
    (hitem : e.item? = none) (himpl : e.impl? = none) (fuel : Nat) :
    ∃ scope, m.scopeWithin (fuel + 1) e.path = .ok scope := by
  cases hm : (m.module? e.path).isSome with
  | true => exact scopeWithin_of_module hc.nested fuel hm
  | false =>
    have hentity : m.entity? e.path = some e := hc.entity?_eq_some_iff.mpr ⟨he, rfl⟩
    have hmarked := fun v => markedScope_isOk hc.nested v (hc.module e he)
    rw [scopeWithin, hm, hentity]
    cases e with
    | item i => cases hitem
    | impl i => cases himpl
    | struct s => simpa [Entity.module] using hmarked s.visibility
    | trait t => simpa [Entity.module] using hmarked t.visibility
    | enum d => simpa [Entity.module] using hmarked d.visibility

/-- A method of a trait has the scope of the trait. -/
theorem scopeWithin_traitMethod_isOk (hc : m.Consistent) {i : Item} (hi : i ∈ m.items)
    (hk : i.kind = .traitMethod) (fuel : Nat) :
    ∃ scope, m.scopeWithin (fuel + 2) i.path = .ok scope := by
  cases hm : (m.module? i.path).isSome with
  | true => exact scopeWithin_of_module hc.nested _ hm
  | false =>
    have hentity : m.entity? i.path = some (.item i) :=
      hc.entity?_eq_some_iff.mpr ⟨mem_items.mp hi, rfl⟩
    obtain ⟨t, ht, howner⟩ := hc.traitOwner i hi hk
    obtain ⟨scope, hscope⟩ := scopeWithin_type_isOk hc (mem_traits.mp ht) rfl rfl fuel
    refine ⟨scope, ?_⟩
    rw [scopeWithin, hm, hentity]
    simpa [hk, howner, Entity.path] using hscope

/-- Any item has a scope: that of the trait method that it implements, or that of its marker and its
owner. -/
theorem scopeWithin_item_isOk (hc : m.Consistent) {i : Item} (hi : i ∈ m.items) (fuel : Nat) :
    ∃ scope, m.scopeWithin (fuel + 3) i.path = .ok scope := by
  by_cases hk : i.kind = .traitMethod
  · exact scopeWithin_traitMethod_isOk hc hi hk (fuel + 1)
  cases hm : (m.module? i.path).isSome with
  | true => exact scopeWithin_of_module hc.nested _ hm
  | false =>
    have hentity : m.entity? i.path = some (.item i) :=
      hc.entity?_eq_some_iff.mpr ⟨mem_items.mp hi, rfl⟩
    have hkind : (i.kind == .traitMethod) = false := by simpa using hk
    rw [scopeWithin, hm, hentity]
    simp only [Bool.false_eq_true, if_false, hkind]
    cases himpl : i.implements? with
    | some method =>
      obtain ⟨declared, hd, rfl, hdk⟩ := hc.implements i hi method himpl
      exact scopeWithin_traitMethod_isOk hc hd hdk fuel
    | none =>
      obtain ⟨own, hown⟩ := markedScope_isOk hc.nested i.visibility (hc.module _ (mem_items.mp hi))
      simp only [Entity.module] at hown
      cases howner : i.owner? with
      | none => simp [hown, bind, Except.bind, pure, Except.pure]
      | some path =>
        have htype : ∃ scope, m.scopeWithin (fuel + 2) path = .ok scope := by
          rcases hc.owner i hi hk path howner with ⟨s, hs, rfl⟩ | ⟨d, hd, rfl⟩
          · exact scopeWithin_type_isOk hc (mem_structs.mp hs) rfl rfl _
          · exact scopeWithin_type_isOk hc (mem_enums.mp hd) rfl rfl _
        obtain ⟨scope, hscope⟩ := htype
        simp [hown, hscope, bind, Except.bind, pure, Except.pure]

theorem scopeOf_item_isOk (hc : m.Consistent) {i : Item} (hi : i ∈ m.items) :
    ∃ scope, m.scopeOf i.path = .ok scope := by
  have hpos := List.length_pos_of_mem (mem_items.mp hi)
  obtain ⟨scope, hscope⟩ := scopeWithin_item_isOk hc hi (m.entities.length - 1)
  refine ⟨scope, ?_⟩
  rw [scopeOf, show m.entities.length + 2 = m.entities.length - 1 + 3 by omega]
  exact hscope

theorem scopeOf_struct_isOk (hc : m.Consistent) {s : Struct} (hs : s ∈ m.structs) :
    ∃ scope, m.scopeOf s.path = .ok scope :=
  scopeWithin_type_isOk hc (mem_structs.mp hs) rfl rfl _

/-- Declared fields have a scope. -/
theorem fieldScope_isOk (hc : m.Consistent) {s : Struct} (hs : s ∈ m.structs) {name : String}
    (hn : name ∈ s.fieldNames) : ∃ scope, m.fieldScope s name = .ok scope := by
  obtain ⟨field, hf, rfl⟩ := List.mem_map.mp hn
  obtain ⟨found, hfound⟩ : ∃ found, s.field? field.name = some found := by
    rw [← Option.isSome_iff_exists, Struct.field?, List.find?_isSome]
    exact ⟨field, hf, by simp⟩
  obtain ⟨scope, hscope⟩ := scopeOf_struct_isOk hc hs
  simp [fieldScope, hfound, hscope, bind, Except.bind, pure, Except.pure]

end Entities

end Model

end CrateSafety
