import CrateSafety.Proofs.EnclosingScopes
import CrateSafety.Proofs.Interface
import Mathlib.Data.List.Duplicate

/-!
# Where the search for a scope ends

The scope of a path is taken from its own marker and from at most one other path: a trait method asks its
trait, an implementation its trait method, an item its owner, a variant its type and an implementation block
its target. The first four kinds of references end after two steps. Targets of implementation blocks are not
checked, so they are the only ones that can lead in a circle, and where they do the search has no end.
-/

namespace CrateSafety

namespace Path

theorem cutLast_eq_none_of_not_mem {cs : List Char} (h : ':' ∉ cs) : cutLast cs = none := by
  induction cs with
  | nil => rfl
  | cons c rest ih =>
    have hrest : ':' ∉ rest := fun hmem => h (List.mem_cons_of_mem c hmem)
    refine cutLast_cons_of_none (ih hrest) fun _ hcolon _ => h ?_
    rw [hcolon]
    exact List.mem_cons_self

/-- A name without colons is cut off again from the path that it extends. -/
theorem cutLast_child {name : String} (h : ':' ∉ name.toList) (path : String) :
    cutLast (child path name).toList = some (path.toList, name.toList) := by
  have hname : cutLast (':' :: name.toList) = none := by
    refine cutLast_cons_of_none (cutLast_eq_none_of_not_mem h) fun after _ hafter => h ?_
    rw [hafter]
    exact List.mem_cons_self
  have hcut : ∀ cs : List Char, cutLast (cs ++ ':' :: ':' :: name.toList) = some (cs, name.toList) := by
    intro cs
    induction cs with
    | nil => exact cutLast_pair hname
    | cons c cs ih => exact cutLast_cons_of_some ih
  have hchild : (child path name).toList = path.toList ++ ':' :: ':' :: name.toList := by
    simp [child]
  rw [hchild, hcut]

end Path

namespace Entity

/-- Whether other entities take their scope from an entity of this kind by a checked reference: structs,
traits, enumeration types and methods of traits. -/
def Lends (e : Entity) : Prop :=
  e.impl? = none ∧ ∀ i, e.item? = some i → i.kind = .traitMethod

end Entity

namespace Model

/-- The path whose scope bounds the scope of a path, if there is one. -/
def consulted? (m : Model) (path : String) : Option String :=
  if (m.module? path).isSome then none
  else
    match m.entity? path with
    | some (.item i) =>
      if i.kind == .traitMethod then some (i.owner.getD "") else i.implements?.or i.owner?
    | some (.impl i) => if (m.entity? i.target).isSome then some i.target else none
    | some _ => none
    | none => m.variantOwner? path

/-- The scope that a path has by itself, before another path is consulted. -/
def ownScope (m : Model) (path : String) : Except ScopeError Scope :=
  if (m.module? path).isSome then m.moduleScope path
  else
    match m.entity? path with
    | some (.impl i) => if (m.entity? i.target).isSome then .ok none else m.moduleScope i.module
    | some e =>
      match e.marker? with
      | some v => m.markedScope v e.module
      | none => .ok none
    | none => if (m.variantOwner? path).isSome then .ok none else .error (.unknown path)

/-- The scope of one path is asked for in the search for that of another. -/
def Consults (m : Model) (path other : String) : Prop := m.consulted? path = some other

/-- The search for the scope of a path ends: no way from it, each path consulting the next, goes on for
ever. -/
def Ends (m : Model) (path : String) : Prop := Acc (fun other path => m.Consults path other) path

/-- An implementation block hands the question for its scope on to its target. -/
def Redirects (m : Model) (path target : String) : Prop :=
  m.module? path = none ∧ (∃ i ∈ m.impls, i.path = path ∧ i.target = target) ∧
    ∃ e ∈ m.entities, e.path = target

/-- The targets of implementation blocks lead from a path into a circle. -/
def Circular (m : Model) (path : String) : Prop :=
  ∃ block, Relation.ReflTransGen m.Redirects path block ∧ Relation.TransGen m.Redirects block block

/-- A path that stands for something: a module, an entity, or a variant, whose path is that of its type with
its name as the last segment. -/
inductive Names (m : Model) : String → Prop where
  | module {x : Module} (declared : x ∈ m.modules) : m.Names x.path
  | entity {e : Entity} (declared : e ∈ m.entities) : m.Names e.path
  | variant {d : EnumDeclaration} {path : String} (declared : d ∈ m.enums)
      (parent : Path.parent? path = some d.path) (last : Path.lastSegment path ∈ d.variants) : m.Names path

section Steps

variable {m : Model} {path other : String}

/-- One step of the search: what the path has by itself, bounded by the scope of the path that it consults. -/
theorem scopeWithin_succ (fuel : Nat) (path : String) :
    m.scopeWithin (fuel + 1) path = (m.ownScope path).bind fun own =>
      match m.consulted? path with
      | some other => (m.scopeWithin fuel other).map (Scope.narrowest own)
      | none => .ok own := by
  have hopen : ∀ x : Except ScopeError Scope, x.map (Scope.narrowest none) = x := by
    rintro (_ | _) <;> rfl
  have hok : ∀ x : Except ScopeError Scope, x.bind .ok = x := by
    rintro (_ | _) <;> rfl
  rw [scopeWithin, ownScope, consulted?]
  cases (m.module? path).isSome with
  | true => exact (hok _).symm
  | false =>
    cases m.entity? path with
    | none =>
      cases m.variantOwner? path with
      | none => rfl
      | some owner => exact (hopen _).symm
    | some e =>
      cases e with
      | item i =>
        cases hkind : i.kind == .traitMethod with
        | true => simp [Entity.marker?, hkind, Except.bind, hopen]
        | false =>
          cases himplements : i.implements? with
          | some method => simp [Entity.marker?, hkind, himplements, Except.bind, hopen]
          | none =>
            simp only [Entity.marker?, hkind, himplements, Option.isSome_none, Bool.or_false,
              Bool.false_eq_true, if_false, Option.none_or]
            rfl
      | impl i =>
        cases htarget : (m.entity? i.target).isSome with
        | true => simp [htarget, Except.bind, hopen]
        | false => simpa [htarget] using (hok _).symm
      | struct s => exact (hok _).symm
      | trait t => exact (hok _).symm
      | enum d => exact (hok _).symm

end Steps

section References

variable {m : Model} {path other : String}

theorem module?_eq_none_of_consults (h : m.Consults path other) : m.module? path = none := by
  rw [Consults, consulted?] at h
  split at h
  · cases h
  case isFalse hmodule => simpa using hmodule

/-- Structs, traits and enumeration types consult no other path. -/
theorem not_consults_of_type (hc : m.Consistent) {e : Entity} (he : e ∈ m.entities)
    (hitem : e.item? = none) (himpl : e.impl? = none) : ¬ m.Consults e.path other := by
  intro h
  have hentity : m.entity? e.path = some e := hc.entity?_eq_some_iff.mpr ⟨he, rfl⟩
  rw [Consults, consulted?, module?_eq_none_of_consults h, hentity] at h
  cases e with
  | item i => cases hitem
  | impl i => cases himpl
  | _ => cases h

/-- An item consults its trait, the trait method that it implements, or its owner. -/
theorem lends_of_consults_item (hc : m.Consistent) {i : Item} (hi : i ∈ m.items)
    (h : m.Consults i.path other) :
    ∃ e ∈ m.entities, e.path = other ∧ e.Lends ∧ (i.kind = .traitMethod → e.item? = none) := by
  have hentity : m.entity? i.path = some (.item i) := hc.entity?_eq_some_iff.mpr ⟨mem_items.mp hi, rfl⟩
  have hlends : ∀ e : Entity, e.impl? = none → e.item? = none → e.Lends := by
    intro e himpl hitem
    refine ⟨himpl, fun i hi => ?_⟩
    rw [hitem] at hi
    cases hi
  rw [Consults, consulted?, module?_eq_none_of_consults h, hentity] at h
  simp only [Option.isSome_none, Bool.false_eq_true, if_false, beq_iff_eq] at h
  split at h
  case isTrue hk =>
    obtain ⟨t, ht, howner⟩ := hc.traitOwner i hi hk
    rw [howner] at h
    cases h
    exact ⟨.trait t, mem_traits.mp ht, rfl, hlends _ rfl rfl, fun _ => rfl⟩
  case isFalse hk =>
    cases himplements : i.implements? with
    | some method =>
      obtain ⟨declared, hd, hpath, hdk⟩ := hc.implements i hi method himplements
      rw [himplements] at h
      cases h
      refine ⟨.item declared, mem_items.mp hd, hpath, ⟨rfl, ?_⟩, fun hk' => absurd hk' hk⟩
      rintro _ ⟨⟩
      exact hdk
    | none =>
      rw [himplements, Option.none_or] at h
      rcases hc.owner i hi hk other h with ⟨s, hs, hpath⟩ | ⟨d, hd, hpath⟩
      · exact ⟨.struct s, mem_structs.mp hs, hpath, hlends _ rfl rfl, fun _ => rfl⟩
      · exact ⟨.enum d, mem_enums.mp hd, hpath, hlends _ rfl rfl, fun _ => rfl⟩

theorem variantOwner?_eq_some_iff (hc : m.Consistent) :
    m.variantOwner? path = some other ↔ ∃ d ∈ m.enums, d.path = other ∧
      Path.parent? path = some d.path ∧ Path.lastSegment path ∈ d.variants := by
  have henum : ∀ d, m.enum? other = some d ↔ d ∈ m.enums ∧ d.path = other := by
    intro d
    rw [hc.enum?_eq_bind, Option.bind_eq_some_iff, mem_enums]
    simp only [Entity.enum?_eq_some_iff, hc.entity?_eq_some_iff]
    constructor
    · rintro ⟨e, ⟨he, hpath⟩, rfl⟩
      exact ⟨he, hpath⟩
    · rintro ⟨hd, hpath⟩
      exact ⟨_, ⟨hd, hpath⟩, rfl⟩
  rw [variantOwner?, Option.filter_eq_some_iff, Option.any_eq_true]
  simp only [henum, List.contains_iff_mem]
  constructor
  · rintro ⟨hparent, d, ⟨hd, rfl⟩, hlast⟩
    exact ⟨d, hd, rfl, hparent, hlast⟩
  · rintro ⟨d, hd, rfl, hparent, hlast⟩
    exact ⟨hparent, d, ⟨hd, rfl⟩, hlast⟩

/-- A path is consulted by a checked reference or as the target of an implementation block. -/
theorem Consults.cases (hc : m.Consistent) (h : m.Consults path other) :
    m.Redirects path other ∨ ∃ e ∈ m.entities, e.path = other ∧ e.Lends := by
  have hmodule := module?_eq_none_of_consults h
  cases hentity : m.entity? path with
  | none =>
    rw [Consults, consulted?, hmodule, hentity] at h
    obtain ⟨d, hd, hpath, -⟩ := (variantOwner?_eq_some_iff hc).mp h
    refine .inr ⟨.enum d, mem_enums.mp hd, hpath, rfl, ?_⟩
    rintro i ⟨⟩
  | some e =>
    obtain ⟨he, rfl⟩ := hc.entity?_eq_some_iff.mp hentity
    cases e with
    | item i =>
      obtain ⟨e, he, hpath, hlends, -⟩ := lends_of_consults_item hc (mem_items.mpr he) h
      exact .inr ⟨e, he, hpath, hlends⟩
    | impl i =>
      rw [Consults, consulted?, hmodule, hentity] at h
      simp only [Option.isSome_none, Bool.false_eq_true, if_false] at h
      split at h
      case isTrue htarget =>
        cases h
        obtain ⟨e, hfound⟩ := Option.isSome_iff_exists.mp htarget
        exact .inl ⟨hmodule, ⟨i, mem_impls.mpr he, rfl, rfl⟩, e, hc.entity?_eq_some_iff.mp hfound⟩
      case isFalse => cases h
    | struct s => exact absurd h (not_consults_of_type hc he rfl rfl)
    | trait t => exact absurd h (not_consults_of_type hc he rfl rfl)
    | enum d => exact absurd h (not_consults_of_type hc he rfl rfl)

theorem Redirects.consults (hc : m.Consistent) (h : m.Redirects path other) : m.Consults path other := by
  obtain ⟨hmodule, ⟨i, hi, rfl, rfl⟩, e, he, hpath⟩ := h
  have hentity : m.entity? i.path = some (.impl i) := hc.entity?_eq_some_iff.mpr ⟨mem_impls.mp hi, rfl⟩
  have htarget : m.entity? i.target = some e := hc.entity?_eq_some_iff.mpr ⟨he, hpath⟩
  simp [Consults, consulted?, hmodule, hentity, htarget]

end References

section Ends

variable {m : Model} {path other : String}

theorem ends_of_lends (hc : m.Consistent) {e : Entity} (he : e ∈ m.entities) (hl : e.Lends) :
    m.Ends e.path := by
  have htype : ∀ d ∈ m.entities, d.item? = none → d.impl? = none → m.Ends d.path :=
    fun d hd hitem himpl => ⟨_, fun _ h => absurd h (not_consults_of_type hc hd hitem himpl)⟩
  cases hitem : e.item? with
  | none => exact htype e he hitem hl.1
  | some i =>
    -- a method of a trait consults the trait, which consults nothing
    have hkind := hl.2 i hitem
    rw [Entity.item?_eq_some_iff.mp hitem] at he ⊢
    refine ⟨_, fun other h => ?_⟩
    obtain ⟨t, ht, rfl, hlends, htrait⟩ := lends_of_consults_item hc (mem_items.mpr he) h
    exact htype t ht (htrait hkind) hlends.1

/-- A search that does not end is handed on by an implementation block to a search that does not end. -/
theorem exists_redirects_of_not_ends (hc : m.Consistent) (h : ¬ m.Ends path) :
    ∃ target, m.Redirects path target ∧ ¬ m.Ends target := by
  by_contra hnone
  refine h ⟨_, fun other hother => ?_⟩
  rcases hother.cases hc with hredirects | ⟨e, he, rfl, hlends⟩
  · by_contra hends
    exact hnone ⟨other, hredirects, hends⟩
  · exact ends_of_lends hc he hlends

/-- No way from a path whose search ends comes to a path for the second time. -/
theorem Ends.not_cycle (h : m.Ends path) :
    ¬ ∃ repeated, Relation.ReflTransGen m.Consults path repeated ∧
      Relation.TransGen m.Consults repeated repeated := by
  induction h with
  | intro path _ ih =>
    rintro ⟨repeated, hreach, hcycle⟩
    rcases hreach.cases_head with rfl | ⟨other, hstep, hreach⟩
    · obtain ⟨other, hstep, hback⟩ := Relation.TransGen.head'_iff.mp hcycle
      exact ih other hstep ⟨path, hback, hcycle⟩
    · exact ih other hstep ⟨repeated, hreach, hcycle⟩

/-- There are no more paths to be consulted one after the other than entities, unless one comes twice. -/
theorem exists_cycle_of_chain {R : String → String → Prop} (hR : ∀ a b, R a b → ∃ e ∈ m.entities, e.path = b)
    {paths : List String} (hchain : List.IsChain R (path :: paths)) (hlong : m.entities.length < paths.length) :
    ∃ repeated, Relation.ReflTransGen R path repeated ∧ Relation.TransGen R repeated repeated := by
  have hpairs : (path :: paths).Pairwise (Relation.TransGen R) :=
    List.isChain_iff_pairwise.mp (hchain.imp fun _ _ => .single)
  obtain ⟨hfirst, hrest⟩ := List.pairwise_cons.mp hpairs
  have hknown : paths ⊆ m.entities.map Entity.path := by
    intro other hother
    obtain ⟨before, -, hlast⟩ := Relation.TransGen.tail'_iff.mp (hfirst other hother)
    exact List.mem_map.mpr (hR before other hlast)
  have hrepeated : ¬ paths.Nodup := by
    intro hnodup
    have hle := (List.subperm_of_subset hnodup hknown).length_le
    rw [List.length_map] at hle
    omega
  obtain ⟨repeated, hduplicate⟩ := List.exists_duplicate_iff_not_nodup.mpr hrepeated
  refine ⟨repeated, (hfirst repeated hduplicate.mem).to_reflTransGen, ?_⟩
  simpa using hrest.sublist (List.duplicate_iff_sublist.mp hduplicate)

/-- A search ends exactly if it does not run into a circle of implementation blocks. -/
theorem ends_iff_not_circular (hc : m.Consistent) : m.Ends path ↔ ¬ m.Circular path := by
  constructor
  · rintro hends ⟨block, hreach, hcycle⟩
    have hconsults : ∀ a b, m.Redirects a b → m.Consults a b := fun _ _ h => h.consults hc
    exact hends.not_cycle
      ⟨block, Relation.ReflTransGen.mono hconsults _ _ hreach, Relation.TransGen.mono hconsults _ _ hcycle⟩
  intro h
  by_contra hends
  -- without an end there are chains of redirections of any length
  have hchains : ∀ n path, ¬ m.Ends path →
      ∃ paths, paths.length = n ∧ List.IsChain m.Redirects (path :: paths) := by
    intro n
    induction n with
    | zero => exact fun path _ => ⟨[], rfl, List.isChain_singleton path⟩
    | succ n ih =>
      intro path hpath
      obtain ⟨target, hstep, htarget⟩ := exists_redirects_of_not_ends hc hpath
      obtain ⟨paths, hlength, hchain⟩ := ih target htarget
      exact ⟨target :: paths, by rw [List.length_cons, hlength], .cons_cons hstep hchain⟩
  obtain ⟨paths, hlength, hchain⟩ := hchains (m.entities.length + 1) path hends
  exact h (exists_cycle_of_chain (fun _ _ hstep => hstep.2.2) hchain (by omega))

end Ends

section Search

variable {m : Model} {path other : String}

theorem names_iff (hc : m.Consistent) : m.Names path ↔
    (m.module? path).isSome = true ∨ (m.entity? path).isSome = true ∨
      (m.variantOwner? path).isSome = true := by
  simp only [Option.isSome_iff_exists, hc.entity?_eq_some_iff, variantOwner?_eq_some_iff hc]
  constructor
  · rintro (hx | he | ⟨hd, hparent, hlast⟩)
    · exact .inl (exists_module?_of_mem ⟨_, hx, rfl⟩)
    · exact .inr (.inl ⟨_, he, rfl⟩)
    · exact .inr (.inr ⟨_, _, hd, rfl, hparent, hlast⟩)
  · rintro (⟨x, hx⟩ | ⟨e, he, rfl⟩ | ⟨_, d, hd, -, hparent, hlast⟩)
    · obtain ⟨hmem, rfl⟩ := module?_spec hx
      exact .module hmem
    · exact .entity he
    · exact .variant hd hparent hlast

/-- What stands for something has a scope by itself. -/
theorem ownScope_of_names (hc : m.Consistent) (h : m.Names path) : ∃ own, m.ownScope path = .ok own := by
  rw [ownScope]
  split
  case isTrue hmodule =>
    obtain ⟨x, hx⟩ := Option.isSome_iff_exists.mp hmodule
    exact moduleScope_isOk hc.nested ⟨x, module?_spec hx⟩
  case isFalse hmodule =>
    cases hentity : m.entity? path with
    | none =>
      have hvariant := ((names_iff hc).mp h).resolve_left hmodule |>.resolve_left (by simp [hentity])
      exact ⟨none, by simp [hvariant]⟩
    | some e =>
      obtain ⟨he, -⟩ := hc.entity?_eq_some_iff.mp hentity
      have hmodules := hc.module e he
      cases e with
      | impl i =>
        dsimp only
        split
        · exact ⟨none, rfl⟩
        · exact moduleScope_isOk hc.nested hmodules
      | _ =>
        dsimp only
        split
        · exact markedScope_isOk hc.nested _ hmodules
        · exact ⟨none, rfl⟩

/-- Nothing is found, and nothing is consulted, for a path that stands for nothing. -/
theorem scopeWithin_of_not_names (hc : m.Consistent) (h : ¬ m.Names path) (fuel : Nat) :
    m.scopeWithin (fuel + 1) path = .error (.unknown path) := by
  simp only [names_iff hc, not_or, Bool.not_eq_true, Option.isSome_eq_false_iff,
    Option.isNone_iff_eq_none] at h
  obtain ⟨hmodule, hentity, hvariant⟩ := h
  rw [scopeWithin, hmodule, hentity, hvariant]
  rfl

/-- What is consulted stands for something. -/
theorem names_of_consults (hc : m.Consistent) (h : m.Consults path other) : m.Names other := by
  rcases h.cases hc with ⟨-, -, e, he, rfl⟩ | ⟨e, he, rfl, -⟩
  · exact .entity he
  · exact .entity he

/-- A search from what stands for something fails only where it is cut off, after as many steps as it was
allowed. -/
theorem exists_chain_of_error (hc : m.Consistent) {fuel : Nat} {error : ScopeError} (hn : m.Names path)
    (h : m.scopeWithin fuel path = .error error) :
    ∃ paths, paths.length = fuel ∧ List.IsChain m.Consults (path :: paths) := by
  induction fuel generalizing path error with
  | zero => exact ⟨[], rfl, List.isChain_singleton path⟩
  | succ fuel ih =>
    obtain ⟨own, hown⟩ := ownScope_of_names hc hn
    rw [scopeWithin_succ, hown, Except.bind] at h
    cases hother : m.consulted? path with
    | none =>
      rw [hother] at h
      cases h
    | some other =>
      cases hscope : m.scopeWithin fuel other with
      | ok scope =>
        simp only [hother, hscope] at h
        cases h
      | error cause =>
        obtain ⟨paths, hlength, hchain⟩ := ih (names_of_consults hc hother) hscope
        exact ⟨other :: paths, by rw [List.length_cons, hlength], .cons_cons hother hchain⟩

/-- The bound of the search is wide enough for every search that ends. -/
theorem scopeOf_isOk_of_ends (hc : m.Consistent) (hn : m.Names path) (h : m.Ends path) :
    ∃ scope, m.scopeOf path = .ok scope := by
  cases hscope : m.scopeOf path with
  | ok scope => exact ⟨scope, rfl⟩
  | error error =>
    obtain ⟨paths, hlength, hchain⟩ := exists_chain_of_error hc hn hscope
    have hknown : ∀ a b, m.Consults a b → ∃ e ∈ m.entities, e.path = b := by
      intro a b hab
      rcases hab.cases hc with hredirects | ⟨e, he, hpath, -⟩
      · exact hredirects.2.2
      · exact ⟨e, he, hpath⟩
    exact absurd (exists_cycle_of_chain hknown hchain (by omega)) h.not_cycle

/-- A search that does not end is cut off, whatever the bound. -/
theorem scopeWithin_of_not_ends (hc : m.Consistent) (h : ¬ m.Ends path) (fuel : Nat) :
    ∃ last, m.scopeWithin fuel path = .error (.endless last) := by
  induction fuel generalizing path with
  | zero => exact ⟨path, rfl⟩
  | succ fuel ih =>
    obtain ⟨target, hredirects, htarget⟩ := exists_redirects_of_not_ends hc h
    have hconsults := hredirects.consults hc
    obtain ⟨last, hlast⟩ := ih htarget
    obtain ⟨-, ⟨i, hi, rfl, -⟩, -⟩ := hredirects
    obtain ⟨own, hown⟩ := ownScope_of_names hc (.entity (mem_impls.mp hi))
    have hbounded : (m.scopeWithin fuel target).map (Scope.narrowest own) = .error (.endless last) := by
      rw [hlast]
      rfl
    refine ⟨last, ?_⟩
    rw [Entity.path] at hown
    rw [Consults] at hconsults
    rw [scopeWithin_succ, hown, hconsults]
    exact hbounded

theorem names_child {d : EnumDeclaration} (hd : d ∈ m.enums) {name : String} (hv : name ∈ d.variants)
    (hname : ':' ∉ name.toList) : m.Names (Path.child d.path name) := by
  have hcut := Path.cutLast_child hname d.path
  refine .variant hd ?_ ?_
  · simp [Path.parent?, hcut]
  · simpa [Path.lastSegment, hcut] using hv

end Search

end Model

/-- Scope resolution ends unless implementation blocks target each other in a circle. A path has a scope exactly
if it stands for a module, an entity or a variant and its targets lead into no circle; it is unknown exactly if
it stands for nothing; and in a circle no number of steps is enough. -/
theorem scope_found_unless_circular {config : Config} {s : Snapshot} {m : Model}
    (hbuild : (Model.build config s).outcome = .ok m) :
    (∀ d ∈ m.enums, ∀ name ∈ d.variants, ':' ∉ name.toList → m.Names (Path.child d.path name)) ∧
    ∀ path, (m.Ends path ↔ ¬ m.Circular path) ∧
      ((∃ scope, m.scopeOf path = .ok scope) ↔ m.Names path ∧ ¬ m.Circular path) ∧
      (m.scopeOf path = .error (.unknown path) ↔ ¬ m.Names path) ∧
      (m.Circular path → ∀ fuel, ∃ last, m.scopeWithin fuel path = .error (.endless last)) := by
  have hc := Model.consistent_of_build hbuild
  refine ⟨fun d hd name hv hname => Model.names_child hd hv hname, fun path => ?_⟩
  have hends : m.Ends path ↔ ¬ m.Circular path := Model.ends_iff_not_circular hc
  have hendless : m.Circular path → ∀ fuel, ∃ last, m.scopeWithin fuel path = .error (.endless last) :=
    fun hcircular fuel => Model.scopeWithin_of_not_ends hc (fun h => hends.mp h hcircular) fuel
  have hunknown : ¬ m.Names path → m.scopeOf path = .error (.unknown path) :=
    fun hn => Model.scopeWithin_of_not_names hc hn _
  have hfound : m.Names path → ¬ m.Circular path → ∃ scope, m.scopeOf path = .ok scope :=
    fun hn hcircular => Model.scopeOf_isOk_of_ends hc hn (hends.mpr hcircular)
  refine ⟨hends, ⟨?_, fun h => hfound h.1 h.2⟩, ⟨?_, hunknown⟩, hendless⟩
  · rintro ⟨scope, hscope⟩
    refine ⟨?_, fun hcircular => ?_⟩
    · by_contra hn
      cases hscope.symm.trans (hunknown hn)
    · obtain ⟨last, hlast⟩ := hendless hcircular (m.entities.length + 2)
      cases hscope.symm.trans hlast
  · intro hscope hn
    by_cases hcircular : m.Circular path
    · obtain ⟨last, hlast⟩ := hendless hcircular (m.entities.length + 2)
      cases hscope.symm.trans hlast
    · obtain ⟨scope, hfound⟩ := hfound hn hcircular
      cases hscope.symm.trans hfound

/-- Two implementation blocks for a type that is not declared, one of them filed under the path of the type,
and an enumeration type. -/
def handleBlocks : Snapshot :=
  { items :=
      [.impl { path := "crate::Handle", module := "crate", trait := "Send", target := "crate::Handle" },
       .impl { path := "crate::Handle::impl_Sync", module := "crate", trait := "Sync",
               target := "crate::Handle" },
       .enum { path := "crate::Mode", module := "crate", variants := ["Fast"] }] }

/-- The block under the path of its own target sends the search back to itself, and the other block sends it
there too; variants are found and other paths are unknown. -/
theorem handleBlocks_endless : ∃ m, (Model.build {} handleBlocks).outcome = .ok m ∧
    m.Names "crate::Mode::Fast" ∧ m.Ends "crate::Mode::Fast" ∧ ¬ m.Names "crate::Mode::Slow" ∧
    ∀ fuel, ∃ last, m.scopeWithin fuel "crate::Handle::impl_Sync" = .error (.endless last) := by
  have hcheck : ((Model.build {} handleBlocks).outcome.toOption.any fun m =>
      (m.impls.any fun i => i.path == "crate::Handle" && i.target == "crate::Handle") &&
      (m.impls.any fun i => i.path == "crate::Handle::impl_Sync" && i.target == "crate::Handle") &&
      (m.enums.any fun d => d.path == "crate::Mode" && d.variants.contains "Fast") &&
      decide (m.modules = [Model.rootModule]) &&
      decide (m.scopeOf "crate::Mode::Fast" = .ok (some "crate")) &&
      decide (m.scopeOf "crate::Mode::Slow" = .error (.unknown "crate::Mode::Slow"))) = true := by
    decide +kernel
  obtain ⟨m, hbuild, hmodel⟩ := Outcome.any_toOption_eq_true_iff.mp hcheck
  simp only [Bool.and_eq_true, List.any_eq_true, beq_iff_eq, decide_eq_true_eq, List.contains_iff_mem]
    at hmodel
  obtain ⟨⟨⟨⟨⟨⟨i, hi, hpath, htarget⟩, j, hj, hpath', htarget'⟩, d, hd, hmode, hfast⟩, hmodules⟩, hfound⟩,
    hunknown⟩ := hmodel
  obtain ⟨hvariants, hpaths⟩ := scope_found_unless_circular hbuild
  have hnames : m.Names "crate::Mode::Fast" := by
    have hchild := hvariants d hd "Fast" hfast (by decide)
    rwa [hmode] at hchild
  have hends : m.Ends "crate::Mode::Fast" := by
    obtain ⟨hends, hscope, -⟩ := hpaths "crate::Mode::Fast"
    exact hends.mpr (hscope.mp ⟨_, hfound⟩).2
  have hcircular : m.Circular "crate::Handle::impl_Sync" := by
    refine ⟨"crate::Handle", .single ?_, .single ?_⟩
    · refine ⟨?_, ⟨j, hj, hpath', htarget'⟩, .impl i, Model.mem_impls.mp hi, hpath⟩
      rw [Model.module?, hmodules]
      decide +kernel
    · refine ⟨?_, ⟨i, hi, hpath, htarget⟩, .impl i, Model.mem_impls.mp hi, hpath⟩
      rw [Model.module?, hmodules]
      decide +kernel
  obtain ⟨-, -, hslow, -⟩ := hpaths "crate::Mode::Slow"
  obtain ⟨-, -, -, hendless⟩ := hpaths "crate::Handle::impl_Sync"
  exact ⟨m, hbuild, hnames, hends, hslow.mp hunknown, hendless hcircular⟩

end CrateSafety
