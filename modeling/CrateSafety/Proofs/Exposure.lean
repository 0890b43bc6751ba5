import CrateSafety.Proofs.EnclosingScopes
import CrateSafety.Proofs.Interface

/-!
# Exposure and nameability

A boundary decides whether something can be named beyond it by one comparison: that of the root of a scope
with the module of the boundary. Nameability asks every observer. The two agree, since a root outside a module
is itself an observer outside it, and everything beneath a root inside a module lies in that module too.
-/

namespace CrateSafety

namespace Scope

variable {scope : Scope} {module : String}

/-- A path of the crate has no observer in common with the word for code outside the crate: beneath that word
there are observers that are modules, and none of them lies in the crate. -/
theorem exists_observer_beneath_outside (hm : Path.within module Path.crateRoot = true) :
    ∃ o, Path.within o "<external>" = true ∧ Observer.ofText o = .inModule o ∧
      Path.within o module = false := by
  refine ⟨"<external>::code", by decide +kernel, by decide +kernel, Bool.eq_false_iff.mpr fun h => ?_⟩
  have hcrate := Path.within_trans h hm
  revert hcrate
  decide +kernel

/-- Observers who are not in a module are admitted exactly if the root is not in it. -/
theorem all_not_within_iff (hm : Path.within module Path.crateRoot = true) :
    (scope.all fun root => !Path.within root module) = true ↔
      scope.admits .outside = true ∨
        ∃ o, scope.admits (Observer.ofText o) = true ∧ Path.within o module = false := by
  rcases scope with _ | root
  · simp [admits]
  rw [Option.all_some, Bool.not_eq_true']
  constructor
  · intro hroot
    right
    -- the root is an observer of its own, unless it is spelled as the word for code outside
    by_cases hword : root = "<external>"
    · obtain ⟨o, hbeneath, hobserver, hout⟩ := exists_observer_beneath_outside hm
      refine ⟨o, ?_, hout⟩
      rw [hobserver, hword]
      exact hbeneath
    · refine ⟨root, ?_, hroot⟩
      rw [Observer.ofText, if_neg (by simpa using hword)]
      exact Path.within_refl root
  · rintro (houtside | ⟨o, hadmits, hout⟩)
    · cases houtside
    · refine Bool.eq_false_iff.mpr fun hroot => ?_
      unfold Observer.ofText at hadmits
      split at hadmits
      case isTrue => cases hadmits
      case isFalse =>
        have hin := Path.within_trans hadmits hroot
        rw [hout] at hin
        cases hin

end Scope

namespace Boundary

variable {b : Boundary}

/-- What a scope lets out of a boundary around more than the items of a struct. -/
theorem escapes_iff (hm : Path.within b.module Path.crateRoot = true) (hc : b.criterion ≠ .struct)
    (scope : Scope) :
    b.escapes scope = true ↔ scope.admits .outside = true ∨ b.criterion = .module ∧
      ∃ o, scope.admits (Observer.ofText o) = true ∧ Path.within o b.module = false := by
  unfold escapes
  split
  case h_1 hstruct => exact absurd hstruct hc
  case h_2 hmodule => simpa [hmodule] using Scope.all_not_within_iff hm
  case h_3 hcrate => rcases scope with _ | root <;> simp [hcrate, Scope.admits]

/-- Fields are held to the module at least, whatever the criterion. -/
theorem forFields_spec (b : Boundary) :
    b.forFields.module = b.module ∧ b.forFields.criterion ≠ .struct ∧
      (b.forFields.criterion = .module ↔ b.criterion ≠ .crate) := by
  unfold forFields
  cases hc : b.criterion <;> simp [hc]

end Boundary

namespace Model

variable {m : Model}

theorem boundary?_of_mem (hc : m.Consistent) {t : Struct} (ht : t ∈ m.structs) (criterion : Criterion) :
    m.boundary? t.path criterion = some ⟨t.path, t.module, criterion⟩ := by
  have hentity : m.entity? t.path = some (.struct t) :=
    hc.entity?_eq_some_iff.mpr ⟨mem_structs.mp ht, rfl⟩
  rw [boundary?, hc.struct?_eq_bind, hentity]
  rfl

end Model

/-- Exposure agrees with nameability. An item is exposed outside the boundary of a struct exactly if code
outside the crate can name it or, for a boundary at the module of the struct, some observer outside that
module can. A field is exposed exactly if its scope admits code outside the crate or, unless the whole crate
is trusted, some observer outside the module. -/
theorem exposed_iff_nameable_beyond {config : Config} {s : Snapshot} {m : Model}
    (hbuild : (Model.build config s).outcome = .ok m) {t : Struct} (ht : t ∈ m.structs)
    (criterion : Criterion) :
    ∃ b, m.boundary? t.path criterion = some b ∧
      (criterion ≠ .struct → ∀ i ∈ m.items, ∃ exposed, m.exposedOutside i b = .ok exposed ∧
        (exposed = true ↔ m.canSee i.path .outside = .ok true ∨ criterion = .module ∧
          ∃ o, m.canSee i.path (Observer.ofText o) = .ok true ∧ Path.within o t.module = false)) ∧
      ∀ name ∈ t.fieldNames, ∃ scope exposed, m.fieldScope t name = .ok scope ∧
        m.fieldExposed t name b = .ok exposed ∧
        (exposed = true ↔ scope.admits .outside = true ∨ criterion ≠ .crate ∧
          ∃ o, scope.admits (Observer.ofText o) = true ∧ Path.within o t.module = false) := by
  have hc := Model.consistent_of_build hbuild
  have hm : Path.within t.module Path.crateRoot = true := by
    obtain ⟨x, hx, hpath⟩ := hc.module _ (Model.mem_structs.mp ht)
    have hwithin := hc.nested.within_root hx
    rwa [hpath] at hwithin
  refine ⟨_, Model.boundary?_of_mem hc ht criterion, fun hcriterion i hi => ?_, fun name hname => ?_⟩
  · obtain ⟨scope, hscope⟩ := Model.scopeOf_item_isOk hc hi
    refine ⟨_, by rw [Model.exposedOutside, hscope]; rfl, ?_⟩
    simp only [Model.canSee_eq hscope, Except.ok.injEq]
    exact Boundary.escapes_iff hm hcriterion scope
  · obtain ⟨scope, hscope⟩ := Model.fieldScope_isOk hc ht hname
    refine ⟨scope, _, hscope, by rw [Model.fieldExposed, hscope]; rfl, ?_⟩
    obtain ⟨hmodule, hstruct, hfields⟩ := Boundary.forFields_spec ⟨t.path, t.module, criterion⟩
    rw [Boundary.escapes_iff (by rw [hmodule]; exact hm) hstruct, hfields, hmodule]

/-- A struct with a field for its own module and one for the whole crate, and a method for the parent of its
module. -/
def guardedPool : Snapshot :=
  { modules := [{ path := "crate::mem" }, { path := "crate::mem::pool" }],
    items :=
      [.struct
        { path := "crate::mem::pool::Pool", module := "crate::mem::pool",
          visibility := { reach := .wholeCrate },
          fields := [{ name := "free" }, { name := "size", visibility := { reach := .wholeCrate } }] },
      .function
        { kind := .method, path := "crate::mem::pool::Pool::grow", module := "crate::mem::pool",
          visibility := { reach := .parentModule }, owner := some "crate::mem::pool::Pool" }] }

/-- Beyond its module the guarded pool exposes its method and one of its fields, and nothing beyond the
crate. -/
theorem guardedPool_exposed : ∃ m t i b, (Model.build {} guardedPool).outcome = .ok m ∧
    m.boundary? t.path .module = some b ∧
    m.canSee i.path (Observer.ofText "crate::mem") = .ok true ∧ m.exposedOutside i b = .ok true ∧
    (∃ scope, m.fieldScope t "free" = .ok scope ∧ m.fieldExposed t "free" b = .ok false ∧
      ∀ o, scope.admits (Observer.ofText o) = true → Path.within o t.module = true) := by
  have hcheck : ((Model.build {} guardedPool).outcome.toOption.any fun m =>
      (m.structs.any fun t => t.module == "crate::mem::pool" && t.fieldNames == ["free", "size"] &&
        decide (m.boundary? t.path .module = some ⟨t.path, t.module, .module⟩) &&
        decide (m.fieldExposed t "free" ⟨t.path, t.module, .module⟩ = .ok false)) &&
      (m.items.any fun i =>
        decide (m.canSee i.path (Observer.ofText "crate::mem") = .ok true))) = true := by
    decide +kernel
  obtain ⟨m, hbuild, hmodel⟩ := Outcome.any_toOption_eq_true_iff.mp hcheck
  simp only [Bool.and_eq_true, List.any_eq_true, beq_iff_eq, decide_eq_true_eq] at hmodel
  obtain ⟨⟨t, ht, ⟨⟨hmodule, hfields⟩, hboundary⟩, hfree⟩, i, hi, hseen⟩ := hmodel
  obtain ⟨b, hb, hitems, hnames⟩ := exposed_iff_nameable_beyond hbuild ht .module
  cases hb.symm.trans hboundary
  obtain ⟨exposed, hexposed, hiff⟩ := hitems (by decide) i hi
  obtain ⟨scope, shown, hscope, hshown, hfield⟩ := hnames "free" (by rw [hfields]; decide)
  have htrue : exposed = true := hiff.mpr (.inr ⟨rfl, "crate::mem", hseen, by rw [hmodule]; decide +kernel⟩)
  cases hfree.symm.trans hshown
  refine ⟨m, t, i, _, hbuild, hboundary, hseen, htrue ▸ hexposed, scope, hscope, hfree, fun o ho => ?_⟩
  by_contra hout
  have hshown := hfield.mpr (.inr ⟨by decide, o, ho, Bool.eq_false_iff.mpr hout⟩)
  cases hshown

end CrateSafety
