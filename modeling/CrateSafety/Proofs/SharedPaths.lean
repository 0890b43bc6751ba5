import CrateSafety.Proofs.DeclarationOrder
import CrateSafety.Proofs.ScopeTermination

/-!
# Modules that share the path of a function

Modules and functions have names of their own, but a scope is looked up by one path, and a module of that path
comes first. One more module leaves every search as it is that does not come across its path. The only item
whose search does is the function of that path: it takes on the scope of the module.
-/

namespace CrateSafety

namespace Model

/-- A model has the entities of another one and, but for some paths that are no modules there, its modules. -/
structure AgreesOff (m m' : Model) (altered : String → Prop) : Prop where
  /-- The entities are the same. -/
  entities : m'.entities = m.entities
  /-- The modules are the same at all other paths. -/
  module : ∀ path, ¬ altered path → m'.module? path = m.module? path
  /-- No module of the first model is altered. -/
  kept : ∀ x ∈ m.modules, ¬ altered x.path

namespace AgreesOff

variable {m m' : Model} {altered : String → Prop} {path : String}

/-- The modules around a module are kept with it. -/
theorem moduleScopeWithin_eq (h : m.AgreesOff m' altered) (hn : Nested m.modules) (hp : ¬ altered path)
    (fuel : Nat) : m'.moduleScopeWithin fuel path = m.moduleScopeWithin fuel path := by
  induction fuel generalizing path with
  | zero => rfl
  | succ fuel ih =>
    rw [moduleScopeWithin, moduleScopeWithin, h.module path hp]
    cases hmodule : m.module? path with
    | none => rfl
    | some x =>
      by_cases hroot : path = Path.crateRoot
      · simp [hroot]
      · obtain ⟨hx, rfl⟩ := module?_spec hmodule
        obtain ⟨-, parent, hparent, hpath⟩ := hn.parent x hx hroot
        have hkept := h.kept parent hparent
        rw [hpath] at hkept
        simp only [ih hkept]

theorem moduleScope_eq (h : m.AgreesOff m' altered) (hn : Nested m.modules) (hp : ¬ altered path) :
    m'.moduleScope path = m.moduleScope path :=
  h.moduleScopeWithin_eq hn hp _

theorem markedScope_eq (h : m.AgreesOff m' altered) (hn : Nested m.modules) (hp : ¬ altered path)
    (v : Visibility) : m'.markedScope v path = m.markedScope v path := by
  rw [markedScope, markedScope, h.moduleScope_eq hn hp]

theorem entity?_eq (h : m.AgreesOff m' altered) : m'.entity? = m.entity? := by
  funext path
  rw [entity?, entity?, h.entities]

theorem variantOwner?_eq (h : m.AgreesOff m' altered) : m'.variantOwner? = m.variantOwner? := by
  funext path
  simp only [variantOwner?, enum?, enums, h.entities]

theorem consulted?_eq (h : m.AgreesOff m' altered) (hp : ¬ altered path) :
    m'.consulted? path = m.consulted? path := by
  rw [consulted?, consulted?, h.module path hp, h.entity?_eq, h.variantOwner?_eq]

theorem ownScope_eq (h : m.AgreesOff m' altered) (hc : m.Consistent) (hp : ¬ altered path) :
    m'.ownScope path = m.ownScope path := by
  have hkept : ∀ e ∈ m.entities, ¬ altered e.module := by
    intro e he
    obtain ⟨x, hx, hpath⟩ := hc.module e he
    rw [← hpath]
    exact h.kept x hx
  rw [ownScope, ownScope, h.module path hp, h.entity?_eq, h.variantOwner?_eq,
    h.moduleScope_eq hc.nested hp]
  cases hentity : m.entity? path with
  | none => rfl
  | some e =>
    have he := hkept e (hc.entity?_eq_some_iff.mp hentity).1
    cases e with
    | impl i =>
      have hmodule : m'.moduleScope i.module = m.moduleScope i.module := h.moduleScope_eq hc.nested he
      simp only [hmodule]
    | _ => simp only [h.markedScope_eq hc.nested he]

/-- A search that comes across no altered path finds the same. -/
theorem scopeWithin_eq (h : m.AgreesOff m' altered) (hc : m.Consistent)
    (hp : ∀ other, Relation.ReflTransGen m.Consults path other → ¬ altered other) (fuel : Nat) :
    m'.scopeWithin fuel path = m.scopeWithin fuel path := by
  induction fuel generalizing path with
  | zero => rfl
  | succ fuel ih =>
    have hpath := hp path .refl
    rw [scopeWithin_succ, scopeWithin_succ, h.ownScope_eq hc hpath, h.consulted?_eq hpath]
    cases hother : m.consulted? path with
    | none => rfl
    | some other => simp only [ih fun last hlast => hp last (.head hother hlast)]

theorem scopeOf_eq (h : m.AgreesOff m' altered) (hc : m.Consistent)
    (hp : ∀ other, Relation.ReflTransGen m.Consults path other → ¬ altered other) :
    m'.scopeOf path = m.scopeOf path := by
  rw [scopeOf, scopeOf, h.entities]
  exact h.scopeWithin_eq hc hp _

end AgreesOff

section Items

variable {m : Model}

/-- A search from an item comes across the item itself and entities that lend their scope. -/
theorem lends_of_reaches (hc : m.Consistent) {i : Item} (hi : i ∈ m.items) {other : String}
    (h : Relation.ReflTransGen m.Consults i.path other) :
    other = i.path ∨ ∃ e ∈ m.entities, e.path = other ∧ e.Lends := by
  induction h with
  | refl => exact .inl rfl
  | tail _ hstep ih =>
    right
    rcases ih with rfl | ⟨e, he, rfl, hlends⟩
    · obtain ⟨e, he, hpath, hlends, -⟩ := lends_of_consults_item hc hi hstep
      exact ⟨e, he, hpath, hlends⟩
    · cases e with
      | item i =>
        obtain ⟨e, he, hpath, hlends, -⟩ := lends_of_consults_item hc (mem_items.mpr he) hstep
        exact ⟨e, he, hpath, hlends⟩
      | impl i => cases hlends.1
      | _ => exact absurd hstep (not_consults_of_type hc he rfl rfl)

/-- No search from another item comes across a function. -/
theorem not_reaches_function (hc : m.Consistent) {i f : Item} (hi : i ∈ m.items) (hf : f ∈ m.items)
    (hkind : f.kind ≠ .traitMethod) (hne : i.path ≠ f.path) :
    ¬ Relation.ReflTransGen m.Consults i.path f.path := by
  intro h
  rcases lends_of_reaches hc hi h with hpath | ⟨e, he, hpath, hlends⟩
  · exact hne hpath.symm
  · have hsame : e = .item f := hc.eq_of_path he (mem_items.mp hf) hpath
    rw [hsame] at hlends
    exact hkind (hlends.2 f rfl)

end Items

section Added

variable {config : Config} {s : Snapshot} {modules' : List Module} {x : Module} {m m' : Model}

/-- The scope of a module does not depend on the bound of the search, as long as it is above the length of the
path. -/
theorem moduleScopeWithin_eq_moduleScope (hn : Nested m.modules) (fuel : Nat) {path : String}
    (hp : ∃ y ∈ m.modules, y.path = path) (hf : path.length < fuel) :
    m.moduleScopeWithin fuel path = m.moduleScope path := by
  have hbounds : ∀ fuel fuel' path, (∃ y ∈ m.modules, y.path = path) → path.length < fuel →
      path.length < fuel' → m.moduleScopeWithin fuel path = m.moduleScopeWithin fuel' path := by
    intro fuel
    induction fuel with
    | zero => intro fuel' path _ hf; omega
    | succ fuel ih =>
      rintro fuel' _ ⟨y, hy, rfl⟩ hf hf'
      obtain ⟨fuel', rfl⟩ : ∃ k, fuel' = k + 1 := ⟨fuel' - 1, by omega⟩
      rw [moduleScopeWithin, moduleScopeWithin]
      by_cases hroot : y.path = Path.crateRoot
      · simp [hroot]
      · obtain ⟨hwithin, hparent⟩ := hn.parent y hy hroot
        have hshort := Path.length_of_parentOrRoot hwithin hroot
        simp only [ih fuel' _ hparent (by omega) (by omega)]
  exact hbounds fuel _ path hp hf (Nat.lt_succ_self _)

/-- The entities of a declaration do not depend on the modules, as long as its own module is known. -/
theorem entities_eq_of_known {modules : List Module} {declarations : List Declaration} {d : Declaration}
    {es es' : List Entity} (h : (buildEntities config modules declarations d).outcome = .ok es)
    (h' : (buildEntities config modules' declarations d).outcome = .ok es') : es' = es := by
  have hknown : ∀ {known : List Module}, (∃ y ∈ known, y.path = d.module) →
      (known.any fun y => y.path == d.module) = true := by
    rintro known ⟨y, hy, hpath⟩
    exact List.any_eq_true.mpr ⟨y, hy, beq_iff_eq.mpr hpath⟩
  have hsame : buildEntities config modules declarations d = buildEntities config modules' declarations d := by
    unfold buildEntities
    rw [hknown (buildEntities_cases h).1, hknown (buildEntities_cases h').1]
  rw [hsame] at h
  exact Except.ok.inj (h'.symm.trans h)

/-- One more module leaves the entities of a model as they are. -/
theorem entities_of_added (hbuild : (build config s).outcome = .ok m)
    (hbuild' : (build config { s with modules := modules' }).outcome = .ok m') : m'.entities = m.entities := by
  obtain ⟨modules, hb, rfl⟩ := buildable_of_build hbuild
  obtain ⟨known, hb', rfl⟩ := buildable_of_build hbuild'
  simp only [assemble]
  refine List.flatMap_congr fun d hd => ?_
  exact entities_eq_of_known (hb.entities d hd) (hb'.entities d hd)

/-- One more module is the only module in which two models differ, unless it is the root, which every model
has. -/
theorem agreesOff_of_added (hbuild : (build config s).outcome = .ok m)
    (hbuild' : (build config { s with modules := modules' }).outcome = .ok m')
    (hadded : modules'.Perm (x :: s.modules)) :
    x.path = Path.crateRoot ∧ m.AgreesOff m' (fun _ => False) ∨
      x.path ≠ Path.crateRoot ∧ m'.module? x.path = some x ∧ m.AgreesOff m' (· = x.path) := by
  have hentities := entities_of_added hbuild hbuild'
  obtain ⟨-, hperm⟩ := modules_of_build hbuild
  obtain ⟨hregistrable, hperm'⟩ := modules_of_build hbuild'
  have hdistinct : (m'.modules.map Module.path).Nodup :=
    (hperm'.map Module.path).nodup_iff.mpr hregistrable.distinct
  have hbeneath : (beneathRoot modules').Perm (beneathRoot (x :: s.modules)) := hadded.filter _
  by_cases hroot : x.path = Path.crateRoot
  · have hskip : beneathRoot (x :: s.modules) = beneathRoot s.modules := by simp [beneathRoot, hroot]
    rw [hskip] at hbeneath
    have hsame : m'.modules.Perm m.modules := hperm'.trans ((hbeneath.cons rootModule).trans hperm.symm)
    refine .inl ⟨hroot, hentities, fun path _ => ?_, fun _ _ => id⟩
    exact find?_key_eq_of_perm hsame hdistinct path
  · have hkeep : beneathRoot (x :: s.modules) = x :: beneathRoot s.modules := by simp [beneathRoot, hroot]
    rw [hkeep] at hbeneath
    have hmore : m'.modules.Perm (x :: m.modules) :=
      hperm'.trans ((hbeneath.cons rootModule).trans ((List.Perm.swap _ _ _).trans (hperm.symm.cons x)))
    have hfind : ∀ path, m'.module? path = (x :: m.modules).find? fun y => y.path == path :=
      find?_key_eq_of_perm hmore hdistinct
    have hnew := (List.nodup_cons.mp ((hmore.map Module.path).nodup_iff.mp hdistinct)).1
    refine .inr ⟨hroot, ?_, hentities, fun path hpath => ?_, fun y hy hpath => hnew ?_⟩
    · rw [hfind, List.find?_cons_of_pos (by simp)]
    · rw [hfind, List.find?_cons_of_neg (by simpa using Ne.symm hpath)]
      rfl
    · exact List.mem_map.mpr ⟨y, hy, hpath⟩

/-- The scope of the added module is that of a declaration with its marker in the module around it. -/
theorem moduleScope_of_added (hn : Nested m.modules) (hn' : Nested m'.modules)
    (hroot : x.path ≠ Path.crateRoot) (hx : m'.module? x.path = some x) (h : m.AgreesOff m' (· = x.path)) :
    m'.moduleScope x.path = m.markedScope x.visibility (Path.parentOrRoot x.path) := by
  obtain ⟨hwithin, hparent⟩ := hn'.parent x (module?_spec hx).1 hroot
  have hshort := Path.length_of_parentOrRoot hwithin hroot
  have hne : ¬ Path.parentOrRoot x.path = x.path := by
    intro hsame
    rw [hsame] at hshort
    exact Nat.lt_irrefl _ hshort
  have houter : m'.moduleScopeWithin x.path.length (Path.parentOrRoot x.path) =
      m.moduleScope (Path.parentOrRoot x.path) := by
    rw [moduleScopeWithin_eq_moduleScope hn' _ hparent hshort, h.moduleScope_eq hn hne]
  rw [moduleScope, moduleScopeWithin, if_neg (by simpa using hroot), hx]
  simp only [houter]
  rfl

/-- One more declaration of the root changes nothing. -/
theorem scopeOf_of_added_root (hbuild : (build config s).outcome = .ok m)
    (hbuild' : (build config { s with modules := modules' }).outcome = .ok m')
    (hadded : modules'.Perm (x :: s.modules)) (hroot : x.path = Path.crateRoot) (path : String) :
    m'.scopeOf path = m.scopeOf path := by
  rcases agreesOff_of_added hbuild hbuild' hadded with ⟨-, hagrees⟩ | ⟨hne, -⟩
  · exact hagrees.scopeOf_eq (consistent_of_build hbuild) fun _ _ => id
  · exact absurd hroot hne

/-- A search that does not come across the added module ends as before. -/
theorem scopeOf_of_added (hbuild : (build config s).outcome = .ok m)
    (hbuild' : (build config { s with modules := modules' }).outcome = .ok m')
    (hadded : modules'.Perm (x :: s.modules)) {path : String}
    (hreach : ¬ Relation.ReflTransGen m.Consults path x.path) : m'.scopeOf path = m.scopeOf path := by
  by_cases hroot : x.path = Path.crateRoot
  · exact scopeOf_of_added_root hbuild hbuild' hadded hroot path
  · rcases agreesOff_of_added hbuild hbuild' hadded with ⟨hsame, -⟩ | ⟨-, -, hagrees⟩
    · exact absurd hsame hroot
    · exact hagrees.scopeOf_eq (consistent_of_build hbuild) fun other hother hsame => hreach (hsame ▸ hother)

/-- At the path of the added module the search finds the module. -/
theorem scopeOf_added (hbuild : (build config s).outcome = .ok m)
    (hbuild' : (build config { s with modules := modules' }).outcome = .ok m')
    (hadded : modules'.Perm (x :: s.modules)) (hroot : x.path ≠ Path.crateRoot) :
    m'.scopeOf x.path = m.markedScope x.visibility (Path.parentOrRoot x.path) := by
  rcases agreesOff_of_added hbuild hbuild' hadded with ⟨hsame, -⟩ | ⟨-, hx, hagrees⟩
  · exact absurd hsame hroot
  · have hnested := (consistent_of_build hbuild).nested
    have hnested' := (consistent_of_build hbuild').nested
    rw [← moduleScope_of_added hnested hnested' hroot hx hagrees, scopeOf, scopeWithin, hx]
    rfl

/-- A declared function is an item of the model. -/
theorem exists_item_of_function (hbuild : (build config s).outcome = .ok m) {f : FunctionDeclaration}
    (hf : .function f ∈ s.items) : ∃ i ∈ m.items, i.path = f.path ∧ i.kind ≠ .traitMethod := by
  obtain ⟨modules, hb, rfl⟩ := buildable_of_build hbuild
  obtain ⟨-, i, hi, hes⟩ := buildEntities_cases (hb.entities _ hf)
  obtain ⟨hpath, -, hkind, -⟩ := buildFunction_spec hi
  refine ⟨i, ?_, hpath, hkind⟩
  rw [mem_items, assemble, List.mem_flatMap]
  refine ⟨_, hf, ?_⟩
  rw [hes]
  exact List.mem_singleton_self _

end Added

end Model

/-- One more module with the path of a function leaves every scope as it is whose search does not come across
that path, so those of all other items and what these expose. The function takes on the scope of the module. So
scopes and exposures of all items are kept exactly if the function has the scope of a declaration with the
marker of the module in the module around it. -/
theorem scopes_kept_iff_module_like_function {config : Config} {s : Snapshot} {modules' : List Module}
    {x : Module} {f : FunctionDeclaration} {m m' : Model} (hbuild : (Model.build config s).outcome = .ok m)
    (hbuild' : (Model.build config { s with modules := modules' }).outcome = .ok m')
    (hadded : modules'.Perm (x :: s.modules)) (hf : .function f ∈ s.items) (hpath : x.path = f.path) :
    m'.items = m.items ∧
    (∀ path, ¬ Relation.ReflTransGen m.Consults path f.path → m'.scopeOf path = m.scopeOf path) ∧
    (∀ i ∈ m.items, i.path ≠ f.path →
      m'.scopeOf i.path = m.scopeOf i.path ∧ ∀ b, m'.exposedOutside i b = m.exposedOutside i b) ∧
    (f.path ≠ Path.crateRoot →
      m'.scopeOf f.path = m.markedScope x.visibility (Path.parentOrRoot f.path)) ∧
    ((∀ i ∈ m.items,
        m'.scopeOf i.path = m.scopeOf i.path ∧ ∀ b, m'.exposedOutside i b = m.exposedOutside i b) ↔
      f.path = Path.crateRoot ∨
        m.markedScope x.visibility (Path.parentOrRoot f.path) = m.scopeOf f.path) := by
  obtain ⟨fn, hfn, hfnPath, hkind⟩ := Model.exists_item_of_function hbuild hf
  have hitems : m'.items = m.items := by
    rw [Model.items, Model.items, Model.entities_of_added hbuild hbuild']
  have hexposed : ∀ i : Item, m'.scopeOf i.path = m.scopeOf i.path →
      m'.scopeOf i.path = m.scopeOf i.path ∧ ∀ b, m'.exposedOutside i b = m.exposedOutside i b := by
    intro i hi
    refine ⟨hi, fun b => ?_⟩
    rw [Model.exposedOutside, Model.exposedOutside, hi]
  have hframe : ∀ path, ¬ Relation.ReflTransGen m.Consults path f.path → m'.scopeOf path = m.scopeOf path :=
    fun path hreach => Model.scopeOf_of_added hbuild hbuild' hadded (hpath ▸ hreach)
  have hothers : ∀ i ∈ m.items, i.path ≠ f.path → m'.scopeOf i.path = m.scopeOf i.path := by
    intro i hi hne
    refine hframe i.path ?_
    rw [← hfnPath] at hne ⊢
    exact Model.not_reaches_function (Model.consistent_of_build hbuild) hi hfn hkind hne
  have hmodule : f.path ≠ Path.crateRoot →
      m'.scopeOf f.path = m.markedScope x.visibility (Path.parentOrRoot f.path) := by
    rw [← hpath]
    exact Model.scopeOf_added hbuild hbuild' hadded
  refine ⟨hitems, hframe, fun i hi hne => hexposed i (hothers i hi hne), hmodule, ?_, ?_⟩
  · intro hkept
    refine or_iff_not_imp_left.mpr fun hroot => ?_
    rw [← hmodule hroot, ← hfnPath]
    exact (hkept fn hfn).1
  · intro hcase i hi
    by_cases hroot : f.path = Path.crateRoot
    · exact hexposed i (Model.scopeOf_of_added_root hbuild hbuild' hadded (hpath.trans hroot) i.path)
    · by_cases hne : i.path = f.path
      · refine hexposed i ?_
        rw [hne]
        exact (hmodule hroot).trans (hcase.resolve_left hroot)
      · exact hexposed i (hothers i hi hne)

/-- A crate with two functions that are open to all. -/
def poolFunctions : Snapshot :=
  { items :=
      [.function { path := "crate::pool", module := "crate", visibility := { reach := .everywhere } },
       .function { path := "crate::reset", module := "crate", visibility := { reach := .everywhere } }] }

/-- A private module of the same path shuts the function `crate::pool` in, and leaves the other one alone. -/
theorem poolFunctions_shut_in : ∃ m m', (Model.build {} poolFunctions).outcome = .ok m ∧
    (Model.build {} { poolFunctions with modules := [{ path := "crate::pool" }] }).outcome = .ok m' ∧
    m.scopeOf "crate::pool" = .ok none ∧ m'.scopeOf "crate::pool" = .ok (some "crate") ∧
    (¬ ∀ i ∈ m.items,
      m'.scopeOf i.path = m.scopeOf i.path ∧ ∀ b, m'.exposedOutside i b = m.exposedOutside i b) ∧
    m'.scopeOf "crate::reset" = m.scopeOf "crate::reset" := by
  have hcheck : ((Model.build {} poolFunctions).outcome.toOption.any fun m =>
      decide (m.scopeOf "crate::pool" = .ok none) &&
      decide (m.markedScope {} (Path.parentOrRoot "crate::pool") = .ok (some "crate")) &&
      m.items.any fun i => i.path == "crate::reset") = true := by
    decide +kernel
  have hcheck' : ((Model.build {} { poolFunctions with
      modules := [{ path := "crate::pool" }] }).outcome.toOption.any fun _ => true) = true := by
    decide +kernel
  obtain ⟨m, hbuild, hmodel⟩ := Outcome.any_toOption_eq_true_iff.mp hcheck
  obtain ⟨m', hbuild', -⟩ := Outcome.any_toOption_eq_true_iff.mp hcheck'
  simp only [Bool.and_eq_true, decide_eq_true_eq, List.any_eq_true, beq_iff_eq] at hmodel
  obtain ⟨⟨hopen, hmarked⟩, i, hi, hreset⟩ := hmodel
  obtain ⟨-, -, hothers, hshut, hiff⟩ :=
    scopes_kept_iff_module_like_function hbuild hbuild' (.refl _) List.mem_cons_self rfl
  have hnarrowed := (hshut (by decide)).trans hmarked
  have hkept := (hothers i hi (by rw [hreset]; decide)).1
  rw [hreset] at hkept
  refine ⟨m, m', hbuild, hbuild', hopen, hnarrowed, fun hall => ?_, hkept⟩
  rcases hiff.mp hall with hroot | hsame
  · exact absurd hroot (by decide)
  · cases hmarked.symm.trans (hsame.trans hopen)

end CrateSafety
