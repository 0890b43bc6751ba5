import CrateSafety.Proofs.ReportEntries

/-!
# Registration of modules

Modules are registered by depth, and the parent of a module lies one level above it, so each parent is known
before its children in whatever order the modules are declared. Registration succeeds exactly if the modules
beneath the root are distinct, lie in the crate, have their parents among the modules and name ancestors only.
-/

namespace CrateSafety

namespace Path

variable {c : Char} {rest before after : List Char}

theorem cutLast_cons_of_some (h : cutLast rest = some (before, after)) :
    cutLast (c :: rest) = some (c :: before, after) := by
  unfold cutLast
  rw [h]

theorem eq_nil_of_cutLast_cons (h : cutLast rest = none)
    (hc : cutLast (c :: rest) = some (before, after)) : before = [] := by
  unfold cutLast at hc
  rw [h] at hc
  split at hc
  case h_1 heq => cases heq
  case h_2 =>
    split at hc
    · cases hc
      rfl
    · cases hc

theorem cutLast_cons_of_none (h : cutLast rest = none)
    (hpair : ∀ after, c = ':' → rest = ':' :: after → False) : cutLast (c :: rest) = none := by
  cases hcut : cutLast (c :: rest) with
  | none => rfl
  | some parts =>
    have hnil : parts.1 = [] := eq_nil_of_cutLast_cons h hcut
    have hsplit : c :: rest = parts.1 ++ ':' :: ':' :: parts.2 := eq_of_cutLast hcut
    rw [hnil, List.nil_append, List.cons.injEq] at hsplit
    exact (hpair parts.2 hsplit.1 hsplit.2).elim

theorem cutLast_pair (h : cutLast (':' :: rest) = none) :
    cutLast (':' :: ':' :: rest) = some ([], rest) := by
  unfold cutLast
  rw [h]
  rfl

/-- A character that starts no separator does not count. -/
theorem separators_cons (hpair : ∀ after, c = ':' → rest = ':' :: after → False) :
    separators (c :: rest) = separators rest := by
  rw [separators]
  exact hpair

/-- Without a last separator there is none, and cutting a text there takes one separator away. -/
theorem separators_of_cutLast (cs : List Char) :
    (cutLast cs = none → separators cs = 0) ∧
      ∀ before after, cutLast cs = some (before, after) → separators cs = separators before + 1 := by
  induction cs using separators.induct with
  | case1 rest ih =>
    rw [separators]
    cases hrest : cutLast rest with
    | some parts =>
      have hcut : cutLast (':' :: ':' :: rest) = some (':' :: ':' :: parts.1, parts.2) :=
        cutLast_cons_of_some (cutLast_cons_of_some hrest)
      rw [hcut]
      refine ⟨nofun, fun before after h => ?_⟩
      cases h
      rw [separators, ih.2 parts.1 parts.2 hrest]
    | none =>
      rw [ih.1 hrest]
      cases hnext : cutLast (':' :: rest) with
      | some parts =>
        -- three colons in a row: the last two are cut away
        have hnil : parts.1 = [] := eq_nil_of_cutLast_cons hrest hnext
        have hcut : cutLast (':' :: ':' :: rest) = some (':' :: parts.1, parts.2) :=
          cutLast_cons_of_some hnext
        rw [hcut, hnil]
        refine ⟨nofun, fun before after h => ?_⟩
        cases h
        rfl
      | none =>
        rw [cutLast_pair hnext]
        refine ⟨nofun, fun before after h => ?_⟩
        cases h
        rfl
  | case2 c rest hpair ih =>
    rw [separators_cons hpair]
    cases hrest : cutLast rest with
    | none =>
      rw [cutLast_cons_of_none hrest hpair]
      exact ⟨fun _ => ih.1 hrest, nofun⟩
    | some parts =>
      have hcut : cutLast (c :: rest) = some (c :: parts.1, parts.2) := cutLast_cons_of_some hrest
      rw [hcut]
      refine ⟨nofun, fun before after h => ?_⟩
      cases h
      -- the part before the cut starts as the text does
      have hsplit : rest = parts.1 ++ ':' :: ':' :: parts.2 := eq_of_cutLast hrest
      have hfirst : ∀ after, c = ':' → parts.1 = ':' :: after → False := by
        intro after hc hparts
        rw [hparts, List.cons_append] at hsplit
        exact hpair _ hc hsplit
      rw [separators_cons hfirst]
      exact ih.2 parts.1 parts.2 hrest
  | case3 => exact ⟨fun _ => rfl, nofun⟩

/-- A text with a separator in it can be cut. -/
theorem cutLast_append_ne_none (cs rest : List Char) : cutLast (cs ++ ':' :: ':' :: rest) ≠ none := by
  induction cs with
  | nil =>
    intro h
    cases hnext : cutLast (':' :: rest) with
    | some parts =>
      rw [List.nil_append, cutLast_cons_of_some hnext] at h
      cases h
    | none =>
      rw [List.nil_append, cutLast_pair hnext] at h
      cases h
  | cons c cs ih =>
    intro h
    cases hrest : cutLast (cs ++ ':' :: ':' :: rest) with
    | none => exact ih hrest
    | some parts =>
      rw [List.cons_append, cutLast_cons_of_some hrest] at h
      cases h

/-- The parent of a module lies above it. -/
theorem depth_of_parentOrRoot {path : String} (h : within path crateRoot = true)
    (hne : path ≠ crateRoot) : depth (parentOrRoot path) < depth path := by
  have hroot : depth crateRoot = 0 := by decide +kernel
  have hbeq : (path == crateRoot) = false := by simpa using hne
  rw [within, hbeq, Bool.false_or, List.isPrefixOf_iff_prefix] at h
  have hcut : cutLast path.toList ≠ none := by
    obtain ⟨rest, hrest⟩ := h
    rw [← hrest, List.append_assoc]
    exact cutLast_append_ne_none _ rest
  unfold parentOrRoot parent?
  cases hparts : cutLast path.toList with
  | none => exact absurd hparts hcut
  | some parts =>
    have hcount : depth path = separators parts.1 + 1 :=
      (separators_of_cutLast path.toList).2 parts.1 parts.2 hparts
    simp only [Option.map_some]
    split
    · omega
    · rw [depth, String.toList_ofList]
      omega

end Path

namespace Model

variable {known declared modules : List Module}

/-- The modules other than the root. -/
def beneathRoot (declared : List Module) : List Module :=
  declared.filter fun x => x.path != Path.crateRoot

/-- The root is known, so that declaring it changes nothing. -/
theorem registerAll_beneathRoot :
    registerAll known (beneathRoot declared) = registerAll known declared := by
  induction declared generalizing known with
  | nil => rfl
  | cons x rest ih =>
    by_cases hx : x.path = Path.crateRoot
    · have hskip : beneathRoot (x :: rest) = beneathRoot rest := by simp [beneathRoot, hx]
      rw [hskip, ih, registerAll, if_pos (by simpa using hx)]
    · have hkeep : beneathRoot (x :: rest) = x :: beneathRoot rest := by simp [beneathRoot, hx]
      rw [hkeep, registerAll, registerAll]
      simp only [ih]

/-- What modules beneath the root need in order to be registered after known ones, whatever their order. -/
structure Registrable (known declared : List Module) : Prop where
  /-- None is the root. -/
  beneath : ∀ x ∈ declared, x.path ≠ Path.crateRoot
  /-- They lie in the crate. -/
  within : ∀ x ∈ declared, Path.within x.path Path.crateRoot = true
  /-- Their markers name ancestors. -/
  target : ∀ x ∈ declared, x.visibility.targetsAncestor (Path.parentOrRoot x.path) = true
  /-- Their parents are modules. -/
  parent : ∀ x ∈ declared, ∃ y ∈ known ++ declared, y.path = Path.parentOrRoot x.path
  /-- No two modules share a path. -/
  distinct : ((known ++ declared).map Module.path).Nodup

theorem Registrable.perm {declared' : List Module} (h : Registrable known declared)
    (hp : declared.Perm declared') : Registrable known declared' := by
  have hmem : ∀ x, x ∈ declared' → x ∈ declared := fun x hx => hp.mem_iff.mpr hx
  have hall : (known ++ declared).Perm (known ++ declared') := hp.append_left known
  constructor
  case beneath => exact fun x hx => h.beneath x (hmem x hx)
  case within => exact fun x hx => h.within x (hmem x hx)
  case target => exact fun x hx => h.target x (hmem x hx)
  case parent =>
    intro x hx
    obtain ⟨y, hy, hpath⟩ := h.parent x (hmem x hx)
    exact ⟨y, hall.mem_iff.mp hy, hpath⟩
  case distinct => exact (hall.map Module.path).nodup_iff.mp h.distinct

namespace Registrable

variable {x : Module} {rest : List Module}

/-- Once the first module is known, the others can still be registered. -/
theorem tail (h : Registrable known (x :: rest)) : Registrable (known ++ [x]) rest := by
  have hjoin : known ++ [x] ++ rest = known ++ x :: rest := by simp
  constructor
  case beneath => exact fun y hy => h.beneath y (List.mem_cons_of_mem x hy)
  case within => exact fun y hy => h.within y (List.mem_cons_of_mem x hy)
  case target => exact fun y hy => h.target y (List.mem_cons_of_mem x hy)
  case parent =>
    rw [hjoin]
    exact fun y hy => h.parent y (List.mem_cons_of_mem x hy)
  case distinct =>
    rw [hjoin]
    exact h.distinct

/-- The first module is new. -/
theorem not_known (h : Registrable known (x :: rest)) :
    (known.any fun y => y.path == x.path) = false := by
  have hnodup := h.distinct
  rw [List.map_append, List.nodup_append'] at hnodup
  rw [List.any_eq_false]
  intro y hy hpath
  exact hnodup.2.2 (List.mem_map_of_mem hy) (by simp [beq_iff_eq.mp hpath])

/-- If no later module lies above the first one, its parent is known: further on it would lie too deep. -/
theorem parent_known (h : Registrable known (x :: rest))
    (hs : ∀ y ∈ rest, Path.depth x.path ≤ Path.depth y.path) :
    (known.any fun y => y.path == Path.parentOrRoot x.path) = true := by
  obtain ⟨y, hy, hpath⟩ := h.parent x List.mem_cons_self
  have habove : Path.depth y.path < Path.depth x.path := by
    rw [hpath]
    exact Path.depth_of_parentOrRoot (h.within x List.mem_cons_self) (h.beneath x List.mem_cons_self)
  rw [List.any_eq_true]
  refine ⟨y, ?_, beq_iff_eq.mpr hpath⟩
  rcases List.mem_append.mp hy with hy | hy
  · exact hy
  · have hbelow : Path.depth x.path ≤ Path.depth y.path := by
      rcases List.mem_cons.mp hy with rfl | hy
      · exact le_rfl
      · exact hs y hy
    omega

end Registrable

/-- A module beneath the root is registered after four checks. -/
theorem registerAll_cons {x : Module} {rest : List Module} (hx : x.path ≠ Path.crateRoot) :
    registerAll known (x :: rest) =
      (do
        Build.require (Path.within x.path Path.crateRoot) (.moduleOutside x.path)
        Build.require (!known.any fun y => y.path == x.path) (.duplicateModule x.path)
        Build.require (known.any fun y => y.path == Path.parentOrRoot x.path)
          (.orphanModule x.path (Path.parentOrRoot x.path))
        x.visibility.require (Path.parentOrRoot x.path) x.path
        registerAll (known ++ [x]) rest) := by
  rw [registerAll, if_neg (by simpa using hx)]

/-- Registered modules could be registered, and come after the known ones. -/
theorem registrable_of_registerAll (hn : (known.map Module.path).Nodup)
    (hb : ∀ x ∈ declared, x.path ≠ Path.crateRoot)
    (h : (registerAll known declared).outcome = .ok modules) : Registrable known declared := by
  induction declared generalizing known with
  | nil =>
    constructor
    case distinct => rwa [List.append_nil]
    all_goals simp
  | cons x rest ih =>
    have hx := hb x List.mem_cons_self
    rw [registerAll_cons hx] at h
    simp only [Traced.outcome_bind, Outcome.bind_eq_ok_iff, Build.outcome_require_eq_ok_iff,
      Visibility.require, exists_const, Bool.not_eq_true', List.any_eq_true, List.any_eq_false,
      beq_iff_eq] at h
    obtain ⟨hwithin, hnew, hparent, htarget, hrest⟩ := h
    have hnodup : ((known ++ [x]).map Module.path).Nodup := by
      rw [List.map_append, List.map_singleton, List.nodup_append']
      refine ⟨hn, List.nodup_singleton _, ?_⟩
      rw [List.disjoint_singleton]
      intro hmem
      obtain ⟨y, hy, hpath⟩ := List.mem_map.mp hmem
      exact hnew y hy hpath
    have hlater := ih hnodup (fun y hy => hb y (List.mem_cons_of_mem x hy)) hrest
    have hjoin : known ++ [x] ++ rest = known ++ x :: rest := by simp
    constructor
    case beneath => exact hb
    case within => exact List.forall_mem_cons.mpr ⟨hwithin, hlater.within⟩
    case target => exact List.forall_mem_cons.mpr ⟨htarget, hlater.target⟩
    case parent =>
      refine List.forall_mem_cons.mpr ⟨?_, fun y hy => ?_⟩
      · obtain ⟨y, hy, hpath⟩ := hparent
        exact ⟨y, List.mem_append_left _ hy, hpath⟩
      · rw [← hjoin]
        exact hlater.parent y hy
    case distinct =>
      rw [← hjoin]
      exact hlater.distinct

/-- Modules that can be registered are, in the order of their depth. -/
theorem registerAll_of_registrable (h : Registrable known declared)
    (hs : declared.Pairwise fun a b => Path.depth a.path ≤ Path.depth b.path) :
    registerAll known declared = .done (known ++ declared) := by
  induction declared generalizing known with
  | nil => rw [registerAll, List.append_nil]
  | cons x rest ih =>
    have hsorted := List.pairwise_cons.mp hs
    have hrest : registerAll (known ++ [x]) rest = .done (known ++ x :: rest) := by
      rw [ih h.tail hsorted.2, List.append_assoc, List.singleton_append]
    rw [registerAll_cons (h.beneath x List.mem_cons_self), h.within x List.mem_cons_self, h.not_known,
      h.parent_known hsorted.1, Visibility.require, h.target x List.mem_cons_self, hrest]
    rfl

/-- Modules that can be registered are, in whatever order they are declared, and without notes. -/
theorem registerModules_of_registrable (h : Registrable [rootModule] (beneathRoot declared)) :
    ∃ modules, registerModules declared = .done modules ∧
      modules.Perm (rootModule :: beneathRoot declared) := by
  have hperm : (beneathRoot (Sorting.sort
      (fun a b => decide (Path.depth a.path ≤ Path.depth b.path)) declared)).Perm
        (beneathRoot declared) := (Sorting.sort_perm _ declared).filter _
  have hsorted := Sorting.pairwise_sort_key (fun x : Module => Path.depth x.path) declared
  have hdone := registerAll_of_registrable (h.perm hperm.symm) (hsorted.filter _)
  refine ⟨_, ?_, hperm.cons rootModule⟩
  rw [registerModules, ← registerAll_beneathRoot]
  exact hdone

/-- Registered modules could be registered. -/
theorem registrable_of_registerModules (h : (registerModules declared).outcome = .ok modules) :
    Registrable [rootModule] (beneathRoot declared) := by
  rw [registerModules, ← registerAll_beneathRoot] at h
  have hroot : ([rootModule].map Module.path).Nodup := List.nodup_singleton _
  have hbeneath : ∀ modules, ∀ x ∈ beneathRoot modules, x.path ≠ Path.crateRoot := by
    intro modules x hx
    simpa using (List.mem_filter.mp hx).2
  exact (registrable_of_registerAll hroot (hbeneath _) h).perm ((Sorting.sort_perm _ declared).filter _)

/-- Modules that are registered in one order are registered in any other, and are distinct. -/
theorem registerModules_perm {declared' : List Module}
    (h : (registerModules declared).outcome = .ok modules) (hp : declared.Perm declared') :
    ∃ modules', registerModules declared' = .done modules' ∧ modules.Perm modules' ∧
      (modules.map Module.path).Nodup := by
  have hbeneath : (beneathRoot declared).Perm (beneathRoot declared') := hp.filter _
  have hregistrable := registrable_of_registerModules h
  obtain ⟨found, hfound, hperm⟩ := registerModules_of_registrable hregistrable
  obtain ⟨modules', hdone, hperm'⟩ := registerModules_of_registrable (hregistrable.perm hbeneath)
  rw [hfound] at h
  have hsame : found = modules := Except.ok.inj h
  rw [hsame] at hperm
  refine ⟨modules', hdone, ?_, ?_⟩
  · exact hperm.trans ((hbeneath.cons rootModule).trans hperm'.symm)
  · exact (hperm.map Module.path).nodup_iff.mpr hregistrable.distinct

end Model

end CrateSafety
