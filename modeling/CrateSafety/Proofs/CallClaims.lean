import CrateSafety.Proofs.CallContracts

/-!
# Claims at call sites

A claim may name a required atom in the terms of the caller or as the callee declares it. The declared key of a
required atom is that of the first declared atom that the call restates with its key. So where several declared
atoms become one requirement, a claim that names a later one of them does not count, and where the arguments
exchange the names of the callee, one claim counts for two requirements, once in each reading.
-/

namespace CrateSafety

namespace Claim

variable {claim : Claim} {a c : Atom} {key : String}

/-- One of the claimed atoms has the key. -/
def Names (claim : Claim) (key : String) : Prop := ∃ c ∈ claim.atoms, c.key = key

/-- The claimed atoms contradict each other nowhere and imply the atom. -/
def Implies (claim : Claim) (a : Atom) : Prop :=
  claim.atoms.satisfiable = true ∧ claim.atoms.entails a = true

instance (claim : Claim) (key : String) : Decidable (claim.Names key) :=
  inferInstanceAs (Decidable (∃ c ∈ claim.atoms, c.key = key))

theorem contains_keys_iff : (claim.atoms.map (·.key)).contains key = true ↔ claim.Names key := by
  rw [List.contains_iff_mem, List.mem_map]
  rfl

theorem names_of_single (h : claim.atoms = [c]) : claim.Names key ↔ key = c.key := by
  simp [Names, h, eq_comm]

/-- One claimed atom without a bound implies nothing but itself and the constant for truth. -/
theorem key_of_implies (h : claim.atoms = [c]) (hbound : c.bound = none) (himplies : claim.Implies a) :
    a.key = "True" ∨ a.key = c.key := by
  obtain ⟨hsatisfiable, hentails⟩ := himplies
  have hranges : Ranges.ofAtoms [c] = [] := by simp [Ranges.ofAtoms, hbound]
  have hnone : a.bound.any (Conjunction.impliesBound [c]) = false := by
    cases a.bound with
    | none => rfl
    | some b => simp [Conjunction.impliesBound, hranges]
  rw [h] at hsatisfiable hentails
  simp only [Conjunction.entails, Conjunction.hasKey, hsatisfiable, hnone, Bool.not_true, Bool.or_false,
    Bool.or_eq_true, beq_iff_eq, List.any_cons, List.any_nil] at hentails
  exact hentails.imp_right Eq.symm

end Claim

namespace Condition

variable {c : Condition} {r : Renaming} {a a' : Atom} {key : String}

/-- The first atom that a renaming restates with a key. -/
def declaredAs (c : Condition) (r : Renaming) (key : String) : Option Atom :=
  c.alternatives.flatten.find? fun a => (a.rename r).toOption.any (·.key == key)

theorem restated_of_declaredAs (h : c.declaredAs r key = some a) :
    a ∈ c.alternatives.flatten ∧ ∃ a', a.rename r = .ok a' ∧ a'.key = key := by
  unfold declaredAs at h
  have htest := List.find?_some h
  obtain ⟨a', hrename, hkey⟩ := Outcome.any_toOption_eq_true_iff.mp htest
  exact ⟨List.mem_of_find?_eq_some h, a', hrename, beq_iff_eq.mp hkey⟩

/-- An atom that is restated has a first one that is restated with its key. -/
theorem exists_declaredAs (ha : a ∈ c.alternatives.flatten) (h : a.rename r = .ok a') :
    ∃ first, c.declaredAs r a'.key = some first := by
  refine Option.isSome_iff_exists.mp (List.find?_isSome.mpr ⟨a, ha, ?_⟩)
  exact Outcome.any_toOption_eq_true_iff.mpr ⟨a', h, beq_self_eq_true _⟩

/-- The declared atoms with a key are all restated with one key. -/
def RestatesAlike (c : Condition) (r : Renaming) (declared : String) : Prop :=
  ∀ a ∈ c.alternatives.flatten, ∀ b ∈ c.alternatives.flatten, a.key = declared → b.key = declared →
    (a.rename r).toOption.map (·.key) = (b.rename r).toOption.map (·.key)

instance (c : Condition) (r : Renaming) (declared : String) : Decidable (c.RestatesAlike r declared) :=
  inferInstanceAs (Decidable (∀ a ∈ c.alternatives.flatten, ∀ b ∈ c.alternatives.flatten, a.key = declared →
    b.key = declared → (a.rename r).toOption.map (·.key) = (b.rename r).toOption.map (·.key)))

/-- The first atom that is restated with a key has a given key. -/
def Remembers (c : Condition) (r : Renaming) (key declared : String) : Prop :=
  ∃ first, c.declaredAs r key = some first ∧ first.key = declared

theorem RestatesAlike.eq_of_remembers {key' declared : String} (h : c.RestatesAlike r declared)
    (hkey : c.Remembers r key declared) (hkey' : c.Remembers r key' declared) : key = key' := by
  obtain ⟨a, ha, hdeclared⟩ := hkey
  obtain ⟨b, hb, hdeclared'⟩ := hkey'
  obtain ⟨hmem, a', hrename, rfl⟩ := restated_of_declaredAs ha
  obtain ⟨hmem', b', hrename', rfl⟩ := restated_of_declaredAs hb
  simpa [hrename, hrename', Except.toOption] using h a hmem b hmem' hdeclared hdeclared'

end Condition

namespace CallerTerms

variable {c : Condition} {r : Renaming} {t : CallerTerms}

/-- The keys of declared atoms are looked up among the pairs of an atom and its restatement. -/
theorem find?_restated {atoms : List Atom} {pairs : List (Atom × Atom)} (key : String)
    (h : List.Forall₂ (fun a pair => pair.1 = a ∧ a.rename r = .ok pair.2) atoms pairs) :
    ((pairs.map fun pair => (pair.2.key, pair.1.key)).find? fun entry => entry.1 == key).map (·.2) =
      (atoms.find? fun a => (a.rename r).toOption.any (·.key == key)).map (·.key) := by
  induction h with
  | nil => rfl
  | @cons a pair atoms pairs hpair _ ih =>
    obtain ⟨rfl, hrename⟩ := hpair
    have htest : (pair.1.rename r).toOption.any (·.key == key) = (pair.2.key == key) := by
      rw [hrename]
      rfl
    rw [List.map_cons, List.find?_cons, List.find?_cons, htest]
    cases pair.2.key == key with
    | true => rfl
    | false => exact ih

/-- The declared key of a required atom is the key of the first atom that is restated with its key. -/
theorem origin?_of_ofRenaming (h : ofRenaming c r = .ok t) (key : String) :
    t.origin? key = (c.declaredAs r key).map (·.key) := by
  obtain ⟨pairs, hpairs, h⟩ := Outcome.bind_eq_ok_iff.mp h
  cases h
  refine find?_restated key (List.rel_flatten ?_)
  refine (Outcome.mapM_eq_ok_iff.mp hpairs).imp fun atoms paired hatoms => ?_
  refine (Outcome.mapM_eq_ok_iff.mp hatoms).imp fun a pair hpair => ?_
  obtain ⟨a', hrename, hpair⟩ := Outcome.bind_eq_ok_iff.mp hpair
  cases hpair
  exact ⟨rfl, hrename⟩

theorem claims_eq_true_iff {claim : Claim} {a : Atom} :
    t.claims claim a = true ↔
      claim.Names a.key ∨ (∃ declared, t.origin? a.key = some declared ∧ claim.Names declared) ∨
        claim.Implies a := by
  simp only [claims, Bool.or_eq_true, Bool.and_eq_true, Option.any_eq_true, Claim.contains_keys_iff, or_assoc,
    Claim.Implies]

end CallerTerms

namespace Edge

variable {caller callee : Item} {site : Site} {e : Edge} {j : Justification} {a a' : Atom} {key : String}

theorem normal_contract (i : Item) : i.contract.Normal := by
  unfold Item.contract
  split
  case isTrue => exact Condition.normal_build _
  case isFalse => constructor <;> simp

/-- Every declared atom of a call is restated, and its restatement is required. -/
theorem exists_required (he : ofCall caller callee site = .ok e) (ha : a ∈ callee.contract.alternatives.flatten) :
    ∃ a', a.rename (callRenaming callee site.operation) = .ok a' ∧ ∃ b ∈ e.required.atoms, b.key = a'.key := by
  obtain ⟨-, renamed, hrenamed, hrequired⟩ := required_of_ofCall he
  obtain ⟨atoms, hatoms, ha⟩ := List.mem_flatten.mp ha
  obtain ⟨atoms', hatoms', hboth⟩ := exists_right_of_forall₂ hrenamed hatoms
  obtain ⟨a', ha', hrename⟩ := exists_right_of_forall₂ hboth ha
  have hnonempty : ∀ atoms' ∈ renamed, atoms' ≠ [] := by
    rintro atoms' hmem rfl
    obtain ⟨atoms, hmem, hboth⟩ := exists_left_of_forall₂ hrenamed hmem
    exact (normal_contract callee).nonempty atoms hmem (List.forall₂_nil_right_iff.mp hboth)
  obtain ⟨b, hb, hkey⟩ := Condition.exists_key_of_build hnonempty hatoms' ha'
  obtain ⟨kept, hkept, hkeptKey⟩ := Conjunction.exists_mem_dedupe hb
  refine ⟨a', hrename, kept, ?_, hkeptKey.trans hkey⟩
  rw [hrequired]
  exact hkept

/-- What a call discharges: the required atoms that a claim names in the terms of the caller, names as declared,
or implies. -/
theorem mem_discharged_iff (he : ofCall caller callee site = .ok e) (hj : site.justification = some j) :
    key ∈ e.discharged ↔ ∃ a ∈ e.required.atoms, a.key = key ∧ ∃ claim ∈ j.claims, claim.Names key ∨
      (∃ first, e.calleeTerms.declaredAs (callRenaming callee site.operation) key = some first ∧
        claim.Names first.key) ∨ claim.Implies a := by
  obtain ⟨t, hterms, rfl⟩ := ofCall_eq_ok_iff.mp he
  simp only [CallerTerms.edge, CallerTerms.discharged, hj, Option.map_some, Option.getD_some, List.mem_map,
    List.mem_filter, List.any_eq_true, CallerTerms.claims_eq_true_iff, CallerTerms.origin?_of_ofRenaming hterms,
    Option.map_eq_some_iff]
  constructor
  · rintro ⟨a, ⟨ha, claim, hclaim, hcounts⟩, rfl⟩
    refine ⟨a, ha, rfl, claim, hclaim, hcounts.imp_right (Or.imp_left ?_)⟩
    rintro ⟨declared, ⟨first, hfirst, rfl⟩, hnames⟩
    exact ⟨first, hfirst, hnames⟩
  · rintro ⟨a, ha, rfl, claim, hclaim, hcounts⟩
    refine ⟨a, ⟨ha, claim, hclaim, hcounts.imp_right (Or.imp_left ?_)⟩, rfl⟩
    rintro ⟨first, hfirst, hnames⟩
    exact ⟨first.key, ⟨first, hfirst, rfl⟩, hnames⟩

/-- No key is discharged twice. -/
theorem nodup_discharged (he : ofCall caller callee site = .ok e) : e.discharged.Nodup := by
  obtain ⟨t, -, rfl⟩ := ofCall_eq_ok_iff.mp he
  exact (Conjunction.keysDistinct_dedupe _).sublist (List.filter_sublist.map _)

end Edge

/-- A claim in the terms of the callee counts exactly if it names the first declared atom that becomes the
requirement. Each declared atom of a call becomes a required atom, of which the first declared one with that
key is remembered. If that one has the key of the atom itself, every claim that names the atom counts. In any
case the requirement is discharged exactly if some claim names the remembered atom, names the requirement in
the terms of the caller, or implies it. -/
theorem claim_in_callee_terms_counts_for_first {caller callee : Item} {site : Site} {e : Edge}
    (he : Edge.ofCall caller callee site = .ok e) {j : Justification} (hj : site.justification = some j)
    {a : Atom} (ha : a ∈ e.calleeTerms.alternatives.flatten) :
    ∃ a' first, a.rename (Edge.callRenaming callee site.operation) = .ok a' ∧
      e.calleeTerms.declaredAs (Edge.callRenaming callee site.operation) a'.key = some first ∧
      (first.key = a.key → ∀ claim ∈ j.claims, claim.Names a.key → a'.key ∈ e.discharged) ∧
      (a'.key ∈ e.discharged ↔ ∃ claim ∈ j.claims, claim.Names first.key ∨ claim.Names a'.key ∨
        ∃ b ∈ e.required.atoms, b.key = a'.key ∧ claim.Implies b) := by
  have hterms := (Edge.required_of_ofCall he).1
  obtain ⟨a', hrename, b, hb, hbkey⟩ := Edge.exists_required he (hterms ▸ ha)
  obtain ⟨first, hfirst⟩ := Condition.exists_declaredAs ha hrename
  have hexact : a'.key ∈ e.discharged ↔ ∃ claim ∈ j.claims, claim.Names first.key ∨ claim.Names a'.key ∨
      ∃ b ∈ e.required.atoms, b.key = a'.key ∧ claim.Implies b := by
    rw [Edge.mem_discharged_iff he hj]
    simp only [hfirst, Option.some.injEq, exists_eq_left']
    constructor
    · rintro ⟨b, hb, hbkey, claim, hclaim, hnames | hnames | himplies⟩
      · exact ⟨claim, hclaim, .inr (.inl hnames)⟩
      · exact ⟨claim, hclaim, .inl hnames⟩
      · exact ⟨claim, hclaim, .inr (.inr ⟨b, hb, hbkey, himplies⟩)⟩
    · rintro ⟨claim, hclaim, hnames | hnames | ⟨b, hb, hbkey, himplies⟩⟩
      · exact ⟨b, hb, hbkey, claim, hclaim, .inr (.inl hnames)⟩
      · exact ⟨b, hb, hbkey, claim, hclaim, .inl hnames⟩
      · exact ⟨b, hb, hbkey, claim, hclaim, .inr (.inr himplies)⟩
  refine ⟨a', first, hrename, hfirst, fun hkey claim hclaim hnames => ?_, hexact⟩
  exact hexact.mpr ⟨claim, hclaim, .inl (hkey ▸ hnames)⟩

/-- Two calls that give one buffer for both parameters of a copy, and claim a requirement on one of them. -/
def sharedBuffer : Snapshot :=
  { items :=
      [.function
        { path := "crate::copy", declaredUnsafe := true, params := ["src", "dst"],
          requirements := ["aligned(src)", "aligned(dst)"] },
      .function
        { path := "crate::fill", params := ["buf"],
          body :=
            [{ kind := .call, target := "crate::copy", args := ["buf", "buf"],
                justification := some "SAFETY: aligned(src): from an allocation" }] },
      .function
        { path := "crate::refill", params := ["buf"],
          body :=
            [{ kind := .call, target := "crate::copy", args := ["buf", "buf"],
                justification := some "SAFETY: aligned(dst): from an allocation" }] }] }

/-- The claim on the source counts, since the source comes first; the claim on the destination does not. -/
theorem sharedBuffer_counts_for_source :
    ∃ m g, (Model.build {} sharedBuffer).outcome = .ok m ∧ (m.graph {}).outcome = .ok g ∧
      (∃ e ∈ g.edgesFrom "crate::fill", ∃ a ∈ e.calleeTerms.alternatives.flatten,
        a.key = "aligned ( src )" ∧ "aligned ( buf )" ∈ e.discharged) ∧
      ∃ e ∈ g.edgesFrom "crate::refill", e.calleeTerms.text = "aligned(src) and aligned(dst)" ∧
        e.required.text = "aligned(buf)" ∧ e.discharged = [] := by
  have hcheck : Run.examine {} sharedBuffer (fun m g =>
      (m.items.any fun caller => caller.path == "crate::fill" && (g.edgesFrom caller.path).any fun e =>
        decide (e.kind = .call) && (m.resolveItem caller e.site.operation.target).any fun callee =>
          (e.site.justification.any fun j => j.claims.any fun claim => decide (claim.Names "aligned ( src )")) &&
          e.calleeTerms.alternatives.flatten.any fun a => a.key == "aligned ( src )" &&
            ((a.rename (Edge.callRenaming callee e.site.operation)).toOption.any
              (·.key == "aligned ( buf )")) &&
            (e.calleeTerms.declaredAs (Edge.callRenaming callee e.site.operation) "aligned ( buf )").any
              (·.key == "aligned ( src )")) &&
      (g.edgesFrom "crate::refill").any fun e =>
        e.calleeTerms.text == "aligned(src) and aligned(dst)" && e.required.text == "aligned(buf)" &&
          e.discharged.isEmpty) = true := by
    decide +kernel
  obtain ⟨m, g, hm, hg, hcheck⟩ := Run.examine_eq_true_iff.mp hcheck
  simp only [Bool.and_eq_true, List.any_eq_true, Option.any_eq_true, decide_eq_true_eq, beq_iff_eq,
    List.isEmpty_iff] at hcheck
  obtain ⟨⟨caller, hcaller, hpath, e, he, hkind, callee, hresolved, ⟨j, hj, claim, hclaim, hnames⟩, a, ha,
    ⟨hkey, renamed, hrenamed, hbuf⟩, first, hfirst, hsrc⟩, e', he', ⟨hdeclared, hrequired⟩, hnone⟩ := hcheck
  have hmade := Model.ofCall_of_edge hm hg hcaller he hkind hresolved
  obtain ⟨a', remembered, hrename, hremembered, hcounts, -⟩ :=
    claim_in_callee_terms_counts_for_first hmade hj ha
  rw [hrename] at hrenamed
  cases hrenamed
  rw [hbuf, hfirst] at hremembered
  cases hremembered
  have hdischarged := hcounts (hsrc.trans hkey.symm) claim hclaim (hkey ▸ hnames)
  exact ⟨m, g, hm, hg, ⟨e, hpath ▸ he, a, ha, hkey, hbuf ▸ hdischarged⟩, e', he', hdeclared, hrequired, hnone⟩

/-- The discharged keys without the constant for truth, which every claim implies. -/
def Edge.counted (e : Edge) : List String := e.discharged.filter (· != "True")

/-- One claimed atom without a bound discharges, of the required atoms other than the constant for truth, the one
with its key and those whose first declared atom has its key. If the call restates the declared atoms with that
key alike, these are at most two, and two only if one is named in the terms of the caller and the other one as
declared. -/
theorem single_claim_counts_once_in_each_reading {caller callee : Item} {site : Site} {e : Edge}
    (he : Edge.ofCall caller callee site = .ok e) {raw : String} {claim : Claim}
    (hj : site.justification = some ⟨raw, [claim]⟩) {c : Atom} (hatoms : claim.atoms = [c])
    (hbound : c.bound = none) :
    (∀ key, key ∈ e.counted ↔ key ≠ "True" ∧ (∃ a ∈ e.required.atoms, a.key = key) ∧
      (key = c.key ∨ e.calleeTerms.Remembers (Edge.callRenaming callee site.operation) key c.key)) ∧
    (e.calleeTerms.RestatesAlike (Edge.callRenaming callee site.operation) c.key →
      e.counted.length ≤ 2 ∧ (e.counted.length = 2 → c.key ∈ e.counted ∧ ∃ key ∈ e.counted, key ≠ c.key ∧
        e.calleeTerms.Remembers (Edge.callRenaming callee site.operation) key c.key)) := by
  have hexact : ∀ key, key ∈ e.counted ↔ key ≠ "True" ∧ (∃ a ∈ e.required.atoms, a.key = key) ∧
      (key = c.key ∨ e.calleeTerms.Remembers (Edge.callRenaming callee site.operation) key c.key) := by
    intro key
    rw [Edge.counted, List.mem_filter, Edge.mem_discharged_iff he hj, bne_iff_ne, and_comm]
    refine and_congr_right fun hne => ?_
    simp only [List.mem_singleton, exists_eq_left, Claim.names_of_single hatoms]
    constructor
    · rintro ⟨a, ha, rfl, hkey | hfirst | himplies⟩
      · exact ⟨⟨a, ha, rfl⟩, .inl hkey⟩
      · exact ⟨⟨a, ha, rfl⟩, .inr hfirst⟩
      · exact ⟨⟨a, ha, rfl⟩, .inl ((Claim.key_of_implies hatoms hbound himplies).resolve_left hne)⟩
    · rintro ⟨⟨a, ha, rfl⟩, hcounts⟩
      exact ⟨a, ha, rfl, hcounts.imp_right .inl⟩
  refine ⟨hexact, fun halike => ?_⟩
  have hlength {keys : List String} (h : ∀ key ∈ e.counted, key ∈ keys) : e.counted.length ≤ keys.length :=
    (((Edge.nodup_discharged he).filter _).subperm h).length_le
  by_cases hother : ∃ key ∈ e.counted, key ≠ c.key
  · -- what is not named in the terms of the caller is one and the same key
    obtain ⟨key, hkey, hne⟩ := hother
    have hremembers := ((hexact key).mp hkey).2.2.resolve_left hne
    have heither : ∀ k ∈ e.counted, k = c.key ∨ k = key := fun k hk =>
      ((hexact k).mp hk).2.2.imp_right fun h => halike.eq_of_remembers h hremembers
    have hboth : e.counted.length ≤ [c.key, key].length := hlength fun k hk => List.mem_pair.mpr (heither k hk)
    refine ⟨hboth, fun htwo => ⟨?_, key, hkey, hne, hremembers⟩⟩
    by_contra habsent
    have hone : e.counted.length ≤ [key].length := hlength fun k hk =>
      List.mem_singleton.mpr ((heither k hk).resolve_left fun h => habsent (h ▸ hk))
    simp [htwo] at hone
  · have hone : e.counted.length ≤ [c.key].length := hlength fun k hk => by
      rw [List.mem_singleton]
      by_contra hne
      exact hother ⟨k, hk, hne⟩
    rw [List.length_singleton] at hone
    exact ⟨by omega, fun htwo => by omega⟩

/-- The justification of a site is one claim of one atom without a bound, which has the key. -/
def Site.claimsOnly (site : Site) (key : String) : Bool :=
  site.justification.any fun j => decide (j.claims.length = 1) && j.claims.all fun claim =>
    decide (claim.atoms.length = 1) && claim.atoms.all fun c => c.bound.isNone && c.key == key

theorem Site.claimsOnly_eq_true_iff {site : Site} {key : String} : site.claimsOnly key = true ↔
    ∃ raw claim c, site.justification = some ⟨raw, [claim]⟩ ∧ claim.atoms = [c] ∧ c.bound = none ∧
      c.key = key := by
  unfold claimsOnly
  constructor
  · intro h
    obtain ⟨⟨raw, claims⟩, hj, h⟩ := (Option.any_eq_true _ _).mp h
    simp only [Bool.and_eq_true, decide_eq_true_eq, List.length_eq_one_iff] at h
    obtain ⟨⟨claim, rfl⟩, h⟩ := h
    simp only [List.all_cons, List.all_nil, Bool.and_true, Bool.and_eq_true, decide_eq_true_eq,
      List.length_eq_one_iff] at h
    obtain ⟨⟨c, hatoms⟩, h⟩ := h
    rw [hatoms] at h
    simp only [List.all_cons, List.all_nil, Bool.and_true, Bool.and_eq_true, Option.isNone_iff_eq_none,
      beq_iff_eq] at h
    exact ⟨raw, claim, c, hj, hatoms, h⟩
  · rintro ⟨raw, claim, c, hj, hatoms, hbound, hkey⟩
    simp [hj, hatoms, hbound, hkey]

/-- A call that passes the three parameters of its caller on, each to the place of the one before. -/
def rotation : Snapshot :=
  { items :=
      [.function
        { path := "crate::join", declaredUnsafe := true, params := ["a", "b", "c"],
          requirements := ["fresh(a)", "fresh(b)", "fresh(c)"] },
      .function
        { path := "crate::rotate", params := ["a", "b", "c"],
          body :=
            [{ kind := .call, target := "crate::join", args := ["b", "c", "a"],
                justification := some "SAFETY: fresh(a): just made" }] }] }

/-- The one claim counts for two of the three requirements: for the one that it names in the terms of the caller,
and for the one on the argument that stands for the parameter of that name. -/
theorem rotation_counts_once_in_each_reading :
    ∃ m g, (Model.build {} rotation).outcome = .ok m ∧ (m.graph {}).outcome = .ok g ∧
      ∃ e ∈ g.edgesFrom "crate::rotate", e.required.text = "fresh(b) and fresh(c) and fresh(a)" ∧
        e.counted.length = 2 ∧ "fresh ( a )" ∈ e.counted ∧ "fresh ( b )" ∈ e.counted ∧
        "fresh ( c )" ∉ e.counted := by
  have hcheck : Run.examine {} rotation (fun m g => m.items.any fun caller =>
      caller.path == "crate::rotate" && (g.edgesFrom caller.path).any fun e =>
        decide (e.kind = .call) && (m.resolveItem caller e.site.operation.target).any fun callee =>
          e.required.text == "fresh(b) and fresh(c) and fresh(a)" && e.site.claimsOnly "fresh ( a )" &&
          decide (e.counted.length = 2) &&
          decide (e.calleeTerms.RestatesAlike (Edge.callRenaming callee e.site.operation) "fresh ( a )") &&
          (e.calleeTerms.declaredAs (Edge.callRenaming callee e.site.operation) "fresh ( b )").any
            (·.key == "fresh ( a )") &&
          (e.calleeTerms.declaredAs (Edge.callRenaming callee e.site.operation) "fresh ( c )").any
            (·.key == "fresh ( b )") &&
          e.required.atoms.any (·.key == "fresh ( b )")) = true := by
    decide +kernel
  obtain ⟨m, g, hm, hg, hcheck⟩ := Run.examine_eq_true_iff.mp hcheck
  simp only [Bool.and_eq_true, List.any_eq_true, Option.any_eq_true, decide_eq_true_eq, beq_iff_eq,
    Site.claimsOnly_eq_true_iff] at hcheck
  obtain ⟨caller, hcaller, hpath, e, he, hkind, callee, hresolved, ⟨⟨⟨⟨⟨hrequired, raw, claim, c, hj, hatoms,
    hbound, hkey⟩, htwo⟩, halike⟩, b, hb, hbkey⟩, d, hd, hdkey⟩, hneeds⟩ := hcheck
  have hmade := Model.ofCall_of_edge hm hg hcaller he hkind hresolved
  obtain ⟨hexact, hreadings⟩ := single_claim_counts_once_in_each_reading hmade hj hatoms hbound
  rw [hkey] at hexact hreadings
  refine ⟨m, g, hm, hg, e, hpath ▸ he, hrequired, htwo, ((hreadings halike).2 htwo).1, ?_, ?_⟩
  · exact (hexact _).mpr ⟨by decide, hneeds, .inr ⟨b, hb, hbkey⟩⟩
  · intro hcounted
    rcases ((hexact _).mp hcounted).2.2 with hsame | ⟨first, hfirst, hfirstKey⟩
    · exact absurd hsame (by decide)
    · rw [hd] at hfirst
      cases hfirst
      exact absurd (hdkey.symm.trans hfirstKey) (by decide)

/-- A call that exchanges the two parameters of its caller. -/
def exchange : Snapshot :=
  { items :=
      [.function
        { path := "crate::copy", declaredUnsafe := true, params := ["src", "dst"],
          requirements := ["aligned(src)", "aligned(dst)"] },
      .function
        { path := "crate::restore", params := ["src", "dst"],
          body :=
            [{ kind := .call, target := "crate::copy", args := ["dst", "src"],
                justification := some "SAFETY: aligned(src): from an allocation" }] }] }

/-- One claim of one atom without a bound counts for both requirements, so nothing is left outstanding. -/
theorem exchange_counts_twice :
    ∃ m g, (Model.build {} exchange).outcome = .ok m ∧ (m.graph {}).outcome = .ok g ∧
      ∃ caller ∈ m.items, ∃ e ∈ g.edgesFrom caller.path, ∃ callee,
        Edge.ofCall caller callee e.site = .ok e ∧ (∃ raw claim c,
          e.site.justification = some ⟨raw, [claim]⟩ ∧ claim.atoms = [c] ∧ c.bound = none ∧
            c.key = "aligned ( src )") ∧
        e.counted = ["aligned ( dst )", "aligned ( src )"] ∧ e.isDischarged = true := by
  have hcheck : Run.examine {} exchange (fun m g => m.items.any fun caller =>
      (g.edgesFrom caller.path).any fun e => decide (e.kind = .call) &&
        (m.resolveItem caller e.site.operation.target).isSome && e.site.claimsOnly "aligned ( src )" &&
        decide (e.counted = ["aligned ( dst )", "aligned ( src )"]) && e.isDischarged) = true := by
    decide +kernel
  obtain ⟨m, g, hm, hg, hcheck⟩ := Run.examine_eq_true_iff.mp hcheck
  simp only [Bool.and_eq_true, List.any_eq_true, decide_eq_true_eq, Option.isSome_iff_exists,
    Site.claimsOnly_eq_true_iff] at hcheck
  obtain ⟨caller, hcaller, e, he, ⟨⟨⟨hkind, callee, hresolved⟩, hclaims⟩, hcounted⟩, hdone⟩ := hcheck
  exact ⟨m, g, hm, hg, caller, hcaller, e, he, callee,
    Model.ofCall_of_edge hm hg hcaller he hkind hresolved, hclaims, hcounted, hdone⟩

end CrateSafety
