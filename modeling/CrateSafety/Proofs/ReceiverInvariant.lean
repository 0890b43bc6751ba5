import CrateSafety.Proofs.CoverageExactness
import CrateSafety.Proofs.Interface
import CrateSafety.Proofs.WrittenField

/-!
# What the invariant of a receiver vouches for

A method with a receiver may rely on the invariant of its struct. Where it makes a value of that struct, or writes
to a member of `self`, the atoms on members that are given no value stay as they are. So they are atoms of the
invariant that is assumed for the receiver, and count as shown. What is left to show are the atoms on members that
are given.
-/

namespace CrateSafety

namespace Operation

variable {o : Operation}

/-- An operation on internals makes a value, or writes to a member of `self`. -/
def OnSelf (o : Operation) : Prop :=
  o.kind = .structLiteral ∨ o.kind = .fieldWrite ∧ (Path.given? o.receiver).getD selfName = selfName

/-- An operation on internals gives a member a value: an initialiser, or the written value. -/
def GivesMember (o : Operation) (member : String) : Prop :=
  match o.kind with
  | .structLiteral => ∃ text, (member, text) ∈ o.fields
  | _ => Path.given? o.field = some member ∧ (Path.given? o.value).isSome = true

/-- Only members are replaced, those that are given. -/
theorem OnSelf.exists_fields (h : o.OnSelf) :
    ∃ fields, Edge.internalsRenaming o = ⟨[], fields⟩ ∧
      ∀ member, o.GivesMember member ↔ ∃ text, (member, text) ∈ fields := by
  rcases h with hkind | ⟨hkind, hself⟩
  · refine ⟨o.fields, by rw [Edge.internalsRenaming, hkind], fun member => ?_⟩
    rw [GivesMember, hkind]
  · simp only [Edge.internalsRenaming, GivesMember, hkind, hself]
    cases Path.given? o.field <;> cases Path.given? o.value <;> simp [eq_comm]

end Operation

/-- An atom on members that are not replaced stays as it is. -/
theorem Atom.rename_of_apart {a : Atom} {fields : List (String × String)}
    (h : ∀ pair ∈ fields, pair.1 ∉ a.selfMembers) : a.rename ⟨[], fields⟩ = .ok a := by
  have hnone : a.bearingMembers fields = [] := by
    refine List.filter_eq_nil_iff.mpr fun pair hpair hin => ?_
    exact h pair hpair (List.contains_iff_mem.mp hin)
  rw [← rename_bearingMembers, hnone]
  rfl

namespace Condition

variable {given : List Conjunction} {atoms : Conjunction}

theorem conjunctions_of_isEmpty_eq_false {c : Condition} (h : c.isEmpty = false) :
    c.conjunctions = c.alternatives := by
  simp [conjunctions, h]

/-- A given alternative is kept, or one with its keys is. -/
theorem exists_mem_build (hatoms : atoms ∈ given) (hne : (build given).alternatives ≠ []) :
    ∃ kept ∈ (build given).alternatives, ∀ b ∈ kept, ∃ a ∈ atoms, a.key = b.key := by
  obtain ⟨kept, hkept, hsignature⟩ := exists_signature_build hatoms hne
  refine ⟨kept, hkept, fun b hb => ?_⟩
  obtain ⟨a, ha, hkey⟩ := Conjunction.exists_key_of_signature_eq hsignature.symm hb
  exact ⟨a, Conjunction.dedupe_subset atoms ha, hkey⟩

theorem length_foldl_insert_le (kept given : List Conjunction) :
    (given.foldl insert kept).length ≤ kept.length + given.length := by
  induction given generalizing kept with
  | nil => simp
  | cons first rest ih =>
    have hinsert : (insert kept first).length ≤ kept.length + 1 := by
      unfold insert
      split <;> simp
    have hrest := ih (insert kept first)
    rw [List.foldl_cons, List.length_cons]
    omega

/-- Building adds no alternatives. -/
theorem length_build_le (given : List Conjunction) : (build given).alternatives.length ≤ given.length := by
  unfold build
  dsimp only
  split
  · simp
  · simpa using length_foldl_insert_le [] (given.map Conjunction.dedupe)

/-- A condition asks for part of another: for nothing, or for some atoms of every alternative. -/
structure PartOf (part c : Condition) : Prop where
  /-- Every alternative has one within it. -/
  within : part.alternatives ≠ [] → ∀ atoms ∈ c.alternatives, ∃ kept ∈ part.alternatives, kept ⊆ atoms
  /-- There are no further alternatives. -/
  length_le : part.alternatives.length ≤ c.alternatives.length

theorem PartOf.refl (c : Condition) : c.PartOf c :=
  ⟨fun _ atoms hatoms => ⟨atoms, hatoms, List.Subset.refl atoms⟩, le_rfl⟩

theorem partOf_of_empty (c : Condition) : PartOf {} c :=
  ⟨fun hne => absurd rfl hne, Nat.zero_le _⟩

theorem Keeps.partOf {c kept : Condition} {member : String} (h : c.Keeps member kept) : kept.PartOf c := by
  cases h with
  | nothing _ hnone =>
    rw [hnone]
    exact partOf_of_empty c
  | touched hsingle hkept _ =>
    refine ⟨fun _ atoms hatoms => ⟨touching member c.atoms, by simp [hkept], ?_⟩, by simp [hsingle, hkept]⟩
    rw [hsingle, List.mem_singleton] at hatoms
    rw [hatoms]
    exact List.filter_subset_self _
  | whole _ _ hall =>
    rw [hall]
    exact PartOf.refl c

end Condition

namespace Edge

variable {caller : Item} {s : Struct} {e : Edge} {inv path : Conjunction}

/-- What is left of the obligation has no more alternatives than the concerned part of the invariant. -/
theorem length_outstanding_le (hedge : ofInternals caller s e.site = .ok e) :
    e.outstanding.alternatives.length ≤ e.calleeTerms.alternatives.length := by
  obtain ⟨-, renamed, hrenamed, hrequired⟩ := required_of_ofInternals hedge
  have hrequired' : e.required.alternatives.length ≤ renamed.length := by
    rw [hrequired]
    exact Condition.length_build_le renamed
  have hwithout := Condition.length_build_le
    (e.required.alternatives.map fun atoms => atoms.filter fun a => !e.discharged.contains a.key)
  rw [List.length_map] at hwithout
  rw [(ofInternals_spec hedge).1.outstanding_eq]
  exact hwithout.trans (hrequired'.trans hrenamed.length_eq.ge)

/-- A concerned alternative of the invariant leaves an alternative that has keys of its atoms only. -/
theorem exists_outstanding_of_concerned (hedge : ofInternals caller s e.site = .ok e) {atoms : Conjunction}
    (hatoms : atoms ∈ e.calleeTerms.alternatives) (hne : e.outstanding.isEmpty = false) :
    ∃ kept ∈ e.outstanding.alternatives, ∀ b ∈ kept, ∃ a ∈ atoms, ∃ a',
      a.rename (internalsRenaming e.site.operation) = .ok a' ∧ a'.key = b.key := by
  obtain ⟨-, renamed, hrenamed, hrequired⟩ := required_of_ofInternals hedge
  have houtstanding := (ofInternals_spec hedge).1.outstanding_eq
  have hleft : (e.required.without e.discharged).alternatives ≠ [] := by
    rw [← houtstanding]
    intro hnil
    simp [Condition.isEmpty, hnil] at hne
  have hsome : (Condition.build renamed).alternatives ≠ [] := by
    rw [← hrequired]
    intro hnil
    rw [Condition.without, hnil] at hleft
    exact hleft rfl
  obtain ⟨atoms', hatoms', hboth⟩ := exists_right_of_forall₂ hrenamed hatoms
  obtain ⟨middle, hmiddle, hkeys⟩ := Condition.exists_mem_build hatoms' hsome
  rw [← hrequired] at hmiddle
  obtain ⟨kept, hkept, hleftKeys⟩ := Condition.exists_mem_build (List.mem_map_of_mem hmiddle) hleft
  refine ⟨kept, houtstanding ▸ hkept, fun b hb => ?_⟩
  obtain ⟨c, hc, hcb⟩ := hleftKeys b hb
  obtain ⟨a', ha', hac⟩ := hkeys c (List.mem_filter.mp hc).1
  obtain ⟨a, ha, hrename⟩ := exists_left_of_forall₂ hboth ha'
  exact ⟨a, ha, a', hrename, hac.trans hcb⟩

/-- What an operation on internals concerns is part of the invariant. -/
theorem partOf_invariant (hedge : ofInternals caller s e.site = .ok e) (hnormal : s.invariant.Normal)
    (hself : e.site.operation.OnSelf) : e.calleeTerms.PartOf s.invariant := by
  have hterms := (required_of_ofInternals hedge).1
  rcases hself with hkind | ⟨hkind, -⟩
  · rw [hterms, invariantOf, hkind]
    exact Condition.PartOf.refl s.invariant
  · cases hfield : Path.given? e.site.operation.field with
    | none =>
      have hnothing : e.calleeTerms = {} := by
        rw [hterms]
        simp [invariantOf, hkind, hfield, Condition.restrictedTo]
      rw [hnothing]
      exact Condition.partOf_of_empty s.invariant
    | some field => exact (keeps_of_write hedge hkind hfield hnormal).partOf

/-- An outstanding atom states an atom of an alternative of the invariant that mentions a given member. -/
def OnGiven (e : Edge) (inv : Conjunction) (b : Atom) : Prop :=
  ∃ a ∈ inv, (∃ member, e.site.operation.GivesMember member ∧ a.Mentions member) ∧
    ∃ a', a.rename (internalsRenaming e.site.operation) = .ok a' ∧ a'.key = b.key

/-- Together with an alternative of the invariant a path covers the obligation if it entails what is outstanding
on given members. -/
theorem covers_of_onGiven (hedge : ofInternals caller s e.site = .ok e) (hnormal : s.invariant.Normal)
    (hread : ∀ a ∈ s.invariant.alternatives.flatten, a.IsRead) (hself : e.site.operation.OnSelf)
    (hne : e.outstanding.isEmpty = false) (hinv : inv ∈ s.invariant.alternatives)
    (hgiven : ∀ b ∈ e.outstanding.alternatives.flatten, e.OnGiven inv b →
      Conjunction.entails (path ++ inv) b = true) :
    Conjunction.Covers (path ++ inv) e.outstanding.alternatives := by
  obtain ⟨fields, hrenaming, hfields⟩ := hself.exists_fields
  have hsome : e.calleeTerms.alternatives ≠ [] := by
    intro hnil
    have hlength := length_outstanding_le hedge
    rw [hnil, List.length_nil, Nat.le_zero, List.length_eq_zero_iff] at hlength
    simp [Condition.isEmpty, hlength] at hne
  obtain ⟨atoms, hatoms, hsubset⟩ := (partOf_invariant hedge hnormal hself).within hsome inv hinv
  obtain ⟨kept, hkept, hkeys⟩ := exists_outstanding_of_concerned hedge hatoms hne
  refine ⟨kept, hkept, fun b hb => ?_⟩
  obtain ⟨a, ha, a', hrename, hkey⟩ := hkeys b hb
  by_cases htouched : ∃ pair ∈ fields, pair.1 ∈ a.selfMembers
  · obtain ⟨⟨member, text⟩, hpair, hmem⟩ := htouched
    have hmentions := ((hread a (List.mem_flatten_of_mem hinv (hsubset ha))).mem_selfMembers_iff_mentions.mp hmem).2
    refine hgiven b (List.mem_flatten_of_mem hkept hb) ⟨a, hsubset ha, ⟨member, ?_, hmentions⟩, a', hrename, hkey⟩
    exact (hfields member).mpr ⟨text, hpair⟩
  · -- an atom on members that are not given is its own translation, and is assumed
    have hsame : a.rename ⟨[], fields⟩ = .ok a :=
      Atom.rename_of_apart fun pair hpair hmem => htouched ⟨pair, hpair, hmem⟩
    rw [hrenaming, hsame] at hrename
    cases hrename
    have hassumed : Conjunction.hasKey (path ++ inv) b.key = true :=
      List.any_eq_true.mpr ⟨a, List.mem_append_right path (hsubset ha), beq_iff_eq.mpr hkey⟩
    simp [Conjunction.entails, hassumed]

/-- If the invariant is one conjunction, a path with it covers the obligation exactly if it entails what is
outstanding on given members. -/
theorem covers_iff_onGiven (hedge : ofInternals caller s e.site = .ok e) (hnormal : s.invariant.Normal)
    (hread : ∀ a ∈ s.invariant.alternatives.flatten, a.IsRead) (hself : e.site.operation.OnSelf)
    (hne : e.outstanding.isEmpty = false) (hinv : s.invariant.alternatives = [inv]) :
    Conjunction.Covers (path ++ inv) e.outstanding.alternatives ↔
      ∀ b ∈ e.outstanding.alternatives.flatten, e.OnGiven inv b →
        Conjunction.entails (path ++ inv) b = true := by
  constructor
  · rintro ⟨atoms, hatoms, hentails⟩ b hb -
    have hlength : e.outstanding.alternatives.length ≤ 1 := by
      have hpart := (partOf_invariant hedge hnormal hself).length_le
      rw [hinv] at hpart
      exact (length_outstanding_le hedge).trans hpart
    obtain ⟨only, honly⟩ : ∃ only, e.outstanding.alternatives = [only] :=
      List.length_eq_one_iff.mp (le_antisymm hlength (List.length_pos_of_mem hatoms))
    rw [honly, List.mem_singleton] at hatoms
    rw [honly, List.flatten_singleton, ← hatoms] at hb
    exact hentails b hb
  · exact covers_of_onGiven hedge hnormal hread hself hne (by simp [hinv])

/-- A site is accepted with the invariant if on each path, with each alternative of the invariant, what is
outstanding on given members follows. -/
theorem covered_of_onGiven (hedge : ofInternals caller s e.site = .ok e) (hnormal : s.invariant.Normal)
    (hread : ∀ a ∈ s.invariant.alternatives.flatten, a.IsRead) (hself : e.site.operation.OnSelf)
    (hinvariant : s.invariant.isEmpty = false) (contract : Condition)
    (hgiven : ∀ path ∈ Coverage.paths e.site.guards contract, ∀ inv ∈ s.invariant.alternatives,
      Conjunction.satisfiable (path ++ inv) = true → ∀ b ∈ e.outstanding.alternatives.flatten,
        e.OnGiven inv b → Conjunction.entails (path ++ inv) b = true) :
    (Coverage.check e.outstanding e.site.guards contract s.invariant).covered = true := by
  cases hne : e.outstanding.isEmpty with
  | true => simp [Coverage.check, hne, Coverage.covered]
  | false =>
    refine (Coverage.covered_eq_true_iff hne).mpr fun path hpath => .inr ⟨hinvariant, fun inv hinv hsat => ?_⟩
    rw [Condition.conjunctions_of_isEmpty_eq_false hinvariant] at hinv
    exact covers_of_onGiven hedge hnormal hread hself hne hinv (hgiven path hpath inv hinv hsat)

end Edge

namespace Model

/-- An item with a receiver relies on the invariant of its struct. -/
theorem invariantFor_of_owner {m : Model} (hc : m.Consistent) {i : Item} {s : Struct} (hs : s ∈ m.structs)
    (howner : i.owner? = some s.path) (hreceiver : i.hasReceiver = true) : m.invariantFor i = s.invariant := by
  have hfound : m.struct? s.path = some s := by
    have hentity : m.entity? s.path = some (.struct s) := hc.entity?_eq_some_iff.mpr ⟨mem_structs.mp hs, rfl⟩
    rw [hc.struct?_eq_bind, hentity]
    rfl
  rw [invariantFor, howner, Option.bind_some, hfound]
  exact if_pos hreceiver

end Model

/-- The invariant of a receiver vouches for data that is not given. Take a method with a receiver, and an operation
of its body that makes a value of its struct or writes to a member of `self`. The site is accepted under a contract
as soon as on each path, with each alternative of the invariant, what is outstanding on given members follows: no
atom on other members is asked for. So it is accepted under any contract if the invariant mentions no given member.
If the invariant is one conjunction, that is all that acceptance takes on paths that do not cover the obligation
themselves. An accepted site is accepted without the invariant exactly if it is not reported to rely on it. -/
theorem receiver_invariant_vouches_for_ungiven {config : Config} {snapshot : Snapshot} {m : Model} {g : Graph}
    {i : Item} {s : Struct} {e : Edge} (hbuild : (Model.build config snapshot).outcome = .ok m)
    (hgraph : (m.graph config).outcome = .ok g) (hi : i ∈ m.items) (hs : s ∈ m.structs)
    (howner : i.owner? = some s.path) (hreceiver : i.hasReceiver = true)
    (hinvariant : s.invariant.isEmpty = false) (he : e ∈ g.edgesFrom i.path) (htarget : e.target = s.path)
    (hself : e.site.operation.OnSelf) (contract : Condition) :
    m.invariantFor i = s.invariant ∧
    ((∀ path ∈ Coverage.paths e.site.guards contract, ∀ inv ∈ s.invariant.alternatives,
        Conjunction.satisfiable (path ++ inv) = true → ∀ b ∈ e.outstanding.alternatives.flatten,
          e.OnGiven inv b → Conjunction.entails (path ++ inv) b = true) →
      (Coverage.check e.outstanding e.site.guards contract s.invariant).covered = true) ∧
    ((∀ a ∈ s.invariant.alternatives.flatten, ∀ member, e.site.operation.GivesMember member →
        ¬ a.Mentions member) →
      (Coverage.check e.outstanding e.site.guards contract s.invariant).covered = true) ∧
    (∀ inv, s.invariant.alternatives = [inv] → e.outstanding.isEmpty = false →
      ((Coverage.check e.outstanding e.site.guards contract s.invariant).covered = true ↔
        ∀ path ∈ Coverage.paths e.site.guards contract, path.Covers e.outstanding.alternatives ∨
          (Conjunction.satisfiable (path ++ inv) = true → ∀ b ∈ e.outstanding.alternatives.flatten,
            e.OnGiven inv b → Conjunction.entails (path ++ inv) b = true))) ∧
    ((Coverage.check e.outstanding e.site.guards contract s.invariant).covered = true →
      ((Coverage.check e.outstanding e.site.guards contract {}).covered = true ↔
        (Coverage.check e.outstanding e.site.guards contract s.invariant).reliesOnInvariant = false)) := by
  have hinternals : e.kind.touchesInternals = true := by
    rcases hself with hkind | ⟨hkind, -⟩ <;> rw [Edge.kind, hkind] <;> rfl
  have hedge := Model.ofInternals_of_edge hbuild hgraph hi he hinternals hs htarget
  have hnormal := Model.normal_invariant hbuild hs
  have hread := Model.isRead_invariant hbuild hs
  have haccepted := Edge.covered_of_onGiven hedge hnormal hread hself hinvariant contract
  refine ⟨Model.invariantFor_of_owner (Model.consistent_of_build hbuild) hs howner hreceiver, haccepted, ?_, ?_, ?_⟩
  · intro hungiven
    refine haccepted fun path _ inv hinv _ b _ hon => ?_
    obtain ⟨a, ha, ⟨member, hgives, hmentions⟩, -⟩ := hon
    exact absurd hmentions (hungiven a (List.mem_flatten_of_mem hinv ha) member hgives)
  · intro inv hinv hne
    rw [Coverage.covered_eq_true_iff hne]
    refine forall₂_congr fun path _ => or_congr_right ?_
    rw [Condition.conjunctions_of_isEmpty_eq_false hinvariant, hinv, List.forall_mem_singleton,
      Edge.covers_iff_onGiven hedge hnormal hread hself hne hinv]
    exact and_iff_right hinvariant
  · intro hcovered
    cases hne : e.outstanding.isEmpty with
    | true => simp [Coverage.check, hne, Coverage.covered]
    | false => simp [← Bool.not_eq_true, Coverage.reliesOnInvariant_iff hne hcovered]

/-- A counter that is scrambled in place, and copied with one of its two members given. -/
def evenTwin : Snapshot :=
  { items :=
      [.struct
        { path := "crate::Even", fields := [{ name := "value" }, { name := "limit" }],
          invariant := ["value % 2 == 0", "limit <= 64"] },
      .function
        { path := "crate::Even::twin", kind := .method, owner := some "crate::Even", params := ["n"],
          requirements := ["invariant(self)"],
          body :=
            [{ kind := .fieldWrite, target := "Self", field := some "value" },
            { kind := .structLiteral, target := "Self", fields := [("limit", "n")], guards := ["n <= 32"] }] }] }

/-- The new value of the write and of the copy is nowhere given, and nothing but the old one vouches for it. The
write is accepted under any contract. The copy is accepted since its limit is guarded, and is not without the
invariant. -/
theorem evenTwin_accepted :
    ∃ m g, (Model.build {} evenTwin).outcome = .ok m ∧ (m.graph {}).outcome = .ok g ∧
      ∃ i ∈ m.items, ∃ s ∈ m.structs, m.invariantFor i = s.invariant ∧
        (∃ e ∈ g.edgesFrom i.path, e.kind = .fieldWrite ∧ e.outstanding.text = "self.value % 2 == 0" ∧
          ∀ contract, (Coverage.check e.outstanding e.site.guards contract s.invariant).covered = true) ∧
        ∃ e ∈ g.edgesFrom i.path, e.kind = .structLiteral ∧ ¬ e.site.operation.GivesMember "value" ∧
          e.outstanding.text = "self.value % 2 == 0 and n <= 64" ∧
          (Coverage.check e.outstanding e.site.guards i.contract s.invariant).covered = true ∧
          (Coverage.check e.outstanding e.site.guards i.contract {}).covered = false := by
  have hcheck : Run.examine {} evenTwin (fun m g => m.items.any fun i => m.structs.any fun s =>
      decide (i.owner? = some s.path) && i.hasReceiver && !s.invariant.isEmpty &&
      decide (∀ a ∈ s.invariant.alternatives.flatten, selfName ∉ a.paths) &&
      ((g.edgesFrom i.path).any fun e => decide (e.target = s.path) &&
        decide (e.site.operation.kind = .fieldWrite) && decide (e.site.operation.receiver = none) &&
        decide (e.site.operation.value = none) && decide (e.outstanding.text = "self.value % 2 == 0")) &&
      (g.edgesFrom i.path).any fun e => decide (e.target = s.path) &&
        decide (e.site.operation.kind = .structLiteral) &&
        decide (e.site.operation.fields = [("limit", "n")]) &&
        decide (e.outstanding.text = "self.value % 2 == 0 and n <= 64") &&
        decide (∀ path ∈ Coverage.paths e.site.guards i.contract, ∀ inv ∈ s.invariant.alternatives,
          ∀ b ∈ e.outstanding.alternatives.flatten, ∀ a ∈ inv, "limit" ∈ a.selfMembers →
            (a.rename (Edge.internalsRenaming e.site.operation)).toOption.any (·.key == b.key) = true →
              Conjunction.entails (path ++ inv) b = true) &&
        (Coverage.check e.outstanding e.site.guards i.contract s.invariant).reliesOnInvariant) = true := by
    decide +kernel
  obtain ⟨m, g, hm, hg, hcheck⟩ := Run.examine_eq_true_iff.mp hcheck
  simp only [Bool.and_eq_true, Bool.not_eq_true', List.any_eq_true, decide_eq_true_eq] at hcheck
  obtain ⟨i, hi, s, hs, ⟨⟨⟨⟨howner, hreceiver⟩, hinvariant⟩, hheads⟩, hwrite⟩, hliteral⟩ := hcheck
  obtain ⟨e, he, ⟨⟨⟨htarget, hkind⟩, hself⟩, hvalue⟩, htext⟩ := hwrite
  obtain ⟨e', he', ⟨⟨⟨⟨htarget', hkind'⟩, hfields⟩, htext'⟩, hentails⟩, hrelies⟩ := hliteral
  have hvouches := receiver_invariant_vouches_for_ungiven hm hg hi hs howner hreceiver hinvariant he htarget
    (.inr ⟨hkind, by rw [hself]; rfl⟩)
  obtain ⟨hfor, hgiven, -, -, hwithout⟩ := receiver_invariant_vouches_for_ungiven hm hg hi hs howner hreceiver
    hinvariant he' htarget' (.inl hkind') i.contract
  have hlimit : ∀ member, e'.site.operation.GivesMember member → member = "limit" := by
    intro member hgives
    rw [Operation.GivesMember, hkind', hfields] at hgives
    simpa using hgives
  have hcovered : (Coverage.check e'.outstanding e'.site.guards i.contract s.invariant).covered = true := by
    refine hgiven fun path hpath inv hinv _ b hb hon => ?_
    obtain ⟨a, ha, ⟨member, hgives, hmentions⟩, a', hrename, hkey⟩ := hon
    have hin : a ∈ s.invariant.alternatives.flatten := List.mem_flatten_of_mem hinv ha
    have hmem : "limit" ∈ a.selfMembers :=
      (Model.isRead_invariant hm hs a hin).mem_selfMembers_iff_mentions.mpr
        ⟨hheads a hin, hlimit member hgives ▸ hmentions⟩
    refine hentails path hpath inv hinv b hb a ha hmem ?_
    exact Outcome.any_toOption_eq_true_iff.mpr ⟨a', hrename, beq_iff_eq.mpr hkey⟩
  refine ⟨m, g, hm, hg, i, hi, s, hs, hfor, ⟨e, he, hkind, htext, fun contract => ?_⟩,
    e', he', hkind', fun hgives => absurd (hlimit "value" hgives) (by decide), htext', hcovered, ?_⟩
  · obtain ⟨-, -, hungiven, -, -⟩ := hvouches contract
    refine hungiven fun a _ member hgives => ?_
    rw [Operation.GivesMember, hkind, hvalue] at hgives
    cases hgives.2
  · rw [← Bool.not_eq_true, hwithout hcovered, hrelies]
    exact Bool.noConfusion

end CrateSafety
