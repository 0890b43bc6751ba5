import CrateSafety.Proofs.Outcome
import CrateSafety.Verdict.Check

/-!
# Settled states

The state of an entity is fixed by the highest rank among its violations. For each kind of finding it is
stated exactly when it stays within a rank, so that an item is sound exactly if nothing ranks above the
sound states. Recommendations apart, every check answers with violations that do.
-/

namespace CrateSafety

namespace TerminalState

theorem isSound_iff_rank_le {state : TerminalState} : state.isSound = true ↔ state.rank ≤ 1 := by
  cases state <;> simp [isSound, rank]

end TerminalState

/-- No violation ranks above `n`. -/
def RankedWithin (n : Nat) (findings : List Finding) : Prop :=
  ∀ f ∈ findings, f.severity = .violation → f.state.rank ≤ n

namespace RankedWithin

variable {n : Nat}

@[simp] theorem nil : RankedWithin n [] := by
  simp [RankedWithin]

@[simp] theorem append_iff {left right : List Finding} :
    RankedWithin n (left ++ right) ↔ RankedWithin n left ∧ RankedWithin n right :=
  List.forall_mem_append

@[simp] theorem violation_iff {path explanation : String} {state : TerminalState} {rule : Rule}
    {line : Option Int} :
    RankedWithin n [Model.violation path state rule explanation line] ↔ state.rank ≤ n := by
  simp [RankedWithin, Model.violation]

/-- Violations that are made for entries of a list stay within a rank exactly if the entries do. -/
theorem iff_of_forall₂ {α : Type} {rank : α → Nat} {as : List α} {findings : List Finding}
    (h : List.Forall₂ (fun a f => f.severity = .violation ∧ f.state.rank = rank a) as findings) :
    RankedWithin n findings ↔ ∀ a ∈ as, rank a ≤ n := by
  constructor
  · intro hw a ha
    obtain ⟨f, hf, hs, hr⟩ := exists_right_of_forall₂ h ha
    rw [← hr]
    exact hw f hf hs
  · intro hw f hf _
    obtain ⟨a, ha, -, hr⟩ := exists_left_of_forall₂ h hf
    rw [hr]
    exact hw a ha

/-- Recommendations have no rank. -/
theorem of_recommended {findings : List Finding} (h : ∀ f ∈ findings, f.severity = .recommended) :
    RankedWithin n findings := by
  intro f hf hv
  rw [h f hf] at hv
  cases hv

end RankedWithin

/-- A settled state stays within a rank exactly if the sound state and all violations do. -/
theorem rank_settle_le_iff {n : Nat} {sound : TerminalState} {findings : List Finding} :
    (settle sound findings).rank ≤ n ↔ sound.rank ≤ n ∧ RankedWithin n findings := by
  induction findings generalizing sound with
  | nil => simp [settle]
  | cons f rest ih =>
    have hstep : settle sound (f :: rest) = settle
        (if f.severity == .violation && sound.rank < f.state.rank then f.state else sound) rest := rfl
    rw [hstep, ih, RankedWithin, RankedWithin, List.forall_mem_cons, ← and_assoc]
    refine and_congr_left fun _ => ?_
    split
    case isTrue h =>
      simp only [Bool.and_eq_true, beq_iff_eq, decide_eq_true_eq] at h
      constructor
      · intro hr
        exact ⟨by omega, fun _ => hr⟩
      · rintro ⟨-, hr⟩
        exact hr h.1
    case isFalse h =>
      simp only [Bool.and_eq_true, beq_iff_eq, decide_eq_true_eq, not_and, Nat.not_lt] at h
      refine ⟨fun hr => ⟨hr, fun hv => ?_⟩, And.left⟩
      exact Nat.le_trans (h hv) hr

namespace Model

variable {m : Model} {config : Config} {i : Item} {e : Edge} {n : Nat}

theorem boundaryOf_eq_ok_iff {b : Boundary} : m.boundaryOf config e = .ok b ↔
    ∃ s, m.struct? e.target = some s ∧ b = ⟨e.target, s.module, config.criterion⟩ := by
  unfold boundaryOf boundary?
  cases m.struct? e.target with
  | none => simp
  | some s => simp [eq_comm]

theorem exposedOutside_eq_ok_iff {b : Boundary} {exposed : Bool} :
    m.exposedOutside i b = .ok exposed ↔
      ∃ scope, m.scopeOf i.path = .ok scope ∧ b.escapes scope = exposed := by
  rw [exposedOutside, Outcome.bind_eq_ok_iff]
  simp [pure, Except.pure]

/-- What an uncovered obligation means for an item, by the way that the item stands to the struct whose
internals it reaches. -/
inductive Placed (m : Model) (config : Config) (i : Item) (e : Edge) : Placement → Prop where
  /-- No internals are reached. -/
  | requirement (kind : e.kind.touchesInternals = false) :
      Placed m config i e ⟨.functionSafety1, .classificationViolation, true⟩
  /-- A constructor of the struct has to establish the invariant. -/
  | constructor (s : Struct) (kind : e.kind.touchesInternals = true)
      (known : m.struct? e.target = some s) (owner : i.owner = some e.target)
      (builds : i.constructor = true) :
      Placed m config i e ⟨.structSafety1, .classificationViolation, true⟩
  /-- Another item of the struct has to keep it if it can be named outside the boundary. -/
  | method (s : Struct) (scope : Scope) (kind : e.kind.touchesInternals = true)
      (known : m.struct? e.target = some s) (owner : i.owner = some e.target)
      (uses : i.constructor = false) (found : m.scopeOf i.path = .ok scope)
      (exposed : Boundary.escapes ⟨e.target, s.module, config.criterion⟩ scope = true) :
      Placed m config i e ⟨.structSafety2, .classificationViolation, true⟩
  /-- A foreign item has to keep it outside the boundary, or if it can be named there. -/
  | foreign (s : Struct) (kind : e.kind.touchesInternals = true)
      (known : m.struct? e.target = some s) (owner : i.owner ≠ some e.target)
      (reaches : Boundary.contains ⟨e.target, s.module, config.criterion⟩ i = true →
        ∃ scope, m.scopeOf i.path = .ok scope ∧
          Boundary.escapes ⟨e.target, s.module, config.criterion⟩ scope = true) :
      Placed m config i e ⟨.structBoundary1, .boundaryViolation, false⟩

theorem placement_eq_some_iff {p : Placement} :
    m.placement config i e = .ok (some p) ↔ m.Placed config i e p := by
  unfold placement
  cases hkind : e.kind.touchesInternals with
  | false =>
    constructor
    · intro h
      cases h
      exact .requirement hkind
    · rintro (_ | ⟨_, kind⟩ | ⟨_, _, kind⟩ | ⟨_, kind⟩)
      · rfl
      all_goals
        rw [hkind] at kind
        cases kind
  | true =>
    simp only [Bool.not_true, Bool.false_eq_true, if_false, Outcome.bind_eq_ok_iff,
      boundaryOf_eq_ok_iff]
    constructor
    · rintro ⟨_, ⟨s, hs, rfl⟩, h⟩
      split at h
      case isTrue howner =>
        have howner : i.owner = some e.target := by simpa using howner
        split at h
        case isTrue hcon =>
          cases h
          exact .constructor s hkind hs howner hcon
        case isFalse hcon =>
          obtain ⟨exposed, hexposed, h⟩ := Outcome.bind_eq_ok_iff.mp h
          cases exposed <;> cases h
          obtain ⟨scope, hscope, hescapes⟩ := exposedOutside_eq_ok_iff.mp hexposed
          exact .method s scope hkind hs howner (by simpa using hcon) hscope hescapes
      case isFalse howner =>
        have howner : i.owner ≠ some e.target := by simpa using howner
        split at h
        case isTrue =>
          obtain ⟨exposed, hexposed, h⟩ := Outcome.bind_eq_ok_iff.mp h
          cases exposed <;> cases h
          exact .foreign s hkind hs howner fun _ => exposedOutside_eq_ok_iff.mp hexposed
        case isFalse hcontains =>
          cases h
          exact .foreign s hkind hs howner fun hin => absurd hin hcontains
    · intro h
      cases h with
      | requirement kind => simp [hkind] at kind
      | constructor s _ known owner builds =>
        exact ⟨_, ⟨s, known, rfl⟩, by simp [owner, builds, pure, Except.pure]⟩
      | method s scope _ known owner uses found exposed =>
        refine ⟨_, ⟨s, known, rfl⟩, ?_⟩
        simp [owner, uses, exposedOutside, found, exposed, bind, Except.bind, pure, Except.pure]
      | foreign s _ known owner reaches =>
        refine ⟨_, ⟨s, known, rfl⟩, ?_⟩
        rw [if_neg (by simpa using owner)]
        split
        case isTrue hin =>
          obtain ⟨scope, hscope, hescapes⟩ := reaches hin
          simp [exposedOutside, hscope, hescapes, bind, Except.bind, pure, Except.pure]
        case isFalse => rfl

/-- An obligation that passes on breaks the classification, any other one the boundary. -/
theorem placement_cases {p : Placement} (h : m.placement config i e = .ok (some p)) :
    p.propagates = true ∧ p.state = .classificationViolation ∨
      p.propagates = false ∧ p.state = .boundaryViolation := by
  cases placement_eq_some_iff.mp h with
  | requirement | constructor | method => exact .inl ⟨rfl, rfl⟩
  | foreign => exact .inr ⟨rfl, rfl⟩

theorem rank_of_placement {p : Placement} (h : m.placement config i e = .ok (some p)) :
    2 ≤ p.state.rank := by
  rcases placement_cases h with ⟨-, hs⟩ | ⟨-, hs⟩ <;> simp [hs, TerminalState.rank]

/-- Coverage is looked at for obligations that are neither discharged nor tolerated. -/
theorem coverageOf_eq_some_iff {contract : Condition} {p : Placement} {c : Coverage} :
    m.coverageOf config i contract e = .ok (some (p, c)) ↔ e.isDischarged = false ∧
      m.placement config i e = .ok (some p) ∧
        c = Coverage.check e.outstanding e.site.guards contract (m.invariantFor i) := by
  unfold coverageOf
  split
  case isTrue hd => simp [hd, pure, Except.pure]
  case isFalse hd =>
    rw [Outcome.bind_eq_ok_iff]
    simp only [hd, true_and]
    constructor
    · rintro ⟨result, hp, h⟩
      cases result with
      | none => cases h
      | some p' =>
        cases h
        exact ⟨hp, rfl⟩
    · rintro ⟨hp, rfl⟩
      exact ⟨_, hp, rfl⟩

/-- An obligation that is not discharged has a placement as soon as its coverage is known. -/
theorem exists_placement_of_coverageOf {contract : Condition} {result : Option (Placement × Coverage)}
    (hd : e.isDischarged = false) (h : m.coverageOf config i contract e = .ok result) :
    ∃ placed, m.placement config i e = .ok placed := by
  unfold coverageOf at h
  rw [hd, if_neg Bool.false_ne_true] at h
  obtain ⟨placed, hplaced, -⟩ := Outcome.bind_eq_ok_iff.mp h
  exact ⟨placed, hplaced⟩

section Items

variable {contract : Condition} {edges : List Edge} {gaps : List Uncovered} {relies : Bool}
  {findings : List Finding}

/-- Exactly the obligations with missing atoms are uncovered, and the invariant is relied on exactly if one
of the coverages does. -/
theorem uncovered_spec (h : m.uncovered config i contract edges = .ok (gaps, relies)) :
    (∀ e ∈ edges, ∃ result, m.coverageOf config i contract e = .ok result) ∧
      (∀ u, u ∈ gaps ↔ u.edge ∈ edges ∧ ∃ c,
        m.coverageOf config i contract u.edge = .ok (some (u.placement, c)) ∧
          c.missing = some u.missing) ∧
      (relies = true ↔ ∃ e ∈ edges, ∃ p c,
        m.coverageOf config i contract e = .ok (some (p, c)) ∧ c.reliesOnInvariant = true) := by
  obtain ⟨results, hresults, h⟩ := Outcome.bind_eq_ok_iff.mp h
  cases h
  have hall : List.Forall₂ (fun e r => r.1 = e ∧ m.coverageOf config i contract e = .ok r.2)
      edges results := by
    refine (Outcome.mapM_eq_ok_iff.mp hresults).imp fun e r hr => ?_
    obtain ⟨result, hc, hr⟩ := Outcome.bind_eq_ok_iff.mp hr
    cases hr
    exact ⟨rfl, hc⟩
  -- the results are the obligations, each with its coverage
  have hmem : ∀ e result,
      (e, result) ∈ results ↔ e ∈ edges ∧ m.coverageOf config i contract e = .ok result := by
    intro e result
    constructor
    · intro hr
      obtain ⟨e', he', rfl, hc⟩ := exists_left_of_forall₂ hall hr
      exact ⟨he', hc⟩
    · rintro ⟨he, hc⟩
      obtain ⟨⟨e', result'⟩, hr, rfl, hc'⟩ := exists_right_of_forall₂ hall he
      rw [hc] at hc'
      cases hc'
      exact hr
  refine ⟨fun e he => ?_, fun u => ?_, ?_⟩
  · obtain ⟨r, -, -, hc⟩ := exists_right_of_forall₂ hall he
    exact ⟨r.2, hc⟩
  · rw [List.mem_filterMap]
    constructor
    · rintro ⟨⟨e, result⟩, hr, hu⟩
      obtain ⟨he, hc⟩ := (hmem e result).mp hr
      cases result with
      | none => cases hu
      | some pc =>
        obtain ⟨missing, hm, rfl⟩ := Option.map_eq_some_iff.mp hu
        exact ⟨he, pc.2, hc, hm⟩
    · rintro ⟨he, c, hc, hm⟩
      exact ⟨_, (hmem _ _).mpr ⟨he, hc⟩, Option.map_eq_some_iff.mpr ⟨_, hm, rfl⟩⟩
  · rw [List.any_eq_true]
    constructor
    · rintro ⟨⟨e, result⟩, hr, hu⟩
      obtain ⟨he, hc⟩ := (hmem e result).mp hr
      obtain ⟨⟨p, c⟩, rfl, hrel⟩ := (Option.any_eq_true _ _).mp hu
      exact ⟨e, he, p, c, hc, hrel⟩
    · rintro ⟨e, he, p, c, hc, hrel⟩
      exact ⟨_, (hmem _ _).mpr ⟨he, hc⟩, (Option.any_eq_true _ _).mpr ⟨_, rfl, hrel⟩⟩

theorem placement_of_mem_uncovered (h : m.uncovered config i contract edges = .ok (gaps, relies))
    {u : Uncovered} (hu : u ∈ gaps) : m.placement config i u.edge = .ok (some u.placement) := by
  obtain ⟨-, c, hc, -⟩ := ((uncovered_spec h).2.1 u).mp hu
  exact (coverageOf_eq_some_iff.mp hc).2.1

/-- Every uncovered obligation ranks above the sound states. -/
theorem eq_nil_of_uncovered (h : m.uncovered config i contract edges = .ok (gaps, relies))
    (hall : ∀ u ∈ gaps, u.placement.state.rank ≤ 1) : gaps = [] := by
  refine List.eq_nil_iff_forall_not_mem.mpr fun u hu => ?_
  have hrank := rank_of_placement (placement_of_mem_uncovered h hu)
  have hle := hall u hu
  omega

theorem escape_spec {u : Uncovered} {f : Finding} (h : m.escape config i u = .ok f) :
    f.severity = .violation ∧ f.state = u.placement.state := by
  obtain ⟨boundary, -, h⟩ := Outcome.bind_eq_ok_iff.mp h
  cases h
  exact ⟨rfl, rfl⟩

/-- Each obligation that does not pass on is a violation of the rank of its placement. -/
theorem stuckFindings_spec (h : m.stuckFindings config i gaps = .ok findings)
    (hg : ∀ u ∈ gaps, m.placement config i u.edge = .ok (some u.placement)) :
    List.Forall₂ (fun u f => f.severity = .violation ∧ f.state.rank = u.placement.state.rank)
      (gaps.filter fun u => !passesOn config i u) findings := by
  have hplaced : ∀ u ∈ gaps.filter fun u => !passesOn config i u,
      m.placement config i u.edge = .ok (some u.placement) :=
    fun u hu => hg u (List.mem_of_mem_filter hu)
  have hboth := (List.forall₂_and_left _ _).mpr ⟨hplaced, Outcome.mapM_eq_ok_iff.mp h⟩
  refine hboth.imp fun u f ⟨hp, hf⟩ => ?_
  rcases placement_cases hp with ⟨hprop, hs⟩ | ⟨hprop, hs⟩
  · simp only [hprop, if_true] at hf
    cases hf
    exact ⟨rfl, by rw [hs]; rfl⟩
  · simp only [hprop, Bool.false_eq_true, if_false] at hf
    obtain ⟨hsev, hstate⟩ := escape_spec hf
    exact ⟨hsev, by rw [hstate]⟩

theorem rankedWithin_stuckFindings_iff (h : m.stuckFindings config i gaps = .ok findings)
    (hg : ∀ u ∈ gaps, m.placement config i u.edge = .ok (some u.placement)) :
    RankedWithin n findings ↔
      ∀ u ∈ gaps, passesOn config i u = false → u.placement.state.rank ≤ n := by
  rw [RankedWithin.iff_of_forall₂ (stuckFindings_spec h hg)]
  simp only [List.mem_filter, Bool.not_eq_true', and_imp]

/-- The declaration of an item does not fit its requirements: unsafe without any, or safe with some. -/
def Misdeclared (i : Item) (passed : List Uncovered) : Prop :=
  i.requirements.documented.isEmpty = i.declaredUnsafe ∧ (i.declaredUnsafe = true → passed = [])

theorem rankedWithin_classify_iff {passed : List Uncovered} :
    RankedWithin n (classify i passed) ↔
      (∀ u ∈ passed, 2 ≤ n) ∧ (Misdeclared i passed → 2 ≤ n) := by
  have hmap : ∀ (rule : Uncovered → Rule) (explanation : Uncovered → String),
      RankedWithin n (passed.map fun u => violation i.path .classificationViolation (rule u)
        (explanation u) u.edge.line) ↔ ∀ u ∈ passed, 2 ≤ n := by
    intro rule explanation
    simp [RankedWithin, violation, TerminalState.rank]
  unfold classify Misdeclared
  dsimp only
  split
  case isTrue hu =>
    rw [RankedWithin.append_iff, hmap, and_comm]
    refine and_congr_right fun _ => ?_
    split <;> simp_all [TerminalState.rank]
  case isFalse hu =>
    rw [RankedWithin.append_iff, hmap]
    refine and_congr_right fun _ => ?_
    split <;> simp_all [TerminalState.rank]

/-- The findings of an item that implements no trait method stay within a rank exactly if reliance on the
invariant, the uncovered obligations and the declaration do. -/
theorem plainFindings_spec (h : m.plainFindings config i edges = .ok findings) :
    ∃ gaps relies, m.uncovered config i i.contract edges = .ok (gaps, relies) ∧
      ∀ n, RankedWithin n findings ↔
        (relies = true → i.requirements.hasMarker = false → 2 ≤ n) ∧
        (∀ u ∈ gaps, u.placement.state.rank ≤ n) ∧
        (Misdeclared i (gaps.filter (passesOn config i)) → 2 ≤ n) := by
  obtain ⟨⟨gaps, relies⟩, hgaps, h⟩ := Outcome.bind_eq_ok_iff.mp h
  obtain ⟨stuck, hstuck, h⟩ := Outcome.bind_eq_ok_iff.mp h
  cases h
  refine ⟨gaps, relies, hgaps, fun n => ?_⟩
  have hplaced : ∀ u ∈ gaps, m.placement config i u.edge = .ok (some u.placement) :=
    fun u hu => placement_of_mem_uncovered hgaps hu
  -- an obligation that passes on ranks as a violation of the classification
  have hpassed : (∀ u ∈ gaps.filter (passesOn config i), 2 ≤ n) ↔
      ∀ u ∈ gaps, passesOn config i u = true → u.placement.state.rank ≤ n := by
    simp only [List.mem_filter, and_imp]
    refine forall₂_congr fun u hu => forall_congr' fun hp => ?_
    rcases placement_cases (hplaced u hu) with ⟨-, hs⟩ | ⟨hprop, -⟩
    · simp [hs, TerminalState.rank]
    · simp [passesOn, hprop] at hp
  rw [RankedWithin.append_iff, RankedWithin.append_iff, rankedWithin_classify_iff,
    rankedWithin_stuckFindings_iff hstuck hplaced, hpassed, and_assoc, ← and_assoc (c := Misdeclared _ _ → _)]
  refine and_congr ?_ (and_congr_left fun _ => ?_)
  · split <;> simp_all [TerminalState.rank]
  · constructor
    · rintro ⟨hs, hp⟩ u hu
      cases hpass : passesOn config i u with
      | false => exact hs u hu hpass
      | true => exact hp u hu hpass
    · intro hall
      exact ⟨fun u hu _ => hall u hu, fun u hu _ => hall u hu⟩

/-- What an item may assume of its callers against the trait method that it implements. -/
def assumedFrom (declared : Item) (contract : Condition) : Condition :=
  if declared.declaredUnsafe then contract else {}

/-- The findings of an implementation stay within a rank exactly if its demands on callers and its uncovered
obligations do. -/
theorem implementationFindings_spec {declared : Item}
    (h : m.implementationFindings config i declared edges = .ok findings) :
    ∃ contract gaps relies, traitContract declared i = .ok contract ∧
      m.uncovered config i (assumedFrom declared contract) edges = .ok (gaps, relies) ∧
      ∀ n, RankedWithin n findings ↔
        (i.declaredUnsafe = true → declared.declaredUnsafe = false → 4 ≤ n) ∧
        (i.requirements.documented.entailedBy contract = false → 4 ≤ n) ∧
        ∀ u ∈ gaps, (if u.placement.propagates then 4 else u.placement.state.rank) ≤ n := by
  obtain ⟨contract, hcontract, h⟩ := Outcome.bind_eq_ok_iff.mp h
  obtain ⟨⟨gaps, relies⟩, hgaps, h⟩ := Outcome.bind_eq_ok_iff.mp h
  obtain ⟨reported, hreported, h⟩ := Outcome.bind_eq_ok_iff.mp h
  cases h
  refine ⟨contract, gaps, relies, Outcome.mapError_eq_ok_iff.mp hcontract,
    Outcome.mapError_eq_ok_iff.mp hgaps, fun n => ?_⟩
  have hrank : List.Forall₂ (fun u f => f.severity = .violation ∧
      f.state.rank = if u.placement.propagates then 4 else u.placement.state.rank) gaps reported := by
    refine (Outcome.mapM_eq_ok_iff.mp hreported).imp fun u f hf => ?_
    cases hprop : u.placement.propagates with
    | true =>
      simp only [hprop, if_true] at hf
      cases hf
      exact ⟨rfl, rfl⟩
    | false =>
      simp only [hprop, Bool.false_eq_true, if_false, Outcome.mapError_eq_ok_iff] at hf
      obtain ⟨hsev, hstate⟩ := escape_spec hf
      exact ⟨hsev, by rw [hstate]; rfl⟩
  rw [RankedWithin.append_iff, RankedWithin.append_iff, RankedWithin.iff_of_forall₂ hrank, and_assoc]
  refine and_congr ?_ (and_congr_left fun _ => ?_)
  · split <;> simp_all [TerminalState.rank]
  · split <;> simp_all [TerminalState.rank]

/-- The contract under which the body of an item is checked: that of the trait method that it implements,
or its own. -/
def assumedContract (m : Model) (i : Item) : Except PredicateError Condition :=
  match i.implements?.bind m.item? with
  | some declared => assumedFrom declared <$> traitContract declared i
  | none => .ok i.contract

theorem severity_recommendation {path explanation : String} {declaredUnsafe : Bool} {rule : Rule}
    {line : Option Int} : ∀ f ∈ recommendation config path declaredUnsafe rule explanation line,
      f.severity = .recommended := by
  intro f hf
  unfold recommendation at hf
  split at hf <;> simp_all

/-- What is found at an obligation as such are recommendations. -/
theorem severity_recommendationsAt : ∀ f ∈ recommendationsAt config i e, f.severity = .recommended := by
  intro f hf
  unfold recommendationsAt at hf
  dsimp only at hf
  split at hf
  case h_1 =>
    split at hf
    · exact severity_recommendation f hf
    · cases hf
  case h_2 =>
    simp only [List.mem_append, List.mem_flatMap] at hf
    rcases hf with ⟨claim, -, hf⟩ | ⟨claim, -, hf⟩ <;> exact severity_recommendation f hf

theorem rankedWithin_recommendationsAt : RankedWithin n (recommendationsAt config i e) :=
  .of_recommended severity_recommendationsAt

/-- The findings of an item rank as its malformed requirements and the findings against its declaration,
or against that of the trait method that it implements. -/
theorem itemFindings_spec (h : m.itemFindings config edges i = .ok findings) :
    ∃ rest, (∀ n, RankedWithin n findings ↔
        RankedWithin n (m.issueFindings i.path) ∧ RankedWithin n rest) ∧
      match i.implements?.bind m.item? with
      | some declared => m.implementationFindings config i declared edges = .ok rest
      | none => m.plainFindings config i edges = .ok rest := by
  have hrec : ∀ n, RankedWithin n (edges.flatMap (recommendationsAt config i)) := by
    intro n f hf
    obtain ⟨e, -, hf⟩ := List.mem_flatMap.mp hf
    exact rankedWithin_recommendationsAt f hf
  unfold itemFindings at h
  dsimp only at h
  split at h
  case h_1 declared hd =>
    obtain ⟨rest, hrest, h⟩ := Outcome.bind_eq_ok_iff.mp h
    cases h
    refine ⟨rest, fun n => ?_, by simpa only [hd] using hrest⟩
    rw [RankedWithin.append_iff, RankedWithin.append_iff, and_iff_left (hrec n)]
  case h_2 hd =>
    obtain ⟨rest, hrest, h⟩ := Outcome.bind_eq_ok_iff.mp h
    cases h
    refine ⟨rest, fun n => ?_, by simpa only [hd] using Outcome.mapError_eq_ok_iff.mp hrest⟩
    rw [RankedWithin.append_iff, RankedWithin.append_iff, and_iff_left (hrec n)]

/-- An item without a violation above the sound states has no uncovered obligation. -/
theorem uncovered_of_itemFindings (h : m.itemFindings config edges i = .ok findings)
    (hr : RankedWithin 1 findings) :
    ∃ contract relies, m.assumedContract i = .ok contract ∧
      m.uncovered config i contract edges = .ok ([], relies) := by
  obtain ⟨rest, hiff, hrest⟩ := itemFindings_spec h
  have hwithin := ((hiff 1).mp hr).2
  unfold assumedContract
  split at hrest
  case h_1 declared hd =>
    obtain ⟨contract, gaps, relies, hcontract, hgaps, hiff⟩ := implementationFindings_spec hrest
    obtain ⟨-, -, hall⟩ := (hiff 1).mp hwithin
    have hranks : ∀ u ∈ gaps, u.placement.state.rank ≤ 1 := by
      intro u hu
      have hle := hall u hu
      split at hle <;> omega
    rw [eq_nil_of_uncovered hgaps hranks] at hgaps
    exact ⟨assumedFrom declared contract, relies, by rw [hcontract]; rfl, hgaps⟩
  case h_2 hd =>
    obtain ⟨gaps, relies, hgaps, hiff⟩ := plainFindings_spec hrest
    obtain ⟨-, hall, -⟩ := (hiff 1).mp hwithin
    rw [eq_nil_of_uncovered hgaps hall] at hgaps
    exact ⟨i.contract, relies, rfl, hgaps⟩

/-- An implementation without a violation above the sound states demands nothing beyond its trait method. -/
theorem demands_of_itemFindings {declared : Item} (h : m.itemFindings config edges i = .ok findings)
    (hr : RankedWithin 1 findings) (hd : i.implements?.bind m.item? = some declared) :
    ∃ contract, traitContract declared i = .ok contract ∧
      (i.declaredUnsafe = true → declared.declaredUnsafe = true) ∧
      i.requirements.documented.entailedBy contract = true := by
  obtain ⟨rest, hiff, hrest⟩ := itemFindings_spec h
  simp only [hd] at hrest
  obtain ⟨contract, gaps, relies, hcontract, -, hranks⟩ := implementationFindings_spec hrest
  obtain ⟨hflag, hdemands, -⟩ := (hranks 1).mp ((hiff 1).mp hr).2
  refine ⟨contract, hcontract, fun hi => ?_, ?_⟩
  · by_contra hne
    have := hflag hi (by simpa using hne)
    omega
  · by_contra hne
    have := hdemands (by simpa using hne)
    omega

end Items

/-- The findings of a struct rank as its malformed invariant and the exposure of its fields. -/
theorem structFindings_spec {s : Struct} {findings : List Finding}
    (h : m.structFindings config s = .ok findings) :
    RankedWithin n findings ↔ RankedWithin n (m.issueFindings s.path) ∧
      ∀ name ∈ s.invariantFields,
        m.fieldExposed s name ⟨s.path, s.module, config.criterion⟩ = .ok true → 3 ≤ n := by
  obtain ⟨exposed, hexposed, h⟩ := Outcome.bind_eq_ok_iff.mp h
  cases h
  rw [RankedWithin.append_iff]
  refine and_congr_right fun _ => ?_
  simp only [RankedWithin, List.forall_mem_map, violation, TerminalState.rank, true_implies,
    Outcome.mem_of_filterM_eq_ok hexposed, and_imp]

end Model

/-- All findings are violations that rank above the sound states. -/
def Violating (findings : List Finding) : Prop :=
  ∀ f ∈ findings, f.severity = .violation ∧ 2 ≤ f.state.rank

namespace Violating

theorem nil : Violating [] := by
  simp [Violating]

theorem append {left right : List Finding} (hl : Violating left) (hr : Violating right) :
    Violating (left ++ right) :=
  List.forall_mem_append.mpr ⟨hl, hr⟩

theorem single {path explanation : String} {state : TerminalState} {rule : Rule} {line : Option Int}
    (h : 2 ≤ state.rank) : Violating [Model.violation path state rule explanation line] := by
  intro f hf
  rw [List.mem_singleton.mp hf]
  exact ⟨rfl, h⟩

theorem map {α : Type} {l : List α} {f : α → Finding} (state : TerminalState) (hr : 2 ≤ state.rank)
    (h : ∀ a ∈ l, (f a).severity = .violation ∧ (f a).state = state) : Violating (l.map f) := by
  refine List.forall_mem_map.mpr fun a ha => ⟨(h a ha).1, ?_⟩
  rw [(h a ha).2]
  exact hr

theorem ite {c : Prop} [Decidable c] {left right : List Finding} (hl : Violating left)
    (hr : Violating right) : Violating (if c then left else right) := by
  split
  · exact hl
  · exact hr

end Violating

namespace Model

variable {m : Model} {config : Config} {i : Item} {edges : List Edge} {findings : List Finding}

theorem violating_issueFindings (path : String) : Violating (m.issueFindings path) :=
  .map .malformedRequirement (by decide) fun _ _ => ⟨rfl, rfl⟩

theorem violating_classify (passed : List Uncovered) : Violating (classify i passed) := by
  have hmap : ∀ (rule : Uncovered → Rule) (explanation : Uncovered → String),
      Violating (passed.map fun u => violation i.path .classificationViolation (rule u) (explanation u)
        u.edge.line) :=
    fun rule explanation => .map .classificationViolation (by decide) fun _ _ => ⟨rfl, rfl⟩
  unfold classify
  dsimp only
  split
  · exact .append (.ite (.single (by decide)) .nil) (hmap _ _)
  · exact .append (hmap _ _) (.ite .nil (.single (by decide)))

theorem violating_plainFindings (h : m.plainFindings config i edges = .ok findings) :
    Violating findings := by
  obtain ⟨⟨gaps, relies⟩, hgaps, h⟩ := Outcome.bind_eq_ok_iff.mp h
  obtain ⟨stuck, hstuck, h⟩ := Outcome.bind_eq_ok_iff.mp h
  cases h
  have hplaced : ∀ u ∈ gaps, m.placement config i u.edge = .ok (some u.placement) :=
    fun u hu => placement_of_mem_uncovered hgaps hu
  have hviolating : Violating stuck := by
    intro f hf
    obtain ⟨u, hu, hsev, hrank⟩ := exists_left_of_forall₂ (stuckFindings_spec hstuck hplaced) hf
    rw [hrank]
    exact ⟨hsev, rank_of_placement (hplaced u (List.mem_of_mem_filter hu))⟩
  exact .append (.append (.ite (.single (by decide)) .nil) hviolating) (violating_classify _)

theorem violating_implementationFindings {declared : Item}
    (h : m.implementationFindings config i declared edges = .ok findings) : Violating findings := by
  obtain ⟨contract, -, h⟩ := Outcome.bind_eq_ok_iff.mp h
  obtain ⟨⟨gaps, relies⟩, hgaps, h⟩ := Outcome.bind_eq_ok_iff.mp h
  obtain ⟨reported, hreported, h⟩ := Outcome.bind_eq_ok_iff.mp h
  cases h
  have hviolating : Violating reported := by
    intro f hf
    obtain ⟨u, hu, hfound⟩ := exists_left_of_forall₂ (Outcome.mapM_eq_ok_iff.mp hreported) hf
    split at hfound
    · cases hfound
      exact ⟨rfl, show 2 ≤ TerminalState.contractStrengthening.rank by decide⟩
    · obtain ⟨hsev, hstate⟩ := escape_spec (Outcome.mapError_eq_ok_iff.mp hfound)
      have hplaced := placement_of_mem_uncovered (Outcome.mapError_eq_ok_iff.mp hgaps) hu
      rw [hstate]
      exact ⟨hsev, rank_of_placement hplaced⟩
  exact .append (.append (.ite (.single (by decide)) .nil) (.ite .nil (.single (by decide)))) hviolating

theorem violating_structFindings {s : Struct} (h : m.structFindings config s = .ok findings) :
    Violating findings := by
  obtain ⟨exposed, -, h⟩ := Outcome.bind_eq_ok_iff.mp h
  cases h
  exact .append (violating_issueFindings s.path)
    (.map .boundaryViolation (by decide) fun _ _ => ⟨rfl, rfl⟩)

theorem violating_traitFindings (t : Trait) : Violating (m.traitFindings t) := by
  refine .append (violating_issueFindings t.path) ?_
  split
  · exact .single (by decide)
  · exact .single (by decide)
  · exact .nil

end Model

end CrateSafety
