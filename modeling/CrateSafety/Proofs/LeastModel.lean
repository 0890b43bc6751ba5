import CrateSafety.Proofs.Valuation
import Mathlib.Algebra.Order.Field.Basic
import Mathlib.Algebra.Order.Field.Rat
import Mathlib.Order.Interval.Set.Infinite

/-!
# Models of satisfiable conjunctions

The logic overlooks no contradiction: atoms that it takes to be satisfiable are true together in some
valuation. The numbers of that valuation are found in the intervals, where a gap between two ends holds more
rationals than finitely many points can take out of it, and its truth values are the least ones possible.
-/

namespace CrateSafety

namespace Line

/-- What lies between two points is a rational. -/
theorem exists_ofRat_eq {a b x : Line} (ha : a < x) (hb : x < b) : ∃ q : ℚ, ofRat q = x := by
  have hbot : x ≠ ⊥ := (bot_le.trans_lt ha).ne'
  obtain ⟨y, rfl⟩ := WithBot.ne_bot_iff_exists.mp hbot
  have htop : y ≠ ⊤ := by
    rintro rfl
    exact not_top_lt hb
  obtain ⟨q, rfl⟩ := WithTop.ne_top_iff_exists.mp htop
  exact ⟨q, rfl⟩

/-- Between two points there is a rational beside any finite number of points. -/
theorem exists_ofRat_between {a b : Line} (hab : a < b) (points : List Line) :
    ∃ q : ℚ, a < ofRat q ∧ ofRat q < b ∧ ofRat q ∉ points := by
  have hinfinite : (Set.Ioo a b).Infinite := Set.Ioo_infinite hab
  obtain ⟨x, hx, hnot⟩ := hinfinite.exists_notMem_finset points.toFinset
  obtain ⟨q, rfl⟩ := exists_ofRat_eq hx.1 hx.2
  exact ⟨q, hx.1, hx.2, by simpa using hnot⟩

end Line

namespace Interval

/-- An interval holds a rational of each gap that reaches in between its ends. -/
theorem exists_contains_between {i : Interval} {a b : Line} (hends : max i.lo.point a < min i.hi.point b) :
    ∃ x, i.Contains x ∧ a < Line.ofRat x ∧ Line.ofRat x < b := by
  obtain ⟨x, hlow, hhigh, hkept⟩ := Line.exists_ofRat_between hends (i.excluded.map Double.point)
  rw [max_lt_iff] at hlow
  rw [lt_min_iff] at hhigh
  refine ⟨x, ⟨.inl hlow.1, .inl hhigh.1, fun d hd heq => hkept ?_⟩, hlow.2, hhigh.2⟩
  rw [heq]
  exact List.mem_map_of_mem hd

/-- Infinite ends do not belong to the interval. -/
structure OpenAtInfinity (i : Interval) : Prop where
  /-- A lower end without a value is open. -/
  lower : i.lo.point = ⊥ → i.loClosed = false
  /-- An upper end without a value is open. -/
  upper : i.hi.point = ⊤ → i.hiClosed = false

theorem openAtInfinity_full : ({} : Interval).OpenAtInfinity :=
  ⟨fun _ => rfl, fun _ => rfl⟩

namespace OpenAtInfinity

variable {i : Interval}

theorem raise (h : i.OpenAtInfinity) (closed : Bool) (value : Double) :
    (i.raise closed value).OpenAtInfinity := by
  unfold Interval.raise
  split
  case isFalse => exact h
  case isTrue hcut =>
    refine ⟨fun hbot => ?_, h.upper⟩
    change value.point = ⊥ at hbot
    simp only [Bool.or_eq_true, Bool.and_eq_true, Bool.not_eq_true', Double.lt_iff_point, hbot] at hcut
    rcases hcut with hlt | ⟨⟨hopen, -⟩, -⟩
    · exact absurd hlt not_lt_bot
    · exact hopen

theorem cutAbove (h : i.OpenAtInfinity) (closed : Bool) (value : Double) :
    (i.lower closed value).OpenAtInfinity := by
  unfold Interval.lower
  split
  case isFalse => exact h
  case isTrue hcut =>
    refine ⟨h.lower, fun htop => ?_⟩
    change value.point = ⊤ at htop
    simp only [Bool.or_eq_true, Bool.and_eq_true, Bool.not_eq_true', Double.lt_iff_point, htop] at hcut
    rcases hcut with hlt | ⟨⟨hopen, -⟩, -⟩
    · exact absurd hlt not_top_lt
    · exact hopen

/-- Constraints leave infinite ends open. -/
theorem constrain (h : i.OpenAtInfinity) (op : Comparison) (value : Double) :
    (i.constrain op value).OpenAtInfinity := by
  cases op with
  | lt => exact h.cutAbove false value
  | le => exact h.cutAbove true value
  | gt => exact h.raise false value
  | ge => exact h.raise true value
  | eq => exact (h.raise true value).cutAbove true value
  | ne =>
    unfold Interval.constrain
    dsimp only
    split
    · exact h
    · exact ⟨h.lower, h.upper⟩

/-- An interval of one point holds it, unless it has been taken out. -/
theorem exists_contains_of_point (h : i.OpenAtInfinity) (he : i.lo.point = i.hi.point)
    (hlo : i.loClosed = true) (hhi : i.hiClosed = true) (hkept : i.excludes i.lo = false) :
    ∃ x, i.Contains x := by
  have hbot : i.lo.point ≠ ⊥ := fun hb => by simp [h.lower hb] at hlo
  have htop : i.lo.point ≠ ⊤ := fun ht => by simp [h.upper (he ▸ ht)] at hhi
  obtain ⟨q, hq⟩ := Line.exists_ofRat_eq (bot_lt_iff_ne_bot.mpr hbot) (lt_top_iff_ne_top.mpr htop)
  refine ⟨q, .inr ⟨hlo, hq.symm⟩, .inr ⟨hhi, hq.trans he⟩, fun d hd heq => ?_⟩
  have hex : i.excludes i.lo = true := (excludes_iff i i.lo).mpr ⟨d, hd, hq.symm.trans heq⟩
  rw [hkept] at hex
  cases hex

/-- An interval that does not count as empty holds a rational. -/
theorem exists_contains (h : i.OpenAtInfinity) (he : i.isEmpty = false) : ∃ x, i.Contains x := by
  unfold isEmpty at he
  split at he
  case isTrue => cases he
  case isFalse hle =>
    rw [Double.lt_iff_point, not_lt] at hle
    split at he
    case isTrue hsame =>
      simp only [Bool.or_eq_false_iff, Bool.not_eq_false', Bool.and_eq_true] at he
      exact h.exists_contains_of_point ((Double.same_iff_point _ _).mp hsame) he.1.1 he.1.2 he.2
    case isFalse hsame =>
      have hne : i.lo.point ≠ i.hi.point := fun heq => hsame ((Double.same_iff_point _ _).mpr heq)
      have hends : max i.lo.point ⊥ < min i.hi.point ⊤ := by
        rw [max_bot_right, min_top_right]
        exact lt_of_le_of_ne hle hne
      obtain ⟨q, hq, -⟩ := exists_contains_between hends
      exact ⟨q, hq⟩

end OpenAtInfinity

end Interval

namespace Ranges

variable {ranges : Ranges}

/-- Intervals as they arise from bounds: one for each subject, open where they are infinite. -/
structure WellFormed (ranges : Ranges) : Prop where
  /-- No subject has two intervals. -/
  distinct : (ranges.map (·.1)).Nodup
  /-- Infinite ends are open. -/
  openEnds : ∀ entry ∈ ranges, entry.2.OpenAtInfinity

/-- A bound brings in its subject and no other. -/
theorem mem_subjects_constrain {bound : Bound} {subject : String} :
    subject ∈ (ranges.constrain bound).map (·.1) ↔
      subject ∈ ranges.map (·.1) ∨ subject = bound.subject := by
  induction ranges with
  | nil => simp [constrain]
  | cons entry rest ih =>
    obtain ⟨first, interval⟩ := entry
    unfold constrain
    split
    case isTrue hfirst =>
      have heq : first = bound.subject := by simpa using hfirst
      simp only [List.map_cons, List.mem_cons, heq]
      tauto
    case isFalse => simp only [List.map_cons, List.mem_cons, ih, or_assoc]

theorem WellFormed.constrain (h : ranges.WellFormed) (bound : Bound) :
    (ranges.constrain bound).WellFormed := by
  induction ranges with
  | nil =>
    refine ⟨by simp [Ranges.constrain], fun entry he => ?_⟩
    rw [Ranges.constrain, List.mem_singleton] at he
    rw [he]
    exact Interval.openAtInfinity_full.constrain bound.op bound.value
  | cons entry rest ih =>
    obtain ⟨first, interval⟩ := entry
    have hfirst := h.openEnds (first, interval) List.mem_cons_self
    have hrest : WellFormed rest :=
      ⟨(List.nodup_cons.mp h.distinct).2, fun e he => h.openEnds e (List.mem_cons_of_mem _ he)⟩
    have hnew : first ∉ rest.map (·.1) := (List.nodup_cons.mp h.distinct).1
    unfold Ranges.constrain
    split
    case isTrue =>
      refine ⟨h.distinct, List.forall_mem_cons.mpr ⟨?_, hrest.openEnds⟩⟩
      exact hfirst.constrain bound.op bound.value
    case isFalse hne =>
      have hsubject : first ≠ bound.subject := by simpa using hne
      refine ⟨List.nodup_cons.mpr ⟨?_, (ih hrest).distinct⟩,
        List.forall_mem_cons.mpr ⟨hfirst, (ih hrest).openEnds⟩⟩
      intro hmem
      exact (mem_subjects_constrain.mp hmem).elim hnew hsubject

theorem WellFormed.foldl (bounds : List Bound) (h : ranges.WellFormed) :
    (bounds.foldl Ranges.constrain ranges).WellFormed := by
  induction bounds generalizing ranges with
  | nil => exact h
  | cons bound rest ih => exact ih (h.constrain bound)

theorem wellFormed_ofAtoms (atoms : Conjunction) : (ofAtoms atoms).WellFormed :=
  WellFormed.foldl _ ⟨List.nodup_nil, fun _ he => absurd he List.not_mem_nil⟩

/-- Where no interval counts as empty, every subject can be given a number of its interval. -/
theorem WellFormed.exists_number (h : ranges.WellFormed)
    (he : ∀ entry ∈ ranges, entry.2.isEmpty = false) : ∃ number, ranges.Contains number := by
  induction ranges with
  | nil => exact ⟨fun _ => 0, fun _ he => absurd he List.not_mem_nil⟩
  | cons entry rest ih =>
    obtain ⟨subject, interval⟩ := entry
    obtain ⟨hsubject, hdistinct⟩ := List.nodup_cons.mp h.distinct
    obtain ⟨hopen, hopens⟩ := List.forall_mem_cons.mp h.openEnds
    obtain ⟨hempty, hempties⟩ := List.forall_mem_cons.mp he
    obtain ⟨x, hx⟩ := hopen.exists_contains hempty
    obtain ⟨number, hnumber⟩ := ih ⟨hdistinct, hopens⟩ hempties
    refine ⟨Function.update number subject x, List.forall_mem_cons.mpr ⟨?_, fun e hmem => ?_⟩⟩
    · rw [Function.update_self]
      exact hx
    · have hne : e.1 ≠ subject := fun heq => hsubject (List.mem_map.mpr ⟨e, hmem, heq⟩)
      rw [Function.update_of_ne hne]
      exact hnumber e hmem

end Ranges

namespace Conjunction

variable {atoms : Conjunction}

/-- The least truth values that make the atoms true. -/
def leastTruth (atoms : Conjunction) (key : String) : Bool :=
  key == "True" || atoms.hasKey key

theorem leastTruth_key {a : Atom} (ha : a ∈ atoms) : atoms.leastTruth a.key = true := by
  have hkey : atoms.hasKey a.key = true := List.any_eq_true.mpr ⟨a, ha, by simp⟩
  rw [leastTruth, hkey, Bool.or_true]

/-- What satisfiability amounts to: no constant falsehood, no negation of an atom, no empty interval. -/
theorem satisfiable_eq_true_iff : atoms.satisfiable = true ↔
    atoms.hasKey "False" = false ∧
      (∀ a ∈ atoms, ∀ key, a.negates = some key → atoms.hasKey key = false) ∧
      ∀ entry ∈ Ranges.ofAtoms atoms, entry.2.isEmpty = false := by
  simp only [satisfiable, Bool.and_eq_true, Bool.not_eq_true', List.any_eq_false, Bool.not_eq_true,
    Option.any_eq_false_iff_get, and_assoc]
  refine and_congr_right fun _ => and_congr_left fun _ => ?_
  refine forall₂_congr fun a _ => ?_
  cases a.negates with
  | none => simp
  | some key => simp

/-- Atoms that are satisfiable are true together in some valuation. -/
theorem exists_model_of_satisfiable (hn : ∀ a ∈ atoms, a.negates ≠ some "True")
    (h : atoms.satisfiable = true) : ∃ v : Valuation, v.Admits atoms ∧ atoms.Holds v := by
  obtain ⟨hfalse, hnegates, hempty⟩ := satisfiable_eq_true_iff.mp h
  obtain ⟨number, hnumber⟩ := (Ranges.wellFormed_ofAtoms atoms).exists_number hempty
  have hbounds := (Ranges.contains_ofAtoms atoms number).mp hnumber
  refine ⟨⟨atoms.leastTruth, number⟩, ⟨rfl, ?_, fun a ha b hb => ?_, fun a ha key hkey => ?_⟩,
    fun a ha => leastTruth_key ha⟩
  · simp [leastTruth, hfalse]
  · simp only [leastTruth_key ha, true_iff]
    exact hbounds a ha b hb
  · -- the negated key is no key of an atom, and it is not that of the constant either
    have hne : key ≠ "True" := fun heq => hn a ha (heq ▸ hkey)
    have hleast : atoms.leastTruth key = false := by
      rw [leastTruth, hnegates a ha key hkey, beq_eq_false_iff_ne.mpr hne, Bool.or_false]
    simp only [leastTruth_key ha, hleast, Bool.not_false]

end Conjunction

/-- Atoms of which none negates the constant for truth are satisfiable exactly if they are true together in
some admissible valuation, and what atoms entail is true in every admissible valuation that makes them
true. -/
theorem satisfiable_exact_and_entails_sound :
    (∀ atoms : Conjunction, (∀ a ∈ atoms, a.negates ≠ some "True") →
      (atoms.satisfiable = true ↔ ∃ v : Valuation, v.Admits atoms ∧ atoms.Holds v)) ∧
    ∀ (assumptions : Conjunction) (target : Atom), assumptions.entails target = true →
      ∀ v : Valuation, v.Admits (target :: assumptions) → assumptions.Holds v →
        v.truth target.key = true := by
  constructor
  · intro atoms hnegates
    constructor
    · exact Conjunction.exists_model_of_satisfiable hnegates
    · rintro ⟨v, hadmits, hholds⟩
      exact Conjunction.satisfiable_of_holds hadmits hholds
  · intro assumptions target hentails v hadmits hholds
    exact Conjunction.truth_of_entails hadmits hholds hentails

/-- Bounds that leave a gap without its middle, beside a negation. -/
def openWindow : List String := ["0 < x and x < 1 and x != 0.5", "not busy(x)"]

/-- The open window has a valuation, and whatever is true in it stays above its lower end. -/
theorem openWindow_has_model :
    ∃ c target, Condition.ofLines openWindow = .ok c ∧ (∀ a ∈ c.atoms, a.negates ≠ some "True") ∧
      c.atoms.satisfiable = true ∧ (∃ v : Valuation, v.Admits c.atoms ∧ c.atoms.Holds v) ∧
      target.bound = some ⟨"x", .ge, .finite 0⟩ ∧ c.atoms.entails target = true ∧
      ∃ v : Valuation, v.Admits (target :: c.atoms) ∧ c.atoms.Holds v ∧
        v.truth target.key = true := by
  -- a quarter lies in the window
  let v : Valuation := ⟨fun key => key != "False" && key != "busy ( x )", fun _ => 1 / 4⟩
  have hcheck : ((Condition.ofLines openWindow).toOption.any fun c =>
      (Condition.ofLines ["x >= 0"]).toOption.any fun b =>
        decide (∀ a ∈ c.atoms, a.negates ≠ some "True") && c.atoms.satisfiable &&
          b.atoms.any fun target => decide (target.bound = some ⟨"x", .ge, .finite 0⟩) &&
            c.atoms.entails target && decide (v.Admits (target :: c.atoms)) &&
              decide (c.atoms.Holds v)) = true := by
    decide +kernel
  cases hc : Condition.ofLines openWindow with
  | error e => simp [hc, Except.toOption] at hcheck
  | ok c =>
    simp only [hc, Except.toOption, Option.any_some, Option.any_eq_true, Bool.and_eq_true,
      decide_eq_true_eq, List.any_eq_true] at hcheck
    obtain ⟨b, -, ⟨hnegates, hsat⟩, target, -, ⟨⟨hbound, hentails⟩, hadmits⟩, hholds⟩ := hcheck
    obtain ⟨hexact, hsound⟩ := satisfiable_exact_and_entails_sound
    exact ⟨c, target, rfl, hnegates, hsat, (hexact c.atoms hnegates).mp hsat, hbound, hentails, v,
      hadmits, hholds, hsound c.atoms target hentails v hadmits hholds⟩

end CrateSafety
