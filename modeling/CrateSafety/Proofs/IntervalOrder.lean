import CrateSafety.Proofs.IntervalMembership
import Mathlib.Data.Prod.Lex

/-!
# The order of intervals

The ends of an interval are cuts of the line: beside a point, before it or after it. Raising and lowering an end
is then taking the greater or the lesser of two cuts, so that an interval is tighter than a constrained one
exactly if it is tighter than the one before and keeps within the comparison. What a looser interval satisfies,
a tighter one does, although satisfaction is not exact: a closed end that is also taken out still counts.
-/

namespace CrateSafety

/-- A cut of the line beside a point: before it (`false`) or after it (`true`). -/
abbrev Cut := Line ×ₗ Bool

/-- The cut before the point of a number, or after it. -/
def Double.cut (value : Double) (after : Bool) : Cut := toLex (value.point, after)

theorem Double.cut_le_cut {a b : Double} {after after' : Bool} :
    a.cut after ≤ b.cut after' ↔ a.point < b.point ∨ a.point = b.point ∧ after ≤ after' :=
  Prod.Lex.toLex_le_toLex

theorem Double.cut_lt_cut {a b : Double} {after after' : Bool} :
    a.cut after < b.cut after' ↔ a.point < b.point ∨ a.point = b.point ∧ after < after' :=
  Prod.Lex.toLex_lt_toLex

theorem Double.cut_before_le {a b : Double} {after : Bool} :
    a.cut false ≤ b.cut after ↔ a.point ≤ b.point := by
  rw [cut_le_cut, and_iff_left (Bool.false_le after), le_iff_lt_or_eq]

theorem Double.cut_le_after {a b : Double} {after : Bool} :
    a.cut after ≤ b.cut true ↔ a.point ≤ b.point := by
  rw [cut_le_cut, and_iff_left (Bool.le_true after), le_iff_lt_or_eq]

namespace Interval

/-- Where an interval begins: before a closed lower end, after an open one. -/
def start (i : Interval) : Cut := i.lo.cut (!i.loClosed)

/-- Where an interval stops: after a closed upper end, before an open one. -/
def stop (i : Interval) : Cut := i.hi.cut i.hiClosed

/-- A cut from below begins at the later of two cuts. -/
theorem start_raise (i : Interval) (closed : Bool) (value : Double) :
    (i.raise closed value).start = max i.start (value.cut !closed) := by
  have hcut : (i.lo.lt value || (!closed && i.lo.same value && i.loClosed)) = true ↔
      i.start < value.cut !closed := by
    rw [start, Double.cut_lt_cut]
    simp only [Bool.or_eq_true, Bool.and_eq_true, Bool.not_eq_true', Double.lt_iff_point,
      Double.same_iff_point]
    cases closed <;> cases i.loClosed <;> simp
  unfold raise
  split
  case isTrue h => exact (max_eq_right (hcut.mp h).le).symm
  case isFalse h => exact (max_eq_left (not_lt.mp (mt hcut.mpr h))).symm

/-- A cut from above stops at the earlier of two cuts. -/
theorem stop_lower (i : Interval) (closed : Bool) (value : Double) :
    (i.lower closed value).stop = min i.stop (value.cut closed) := by
  have hcut : (value.lt i.hi || (!closed && i.hi.same value && i.hiClosed)) = true ↔
      value.cut closed < i.stop := by
    rw [stop, Double.cut_lt_cut]
    simp only [Bool.or_eq_true, Bool.and_eq_true, Bool.not_eq_true', Double.lt_iff_point,
      Double.same_iff_point, eq_comm (a := i.hi.point)]
    cases closed <;> cases i.hiClosed <;> simp
  unfold lower
  split
  case isTrue h => exact (min_eq_right (hcut.mp h).le).symm
  case isFalse h => exact (min_eq_left (not_lt.mp (mt hcut.mpr h))).symm

@[simp] theorem stop_raise (i : Interval) (closed : Bool) (value : Double) :
    (i.raise closed value).stop = i.stop := by
  unfold raise
  split <;> rfl

@[simp] theorem start_lower (i : Interval) (closed : Bool) (value : Double) :
    (i.lower closed value).start = i.start := by
  unfold lower
  split <;> rfl

@[simp] theorem excluded_raise (i : Interval) (closed : Bool) (value : Double) :
    (i.raise closed value).excluded = i.excluded := by
  unfold raise
  split <;> rfl

@[simp] theorem excluded_lower (i : Interval) (closed : Bool) (value : Double) :
    (i.lower closed value).excluded = i.excluded := by
  unfold lower
  split <;> rfl

/-- The ends of an interval, or a point taken out of it, keep it within a comparison. -/
def KeepsTo (i : Interval) (op : Comparison) (value : Double) : Prop :=
  match op with
  | .lt => i.stop ≤ value.cut false
  | .le => i.stop ≤ value.cut true
  | .gt => value.cut true ≤ i.start
  | .ge => value.cut false ≤ i.start
  | .eq => value.cut false ≤ i.start ∧ i.stop ≤ value.cut true
  | .ne => i.excludes value = true

/-- An interval lies between the ends of another one and lacks every point that the other one lacks. -/
structure Tighter (j i : Interval) : Prop where
  /-- It begins no earlier. -/
  start : i.start ≤ j.start
  /-- It stops no later. -/
  stop : j.stop ≤ i.stop
  /-- What the other one takes out is taken out of it. -/
  excluded : ∀ d ∈ i.excluded, j.excludes d = true

theorem Tighter.refl (i : Interval) : i.Tighter i :=
  ⟨le_rfl, le_rfl, fun d hd => (excludes_iff i d).mpr ⟨d, hd, rfl⟩⟩

theorem Tighter.excludes {i j : Interval} (h : j.Tighter i) {value : Double}
    (he : i.excludes value = true) : j.excludes value = true := by
  obtain ⟨d, hd, hpoint⟩ := (excludes_iff i value).mp he
  obtain ⟨d', hd', hpoint'⟩ := (excludes_iff j d).mp (h.excluded d hd)
  exact (excludes_iff j value).mpr ⟨d', hd', hpoint.trans hpoint'⟩

theorem tighter_raise {i j : Interval} {closed : Bool} {value : Double} :
    j.Tighter (i.raise closed value) ↔ j.Tighter i ∧ value.cut (!closed) ≤ j.start := by
  constructor
  · rintro ⟨hstart, hstop, hout⟩
    rw [start_raise, max_le_iff] at hstart
    rw [stop_raise] at hstop
    rw [excluded_raise] at hout
    exact ⟨⟨hstart.1, hstop, hout⟩, hstart.2⟩
  · rintro ⟨⟨hstart, hstop, hout⟩, hcut⟩
    refine ⟨?_, ?_, ?_⟩
    · rw [start_raise]
      exact max_le hstart hcut
    · rwa [stop_raise]
    · rwa [excluded_raise]

theorem tighter_lower {i j : Interval} {closed : Bool} {value : Double} :
    j.Tighter (i.lower closed value) ↔ j.Tighter i ∧ j.stop ≤ value.cut closed := by
  constructor
  · rintro ⟨hstart, hstop, hout⟩
    rw [stop_lower, le_min_iff] at hstop
    rw [start_lower] at hstart
    rw [excluded_lower] at hout
    exact ⟨⟨hstart, hstop.1, hout⟩, hstop.2⟩
  · rintro ⟨⟨hstart, hstop, hout⟩, hcut⟩
    refine ⟨?_, ?_, ?_⟩
    · rwa [start_lower]
    · rw [stop_lower]
      exact le_min hstop hcut
    · rwa [excluded_lower]

/-- Constraining takes the loosest interval that is tighter and keeps to the comparison. -/
theorem tighter_constrain {i j : Interval} {op : Comparison} {value : Double} :
    j.Tighter (i.constrain op value) ↔ j.Tighter i ∧ j.KeepsTo op value := by
  cases op with
  | lt => exact tighter_lower
  | le => exact tighter_lower
  | gt => exact tighter_raise
  | ge => exact tighter_raise
  | eq => exact tighter_lower.trans ((and_congr_left' tighter_raise).trans and_assoc)
  | ne =>
    unfold constrain KeepsTo
    dsimp only
    split
    case isTrue h => exact ⟨fun hj => ⟨hj, hj.excludes h⟩, And.left⟩
    case isFalse h =>
      constructor
      · rintro ⟨hstart, hstop, hout⟩
        exact ⟨⟨hstart, hstop, fun d hd => hout d (List.mem_append_left _ hd)⟩, hout value (by simp)⟩
      · rintro ⟨⟨hstart, hstop, hout⟩, hvalue⟩
        refine ⟨hstart, hstop, fun d hd => ?_⟩
        rcases List.mem_append.mp hd with hd | hd
        · exact hout d hd
        · rwa [List.mem_singleton.mp hd]

/-- A tighter interval keeps to what a looser one keeps to. -/
theorem KeepsTo.mono {i j : Interval} {op : Comparison} {value : Double} (h : j.Tighter i)
    (hk : i.KeepsTo op value) : j.KeepsTo op value := by
  cases op with
  | lt => exact h.stop.trans hk
  | le => exact h.stop.trans hk
  | gt => exact le_trans hk h.start
  | ge => exact le_trans hk h.start
  | eq => exact ⟨hk.1.trans h.start, h.stop.trans hk.2⟩
  | ne => exact h.excludes hk

/-- An interval that does not count as empty has its ends in order. -/
theorem lo_le_hi_of_isEmpty {i : Interval} (h : i.isEmpty = false) : i.lo.point ≤ i.hi.point := by
  unfold isEmpty at h
  split at h
  case isTrue => cases h
  case isFalse hlt =>
    rw [Double.lt_iff_point, not_lt] at hlt
    exact hlt

/-- What an interval satisfies, unless it counts as empty: what it keeps to, and to differ from a number also
if it lies on one side of it. -/
theorem satisfies_iff {i : Interval} (h : i.isEmpty = false) {op : Comparison} {value : Double} :
    i.satisfies op value = true ↔
      i.KeepsTo op value ∨ op = .ne ∧ (i.KeepsTo .lt value ∨ i.KeepsTo .gt value) := by
  have hends := lo_le_hi_of_isEmpty h
  unfold satisfies
  rw [h, Bool.false_or]
  cases op with
  | lt =>
    simp only [KeepsTo, stop, Double.cut_le_cut, Bool.or_eq_true, Bool.and_eq_true, Bool.not_eq_true',
      Double.lt_iff_point, Double.same_iff_point, reduceCtorEq, false_and, or_false]
    cases i.hiClosed <;> simp
  | le =>
    simp only [KeepsTo, stop, Double.cut_le_after, Double.le_iff_point, reduceCtorEq, false_and, or_false]
  | gt =>
    simp only [KeepsTo, start, Double.cut_le_cut, Bool.or_eq_true, Bool.and_eq_true, Bool.not_eq_true',
      Double.lt_iff_point, Double.same_iff_point, reduceCtorEq, false_and, or_false]
    cases i.loClosed <;> simp [eq_comm]
  | ge =>
    simp only [KeepsTo, start, Double.cut_before_le, Double.le_iff_point, reduceCtorEq, false_and, or_false]
  | eq =>
    simp only [KeepsTo, start, stop, Double.cut_before_le, Double.cut_le_after, Bool.and_eq_true,
      Double.same_iff_point, reduceCtorEq, false_and, or_false]
    constructor
    · rintro ⟨heq, hvalue⟩
      exact ⟨(heq.trans hvalue).ge, hvalue.le⟩
    · rintro ⟨hge, hle⟩
      exact ⟨le_antisymm hends (hle.trans hge), le_antisymm hle (hge.trans hends)⟩
  | ne =>
    simp only [KeepsTo, start, stop, Double.cut_le_cut, Bool.or_eq_true, Bool.and_eq_true,
      Bool.not_eq_true', Double.lt_iff_point, Double.same_iff_point, true_and]
    cases i.loClosed <;> cases i.hiClosed <;> simp <;> tauto

/-- What a looser interval satisfies, a tighter one does. -/
theorem satisfies_of_tighter {i j : Interval} (h : j.Tighter i) (hi : i.isEmpty = false)
    (hj : j.isEmpty = false) {op : Comparison} {value : Double} (hs : i.satisfies op value = true) :
    j.satisfies op value = true := by
  rw [satisfies_iff hj]
  refine ((satisfies_iff hi).mp hs).imp (.mono h) (And.imp_right ?_)
  exact Or.imp (.mono h) (.mono h)

/-- Only the point of a number matters to an interval. -/
theorem satisfies_eq_of_point (i : Interval) (op : Comparison) {value value' : Double}
    (h : value.point = value'.point) : i.satisfies op value = i.satisfies op value' := by
  rw [Bool.eq_iff_iff]
  cases op
  all_goals
    simp only [satisfies, Bool.or_eq_true, Bool.and_eq_true, Double.lt_iff_point, Double.same_iff_point,
      Double.le_iff_point, excludes_iff, h]

theorem keepsTo_of_point {i : Interval} {op : Comparison} {value value' : Double}
    (h : value.point = value'.point) (hk : i.KeepsTo op value) : i.KeepsTo op value' := by
  have hcut (after : Bool) : value.cut after = value'.cut after := by
    rw [Double.cut, h, Double.cut]
  cases op
  all_goals simpa only [KeepsTo, hcut, excludes_iff, h] using hk

end Interval

end CrateSafety
