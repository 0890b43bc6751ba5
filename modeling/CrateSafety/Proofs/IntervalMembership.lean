import CrateSafety.Interval
import Mathlib.Algebra.Order.Ring.Rat
import Mathlib.Order.WithBot

/-!
# Membership of rationals in punctured intervals

Numbers are points of the line of rationals with both infinities. A rational lies in an interval that has
been constrained exactly if it lay in it before and compares as stated, an interval that counts as empty
holds no rational, and a comparison that an interval is said to satisfy holds of every rational in it.
-/

namespace CrateSafety

/-- The rationals with both infinities. -/
abbrev Line := WithBot (WithTop ℚ)

/-- A rational as a point of the line. -/
def Line.ofRat (x : ℚ) : Line := ((x : WithTop ℚ) : Line)

namespace Line

@[simp] theorem ofRat_lt_ofRat {x y : ℚ} : ofRat x < ofRat y ↔ x < y := by simp [ofRat]

@[simp] theorem ofRat_inj {x y : ℚ} : ofRat x = ofRat y ↔ x = y := by simp [ofRat]

@[simp] theorem bot_lt_ofRat (x : ℚ) : ⊥ < ofRat x := WithBot.bot_lt_coe _

@[simp] theorem ofRat_lt_top (x : ℚ) : ofRat x < ⊤ :=
  WithBot.coe_lt_coe.mpr (WithTop.coe_lt_top x)

end Line

namespace Double

/-- The point of the line that a number stands for; both zeros are one point. -/
def point : Double → Line
  | negInf => ⊥
  | negZero => Line.ofRat 0
  | finite q => Line.ofRat q
  | posInf => ⊤

theorem lt_iff_point (a b : Double) : a.lt b = true ↔ a.point < b.point := by
  cases a <;> cases b <;> simp only [lt, point, decide_eq_true_iff] <;> simp [rational]

theorem same_iff_point (a b : Double) : a.same b = true ↔ a.point = b.point := by
  have hb (x : ℚ) := (Line.bot_lt_ofRat x).ne
  have ht (x : ℚ) := (Line.ofRat_lt_top x).ne
  cases a <;> cases b <;> simp only [same, point, decide_eq_true_iff] <;>
    simp [rational, hb, ht, (hb _).symm, (ht _).symm]

theorem le_iff_point (a b : Double) : a.le b = true ↔ a.point ≤ b.point := by
  rw [le, Bool.or_eq_true, lt_iff_point, same_iff_point, le_iff_lt_or_eq]

end Double

namespace Comparison

/-- How the comparison relates two points. -/
def Relates (op : Comparison) (a b : Line) : Prop :=
  match op with
  | lt => a < b
  | le => a ≤ b
  | gt => b < a
  | ge => b ≤ a
  | eq => a = b
  | ne => a ≠ b

instance (op : Comparison) (a b : Line) : Decidable (op.Relates a b) :=
  match op with
  | lt => inferInstanceAs (Decidable (a < b))
  | le => inferInstanceAs (Decidable (a ≤ b))
  | gt => inferInstanceAs (Decidable (b < a))
  | ge => inferInstanceAs (Decidable (b ≤ a))
  | eq => inferInstanceAs (Decidable (a = b))
  | ne => inferInstanceAs (Decidable (a ≠ b))

/-- Whether a rational compares as stated with a number. -/
def Holds (op : Comparison) (x : ℚ) (value : Double) : Prop :=
  op.Relates (Line.ofRat x) value.point

instance (op : Comparison) (x : ℚ) (value : Double) : Decidable (op.Holds x value) :=
  inferInstanceAs (Decidable (op.Relates _ _))

end Comparison

namespace Interval

/-- A rational lies between the ends of an interval and is not taken out of it. -/
structure Contains (i : Interval) (x : ℚ) : Prop where
  /-- It lies above the lower end, or at a closed one. -/
  above : i.lo.point < Line.ofRat x ∨ i.loClosed = true ∧ i.lo.point = Line.ofRat x
  /-- It lies below the upper end, or at a closed one. -/
  below : Line.ofRat x < i.hi.point ∨ i.hiClosed = true ∧ Line.ofRat x = i.hi.point
  /-- It is none of the points taken out. -/
  kept : ∀ d ∈ i.excluded, Line.ofRat x ≠ d.point

theorem Contains.lo_le {i : Interval} {x : ℚ} (hx : i.Contains x) : i.lo.point ≤ Line.ofRat x :=
  hx.above.elim le_of_lt fun h => h.2.le

theorem Contains.le_hi {i : Interval} {x : ℚ} (hx : i.Contains x) : Line.ofRat x ≤ i.hi.point :=
  hx.below.elim le_of_lt fun h => h.2.le

/-- The full line contains every rational. -/
theorem contains_full (x : ℚ) : ({} : Interval).Contains x :=
  ⟨.inl (Line.bot_lt_ofRat x), .inl (Line.ofRat_lt_top x), by simp⟩

theorem excludes_iff (i : Interval) (value : Double) :
    i.excludes value = true ↔ ∃ d ∈ i.excluded, value.point = d.point := by
  simp only [excludes, List.any_eq_true, Double.same_iff_point]

/-- A cut from below keeps the rationals above the cut. -/
theorem contains_raise (i : Interval) (closed : Bool) (value : Double) (x : ℚ) :
    (i.raise closed value).Contains x ↔
      i.Contains x ∧ (value.point < Line.ofRat x ∨ closed = true ∧ value.point = Line.ofRat x) := by
  unfold raise
  split
  case isTrue h =>
    simp only [Bool.or_eq_true, Bool.and_eq_true, Bool.not_eq_true', Double.lt_iff_point,
      Double.same_iff_point] at h
    constructor
    · rintro ⟨ha, hb, hk⟩
      refine ⟨⟨?_, hb, hk⟩, ha⟩
      rcases h with h | ⟨⟨rfl, he⟩, hc⟩
      · rcases ha with ha | ⟨-, ha⟩
        · exact .inl (h.trans ha)
        · exact .inl (ha ▸ h)
      · rcases ha with ha | ⟨hf, -⟩
        · exact .inl (he ▸ ha)
        · cases hf
    · rintro ⟨⟨-, hb, hk⟩, ha⟩
      exact ⟨ha, hb, hk⟩
  case isFalse h =>
    simp only [Bool.or_eq_true, Bool.and_eq_true, Bool.not_eq_true', Double.lt_iff_point,
      Double.same_iff_point, not_or, not_lt, not_and] at h
    refine ⟨fun hx => ⟨hx, ?_⟩, And.left⟩
    obtain ⟨hle, hne⟩ := h
    rcases hx.above with ha | ⟨hc, ha⟩
    · exact .inl (hle.trans_lt ha)
    · rcases hle.lt_or_eq with hlt | heq
      · exact .inl (ha ▸ hlt)
      · cases closed with
        | true => exact .inr ⟨rfl, heq.trans ha⟩
        | false => exact absurd hc (hne ⟨rfl, heq.symm⟩)

/-- A cut from above keeps the rationals below the cut. -/
theorem contains_lower (i : Interval) (closed : Bool) (value : Double) (x : ℚ) :
    (i.lower closed value).Contains x ↔
      i.Contains x ∧ (Line.ofRat x < value.point ∨ closed = true ∧ Line.ofRat x = value.point) := by
  unfold lower
  split
  case isTrue h =>
    simp only [Bool.or_eq_true, Bool.and_eq_true, Bool.not_eq_true', Double.lt_iff_point,
      Double.same_iff_point] at h
    constructor
    · rintro ⟨ha, hb, hk⟩
      refine ⟨⟨ha, ?_, hk⟩, hb⟩
      rcases h with h | ⟨⟨rfl, he⟩, hc⟩
      · rcases hb with hb | ⟨-, hb⟩
        · exact .inl (hb.trans h)
        · exact .inl (hb ▸ h)
      · rcases hb with hb | ⟨hf, -⟩
        · exact .inl (he ▸ hb)
        · cases hf
    · rintro ⟨⟨ha, -, hk⟩, hb⟩
      exact ⟨ha, hb, hk⟩
  case isFalse h =>
    simp only [Bool.or_eq_true, Bool.and_eq_true, Bool.not_eq_true', Double.lt_iff_point,
      Double.same_iff_point, not_or, not_lt, not_and] at h
    refine ⟨fun hx => ⟨hx, ?_⟩, And.left⟩
    obtain ⟨hle, hne⟩ := h
    rcases hx.below with hb | ⟨hc, hb⟩
    · exact .inl (hb.trans_le hle)
    · rcases hle.lt_or_eq with hlt | heq
      · exact .inl (hb ▸ hlt)
      · cases closed with
        | true => exact .inr ⟨rfl, hb.trans heq⟩
        | false => exact absurd hc (hne ⟨rfl, heq⟩)

/-- A constraint keeps exactly the rationals that compare as stated. -/
theorem contains_constrain (i : Interval) (op : Comparison) (value : Double) (x : ℚ) :
    (i.constrain op value).Contains x ↔ i.Contains x ∧ op.Holds x value := by
  cases op with
  | lt => simp [constrain, contains_lower, Comparison.Holds, Comparison.Relates]
  | le =>
    simp [constrain, contains_lower, Comparison.Holds, Comparison.Relates, le_iff_lt_or_eq]
  | gt => simp [constrain, contains_raise, Comparison.Holds, Comparison.Relates]
  | ge =>
    simp [constrain, contains_raise, Comparison.Holds, Comparison.Relates, le_iff_lt_or_eq]
  | eq =>
    simp only [constrain, contains_lower, contains_raise, Comparison.Holds, Comparison.Relates,
      true_and, ← le_iff_lt_or_eq]
    constructor
    · rintro ⟨⟨hx, hge⟩, hle⟩
      exact ⟨hx, le_antisymm hle hge⟩
    · rintro ⟨hx, he⟩
      exact ⟨⟨hx, he.ge⟩, he.le⟩
  | ne =>
    simp only [constrain, Comparison.Holds, Comparison.Relates]
    split
    case isTrue h =>
      obtain ⟨d, hd, he⟩ := (excludes_iff i value).mp h
      exact ⟨fun hx => ⟨hx, he ▸ hx.kept d hd⟩, And.left⟩
    case isFalse h =>
      constructor
      · rintro ⟨ha, hb, hk⟩
        exact ⟨⟨ha, hb, fun d hd => hk d (List.mem_append_left _ hd)⟩, hk value (by simp)⟩
      · rintro ⟨⟨ha, hb, hk⟩, hv⟩
        refine ⟨ha, hb, fun d hd => ?_⟩
        rcases List.mem_append.mp hd with hd | hd
        · exact hk d hd
        · rwa [List.mem_singleton.mp hd]

/-- An interval that counts as empty holds no rational. -/
theorem not_contains_of_isEmpty {i : Interval} (h : i.isEmpty = true) (x : ℚ) : ¬ i.Contains x := by
  intro hx
  have hlo := hx.lo_le
  have hhi := hx.le_hi
  obtain ⟨ha, hb, hk⟩ := hx
  unfold isEmpty at h
  split at h
  case isTrue hlt => exact absurd ((Double.lt_iff_point _ _).mp hlt) (hlo.trans hhi).not_gt
  case isFalse =>
    split at h
    case isTrue hs =>
      have he : i.lo.point = i.hi.point := (Double.same_iff_point _ _).mp hs
      have hx : Line.ofRat x = i.lo.point := le_antisymm (he ▸ hhi) hlo
      have hlc : i.loClosed = true := ha.elim (fun hlt => absurd hx hlt.ne') And.left
      have hhc : i.hiClosed = true := hb.elim (fun hlt => absurd (hx.trans he) hlt.ne) And.left
      simp only [hlc, hhc, Bool.and_self, Bool.not_true, Bool.false_or] at h
      obtain ⟨d, hd, hp⟩ := (excludes_iff i i.lo).mp h
      exact hk d hd (hx.trans hp)
    case isFalse => cases h

/-- A comparison that an interval satisfies holds of every rational in it. -/
theorem holds_of_satisfies {i : Interval} {op : Comparison} {value : Double}
    (h : i.satisfies op value = true) {x : ℚ} (hx : i.Contains x) : op.Holds x value := by
  have hlo := hx.lo_le
  have hhi := hx.le_hi
  have hloOpen : i.loClosed = false → i.lo.point < Line.ofRat x := fun ho =>
    hx.above.resolve_right fun hc => by simp [ho] at hc
  have hhiOpen : i.hiClosed = false → Line.ofRat x < i.hi.point := fun ho =>
    hx.below.resolve_right fun hc => by simp [ho] at hc
  unfold satisfies at h
  rw [Bool.or_eq_true] at h
  rcases h with h | h
  · exact absurd hx (not_contains_of_isEmpty h x)
  · cases op with
    | lt =>
      simp only [Bool.or_eq_true, Bool.and_eq_true, Bool.not_eq_true', Double.lt_iff_point,
        Double.same_iff_point] at h
      rcases h with h | ⟨he, ho⟩
      · exact hhi.trans_lt h
      · exact (hhiOpen ho).trans_eq he
    | le => exact hhi.trans ((Double.le_iff_point _ _).mp h)
    | gt =>
      simp only [Bool.or_eq_true, Bool.and_eq_true, Bool.not_eq_true', Double.lt_iff_point,
        Double.same_iff_point] at h
      rcases h with h | ⟨he, ho⟩
      · exact h.trans_le hlo
      · exact he.symm.trans_lt (hloOpen ho)
    | ge => exact ((Double.le_iff_point _ _).mp h).trans hlo
    | eq =>
      simp only [Bool.and_eq_true, Double.same_iff_point] at h
      exact le_antisymm (hhi.trans_eq h.2) ((h.1.trans h.2).symm.trans_le hlo)
    | ne =>
      simp only [Bool.or_eq_true, Bool.and_eq_true, Bool.not_eq_true', Double.lt_iff_point,
        Double.same_iff_point, excludes_iff] at h
      intro he
      rcases h with (((⟨d, hd, hp⟩ | h) | h) | ⟨hv, ho⟩) | ⟨hv, ho⟩
      · exact hx.kept d hd (he.trans hp)
      · exact absurd h (he ▸ hlo).not_gt
      · exact absurd h (he ▸ hhi).not_gt
      · exact absurd (he.trans hv) (hhiOpen ho).ne
      · exact absurd (he.trans hv) (hloOpen ho).ne'

end Interval

end CrateSafety
