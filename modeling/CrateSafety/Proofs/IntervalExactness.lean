import CrateSafety.Proofs.IntervalOrder
import CrateSafety.Proofs.LeastModel

/-!
# Intervals as exact summaries of constraints

An interval that starts as the full line and is constrained again and again holds exactly the rationals that
satisfy all constraints, in whatever order and however often they come. It counts as empty exactly if there
are none, since the rationals are dense. The comparisons that it satisfies are those of all its rationals,
with one exception: a strict comparison with a closed end that has been taken out is overlooked.
-/

namespace CrateSafety

namespace Interval

/-- The interval that is left by constraints, one after the other. -/
def constrained (calls : List (Comparison × Double)) : Interval :=
  calls.foldl (fun i call => i.constrain call.1 call.2) {}

theorem contains_foldl_constrain (i : Interval) (calls : List (Comparison × Double)) (x : ℚ) :
    (calls.foldl (fun i call => i.constrain call.1 call.2) i).Contains x ↔
      i.Contains x ∧ ∀ call ∈ calls, call.1.Holds x call.2 := by
  induction calls generalizing i with
  | nil => simp
  | cons call rest ih => rw [List.foldl_cons, ih, contains_constrain, List.forall_mem_cons, and_assoc]

theorem contains_constrained (calls : List (Comparison × Double)) (x : ℚ) :
    (constrained calls).Contains x ↔ ∀ call ∈ calls, call.1.Holds x call.2 := by
  rw [constrained, contains_foldl_constrain, and_iff_right (contains_full x)]

theorem OpenAtInfinity.foldl_constrain {i : Interval} (h : i.OpenAtInfinity)
    (calls : List (Comparison × Double)) :
    (calls.foldl (fun i call => i.constrain call.1 call.2) i).OpenAtInfinity := by
  induction calls generalizing i with
  | nil => exact h
  | cons call rest ih => exact ih (h.constrain call.1 call.2)

theorem openAtInfinity_constrained (calls : List (Comparison × Double)) :
    (constrained calls).OpenAtInfinity :=
  openAtInfinity_full.foldl_constrain calls

section Ends

variable {i : Interval} {point : Line}

/-- A bound on all rationals of an interval is one on its upper end, unless it counts as empty. -/
theorem OpenAtInfinity.hi_le (ho : i.OpenAtInfinity) (he : i.isEmpty = false)
    (h : ∀ x, i.Contains x → Line.ofRat x ≤ point) : i.hi.point ≤ point := by
  by_contra hlt
  rw [not_le] at hlt
  rcases (lo_le_hi_of_isEmpty he).lt_or_eq with hends | hends
  · have hgap : max i.lo.point point < min i.hi.point ⊤ := by
      rw [min_top_right]
      exact max_lt hends hlt
    obtain ⟨x, hx, habove, -⟩ := exists_contains_between hgap
    exact habove.not_ge (h x hx)
  · obtain ⟨x, hx⟩ := ho.exists_contains he
    have hhi : i.hi.point ≤ Line.ofRat x := hends ▸ hx.lo_le
    exact hlt.not_ge (hhi.trans (h x hx))

/-- A lower bound on all rationals of an interval is one on its lower end, unless it counts as empty. -/
theorem OpenAtInfinity.le_lo (ho : i.OpenAtInfinity) (he : i.isEmpty = false)
    (h : ∀ x, i.Contains x → point ≤ Line.ofRat x) : point ≤ i.lo.point := by
  by_contra hlt
  rw [not_le] at hlt
  rcases (lo_le_hi_of_isEmpty he).lt_or_eq with hends | hends
  · have hgap : max i.lo.point ⊥ < min i.hi.point point := by
      rw [max_bot_right]
      exact lt_min hends hlt
    obtain ⟨x, hx, -, hbelow⟩ := exists_contains_between hgap
    exact hbelow.not_ge (h x hx)
  · obtain ⟨x, hx⟩ := ho.exists_contains he
    have hlo : Line.ofRat x ≤ i.lo.point := hends ▸ hx.le_hi
    exact hlt.not_ge ((h x hx).trans hlo)

/-- A number that is none of the rationals of an interval is taken out of it or lies on one side of it. -/
theorem OpenAtInfinity.apart (ho : i.OpenAtInfinity) {value : Double}
    (h : ∀ x, i.Contains x → Line.ofRat x ≠ value.point) :
    i.KeepsTo .ne value ∨ i.KeepsTo .lt value ∨ i.KeepsTo .gt value := by
  by_contra hnot
  simp only [not_or, KeepsTo, not_le, start, stop, Double.cut_lt_cut] at hnot
  obtain ⟨hkept, hhi, hlo⟩ := hnot
  have habove : i.lo.point < value.point ∨ i.loClosed = true ∧ i.lo.point = value.point :=
    hlo.imp_right fun hat => ⟨by simpa [Bool.lt_iff] using hat.2, hat.1⟩
  have hbelow : value.point < i.hi.point ∨ i.hiClosed = true ∧ value.point = i.hi.point :=
    hhi.imp_right fun hat => ⟨by simpa [Bool.lt_iff] using hat.2, hat.1⟩
  -- A closed end is a rational, so that the number is one wherever it meets an end.
  have hbot : ⊥ < value.point := by
    rcases habove with hlt | ⟨hclosed, heq⟩
    · exact bot_le.trans_lt hlt
    · refine bot_lt_iff_ne_bot.mpr fun hbot => ?_
      simp [ho.lower (heq.trans hbot)] at hclosed
  have htop : value.point < ⊤ := by
    rcases hbelow with hlt | ⟨hclosed, heq⟩
    · exact hlt.trans_le le_top
    · refine lt_top_iff_ne_top.mpr fun htop => ?_
      simp [ho.upper (heq.symm.trans htop)] at hclosed
  obtain ⟨x, hx⟩ := Line.exists_ofRat_eq hbot htop
  rw [← hx] at habove hbelow
  refine h x ⟨habove, hbelow, fun d hd heq => hkept ?_⟩ hx
  exact (excludes_iff i value).mpr ⟨d, hd, hx.symm.trans heq⟩

end Ends

/-- A strict comparison with a closed end that has been taken out, which an interval does not see. -/
def Overlooks (i : Interval) (op : Comparison) (value : Double) : Prop :=
  match op with
  | .lt => i.hiClosed = true ∧ i.excludes i.hi = true ∧ i.hi.same value = true
  | .gt => i.loClosed = true ∧ i.excludes i.lo = true ∧ i.lo.same value = true
  | _ => False

section Comparisons

variable {i : Interval} {op : Comparison} {value : Double}

theorem OpenAtInfinity.keepsTo_lt (ho : i.OpenAtInfinity) (he : i.isEmpty = false)
    (h : ∀ x, i.Contains x → Line.ofRat x < value.point) (hseen : ¬ i.Overlooks .lt value) :
    i.KeepsTo .lt value := by
  have hle : i.hi.point ≤ value.point := ho.hi_le he fun x hx => (h x hx).le
  rcases ho.apart fun x hx => (h x hx).ne with hout | hlow | hhigh
  · rcases hle.lt_or_eq with hlt | heq
    · exact Double.cut_le_cut.mpr (.inl hlt)
    · have hopen : i.hiClosed = false := by
        by_contra hclosed
        rw [Bool.not_eq_false] at hclosed
        exact hseen ⟨hclosed, keepsTo_of_point heq.symm hout, (Double.same_iff_point _ _).mpr heq⟩
      exact Double.cut_le_cut.mpr (.inr ⟨heq, hopen.le⟩)
  · exact hlow
  · obtain ⟨x, hx⟩ := ho.exists_contains he
    have hvalue : value.point ≤ i.lo.point := (Double.cut_le_cut.mp hhigh).elim le_of_lt fun h => h.1.le
    exact absurd (h x hx) (hvalue.trans hx.lo_le).not_gt

theorem OpenAtInfinity.keepsTo_gt (ho : i.OpenAtInfinity) (he : i.isEmpty = false)
    (h : ∀ x, i.Contains x → value.point < Line.ofRat x) (hseen : ¬ i.Overlooks .gt value) :
    i.KeepsTo .gt value := by
  have hle : value.point ≤ i.lo.point := ho.le_lo he fun x hx => (h x hx).le
  rcases ho.apart fun x hx => (h x hx).ne' with hout | hlow | hhigh
  · rcases hle.lt_or_eq with hlt | heq
    · exact Double.cut_le_cut.mpr (.inl hlt)
    · have hopen : i.loClosed = false := by
        by_contra hclosed
        rw [Bool.not_eq_false] at hclosed
        exact hseen ⟨hclosed, keepsTo_of_point heq hout, (Double.same_iff_point _ _).mpr heq.symm⟩
      refine Double.cut_le_cut.mpr (.inr ⟨heq, ?_⟩)
      rw [hopen]
      exact le_rfl
  · obtain ⟨x, hx⟩ := ho.exists_contains he
    have hvalue : i.hi.point ≤ value.point := (Double.cut_le_cut.mp hlow).elim le_of_lt fun h => h.1.le
    exact absurd (h x hx) (hx.le_hi.trans hvalue).not_gt
  · exact hhigh

/-- What all rationals of an interval satisfy, the interval does, unless it overlooks it. -/
theorem OpenAtInfinity.satisfies_of_forall (ho : i.OpenAtInfinity)
    (h : ∀ x, i.Contains x → op.Holds x value) (hseen : ¬ i.Overlooks op value) :
    i.satisfies op value = true := by
  cases he : i.isEmpty with
  | true => simp [satisfies, he]
  | false =>
    rw [satisfies_iff he]
    cases op with
    | lt => exact .inl (ho.keepsTo_lt he h hseen)
    | le => exact .inl (Double.cut_le_after.mpr (ho.hi_le he h))
    | gt => exact .inl (ho.keepsTo_gt he h hseen)
    | ge => exact .inl (Double.cut_before_le.mpr (ho.le_lo he h))
    | eq =>
      have hge : value.point ≤ i.lo.point := ho.le_lo he fun x hx => (h x hx).ge
      have hle : i.hi.point ≤ value.point := ho.hi_le he fun x hx => (h x hx).le
      exact .inl ⟨Double.cut_before_le.mpr hge, Double.cut_le_after.mpr hle⟩
    | ne => exact (ho.apart h).imp_right fun hside => ⟨rfl, hside⟩

/-- What an interval overlooks holds of all its rationals. -/
theorem Overlooks.holds (h : i.Overlooks op value) {x : ℚ} (hx : i.Contains x) : op.Holds x value := by
  cases op with
  | lt =>
    obtain ⟨-, hout, hsame⟩ := h
    obtain ⟨d, hd, hpoint⟩ := (excludes_iff i i.hi).mp hout
    have hne : Line.ofRat x ≠ i.hi.point := fun heq => hx.kept d hd (heq.trans hpoint)
    exact (lt_of_le_of_ne hx.le_hi hne).trans_eq ((Double.same_iff_point _ _).mp hsame)
  | gt =>
    obtain ⟨-, hout, hsame⟩ := h
    obtain ⟨d, hd, hpoint⟩ := (excludes_iff i i.lo).mp hout
    have hne : i.lo.point ≠ Line.ofRat x := fun heq => hx.kept d hd (heq.symm.trans hpoint)
    exact ((Double.same_iff_point _ _).mp hsame).ge.trans_lt (lt_of_le_of_ne hx.lo_le hne)
  | le | ge | eq | ne => exact h.elim

/-- An interval does not satisfy what it overlooks, unless it counts as empty. -/
theorem Overlooks.satisfies_eq_false (h : i.Overlooks op value) (he : i.isEmpty = false) :
    i.satisfies op value = false := by
  rw [← Bool.not_eq_true, satisfies_iff he]
  cases op with
  | lt =>
    obtain ⟨hclosed, -, hsame⟩ := h
    rw [Double.same_iff_point] at hsame
    simp [KeepsTo, stop, Double.cut_le_cut, hsame, hclosed]
  | gt =>
    obtain ⟨hclosed, -, hsame⟩ := h
    rw [Double.same_iff_point] at hsame
    simp [KeepsTo, start, Double.cut_le_cut, hsame, hclosed]
  | le | ge | eq | ne => exact h.elim

end Comparisons

/-- Constraints on the full line leave exactly the rationals that satisfy all of them, so that their order
and repetition do not matter, and the interval counts as empty exactly if there are none. A comparison that it
satisfies holds of all of them. One that holds of all of them is satisfied, unless it is overlooked, and what
an interval with a rational overlooks is never satisfied although it holds. -/
theorem constraints_exact_over_rationals (calls : List (Comparison × Double)) :
    (∀ x : ℚ, (constrained calls).Contains x ↔ ∀ call ∈ calls, call.1.Holds x call.2) ∧
    (∀ calls' : List (Comparison × Double), (∀ call, call ∈ calls' ↔ call ∈ calls) →
      ∀ x, (constrained calls').Contains x ↔ (constrained calls).Contains x) ∧
    ((constrained calls).isEmpty = true ↔ ¬ ∃ x : ℚ, ∀ call ∈ calls, call.1.Holds x call.2) ∧
    ∀ (op : Comparison) (value : Double),
      ((constrained calls).satisfies op value = true →
        ∀ x : ℚ, (∀ call ∈ calls, call.1.Holds x call.2) → op.Holds x value) ∧
      ((∀ x : ℚ, (∀ call ∈ calls, call.1.Holds x call.2) → op.Holds x value) →
        ¬ (constrained calls).Overlooks op value → (constrained calls).satisfies op value = true) ∧
      ((constrained calls).Overlooks op value →
        (∀ x : ℚ, (∀ call ∈ calls, call.1.Holds x call.2) → op.Holds x value) ∧
        ((constrained calls).isEmpty = false → (constrained calls).satisfies op value = false)) := by
  have ho : (constrained calls).OpenAtInfinity := openAtInfinity_constrained calls
  refine ⟨contains_constrained calls, fun calls' hsame x => ?_, ?_, fun op value => ?_⟩
  · simp only [contains_constrained, hsame]
  · simp only [← contains_constrained]
    refine ⟨fun he ⟨x, hx⟩ => not_contains_of_isEmpty he x hx, fun hnone => ?_⟩
    by_contra he
    rw [Bool.not_eq_true] at he
    exact hnone (ho.exists_contains he)
  · simp only [← contains_constrained]
    exact ⟨fun hs x hx => holds_of_satisfies hs hx, ho.satisfies_of_forall,
      fun h => ⟨fun x hx => h.holds hx, h.satisfies_eq_false⟩⟩

/-- At most five and not five. -/
def belowFive : List (Comparison × Double) := [(.le, .finite 5), (.ne, .finite 5)]

/-- What is at most five and not five is less than five, which its interval does not see. -/
theorem belowFive_overlooks_lt :
    (constrained belowFive).Overlooks .lt (.finite 5) ∧
    (constrained belowFive).satisfies .lt (.finite 5) = false ∧
    ∀ x : ℚ, (∀ call ∈ belowFive, call.1.Holds x call.2) → x < 5 := by
  have hover : (constrained belowFive).Overlooks .lt (.finite 5) := by
    refine ⟨?_, ?_, ?_⟩ <;> decide +kernel
  obtain ⟨-, -, -, hcompare⟩ := constraints_exact_over_rationals belowFive
  obtain ⟨hholds, hunsatisfied⟩ := (hcompare .lt (.finite 5)).2.2 hover
  refine ⟨hover, hunsatisfied (by decide +kernel), fun x hx => ?_⟩
  exact Line.ofRat_lt_ofRat.mp (hholds x hx)

end Interval

end CrateSafety
