import CrateSafety.Predicate.Literal
import CrateSafety.Proofs.IntervalMembership
import Mathlib.Data.Nat.Digits.Defs
import Mathlib.Tactic.Ring

/-!
# Rounding of whole numbers

The value that a whole number takes among the numbers that bounds are kept in. Rounding keeps the order of
whole numbers, so two of them either keep their strict order or fall together, and it leaves those of at most
53 bits as they are. A literal in range is read as the rounded value of the number that it writes, whatever
its base and its sign.
-/

namespace CrateSafety

namespace Double

section Quotients

variable {num num' den m : Nat}

/-- A quotient is rounded down where the rest is less than half, or half beside an even quotient, and else up. -/
theorem roundDiv_cases (num den : Nat) :
    roundDiv num den = num / den ∧ (2 * (num % den) < den ∨ 2 * (num % den) = den ∧ num / den % 2 = 0) ∨
      roundDiv num den = num / den + 1 ∧
        (den < 2 * (num % den) ∨ 2 * (num % den) = den ∧ num / den % 2 = 1) := by
  unfold roundDiv
  dsimp only
  split
  case isTrue hless => exact .inl ⟨rfl, .inl hless⟩
  case isFalse hless =>
    split
    case isTrue hmore => exact .inr ⟨rfl, .inl hmore⟩
    case isFalse hmore =>
      have hhalf : 2 * (num % den) = den := by omega
      split
      case isTrue heven => exact .inl ⟨rfl, .inr ⟨hhalf, heven⟩⟩
      case isFalse hodd => exact .inr ⟨rfl, .inr ⟨hhalf, by omega⟩⟩

theorem roundDiv_le (hden : 0 < den) (h : num ≤ m * den) : roundDiv num den ≤ m := by
  have hq : num / den ≤ m := Nat.div_le_of_le_mul (by rwa [Nat.mul_comm])
  rcases roundDiv_cases num den with ⟨heq, -⟩ | ⟨heq, hrest⟩
  · rwa [heq]
  · -- At the bound itself nothing is left over that could round up.
    have hne : num / den ≠ m := by
      rintro rfl
      have hsplit := Nat.div_add_mod num den
      rw [Nat.mul_comm] at hsplit
      omega
    omega

theorem le_roundDiv (hden : 0 < den) (h : m * den ≤ num) : m ≤ roundDiv num den := by
  have hq : m ≤ num / den := (Nat.le_div_iff_mul_le hden).mpr h
  rcases roundDiv_cases num den with ⟨heq, -⟩ | ⟨heq, -⟩ <;> omega

theorem roundDiv_mul (hden : 0 < den) (m : Nat) : roundDiv (m * den) den = m :=
  (roundDiv_le hden le_rfl).antisymm (le_roundDiv hden le_rfl)

theorem roundDiv_mono (h : num ≤ num') : roundDiv num den ≤ roundDiv num' den := by
  have hq : num / den ≤ num' / den := Nat.div_le_div_right h
  have hsplit := Nat.div_add_mod num den
  have hsplit' := Nat.div_add_mod num' den
  rcases roundDiv_cases num den with ⟨heq, -⟩ | ⟨heq, hrest⟩
  · rcases roundDiv_cases num' den with ⟨heq', -⟩ | ⟨heq', -⟩ <;> omega
  · rcases roundDiv_cases num' den with ⟨heq', hrest'⟩ | ⟨heq', -⟩
    · -- The larger rest does not round down beside one quotient where the smaller rounds up.
      have hne : num / den ≠ num' / den := by
        intro hsame
        rw [hsame] at hsplit hrest
        omega
      omega
    · omega

end Quotients

/-- A whole number in 53 significant bits. -/
def rounded (n : Nat) : Nat :=
  roundDiv n (2 ^ (n.log2 - 52)) * 2 ^ (n.log2 - 52)

section Naturals

variable {n m k : Nat}

theorem rounded_le (hk : n.log2 - 52 ≤ k) (h : n ≤ 2 ^ k) : rounded n ≤ 2 ^ k := by
  have hsplit : 2 ^ k = 2 ^ (k - (n.log2 - 52)) * 2 ^ (n.log2 - 52) := by
    rw [← Nat.pow_add, Nat.sub_add_cancel hk]
  rw [hsplit] at h ⊢
  exact Nat.mul_le_mul_right _ (roundDiv_le (Nat.two_pow_pos _) h)

theorem le_rounded (hk : n.log2 - 52 ≤ k) (h : 2 ^ k ≤ n) : 2 ^ k ≤ rounded n := by
  have hsplit : 2 ^ k = 2 ^ (k - (n.log2 - 52)) * 2 ^ (n.log2 - 52) := by
    rw [← Nat.pow_add, Nat.sub_add_cancel hk]
  rw [hsplit] at h ⊢
  exact Nat.mul_le_mul_right _ (le_roundDiv (Nat.two_pow_pos _) h)

/-- A larger number never rounds to a smaller one. -/
theorem rounded_mono (h : n ≤ m) : rounded n ≤ rounded m := by
  rcases Nat.eq_zero_or_pos n with rfl | hn
  · simp [rounded, roundDiv]
  have hm : m ≠ 0 := by omega
  have hlog : n.log2 ≤ m.log2 := (Nat.le_log2 hm).mpr ((Nat.log2_self_le hn.ne').trans h)
  rcases hlog.lt_or_eq with hlt | heq
  · -- A power of two stands between the two numbers, and rounding does not cross it.
    calc rounded n ≤ 2 ^ (n.log2 + 1) := rounded_le (by omega) Nat.lt_log2_self.le
      _ ≤ 2 ^ m.log2 := Nat.pow_le_pow_right (by decide) hlt
      _ ≤ rounded m := le_rounded (by omega) (Nat.log2_self_le hm)
  · unfold rounded
    rw [heq]
    exact Nat.mul_le_mul_right _ (roundDiv_mono h)

theorem rounded_two_pow (k : Nat) : rounded (2 ^ k) = 2 ^ k := by
  have hk : (2 ^ k).log2 - 52 ≤ k := by
    rw [Nat.log2_two_pow]
    exact Nat.sub_le k 52
  exact (rounded_le hk le_rfl).antisymm (le_rounded hk le_rfl)

theorem lt_of_rounded_lt (h : rounded n < Nat.pow 2 k) : n < Nat.pow 2 k := by
  by_contra hge
  have hle := rounded_mono (not_lt.mp hge)
  rw [Nat.pow_eq, rounded_two_pow] at hle
  exact absurd h hle.not_gt

theorem rounded_of_le (h : n ≤ 2 ^ 53) : rounded n = n := by
  rcases h.lt_or_eq with hlt | rfl
  · have hlog : n.log2 - 52 = 0 := by
      rcases Nat.eq_zero_or_pos n with rfl | hn
      · rfl
      · have := (Nat.log2_lt hn.ne').mpr hlt
        omega
    unfold rounded
    rw [hlog]
    simpa using roundDiv_mul Nat.one_pos n
  · exact rounded_two_pow 53

theorem unitExponent_one (hn : n ≠ 0) : unitExponent n 1 = n.log2 - 52 := by
  have hone : Nat.log2 1 = 0 := by decide
  have hlead : leadingExponent n 1 = n.log2 := by
    unfold leadingExponent
    dsimp only
    rw [hone, Nat.cast_zero, sub_zero]
    refine if_pos ?_
    rw [if_pos (Nat.cast_nonneg _), Int.toNat_natCast, Nat.one_mul]
    exact Nat.log2_self_le hn
  rw [unitExponent, hlead]
  omega

theorem scaled_significand_one (hn : n ≠ 0) :
    scaled (significand n 1) (unitExponent n 1) = (rounded n : ℚ) := by
  have hunit := unitExponent_one hn
  unfold scaled significand rounded
  dsimp only
  rw [hunit]
  by_cases hlog : 52 ≤ n.log2
  · have hexp : ((n.log2 : Int) - 52).toNat = n.log2 - 52 := by omega
    rw [if_pos (by omega), if_pos (by omega), hexp, Nat.one_mul]
    rfl
  · -- A number of fewer bits is moved up to full length and back again.
    have hexp : n.log2 - 52 = 0 := by omega
    rw [if_neg (by omega), if_neg (by omega), hexp]
    generalize (-((n.log2 : Int) - 52)).toNat = k
    have hup : roundDiv (n * Nat.pow 2 k) 1 = n * 2 ^ k := by
      simpa using roundDiv_mul Nat.one_pos (n * 2 ^ k)
    have hone : roundDiv n (2 ^ 0) * 2 ^ 0 = n := by simpa using roundDiv_mul Nat.one_pos n
    rw [hup, hone, Rat.mkRat_eq_div]
    push_cast [Nat.pow_eq]
    exact mul_div_cancel_right₀ _ (pow_ne_zero _ two_ne_zero)

theorem eq_rounded_of_round? {q : ℚ} (h : round? n 1 = some q) : q = rounded n ∧ n < Nat.pow 2 1024 := by
  unfold round? at h
  split at h
  case isTrue hn =>
    subst hn
    rw [← Option.some.inj h, rounded_of_le (Nat.zero_le _)]
    exact ⟨rfl, by decide +kernel⟩
  case isFalse hn =>
    dsimp only at h
    rw [scaled_significand_one hn] at h
    split at h
    case isTrue hlt =>
      rw [Nat.cast_lt] at hlt
      exact ⟨(Option.some.inj h).symm, lt_of_rounded_lt hlt⟩
    case isFalse => cases h

/-- A whole number that is not too large is read as its rounded value. -/
theorem ofNat?_of_isSome (h : (ofNat? n).isSome) : ofNat? n = some (finite (rounded n)) := by
  obtain ⟨x, hx⟩ := Option.isSome_iff_exists.mp h
  obtain ⟨q, hq, rfl⟩ := Option.map_eq_some_iff.mp hx
  rw [hx, (eq_rounded_of_round? hq).1]

end Naturals

/-- A whole number of either sign in 53 significant bits. -/
def nearest (z : ℤ) : ℤ :=
  if z < 0 then -rounded z.natAbs else rounded z.natAbs

section Integers

variable {z w : ℤ}

theorem nearest_natCast (n : Nat) : nearest n = rounded n := by
  rw [nearest, if_neg (by omega), Int.natAbs_natCast]

theorem nearest_neg (n : Nat) : nearest (-n) = -rounded n := by
  unfold nearest
  rw [Int.natAbs_neg, Int.natAbs_natCast]
  split
  case isTrue => rfl
  case isFalse hn =>
    have hzero : n = 0 := by omega
    rw [hzero, rounded_of_le (Nat.zero_le _)]
    rfl

theorem nearest_mono (h : z ≤ w) : nearest z ≤ nearest w := by
  unfold nearest
  split
  case isTrue hz =>
    split
    case isTrue hw =>
      have := rounded_mono (show w.natAbs ≤ z.natAbs by omega)
      omega
    case isFalse hw => omega
  case isFalse hz =>
    have := rounded_mono (show z.natAbs ≤ w.natAbs by omega)
    rw [if_neg (by omega)]
    omega

/-- The point of a finite number with its sign changed. -/
theorem point_neg_finite (q : ℚ) : (neg (finite q)).point = Line.ofRat (-q) := by
  by_cases hq : q = 0
  · rw [neg, if_pos hq, point, hq, neg_zero]
  · rw [neg, if_neg hq, point]

/-- Numbers that do not fall together keep their strict order. -/
theorem nearest_lt (hne : nearest z ≠ nearest w) (h : z < w) : nearest z < nearest w :=
  lt_of_le_of_ne (nearest_mono h.le) hne

theorem nearest_of_natAbs_le (h : z.natAbs ≤ 2 ^ 53) : nearest z = z := by
  unfold nearest
  rw [rounded_of_le h]
  omega

end Integers

end Double

namespace Literal

/-- The number that a whole literal writes, without underscores. -/
def whole (digits : List Char) : Nat :=
  match digits with
  | '0' :: mark :: rest =>
    match mark.toLower with
    | 'x' => ofDigits 16 rest
    | 'o' => ofDigits 8 rest
    | 'b' => ofDigits 2 rest
    | _ => 0
  | _ => ofDigits 10 digits

/-- A number in range is the same whether it is read as a whole number or as a fraction. -/
theorem ofDecimal_of_isSome {n : Nat} (h : (Double.ofNat? n).isSome) :
    Double.ofDecimal n 0 = .finite (Double.rounded n) := by
  obtain ⟨q, hq, hfinite⟩ := Option.map_eq_some_iff.mp (Double.ofNat?_of_isSome h)
  have hlt : n < 10 ^ 400 := (Double.eq_rounded_of_round? hq).2.trans_le (by decide +kernel)
  have hlength := Nat.toDigits_length 10 n 400 (by decide) hlt
  unfold Double.ofDecimal
  by_cases hn : n = 0
  · subst hn
    rw [Double.rounded_of_le (Nat.zero_le _)]
    rfl
  · have hone : n * Nat.pow 10 0 = n := Nat.mul_one n
    dsimp only
    rw [if_neg (by simp [hn]), if_neg (by omega), if_pos le_rfl, Int.toNat_zero, hone, hq]
    exact hfinite

/-- A literal in range is the rounded value of the number that it writes. -/
theorem integer?_of_isSome {digits : List Char} (h : (Double.ofNat? (whole digits)).isSome) :
    integer? digits = some (.finite (Double.rounded (whole digits))) := by
  revert h
  fun_cases whole digits with
  | case1 mark rest hmark | case2 mark rest hmark | case3 mark rest hmark =>
    intro h
    simp only [integer?, hmark]
    exact Double.ofNat?_of_isSome h
  | case4 mark rest hx ho hb =>
    intro h
    rw [Double.rounded_of_le (Nat.zero_le _)]
    simp [integer?]
  | case5 hplain =>
    intro h
    simp only [integer?]
    split
    case isTrue => rw [ofDecimal_of_isSome h]
    case isFalse => exact Double.ofNat?_of_isSome h

example : ["0xFF", "0o17", "0B101", "1_000", "00"].map (fun digits => whole (plain digits)) =
    [255, 15, 5, 1000, 0] := by decide +kernel

end Literal

end CrateSafety
