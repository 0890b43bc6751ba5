import CrateSafety.Requirement.Key
import Mathlib.Data.List.TakeWhile

/-!
# Tokens of keys

A key lists the tokens of a text. Together the tokens are the ink of the text, its characters that are not
blank, so a key and its text have the same ink.
-/

namespace CrateSafety

namespace Text

/-- A class has no blanks if it has none in ASCII and its table has none beyond. -/
theorem isBlank_of_table {c : Char} {table : List (Nat × Nat)} {ascii : Bool}
    (hascii : c.toNat < 128 → ascii = true → isBlank c = false)
    (htable : ∀ range ∈ blankRanges, ∀ k < range.2 + 1 - range.1, inRanges table (range.1 + k) = false)
    (h : (if c.toNat < 128 then ascii else inRanges table c.toNat) = true) : isBlank c = false := by
  split at h
  case isTrue hlow => exact hascii hlow h
  case isFalse hhigh =>
    rw [isBlank, if_neg hhigh]
    by_contra hblank
    obtain ⟨range, hrange, hin⟩ := List.any_eq_true.mp (Bool.not_eq_false _ ▸ hblank)
    simp only [Bool.and_eq_true, decide_eq_true_eq] at hin
    have hpoint := htable range hrange (c.toNat - range.1) (by omega)
    rw [Nat.add_sub_cancel' hin.1, h] at hpoint
    cases hpoint

theorem isBlank_of_isDecimalDigit {c : Char} (h : isDecimalDigit c = true) : isBlank c = false := by
  refine isBlank_of_table (fun hlow hdigit => ?_) (by decide +kernel) h
  have hrange : 48 ≤ c.toNat ∧ c.toNat ≤ 57 := by
    simpa [Char.isDigit, UInt32.le_iff_toNat_le] using hdigit
  simp only [isBlank, hlow, if_true, Bool.or_eq_false_iff, beq_eq_false_iff_ne, Bool.and_eq_false_iff,
    decide_eq_false_iff_not]
  omega

/-- The code points of the characters of plain names. -/
theorem toNat_of_isNameRest {c : Char} (h : isNameRest c = true) :
    (65 ≤ c.toNat ∧ c.toNat ≤ 90) ∨ (97 ≤ c.toNat ∧ c.toNat ≤ 122) ∨ (48 ≤ c.toNat ∧ c.toNat ≤ 57) ∨
      c.toNat = 95 := by
  have hbetween {low high : UInt32} (hlow : low ≤ c.val) (hhigh : c.val ≤ high) :
      low.toNat ≤ c.toNat ∧ c.toNat ≤ high.toNat :=
    ⟨UInt32.le_iff_toNat_le.mp hlow, UInt32.le_iff_toNat_le.mp hhigh⟩
  rcases Bool.or_eq_true_iff.mp h with h | h
  · rcases Bool.or_eq_true_iff.mp h with h | h
    · rcases Bool.or_eq_true_iff.mp h with h | h
      · obtain ⟨hlow, hhigh⟩ : 'A'.val ≤ c.val ∧ c.val ≤ 'Z'.val := of_decide_eq_true h
        exact .inl (hbetween hlow hhigh)
      · obtain ⟨hlow, hhigh⟩ := Bool.and_eq_true_iff.mp h
        exact .inr (.inl (hbetween (of_decide_eq_true hlow) (of_decide_eq_true hhigh)))
    · obtain ⟨hlow, hhigh⟩ := Bool.and_eq_true_iff.mp h
      exact .inr (.inr (.inl (hbetween (of_decide_eq_true hlow) (of_decide_eq_true hhigh))))
  · rw [beq_iff_eq.mp h]
    exact .inr (.inr (.inr rfl))

theorem isBlank_of_isNameRest {c : Char} (h : isNameRest c = true) : isBlank c = false := by
  have hrange := toNat_of_isNameRest h
  have hascii : c.toNat < 128 := by omega
  simp only [isBlank, hascii, if_true, Bool.or_eq_false_iff, beq_eq_false_iff_ne, Bool.and_eq_false_iff,
    decide_eq_false_iff_not]
  omega

theorem isNameRest_of_isNameStart {c : Char} (h : isNameStart c = true) : isNameRest c = true := by
  simp only [isNameStart, isNameRest, Char.isAlphanum, Bool.or_eq_true] at h ⊢
  exact h.imp_left .inl

/-- An identifier has no blanks. -/
theorem isBlank_of_isIdentifier {cs : List Char} (h : isIdentifier cs = true) :
    ∀ c ∈ cs, isBlank c = false := by
  cases cs with
  | nil => cases h
  | cons first rest =>
    obtain ⟨hstart, hrest⟩ := Bool.and_eq_true_iff.mp h
    refine List.forall_mem_cons.mpr ⟨?_, fun c hc => ?_⟩
    · exact isBlank_of_table (fun _ hname => isBlank_of_isNameRest (isNameRest_of_isNameStart hname))
        (by decide +kernel) hstart
    · exact isBlank_of_table (fun _ hname => isBlank_of_isNameRest hname) (by decide +kernel)
        (List.all_eq_true.mp hrest c hc)

/-- The characters of a text that are not blank. -/
def ink (cs : List Char) : List Char := cs.filter fun c => !isBlank c

theorem ink_append (cs cs' : List Char) : ink (cs ++ cs') = ink cs ++ ink cs' := List.filter_append cs cs'

theorem ink_of_blank {cs : List Char} (h : ∀ c ∈ cs, isBlank c = true) : ink cs = [] :=
  List.filter_eq_nil_iff.mpr fun c hc => by simp [h c hc]

theorem ink_of_inked {cs : List Char} (h : ∀ c ∈ cs, isBlank c = false) : ink cs = cs :=
  List.filter_eq_self.mpr fun c hc => by simp [h c hc]

theorem mem_ink {cs : List Char} {c : Char} : c ∈ ink cs ↔ c ∈ cs ∧ isBlank c = false := by
  simp [ink]

end Text

namespace Key

theorem fraction_append_fraction (cs : List Char) : (fraction cs).1 ++ (fraction cs).2 = cs := by
  unfold fraction
  split
  case h_1 c rest =>
    split
    case isTrue => simp
    case isFalse => rfl
  case h_2 => rfl

/-- The first token of a text that does not start with a blank, and the text after it. -/
def first (c : Char) (rest : List Char) : List Char × List Char :=
  if Text.isNameStart c then (c :: rest.takeWhile Text.isNameRest, rest.dropWhile Text.isNameRest)
  else if Text.isDecimalDigit c then
    (c :: rest.takeWhile Text.isDecimalDigit ++ (fraction (rest.dropWhile Text.isDecimalDigit)).1,
      (fraction (rest.dropWhile Text.isDecimalDigit)).2)
  else ([c], rest)

theorem lexemes_cons (n : Nat) (c : Char) (rest : List Char) :
    lexemes (n + 1) (c :: rest) =
      if Text.isBlank c then lexemes n rest else (first c rest).1 :: lexemes n (first c rest).2 := by
  rw [lexemes]
  unfold first
  cases hname : Text.isNameStart c with
  | true => simp [Text.isBlank_of_isNameRest (Text.isNameRest_of_isNameStart hname)]
  | false =>
    cases hdigit : Text.isDecimalDigit c with
    | true => simp [Text.isBlank_of_isDecimalDigit hdigit]
    | false => cases Text.isBlank c <;> simp

/-- The first token and the text after it make up the text. -/
theorem first_append (c : Char) (rest : List Char) : (first c rest).1 ++ (first c rest).2 = c :: rest := by
  unfold first
  split
  case isTrue => simp
  case isFalse =>
    split
    case isTrue =>
      dsimp only
      rw [List.append_assoc, fraction_append_fraction, List.cons_append, List.takeWhile_append_dropWhile]
    case isFalse => rfl

theorem exists_first (c : Char) (rest : List Char) : ∃ more, (first c rest).1 = c :: more := by
  unfold first
  split
  case isTrue => exact ⟨_, rfl⟩
  case isFalse =>
    split
    case isTrue => exact ⟨_, rfl⟩
    case isFalse => exact ⟨[], rfl⟩

theorem length_first_le (c : Char) (rest : List Char) : (first c rest).2.length ≤ rest.length := by
  obtain ⟨more, hmore⟩ := exists_first c rest
  have hlength := congrArg List.length (first_append c rest)
  simp only [hmore, List.length_append, List.length_cons] at hlength
  omega

/-- A bound on the number of steps that is not exceeded does not matter. -/
theorem lexemes_eq_tokens {n : Nat} {cs : List Char} (h : cs.length ≤ n) : lexemes n cs = tokens cs := by
  have hbounds : ∀ n m, ∀ cs : List Char, cs.length ≤ n → cs.length ≤ m → lexemes n cs = lexemes m cs := by
    intro n
    induction n with
    | zero =>
      intro m cs hn hm
      rw [List.length_eq_zero_iff.mp (Nat.le_zero.mp hn)]
      cases m <;> rfl
    | succ n ih =>
      intro m cs hn hm
      cases cs with
      | nil => cases m <;> rfl
      | cons c rest =>
        have hfirst := length_first_le c rest
        rw [List.length_cons] at hn hm
        obtain ⟨m, rfl⟩ : ∃ k, m = k + 1 := ⟨m - 1, by omega⟩
        rw [lexemes_cons, lexemes_cons, ih m rest (by omega) (by omega),
          ih m (first c rest).2 (by omega) (by omega)]
  exact hbounds n cs.length cs h le_rfl

@[simp] theorem tokens_nil : tokens [] = [] := rfl

/-- Blanks are skipped, and any other character starts a token. -/
theorem tokens_cons (c : Char) (rest : List Char) :
    tokens (c :: rest) =
      if Text.isBlank c then tokens rest else (first c rest).1 :: tokens (first c rest).2 := by
  rw [tokens, List.length_cons, lexemes_cons, lexemes_eq_tokens le_rfl,
    lexemes_eq_tokens (length_first_le c rest)]

/-- Induction along the tokens of a text. -/
@[elab_as_elim]
theorem tokensInduction {motive : List Char → Prop} (nil : motive [])
    (blank : ∀ c rest, Text.isBlank c = true → motive rest → motive (c :: rest))
    (token : ∀ c rest, Text.isBlank c = false → motive (first c rest).2 → motive (c :: rest))
    (cs : List Char) : motive cs := by
  have hall : ∀ n, ∀ cs : List Char, cs.length ≤ n → motive cs := by
    intro n
    induction n with
    | zero =>
      intro cs hn
      rw [List.length_eq_zero_iff.mp (Nat.le_zero.mp hn)]
      exact nil
    | succ n ih =>
      intro cs hn
      cases cs with
      | nil => exact nil
      | cons c rest =>
        have hfirst := length_first_le c rest
        rw [List.length_cons] at hn
        cases hblank : Text.isBlank c with
        | true => exact blank c rest hblank (ih rest (by omega))
        | false => exact token c rest hblank (ih _ (by omega))
  exact hall cs.length cs le_rfl

/-- A token has no blank in it. -/
theorem isBlank_of_mem_first {c d : Char} {rest : List Char} (hc : Text.isBlank c = false)
    (hd : d ∈ (first c rest).1) : Text.isBlank d = false := by
  have hfraction : ∀ cs : List Char, ∀ d ∈ (fraction cs).1, Text.isBlank d = false := by
    intro cs d hd
    unfold fraction at hd
    split at hd
    case h_1 c rest =>
      split at hd
      case isTrue hc =>
        rcases List.mem_cons.mp hd with rfl | hd
        · rfl
        · rcases List.mem_cons.mp hd with rfl | hd
          · exact Text.isBlank_of_isDecimalDigit hc
          · exact Text.isBlank_of_isDecimalDigit (List.mem_takeWhile_imp hd)
      case isFalse => cases hd
    case h_2 => cases hd
  unfold first at hd
  split at hd
  case isTrue =>
    rcases List.mem_cons.mp hd with rfl | hd
    · exact hc
    · exact Text.isBlank_of_isNameRest (List.mem_takeWhile_imp hd)
  case isFalse =>
    split at hd
    case isTrue =>
      dsimp only at hd
      rw [List.cons_append] at hd
      rcases List.mem_cons.mp hd with rfl | hd
      · exact hc
      · rcases List.mem_append.mp hd with hd | hd
        · exact Text.isBlank_of_isDecimalDigit (List.mem_takeWhile_imp hd)
        · exact hfraction _ d hd
    case isFalse =>
      rw [List.mem_singleton.mp hd]
      exact hc

/-- Together the tokens are the ink of the text. -/
theorem flatten_tokens (cs : List Char) : (tokens cs).flatten = Text.ink cs := by
  induction cs using tokensInduction with
  | nil => rfl
  | blank c rest hc ih =>
    have hink : Text.ink (c :: rest) = Text.ink rest := List.filter_cons_of_neg (by simp [hc])
    rw [tokens_cons, if_pos hc, ih, hink]
  | token c rest hc ih =>
    have hfirst := Text.ink_of_inked fun d hd => @isBlank_of_mem_first c d rest hc hd
    rw [tokens_cons, if_neg (by simp [hc]), List.flatten_cons, ih, ← first_append c rest, Text.ink_append,
      hfirst]

end Key

namespace Text

theorem filter_join (p : Char → Bool) {separator : Char} (hs : p separator = false)
    (pieces : List (List Char)) : (join [separator] pieces).filter p = pieces.flatten.filter p := by
  induction pieces with
  | nil => rfl
  | cons piece rest ih =>
    cases rest with
    | nil => simp [join]
    | cons next more =>
      have hjoin : join [separator] (piece :: next :: more) =
          piece ++ [separator] ++ join [separator] (next :: more) := rfl
      simp [hjoin, ih, hs]

end Text

/-- A key has the ink of its text. -/
theorem ink_canonicalKey (s : String) : Text.ink (canonicalKey s).toList = Text.ink s.toList := by
  rw [canonicalKey, String.toList_ofList, Text.ink, Text.filter_join _ rfl, Key.flatten_tokens, Text.ink,
    List.filter_filter]
  simp

theorem mem_canonicalKey {s : String} {c : Char} (hc : c ∈ s.toList) (hink : Text.isBlank c = false) :
    c ∈ (canonicalKey s).toList := by
  have hmem : c ∈ Text.ink s.toList := Text.mem_ink.mpr ⟨hc, hink⟩
  rw [← ink_canonicalKey] at hmem
  exact (Text.mem_ink.mp hmem).1

end CrateSafety
