import CrateSafety.Predicate.Token
import CrateSafety.Proofs.KeyTokens
import Mathlib.Data.List.Find

/-!
# Lexemes of a text that goes on

A lexeme ends where a blank follows it, so a text that goes on after a blank is read as the same lexemes as
far as the text itself reaches.
-/

namespace CrateSafety

namespace Text

theorem inRanges_of_isBlank {c : Char} {table : List (Nat × Nat)}
    (hascii : ∀ n < 128, inRanges table n = false)
    (htable : ∀ range ∈ blankRanges, ∀ k < range.2 + 1 - range.1, inRanges table (range.1 + k) = false)
    (h : isBlank c = true) : inRanges table c.toNat = false := by
  by_contra hin
  rw [isBlank_of_table (fun hlow hin => absurd hin (Bool.eq_false_iff.1 (hascii _ hlow))) htable
    ((ite_self _).trans (Bool.not_eq_false _ ▸ hin))] at h
  cases h

/-- No blank starts a word. -/
theorem isWordStart_of_isBlank {c : Char} (h : isBlank c = true) : isWordStart c = false := by
  have hidentifier : isIdentifierStart c = false := by
    by_contra hstart
    rw [isBlank_of_table (fun _ hname => isBlank_of_isNameRest (isNameRest_of_isNameStart hname))
      (by decide +kernel) (Bool.not_eq_false _ ▸ hstart)] at h
    cases h
  rw [isWordStart, hidentifier, inRanges_of_isBlank (by decide +kernel) (by decide +kernel) h, Bool.or_false]

/-- No blank continues a word. -/
theorem isWordRest_of_isBlank {c : Char} (h : isBlank c = true) : isWordRest c = false := by
  have hidentifier : isIdentifierRest c = false := by
    by_contra hrest
    rw [isBlank_of_table (fun _ hname => isBlank_of_isNameRest hname) (by decide +kernel)
      (Bool.not_eq_false _ ▸ hrest)] at h
    cases h
  rw [isWordRest, hidentifier, inRanges_of_isBlank (by decide +kernel) (by decide +kernel) h, Bool.or_false]

theorem ne_of_isBlank {c d : Char} (hc : isBlank c = true) (hd : isBlank d = false) : c ≠ d := by
  rintro rfl
  rw [hc] at hd
  cases hd

theorem not_mem_of_isBlank {word : List Char} (hword : (word.all fun d => !isBlank d) = true) {c : Char}
    (hc : isBlank c = true) : c ∉ word := by
  intro hmem
  have hink := List.all_eq_true.1 hword c hmem
  rw [hc] at hink
  cases hink

/-- The code points of blanks. -/
theorem toNat_of_isBlank {c : Char} (h : isBlank c = true) :
    c.toNat = 32 ∨ (9 ≤ c.toNat ∧ c.toNat ≤ 13) ∨ (28 ≤ c.toNat ∧ c.toNat ≤ 31) ∨ 128 ≤ c.toNat := by
  by_cases hascii : c.toNat < 128
  · have hpoint : c.toNat = 32 ∨ (9 ≤ c.toNat ∧ c.toNat ≤ 13) ∨ (28 ≤ c.toNat ∧ c.toNat ≤ 31) := by
      simpa [isBlank, hascii, or_assoc] using h
    omega
  · omega

theorem isDigit_of_isBlank {c : Char} (h : isBlank c = true) : c.isDigit = false := by
  by_contra hdigit
  have hrange : 48 ≤ c.toNat ∧ c.toNat ≤ 57 := by
    simpa [Char.isDigit, UInt32.le_iff_toNat_le] using hdigit
  have hblank := toNat_of_isBlank h
  omega

/-- A blank is no capital. -/
theorem toLower_of_isBlank {c : Char} (h : isBlank c = true) : c.toLower = c := by
  have hupper : ¬ (c.val ≥ 'A'.val ∧ c.val ≤ 'Z'.val) := by
    rintro ⟨hlow, hhigh⟩
    have hlow' : 65 ≤ c.toNat := UInt32.le_iff_toNat_le.1 hlow
    have hhigh' : c.toNat ≤ 90 := UInt32.le_iff_toNat_le.1 hhigh
    have hblank := toNat_of_isBlank h
    omega
  unfold Char.toLower
  exact dif_neg hupper

/-- No range of ASCII letters or digits has a blank. -/
theorem between_of_isBlank {c low high : Char} (h : isBlank c = true) (hlow : 32 < low.toNat)
    (hhigh : high.toNat < 128) : (decide (low ≤ c) && decide (c ≤ high)) = false := by
  by_contra hin
  simp only [Bool.not_eq_false, Bool.and_eq_true, decide_eq_true_eq] at hin
  have hlow' : low.toNat ≤ c.toNat := hin.1
  have hhigh' : c.toNat ≤ high.toNat := hin.2
  have hblank := toNat_of_isBlank h
  omega

section Lists

variable {p : Char → Bool} {cs z : List Char}

theorem takeWhile_append_of_dropWhile (h : cs.dropWhile p ≠ []) :
    (cs ++ z).takeWhile p = cs.takeWhile p := by
  have hlength := congrArg List.length (List.takeWhile_append_dropWhile (p := p) (l := cs))
  have hpos := List.length_pos_iff.2 h
  rw [List.length_append] at hlength
  rw [List.takeWhile_append, if_neg (by omega)]

theorem dropWhile_append_of_dropWhile (h : cs.dropWhile p ≠ []) :
    (cs ++ z).dropWhile p = cs.dropWhile p ++ z := by
  rw [List.dropWhile_append, if_neg (by simpa using h)]

end Lists

end Text

namespace Token

section Blank

variable {c : Char} (hc : Text.isBlank c = true)

include hc

theorem isQuote_of_isBlank : isQuote c = false := by
  have hblank := Text.toNat_of_isBlank hc
  simp only [isQuote, Bool.or_eq_false_iff, beq_eq_false_iff_ne]
  omega

theorem ne_of_isQuote {quote : Char} (h : isQuote quote = true) : c ≠ quote := by
  rintro rfl
  rw [isQuote_of_isBlank hc] at h
  cases h

theorem isMark_of_isBlank : isMark c = false := by
  have hmark : c ∉ ['r', 'R', 'b', 'B', 'u', 'U'] := Text.not_mem_of_isBlank (by decide) hc
  rwa [isMark, ← Bool.not_eq_true, List.contains_iff_mem]

theorem marksPair_of_isBlank (a : Char) : marksPair a c = false ∧ marksPair c a = false := by
  have hr : c ≠ 'r' := Text.ne_of_isBlank hc (by decide)
  have hb : c ≠ 'b' := Text.ne_of_isBlank hc (by decide)
  simp [marksPair, Text.toLower_of_isBlank hc, hr, hb]

theorem baseDigit_of_isBlank : baseDigit c = none := by
  have hx : c ≠ 'x' := Text.ne_of_isBlank hc (by decide)
  have ho : c ≠ 'o' := Text.ne_of_isBlank hc (by decide)
  have hb : c ≠ 'b' := Text.ne_of_isBlank hc (by decide)
  unfold baseDigit
  rw [Text.toLower_of_isBlank hc]
  split <;> simp_all

/-- No digit of a base is a blank or an underscore. -/
theorem baseDigit_not_blank {mark : Char} {isDigit : Char → Bool} (h : baseDigit mark = some isDigit) :
    isDigit c = false ∧ isDigit '_' = false := by
  unfold baseDigit at h
  split at h <;> cases h
  · refine ⟨?_, by decide⟩
    dsimp only
    rw [Text.toLower_of_isBlank hc, Text.isDigit_of_isBlank hc, Bool.false_or]
    exact Text.between_of_isBlank hc (by decide) (by decide)
  · exact ⟨Text.between_of_isBlank hc (by decide) (by decide), by decide⟩
  · have h0 : c ≠ '0' := Text.ne_of_isBlank hc (by decide)
    have h1 : c ≠ '1' := Text.ne_of_isBlank hc (by decide)
    simp [h0, h1]

end Blank

/-! ### String literals -/

variable {c : Char} {z : List Char}

theorem scanQuoted_cons {quote d : Char} (hd : d ≠ '\\') (rest : List Char) :
    scanQuoted quote (d :: rest) =
      if d == quote then some ([d], rest) else if isNewline d then none
      else (scanQuoted quote rest).bind fun literal => some (d :: literal.1, literal.2) := by
  rw [scanQuoted]
  · rfl
  · exact fun _ h => absurd h hd
  · exact fun _ _ h => absurd h hd

/-- A literal that is closed does not depend on what follows it. -/
theorem scanQuoted_append {quote : Char} (hquote : quote ≠ '\\') {cs body after : List Char}
    (h : scanQuoted quote cs = some (body, after)) :
    scanQuoted quote (cs ++ z) = some (body, after ++ z) := by
  fun_induction scanQuoted quote cs generalizing body after with
  | case1 => cases h
  | case2 rest ih =>
    obtain ⟨literal, hrest, h⟩ := Option.bind_eq_some_iff.1 h
    cases h
    simp [scanQuoted, ih hrest]
  | case3 d rest hnewline ih =>
    obtain ⟨literal, hrest, h⟩ := Option.bind_eq_some_iff.1 h
    cases h
    cases rest with
    | nil => cases hrest
    | cons b rest =>
      simp only [List.cons_append] at ih ⊢
      rw [scanQuoted, ih hrest]
      · rfl
      · exact fun _ hd hb => hnewline rest hd (by rw [(List.cons.inj hb).1])
  | case4 d rest _ _ hd =>
    cases h
    have hd' : d ≠ '\\' := by rwa [beq_iff_eq.1 hd]
    rw [List.cons_append, scanQuoted_cons hd', if_pos hd]
  | case5 => cases h
  | case6 d rest _ hescape hd hline ih =>
    obtain ⟨literal, hrest, h⟩ := Option.bind_eq_some_iff.1 h
    cases h
    have hd' : d ≠ '\\' := by
      intro hd'
      cases rest with
      | nil => cases hrest
      | cons b rest => exact hescape b rest hd' rfl
    rw [List.cons_append, scanQuoted_cons hd', if_neg hd, if_neg hline, ih hrest]
    rfl

theorem scanTripleQuoted_append {quote : Char} {cs body after : List Char}
    (h : scanTripleQuoted quote cs = some (body, after)) :
    scanTripleQuoted quote (cs ++ z) = some (body, after ++ z) := by
  fun_induction scanTripleQuoted quote cs generalizing body after with
  | case1 d rest ih =>
    obtain ⟨literal, hrest, h⟩ := Option.bind_eq_some_iff.1 h
    cases h
    simp [scanTripleQuoted, ih hrest]
  | case2 a b d rest hescape hclosed =>
    cases h
    simp only [List.cons_append]
    rw [scanTripleQuoted, if_pos hclosed]
    exact hescape
  | case3 a b d rest hescape hopen ih =>
    obtain ⟨literal, hrest, h⟩ := Option.bind_eq_some_iff.1 h
    cases h
    simp only [List.cons_append] at ih ⊢
    rw [scanTripleQuoted, if_neg hopen, ih hrest]
    · rfl
    · exact hescape
  | case4 => cases h

theorem scanString_append (hc : Text.isBlank c = true) {quote : Char} (hquote : isQuote quote = true)
    {cs body after : List Char} (h : scanString quote cs = some (body, after)) :
    scanString quote (cs ++ c :: z) = some (body, after ++ c :: z) := by
  have hescape : quote ≠ '\\' := by
    rintro rfl
    cases hquote
  rcases cs with _ | ⟨a, _ | ⟨b, rest⟩⟩
  · cases h
  · obtain ⟨literal, hrest, h⟩ := Option.bind_eq_some_iff.1 h
    cases h
    have hnext : (a == quote && c == quote) = false := by simp [ne_of_isQuote hc hquote]
    have hmore := scanQuoted_append (z := c :: z) hescape hrest
    simp only [List.cons_append, List.nil_append] at hmore ⊢
    rw [scanString, hnext, hmore]
    rfl
  · simp only [scanString, List.cons_append] at h ⊢
    split at h
    · next hempty =>
      obtain ⟨literal, hrest, h⟩ := Option.bind_eq_some_iff.1 h
      cases h
      rw [if_pos hempty, scanTripleQuoted_append hrest]
      rfl
    · next hfull =>
      obtain ⟨literal, hrest, h⟩ := Option.bind_eq_some_iff.1 h
      cases h
      have hmore := scanQuoted_append (z := c :: z) hescape hrest
      simp only [List.cons_append] at hmore
      rw [if_neg hfull, hmore]
      rfl

/-- Marks and a quote open a literal whatever stands after the text. -/
theorem scanLiteral_append_of_none (hc : Text.isBlank c = true) {cs : List Char} (hne : cs ≠ [])
    (h : scanLiteral cs = none) : scanLiteral (cs ++ c :: z) = none := by
  have hquote := isQuote_of_isBlank hc
  have hmarks := fun a => (marksPair_of_isBlank hc a).1
  rcases cs with _ | ⟨a, _ | ⟨b, _ | ⟨d, rest⟩⟩⟩
  · exact absurd rfl hne
  · cases z <;> grind [scanLiteral]
  · grind [scanLiteral]
  · grind [scanLiteral]

theorem scanLiteral_append (hc : Text.isBlank c = true) {cs body after : List Char}
    (h : scanLiteral cs = some (some (body, after))) :
    scanLiteral (cs ++ c :: z) = some (some (body, after ++ c :: z)) := by
  have hmarked : ∀ {quote : Char} {cs : List Char} (marks : List Char), isQuote quote = true →
      (scanString quote cs).map (fun literal => (marks ++ literal.1, literal.2)) = some (body, after) →
        (scanString quote (cs ++ c :: z)).map (fun literal => (marks ++ literal.1, literal.2)) =
          some (body, after ++ c :: z) := by
    intro quote cs marks hquote h
    obtain ⟨literal, hliteral, heq⟩ := Option.map_eq_some_iff.1 h
    cases heq
    rw [scanString_append hc hquote hliteral]
    rfl
  rcases cs with _ | ⟨a, _ | ⟨b, _ | ⟨d, rest⟩⟩⟩
  · cases h
  · -- a quote alone opens a literal that is not closed
    simp only [scanLiteral] at h
    split at h <;> cases h
  · simp only [scanLiteral] at h
    split at h
    case isTrue ha =>
      have hmore := scanString_append (z := z) hc ha (Option.some.inj h)
      simpa [scanLiteral, ha] using hmore
    split at h <;> cases h
  · rw [scanLiteral] at h
    simp only [List.cons_append, scanLiteral]
    split at h
    case isTrue ha =>
      rw [if_pos ha]
      exact congrArg some (scanString_append hc ha (Option.some.inj h))
    case isFalse ha =>
      rw [if_neg ha]
      split at h
      case isTrue hb =>
        rw [if_pos hb]
        exact congrArg some (hmarked [a] (Bool.and_eq_true_iff.1 hb).2 (Option.some.inj h))
      case isFalse hb =>
        rw [if_neg hb]
        split at h
        case isTrue hd =>
          rw [if_pos hd]
          exact congrArg some (hmarked [a, b] (Bool.and_eq_true_iff.1 hd).2 (Option.some.inj h))
        case isFalse => cases h

/-! ### Numbers -/

theorem scanDigits_cons {isDigit : Char → Bool} {d : Char} (hd : d ≠ '_') (rest : List Char) :
    scanDigits isDigit (d :: rest) =
      if isDigit d then (d :: (scanDigits isDigit rest).1, (scanDigits isDigit rest).2) else ([], d :: rest) := by
  rw [scanDigits]
  exact fun _ _ h => absurd h hd

theorem scanDigits_append {isDigit : Char → Bool} (hdigit : isDigit c = false) (hline : isDigit '_' = false)
    (hne : c ≠ '_') (cs : List Char) :
    scanDigits isDigit (cs ++ c :: z) =
      ((scanDigits isDigit cs).1, (scanDigits isDigit cs).2 ++ c :: z) := by
  fun_induction scanDigits isDigit cs with
  | case1 d rest hd digits after heq ih =>
    rw [heq] at ih
    simp [scanDigits, hd, ih]
  | case2 d rest hd => simp [scanDigits, hd]
  | case3 d rest hpair hd digits after heq ih =>
    have hd' : d ≠ '_' := by
      rintro rfl
      rw [hline] at hd
      cases hd
    rw [heq] at ih
    simp [scanDigits_cons hd', hd, ih]
  | case4 d rest hpair hd =>
    by_cases hd' : d = '_'
    · cases rest with
      | nil => simp [scanDigits, hd', hdigit]
      | cons b more => exact (hpair b more hd' rfl).elim
    · simp [scanDigits_cons hd', hd]
  | case5 => simp [scanDigits_cons hne, hdigit]

section Number

variable (hc : Text.isBlank c = true) {cs : List Char}

include hc

theorem digitFirst_append (cs : List Char) : digitFirst (cs ++ c :: z) = digitFirst cs := by
  cases cs with
  | nil => exact Text.isDigit_of_isBlank hc
  | cons d rest => rfl

theorem underscoreFirst_append (cs : List Char) : underscoreFirst (cs ++ c :: z) = underscoreFirst cs := by
  cases cs with
  | nil => exact beq_false_of_ne (Text.ne_of_isBlank hc (by decide))
  | cons d rest => rfl

theorem scanDecimal_append {digits after : List Char} (h : scanDecimal cs = some (digits, after)) :
    scanDecimal (cs ++ c :: z) = some (digits, after ++ c :: z) := by
  have hdigits := scanDigits_append (z := z) (Text.isDigit_of_isBlank hc) (by decide)
    (Text.ne_of_isBlank hc (by decide)) cs
  unfold scanDecimal at h ⊢
  rw [digitFirst_append hc, hdigits]
  split at h
  grind [underscoreFirst_append]

theorem scanExponent_append {digits after : List Char} (h : scanExponent cs = some (digits, after)) :
    scanExponent (cs ++ c :: z) = some (digits, after ++ c :: z) := by
  have he : c ≠ 'e' := Text.ne_of_isBlank hc (by decide)
  have hE : c ≠ 'E' := Text.ne_of_isBlank hc (by decide)
  have hp : c ≠ '+' := Text.ne_of_isBlank hc (by decide)
  have hm : c ≠ '-' := Text.ne_of_isBlank hc (by decide)
  have hd := Text.isDigit_of_isBlank hc
  rcases cs with _ | ⟨e, _ | ⟨s, more⟩⟩
  · cases z <;> grind [scanExponent]
  · grind [scanExponent]
  · simp only [scanExponent, List.cons_append] at h ⊢
    rw [digitFirst_append hc]
    split at h
    · split at h
      · obtain ⟨⟨ds, left⟩, hrest, heq⟩ := Option.map_eq_some_iff.1 h
        cases heq
        grind [scanDecimal_append hc hrest]
      · split at h
        · obtain ⟨⟨ds, left⟩, hrest, heq⟩ := Option.map_eq_some_iff.1 h
          cases heq
          grind [scanDecimal_append hc hrest]
        · grind
    · grind

/-- The point of a number with the digits after it, if it has one. -/
def scanFraction : List Char → Option (List Char × List Char)
  | d :: more =>
    if d == '.' then (scanDecimal more).bind fun digits => some (d :: digits.1, digits.2)
    else some ([], d :: more)
  | [] => some ([], [])

/-- A number from its parts and the text after them, which may start with the letter of imaginary numbers. -/
def endNumber (whole point exponent rest : List Char) : Option (NumberKind × List Char × List Char) :=
  match rest with
  | c :: after =>
    if c == 'j' || c == 'J' then some (.imaginary, whole ++ point ++ exponent ++ [c], after)
    else decimalNumber whole point exponent rest
  | [] => decimalNumber whole point exponent rest

omit hc in
theorem scanPlain_eq (cs : List Char) :
    scanPlain cs =
      (scanDecimal cs).bind fun whole => (scanFraction whole.2).bind fun point =>
        (scanExponent point.2).bind fun exponent => endNumber whole.1 point.1 exponent.1 exponent.2 := by
  unfold scanPlain
  refine Option.bind_congr fun whole _ => ?_
  dsimp only
  split
  · next more hrest =>
    simp only [hrest, scanFraction, beq_self_eq_true, if_true, Option.bind_eq_bind, Option.bind_assoc,
      Option.bind_some]
    rfl
  · next hrest =>
    have hpoint : scanFraction whole.2 = some ([], whole.2) := by
      cases hcs : whole.2 with
      | nil => rfl
      | cons d more =>
        have hd : d ≠ '.' := fun hd => hrest more (by rw [hcs, hd])
        simp [scanFraction, hd]
    rw [hpoint]
    rfl

theorem scanFraction_append {point after : List Char} (h : scanFraction cs = some (point, after)) :
    scanFraction (cs ++ c :: z) = some (point, after ++ c :: z) := by
  have hdot : c ≠ '.' := Text.ne_of_isBlank hc (by decide)
  cases cs with
  | nil =>
    cases h
    simp [scanFraction, hdot]
  | cons d more =>
    simp only [scanFraction, List.cons_append] at h ⊢
    split at h
    · next hd =>
      obtain ⟨digits, hdigits, heq⟩ := Option.bind_eq_some_iff.1 h
      cases heq
      rw [if_pos hd, scanDecimal_append hc hdigits]
      rfl
    · next hd =>
      cases h
      rw [if_neg hd]
      rfl

theorem endNumber_append {whole point exponent body after : List Char} {kind : NumberKind}
    (h : endNumber whole point exponent cs = some (kind, body, after)) :
    endNumber whole point exponent (cs ++ c :: z) = some (kind, body, after ++ c :: z) := by
  have hj : c ≠ 'j' := Text.ne_of_isBlank hc (by decide)
  have hJ : c ≠ 'J' := Text.ne_of_isBlank hc (by decide)
  have hdecimal : ∀ {rest : List Char}, decimalNumber whole point exponent rest = some (kind, body, after) →
      decimalNumber whole point exponent (rest ++ c :: z) = some (kind, body, after ++ c :: z) := by
    intro rest h
    grind [decimalNumber]
  cases cs with
  | nil => simpa [endNumber, hj, hJ] using hdecimal h
  | cons d rest => grind [endNumber]

theorem scanPlain_append {body after : List Char} {kind : NumberKind}
    (h : scanPlain cs = some (kind, body, after)) :
    scanPlain (cs ++ c :: z) = some (kind, body, after ++ c :: z) := by
  rw [scanPlain_eq] at h ⊢
  obtain ⟨whole, hwhole, h⟩ := Option.bind_eq_some_iff.1 h
  obtain ⟨point, hpoint, h⟩ := Option.bind_eq_some_iff.1 h
  obtain ⟨exponent, hexponent, h⟩ := Option.bind_eq_some_iff.1 h
  rw [scanDecimal_append hc hwhole, Option.bind_some, scanFraction_append hc hpoint, Option.bind_some,
    scanExponent_append hc hexponent, Option.bind_some]
  exact endNumber_append hc h

omit hc in
theorem scanNumber_cons {d : Char} (hd : d ≠ '0') (rest : List Char) :
    scanNumber (d :: rest) = scanPlain (d :: rest) := by
  rw [scanNumber]
  exact fun _ _ h => absurd (List.cons.inj h).1 hd

theorem scanBased_append {mark : Char} {isDigit : Char → Bool} {body after : List Char} {kind : NumberKind}
    (hbase : baseDigit mark = some isDigit) (h : scanBased mark isDigit cs = some (kind, body, after)) :
    scanBased mark isDigit (cs ++ c :: z) = some (kind, body, after ++ c :: z) := by
  obtain ⟨hdigit, hline⟩ := baseDigit_not_blank hc hbase
  have hdigits := scanDigits_append (z := z) hdigit hline (Text.ne_of_isBlank hc (by decide)) cs
  unfold scanBased at h ⊢
  rw [hdigits]
  dsimp only at h ⊢
  rw [underscoreFirst_append hc, digitFirst_append hc]
  split at h
  · cases h
  · next hread =>
    cases h
    rw [if_neg hread]

theorem scanNumber_append {body after : List Char} {kind : NumberKind}
    (h : scanNumber cs = some (kind, body, after)) :
    scanNumber (cs ++ c :: z) = some (kind, body, after ++ c :: z) := by
  have hzero : c ≠ '0' := Text.ne_of_isBlank hc (by decide)
  have hbase := baseDigit_of_isBlank hc
  unfold scanNumber at h
  split at h
  case h_1 mark rest =>
    simp only [List.cons_append, scanNumber]
    split at h
    case h_1 hmark => exact scanBased_append hc hmark h
    case h_2 => exact scanPlain_append hc h
  case h_2 hplain =>
    have hmore : scanNumber (cs ++ c :: z) = scanPlain (cs ++ c :: z) := by
      rcases cs with _ | ⟨d, rest⟩
      · exact scanNumber_cons hzero z
      · by_cases hd : d = '0'
        · cases rest with
          | nil => simp [scanNumber, hd, hbase]
          | cons mark rest => exact (hplain mark rest (by rw [hd])).elim
        · exact scanNumber_cons hd (rest ++ c :: z)
    rw [hmore]
    exact scanPlain_append hc h

omit hc in
theorem numberFirst_cons {d : Char} (hd : d ≠ '.') (rest : List Char) :
    numberFirst (d :: rest) = d.isDigit := by
  rw [numberFirst]
  exact fun _ _ h => absurd h hd

theorem numberFirst_append (hne : cs ≠ []) : numberFirst (cs ++ c :: z) = numberFirst cs := by
  cases cs with
  | nil => exact absurd rfl hne
  | cons d rest =>
    by_cases hd : d = '.'
    · subst hd
      cases rest with
      | nil => exact Text.isDigit_of_isBlank hc
      | cons e rest => rfl
    · rw [List.cons_append, numberFirst_cons hd, numberFirst_cons hd]

end Number

/-! ### Words and symbols -/

theorem scanWord_eq_some_iff {cs word after : List Char} :
    scanWord cs = some (word, after) ↔
      word = cs.takeWhile isIdentifierLike ∧ after = cs.dropWhile isIdentifierLike ∧
        ∃ d rest, word = d :: rest ∧ Text.isWordStart d = true ∧ ∀ e ∈ rest, Text.isWordRest e = true := by
  unfold scanWord
  cases hword : cs.takeWhile isIdentifierLike with
  | nil =>
    constructor
    · intro h
      cases h
    · rintro ⟨rfl, -, d, rest, hd, -⟩
      cases hd
  | cons d rest =>
    simp only [Bool.and_eq_true, List.all_eq_true, Option.ite_none_right_eq_some]
    grind

/-- A word ends at a blank; a blank beyond ASCII spoils it. -/
theorem scanWord_append (hc : Text.isBlank c = true) {cs word after : List Char} {read : List Char × List Char}
    (h : scanWord cs = some (word, after)) (hmore : scanWord (cs ++ c :: z) = some read) :
    read = (word, after ++ c :: z) := by
  obtain ⟨hword, hafter, d, rest, hd, -⟩ := scanWord_eq_some_iff.1 h
  obtain ⟨hmore, hleft, e, others, he, -, hothers⟩ := scanWord_eq_some_iff.1 hmore
  have hlike : ∀ d ∈ word, isIdentifierLike d = true := fun d hmem => List.mem_takeWhile_imp (hword ▸ hmem)
  have hcs : cs ++ c :: z = word ++ (after ++ c :: z) := by
    rw [hword, hafter, ← List.append_assoc, List.takeWhile_append_dropWhile]
  rw [hcs, List.takeWhile_append_of_pos hlike] at hmore
  rw [hcs, List.dropWhile_append_of_pos hlike] at hleft
  cases after with
  | nil =>
    cases hc' : isIdentifierLike c with
    | true =>
      have hmem : c ∈ others := by
        rw [hd, List.nil_append, List.takeWhile_cons_of_pos hc', he] at hmore
        simp [(List.cons.inj hmore).2]
      have hrest := hothers c hmem
      rw [Text.isWordRest_of_isBlank hc] at hrest
      cases hrest
    | false =>
      rw [List.nil_append, List.takeWhile_cons_of_neg (by simp [hc']), List.append_nil] at hmore
      rw [List.nil_append, List.dropWhile_cons_of_neg (by simp [hc'])] at hleft
      exact Prod.ext hmore hleft
  | cons f after =>
    have hf : isIdentifierLike f = false := by
      have hhead := List.head?_dropWhile_not isIdentifierLike cs
      rw [← hafter] at hhead
      exact hhead
    rw [List.cons_append, List.takeWhile_cons_of_neg (by simp [hf]), List.append_nil] at hmore
    rw [List.cons_append, List.dropWhile_cons_of_neg (by simp [hf])] at hleft
    exact Prod.ext hmore hleft

theorem prefix_of_prefix_append {s cs : List Char} (hs : c ∉ s) (h : s <+: cs ++ c :: z) : s <+: cs := by
  rcases List.prefix_or_prefix_of_prefix h (List.prefix_append cs (c :: z)) with hprefix | ⟨t, rfl⟩
  · exact hprefix
  · cases t with
    | nil => simp
    | cons d t =>
      have hd : d = c := (List.cons_prefix_cons.1 ((List.prefix_append_right_inj cs).1 h)).1
      exact absurd (by simp [hd]) hs

theorem scanSymbol_append (hc : Text.isBlank c = true) (cs : List Char) :
    scanSymbol (cs ++ c :: z) = (scanSymbol cs).map fun read => (read.1, read.2 ++ c :: z) := by
  have hink : (symbols.all fun s => s.toList.all fun d => !Text.isBlank d) = true := by decide
  have hprefix : ∀ s ∈ symbols, s.toList.isPrefixOf (cs ++ c :: z) = s.toList.isPrefixOf cs := by
    intro s hs
    have hblank : c ∉ s.toList := Text.not_mem_of_isBlank (List.all_eq_true.1 hink s hs) hc
    rw [Bool.eq_iff_iff, List.isPrefixOf_iff_prefix, List.isPrefixOf_iff_prefix]
    exact ⟨prefix_of_prefix_append hblank, fun hp => hp.trans (List.prefix_append ..)⟩
  unfold scanSymbol
  rw [List.find?_congr hprefix, Option.map_map]
  refine Option.map_congr fun s hs => ?_
  have hlength : s.toList.length ≤ cs.length := by
    have hread := List.find?_some hs
    exact (List.isPrefixOf_iff_prefix.1 hread).length_le
  rw [Function.comp, List.drop_append_of_le_length (String.length_toList ▸ hlength)]

/-- The next lexeme of a text that goes on after a blank is the lexeme of the text. -/
theorem scanLexeme_append (hc : Text.isBlank c = true) {cs lexeme after : List Char} {kind : TokenKind}
    {read : TokenKind × List Char × List Char}
    (h : scanLexeme cs = some (kind, lexeme, after)) (hmore : scanLexeme (cs ++ c :: z) = some read) :
    read = (kind, lexeme, after ++ c :: z) := by
  cases cs with
  | nil => cases h
  | cons d rest =>
    unfold scanLexeme at h hmore
    split at h
    case h_1 literal hliteral =>
      obtain ⟨⟨body, left⟩, rfl, heq⟩ := Option.map_eq_some_iff.1 h
      cases heq
      rw [scanLiteral_append hc hliteral] at hmore
      cases hmore
      rfl
    case h_2 hliteral =>
      rw [scanLiteral_append_of_none hc (List.cons_ne_nil d rest) hliteral] at hmore
      dsimp only at hmore
      rw [numberFirst_append hc (List.cons_ne_nil d rest)] at hmore
      split at h
      case isTrue hnumber =>
        obtain ⟨⟨numberKind, body, left⟩, hread, heq⟩ := Option.map_eq_some_iff.1 h
        cases heq
        rw [if_pos hnumber, scanNumber_append hc hread] at hmore
        cases hmore
        rfl
      case isFalse hnumber =>
        rw [if_neg hnumber] at hmore
        dsimp only [List.cons_append] at h hmore
        split at h
        case isTrue hword =>
          obtain ⟨⟨body, left⟩, hread, heq⟩ := Option.map_eq_some_iff.1 h
          cases heq
          rw [if_pos hword] at hmore
          obtain ⟨more, hmore, heq⟩ := Option.map_eq_some_iff.1 hmore
          rw [← heq, scanWord_append hc hread hmore]
        case isFalse hword =>
          obtain ⟨⟨body, left⟩, hread, heq⟩ := Option.map_eq_some_iff.1 h
          cases heq
          rw [if_neg hword, ← List.cons_append, scanSymbol_append hc, hread] at hmore
          cases hmore
          rfl

/-- No lexeme starts with a blank. -/
theorem scanLexeme_of_isBlank (hc : Text.isBlank c = true) (rest : List Char) :
    scanLexeme (c :: rest) = none := by
  have hliteral : scanLiteral (c :: rest) = none := by
    have hquote := isQuote_of_isBlank hc
    have hmark := isMark_of_isBlank hc
    have hpair := fun a => (marksPair_of_isBlank hc a).2
    rcases rest with _ | ⟨b, _ | ⟨d, rest⟩⟩ <;> simp [scanLiteral, hquote, hmark, hpair]
  have hnumber : numberFirst (c :: rest) = false := by
    rw [numberFirst_cons (Text.ne_of_isBlank hc (by decide)), Text.isDigit_of_isBlank hc]
  have hword : scanWord (c :: rest) = none := by
    by_contra h
    obtain ⟨⟨word, after⟩, h⟩ := Option.ne_none_iff_exists'.1 h
    obtain ⟨hword, -, d, more, rfl, hstart, -⟩ := scanWord_eq_some_iff.1 h
    have hd : d = c := by
      rw [List.takeWhile_cons] at hword
      split at hword <;> cases hword
      rfl
    rw [hd, Text.isWordStart_of_isBlank hc] at hstart
    cases hstart
  have hsymbol : scanSymbol (c :: rest) = none := scanSymbol_append hc []
  simp [scanLexeme, hliteral, hnumber, hword, hsymbol]

end Token

end CrateSafety
