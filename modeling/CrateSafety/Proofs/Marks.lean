import CrateSafety.Predicate.Grammar

/-!
# Marks of tokens

A text is marked if it has a character that is no blank and that neither of the constants has. Numbers have a
digit or a point and string literals a quote, so all of them are marked wherever tokens are read from a text.
-/

namespace CrateSafety

/-- Whether a text has a character that is no blank and that neither constant has. -/
def Marked (text : String) : Prop :=
  ∃ c ∈ text.toList, Text.isBlank c = false ∧ c ∉ "TrueFalse".toList

instance (text : String) : Decidable (Marked text) :=
  decidable_of_iff ((text.toList.any fun c => !Text.isBlank c && !"TrueFalse".toList.contains c) = true)
    (by simp [Marked])

@[simp] theorem marked_append {s t : String} : Marked (s ++ t) ↔ Marked s ∨ Marked t := by
  simp only [Marked, String.toList_append, List.mem_append, or_and_right, exists_or]

namespace Grammar

/-- Whether a number or a string literal is marked. -/
def Proper (t : Token) : Prop :=
  match t.kind with
  | .number _ => Marked t.lexeme
  | .quoted => Marked t.lexeme
  | _ => True

/-- Whether all numbers and string literals among tokens are marked. -/
def Clean (ts : List Token) : Prop := ∀ t ∈ ts, Proper t

theorem Clean.tail {t : Token} {ts : List Token} (h : Clean (t :: ts)) : Clean ts :=
  (List.forall_mem_cons.mp h).2

end Grammar

namespace Token

theorem marked_of_isQuote {cs : List Char} {c : Char} (hc : c ∈ cs) (h : isQuote c = true) :
    Marked (String.ofList cs) := by
  have hpoint : c.toNat = 34 ∨ c.toNat = 39 := by simpa [isQuote] using h
  refine ⟨c, by simpa using hc, ?_, ?_⟩
  · rw [Text.isBlank, if_pos (by omega)]
    rcases hpoint with hc | hc <;> rw [hc] <;> decide
  · intro hmem
    have hletters : ("TrueFalse".toList.all fun d => d.toNat != 34 && d.toNat != 39) = true := by decide
    have hletter := List.all_eq_true.mp hletters c hmem
    simp only [Bool.and_eq_true, bne_iff_ne] at hletter
    omega

/-- A string literal starts with its quote. -/
theorem exists_scanString {quote : Char} {cs body after : List Char}
    (h : scanString quote cs = some (body, after)) : quote ∈ body := by
  unfold scanString at h
  split at h
  · split at h
    · obtain ⟨_, -, h⟩ := Option.bind_eq_some_iff.mp h
      cases h
      exact List.mem_cons_self
    · obtain ⟨_, -, h⟩ := Option.bind_eq_some_iff.mp h
      cases h
      exact List.mem_cons_self
  · obtain ⟨_, -, h⟩ := Option.bind_eq_some_iff.mp h
    cases h
    exact List.mem_cons_self

theorem exists_isQuote_of_scanLiteral {cs body after : List Char}
    (h : scanLiteral cs = some (some (body, after))) : ∃ c ∈ body, isQuote c = true := by
  have hstring : ∀ {quote : Char} {cs : List Char} (lead : List Char), isQuote quote = true →
      (scanString quote cs).map (fun literal => (lead ++ literal.1, literal.2)) = some (body, after) →
        ∃ c ∈ body, isQuote c = true := by
    intro quote cs lead hquote h
    obtain ⟨literal, hliteral, heq⟩ := Option.map_eq_some_iff.mp h
    cases heq
    exact ⟨quote, List.mem_append_right _ (exists_scanString hliteral), hquote⟩
  unfold scanLiteral at h
  split at h
  case h_1 a b c rest =>
    split at h
    case isTrue ha => exact hstring [] ha (by simpa using h)
    split at h
    case isTrue hb => exact hstring [a] (Bool.and_eq_true_iff.mp hb).2 (Option.some.inj h)
    split at h
    case isTrue hc => exact hstring [a, b] (Bool.and_eq_true_iff.mp hc).2 (Option.some.inj h)
    case isFalse => cases h
  case h_2 a b rest _ =>
    split at h
    case isTrue ha => exact hstring [] ha (by simpa using h)
    split at h
    case isTrue hb => exact hstring [a] (Bool.and_eq_true_iff.mp hb).2 (Option.some.inj h)
    case isFalse => cases h
  case h_3 a rest =>
    split at h
    case isTrue ha => exact hstring [] ha (by simpa using h)
    case isFalse => cases h
  case h_4 => cases h

/-- Whether a text has a digit or a point. -/
def hasDigit (cs : List Char) : Bool := cs.any fun c => c.isDigit || c == '.'

theorem hasDigit_append {s t : List Char} : hasDigit (s ++ t) = (hasDigit s || hasDigit t) :=
  List.any_append

theorem marked_of_hasDigit {cs : List Char} (h : hasDigit cs = true) : Marked (String.ofList cs) := by
  obtain ⟨c, hc, hdigit⟩ := List.any_eq_true.mp h
  have hpoint : 46 ≤ c.toNat ∧ c.toNat ≤ 57 := by
    simp only [Char.isDigit, Bool.or_eq_true, Bool.and_eq_true, decide_eq_true_eq, ge_iff_le,
      UInt32.le_iff_toNat_le, beq_iff_eq] at hdigit
    rcases hdigit with ⟨hlow, hhigh⟩ | rfl
    · exact ⟨Nat.le_trans (by decide) hlow, hhigh⟩
    · decide
  refine ⟨c, by simpa using hc, ?_, ?_⟩
  · rw [Text.isBlank, if_pos (by omega)]
    simp only [Bool.or_eq_false_iff, beq_eq_false_iff_ne, Bool.and_eq_false_iff, decide_eq_false_iff_not]
    omega
  · intro hmem
    have hletters : ("TrueFalse".toList.all fun d => decide (57 < d.toNat)) = true := by decide
    have := of_decide_eq_true (List.all_eq_true.mp hletters c hmem)
    omega

theorem hasDigit_scanDigits {c : Char} (hc : c.isDigit = true) (rest : List Char) :
    hasDigit (scanDigits Char.isDigit (c :: rest)).1 = true := by
  unfold scanDigits
  split
  case h_1 d more heq =>
    obtain ⟨rfl, rfl⟩ := List.cons.inj heq
    cases hc
  case h_2 d more _ heq =>
    obtain ⟨rfl, rfl⟩ := List.cons.inj heq
    simp [hc, hasDigit]
  case h_3 heq => cases heq

/-- A number starts with a digit, or with a point. -/
theorem hasDigit_scanDecimal {cs whole rest : List Char} (hfirst : numberFirst cs = true)
    (h : scanDecimal cs = some (whole, rest)) :
    hasDigit whole = true ∨ whole = [] ∧ ∃ more, rest = '.' :: more := by
  unfold scanDecimal at h
  cases cs with
  | nil => cases hfirst
  | cons c more =>
    cases hc : c.isDigit with
    | true =>
      left
      have hdigits := hasDigit_scanDigits hc more
      simp only [digitFirst, hc, if_true] at h
      split at h
      · cases h
      · cases h
        exact hdigits
    | false =>
      right
      have hpoint : c = '.' := by
        unfold numberFirst at hfirst
        split at hfirst
        case h_1 heq => exact (List.cons.inj heq).1
        case h_2 heq =>
          rw [← (List.cons.inj heq).1, hc] at hfirst
          cases hfirst
        case h_3 => cases hfirst
      simp only [digitFirst, hc, Bool.false_eq_true, if_false, List.isEmpty_nil, Bool.not_true,
        Bool.false_and] at h
      cases h
      exact ⟨rfl, more, by rw [hpoint]⟩

theorem body_of_decimalNumber {whole point exponent rest body after : List Char} {kind : NumberKind}
    (h : decimalNumber whole point exponent rest = some (kind, body, after)) :
    body = whole ++ point ++ exponent := by
  unfold decimalNumber at h
  dsimp only at h
  split at h
  · cases h
    rfl
  split at h
  · cases h
  · cases h
    rfl

theorem hasDigit_scanPlain {cs body after : List Char} {kind : NumberKind}
    (hfirst : numberFirst cs = true) (h : scanPlain cs = some (kind, body, after)) :
    hasDigit body = true := by
  unfold scanPlain at h
  obtain ⟨⟨whole, rest⟩, hwhole, h⟩ := Option.bind_eq_some_iff.mp h
  dsimp only at h
  -- the digits, or else the point, are in the number whatever follows them
  have hbody : ∃ point exponent more, body = whole ++ point ++ exponent ++ more ∧
      ((∃ after, rest = '.' :: after) → ∃ fraction, point = '.' :: fraction) := by
    split at h
    case h_1 more =>
      obtain ⟨fraction, -, h⟩ := Option.bind_eq_some_iff.mp h
      obtain ⟨point, hpoint, h⟩ := Option.bind_eq_some_iff.mp h
      obtain ⟨exponent, -, h⟩ := Option.bind_eq_some_iff.mp h
      cases hpoint
      dsimp only at h
      split at h
      · split at h
        · cases h
          exact ⟨_, _, _, rfl, fun _ => ⟨_, rfl⟩⟩
        · exact ⟨_, _, [], by rw [body_of_decimalNumber h, List.append_nil], fun _ => ⟨_, rfl⟩⟩
      · exact ⟨_, _, [], by rw [body_of_decimalNumber h, List.append_nil], fun _ => ⟨_, rfl⟩⟩
    case h_2 hpoint =>
      obtain ⟨point, -, h⟩ := Option.bind_eq_some_iff.mp h
      obtain ⟨exponent, -, h⟩ := Option.bind_eq_some_iff.mp h
      have hnone : (∃ after, rest = '.' :: after) → ∃ fraction, point.1 = '.' :: fraction := by
        rintro ⟨more, hmore⟩
        exact absurd hmore (hpoint more)
      split at h
      · split at h
        · cases h
          exact ⟨_, _, _, rfl, hnone⟩
        · exact ⟨_, _, [], by rw [body_of_decimalNumber h, List.append_nil], hnone⟩
      · exact ⟨_, _, [], by rw [body_of_decimalNumber h, List.append_nil], hnone⟩
  obtain ⟨point, exponent, more, rfl, hpoint⟩ := hbody
  rcases hasDigit_scanDecimal hfirst hwhole with hdigit | ⟨-, hrest⟩
  · simp [hasDigit_append, hdigit]
  · obtain ⟨fraction, rfl⟩ := hpoint hrest
    simp [hasDigit]

theorem hasDigit_scanNumber {cs body after : List Char} {kind : NumberKind}
    (hfirst : numberFirst cs = true) (h : scanNumber cs = some (kind, body, after)) :
    hasDigit body = true := by
  unfold scanNumber at h
  split at h
  case h_1 mark rest =>
    split at h
    case h_1 =>
      unfold scanBased at h
      dsimp only at h
      split at h
      · cases h
      · cases h
        rfl
    case h_2 => exact hasDigit_scanPlain hfirst h
  case h_2 => exact hasDigit_scanPlain hfirst h

/-- Numbers and string literals that are read are marked. -/
theorem clean_of_scan {n depth : Nat} {cs : List Char} {ts : List Token} (h : scan n depth cs = some ts) :
    Grammar.Clean ts := by
  induction n generalizing depth cs ts with
  | zero => cases h
  | succ n ih =>
    unfold scan at h
    dsimp only at h
    split at h
    case isTrue =>
      cases h
      exact fun t ht => absurd ht List.not_mem_nil
    case isFalse =>
      obtain ⟨⟨kind, lexeme, after⟩, hlexeme, h⟩ := Option.bind_eq_some_iff.mp h
      obtain ⟨more, hmore, h⟩ := Option.bind_eq_some_iff.mp h
      cases h
      refine List.forall_mem_cons.mpr ⟨?_, ih hmore⟩
      unfold scanLexeme at hlexeme
      split at hlexeme
      case h_1 literal hliteral =>
        obtain ⟨read, rfl, heq⟩ := Option.map_eq_some_iff.mp hlexeme
        cases heq
        obtain ⟨c, hc, hquote⟩ := exists_isQuote_of_scanLiteral hliteral
        exact marked_of_isQuote hc hquote
      case h_2 =>
        split at hlexeme
        case isTrue hfirst =>
          obtain ⟨read, hread, heq⟩ := Option.map_eq_some_iff.mp hlexeme
          cases heq
          exact marked_of_hasDigit (hasDigit_scanNumber hfirst hread)
        case isFalse =>
          split at hlexeme
          · split at hlexeme
            · obtain ⟨read, -, heq⟩ := Option.map_eq_some_iff.mp hlexeme
              cases heq
              trivial
            · obtain ⟨read, -, heq⟩ := Option.map_eq_some_iff.mp hlexeme
              cases heq
              trivial
          · cases hlexeme

end Token

end CrateSafety
