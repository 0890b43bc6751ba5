import CrateSafety.Proofs.KeyTokens
import Mathlib.Logic.Relation

/-!
# Keys and spacing

Blanks may be put in between two tokens, and where there are blanks their number does not matter. Texts that
differ by such changes have the same tokens, since a blank ends any token and a token does not depend on what
comes after it. Conversely every text is turned into its key by such changes, so two texts have one key exactly
if one is turned into the other.
-/

namespace CrateSafety

namespace Text

variable {p : Char → Bool}

/-- A text that cannot run on into the next one is cut there by any class. -/
theorem takeWhile_append_of_head {t : List Char} (h : t.head?.any p = false) (s : List Char) :
    (s ++ t).takeWhile p = s.takeWhile p := by
  induction s with
  | nil => cases t <;> simp_all
  | cons c rest ih => cases hc : p c <;> simp [hc, ih]

theorem dropWhile_append_of_head {t : List Char} (h : t.head?.any p = false) (s : List Char) :
    (s ++ t).dropWhile p = s.dropWhile p ++ t := by
  induction s with
  | nil => cases t <;> simp_all
  | cons c rest ih => cases hc : p c <;> simp [hc, ih]

/-- A run of a class that ends before some later part of a text ends there also without that part. -/
theorem span_of_span_append {run left more : List Char} (h : (run ++ left ++ more).takeWhile p = run) :
    (run ++ left).takeWhile p = run ∧ (run ++ left).dropWhile p = left := by
  have hrun : ∀ c ∈ run, p c = true := by
    intro c hc
    rw [← h] at hc
    exact List.mem_takeWhile_imp hc
  have hleft : left.head?.any p = false := by
    rw [List.append_assoc, List.takeWhile_append_of_pos hrun, List.append_right_eq_self] at h
    cases left with
    | nil => rfl
    | cons c left => simpa [List.takeWhile_cons] using h
  rw [takeWhile_append_of_head hleft, dropWhile_append_of_head hleft, List.takeWhile_eq_self_iff.mpr hrun,
    List.dropWhile_eq_nil_iff.mpr hrun]
  exact ⟨rfl, rfl⟩

end Text

namespace Key

section Cuts

variable {c : Char} {a b rest left more : List Char}

/-- Whether no token runs on into a text: it does not start with a letter, a digit, an underscore or a point. -/
def Apart (cs : List Char) : Prop :=
  cs.head?.any Text.isNameRest = false ∧ cs.head?.any Text.isDecimalDigit = false ∧
    cs.head?.any (· == '.') = false

theorem apart_of_isBlank (h : Text.isBlank c = true) (rest : List Char) : Apart (c :: rest) := by
  have hclass : ∀ p : Char → Bool, (∀ c, p c = true → Text.isBlank c = false) → p c = false := by
    intro p hp
    by_contra hc
    rw [hp c (by simpa using hc)] at h
    cases h
  refine ⟨hclass _ fun _ => Text.isBlank_of_isNameRest, hclass _ fun _ => Text.isBlank_of_isDecimalDigit,
    hclass (· == '.') fun c hc => ?_⟩
  rw [beq_iff_eq.mp hc]
  rfl

theorem fraction_append {t : List Char} (ht : Apart t) (s : List Char) :
    fraction (s ++ t) = ((fraction s).1, (fraction s).2 ++ t) := by
  obtain ⟨-, hdigit, hpoint⟩ := ht
  unfold fraction
  split
  case h_1 c more heq =>
    cases s with
    | nil => simp_all
    | cons a s =>
      cases s with
      | nil => simp_all
      | cons b s =>
        simp only [List.cons_append, List.cons.injEq] at heq
        obtain ⟨rfl, rfl, rfl⟩ := heq
        split
        case isTrue hc =>
          simp [hc, Text.takeWhile_append_of_head hdigit, Text.dropWhile_append_of_head hdigit]
        case isFalse hc => simp [hc]
  case h_2 hnone =>
    have hs : ∀ c more, s ≠ '.' :: c :: more := by
      rintro c more rfl
      exact hnone c (more ++ t) rfl
    split
    case h_1 c more => exact absurd rfl (hs c more)
    case h_2 => rfl

theorem first_append_of_apart {t : List Char} (ht : Apart t) (c : Char) (rest : List Char) :
    first c (rest ++ t) = ((first c rest).1, (first c rest).2 ++ t) := by
  unfold first
  rw [Text.takeWhile_append_of_head ht.1, Text.dropWhile_append_of_head ht.1,
    Text.takeWhile_append_of_head ht.2.1, Text.dropWhile_append_of_head ht.2.1, fraction_append ht]
  split
  case isTrue => rfl
  case isFalse =>
    split
    case isTrue => rfl
    case isFalse => rfl

/-- A text that is cut where no token runs on has the tokens of its parts. -/
theorem tokens_append {t : List Char} (ht : Apart t) (s : List Char) :
    tokens (s ++ t) = tokens s ++ tokens t := by
  induction s using tokensInduction with
  | nil => rfl
  | blank c rest hc ih => rw [List.cons_append, tokens_cons, if_pos hc, ih, tokens_cons, if_pos hc]
  | token c rest hc ih =>
    have hink : ¬ Text.isBlank c = true := by simp [hc]
    rw [List.cons_append, tokens_cons, if_neg hink, first_append_of_apart ht, ih, tokens_cons c rest,
      if_neg hink, List.cons_append]

theorem tokens_of_blank {w : List Char} (hw : ∀ c ∈ w, Text.isBlank c = true) (cs : List Char) :
    tokens (w ++ cs) = tokens cs := by
  induction w with
  | nil => rfl
  | cons c w ih =>
    obtain ⟨hc, hrest⟩ := List.forall_mem_cons.mp hw
    rw [List.cons_append, tokens_cons, if_pos hc, ih hrest]

/-- Blanks part a text into two. -/
theorem tokens_append_blank {w : List Char} (hw : ∀ c ∈ w, Text.isBlank c = true) (hne : w ≠ [])
    (a b : List Char) : tokens (a ++ w ++ b) = tokens a ++ tokens b := by
  obtain ⟨c, rest, rfl⟩ := List.exists_cons_of_ne_nil hne
  have hapart : Apart (c :: rest ++ b) := apart_of_isBlank (hw c List.mem_cons_self) _
  rw [List.append_assoc, tokens_append hapart, tokens_of_blank hw]

/-- A text without a fraction has none if a part after it is left out. -/
theorem fraction_of_append_nil (h : (fraction (left ++ more)).1 = []) : fraction left = ([], left) := by
  unfold fraction
  split
  case h_1 d rest =>
    cases hd : Text.isDecimalDigit d with
    | true => simp [fraction, hd] at h
    | false => rfl
  case h_2 => rfl

/-- A fraction does not depend on what comes after it. -/
theorem fraction_of_append {places : List Char}
    (h : fraction (places ++ left ++ more) = (places, left ++ more)) :
    fraction (places ++ left) = (places, left) := by
  cases places with
  | nil => exact fraction_of_append_nil (congrArg Prod.fst h)
  | cons point places =>
    unfold fraction at h
    split at h
    case h_1 d rest heq =>
      split at h
      case isTrue hd =>
        obtain ⟨hplaces, hrest⟩ := Prod.mk.inj h
        obtain ⟨rfl, rfl⟩ := List.cons.inj hplaces
        have hrun : rest.takeWhile Text.isDecimalDigit ++ left ++ more = rest := by simpa using heq
        obtain ⟨htake, hdrop⟩ := Text.span_of_span_append (congrArg (List.takeWhile _) hrun)
        simp [fraction, hd, htake, hdrop]
      case isFalse => cases h
    case h_2 => cases h

/-- A token does not depend on what comes after it. -/
theorem first_of_append {token : List Char} (h : first c (rest ++ more) = (token, left ++ more))
    (hrest : c :: rest = token ++ left) : first c rest = (token, left) := by
  unfold first at h ⊢
  cases hname : Text.isNameStart c with
  | true =>
    simp only [hname, if_true, Prod.mk.injEq] at h ⊢
    obtain ⟨rfl, -⟩ := h
    generalize hrun : (rest ++ more).takeWhile Text.isNameRest = run at hrest
    obtain rfl : rest = run ++ left := (List.cons.inj hrest).2
    obtain ⟨htake, hdrop⟩ := Text.span_of_span_append hrun
    exact ⟨by rw [htake], hdrop⟩
  | false =>
    cases hdigit : Text.isDecimalDigit c with
    | true =>
      simp only [hname, hdigit, Bool.false_eq_true, if_false, if_true, Prod.mk.injEq] at h ⊢
      obtain ⟨rfl, hleft⟩ := h
      generalize hrun : (rest ++ more).takeWhile Text.isDecimalDigit = run at hrest
      generalize hafter : (rest ++ more).dropWhile Text.isDecimalDigit = after at hrest hleft
      generalize hplaces : (fraction after).1 = places at hrest
      obtain rfl : rest = run ++ (places ++ left) := by simpa using hrest
      obtain rfl : after = places ++ left ++ more := by
        have hall := List.takeWhile_append_dropWhile (p := Text.isDecimalDigit)
          (l := run ++ (places ++ left) ++ more)
        rw [hrun, hafter] at hall
        simpa using hall
      obtain ⟨htake, hdrop⟩ := Text.span_of_span_append hrun
      rw [htake, hdrop, fraction_of_append (Prod.ext hplaces hleft)]
      exact ⟨rfl, rfl⟩
    | false =>
      simp only [hname, hdigit, Bool.false_eq_true, if_false, Prod.mk.injEq] at h ⊢
      exact ⟨h.1, List.append_cancel_right h.2⟩

/-- A text is cut between two tokens: its first part holds the first few of its tokens and no part of another
one. -/
def CutBetween (a b : List Char) : Prop :=
  ∃ before after, tokens (a ++ b) = before ++ after ∧ before.flatten = Text.ink a

/-- The first token of a text that is cut between two tokens lies before the cut. -/
theorem exists_left_of_cut {token : List Char} {before : List (List Char)} (hc : Text.isBlank c = false)
    (htoken : (first c (rest ++ b)).1 = token) (hflatten : token ++ before.flatten = Text.ink (c :: rest)) :
    ∃ left, c :: rest = token ++ left ∧ (first c (rest ++ b)).2 = left ++ b := by
  have hsplit := first_append c (rest ++ b)
  rw [htoken, ← List.cons_append] at hsplit
  rcases List.append_eq_append_iff.mp hsplit with ⟨left, hrest, hleft⟩ | ⟨run, hrun, hb⟩
  · exact ⟨left, hrest, hleft⟩
  · -- else the first part would be ink alone, and shorter than its own ink
    have hinked : Text.ink (c :: rest) = c :: rest := by
      refine Text.ink_of_inked fun d hd => @isBlank_of_mem_first c d (rest ++ b) hc ?_
      rw [htoken, hrun]
      exact List.mem_append_left _ hd
    have hlength := congrArg List.length hflatten
    rw [hinked, hrun] at hlength
    simp only [List.length_append] at hlength
    obtain rfl : run = [] := List.eq_nil_of_length_eq_zero (by omega)
    exact ⟨[], by rw [hrun, List.append_nil, List.append_nil], hb.symm⟩

/-- A text that is cut between two tokens has the tokens of its parts. -/
theorem CutBetween.tokens_eq (h : CutBetween a b) : tokens (a ++ b) = tokens a ++ tokens b := by
  induction a using tokensInduction with
  | nil => rfl
  | blank c rest hc ih =>
    obtain ⟨before, after, htokens, hflatten⟩ := h
    have hink : Text.ink (c :: rest) = Text.ink rest := List.filter_cons_of_neg (by simp [hc])
    rw [List.cons_append, tokens_cons, if_pos hc] at htokens
    rw [List.cons_append, tokens_cons, if_pos hc, tokens_cons c rest, if_pos hc]
    exact ih ⟨before, after, htokens, by rw [hflatten, hink]⟩
  | token c rest hc ih =>
    obtain ⟨before, after, htokens, hflatten⟩ := h
    have hnext : ¬ Text.isBlank c = true := by simp [hc]
    rw [List.cons_append, tokens_cons, if_neg hnext] at htokens
    cases before with
    | nil => simp [Text.ink, hc] at hflatten
    | cons token before =>
      obtain ⟨htoken, hlater⟩ := List.cons.inj htokens
      obtain ⟨left, hrest, hleft⟩ := exists_left_of_cut hc htoken hflatten
      have hfirst : first c rest = (token, left) := first_of_append (Prod.ext htoken hleft) hrest
      have hlaterInk : before.flatten = Text.ink left := by
        have htokenInk : Text.ink token = token := by
          refine Text.ink_of_inked fun d hd => @isBlank_of_mem_first c d rest hc ?_
          rwa [hfirst]
        rw [hrest, Text.ink_append, htokenInk, List.flatten_cons] at hflatten
        exact List.append_cancel_left hflatten
      rw [hleft] at hlater
      rw [hfirst] at ih
      rw [List.cons_append, tokens_cons, if_neg hnext, tokens_cons c rest, if_neg hnext, hfirst, htoken, hleft,
        ih ⟨before, after, hlater, hlaterInk⟩]
      rfl

end Cuts

/-- One change of the spacing of a text: blanks come in between two tokens, before the first or after the last
one, or blanks take the place of others. -/
inductive Respaced : List Char → List Char → Prop where
  | inserted {a w b : List Char} (cut : CutBetween a b) (blank : ∀ c ∈ w, Text.isBlank c = true) :
      Respaced (a ++ b) (a ++ w ++ b)
  | stretched {a w w' b : List Char} (blank : ∀ c ∈ w, Text.isBlank c = true)
      (blank' : ∀ c ∈ w', Text.isBlank c = true) (ne : w ≠ []) (ne' : w' ≠ []) :
      Respaced (a ++ w ++ b) (a ++ w' ++ b)

section Spacing

variable {a b s t : List Char}

/-- A change of the spacing leaves the tokens as they are. -/
theorem Respaced.tokens_eq (h : Respaced s t) : tokens s = tokens t := by
  cases h with
  | @inserted a w b cut blank =>
    by_cases hw : w = []
    · rw [hw, List.append_nil]
    · rw [cut.tokens_eq, tokens_append_blank blank hw]
  | stretched blank blank' ne ne' =>
    rw [tokens_append_blank blank ne, tokens_append_blank blank' ne']

theorem tokens_eq_of_eqvGen (h : Relation.EqvGen Respaced s t) : tokens s = tokens t := by
  induction h with
  | rel s t h => exact h.tokens_eq
  | refl s => rfl
  | symm s t _ ih => exact ih.symm
  | trans s t u _ _ hst htu => exact hst.trans htu

/-- A text that no token runs on from. -/
def Ended (a : List Char) : Prop := ∀ b, tokens (a ++ b) = tokens a ++ tokens b

theorem ended_nil : Ended [] := fun _ => rfl

theorem ended_space (a : List Char) : Ended (a ++ [' ']) := by
  have hblank : ∀ c ∈ [' '], Text.isBlank c = true := List.forall_mem_singleton.mpr rfl
  intro b
  have hend := tokens_append_blank hblank (by simp) a []
  rw [List.append_nil] at hend
  rw [tokens_append_blank hblank (by simp), hend, tokens_nil, List.append_nil]

theorem Ended.cut (h : Ended a) (b : List Char) : CutBetween a b :=
  ⟨tokens a, tokens b, h b, flatten_tokens a⟩

theorem isBlank_of_tokens_eq_nil (h : tokens t = []) : ∀ c ∈ t, Text.isBlank c = true := by
  have hnone := flatten_tokens t
  rw [h] at hnone
  simpa [Text.ink] using hnone.symm

/-- After a text that has ended, any other one can be spaced as its key is. -/
theorem Ended.respaced_key (h : Ended a) (t : List Char) :
    Relation.EqvGen Respaced (a ++ t) (a ++ Text.join [' '] (tokens t)) := by
  induction t using tokensInduction generalizing a with
  | nil => exact .refl _
  | blank c rest hc ih =>
    have hdropped : Respaced (a ++ rest) (a ++ [c] ++ rest) :=
      .inserted (h.cut rest) (by simpa using hc)
    rw [tokens_cons, if_pos hc]
    have hsame : a ++ c :: rest = a ++ [c] ++ rest := by simp
    rw [hsame]
    exact (Relation.EqvGen.rel _ _ hdropped).symm.trans _ _ _ (ih h)
  | token c rest hc ih =>
    have htokens : tokens (c :: rest) = (first c rest).1 :: tokens (first c rest).2 := by
      rw [tokens_cons, if_neg (by simp [hc])]
    have hsplit := first_append c rest
    have hinked := Text.ink_of_inked fun d hd => @isBlank_of_mem_first c d rest hc hd
    rw [htokens, ← hsplit, ← List.append_assoc]
    rw [← hsplit] at htokens
    generalize (first c rest).1 = token at *
    generalize (first c rest).2 = left at *
    cases hleft : tokens left with
    | nil =>
      have hcut : CutBetween (a ++ token) [] := ⟨_, [], by simp, flatten_tokens _⟩
      have hdropped : Respaced (a ++ token) (a ++ token ++ left) := by
        simpa using Respaced.inserted hcut (isBlank_of_tokens_eq_nil hleft)
      exact (Relation.EqvGen.rel _ _ hdropped).symm
    | cons next others =>
      have hcut : CutBetween (a ++ token) left := by
        refine ⟨tokens a ++ [token], tokens left, ?_, ?_⟩
        · rw [List.append_assoc, h, htokens, List.append_assoc]
          rfl
        · simp [flatten_tokens, Text.ink_append, hinked]
      have hparted : Respaced (a ++ token ++ left) (a ++ token ++ [' '] ++ left) :=
        .inserted hcut (List.forall_mem_singleton.mpr rfl)
      have hlater := ih (ended_space (a ++ token))
      rw [hleft] at hlater
      have hjoin : a ++ Text.join [' '] (token :: next :: others) =
          a ++ token ++ [' '] ++ Text.join [' '] (next :: others) := by
        simp [Text.join]
      rw [hjoin]
      exact (Relation.EqvGen.rel _ _ hparted).trans _ _ _ hlater

end Spacing

end Key

namespace Text

/-- Pieces that are joined in two groups are joined in one, an empty group leaving no trace. -/
theorem join_append {separator : List Char} {xs ys : List (List Char)} (hx : xs ≠ []) (hy : ys ≠ []) :
    join separator (xs ++ ys) = join separator xs ++ separator ++ join separator ys := by
  induction xs with
  | nil => exact absurd rfl hx
  | cons x xs ih =>
    cases xs with
    | nil =>
      obtain ⟨y, ys, rfl⟩ := List.exists_cons_of_ne_nil hy
      rfl
    | cons next others =>
      have hlater := ih (by simp)
      simp only [List.cons_append, join] at hlater ⊢
      rw [hlater]
      simp

end Text

/-- A text can be spaced as its key is. -/
theorem respaced_canonicalKey (t : String) :
    Relation.EqvGen Key.Respaced t.toList (canonicalKey t).toList := by
  rw [canonicalKey, String.toList_ofList]
  exact Key.ended_nil.respaced_key t.toList

theorem canonicalKey_eq_of_tokens {s t : String} (h : Key.tokens s.toList = Key.tokens t.toList) :
    canonicalKey s = canonicalKey t := by
  rw [canonicalKey, canonicalKey, h]

theorem tokens_eq_nil_iff {t : String} : Key.tokens t.toList = [] ↔ canonicalKey t = "" := by
  constructor
  · intro h
    rw [canonicalKey, h]
    rfl
  · intro h
    have hink := ink_canonicalKey t
    rw [h] at hink
    have hblank : ∀ c ∈ t.toList, Text.isBlank c = true := by simpa [Text.ink] using hink.symm
    simpa using Key.tokens_of_blank hblank []

/-- The key of two texts with a space between them. -/
theorem canonicalKey_append (s t : String) :
    canonicalKey (s ++ " " ++ t) = " ".intercalate ([canonicalKey s, canonicalKey t].filter (· ≠ "")) := by
  have htokens : Key.tokens (s ++ " " ++ t).toList = Key.tokens s.toList ++ Key.tokens t.toList := by
    rw [String.toList_append, String.toList_append]
    exact Key.tokens_append_blank (List.forall_mem_singleton.mpr rfl) (by simp) s.toList t.toList
  by_cases hs : canonicalKey s = ""
  · have hsame : canonicalKey (s ++ " " ++ t) = canonicalKey t := by
      refine canonicalKey_eq_of_tokens ?_
      rw [htokens, tokens_eq_nil_iff.mpr hs, List.nil_append]
    by_cases ht : canonicalKey t = "" <;> simp [hsame, hs, ht]
  · by_cases ht : canonicalKey t = ""
    · have hsame : canonicalKey (s ++ " " ++ t) = canonicalKey s := by
        refine canonicalKey_eq_of_tokens ?_
        rw [htokens, tokens_eq_nil_iff.mpr ht, List.append_nil]
      simp [hsame, hs, ht]
    · have hjoined : " ".intercalate [canonicalKey s, canonicalKey t] =
          canonicalKey s ++ " " ++ canonicalKey t := by simp
      have hboth : [canonicalKey s, canonicalKey t].filter (· ≠ "") = [canonicalKey s, canonicalKey t] := by
        simp [hs, ht]
      rw [hboth, hjoined, canonicalKey, htokens,
        Text.join_append (mt tokens_eq_nil_iff.mp hs) (mt tokens_eq_nil_iff.mp ht), String.ofList_append,
        String.ofList_append]
      rfl

/-- Keys ignore exactly the spacing between tokens. The key of a key is the key itself; the key of two texts with
a space between them is that of the first and that of the second, with a space between them if both are there;
and two texts have one key exactly if one becomes the other by changes of the spacing between tokens. -/
theorem canonicalKey_ignores_exactly_spacing (s t : String) :
    canonicalKey (canonicalKey t) = canonicalKey t ∧
    canonicalKey (s ++ " " ++ t) = " ".intercalate ([canonicalKey s, canonicalKey t].filter (· ≠ "")) ∧
    (canonicalKey s = canonicalKey t ↔ Relation.EqvGen Key.Respaced s.toList t.toList) := by
  refine ⟨?_, ?_, ?_, ?_⟩
  · exact (canonicalKey_eq_of_tokens (Key.tokens_eq_of_eqvGen (respaced_canonicalKey t))).symm
  · exact canonicalKey_append s t
  · intro h
    have hs := respaced_canonicalKey s
    rw [h] at hs
    exact hs.trans _ _ _ (respaced_canonicalKey t).symm
  · exact fun h => canonicalKey_eq_of_tokens (Key.tokens_eq_of_eqvGen h)

end CrateSafety
