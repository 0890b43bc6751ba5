import CrateSafety.Proofs.LexemeExtension
import CrateSafety.Proofs.WrittenField

/-!
# Marks and casts of operands

What an operand loses before it is read: the blanks around it, the marks of references and pointers before it,
and a cast to its end. A text that goes on with a cast loses the same before the cast, and from the cast on
either everything or nothing.
-/

namespace CrateSafety

namespace Text

/-- A text ends in a character that is not blank. -/
def EndsInInk (cs : List Char) : Prop :=
  ∃ c ∈ cs.getLast?, isBlank c = false

theorem EndsInInk.ne_nil {cs : List Char} (h : EndsInInk cs) : cs ≠ [] := by
  rintro rfl
  obtain ⟨c, hc, -⟩ := h
  cases hc

theorem EndsInInk.of_suffix {cs rest : List Char} (h : EndsInInk cs) (hs : rest <:+ cs) (hne : rest ≠ []) :
    EndsInInk rest := by
  obtain ⟨c, hc, hink⟩ := h
  obtain ⟨lead, rfl⟩ := hs
  refine ⟨c, ?_, hink⟩
  rwa [List.getLast?_append_of_ne_nil _ hne] at hc

theorem EndsInInk.dropWhile_ne_nil {cs : List Char} (h : EndsInInk cs) : cs.dropWhile isBlank ≠ [] := by
  obtain ⟨c, hc, hink⟩ := h
  intro hnil
  have := List.dropWhile_eq_nil_iff.1 hnil c (List.mem_of_getLast? hc)
  rw [hink] at this
  cases this

theorem EndsInInk.dropWhile {cs : List Char} (h : EndsInInk cs) : EndsInInk (cs.dropWhile isBlank) :=
  h.of_suffix (List.dropWhile_suffix _) h.dropWhile_ne_nil

theorem dropEndWhile_append_cons {p : Char → Bool} {c : Char} (hc : p c = false) (u v : List Char) :
    dropEndWhile p (u ++ c :: v) = u ++ c :: dropEndWhile p v := by
  have hstop : ∀ w : List Char, (w ++ c :: u.reverse).dropWhile p = w.dropWhile p ++ c :: u.reverse := by
    intro w
    induction w with
    | nil => rw [List.nil_append, List.dropWhile_cons_of_neg (by simp [hc])]; rfl
    | cons d w ih =>
      by_cases hd : p d = true
      · rw [List.cons_append, List.dropWhile_cons_of_pos hd, List.dropWhile_cons_of_pos hd, ih]
      · rw [List.cons_append, List.dropWhile_cons_of_neg hd, List.dropWhile_cons_of_neg hd, List.cons_append]
  unfold dropEndWhile
  rw [List.reverse_append, List.reverse_cons, List.append_assoc, List.singleton_append, hstop]
  simp

theorem exists_dropEndWhile_append (p : Char → Bool) (cs : List Char) :
    ∃ more, cs = dropEndWhile p cs ++ more ∧ ∀ c ∈ more, p c = true := by
  refine ⟨(cs.reverse.takeWhile p).reverse, ?_, ?_⟩
  · rw [dropEndWhile, ← List.reverse_append, List.takeWhile_append_dropWhile, List.reverse_reverse]
  · intro c hc
    exact List.mem_takeWhile_imp (List.mem_reverse.1 hc)

theorem endsInInk_trim {cs : List Char} (h : trim cs ≠ []) : EndsInInk (trim cs) := by
  unfold trim dropEndWhile at h ⊢
  have hhead := List.head?_dropWhile_not isBlank (cs.dropWhile isBlank).reverse
  obtain ⟨c, rest, heq⟩ := List.exists_cons_of_ne_nil (List.reverse_eq_nil_iff.not.1 h)
  rw [heq] at hhead
  exact ⟨c, by simp [heq], hhead⟩

theorem exists_ink_of_trim {cs : List Char} (h : trim cs ≠ []) :
    ∃ before c after, cs = before ++ c :: after ∧ isBlank c = false := by
  obtain ⟨c, hc, hink⟩ := endsInInk_trim h
  obtain ⟨more, hmore, -⟩ := exists_dropEndWhile_append isBlank (cs.dropWhile isBlank)
  have hmem : c ∈ cs.dropWhile isBlank := by
    rw [hmore]
    exact List.mem_append_left _ (List.mem_of_getLast? hc)
  obtain ⟨before, after, heq⟩ := List.append_of_mem ((List.dropWhile_sublist _).subset hmem)
  exact ⟨before, c, after, heq, hink⟩

theorem dropStart?_append {start cs : List Char} {c : Char} (hc : c ∉ start) (rest : List Char) :
    dropStart? start (cs ++ c :: rest) = (dropStart? start cs).map (· ++ c :: rest) := by
  fun_induction dropStart? start cs with
  | case1 cs => rfl
  | case2 p ps d cs heq ih =>
    rw [List.cons_append, dropStart?, if_pos heq]
    exact ih (fun h => hc (List.mem_cons_of_mem _ h))
  | case3 p ps d cs hne =>
    rw [List.cons_append, dropStart?, if_neg hne]
    rfl
  | case4 p ps =>
    have hp : ¬ (p == c) = true := by
      intro h
      exact hc (by simp [beq_iff_eq.1 h])
    rw [List.nil_append, dropStart?, if_neg hp]
    rfl

theorem replacePair_append {a b c : Char} (image : List Char) (ha : c ≠ a) (hb : c ≠ b) (cs rest : List Char) :
    replacePair a b image (cs ++ c :: rest) = replacePair a b image cs ++ c :: replacePair a b image rest := by
  fun_induction replacePair a b image cs with
  | case1 x y more h ih =>
    rw [List.cons_append, List.cons_append, replacePair, if_pos h, ih, List.append_assoc]
  | case2 x y more h ih =>
    rw [List.cons_append] at ih
    rw [List.cons_append, List.cons_append, replacePair, if_neg h, ih, List.cons_append]
  | case3 cs hshort =>
    have hfirst : replacePair a b image (c :: rest) = c :: replacePair a b image rest := by
      cases rest with
      | nil => rfl
      | cons d rest => rw [replacePair, if_neg (by simp [ha])]
    rcases cs with _ | ⟨x, _ | ⟨y, more⟩⟩
    · exact hfirst
    · rw [List.singleton_append, replacePair, if_neg (by simp [hb]), hfirst]
      rfl
    · exact (hshort x y more rfl).elim

theorem replacePair_append_of_not_mem {a b : Char} (image : List Char) {cs : List Char} (ha : a ∉ cs)
    (hb : b ∉ cs) (rest : List Char) : replacePair a b image (cs ++ rest) = cs ++ replacePair a b image rest := by
  induction cs with
  | nil => rfl
  | cons c cs ih =>
    obtain ⟨hca, ha⟩ := not_or.1 (List.mem_cons.not.1 ha)
    obtain ⟨hcb, hb⟩ := not_or.1 (List.mem_cons.not.1 hb)
    have hfirst := replacePair_append image (Ne.symm hca) (Ne.symm hcb) [] (cs ++ rest)
    rw [List.nil_append, ih ha hb] at hfirst
    exact hfirst

/-- A text that goes on with a blank and the word `as` is trimmed before it and after it. -/
theorem trim_append_cast {cs : List Char} (h : trim cs ≠ []) (rest : List Char) :
    ∃ blanks, blanks ≠ [] ∧ (∀ c ∈ blanks, isBlank c = true) ∧
      trim (cs ++ ' ' :: 'a' :: 's' :: rest) =
        trim cs ++ (blanks ++ 'a' :: 's' :: dropEndWhile isBlank rest) := by
  obtain ⟨blanks, hlead, hblanks⟩ := exists_dropEndWhile_append isBlank (cs.dropWhile isBlank)
  have hne : cs.dropWhile isBlank ≠ [] := by
    intro hnil
    rw [trim, hnil] at h
    exact h rfl
  refine ⟨blanks ++ [' '], by simp, ?_, ?_⟩
  · intro c hc
    rcases List.mem_append.1 hc with hc | hc
    · exact hblanks c hc
    · rw [List.mem_singleton.1 hc]
      decide
  · have hword :=
      dropEndWhile_append_cons (p := isBlank) (c := 's') (by decide) (cs.dropWhile isBlank ++ [' ', 'a']) rest
    rw [trim, dropWhile_append_of_dropWhile hne]
    rw [List.append_assoc, List.append_assoc] at hword
    simp only [List.cons_append, List.nil_append] at hword
    rw [hword]
    conv_lhs => rw [hlead]
    simp [trim]

end Text

namespace Reading

open Text

variable {c : Char} {k t : List Char}

/-- A text ends in the mark of a reference that may be written through. -/
def EndsInMark (cs : List Char) : Prop :=
  ∃ before gap, cs = before ++ '&' :: (gap ++ ['m', 'u', 't']) ∧ ∀ c ∈ gap, isBlank c = true

theorem EndsInMark.of_suffix {cs rest : List Char} (h : EndsInMark rest) (hs : rest <:+ cs) : EndsInMark cs := by
  obtain ⟨before, gap, rfl, hgap⟩ := h
  obtain ⟨lead, rfl⟩ := hs
  exact ⟨lead ++ before, gap, (List.append_assoc ..).symm, hgap⟩

theorem dropMark?_eq_none_iff {d : Char} : dropMark? (d :: k) = none ↔ d ≠ '&' ∧ d ≠ '*' := by
  constructor
  · intro h
    refine ⟨?_, ?_⟩
    · rintro rfl
      rw [dropMark?] at h
      split at h
      · split at h <;> cases h
      · cases h
    · rintro rfl
      cases h
  · rintro ⟨hreference, hpointer⟩
    rw [dropMark?]
    · exact fun _ heq => hreference (List.cons.inj heq).1
    · exact fun _ heq => hpointer (List.cons.inj heq).1

theorem suffix_of_dropStart? {start cs rest : List Char} (h : dropStart? start cs = some rest) : rest <:+ cs :=
  ⟨start, (dropStart?_eq_some_iff.1 h).symm⟩

theorem dropMark?_suffix {d : Char} {rest : List Char} (h : dropMark? (d :: k) = some rest) : rest <:+ k := by
  have hblanks : ∀ {cs : List Char}, cs.dropWhile isBlank <:+ cs := List.dropWhile_suffix _
  have hd : d = '&' ∨ d = '*' := by
    by_contra hd
    rw [dropMark?_eq_none_iff.2 (not_or.1 hd)] at h
    cases h
  rcases hd with rfl | rfl
  · rw [dropMark?] at h
    split at h
    · next e more hstart =>
      split at h <;> cases h
      · exact hblanks.trans ((List.suffix_cons e more).trans ((suffix_of_dropStart? hstart).trans hblanks))
      · exact List.suffix_rfl
    · cases h
      exact List.suffix_rfl
  · rw [dropMark?] at h
    cases h
    refine hblanks.trans (List.IsSuffix.trans ?_ hblanks)
    cases hstart : (dropStart? ['c', 'o', 'n', 's', 't'] (k.dropWhile isBlank)).or
        (dropStart? ['m', 'u', 't'] (k.dropWhile isBlank)) with
    | none => exact List.suffix_rfl
    | some after =>
      rcases Option.or_eq_some_iff.1 hstart with h | ⟨-, h⟩
      · exact suffix_of_dropStart? h
      · exact suffix_of_dropStart? h

theorem dropReference_append (hc : isBlank c = true) (hink : EndsInInk k) {rest : List Char}
    (h : dropMark? ('&' :: k) = some rest) :
    dropMark? ('&' :: (k ++ c :: t)) = some (rest ++ c :: t) ∨
      EndsInMark ('&' :: k) ∧ dropMark? ('&' :: (k ++ c :: t)) = some (t.dropWhile isBlank) := by
  have hmut : c ∉ ['m', 'u', 't'] := not_mem_of_isBlank (by decide) hc
  rw [dropMark?] at h ⊢
  rw [dropWhile_append_of_dropWhile hink.dropWhile_ne_nil, dropStart?_append hmut]
  cases hstart : dropStart? ['m', 'u', 't'] (k.dropWhile isBlank) with
  | none =>
    rw [hstart] at h
    cases h
    exact .inl rfl
  | some after =>
    have hafter : k.dropWhile isBlank = ['m', 'u', 't'] ++ after := dropStart?_eq_some_iff.1 hstart
    rw [hstart] at h
    cases after with
    | nil =>
      cases h
      refine .inr ⟨⟨[], k.takeWhile isBlank, ?_, fun d => List.mem_takeWhile_imp⟩, ?_⟩
      · rw [List.nil_append, ← List.append_nil ['m', 'u', 't'], ← hafter, List.takeWhile_append_dropWhile]
      · dsimp only [Option.map_some, List.nil_append]
        rw [if_pos hc]
    | cons d after =>
      dsimp only [Option.map_some, List.cons_append] at h ⊢
      split at h
      · next hd =>
        cases h
        have hink' : EndsInInk (d :: after) :=
          hink.dropWhile.of_suffix ⟨['m', 'u', 't'], hafter.symm⟩ (List.cons_ne_nil d after)
        have hne : (d :: after).dropWhile isBlank ≠ [] := hink'.dropWhile_ne_nil
        rw [List.dropWhile_cons_of_pos hd] at hne
        rw [if_pos hd, dropWhile_append_of_dropWhile hne]
        exact .inl rfl
      · next hd =>
        cases h
        rw [if_neg hd]
        exact .inl rfl

theorem dropPointer_append (hc : isBlank c = true) (hink : EndsInInk k) {rest : List Char}
    (h : dropMark? ('*' :: k) = some rest) (hne : rest ≠ []) :
    dropMark? ('*' :: (k ++ c :: t)) = some (rest ++ c :: t) := by
  have hconst : c ∉ ['c', 'o', 'n', 's', 't'] := not_mem_of_isBlank (by decide) hc
  have hmut : c ∉ ['m', 'u', 't'] := not_mem_of_isBlank (by decide) hc
  rw [dropMark?] at h ⊢
  rw [dropWhile_append_of_dropWhile hink.dropWhile_ne_nil, dropStart?_append hconst, dropStart?_append hmut,
    ← Option.map_or]
  cases hstart : (dropStart? ['c', 'o', 'n', 's', 't'] (k.dropWhile isBlank)).or
      (dropStart? ['m', 'u', 't'] (k.dropWhile isBlank)) with
  | none =>
    rw [hstart] at h
    cases h
    exact congrArg some (dropWhile_append_of_dropWhile hne)
  | some after =>
    rw [hstart] at h
    cases h
    exact congrArg some (dropWhile_append_of_dropWhile hne)

/-- A mark is dropped with the blanks after it whatever follows the text, unless it makes up the end of the
text: a mark that is followed by a blank takes in the word `mut`. -/
theorem dropMark?_append (hc : isBlank c = true) (hink : EndsInInk k) {rest : List Char}
    (h : dropMark? k = some rest) (hne : rest ≠ []) :
    dropMark? (k ++ c :: t) = some (rest ++ c :: t) ∨
      EndsInMark k ∧ dropMark? (k ++ c :: t) = some (t.dropWhile isBlank) := by
  obtain ⟨d, k, rfl⟩ := List.exists_cons_of_ne_nil hink.ne_nil
  have hk : k ≠ [] := by
    rintro rfl
    exact hne (List.suffix_nil.1 (dropMark?_suffix h))
  have hink' : EndsInInk k := hink.of_suffix (List.suffix_cons d k) hk
  by_cases hreference : d = '&'
  · subst hreference
    exact dropReference_append hc hink' h
  by_cases hpointer : d = '*'
  · subst hpointer
    exact .inl (dropPointer_append hc hink' h hne)
  rw [dropMark?_eq_none_iff.2 ⟨hreference, hpointer⟩] at h
  cases h

/-- The marks before a text are dropped whatever follows it. -/
theorem dropMarks_append (hc : isBlank c = true) (hink : EndsInInk k) {n m : Nat} (hn : k.length ≤ n)
    (hm : k.length ≤ m) (hne : dropMarks n k ≠ []) :
    dropMarks m (k ++ c :: t) = dropMarks n k ++ c :: t ∨
      EndsInMark k ∧ ∃ i, dropMarks m (k ++ c :: t) = dropMarks i (t.dropWhile isBlank) := by
  induction n generalizing m k with
  | zero => exact absurd (List.length_eq_zero_iff.1 (Nat.le_zero.1 hn)) hink.ne_nil
  | succ n ih =>
    obtain ⟨d, k, rfl⟩ := List.exists_cons_of_ne_nil hink.ne_nil
    rw [List.length_cons] at hn hm
    obtain ⟨m, rfl⟩ : ∃ i, m = i + 1 := Nat.exists_eq_succ_of_ne_zero (by omega)
    rw [dropMarks] at hne ⊢
    rw [dropMarks]
    cases hmark : dropMark? (d :: k) with
    | none =>
      have hmore : dropMark? (d :: (k ++ c :: t)) = none :=
        dropMark?_eq_none_iff.2 (dropMark?_eq_none_iff.1 hmark)
      rw [List.cons_append, hmore]
      exact .inl rfl
    | some rest =>
      rw [hmark] at hne
      dsimp only at hne ⊢
      have hsuffix := dropMark?_suffix hmark
      have hlength := hsuffix.length_le
      have hrest : rest ≠ [] := by
        rintro rfl
        exact hne (by cases n <;> rfl)
      rcases dropMark?_append (t := t) hc hink hmark hrest with h | ⟨hends, h⟩
      · rw [h]
        have hsuffix' := hsuffix.trans (List.suffix_cons d k)
        rcases ih (m := m) (hink.of_suffix hsuffix' hrest) (by omega) (by omega) hne with h | ⟨hends, h⟩
        · exact .inl h
        · exact .inr ⟨hends.of_suffix hsuffix', h⟩
      · rw [h]
        exact .inr ⟨hends, m, rfl⟩

theorem dropMarks_suffix (n : Nat) (k : List Char) : dropMarks n k <:+ k := by
  induction n generalizing k with
  | zero => exact List.suffix_rfl
  | succ n ih =>
    rw [dropMarks]
    cases hmark : dropMark? k with
    | none => exact List.suffix_rfl
    | some rest =>
      cases k with
      | nil => cases hmark
      | cons d k => exact (ih rest).trans ((dropMark?_suffix hmark).trans (List.suffix_cons d k))

/-! ### Casts -/

/-- A cast in a text: a blank, the word `as`, and a blank or the end. -/
def HasCast (cs : List Char) : Prop :=
  ∃ before c after, cs = before ++ c :: 'a' :: 's' :: after ∧ isBlank c = true ∧
    ∀ d ∈ after.head?, isBlank d = true

theorem HasCast.of_suffix {cs rest : List Char} (h : HasCast rest) (hs : rest <:+ cs) : HasCast cs := by
  obtain ⟨before, c, after, rfl, hc, hafter⟩ := h
  obtain ⟨lead, rfl⟩ := hs
  exact ⟨lead ++ before, c, after, (List.append_assoc ..).symm, hc, hafter⟩

theorem HasCast.append {cs blanks : List Char} (h : HasCast cs) (hblanks : ∀ c ∈ blanks, isBlank c = true) :
    HasCast (cs ++ blanks) := by
  obtain ⟨before, c, after, rfl, hc, hafter⟩ := h
  refine ⟨before, c, after ++ blanks, by simp, hc, ?_⟩
  cases after with
  | nil => exact fun d hd => hblanks d (List.mem_of_head? hd)
  | cons d after => exact hafter

/-- A cast to the end of a text starts with blanks and the word `as`, and its line is the last one. -/
theorem castFirst_eq_true_iff {cs : List Char} :
    castFirst cs = true ↔ ∃ blanks d rest, cs = blanks ++ 'a' :: 's' :: d :: rest ∧ blanks ≠ [] ∧
      (∀ c ∈ blanks, isBlank c = true) ∧ isBlank d = true ∧ '\n' ∉ rest.dropWhile isBlank := by
  constructor
  · intro h
    cases cs with
    | nil => cases h
    | cons c cs =>
      obtain ⟨hc, h⟩ := Bool.and_eq_true_iff.1 h
      split at h
      · next d rest hstart =>
        obtain ⟨hd, hrest⟩ := Bool.and_eq_true_iff.1 h
        refine ⟨(c :: cs).takeWhile isBlank, d, rest, ?_, ?_, fun d => List.mem_takeWhile_imp, hd, ?_⟩
        · rw [show 'a' :: 's' :: d :: rest = ['a', 's'] ++ d :: rest from rfl, ← dropStart?_eq_some_iff.1 hstart,
            List.takeWhile_append_dropWhile]
        · rw [List.takeWhile_cons_of_pos hc]
          exact List.cons_ne_nil _ _
        · simpa using hrest
      · cases h
  · rintro ⟨blanks, d, rest, rfl, hne, hblanks, hd, hrest⟩
    obtain ⟨c, blanks, rfl⟩ := List.exists_cons_of_ne_nil hne
    have hdrop : (c :: blanks ++ 'a' :: 's' :: d :: rest).dropWhile isBlank = ['a', 's'] ++ d :: rest := by
      rw [List.dropWhile_append_of_pos hblanks]
      rfl
    have hstart := dropStart?_eq_some_iff.2 hdrop
    rw [List.cons_append] at hstart ⊢
    rw [castFirst, hstart, hblanks c List.mem_cons_self]
    simpa [hd] using hrest

/-- A cast starts in a text that ends in ink only where the text has it. -/
theorem hasCast_of_castFirst (hink : EndsInInk k) {z : List Char} (hz : ∀ d ∈ z.head?, isBlank d = true)
    (h : castFirst (k ++ z) = true) : HasCast k := by
  obtain ⟨blanks, d, rest, heq, hne, hblanks, hd, -⟩ := castFirst_eq_true_iff.1 h
  have hdrop : k.dropWhile isBlank ++ z = 'a' :: 's' :: d :: rest := by
    rw [← dropWhile_append_of_dropWhile hink.dropWhile_ne_nil, heq, List.dropWhile_append_of_pos hblanks]
    rfl
  have hlead : k.takeWhile isBlank ≠ [] := by
    obtain ⟨c, k, rfl⟩ := List.exists_cons_of_ne_nil hink.ne_nil
    obtain ⟨b, blanks, rfl⟩ := List.exists_cons_of_ne_nil hne
    have hc : isBlank c = true := by
      rw [(List.cons.inj heq).1]
      exact hblanks b List.mem_cons_self
    rw [List.takeWhile_cons_of_pos hc]
    exact List.cons_ne_nil _ _
  have hk := List.takeWhile_append_dropWhile (p := isBlank) (l := k)
  rcases hword : k.dropWhile isBlank with _ | ⟨x, _ | ⟨y, after⟩⟩
  · exact absurd hword hink.dropWhile_ne_nil
  · simp only [hword, List.cons_append, List.nil_append, List.cons.injEq] at hdrop
    have hs := hz 's' (by rw [hdrop.2]; rfl)
    cases hs
  · simp only [hword, List.cons_append, List.cons.injEq] at hdrop
    obtain ⟨rfl, rfl, hafter⟩ := hdrop
    rw [hword] at hk
    refine ⟨(k.takeWhile isBlank).dropLast, (k.takeWhile isBlank).getLast hlead, after, ?_, ?_, ?_⟩
    · rw [List.append_cons, List.dropLast_append_getLast, hk]
    · exact List.mem_takeWhile_imp (List.getLast_mem hlead)
    · cases after with
      | nil => exact fun _ h => nomatch h
      | cons e after =>
        rw [(List.cons.inj hafter).1]
        exact fun _ h => Option.some.inj h ▸ hd

/-- A text without a cast keeps all its characters, and so do casts after it all of theirs that they keep
alone. -/
theorem dropCasts_append (hink : k = [] ∨ EndsInInk k) (hfree : ¬ HasCast k) {z : List Char}
    (hz : ∀ d ∈ z.head?, isBlank d = true) : dropCasts (k ++ z) = k ++ dropCasts z := by
  induction k with
  | nil => rfl
  | cons c k ih =>
    have hink := hink.resolve_left (List.cons_ne_nil c k)
    have hfirst : ¬ castFirst (c :: (k ++ z)) = true := fun h => hfree (hasCast_of_castFirst hink hz h)
    have hrest : k = [] ∨ EndsInInk k := by
      by_cases hk : k = []
      · exact .inl hk
      · exact .inr (hink.of_suffix (List.suffix_cons c k) hk)
    have hfree' : ¬ HasCast k := fun h => hfree (h.of_suffix (List.suffix_cons c k))
    rw [List.cons_append, dropCasts, if_neg hfirst, ih hrest hfree']
    rfl

/-- Casts are dropped to the end of the text or not at all. -/
theorem prefix_dropCasts (cs : List Char) : dropCasts cs <+: cs := by
  induction cs with
  | nil => exact List.prefix_rfl
  | cons c cs ih =>
    rw [dropCasts]
    split
    · exact List.nil_prefix
    · exact List.cons_prefix_cons.2 ⟨rfl, ih⟩

theorem castFirst_of_ink {cs : List Char} (hc : isBlank c = false) : castFirst (c :: cs) = false := by
  rw [castFirst, hc, Bool.false_and]

/-- Only what follows the word `as` tells whether a cast to the end starts at the blanks before it. -/
theorem castFirst_blanks {blanks rest : List Char} (hc : isBlank c = true)
    (hblanks : ∀ c ∈ blanks, isBlank c = true) :
    castFirst (c :: (blanks ++ 'a' :: 's' :: rest)) = castFirst (' ' :: 'a' :: 's' :: rest) := by
  have hdrop : (c :: (blanks ++ 'a' :: 's' :: rest)).dropWhile isBlank =
      (' ' :: 'a' :: 's' :: rest).dropWhile isBlank := by
    rw [List.dropWhile_cons_of_pos hc, List.dropWhile_append_of_pos hblanks]
    rfl
  have hspace : isBlank ' ' = true := by decide
  rw [castFirst, castFirst, hc, hdrop, hspace]

/-- Where no cast to the end starts at a word `as`, the word is kept with the blanks before it. -/
theorem dropCasts_word {blanks rest : List Char} (hblanks : ∀ c ∈ blanks, isBlank c = true)
    (h : castFirst (' ' :: 'a' :: 's' :: rest) = false) :
    dropCasts (blanks ++ 'a' :: 's' :: rest) = blanks ++ 'a' :: 's' :: dropCasts rest := by
  induction blanks with
  | nil =>
    rw [List.nil_append, dropCasts, castFirst_of_ink (by decide), dropCasts, castFirst_of_ink (by decide)]
    rfl
  | cons c blanks ih =>
    obtain ⟨hc, hrest⟩ := List.forall_mem_cons.1 hblanks
    rw [List.cons_append, dropCasts, castFirst_blanks hc hrest, h, ih hrest]
    rfl

/-- From the first cast on nothing is kept, if no newline comes after it. -/
theorem dropCasts_cut {blanks rest : List Char} (hne : blanks ≠ []) (hblanks : ∀ c ∈ blanks, isBlank c = true)
    (h : castFirst (' ' :: 'a' :: 's' :: rest) = true) : dropCasts (blanks ++ 'a' :: 's' :: rest) = [] := by
  obtain ⟨c, blanks, rfl⟩ := List.exists_cons_of_ne_nil hne
  obtain ⟨hc, hrest⟩ := List.forall_mem_cons.1 hblanks
  rw [List.cons_append, dropCasts, castFirst_blanks hc hrest, h]
  rfl

end Reading

end CrateSafety
