import CrateSafety.Proofs.CastWords
import CrateSafety.Proofs.LexemeExtension

/-!
# Tokens before a cast

A text that goes on with blanks and the word `as` has the tokens of the text first. Either the word is a token
after them, or a comment at the end of the text takes it in and the tokens are the same. An expression has no
such word, so the longer text is read as the expression of the text or is no expression.
-/

namespace CrateSafety

namespace Token

variable {c : Char} {cs z : List Char}

theorem isBlank_of_isLineBlank (h : isLineBlank c = true) : Text.isBlank c = true := by
  simp only [isLineBlank, Bool.or_eq_true, beq_iff_eq] at h
  rcases h with (rfl | rfl) | h
  · decide
  · decide
  · simp [Text.isBlank, h]

theorem isBlank_of_isNewline (h : isNewline c = true) : Text.isBlank c = true := by
  simp only [isNewline, Bool.or_eq_true, beq_iff_eq] at h
  rcases h with rfl | rfl <;> decide

theorem scanLexeme_comment (rest : List Char) : scanLexeme ('#' :: rest) = none := by
  have hliteral : scanLiteral ('#' :: rest) = none := by
    rcases rest with _ | ⟨b, _ | ⟨d, rest⟩⟩ <;> rfl
  have hsymbol : scanSymbol ('#' :: rest) = none := by rfl
  simp [scanLexeme, hliteral, numberFirst, isIdentifierLike, Text.isNameRest, hsymbol]

/-- No lexeme starts where only comments are left. -/
theorem scanLexeme_of_onlyComments {rest : List Char} (h : onlyComments false (c :: rest) = true)
    (more : List Char) : scanLexeme (c :: more) = none := by
  unfold onlyComments at h
  split at h
  · next hnewline => exact scanLexeme_of_isBlank (isBlank_of_isNewline hnewline) more
  · split at h
    · next hblank => exact scanLexeme_of_isBlank (isBlank_of_isLineBlank (by simpa using hblank)) more
    · obtain ⟨hsharp, -⟩ := Bool.and_eq_true_iff.1 h
      rw [beq_iff_eq.1 hsharp]
      exact scanLexeme_comment more

theorem onlyComments_of_append {comment : Bool} (h : onlyComments comment (cs ++ z) = true) :
    onlyComments comment cs = true := by
  fun_induction onlyComments comment cs <;> grind [onlyComments]

theorem onlyComments_blanks {blanks : List Char} (hblanks : ∀ c ∈ blanks, Text.isBlank c = true)
    (rest : List Char) : onlyComments false (blanks ++ 'a' :: rest) = false := by
  induction blanks with
  | nil => rfl
  | cons c blanks ih =>
    obtain ⟨hc, hblanks⟩ := List.forall_mem_cons.1 hblanks
    have hsharp : c ≠ '#' := Text.ne_of_isBlank hc (by decide)
    grind [onlyComments]

/-! ### Gaps -/

theorem scanGap_comment (nested : Bool) (c : Char) (cs : List Char) :
    scanGap nested true (c :: cs) =
      (c :: (scanGap nested (!isNewline c) cs).1, (scanGap nested (!isNewline c) cs).2) := by
  rw [scanGap.eq_def]
  rfl

section Gap

variable {nested comment : Bool} (hcomment : ¬ comment = true)

include hcomment

theorem scanGap_blank (hblank : (isLineBlank c || nested && isNewline c) = true) (cs : List Char) :
    scanGap nested comment (c :: cs) = (c :: (scanGap nested false cs).1, (scanGap nested false cs).2) := by
  rw [scanGap.eq_def]
  dsimp only
  rw [if_neg hcomment, if_pos hblank]

theorem scanGap_sharp (hblank : ¬ (isLineBlank c || nested && isNewline c) = true)
    (hsharp : (nested && c == '#') = true) (cs : List Char) :
    scanGap nested comment (c :: cs) = (c :: (scanGap nested true cs).1, (scanGap nested true cs).2) := by
  rw [scanGap.eq_def]
  dsimp only
  rw [if_neg hcomment, if_neg hblank, if_pos hsharp]

theorem scanGap_stop (hblank : ¬ (isLineBlank c || nested && isNewline c) = true)
    (hsharp : ¬ (nested && c == '#') = true) (hescape : ¬ (c == '\\') = true) (cs : List Char) :
    scanGap nested comment (c :: cs) = ([], c :: cs) := by
  rw [scanGap.eq_def]
  dsimp only
  rw [if_neg hcomment, if_neg hblank, if_neg hsharp, if_neg hescape]

/-- A backslash goes on with the line after it: a carriage return and a newline, either of them, or nothing. -/
theorem scanGap_escape (cs : List Char) :
    scanGap nested comment ('\\' :: '\r' :: '\n' :: cs) =
        ('\\' :: '\r' :: '\n' :: (scanGap nested false cs).1, (scanGap nested false cs).2) ∧
      ∀ d : Char, (∀ more, d = '\r' → cs = '\n' :: more → False) →
        scanGap nested comment ('\\' :: d :: cs) =
          if isNewline d then ('\\' :: d :: (scanGap nested false cs).1, (scanGap nested false cs).2)
          else ([], '\\' :: d :: cs) := by
  have hblank : ¬ (isLineBlank '\\' || nested && isNewline '\\') = true := by cases nested <;> decide
  have hsharp : ¬ (nested && '\\' == '#') = true := by cases nested <;> decide
  refine ⟨?_, fun d hpair => ?_⟩
  · rw [scanGap.eq_def]
    dsimp only
    rw [if_neg hcomment, if_neg hblank, if_neg hsharp]
    rfl
  · rw [scanGap.eq_def]
    dsimp only
    rw [if_neg hcomment, if_neg hblank, if_neg hsharp, if_pos (beq_self_eq_true _)]
    split
    · next heq =>
      cases heq
      exact (hpair _ rfl rfl).elim
    · next heq =>
      cases heq
      rfl
    · next hnone => exact (hnone _ _ rfl).elim

end Gap

/-- A gap that ends before a character ends there whatever follows the text. A backslash at the end of the
text is left out: it could continue the line. -/
theorem scanGap_append {nested comment : Bool} {gap rest : List Char}
    (h : scanGap nested comment cs = (gap, rest)) (hne : rest ≠ []) (hescape : rest ≠ ['\\']) :
    scanGap nested comment (cs ++ z) = (gap, rest ++ z) := by
  fun_induction scanGap nested comment cs generalizing gap rest with
  | case1 =>
    cases h
    exact absurd rfl hne
  | case2 c more gap' after heq ih =>
    cases h
    rw [List.cons_append, scanGap_comment, ih heq hne hescape]
  | case3 comment c more hcomment hblank gap' after heq ih =>
    cases h
    rw [List.cons_append, scanGap_blank hcomment hblank, ih heq hne hescape]
  | case4 comment c more hcomment hblank hsharp gap' after heq ih =>
    cases h
    rw [List.cons_append, scanGap_sharp hcomment hblank hsharp, ih heq hne hescape]
  | case5 comment c hcomment hblank hsharp hback more gap' after heq ih =>
    cases h
    rw [beq_iff_eq.1 hback, List.cons_append, List.cons_append, List.cons_append, (scanGap_escape hcomment _).1,
      ih heq hne hescape]
  | case6 comment c hcomment hblank hsharp hback newline more hpair hnewline gap' after heq ih =>
    cases h
    cases more with
    | nil =>
      cases heq
      exact absurd rfl hne
    | cons d more =>
      have hpair' : ∀ w, newline = '\r' → (d :: more) ++ z = '\n' :: w → False := fun _ hreturn hmore =>
        hpair more hreturn (by rw [(List.cons.inj hmore).1])
      rw [beq_iff_eq.1 hback, List.cons_append, List.cons_append, (scanGap_escape hcomment _).2 _ hpair',
        if_pos hnewline, ih heq hne hescape]
  | case7 comment c hcomment hblank hsharp hback newline more hpair hnewline =>
    cases h
    have hreturn : newline ≠ '\r' := by
      rintro rfl
      exact hnewline rfl
    rw [beq_iff_eq.1 hback, List.cons_append, List.cons_append,
      (scanGap_escape hcomment _).2 _ fun _ h _ => hreturn h, if_neg hnewline]
  | case8 comment c more hcomment hblank hsharp hback _ hnone =>
    cases h
    cases more with
    | nil => exact absurd (by rw [beq_iff_eq.1 hback]) hescape
    | cons d more => exact (hnone d more rfl).elim
  | case9 comment c more hcomment hblank hsharp hback =>
    cases h
    rw [List.cons_append, scanGap_stop hcomment hblank hsharp hback]

section Blanks

variable {blanks : List Char} (hblanks : ∀ c ∈ blanks, Text.isBlank c = true) (rest : List Char)

include hblanks

/-- A gap before a word stops within the blanks before it, if not at the word. -/
theorem scanGap_blanks :
    ∃ left, (∀ c ∈ left, Text.isBlank c = true) ∧
      (scanGap false false (blanks ++ 'a' :: rest)).2 = left ++ 'a' :: rest := by
  induction blanks with
  | nil =>
    refine ⟨[], hblanks, ?_⟩
    rw [List.nil_append, scanGap_stop Bool.false_ne_true (by decide) (by decide) (by decide)]
  | cons c blanks ih =>
    obtain ⟨hc, hrest⟩ := List.forall_mem_cons.1 hblanks
    by_cases hline : isLineBlank c = true
    · rw [List.cons_append, scanGap_blank Bool.false_ne_true (by simp [hline])]
      exact ih hrest
    · have hback : c ≠ '\\' := Text.ne_of_isBlank hc (by decide)
      refine ⟨c :: blanks, hblanks, ?_⟩
      rw [List.cons_append, scanGap_stop Bool.false_ne_true (by simp [hline]) (by simp) (by simp [hback])]

/-- Where a text is all gap, the gap goes on into the blanks before a word. -/
theorem scanGap_end {nested comment : Bool} (hnested : nested = false) (hcomment : comment = false)
    (h : (scanGap nested comment cs).2 = []) :
    ∃ left, (∀ c ∈ left, Text.isBlank c = true) ∧
      (scanGap nested comment (cs ++ (blanks ++ 'a' :: rest))).2 = left ++ 'a' :: rest := by
  fun_induction scanGap nested comment cs with
  | case1 comment =>
    subst hnested hcomment
    exact scanGap_blanks hblanks rest
  | case2 => cases hcomment
  | case3 comment c more hcomment' hblank gap' after heq ih =>
    rw [heq] at ih
    rw [List.cons_append, scanGap_blank hcomment' hblank]
    exact ih rfl h
  | case4 comment c more hcomment' hblank hsharp gap' after heq ih =>
    subst hnested
    cases hsharp
  | case5 comment c hcomment' hblank hsharp hback more gap' after heq ih =>
    rw [heq] at ih
    rw [beq_iff_eq.1 hback, List.cons_append, List.cons_append, List.cons_append, (scanGap_escape hcomment' _).1]
    exact ih rfl h
  | case6 comment c hcomment' hblank hsharp hback newline more hpair hnewline gap' after heq ih =>
    rw [heq] at ih
    rw [beq_iff_eq.1 hback, List.cons_append, List.cons_append]
    by_cases hcrlf : ∃ w, newline = '\r' ∧ more ++ (blanks ++ 'a' :: rest) = '\n' :: w
    · -- a carriage return at the end of the text continues the line together with a newline after it
      obtain ⟨w, rfl, hmore⟩ := hcrlf
      rw [hmore, (scanGap_escape hcomment' _).1]
      cases more with
      | cons d more => exact (hpair more rfl (by rw [(List.cons.inj hmore).1])).elim
      | nil =>
        cases blanks with
        | nil => cases hmore
        | cons d blanks =>
          subst hnested
          rw [← (List.cons.inj hmore).2]
          exact scanGap_blanks (List.forall_mem_cons.1 hblanks).2 rest
    · rw [(scanGap_escape hcomment' _).2 _ fun w hreturn hmore => hcrlf ⟨w, hreturn, hmore⟩, if_pos hnewline]
      exact ih rfl h
  | case7 => cases h
  | case8 => cases h
  | case9 => cases h

end Blanks

/-- A reading of tokens: nothing but comments are left, or a lexeme comes first. -/
theorem scan_cases {n depth : Nat} {ts : List Token} (h : scan n depth cs = some ts) :
    (depth = 0 ∧ onlyComments false (scanGap (0 < depth) false cs).2 = true ∧ ts = []) ∨
      ¬ (depth = 0 ∧ onlyComments false (scanGap (0 < depth) false cs).2 = true) ∧
        ∃ m kind lexeme after more, n = m + 1 ∧
          scanLexeme (scanGap (0 < depth) false cs).2 = some (kind, lexeme, after) ∧
          scan m (depthAfter depth lexeme) after = some more ∧
          ts = ⟨String.ofList (scanGap (0 < depth) false cs).1, kind, String.ofList lexeme⟩ :: more := by
  cases n with
  | zero => cases h
  | succ m =>
    rw [scan] at h
    dsimp only at h
    split at h
    · next hend =>
      cases h
      have hend : depth = 0 ∧ onlyComments false (scanGap (0 < depth) false cs).2 = true := by simpa using hend
      exact .inl ⟨hend.1, hend.2, rfl⟩
    · next hend =>
      obtain ⟨⟨kind, lexeme, after⟩, hlexeme, h⟩ := Option.bind_eq_some_iff.1 h
      obtain ⟨more, hmore, h⟩ := Option.bind_eq_some_iff.1 h
      cases h
      exact .inr ⟨by simpa using hend, m, kind, lexeme, after, more, rfl, hlexeme, hmore, rfl⟩

/-- A text that starts with the word of a cast, and does not go on with a character of words. -/
theorem scanLexeme_cast {rest : List Char} (hrest : ∀ d ∈ rest.head?, isIdentifierLike d = false) :
    scanLexeme ('a' :: 's' :: rest) = some (.word, ['a', 's'], rest) := by
  have hliteral : scanLiteral ('a' :: 's' :: rest) = none := by
    cases rest <;> simp [scanLiteral, isQuote, isMark, marksPair]
  have hword : scanWord ('a' :: 's' :: rest) = some (['a', 's'], rest) := by
    have hnext : rest.takeWhile isIdentifierLike = [] ∧ rest.dropWhile isIdentifierLike = rest := by
      cases rest with
      | nil => exact ⟨rfl, rfl⟩
      | cons d rest =>
        have hd : isIdentifierLike d = false := hrest d rfl
        simp [hd]
    have ha : isIdentifierLike 'a' = true := by decide
    have hs : isIdentifierLike 's' = true := by decide
    rw [scanWord_eq_some_iff, List.takeWhile_cons_of_pos ha, List.takeWhile_cons_of_pos hs, hnext.1,
      List.dropWhile_cons_of_pos ha, List.dropWhile_cons_of_pos hs, hnext.2]
    refine ⟨rfl, rfl, 'a', ['s'], rfl, by decide, fun e he => ?_⟩
    rw [List.mem_singleton.1 he]
    decide
  have hlike : isIdentifierLike 'a' = true := by decide
  simp [scanLexeme, hliteral, numberFirst, hlike, hword]

section Cast

variable {blanks rest : List Char} (hblanks : ∀ c ∈ blanks, Text.isBlank c = true)
  (hrest : ∀ d ∈ rest.head?, isIdentifierLike d = false)

include hblanks hrest

/-- Where only blanks stand before the word of a cast, the word is the next token. -/
theorem cast_of_scan {n : Nat} {ts : List Token}
    (hgap : (scanGap false false cs).2 = blanks ++ 'a' :: 's' :: rest) (h : scan n 0 cs = some ts) :
    ∃ t ∈ ts, Grammar.isCast t = true := by
  have hnested : scanGap (0 < 0) false cs = scanGap false false cs := rfl
  rcases scan_cases h with ⟨-, hend, -⟩ | ⟨-, m, kind, lexeme, after, more, -, hlexeme, -, rfl⟩
  · rw [hnested, hgap, onlyComments_blanks hblanks] at hend
    cases hend
  · rw [hnested, hgap] at hlexeme
    cases blanks with
    | nil =>
      rw [List.nil_append, scanLexeme_cast hrest] at hlexeme
      cases hlexeme
      exact ⟨_, List.mem_cons_self, by simp [Grammar.isCast]⟩
    | cons c blanks =>
      rw [List.cons_append, scanLexeme_of_isBlank (hblanks c List.mem_cons_self)] at hlexeme
      cases hlexeme

/-- A text that goes on with a cast is read as the same tokens, or as tokens with the word of the cast among
them. The same tokens are read where the text ends in a comment that takes in the cast. -/
theorem scan_append (hne : blanks ≠ []) {n m depth : Nat} {ts more : List Token}
    (h : scan n depth cs = some ts) (hmore : scan m depth (cs ++ (blanks ++ 'a' :: 's' :: rest)) = some more) :
    more = ts ∨ ∃ t ∈ more, Grammar.isCast t = true := by
  obtain ⟨c, z, rfl⟩ := List.exists_cons_of_ne_nil hne
  have hc : Text.isBlank c = true := hblanks c List.mem_cons_self
  induction n generalizing m depth cs ts more with
  | zero => cases h
  | succ n ih =>
    cases hgap : scanGap (0 < depth) false cs with
    | mk gap left =>
    have hread := scan_cases h
    rw [hgap] at hread
    by_cases hleft : left = []
    · -- the text is at its end: only outside brackets is that a reading, and there the word comes next
      subst hleft
      rcases hread with ⟨rfl, -⟩ | ⟨-, -, kind, lexeme, after, -, -, hlexeme, -⟩
      · obtain ⟨left, hleft, hend⟩ := scanGap_end hblanks ('s' :: rest) rfl rfl (congrArg Prod.snd hgap)
        exact .inr (cast_of_scan hleft hrest hend hmore)
      · cases hlexeme
    · have hescape : left ≠ ['\\'] := by
        rintro rfl
        rcases hread with ⟨-, hend, -⟩ | ⟨-, -, kind, lexeme, after, -, -, hlexeme, -⟩
        · cases hend
        · cases hlexeme
      have hread' := scan_cases hmore
      rw [scanGap_append hgap hleft hescape] at hread'
      dsimp only at hread hread'
      rcases hread with ⟨hdepth, hend, rfl⟩ | ⟨hink, k, kind, lexeme, after, ts', hn, hlexeme, hts, rfl⟩
      · -- a comment is left of the text, and no lexeme starts in it
        rcases hread' with ⟨-, -, rfl⟩ | ⟨-, -, kind, lexeme, after, -, -, hlexeme, -⟩
        · exact .inl rfl
        · obtain ⟨d, left, rfl⟩ := List.exists_cons_of_ne_nil hleft
          rw [List.cons_append, scanLexeme_of_onlyComments hend] at hlexeme
          cases hlexeme
      · rcases hread' with ⟨hdepth, hend, -⟩ | ⟨-, k', kind', lexeme', after', more', -, hlexeme', hmore', rfl⟩
        · exact absurd ⟨hdepth, onlyComments_of_append hend⟩ hink
        · cases scanLexeme_append hc hlexeme hlexeme'
          cases hn
          rcases ih hts hmore' with rfl | ⟨t, ht, hcast⟩
          · exact .inl rfl
          · exact .inr ⟨t, List.mem_cons_of_mem _ ht, hcast⟩

end Cast

/-- The text of the first line without the blanks before it. -/
def firstInk (cs : List Char) : List Char :=
  (cs.takeWhile fun c => !isNewline c).dropWhile isLineBlank

theorem firstInk_append (h : firstInk cs ≠ []) : ∃ more, firstInk (cs ++ z) = firstInk cs ++ more := by
  by_cases hnewline : (cs.dropWhile fun c => !isNewline c) = []
  · have hline : (cs.takeWhile fun c => !isNewline c) = cs := by
      have happend := List.takeWhile_append_dropWhile (p := fun c => !isNewline c) (l := cs)
      rwa [hnewline, List.append_nil] at happend
    refine ⟨z.takeWhile fun c => !isNewline c, ?_⟩
    unfold firstInk at h ⊢
    rw [hline] at h ⊢
    rw [List.takeWhile_append, if_pos (by rw [hline]), Text.dropWhile_append_of_dropWhile h]
  · refine ⟨[], ?_⟩
    rw [List.append_nil, firstInk, Text.takeWhile_append_of_dropWhile hnewline, firstInk]

/-- Whether the first line has no token. -/
def emptyFirst (cs : List Char) : Bool :=
  (firstInk cs).isEmpty || (firstInk cs).head? == some '#'

theorem emptyFirst_append_of_false (h : emptyFirst cs = false) : emptyFirst (cs ++ z) = false := by
  unfold emptyFirst at h ⊢
  cases hink : firstInk cs with
  | nil =>
    rw [hink] at h
    cases h
  | cons c ink =>
    obtain ⟨more, hmore⟩ := firstInk_append (z := z) (by rw [hink]; exact List.cons_ne_nil c ink)
    rw [hink] at h hmore
    rw [hmore]
    exact h

theorem dropEmptyLines_of_ink (n : Nat) (h : emptyFirst cs = false) : dropEmptyLines (n + 1) cs = cs :=
  if_neg (Bool.eq_false_iff.1 h)

theorem dropEmptyLines_of_empty (n : Nat) (h : emptyFirst cs = true) :
    dropEmptyLines (n + 1) cs = dropEmptyLines n (cs.dropWhile fun c => !isNewline c).tail := by
  rw [dropEmptyLines]
  refine (if_pos h).trans ?_
  split
  · next hrest => rw [hrest, List.tail_cons]
  · next hrest =>
    rw [hrest]
    cases n <;> rfl

/-- Empty lines before a line with a token are dropped whatever follows the text. -/
theorem dropEmptyLines_append {n m : Nat} (hn : cs.length < n) (hm : cs.length < m)
    (h : dropEmptyLines n cs ≠ []) : dropEmptyLines m (cs ++ z) = dropEmptyLines n cs ++ z := by
  induction n generalizing m cs with
  | zero => cases hn
  | succ n ih =>
    obtain ⟨m, rfl⟩ : ∃ k, m = k + 1 := Nat.exists_eq_succ_of_ne_zero (by omega)
    cases hempty : emptyFirst cs with
    | false => rw [dropEmptyLines_of_ink n hempty, dropEmptyLines_of_ink m (emptyFirst_append_of_false hempty)]
    | true =>
      rw [dropEmptyLines_of_empty n hempty] at h ⊢
      have hnewline : (cs.dropWhile fun c => !isNewline c) ≠ [] := by
        intro hend
        rw [hend] at h
        exact h (by cases n <;> rfl)
      have hempty' : emptyFirst (cs ++ z) = true := by
        rw [emptyFirst, firstInk, Text.takeWhile_append_of_dropWhile hnewline]
        exact hempty
      have hlength : (cs.dropWhile fun c => !isNewline c).tail.length < cs.length := by
        have hle := (List.dropWhile_suffix (l := cs) fun c => !isNewline c).length_le
        have hpos := List.length_pos_iff.2 hnewline
        rw [List.length_tail]
        omega
      rw [dropEmptyLines_of_empty m hempty', Text.dropWhile_append_of_dropWhile hnewline,
        List.tail_append_of_ne_nil hnewline]
      exact ih (by omega) (by omega) h

section Cast

variable {blanks rest : List Char} (hblanks : ∀ c ∈ blanks, Text.isBlank c = true)
  (hrest : ∀ d ∈ rest.head?, isIdentifierLike d = false)

include hblanks hrest

theorem tokenize_append (hne : blanks ≠ []) {ts more : List Token} (h : tokenize cs = some ts)
    (hmore : tokenize (cs ++ (blanks ++ 'a' :: 's' :: rest)) = some more) :
    more = ts ∨ ∃ t ∈ more, Grammar.isCast t = true := by
  unfold tokenize at h hmore
  dsimp only at h hmore
  split at h
  · cases h
  · next hbody =>
    have hbody' : dropEmptyLines (cs.length + 1) cs ≠ [] := by
      intro hnil
      rw [hnil] at hbody
      exact hbody rfl
    have hlength : cs.length < (cs ++ (blanks ++ 'a' :: 's' :: rest)).length + 1 := by
      rw [List.length_append]
      omega
    rw [dropEmptyLines_append (Nat.lt_succ_self _) hlength hbody'] at hmore
    split at hmore
    · cases hmore
    · exact scan_append hblanks hrest hne h hmore

omit hblanks in
theorem tokenize_cast {ts : List Token} (h : tokenize ('a' :: 's' :: rest) = some ts) :
    ∃ t ∈ ts, Grammar.isCast t = true := by
  have hink : emptyFirst ('a' :: 's' :: rest) = false := rfl
  unfold tokenize at h
  dsimp only at h
  rw [dropEmptyLines_of_ink _ hink] at h
  split at h
  · cases h
  · exact cast_of_scan (List.forall_mem_nil _) hrest (by rw [scanGap.eq_def]; rfl) h

end Cast

end Token

namespace Expr

variable {cs blanks rest : List Char} {e : Expr}

/-- An operand that goes on with a cast is read without it or not at all. -/
theorem parse_append (hne : blanks ≠ []) (hblanks : ∀ c ∈ blanks, Text.isBlank c = true)
    (hrest : ∀ d ∈ rest.head?, Token.isIdentifierLike d = false) (h : parse? cs = some e) :
    parse? (cs ++ (blanks ++ 'a' :: 's' :: rest)) = none ∨
      parse? (cs ++ (blanks ++ 'a' :: 's' :: rest)) = some e := by
  obtain ⟨ts, hts, he⟩ := Option.bind_eq_some_iff.1 h
  cases hmore : Token.tokenize (cs ++ (blanks ++ 'a' :: 's' :: rest)) with
  | none =>
    left
    rw [parse?, hmore]
    rfl
  | some more =>
    have hparse : parse? (cs ++ (blanks ++ 'a' :: 's' :: rest)) = Grammar.parse? more := by
      rw [parse?, hmore]
      rfl
    rw [hparse]
    rcases Token.tokenize_append hblanks hrest hne hts hmore with rfl | ⟨t, ht, hcast⟩
    · exact .inr he
    · exact .inl (Grammar.parse_eq_none_of_cast ht hcast)

theorem parse_cast (hrest : ∀ d ∈ rest.head?, Token.isIdentifierLike d = false) :
    parse? ('a' :: 's' :: rest) = none := by
  by_contra h
  obtain ⟨e, he⟩ := Option.ne_none_iff_exists'.1 h
  obtain ⟨ts, hts, he⟩ := Option.bind_eq_some_iff.1 he
  obtain ⟨t, ht, hcast⟩ := Token.tokenize_cast hrest hts
  rw [Grammar.parse_eq_none_of_cast ht hcast] at he
  cases he

end Expr

end CrateSafety
