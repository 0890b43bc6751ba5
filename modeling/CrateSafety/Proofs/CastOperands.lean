import CrateSafety.Proofs.CastTokens
import CrateSafety.Proofs.Legibility
import CrateSafety.Proofs.OperandText

/-!
# Operands with a cast

An operation whose left operand is cast to a type is read as that operand alone, since all that follows the
word `as` is dropped with the cast. Over several lines the cast is not dropped; then the word makes the text
no expression.
-/

namespace CrateSafety

namespace Reading

open Text

variable {k : List Char}

/-- A text without marks as it is read: no casts, and points in paths. -/
def spelled (cs : List Char) : List Char :=
  replacePair ':' ':' ['.'] (dropCasts cs)

/-- The text that is read of an operand. -/
def bared (cs : List Char) : List Char :=
  spelled (dropMarks (trim cs).length (trim cs))

theorem isBlank_of_head {blanks : List Char} (hne : blanks ≠ []) (hblanks : ∀ c ∈ blanks, isBlank c = true)
    (rest : List Char) : ∀ d ∈ (blanks ++ rest).head?, isBlank d = true := by
  obtain ⟨c, blanks, rfl⟩ := List.exists_cons_of_ne_nil hne
  exact fun d hd => Option.some.inj hd ▸ hblanks c List.mem_cons_self

section Spelled

variable {blanks rest : List Char} (hink : EndsInInk k) (hfree : ¬ HasCast k)

include hink hfree

theorem dropCasts_of_free : dropCasts k = k := by
  have halone := dropCasts_append (.inr hink) hfree (z := []) (fun _ h => nomatch h)
  rwa [dropCasts, List.append_nil] at halone

/-- A cast to the end of the text is not read. -/
theorem spelled_append_of_cut (hne : blanks ≠ []) (hblanks : ∀ c ∈ blanks, isBlank c = true)
    (h : castFirst (' ' :: 'a' :: 's' :: rest) = true) :
    spelled (k ++ (blanks ++ 'a' :: 's' :: rest)) = spelled k := by
  rw [spelled, dropCasts_append (.inr hink) hfree (isBlank_of_head hne hblanks _), dropCasts_cut hne hblanks h,
    List.append_nil, spelled, dropCasts_of_free hink hfree]

/-- A cast before the last line is read with its word. -/
theorem spelled_append_of_kept (hne : blanks ≠ []) (hblanks : ∀ c ∈ blanks, isBlank c = true)
    (h : castFirst (' ' :: 'a' :: 's' :: rest) = false) :
    spelled (k ++ (blanks ++ 'a' :: 's' :: rest)) = spelled k ++ (blanks ++ 'a' :: 's' :: spelled rest) := by
  have hhead := isBlank_of_head hne hblanks ('a' :: 's' :: rest)
  have hcolon : ':' ∉ blanks := by
    intro hmem
    cases hblanks ':' hmem
  obtain ⟨c, blanks, rfl⟩ := List.exists_cons_of_ne_nil hne
  obtain ⟨hcolon', hcolons⟩ := not_or.1 (List.mem_cons.not.1 hcolon)
  have hword : ':' ∉ blanks ++ ['a', 's'] := by simp [hcolons]
  have hmore := replacePair_append_of_not_mem ['.'] hword hword (dropCasts rest)
  rw [List.append_assoc, List.append_assoc, List.cons_append, List.cons_append, List.nil_append] at hmore
  rw [spelled, dropCasts_append (.inr hink) hfree hhead, dropCasts_word hblanks h, List.cons_append,
    replacePair_append _ (Ne.symm hcolon') (Ne.symm hcolon'), spelled, dropCasts_of_free hink hfree, hmore,
    spelled]
  simp

end Spelled

/-- A text is read as an expression. -/
def Reads (text : String) (e : Expr) : Prop :=
  operand text = .ok e ∧ e ≠ .name unreadOperand

theorem operand_of_parse_eq_none {text : String} (h : Expr.parse? (bared text.toList) = none) :
    operand text = .ok (.name unreadOperand) := by
  unfold operand
  dsimp only
  unfold bared spelled at h
  rw [h]

theorem operand_of_parse {text : String} {e : Expr} (h : Expr.parse? (bared text.toList) = some e) :
    operand text = e.checked := by
  unfold operand
  dsimp only
  unfold bared spelled at h
  rw [h]

theorem Reads.parse {text : String} {e : Expr} (h : Reads text e) :
    Expr.parse? (bared text.toList) = some e ∧ e.checked = .ok e := by
  cases hparse : Expr.parse? (bared text.toList) with
  | none =>
    have hunread := (operand_of_parse_eq_none hparse).symm.trans h.1
    exact absurd (Except.ok.inj hunread).symm h.2
  | some e' =>
    have hread := (operand_of_parse hparse).symm.trans h.1
    obtain ⟨hfault, rfl⟩ := Expr.checked_eq_ok_iff.1 hread
    exact ⟨rfl, hread⟩

theorem Reads.dropMarks_ne_nil {text : String} {e : Expr} (h : Reads text e) :
    dropMarks (trim text.toList).length (trim text.toList) ≠ [] := by
  intro hnil
  have hparse := h.parse.1
  rw [bared, hnil] at hparse
  cases hparse

theorem Reads.trim_ne_nil {text : String} {e : Expr} (h : Reads text e) : trim text.toList ≠ [] := by
  intro hnil
  exact h.dropMarks_ne_nil (by rw [hnil]; rfl)

theorem not_hasCast_trim {cs : List Char} (h : ¬ HasCast cs) : ¬ HasCast (trim cs) := by
  intro hcast
  obtain ⟨blanks, hlead, hblanks⟩ := exists_dropEndWhile_append isBlank (cs.dropWhile isBlank)
  have hmore : HasCast (cs.dropWhile isBlank) := by
    rw [hlead]
    exact hcast.append hblanks
  exact h (hmore.of_suffix (List.dropWhile_suffix _))

/-- What is left of the text after a cast starts with a space, if anything is. -/
def StartsWithSpace (cs : List Char) : Prop :=
  ∀ d ∈ cs.head?, d = ' '

theorem StartsWithSpace.of_prefix {cs rest : List Char} (h : StartsWithSpace cs) (hp : rest <+: cs) :
    StartsWithSpace rest := by
  obtain ⟨more, rfl⟩ := hp
  cases rest with
  | nil => exact fun _ hd => nomatch hd
  | cons d rest => exact h

theorem dropMarks_of_word (n : Nat) (rest : List Char) : dropMarks n ('a' :: rest) = 'a' :: rest := by
  cases n <;> rfl

theorem spelled_word (rest : List Char) : spelled ('a' :: 's' :: rest) = 'a' :: 's' :: spelled rest := by
  have hword : ':' ∉ ['a', 's'] := by decide
  rw [spelled, dropCasts, castFirst_of_ink (by decide), dropCasts, castFirst_of_ink (by decide)]
  exact replacePair_append_of_not_mem _ hword hword (dropCasts rest)

theorem StartsWithSpace.spelled {cs : List Char} (h : StartsWithSpace cs) : StartsWithSpace (spelled cs) := by
  have hkept := h.of_prefix (prefix_dropCasts cs)
  unfold Reading.spelled
  cases hcs : dropCasts cs with
  | nil => exact fun _ hd => nomatch hd
  | cons d rest =>
    rw [hcs] at hkept
    obtain rfl : d = ' ' := hkept d rfl
    have hspace : ':' ∉ [' '] := by decide
    have hfirst := replacePair_append_of_not_mem ['.'] hspace hspace rest
    rw [List.singleton_append] at hfirst
    rw [hfirst]
    exact hkept

/-- The text read of an operand with a cast is the text read without it, up to the cast or with it to its end.
A mark at the end of the operand takes in the blank before the cast, and then the cast is all that is read. -/
theorem bared_append_cast {cs rest : List Char} (hne : dropMarks (trim cs).length (trim cs) ≠ [])
    (hfree : ¬ HasCast cs) (hrest : StartsWithSpace rest) :
    (castFirst (' ' :: 'a' :: 's' :: dropEndWhile isBlank rest) = true ∧
        bared (cs ++ ' ' :: 'a' :: 's' :: rest) = bared cs) ∨
      (castFirst (' ' :: 'a' :: 's' :: dropEndWhile isBlank rest) = false ∧
        ∃ blanks left, blanks ≠ [] ∧ (∀ c ∈ blanks, isBlank c = true) ∧ StartsWithSpace left ∧
          bared (cs ++ ' ' :: 'a' :: 's' :: rest) = bared cs ++ (blanks ++ 'a' :: 's' :: left)) ∨
      EndsInMark (trim cs) ∧ ∃ left, StartsWithSpace left ∧
        bared (cs ++ ' ' :: 'a' :: 's' :: rest) = 'a' :: 's' :: left := by
  have htrim : trim cs ≠ [] := by
    intro hnil
    exact hne (by rw [hnil]; rfl)
  have hink := endsInInk_trim htrim
  have hsuffix := dropMarks_suffix (trim cs).length (trim cs)
  have hfree' : ¬ HasCast (dropMarks (trim cs).length (trim cs)) :=
    fun h => not_hasCast_trim hfree (h.of_suffix hsuffix)
  have hleft : StartsWithSpace (dropEndWhile isBlank rest) := by
    obtain ⟨more, hmore, -⟩ := exists_dropEndWhile_append isBlank rest
    exact hrest.of_prefix ⟨more, hmore.symm⟩
  obtain ⟨blanks, hblanks, hblank, hcast⟩ := trim_append_cast htrim rest
  obtain ⟨c, more, rfl⟩ := List.exists_cons_of_ne_nil hblanks
  have hlength : (trim cs).length ≤ (trim (cs ++ ' ' :: 'a' :: 's' :: rest)).length := by
    rw [hcast, List.length_append]
    omega
  have hmarks := dropMarks_append (t := more ++ 'a' :: 's' :: dropEndWhile isBlank rest)
    (hblank c List.mem_cons_self) hink le_rfl hlength hne
  rw [← List.cons_append, ← hcast] at hmarks
  rcases hmarks with hmarks | ⟨hends, i, hmarks⟩
  · unfold bared
    rw [hmarks]
    cases hfirst : castFirst (' ' :: 'a' :: 's' :: dropEndWhile isBlank rest) with
    | true => exact .inl ⟨rfl, spelled_append_of_cut (hink.of_suffix hsuffix hne) hfree' hblanks hblank hfirst⟩
    | false =>
      exact .inr (.inl ⟨rfl, c :: more, spelled (dropEndWhile isBlank rest), hblanks, hblank, hleft.spelled,
        spelled_append_of_kept (hink.of_suffix hsuffix hne) hfree' hblanks hblank hfirst⟩)
  · refine .inr (.inr ⟨hends, spelled (dropEndWhile isBlank rest), hleft.spelled, ?_⟩)
    have hword : (more ++ 'a' :: 's' :: dropEndWhile isBlank rest).dropWhile isBlank =
        'a' :: 's' :: dropEndWhile isBlank rest := by
      rw [List.dropWhile_append_of_pos (List.forall_mem_cons.1 hblank).2]
      rfl
    rw [bared, hmarks, hword, dropMarks_of_word, spelled_word]

theorem StartsWithSpace.ends {cs : List Char} (h : StartsWithSpace cs) :
    ∀ d ∈ cs.head?, Token.isIdentifierLike d = false := by
  intro d hd
  rw [h d hd]
  decide

section Operand

variable {a : String} {e : Expr} (ha : Reads a e) (hfree : ¬ HasCast a.toList) {text : String} {rest : List Char}
  (hrest : StartsWithSpace rest) (htext : text.toList = a.toList ++ ' ' :: 'a' :: 's' :: rest)

include ha hfree hrest htext

/-- An operand that goes on with a cast is read as the operand alone or not at all. -/
theorem operand_append_cast : operand text = .ok (.name unreadOperand) ∨ operand text = .ok e := by
  obtain ⟨hparse, hchecked⟩ := ha.parse
  rcases bared_append_cast ha.dropMarks_ne_nil hfree hrest with
    ⟨-, hbared⟩ | ⟨-, blanks, left, hne, hblanks, hleft, hbared⟩ | ⟨-, left, hleft, hbared⟩
  · rw [← htext] at hbared
    exact .inr ((operand_of_parse (hbared ▸ hparse)).trans hchecked)
  · rw [← htext] at hbared
    rcases Expr.parse_append hne hblanks hleft.ends hparse with hmore | hmore
    · exact .inl (operand_of_parse_eq_none (hbared ▸ hmore))
    · exact .inr ((operand_of_parse (hbared ▸ hmore)).trans hchecked)
  · rw [← htext] at hbared
    exact .inl (operand_of_parse_eq_none (hbared ▸ Expr.parse_cast hleft.ends))

/-- A cast to the end of the text is cut off with all that follows it. -/
theorem operand_append_of_cut (hcut : castFirst (' ' :: 'a' :: 's' :: dropEndWhile isBlank rest) = true)
    (hmark : ¬ EndsInMark (trim a.toList)) : operand text = .ok e := by
  obtain ⟨hparse, hchecked⟩ := ha.parse
  rcases bared_append_cast ha.dropMarks_ne_nil hfree hrest with ⟨-, hbared⟩ | ⟨hkept, -⟩ | ⟨hends, -⟩
  · rw [← htext] at hbared
    exact (operand_of_parse (hbared ▸ hparse)).trans hchecked
  · rw [hcut] at hkept
    cases hkept
  · exact absurd hends hmark

end Operand

/-- An operation whose left operand is cast to a type. -/
def castThen (a type op b : String) : String :=
  a ++ " as " ++ type ++ " " ++ op ++ " " ++ b

/-- An operation is not read, or its reading has the variables of both its operands. -/
def KeepsVariables (text : String) (left right : Expr) : Prop :=
  operand text = .ok (.name unreadOperand) ∨
    ∃ e, operand text = .ok e ∧ left.names [] ⊆ e.names [] ∧ right.names [] ⊆ e.names []

/-- The text after the word of the cast. -/
def afterCast (type op b : String) : List Char :=
  ' ' :: (type.toList ++ ' ' :: (op.toList ++ ' ' :: b.toList))

theorem toList_castThen (a type op b : String) :
    (castThen a type op b).toList = a.toList ++ ' ' :: 'a' :: 's' :: afterCast type op b := by
  simp [castThen, afterCast]

theorem castFirst_afterCast {type op b : String} (hb : trim b.toList ≠ []) (htype : '\n' ∉ type.toList)
    (hop : '\n' ∉ op.toList) (hline : '\n' ∉ b.toList) :
    castFirst (' ' :: 'a' :: 's' :: dropEndWhile isBlank (afterCast type op b)) = true := by
  obtain ⟨before, c, after, hbefore, hc⟩ := exists_ink_of_trim hb
  have hsplit : afterCast type op b =
      ' ' :: (type.toList ++ ' ' :: (op.toList ++ ' ' :: before)) ++ c :: after := by
    simp [afterCast, hbefore]
  obtain ⟨more, hmore, -⟩ := exists_dropEndWhile_append isBlank after
  rw [hbefore, hmore] at hline
  rw [hsplit, dropEndWhile_append_cons hc, castFirst_eq_true_iff]
  refine ⟨[' '], ' ', type.toList ++ ' ' :: (op.toList ++ ' ' :: before) ++ c :: dropEndWhile isBlank after,
    rfl, List.cons_ne_nil _ _, fun d hd => List.mem_singleton.1 hd ▸ by decide, by decide, fun hmem => ?_⟩
  have hmem := (List.dropWhile_sublist _).subset hmem
  simp only [List.mem_append, List.mem_cons] at hmem hline
  grind

end Reading

open Reading in
/-- An operation whose left operand is cast is read as that operand alone, or not at all: whatever stands after
the type is dropped with the cast. So a variable of the right operand is kept only if the left one has it too. -/
theorem operand_reads_only_before_cast {a b : String} {left right : Expr} (ha : Reads a left)
    (hb : Reads b right) (hfree : ¬ HasCast a.toList) (type op : String) :
    (operand (castThen a type op b) = .ok (.name unreadOperand) ∨ operand (castThen a type op b) = .ok left) ∧
      ('\n' ∉ type.toList → '\n' ∉ op.toList → '\n' ∉ b.toList → ¬ EndsInMark (Text.trim a.toList) →
        operand (castThen a type op b) = .ok left) ∧
      (KeepsVariables (castThen a type op b) left right ↔
        operand (castThen a type op b) = .ok (.name unreadOperand) ∨ right.names [] ⊆ left.names []) := by
  have hrest : StartsWithSpace (afterCast type op b) := fun d hd => (Option.some.inj hd).symm
  have htext := toList_castThen a type op b
  have hread := operand_append_cast ha hfree hrest htext
  refine ⟨hread, fun htype hop hline hmark => ?_, ?_⟩
  · exact operand_append_of_cut ha hfree hrest htext (castFirst_afterCast hb.trim_ne_nil htype hop hline) hmark
  · constructor
    · rintro (hunread | ⟨e, he, -, hright⟩)
      · exact .inl hunread
      · rcases hread with hunread | hleft
        · exact .inl hunread
        · cases hleft.symm.trans he
          exact .inr hright
    · rintro (hunread | hright)
      · exact .inl hunread
      · rcases hread with hunread | hleft
        · exact .inl hunread
        · exact .inr ⟨left, hleft, List.Subset.refl _, hright⟩

open Reading in
/-- The count that is added to a cast index is lost. -/
theorem cast_index_loses_count :
    Reads "x" (.name "x") ∧ Reads "n" (.name "n") ∧ ¬ HasCast "x".toList ∧
      operand "x as usize + n" = .ok (.name "x") ∧
      ¬ KeepsVariables "x as usize + n" (.name "x") (.name "n") := by
  have hx : Reads "x" (.name "x") := ⟨rfl, by decide⟩
  have hn : Reads "n" (.name "n") := ⟨rfl, by decide⟩
  have hfree : ¬ HasCast "x".toList := by
    rintro ⟨before, c, after, heq, -⟩
    have hlength := congrArg List.length heq
    simp at hlength
    omega
  have hmark : ¬ EndsInMark (Text.trim "x".toList) := by
    rintro ⟨before, gap, heq, -⟩
    have hlength := congrArg List.length heq
    rw [show Text.trim "x".toList = ['x'] by decide] at hlength
    simp at hlength
    omega
  obtain ⟨-, hcut, hkeeps⟩ := operand_reads_only_before_cast hx hn hfree "usize" "+"
  have hread := hcut (by decide) (by decide) (by decide) hmark
  refine ⟨hx, hn, hfree, hread, fun h => ?_⟩
  rcases hkeeps.1 h with hunread | hsubset
  · exact hx.2 (Except.ok.inj (hread.symm.trans hunread))
  · have hmem : "n" ∈ ["x"] := hsubset List.mem_cons_self
    exact absurd hmem (by decide)

end CrateSafety
