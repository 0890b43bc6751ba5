import CrateSafety.Proofs.Spelling

/-!
# Words of casts

No rule of the grammar reads the word `as`. Each goal leaves as many of these words in its rest as it found,
so an expression that makes up all of a token list has none among its tokens.
-/

namespace CrateSafety

namespace Grammar

/-- Whether a token is the word of a cast. -/
def isCast (t : Token) : Bool :=
  t.kind = .word && t.lexeme = "as"

/-- The number of cast words among tokens. -/
def casts (ts : List Token) : Nat :=
  ts.countP isCast

@[grind =]
theorem casts_cons_of_lexeme {t : Token} (h : t.lexeme ≠ "as") (rest : List Token) :
    casts (t :: rest) = casts rest := by
  simp [casts, isCast, h]

@[grind =]
theorem casts_cons_of_kind {t : Token} (h : t.kind ≠ .word) (rest : List Token) :
    casts (t :: rest) = casts rest := by
  simp [casts, isCast, h]

@[grind =]
theorem casts_cons_of_isName {t : Token} (h : isName t = true) (rest : List Token) :
    casts (t :: rest) = casts rest := by
  refine casts_cons_of_lexeme (fun hl => ?_) rest
  simp [isName, hl, keywords] at h

@[grind →]
theorem casts_of_accept {lexeme : String} {ts rest : List Token} {t : Token}
    (h : accept lexeme ts = some (t, rest)) (hl : lexeme ≠ "as") : casts ts = casts rest := by
  obtain ⟨rfl, rfl⟩ := accept_eq_some h
  exact casts_cons_of_lexeme hl rest

/-- Two words of a relation are none of a cast. -/
theorem casts_of_pair {a b : Token} {first second : String}
    (h : (a.lexeme == first && b.lexeme == second) = true) (hfirst : first ≠ "as") (hsecond : second ≠ "as")
    (rest : List Token) : casts (a :: b :: rest) = casts rest := by
  simp only [Bool.and_eq_true, beq_iff_eq] at h
  rw [casts_cons_of_lexeme (h.1.trans_ne hfirst), casts_cons_of_lexeme (h.2.trans_ne hsecond)]

@[grind →]
theorem casts_of_relation {ts rest : List Token} {op : Relation} {spelling : String}
    (h : relation? ts = some (op, spelling, rest)) : casts ts = casts rest := by
  unfold relation? at h
  split at h
  · split at h
    · next hwords =>
      cases h
      exact casts_of_pair hwords (by decide) (by decide) _
    · split at h
      · next hwords =>
        cases h
        exact casts_of_pair hwords (by decide) (by decide) _
      · obtain ⟨simple, hsimple, heq⟩ := Option.map_eq_some_iff.1 h
        cases heq
        refine casts_cons_of_lexeme (fun hl => ?_) _
        rw [hl] at hsimple
        cases hsimple
  · cases h

@[grind .]
theorem casts_cons_of_operator {level : Nat} {t : Token}
    (h : (binaryOperators level).contains t.lexeme = true) (rest : List Token) :
    casts (t :: rest) = casts rest := by
  refine casts_cons_of_lexeme (fun hl => ?_) rest
  rw [hl] at h
  unfold binaryOperators at h
  split at h <;> simp at h

theorem casts_drop_quoted (ts : List Token) :
    casts (ts.drop (ts.takeWhile fun t => t.kind = .quoted).length) = casts ts := by
  induction ts with
  | nil => rfl
  | cons t rest ih =>
    by_cases hk : t.kind = .quoted
    · have hword : t.kind ≠ .word := by simp [hk]
      rw [List.takeWhile_cons_of_pos (by simpa using hk), List.length_cons, List.drop_succ_cons, ih,
        casts_cons_of_kind hword]
    · rw [List.takeWhile_cons_of_neg (by simpa using hk), List.length_nil, List.drop_zero]

/-- The direction of `Option.bind_eq_some_iff` that `grind` follows through a `do` block of the grammar. -/
@[local grind →]
theorem exists_of_bind {α β : Type} {x : Option α} {f : α → Option β} {b : β} (h : x.bind f = some b) :
    ∃ a, x = some a ∧ f a = some b :=
  Option.bind_eq_some_iff.1 h

/-- Every goal read within `n` levels leaves all cast words unread. What follows `yield` is read from the
word on. -/
structure KeepsCasts (n : Nat) : Prop where
  expr : ∀ {goal : ExprGoal} {ts rest : List Token} {e : Expr},
    parseExpr n goal ts = some (e, rest) → (goal = .yielded → nextIs "yield" ts = true) →
      casts ts = casts rest
  parts : ∀ {goal : PartsGoal} {ts rest : List Token} {parts : Parts},
    parseParts n goal ts = some (parts, rest) → casts ts = casts rest

attribute [grind →] KeepsCasts.expr KeepsCasts.parts

section Step

variable {n : Nat} (ih : KeepsCasts n) {ts rest : List Token} {e : Expr}

include ih

theorem casts_of_expression (h : parseExpr (n + 1) .expression ts = some (e, rest)) :
    casts ts = casts rest := by
  rw [parseExpr_level] at h
  simp only [Option.bind_eq_bind] at h
  split at h
  · split at h
    · grind
    · obtain ⟨⟨body, after⟩, hbody, h⟩ := exists_of_bind h
      have hafter : casts _ = casts after := ih.expr hbody (fun hgoal => by cases hgoal)
      dsimp only at h
      split at h <;> grind
  · cases h

theorem casts_of_clause (h : parseExpr (n + 1) .clause ts = some (e, rest)) : casts ts = casts rest := by
  rw [parseExpr_level] at h
  simp only [Option.bind_eq_bind] at h
  split at h <;> simp only [Option.bind_some] at h <;> grind

-- One case for each kind of token, and for symbols one for each bracket; a bracket is closed at once or
-- holds what the goals below it read.
theorem casts_of_atom (h : parseExpr (n + 1) .atom ts = some (e, rest)) : casts ts = casts rest := by
  rw [parseExpr_level] at h
  simp only [Option.bind_eq_bind] at h
  split at h
  · cases h
  · rename_i t after
    split at h
    · grind
    · have hquoted := casts_drop_quoted after
      grind
    · grind
    · split at h
      · grind
      · split at h
        · grind
        · split at h <;> grind
      · split at h <;> grind
      · split at h
        · grind
        · split at h <;> grind
      · cases h

theorem keepsCasts_succ : KeepsCasts (n + 1) where
  expr := by
    intro goal ts rest e h hgiven
    cases goal with
    | expression => exact casts_of_expression ih h
    | clause => exact casts_of_clause ih h
    | atom => exact casts_of_atom ih h
    | junctionRest op left =>
      rw [parseExpr_level] at h
      simp only [Option.bind_eq_bind] at h
      cases op <;> grind [connectiveWord]
    | yielded =>
      rw [parseExpr_level] at h
      simp only [Option.bind_eq_bind] at h
      grind [nextIs]
    | _ =>
      rw [parseExpr_level] at h
      simp only [Option.bind_eq_bind] at h
      grind
  parts := by
    intro goal ts rest parts h
    rw [parseParts_level] at h
    cases goal <;> simp only [Option.bind_eq_bind] at h <;> grind

end Step

theorem keepsCasts (n : Nat) : KeepsCasts n := by
  induction n with
  | zero =>
    constructor
    · intro goal ts rest e h
      rw [parseExpr_level] at h
      cases h
    · intro goal ts rest parts h
      rw [parseParts_level] at h
      cases h
  | succ n ih => exact keepsCasts_succ ih

/-- Tokens with a cast word make up no expression. -/
theorem parse_eq_none_of_cast {ts : List Token} {t : Token} (ht : t ∈ ts) (hcast : isCast t = true) :
    parse? ts = none := by
  by_contra h
  obtain ⟨e, he⟩ := Option.ne_none_iff_exists'.1 h
  unfold parse? at he
  split at he
  · rename_i e' hread
    have hcount : casts ts = casts [] := (keepsCasts _).expr hread (fun hgoal => by cases hgoal)
    exact (List.countP_eq_zero.1 hcount) t ht hcast
  · cases he

end Grammar

end CrateSafety
