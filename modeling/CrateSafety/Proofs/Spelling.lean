import CrateSafety.Proofs.KeyTokens
import CrateSafety.Proofs.Legibility
import CrateSafety.Proofs.LineMeaning
import CrateSafety.Proofs.Marks

/-!
# Marks of expressions

The text of an expression that is no name has a character that neither of the constants has, and that is no
blank: the sign of its relation, its operator, a bracket, a quote or a digit. This holds of all that the grammar
reads, so no key but that of the constant itself is the key of a constant.
-/

namespace CrateSafety

/-- Whether each leaf of a condition that is no name is marked, a comparison by its relation. -/
def Expr.Spelled : Expr → Prop
  | .name _ => True
  | .paren _ body _ => body.Spelled
  | .negation _ operand => operand.Spelled
  | .junction left _ _ right => left.Spelled ∧ right.Spelled
  | .compare _ _ spelling _ => Marked spelling
  | .chain _ _ spelling rest => Marked spelling ∧ rest.Spelled
  | e => Marked e.render

namespace Grammar

theorem marked_text {piece : String} (h : Marked piece) (rest : Parts) : Marked (Parts.text piece rest).render :=
  marked_append.mpr (.inl h)

theorem marked_child {rest : Parts} (h : Marked rest.render) (e : Expr) :
    Marked (Parts.child e rest).render :=
  marked_append.mpr (.inr h)

theorem marked_of_beq {text lexeme : String} (h : (text == lexeme) = true) (hm : Marked lexeme) :
    Marked text :=
  beq_iff_eq.mp h ▸ hm

theorem marked_piece {t : Token} (h : Marked t.lexeme) : Marked (Token.piece t) :=
  marked_append.mpr (.inr h)

theorem accept_eq_some {lexeme : String} {ts rest : List Token} {t : Token}
    (h : accept lexeme ts = some (t, rest)) : t.lexeme = lexeme ∧ ts = t :: rest := by
  unfold accept at h
  split at h
  case h_1 =>
    split at h
    case isTrue heq =>
      cases h
      exact ⟨beq_iff_eq.mp heq, rfl⟩
    case isFalse => cases h
  case h_2 => cases h

theorem marked_of_simpleRelation {lexeme : String} {op : Relation} (h : simpleRelation? lexeme = some op) :
    Marked lexeme := by
  unfold simpleRelation? at h
  split at h
  case h_1 => decide
  case h_2 => decide
  case h_3 =>
    obtain ⟨c, hc, rfl⟩ := Option.map_eq_some_iff.mp h
    have hsymbol : c.symbol = lexeme := by simpa using List.find?_some hc
    rw [← hsymbol]
    cases c <;> decide

/-- The text of a relation that is read is marked. -/
theorem marked_of_relation {ts rest : List Token} {op : Relation} {spelling : String}
    (h : relation? ts = some (op, spelling, rest)) : Marked spelling ∧ (Clean ts → Clean rest) := by
  unfold relation? at h
  split at h
  case h_1 a b more =>
    have hin : Marked "in" := by decide
    have his : Marked "is" := by decide
    split at h
    case isTrue hwords =>
      have hlexeme : b.lexeme = "in" := by simpa using (Bool.and_eq_true_iff.mp hwords).2
      cases h
      exact ⟨by simp [Token.piece, hlexeme, hin], fun hts => hts.tail.tail⟩
    case isFalse =>
      split at h
      case isTrue hwords =>
        have hlexeme : a.lexeme = "is" := by simpa using (Bool.and_eq_true_iff.mp hwords).1
        cases h
        exact ⟨by simp [Token.piece, hlexeme, his], fun hts => hts.tail.tail⟩
      case isFalse =>
        obtain ⟨r, hr, heq⟩ := Option.map_eq_some_iff.mp h
        cases heq
        exact ⟨by simp [Token.piece, marked_of_simpleRelation hr], fun hts => hts.tail⟩
  case h_2 => cases h

theorem marked_of_binaryOperators {level : Nat} {lexeme : String}
    (h : (binaryOperators level).contains lexeme = true) : Marked lexeme := by
  have hall : ∀ operator ∈ binaryOperators level, Marked operator := by
    unfold binaryOperators
    split <;> decide
  exact hall lexeme (List.contains_iff_mem.mp h)

/-- Whether a result that is read, if one is, is as asked and leaves clean tokens. -/
def Reads {α : Type} (P : α → Prop) (result : Option (α × List Token)) : Prop :=
  ∀ a rest, result = some (a, rest) → P a ∧ Clean rest

namespace Reads

variable {α β : Type} {P : α → Prop} {Q : β → Prop}

theorem none : Reads P none := fun _ _ h => by cases h

theorem some {a : α} {rest : List Token} (h : P a) (hrest : Clean rest) : Reads P (some (a, rest)) := by
  intro a' rest' heq
  cases heq
  exact ⟨h, hrest⟩

theorem bind {result : Option (α × List Token)} {f : α × List Token → Option (β × List Token)}
    (hr : Reads P result) (h : ∀ a rest, P a → Clean rest → Reads Q (f (a, rest))) :
    Reads Q (result >>= f) := by
  intro b rest heq
  obtain ⟨first, hfirst, hfb⟩ := Option.bind_eq_some_iff.mp heq
  obtain ⟨hP, hclean⟩ := hr first.1 first.2 hfirst
  exact h first.1 first.2 hP hclean b rest hfb

theorem done {parts : Parts} {rest : List Token} (hrest : Clean rest) :
    Reads (fun _ => True) (Option.some (parts, rest)) :=
  some trivial hrest

theorem accept {lexeme : String} {ts : List Token} (hts : Clean ts) :
    Reads (fun t => t.lexeme = lexeme) (accept lexeme ts) := by
  intro t rest h
  obtain ⟨hlexeme, rfl⟩ := accept_eq_some h
  exact ⟨hlexeme, hts.tail⟩

end Reads

/-- What a goal is given to go on with. -/
def ExprGoal.Given (goal : ExprGoal) (ts : List Token) : Prop :=
  match goal with
  | .junctionRest _ left => left.Spelled
  | .comparisonRest left => left.Spelled
  | .binaryRest _ left => left.Spelled
  | .trailers base => base.Spelled
  | .yielded => nextIs "yield" ts = true
  | _ => True

/-- What holds of the goals within a depth: expressions that are read are spelled out, and the tokens that are
left stay clean. -/
structure Sound (n : Nat) : Prop where
  expr : ∀ (goal : ExprGoal) (ts : List Token), goal.Given ts → Clean ts →
    Reads Expr.Spelled (parseExpr n goal ts)
  parts : ∀ (goal : PartsGoal) (ts : List Token), Clean ts → Reads (fun _ => True) (parseParts n goal ts)

/-- One level of the descent to an expression. -/
alias parseExpr_level := parseExpr.eq_def

/-- One level of the descent to a list of parts. -/
alias parseParts_level := parseParts.eq_def

theorem accept_of_nextIs {lexeme : String} {ts : List Token} (h : nextIs lexeme ts = true) :
    ∃ t rest, accept lexeme ts = some (t, rest) := by
  cases ts with
  | nil => cases h
  | cons t rest => exact ⟨t, rest, if_pos h⟩

/-- Further elements, expressions or targets start with their comma. -/
theorem marked_of_comma {n : Nat} {goal : PartsGoal} {ts : List Token}
    (hgoal : goal = .moreSequence ∨ goal = .moreTargets ∨ ∃ close, goal = .moreElements close)
    (hcomma : nextIs "," ts = true) :
    ∀ parts rest, parseParts n goal ts = some (parts, rest) → Marked parts.render := by
  intro parts rest h
  obtain ⟨comma, more, haccept⟩ := accept_of_nextIs hcomma
  have hmark : Marked (Token.piece comma) := by
    refine marked_piece ?_
    rw [(accept_eq_some haccept).1]
    decide
  have htext : ∀ parts : Parts, Marked (Parts.text (Token.piece comma) parts).render := fun _ =>
    marked_append.mpr (.inl hmark)
  cases n with
  | zero => cases h
  | succ n =>
    rw [parseParts_level] at h
    rcases hgoal with rfl | rfl | ⟨close, rfl⟩
    · dsimp only at h
      rw [haccept] at h
      dsimp only at h
      split at h
      · obtain ⟨_, -, h⟩ := Option.bind_eq_some_iff.mp h
        cases h
        exact htext _
      · cases h
        exact htext _
    · dsimp only at h
      rw [haccept] at h
      dsimp only at h
      split at h
      · cases h
        exact htext _
      · obtain ⟨_, -, h⟩ := Option.bind_eq_some_iff.mp h
        obtain ⟨_, -, h⟩ := Option.bind_eq_some_iff.mp h
        cases h
        exact htext _
    · dsimp only at h
      rw [haccept] at h
      dsimp only at h
      split at h
      · cases h
        exact htext _
      · obtain ⟨_, -, h⟩ := Option.bind_eq_some_iff.mp h
        obtain ⟨_, -, h⟩ := Option.bind_eq_some_iff.mp h
        cases h
        exact htext _

/-- A clause of a comprehension has its word. -/
theorem marked_of_clause {n : Nat} {ts rest : List Token} {e : Expr}
    (h : parseExpr n .clause ts = some (e, rest)) : Marked e.render := by
  have hfor : Marked "for" := by decide
  cases n with
  | zero => cases h
  | succ n =>
    rw [parseExpr_level] at h
    dsimp only at h
    split at h
    all_goals
      obtain ⟨_, -, h⟩ := Option.bind_eq_some_iff.mp h
      obtain ⟨_, haccept, h⟩ := Option.bind_eq_some_iff.mp h
      obtain ⟨_, -, h⟩ := Option.bind_eq_some_iff.mp h
      obtain ⟨_, -, h⟩ := Option.bind_eq_some_iff.mp h
      obtain ⟨_, -, h⟩ := Option.bind_eq_some_iff.mp h
      obtain ⟨_, -, h⟩ := Option.bind_eq_some_iff.mp h
      cases h
      refine marked_text (marked_append.mpr (.inr (marked_piece ?_))) _
      rw [(accept_eq_some haccept).1]
      exact hfor

section Step

variable {n : Nat} (ih : Sound n)

include ih

theorem reads_moreElements (close : String) (ts : List Token) (hts : Clean ts) :
    Reads (fun _ => True) (parseParts (n + 1) (.moreElements close) ts) := by
  rw [parseParts_level]
  dsimp only
  split
  case h_1 comma rest haccept =>
    obtain ⟨-, rfl⟩ := accept_eq_some haccept
    split
    · exact Reads.done hts.tail
    · refine (ih.expr .element _ trivial hts.tail).bind fun next after _ hafter => ?_
      exact (ih.parts _ after hafter).bind fun more final _ hfinal => Reads.done hfinal
  case h_2 => exact Reads.done hts

theorem reads_moreSequence (ts : List Token) (hts : Clean ts) :
    Reads (fun _ => True) (parseParts (n + 1) .moreSequence ts) := by
  rw [parseParts_level]
  dsimp only
  split
  case h_1 comma rest haccept =>
    obtain ⟨-, rfl⟩ := accept_eq_some haccept
    split
    case h_1 next after hnext =>
      have hafter := (ih.expr .starOrExpr rest trivial hts.tail next after hnext).2
      exact (ih.parts _ after hafter).bind fun more final _ hfinal => Reads.done hfinal
    case h_2 => exact Reads.done hts.tail
  case h_2 => exact Reads.done hts

theorem reads_moreTargets (ts : List Token) (hts : Clean ts) :
    Reads (fun _ => True) (parseParts (n + 1) .moreTargets ts) := by
  rw [parseParts_level]
  dsimp only
  split
  case h_1 comma rest haccept =>
    obtain ⟨-, rfl⟩ := accept_eq_some haccept
    split
    · exact Reads.done hts.tail
    · refine (ih.expr .target _ trivial hts.tail).bind fun next after _ hafter => ?_
      exact (ih.parts _ after hafter).bind fun more final _ hfinal => Reads.done hfinal
  case h_2 => exact Reads.done hts

theorem reads_morePairs (ts : List Token) (hts : Clean ts) :
    Reads (fun _ => True) (parseParts (n + 1) .morePairs ts) := by
  rw [parseParts_level]
  dsimp only
  split
  case h_1 comma rest haccept =>
    obtain ⟨-, rfl⟩ := accept_eq_some haccept
    split
    · exact Reads.done hts.tail
    · refine (ih.parts .pair _ hts.tail).bind fun next after _ hafter => ?_
      exact (ih.parts _ after hafter).bind fun more final _ hfinal => Reads.done hfinal
  case h_2 => exact Reads.done hts

theorem reads_pair (ts : List Token) (hts : Clean ts) :
    Reads (fun _ => True) (parseParts (n + 1) .pair ts) := by
  rw [parseParts_level]
  dsimp only
  split
  case h_1 star rest haccept =>
    obtain ⟨-, rfl⟩ := accept_eq_some haccept
    exact (ih.expr (.binary 0) _ trivial hts.tail).bind fun operand after _ hafter => Reads.done hafter
  case h_2 =>
    refine (ih.expr .expression _ trivial hts).bind fun key after _ hafter => ?_
    refine (Reads.accept hafter).bind fun colon rest _ hrest => ?_
    exact (ih.expr .expression _ trivial hrest).bind fun value final _ hfinal => Reads.done hfinal

theorem reads_args (phase : ArgPhase) (sole : Bool) (ts : List Token) (hts : Clean ts) :
    Reads (fun _ => True) (parseParts (n + 1) (.args phase sole) ts) := by
  rw [parseParts_level]
  dsimp only
  split
  case h_1 => exact Reads.none
  case h_2 t rest =>
    have hrest := hts.tail
    split
    · exact Reads.done hrest
    split
    · refine (ih.expr .expression _ trivial hrest).bind fun value after _ hafter => ?_
      exact (ih.parts _ after hafter).bind fun more final _ hfinal => Reads.done hfinal
    split
    · split
      · exact Reads.none
      refine (ih.expr .expression _ trivial hrest).bind fun value after _ hafter => ?_
      dsimp only
      split
      · split
        · refine (ih.expr .element _ trivial hts).bind fun element after _ hafter => ?_
          refine (ih.expr .clause _ trivial hafter).bind fun clause after _ hafter => ?_
          exact (Reads.accept hafter).bind fun close final _ hfinal => Reads.done hfinal
        · exact Reads.none
      · exact (ih.parts _ after hafter).bind fun more final _ hfinal => Reads.done hfinal
    split
    · refine (Reads.accept hrest).bind fun equal rest _ hrest => ?_
      refine (ih.expr .expression _ trivial hrest).bind fun value after _ hafter => ?_
      exact (ih.parts _ after hafter).bind fun more final _ hfinal => Reads.done hfinal
    split
    · refine (ih.expr .named _ trivial hts).bind fun value after _ hafter => ?_
      dsimp only
      split
      · split
        · refine (ih.expr .clause _ trivial hafter).bind fun clause after _ hafter => ?_
          exact (Reads.accept hafter).bind fun close final _ hfinal => Reads.done hfinal
        · exact Reads.none
      · exact (ih.parts _ after hafter).bind fun more final _ hfinal => Reads.done hfinal
    · exact Reads.none

theorem reads_argsRest (phase : ArgPhase) (ts : List Token) (hts : Clean ts) :
    Reads (fun _ => True) (parseParts (n + 1) (.argsRest phase) ts) := by
  rw [parseParts_level]
  dsimp only
  repeat' split
  · exact (ih.parts _ _ hts.tail).bind fun more final _ hfinal => Reads.done hfinal
  · exact Reads.done hts.tail
  · exact Reads.none
  · exact Reads.none

theorem reads_subscripts (ts : List Token) (hts : Clean ts) :
    Reads (fun _ => True) (parseParts (n + 1) .subscripts ts) := by
  rw [parseParts_level]
  dsimp only
  split
  case h_1 => exact Reads.none
  case h_2 t rest =>
    split
    · exact ih.parts _ _ hts
    split
    · refine (ih.expr .expression _ trivial hts.tail).bind fun value after _ hafter => ?_
      exact (ih.parts _ after hafter).bind fun more final _ hfinal => Reads.done hfinal
    · refine (ih.expr .named _ trivial hts).bind fun value after _ hafter => ?_
      dsimp only
      repeat' split
      · exact Reads.none
      · exact (ih.parts _ after hafter).bind fun more final _ hfinal => Reads.done hfinal
      · exact (ih.parts _ after hafter).bind fun more final _ hfinal => Reads.done hfinal

theorem reads_sliceRest (more : Bool) (ts : List Token) (hts : Clean ts) :
    Reads (fun _ => True) (parseParts (n + 1) (.sliceRest more) ts) := by
  rw [parseParts_level]
  refine (Reads.accept hts).bind fun colon rest _ hrest => ?_
  dsimp only
  split
  · exact (ih.parts _ rest hrest).bind fun tail final _ hfinal => Reads.done hfinal
  split
  · exact (ih.parts _ rest hrest).bind fun tail final _ hfinal => Reads.done hfinal
  · refine (ih.expr .expression _ trivial hrest).bind fun value after _ hafter => ?_
    dsimp only
    split <;> exact (ih.parts _ after hafter).bind fun tail final _ hfinal => Reads.done hfinal

theorem reads_subscriptsRest (ts : List Token) (hts : Clean ts) :
    Reads (fun _ => True) (parseParts (n + 1) .subscriptsRest ts) := by
  rw [parseParts_level]
  dsimp only
  split
  case h_1 t rest =>
    split
    · split
      case h_1 close after haccept =>
        obtain ⟨-, rfl⟩ := accept_eq_some haccept
        exact Reads.done hts.tail.tail
      case h_2 => exact (ih.parts _ rest hts.tail).bind fun more final _ hfinal => Reads.done hfinal
    split
    · exact Reads.done hts.tail
    · exact Reads.none
  case h_2 => exact Reads.none

theorem reads_params (state : ParamState) (ts : List Token) (hts : Clean ts) :
    Reads (fun _ => True) (parseParts (n + 1) (.params state) ts) := by
  rw [parseParts_level]
  dsimp only
  split
  case h_1 => exact Reads.none
  case h_2 t rest =>
    have hrest := hts.tail
    split
    · split
      · exact Reads.none
      · exact Reads.done hts
    split
    · split
      · exact Reads.none
      · exact (ih.parts _ rest hrest).bind fun more final _ hfinal => Reads.done hfinal
    split
    · split
      · exact Reads.none
      split
      case h_1 name after =>
        split
        · exact (ih.parts _ after hrest.tail).bind fun more final _ hfinal => Reads.done hfinal
        · exact Reads.none
      case h_2 => exact Reads.none
    split
    · split
      · exact Reads.none
      split
      case h_1 name after =>
        split
        · exact (ih.parts _ _ hrest).bind fun more final _ hfinal => Reads.done hfinal
        split
        · exact (ih.parts _ after hrest.tail).bind fun more final _ hfinal => Reads.done hfinal
        · exact Reads.none
      case h_2 => exact Reads.none
    split
    · split
      case h_1 equal after haccept =>
        obtain ⟨-, rfl⟩ := accept_eq_some haccept
        refine (ih.expr .expression _ trivial hrest.tail).bind fun value after _ hafter => ?_
        exact (ih.parts _ after hafter).bind fun more final _ hfinal => Reads.done hfinal
      case h_2 =>
        split
        · exact Reads.none
        · exact (ih.parts _ rest hrest).bind fun more final _ hfinal => Reads.done hfinal
    · exact Reads.none

theorem reads_paramsRest (state : ParamState) (last : Bool) (ts : List Token) (hts : Clean ts) :
    Reads (fun _ => True) (parseParts (n + 1) (.paramsRest state last) ts) := by
  rw [parseParts_level]
  dsimp only
  repeat' split
  · exact Reads.none
  · exact Reads.done hts
  · exact Reads.done hts.tail
  · exact Reads.none
  · exact (ih.parts _ _ hts.tail).bind fun more final _ hfinal => Reads.done hfinal
  · exact Reads.none
  · exact Reads.none

theorem reads_clauseRest (ts : List Token) (hts : Clean ts) :
    Reads (fun _ => True) (parseParts (n + 1) .clauseRest ts) := by
  rw [parseParts_level]
  dsimp only
  split
  case h_1 ifToken rest haccept =>
    obtain ⟨-, rfl⟩ := accept_eq_some haccept
    refine (ih.expr .disjunction _ trivial hts.tail).bind fun test after _ hafter => ?_
    exact (ih.parts _ after hafter).bind fun more final _ hfinal => Reads.done hfinal
  case h_2 =>
    split
    · exact (ih.expr .clause _ trivial hts).bind fun clause final _ hfinal => Reads.done hfinal
    · exact Reads.done hts

theorem reads_parts (goal : PartsGoal) (ts : List Token) (hts : Clean ts) :
    Reads (fun _ => True) (parseParts (n + 1) goal ts) := by
  cases goal with
  | moreElements close => exact reads_moreElements ih close ts hts
  | moreSequence => exact reads_moreSequence ih ts hts
  | moreTargets => exact reads_moreTargets ih ts hts
  | morePairs => exact reads_morePairs ih ts hts
  | pair => exact reads_pair ih ts hts
  | args phase sole => exact reads_args ih phase sole ts hts
  | argsRest phase => exact reads_argsRest ih phase ts hts
  | subscripts => exact reads_subscripts ih ts hts
  | sliceRest more => exact reads_sliceRest ih more ts hts
  | subscriptsRest => exact reads_subscriptsRest ih ts hts
  | params state => exact reads_params ih state ts hts
  | paramsRest state last => exact reads_paramsRest ih state last ts hts
  | clauseRest => exact reads_clauseRest ih ts hts

/-- What stands in parentheses is spelled out if its element is, and all else in brackets is marked by them. -/
theorem reads_atom (ts : List Token) (hts : Clean ts) :
    Reads Expr.Spelled (parseExpr (n + 1) .atom ts) := by
  rw [parseExpr_level]
  dsimp only
  split
  case h_1 => exact Reads.none
  case h_2 t rest =>
    have hrest := hts.tail
    have hproper : Proper t := (List.forall_mem_cons.mp hts).1
    split
    case h_1 kind hkind =>
      rw [Proper, hkind] at hproper
      exact Reads.some hproper hrest
    case h_2 hkind =>
      rw [Proper, hkind] at hproper
      split
      · exact Reads.some hproper hrest
      · exact Reads.some (marked_text hproper _) fun u hu => hrest u (List.mem_of_mem_drop hu)
    case h_3 =>
      split
      · exact Reads.some trivial hrest
      · exact Reads.none
    case h_4 =>
      split
      case h_1 hlexeme =>
        have hmark : Marked t.lexeme := hlexeme ▸ by decide
        exact Reads.some (marked_text hmark _) hrest
      case h_2 =>
        split
        case h_1 close after haccept =>
          obtain ⟨-, rfl⟩ := accept_eq_some haccept
          have hmark : Marked "(" := by decide
          refine Reads.some ?_ hrest.tail
          simp [Expr.Spelled, Expr.render, hmark]
        case h_2 =>
          split
          case isTrue hyield =>
            refine (ih.expr .yielded rest hyield hrest).bind fun body after hbody hafter => ?_
            exact (Reads.accept hafter).bind fun close final _ hfinal => Reads.some hbody hfinal
          case isFalse =>
            refine (ih.expr .element rest trivial hrest).bind fun first after hfirst hafter => ?_
            dsimp only
            split
            case isTrue hcomma =>
              have hparts : Reads (fun more : Parts => Marked more.render)
                  (parseParts n (.moreElements ")") after) := fun more final h =>
                ⟨marked_of_comma (.inr (.inr ⟨_, rfl⟩)) hcomma more final h, (ih.parts _ _ hafter more final h).2⟩
              refine hparts.bind fun more after hmark hafter => ?_
              exact (Reads.accept hafter).bind fun close final _ hfinal =>
                Reads.some (marked_child hmark first) hfinal
            case isFalse =>
              split
              · have hclause : Reads (fun clause : Expr => Marked clause.render) (parseExpr n .clause after) :=
                  fun clause final h => ⟨marked_of_clause h, (ih.expr .clause _ trivial hafter clause final h).2⟩
                refine hclause.bind fun clause after hmark hafter => ?_
                exact (Reads.accept hafter).bind fun close final _ hfinal =>
                  Reads.some (marked_child (marked_append.mpr (.inl hmark)) first) hfinal
              split
              · exact Reads.none
              · exact (Reads.accept hafter).bind fun close final _ hfinal => Reads.some hfirst hfinal
      case h_3 hlexeme =>
        have hmark : Marked t.lexeme := hlexeme ▸ by decide
        split
        case h_1 close after haccept =>
          obtain ⟨-, rfl⟩ := accept_eq_some haccept
          exact Reads.some (marked_text hmark _) hrest.tail
        case h_2 =>
          refine (ih.expr .element rest trivial hrest).bind fun first after _ hafter => ?_
          dsimp only
          split
          · refine (ih.expr .clause _ trivial hafter).bind fun clause after _ hafter => ?_
            exact (Reads.accept hafter).bind fun close final _ hfinal => Reads.some (marked_text hmark _) hfinal
          · refine (ih.parts _ _ hafter).bind fun more after _ hafter => ?_
            exact (Reads.accept hafter).bind fun close final _ hfinal => Reads.some (marked_text hmark _) hfinal
      case h_4 hlexeme =>
        have hmark : Marked t.lexeme := hlexeme ▸ by decide
        split
        case h_1 close after haccept =>
          obtain ⟨-, rfl⟩ := accept_eq_some haccept
          exact Reads.some (marked_text hmark _) hrest.tail
        case h_2 =>
          split
          case isTrue =>
            refine (ih.parts .pair rest hrest).bind fun pairs after _ hafter => ?_
            dsimp only
            split
            · refine (ih.expr .clause _ trivial hafter).bind fun clause after _ hafter => ?_
              exact (Reads.accept hafter).bind fun close final _ hfinal =>
                Reads.some (marked_text hmark _) hfinal
            · refine (ih.parts _ _ hafter).bind fun more after _ hafter => ?_
              exact (Reads.accept hafter).bind fun close final _ hfinal =>
                Reads.some (marked_text hmark _) hfinal
          case isFalse =>
            refine (ih.expr .element rest trivial hrest).bind fun first after _ hafter => ?_
            dsimp only
            split
            · refine (ih.parts .pair rest hrest).bind fun pairs after _ hafter => ?_
              dsimp only
              split
              · refine (ih.expr .clause _ trivial hafter).bind fun clause after _ hafter => ?_
                exact (Reads.accept hafter).bind fun close final _ hfinal =>
                  Reads.some (marked_text hmark _) hfinal
              · refine (ih.parts _ _ hafter).bind fun more after _ hafter => ?_
                exact (Reads.accept hafter).bind fun close final _ hfinal =>
                  Reads.some (marked_text hmark _) hfinal
            split
            · refine (ih.expr .clause _ trivial hafter).bind fun clause after _ hafter => ?_
              exact (Reads.accept hafter).bind fun close final _ hfinal =>
                Reads.some (marked_text hmark _) hfinal
            · refine (ih.parts _ _ hafter).bind fun more after _ hafter => ?_
              exact (Reads.accept hafter).bind fun close final _ hfinal =>
                Reads.some (marked_text hmark _) hfinal
      case h_5 => exact Reads.none

theorem reads_comparisonRest {left : Expr} (hleft : left.Spelled) (ts : List Token) (hts : Clean ts) :
    Reads Expr.Spelled (parseExpr (n + 1) (.comparisonRest left) ts) := by
  rw [parseExpr_level]
  dsimp only
  split
  case h_1 op spelling rest hrelation =>
    obtain ⟨hmark, hrest⟩ := marked_of_relation hrelation
    refine (ih.expr (.binary 0) rest trivial (hrest hts)).bind fun right after hright hafter => ?_
    dsimp only
    split
    · exact (ih.expr (.comparisonRest right) after hright hafter).bind fun links final hlinks hfinal =>
        Reads.some ⟨hmark, hlinks⟩ hfinal
    · exact Reads.some hmark hafter
  case h_2 => exact Reads.some hleft hts

theorem reads_trailers {base : Expr} (hbase : base.Spelled) (ts : List Token) (hts : Clean ts) :
    Reads Expr.Spelled (parseExpr (n + 1) (.trailers base) ts) := by
  rw [parseExpr_level]
  dsimp only
  split
  case h_1 t rest =>
    have hrest := hts.tail
    split
    case isTrue hdot =>
      have hmark : Marked (Token.piece t) := marked_piece (marked_of_beq hdot (by decide))
      split
      case h_1 field after =>
        split
        · refine ih.expr (.trailers _) after ?_ hrest.tail
          simp [ExprGoal.Given, Expr.Spelled, Expr.render, hmark]
        · exact Reads.none
      case h_2 => exact Reads.none
    split
    case isTrue hopen =>
      have hmark : Marked (Token.piece t) := marked_piece (marked_of_beq hopen (by decide))
      refine (ih.parts _ rest hrest).bind fun args after _ hafter => ?_
      exact ih.expr (.trailers _) after (marked_append.mpr (.inr (marked_text hmark args))) hafter
    split
    case isTrue hopen =>
      have hmark : Marked (Token.piece t) := marked_piece (marked_of_beq hopen (by decide))
      refine (ih.parts _ rest hrest).bind fun subscripts after _ hafter => ?_
      exact ih.expr (.trailers _) after (marked_child (marked_text hmark subscripts) base) hafter
    case isFalse => exact Reads.some hbase hts
  case h_2 => exact Reads.some hbase hts

theorem reads_sequence (ts : List Token) (hts : Clean ts) :
    Reads Expr.Spelled (parseExpr (n + 1) .sequence ts) := by
  rw [parseExpr_level]
  refine (ih.expr .starOrExpr ts trivial hts).bind fun first rest hfirst hrest => ?_
  dsimp only
  split
  case isTrue hcomma =>
    have hparts : Reads (fun more : Parts => Marked more.render) (parseParts n .moreSequence rest) :=
      fun more final h => ⟨marked_of_comma (.inl rfl) hcomma more final h, (ih.parts _ _ hrest more final h).2⟩
    exact hparts.bind fun more final hmark hfinal => Reads.some (marked_child hmark first) hfinal
  case isFalse => exact Reads.some hfirst hrest

theorem reads_starOrExpr (ts : List Token) (hts : Clean ts) :
    Reads Expr.Spelled (parseExpr (n + 1) .starOrExpr ts) := by
  rw [parseExpr_level]
  dsimp only
  split
  case h_1 t rest =>
    split
    case isTrue hlexeme =>
      exact (ih.expr (.binary 0) rest trivial hts.tail).bind fun operand after _ hafter =>
        Reads.some (marked_text (marked_of_beq hlexeme (by decide)) _) hafter
    case isFalse => exact ih.expr .expression _ trivial hts
  case h_2 => exact Reads.none

theorem reads_element (ts : List Token) (hts : Clean ts) :
    Reads Expr.Spelled (parseExpr (n + 1) .element ts) := by
  rw [parseExpr_level]
  dsimp only
  split
  case h_1 t rest =>
    split
    case isTrue hlexeme =>
      exact (ih.expr (.binary 0) rest trivial hts.tail).bind fun operand after _ hafter =>
        Reads.some (marked_text (marked_of_beq hlexeme (by decide)) _) hafter
    case isFalse => exact ih.expr .named _ trivial hts
  case h_2 => exact Reads.none

theorem reads_named (ts : List Token) (hts : Clean ts) :
    Reads Expr.Spelled (parseExpr (n + 1) .named ts) := by
  rw [parseExpr_level]
  dsimp only
  split
  case h_1 t a rest =>
    split
    case isTrue hassign =>
      have hmark : Marked (Token.piece a) :=
        marked_piece (marked_of_beq (Bool.and_eq_true_iff.mp hassign).2 (by decide))
      exact (ih.expr .expression rest trivial hts.tail.tail).bind fun value after _ hafter =>
        Reads.some (marked_child (marked_text hmark _) _) hafter
    case isFalse => exact ih.expr .expression _ trivial hts
  case h_2 => exact ih.expr .expression _ trivial hts

theorem reads_expression (ts : List Token) (hts : Clean ts) :
    Reads Expr.Spelled (parseExpr (n + 1) .expression ts) := by
  rw [parseExpr_level]
  dsimp only
  split
  case h_1 t rest =>
    split
    case isTrue hlexeme =>
      refine (ih.parts _ rest hts.tail).bind fun params after _ hafter => ?_
      refine (Reads.accept hafter).bind fun colon after _ hafter => ?_
      exact (ih.expr .expression after trivial hafter).bind fun body final _ hfinal =>
        Reads.some (marked_text (marked_of_beq hlexeme (by decide)) _) hfinal
    case isFalse =>
      refine (ih.expr .disjunction _ trivial hts).bind fun body after hbody hafter => ?_
      dsimp only
      split
      case h_1 ifToken afterIf haccept =>
        obtain ⟨hif, rfl⟩ := accept_eq_some haccept
        have hmark : Marked (Token.piece ifToken) := marked_piece (hif ▸ by decide)
        refine (ih.expr .disjunction _ trivial hafter.tail).bind fun test rest _ hrest => ?_
        refine (Reads.accept hrest).bind fun elseToken afterElse _ hafterElse => ?_
        exact (ih.expr .expression _ trivial hafterElse).bind fun other final _ hfinal =>
          Reads.some (marked_child (marked_text hmark _) body) hfinal
      case h_2 => exact Reads.some hbody hafter
  case h_2 => exact Reads.none

theorem reads_disjunction (ts : List Token) (hts : Clean ts) :
    Reads Expr.Spelled (parseExpr (n + 1) .disjunction ts) := by
  rw [parseExpr_level]
  exact (ih.expr .conjunction ts trivial hts).bind fun first rest hfirst hrest =>
    ih.expr (.junctionRest .or first) rest hfirst hrest

theorem reads_conjunction (ts : List Token) (hts : Clean ts) :
    Reads Expr.Spelled (parseExpr (n + 1) .conjunction ts) := by
  rw [parseExpr_level]
  exact (ih.expr .inversion ts trivial hts).bind fun first rest hfirst hrest =>
    ih.expr (.junctionRest .and first) rest hfirst hrest

theorem reads_junctionRest {op : Connective} {left : Expr} (hgiven : left.Spelled) (ts : List Token)
    (hts : Clean ts) :
    Reads Expr.Spelled (parseExpr (n + 1) (.junctionRest op left) ts) := by
  rw [parseExpr_level]
  dsimp only
  split
  case h_1 t rest haccept =>
    obtain ⟨-, rfl⟩ := accept_eq_some haccept
    have hoperand : ExprGoal.Given (if op = .or then .conjunction else .inversion) rest := by
      split <;> trivial
    exact (ih.expr _ _ hoperand hts.tail).bind fun right after hright hafter =>
      ih.expr (.junctionRest op _) after ⟨hgiven, hright⟩ hafter
  case h_2 => exact Reads.some hgiven hts

theorem reads_inversion (ts : List Token) (hts : Clean ts) :
    Reads Expr.Spelled (parseExpr (n + 1) .inversion ts) := by
  rw [parseExpr_level]
  dsimp only
  split
  case h_1 t rest haccept =>
    obtain ⟨-, rfl⟩ := accept_eq_some haccept
    exact (ih.expr .inversion _ trivial hts.tail).bind fun operand after hoperand hafter =>
      Reads.some hoperand hafter
  case h_2 => exact ih.expr .comparison ts trivial hts

theorem reads_comparison (ts : List Token) (hts : Clean ts) :
    Reads Expr.Spelled (parseExpr (n + 1) .comparison ts) := by
  rw [parseExpr_level]
  exact (ih.expr (.binary 0) ts trivial hts).bind fun first rest hfirst hrest =>
    ih.expr (.comparisonRest first) rest hfirst hrest

theorem reads_binary (level : Nat) (ts : List Token) (hts : Clean ts) :
    Reads Expr.Spelled (parseExpr (n + 1) (.binary level) ts) := by
  have hoperand : ExprGoal.Given (if level < 5 then .binary (level + 1) else .factor) ts := by
    split <;> trivial
  rw [parseExpr_level]
  exact (ih.expr _ ts hoperand hts).bind fun first rest hfirst hrest =>
    ih.expr (.binaryRest level first) rest hfirst hrest

theorem reads_binaryRest (level : Nat) {left : Expr} (hgiven : left.Spelled) (ts : List Token) (hts : Clean ts) :
    Reads Expr.Spelled (parseExpr (n + 1) (.binaryRest level left) ts) := by
  rw [parseExpr_level]
  dsimp only
  split
  case h_1 t rest =>
    split
    case isTrue hoperator =>
      have hmark : Marked (Token.piece t) := marked_piece (marked_of_binaryOperators hoperator)
      have hoperand : ExprGoal.Given (if level < 5 then .binary (level + 1) else .factor) rest := by
        split <;> trivial
      exact (ih.expr _ rest hoperand hts.tail).bind fun right after _ hafter =>
        ih.expr (.binaryRest level _) after (marked_child (marked_text hmark _) left) hafter
    case isFalse => exact Reads.some hgiven hts
  case h_2 => exact Reads.some hgiven hts

theorem reads_factor (ts : List Token) (hts : Clean ts) :
    Reads Expr.Spelled (parseExpr (n + 1) .factor ts) := by
  rw [parseExpr_level]
  dsimp only
  split
  case h_1 t rest =>
    split
    case isTrue =>
      have hminus : Marked "-" := by decide
      refine (ih.expr .factor rest trivial hts.tail).bind fun operand after _ hafter => Reads.some ?_ hafter
      simp [Expr.Spelled, Expr.render, hminus]
    split
    case isTrue hsign =>
      have hmark : Marked t.lexeme := by
        rcases Bool.or_eq_true_iff.mp hsign with hplus | htilde
        · exact marked_of_beq hplus (by decide)
        · exact marked_of_beq htilde (by decide)
      exact (ih.expr .factor rest trivial hts.tail).bind fun operand after _ hafter =>
        Reads.some (marked_text hmark _) hafter
    case isFalse => exact ih.expr .power _ trivial hts
  case h_2 => exact Reads.none

theorem reads_power (ts : List Token) (hts : Clean ts) :
    Reads Expr.Spelled (parseExpr (n + 1) .power ts) := by
  rw [parseExpr_level]
  refine (ih.expr .awaited ts trivial hts).bind fun base rest hbase hrest => ?_
  dsimp only
  split
  case h_1 t after haccept =>
    obtain ⟨hlexeme, rfl⟩ := accept_eq_some haccept
    have hmark : Marked (Token.piece t) := marked_piece (hlexeme ▸ by decide)
    exact (ih.expr .factor _ trivial hrest.tail).bind fun exponent final _ hfinal =>
      Reads.some (marked_child (marked_text hmark _) base) hfinal
  case h_2 => exact Reads.some hbase hrest

theorem reads_awaited (ts : List Token) (hts : Clean ts) :
    Reads Expr.Spelled (parseExpr (n + 1) .awaited ts) := by
  rw [parseExpr_level]
  dsimp only
  split
  case h_1 t rest haccept =>
    obtain ⟨hlexeme, rfl⟩ := accept_eq_some haccept
    have hmark : Marked t.lexeme := hlexeme ▸ by decide
    exact (ih.expr .primary _ trivial hts.tail).bind fun operand after _ hafter =>
      Reads.some (marked_text hmark _) hafter
  case h_2 => exact ih.expr .primary ts trivial hts

theorem reads_primary (ts : List Token) (hts : Clean ts) :
    Reads Expr.Spelled (parseExpr (n + 1) .primary ts) := by
  rw [parseExpr_level]
  exact (ih.expr .atom ts trivial hts).bind fun base rest hbase hrest =>
    ih.expr (.trailers base) rest hbase hrest

theorem reads_targets (ts : List Token) (hts : Clean ts) :
    Reads Expr.Spelled (parseExpr (n + 1) .targets ts) := by
  rw [parseExpr_level]
  refine (ih.expr .target ts trivial hts).bind fun first rest hfirst hrest => ?_
  dsimp only
  split
  case isTrue hcomma =>
    have hparts : Reads (fun more : Parts => Marked more.render) (parseParts n .moreTargets rest) :=
      fun more final h =>
        ⟨marked_of_comma (.inr (.inl rfl)) hcomma more final h, (ih.parts _ _ hrest more final h).2⟩
    exact hparts.bind fun more final hmark hfinal => Reads.some (marked_child hmark first) hfinal
  case isFalse => exact Reads.some hfirst hrest

theorem reads_target (ts : List Token) (hts : Clean ts) :
    Reads Expr.Spelled (parseExpr (n + 1) .target ts) := by
  rw [parseExpr_level]
  dsimp only
  split
  case h_1 t rest =>
    split
    case isTrue hlexeme =>
      split
      · exact Reads.none
      · exact (ih.expr .target rest trivial hts.tail).bind fun operand after _ hafter =>
          Reads.some (marked_text (marked_of_beq hlexeme (by decide)) _) hafter
    case isFalse =>
      refine (ih.expr .primary _ trivial hts).bind fun operand after hoperand hafter => ?_
      dsimp only
      split
      · exact Reads.some hoperand hafter
      · exact Reads.none
  case h_2 => exact Reads.none

theorem reads_yielded (ts : List Token) (hgiven : nextIs "yield" ts = true) (hts : Clean ts) :
    Reads Expr.Spelled (parseExpr (n + 1) .yielded ts) := by
  rw [parseExpr_level]
  dsimp only
  split
  case h_1 t rest =>
    have hmark : Marked t.lexeme := marked_of_beq hgiven (by decide)
    split
    case h_1 fromToken after haccept =>
      obtain ⟨-, rfl⟩ := accept_eq_some haccept
      exact (ih.expr .expression _ trivial hts.tail.tail).bind fun source final _ hfinal =>
        Reads.some (marked_text hmark _) hfinal
    case h_2 =>
      split
      · exact Reads.some (marked_text hmark _) hts.tail
      · exact (ih.expr .sequence rest trivial hts.tail).bind fun value after _ hafter =>
          Reads.some (marked_text hmark _) hafter
  case h_2 => exact Reads.none

theorem reads_clause (ts : List Token) (hts : Clean ts) :
    Reads Expr.Spelled (parseExpr (n + 1) .clause ts) := by
  have hfor : Marked "for" := by decide
  have hlead : ∀ {lead : String} {ts : List Token}, Clean ts →
      Reads (fun _ => True) (some (lead, ts)) := fun hts => Reads.some trivial hts
  have hclean : ∀ t rest, accept "async" ts = some (t, rest) → Clean rest := fun t rest haccept =>
    (Reads.accept hts t rest haccept).2
  rw [parseExpr_level]
  dsimp only
  split
  case' h_1 t rest haccept => refine (hlead (hclean t rest haccept)).bind fun lead ts _ hts => ?_
  case' h_2 => refine (hlead hts).bind fun lead ts _ hts => ?_
  all_goals
    refine (Reads.accept hts).bind fun forToken rest hlexeme hrest => ?_
    refine (ih.expr .targets rest trivial hrest).bind fun targets after _ hafter => ?_
    refine (Reads.accept hafter).bind fun inToken afterIn _ hafterIn => ?_
    refine (ih.expr .disjunction afterIn trivial hafterIn).bind fun source final _ hfinal => ?_
    refine (ih.parts .clauseRest final hfinal).bind fun more final _ hfinal => Reads.some ?_ hfinal
    exact marked_text (marked_append.mpr (.inr (marked_piece (hlexeme ▸ hfor)))) _

theorem reads_expr (goal : ExprGoal) (ts : List Token) (hgiven : goal.Given ts) (hts : Clean ts) :
    Reads Expr.Spelled (parseExpr (n + 1) goal ts) := by
  cases goal with
  | atom => exact reads_atom ih ts hts
  | comparisonRest left => exact reads_comparisonRest ih hgiven ts hts
  | trailers base => exact reads_trailers ih hgiven ts hts
  | sequence => exact reads_sequence ih ts hts
  | starOrExpr => exact reads_starOrExpr ih ts hts
  | element => exact reads_element ih ts hts
  | named => exact reads_named ih ts hts
  | expression => exact reads_expression ih ts hts
  | disjunction => exact reads_disjunction ih ts hts
  | conjunction => exact reads_conjunction ih ts hts
  | junctionRest op left => exact reads_junctionRest ih hgiven ts hts
  | inversion => exact reads_inversion ih ts hts
  | comparison => exact reads_comparison ih ts hts
  | binary level => exact reads_binary ih level ts hts
  | binaryRest level left => exact reads_binaryRest ih level hgiven ts hts
  | factor => exact reads_factor ih ts hts
  | power => exact reads_power ih ts hts
  | awaited => exact reads_awaited ih ts hts
  | primary => exact reads_primary ih ts hts
  | targets => exact reads_targets ih ts hts
  | target => exact reads_target ih ts hts
  | yielded => exact reads_yielded ih ts hgiven hts
  | clause => exact reads_clause ih ts hts

end Step

/-- What the grammar reads of clean tokens is spelled out. -/
theorem sound (n : Nat) : Sound n := by
  induction n with
  | zero => exact ⟨fun _ _ _ _ => Reads.none, fun _ _ _ => Reads.none⟩
  | succ n ih => exact ⟨reads_expr ih, reads_parts ih⟩

theorem spelled_of_parse {ts : List Token} {e : Expr} (hts : Clean ts) (h : parse? ts = some e) :
    e.Spelled := by
  unfold parse? at h
  split at h
  case h_1 e' hread =>
    cases h
    exact ((sound _).expr .sequence ts trivial hts _ _ hread).1
  case h_2 => cases h

end Grammar

theorem Relation.marked_spelling (op : Relation) : Marked op.spelling := by
  cases op with
  | order c => cases c <;> decide
  | membership n => cases n <;> decide
  | identity n => cases n <;> decide

namespace Expr

/-- Expressions that are read are spelled out. -/
theorem spelled_of_parse {cs : List Char} {e : Expr} (h : Expr.parse? cs = some e) : e.Spelled := by
  obtain ⟨ts, htokens, hparse⟩ := Option.bind_eq_some_iff.mp h
  unfold Token.tokenize at htokens
  dsimp only at htokens
  split at htokens
  · cases htokens
  · exact Grammar.spelled_of_parse (Token.clean_of_scan htokens) hparse

theorem Spelled.of_mem_links {e link : Expr} (h : e.Spelled) (hlink : link ∈ Reading.links e) :
    link.Spelled := by
  induction e using Reading.links.induct with
  | case1 left op spelling right =>
    rw [List.mem_singleton.mp hlink]
    exact h
  | case2 left op spelling rest ih =>
    rw [Reading.links] at hlink
    rcases List.mem_cons.mp hlink with rfl | hlink
    · exact h.1
    · exact ih h.2 hlink
  | case3 e hcompare hchain => simp [Reading.links] at hlink

/-- The leaves of what is spelled out are spelled out. -/
theorem Spelled.of_mem_leaves {e leaf : Expr} (h : e.Spelled) (hleaf : leaf ∈ e.leaves) : leaf.Spelled := by
  induction e using leaves.induct with
  | case1 lead body trail ih => exact ih h hleaf
  | case2 left op spelling right ihLeft ihRight =>
    rcases List.mem_append.mp hleaf with hleaf | hleaf
    · exact ihLeft h.1 hleaf
    · exact ihRight h.2 hleaf
  | case3 gap operand ih => exact ih h hleaf
  | case4 left op spelling rest => exact h.of_mem_links hleaf
  | case5 e hparen hjunction hnegation hchain =>
    rw [leaves_of_isLeaf (Reading.isLeaf_of_not_connected hparen hjunction hnegation hchain)] at hleaf
    rw [List.mem_singleton.mp hleaf]
    exact h

/-- The names among the leaves of what can be written out are identifiers. -/
theorem isIdentifier_of_mem_leaves {e : Expr} {id : String} (h : e.fault? = none)
    (hleaf : .name id ∈ e.leaves) : Text.isIdentifier id.toList = true := by
  induction e using leaves.induct with
  | case1 lead body trail ih => exact ih h hleaf
  | case2 left op spelling right ihLeft ihRight =>
    rw [fault?, Option.or_eq_none_iff, Option.or_eq_none_iff] at h
    rcases List.mem_append.mp hleaf with hleaf | hleaf
    · exact ihLeft h.1 hleaf
    · exact ihRight h.2.1 hleaf
  | case3 gap operand ih =>
    rw [fault?, Option.or_eq_none_iff] at h
    exact ih h.1 hleaf
  | case4 left op spelling rest =>
    -- a chain has comparisons for leaves
    have hlinks : ∀ e : Expr, .name id ∉ Reading.links e := by
      intro e hlink
      induction e using Reading.links.induct with
      | case1 left op spelling right => cases List.mem_singleton.mp hlink
      | case2 left op spelling rest ih =>
        rcases List.mem_cons.mp hlink with heq | hlink
        · cases heq
        · exact ih hlink
      | case3 e hcompare hchain => simp [Reading.links] at hlink
    exact absurd hleaf (hlinks _)
  | case5 e hparen hjunction hnegation hchain =>
    rw [leaves_of_isLeaf (Reading.isLeaf_of_not_connected hparen hjunction hnegation hchain)] at hleaf
    rw [← List.mem_singleton.mp hleaf, fault?, nameFault?] at h
    by_contra hidentifier
    rw [if_neg hidentifier] at h
    cases h

/-- A comparison is marked by its relation. -/
theorem marked_compare {left right : Expr} {op : Relation} {spelling : String} (h : Marked spelling) :
    Marked (compare left op spelling right).render := by
  rw [render, marked_append, marked_append]
  exact .inl (.inr h)

/-- A leaf that is no name is marked. -/
theorem Spelled.marked_render {e : Expr} (h : e.Spelled) (hleaf : e.isLeaf = true)
    (hname : ¬ ∃ id, e = .name id) : Marked e.render := by
  cases e with
  | name id => exact absurd ⟨id, rfl⟩ hname
  | paren | junction | negation | chain => cases hleaf
  | compare left op spelling right => exact marked_compare h
  | number | quoted | unit | member | call | minus | compound => exact h

theorem marked_key {e : Expr} (h : Marked e.render) : Marked e.key := by
  obtain ⟨c, hc, hink, hletters⟩ := h
  exact ⟨c, mem_canonicalKey hc hink, hink, hletters⟩

theorem key_ne_constant {e : Expr} (h : Marked e.render) : e.key ≠ "True" ∧ e.key ≠ "False" := by
  have hmarked := marked_key h
  constructor
  · intro heq
    rw [heq] at hmarked
    exact absurd hmarked (by decide)
  · intro heq
    rw [heq] at hmarked
    exact absurd hmarked (by decide)

/-- The key of an identifier that is no constant is not that of a constant either. -/
theorem key_name_injective {id constant : String} (hid : Text.isIdentifier id.toList = true)
    (hconstant : Text.ink constant.toList = constant.toList) (h : (Expr.name id).key = constant) :
    id = constant := by
  have hink := ink_canonicalKey id
  rw [show canonicalKey id = constant from h, hconstant,
    Text.ink_of_inked (Text.isBlank_of_isIdentifier hid)] at hink
  exact String.toList_injective hink.symm

/-- A leaf with the key of a constant is the constant. -/
theorem Spelled.eq_name_of_key {e leaf : Expr} {constant : String} (h : e.Spelled) (hfault : e.fault? = none)
    (hleaf : leaf ∈ e.leaves) (hconstant : constant ∈ ["True", "False"]) (hkey : leaf.key = constant) :
    leaf = .name constant := by
  have hspelled := h.of_mem_leaves hleaf
  have hunmarked : ∀ constant ∈ ["True", "False"], ¬ Marked constant := by decide
  have hink : ∀ constant ∈ ["True", "False"], Text.ink constant.toList = constant.toList := by decide
  by_cases hname : ∃ id, leaf = .name id
  · obtain ⟨id, rfl⟩ := hname
    have hid := isIdentifier_of_mem_leaves hfault hleaf
    rw [key_name_injective hid (hink constant hconstant) hkey]
  · have hmarked : Marked leaf.render := hspelled.marked_render (Reading.isLeaf_of_mem_leaves hleaf) hname
    exact absurd (hkey ▸ marked_key hmarked) (hunmarked constant hconstant)

end Expr

namespace Reading

/-- The expression of a line is spelled out and can be written out. -/
theorem spelled_of_expression {cs : List Char} {e : Expr} (h : expression? cs = .ok (some e)) :
    e.Spelled ∧ e.fault? = none := by
  unfold expression? at h
  split at h
  case h_1 e' hparse =>
    obtain ⟨written, hchecked, heq⟩ := Outcome.map_eq_ok_iff.mp h
    cases heq
    obtain ⟨hfault, rfl⟩ := Expr.checked_eq_ok_iff.mp hchecked
    exact ⟨Expr.spelled_of_parse hparse, hfault⟩
  case h_2 => cases h

end Reading

end CrateSafety
