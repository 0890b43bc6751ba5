import CrateSafety.Proofs.CastOperands

/-!
# Names that are read

The grammar reads no keyword as a name, the truth values and `None` apart. Conversely a text that is an
identifier and no other keyword is read as the name that it is, also when it is given as an operand.
-/

namespace CrateSafety

namespace Grammar

/-- Whether a text can be read as a name: it is no keyword, or it is a constant. -/
def readsAsName (id : String) : Bool := !keywords.contains id || ["True", "False", "None"].contains id

end Grammar

mutual

/-- Whether all names of an expression can be read as names. -/
def Expr.WellNamed : Expr → Prop
  | .name id => Grammar.readsAsName id = true
  | .number _ _ => True
  | .quoted _ => True
  | .unit _ => True
  | .paren _ body _ => body.WellNamed
  | .member object _ _ => object.WellNamed
  | .call callee args => callee.WellNamed ∧ args.WellNamed
  | .minus _ operand => operand.WellNamed
  | .negation _ operand => operand.WellNamed
  | .junction left _ _ right => left.WellNamed ∧ right.WellNamed
  | .compare left _ _ right => left.WellNamed ∧ right.WellNamed
  | .chain left _ _ rest => left.WellNamed ∧ rest.WellNamed
  | .compound _ parts => parts.WellNamed

/-- Whether all names of a list of parts can be read as names. -/
def Parts.WellNamed : Parts → Prop
  | .nil => True
  | .text _ rest => rest.WellNamed
  | .child operand rest => operand.WellNamed ∧ rest.WellNamed

end

attribute [local simp] Expr.WellNamed Parts.WellNamed

@[local simp]
theorem Parts.wellNamed_append : ∀ parts more : Parts,
    (parts.append more).WellNamed ↔ parts.WellNamed ∧ more.WellNamed
  | .nil, more => by simp [Parts.append]
  | .text _ rest, more => by
    rw [Parts.append, Parts.WellNamed, Parts.WellNamed, Parts.wellNamed_append rest more]
  | .child operand rest, more => by
    rw [Parts.append, Parts.WellNamed, Parts.WellNamed, Parts.wellNamed_append rest more, and_assoc]

namespace Grammar

@[local simp]
theorem wellNamed_spaced (gap : String) (operand : Expr) (rest : Parts) :
    (spaced gap operand rest).WellNamed ↔ operand.WellNamed ∧ rest.WellNamed := by
  unfold spaced
  split <;> simp

@[local grind →]
theorem readsAsName_of_isName {t : Token} (h : isName t = true) : readsAsName t.lexeme = true := by
  obtain ⟨-, hkeyword⟩ := Bool.and_eq_true_iff.mp h
  rw [readsAsName, hkeyword, Bool.true_or]

/-- Joined string literals have no names. -/
@[local simp]
theorem wellNamed_literals (ts : List Token) :
    (ts.foldr (fun u parts => Parts.text u.gap (.text u.lexeme parts)) .nil).WellNamed := by
  induction ts with
  | nil => trivial
  | cons t rest ih => simpa using ih

/-- Whether what is read, if something is, is as asked. -/
def Yields {α : Type} (P : α → Prop) (result : Option (α × List Token)) : Prop :=
  ∀ a rest, result = some (a, rest) → P a

section Yields

variable {α β : Type} {P : α → Prop} {Q : β → Prop}

theorem yields_none : Yields P none := fun _ _ h => by cases h

theorem yields_some {a : α} {rest : List Token} : Yields P (some (a, rest)) ↔ P a :=
  ⟨fun h => h a rest rfl, fun h _ _ heq => by cases heq; exact h⟩

theorem yields_bind {result : Option (α × List Token)}
    {f : α × List Token → Option (β × List Token)} :
    Yields Q (result.bind f) ↔ ∀ a rest, result = some (a, rest) → Yields Q (f (a, rest)) := by
  constructor
  · rintro h a rest rfl
    exact h
  · intro h b rest hb
    obtain ⟨⟨a, after⟩, ha, hb⟩ := Option.bind_eq_some_iff.mp hb
    exact h a after ha b rest hb

theorem yields_ite {c : Prop} [Decidable c] {x y : Option (α × List Token)} :
    Yields P (if c then x else y) ↔ (c → Yields P x) ∧ (¬ c → Yields P y) := by
  split <;> simp [*]

end Yields

attribute [local simp] yields_none yields_some yields_bind yields_ite

/-- Whether what a goal has read already is well named. -/
def ExprGoal.WellNamed : ExprGoal → Prop
  | .junctionRest _ left => left.WellNamed
  | .comparisonRest left => left.WellNamed
  | .binaryRest _ left => left.WellNamed
  | .trailers base => base.WellNamed
  | _ => True

/-- What is read within `n` levels is well named, if what was read before is. -/
structure ReadsNames (n : Nat) : Prop where
  expr : ∀ (goal : ExprGoal) (ts : List Token), goal.WellNamed → Yields Expr.WellNamed (parseExpr n goal ts)
  parts : ∀ (goal : PartsGoal) (ts : List Token), Yields Parts.WellNamed (parseParts n goal ts)

section Step

variable {n : Nat} (ih : ReadsNames n)

include ih

theorem wellNamed_expr {goal : ExprGoal} {ts rest : List Token} {e : Expr}
    (h : parseExpr n goal ts = some (e, rest)) (hgiven : goal.WellNamed) : e.WellNamed :=
  ih.expr goal ts hgiven e rest h

theorem wellNamed_parts {goal : PartsGoal} {ts rest : List Token} {parts : Parts}
    (h : parseParts n goal ts = some (parts, rest)) : parts.WellNamed :=
  ih.parts goal ts parts rest h

attribute [local grind =] Expr.WellNamed Parts.WellNamed wellNamed_spaced Parts.wellNamed_append
attribute [local grind] ExprGoal.WellNamed
attribute [local grind →] wellNamed_expr wellNamed_parts
attribute [local grind ←] ReadsNames.expr ReadsNames.parts

-- One case for each kind of token, and for symbols one for each bracket.
theorem yields_atom (ts : List Token) : Yields Expr.WellNamed (parseExpr (n + 1) .atom ts) := by
  rw [parseExpr_level]
  cases ts with
  | nil => exact yields_none
  | cons t rest =>
    dsimp only
    split
    case h_1 => simp
    case h_2 => split <;> simp
    case h_3 =>
      simp
      grind [readsAsName]
    case h_4 =>
      split
      case h_1 => simp
      case h_2 | h_3 =>
        split
        · simp
        · simp
          grind
      case h_4 =>
        split
        · simp
        · split <;> simp <;> grind
      case h_5 => exact yields_none

theorem yields_trailers {base : Expr} (hbase : base.WellNamed) (ts : List Token) :
    Yields Expr.WellNamed (parseExpr (n + 1) (.trailers base) ts) := by
  rw [parseExpr_level]
  dsimp only
  split
  case h_1 t rest =>
    split
    · -- a member
      split
      · split
        · grind
        · exact yields_none
      · exact yields_none
    · split
      · -- a call
        simp
        grind
      · split <;> simp <;> grind
  case h_2 => exact yields_some.mpr hbase

theorem yields_expression (ts : List Token) : Yields Expr.WellNamed (parseExpr (n + 1) .expression ts) := by
  rw [parseExpr_level]
  cases ts with
  | nil => exact yields_none
  | cons t rest =>
    dsimp only
    split
    · simp
      grind
    · simp only [Option.bind_eq_bind, yields_bind]
      intro body after hbody
      split <;> simp <;> grind

theorem yields_expr (goal : ExprGoal) (ts : List Token) (hgiven : goal.WellNamed) :
    Yields Expr.WellNamed (parseExpr (n + 1) goal ts) := by
  cases goal with
  | atom => exact yields_atom ih ts
  | trailers base => exact yields_trailers ih hgiven ts
  | expression => exact yields_expression ih ts
  | starOrExpr | element | factor | binaryRest | target =>
    rw [parseExpr_level]
    cases ts <;> simp <;> grind
  | inversion | awaited =>
    rw [parseExpr_level]
    dsimp only
    split
    · simp
      grind
    · grind
  | junctionRest | comparisonRest =>
    rw [parseExpr_level]
    dsimp only
    split <;> simp <;> grind
  | power =>
    rw [parseExpr_level]
    simp only [Option.bind_eq_bind, yields_bind]
    intro base after hbase
    split <;> simp <;> grind
  | named =>
    rw [parseExpr_level]
    dsimp only
    split
    · split
      · simp
        grind
      · grind
    · grind
  | yielded =>
    rw [parseExpr_level]
    cases ts with
    | nil => exact yields_none
    | cons t rest =>
      dsimp only
      split
      · simp
        grind
      · split <;> simp
        grind
  | clause =>
    rw [parseExpr_level]
    dsimp only
    split <;> simp <;> grind
  | sequence | disjunction | conjunction | comparison | binary | primary | targets =>
    rw [parseExpr_level]
    simp
    grind

theorem yields_parts (goal : PartsGoal) (ts : List Token) :
    Yields Parts.WellNamed (parseParts (n + 1) goal ts) := by
  rw [parseParts_level]
  cases goal with
  | args phase sole =>
    cases ts with
    | nil => exact yields_none
    | cons t rest =>
      dsimp only
      repeat' split
      all_goals simp <;> grind
  | params state =>
    cases ts with
    | nil => exact yields_none
    | cons t rest =>
      dsimp only
      repeat' split
      all_goals simp <;> grind
  | subscriptsRest =>
    cases ts with
    | nil => exact yields_none
    | cons t rest =>
      dsimp only
      repeat' split
      all_goals simp <;> grind
  | moreSequence =>
    dsimp only
    split
    · split <;> simp
      grind
    · simp
  | argsRest | subscripts | paramsRest =>
    cases ts
    · exact yields_none
    · simp
      grind
  | moreElements | moreTargets | morePairs =>
    dsimp only
    split
    · simp
      grind
    · simp
  | pair | clauseRest =>
    dsimp only
    split <;> simp <;> grind
  | sliceRest =>
    simp
    grind

end Step

theorem readsNames (n : Nat) : ReadsNames n := by
  induction n with
  | zero =>
    constructor
    · intro goal ts _
      rw [parseExpr_level]
      exact yields_none
    · intro goal ts
      rw [parseParts_level]
      exact yields_none
  | succ n ih => exact ⟨yields_expr ih, yields_parts ih⟩

end Grammar

/-- What is read of a text is well named. -/
theorem Expr.wellNamed_of_parse {cs : List Char} {e : Expr} (h : Expr.parse? cs = some e) : e.WellNamed := by
  obtain ⟨ts, -, hparse⟩ := Option.bind_eq_some_iff.mp h
  unfold Grammar.parse? at hparse
  split at hparse
  case h_1 e' hread =>
    cases hparse
    exact (Grammar.readsNames _).expr .sequence ts trivial _ _ hread
  case h_2 => cases hparse

namespace Token

variable {cs : List Char} {c : Char}

/-- The characters of an identifier belong to words. -/
theorem isIdentifierLike_of_mem (h : Text.isIdentifier cs = true) (hc : c ∈ cs) : isIdentifierLike c = true := by
  have hlike : ∀ (table : List (Nat × Nat)) (name : Bool), (name = true → Text.isNameRest c = true) →
      (if c.toNat < 128 then name else Text.inRanges table c.toNat) = true → isIdentifierLike c = true := by
    intro table name hname hin
    unfold isIdentifierLike
    by_cases hascii : c.toNat < 128
    · rw [if_pos hascii] at hin
      rw [hname hin, Bool.true_or]
    · rw [decide_eq_true (by omega : 128 ≤ c.toNat), Bool.or_true]
  cases cs with
  | nil => cases h
  | cons first rest =>
    obtain ⟨hstart, hrest⟩ := Bool.and_eq_true_iff.mp h
    rcases List.mem_cons.mp hc with rfl | hc
    · exact hlike _ _ Text.isNameRest_of_isNameStart hstart
    · exact hlike _ _ id (List.all_eq_true.mp hrest c hc)

/-- No character apart from those of words stands in an identifier. -/
theorem ne_of_mem_identifier (h : Text.isIdentifier cs = true) (hc : c ∈ cs) {d : Char}
    (hd : isIdentifierLike d = false) : c ≠ d := by
  rintro rfl
  rw [isIdentifierLike_of_mem h hc] at hd
  cases hd

theorem isQuote_of_mem_identifier (h : Text.isIdentifier cs = true) (hc : c ∈ cs) : isQuote c = false := by
  refine Bool.eq_false_iff.mpr fun hquote => ?_
  rcases Bool.or_eq_true_iff.mp hquote with hpoint | hpoint
  · exact ne_of_mem_identifier h hc (d := '"') (by decide) (Char.toNat_inj.mp (beq_iff_eq.mp hpoint))
  · exact ne_of_mem_identifier h hc (d := '\'') (by decide) (Char.toNat_inj.mp (beq_iff_eq.mp hpoint))

theorem isLineBlank_of_mem_identifier (h : Text.isIdentifier cs = true) (hc : c ∈ cs) :
    isLineBlank c = false ∧ isNewline c = false := by
  have hblank := Text.isBlank_of_isIdentifier h c hc
  constructor
  · exact Bool.eq_false_iff.mpr fun hline => by rw [isBlank_of_isLineBlank hline] at hblank; cases hblank
  · exact Bool.eq_false_iff.mpr fun hline => by rw [isBlank_of_isNewline hline] at hblank; cases hblank

theorem isDigit_of_isIdentifierStart (h : Text.isIdentifierStart c = true) : c.isDigit = false := by
  refine Bool.eq_false_iff.mpr fun hdigit => ?_
  have hpoint : 48 ≤ c.toNat ∧ c.toNat ≤ 57 := by
    simpa [Char.isDigit, UInt32.le_iff_toNat_le] using hdigit
  have hascii : c.toNat < 128 := by omega
  rw [Text.isIdentifierStart, if_pos hascii] at h
  rcases Bool.or_eq_true_iff.mp h with halpha | hline
  · rcases Bool.or_eq_true_iff.mp halpha with hupper | hlower
    · obtain ⟨hlow, -⟩ : 'A'.val ≤ c.val ∧ c.val ≤ 'Z'.val := of_decide_eq_true hupper
      have hletter : 65 ≤ c.toNat := UInt32.le_iff_toNat_le.mp hlow
      omega
    · obtain ⟨hlow, -⟩ := Bool.and_eq_true_iff.mp hlower
      have hletter : 97 ≤ c.toNat := UInt32.le_iff_toNat_le.mp (of_decide_eq_true hlow)
      omega
  · rw [beq_iff_eq.mp hline] at hpoint
    revert hpoint
    decide

/-- An identifier by itself is one token. -/
theorem scanLexeme_identifier (h : Text.isIdentifier cs = true) : scanLexeme cs = some (.word, cs, []) := by
  have hquote : ∀ d ∈ cs, isQuote d = false := fun d hd => isQuote_of_mem_identifier h hd
  have hliteral : scanLiteral cs = none := by
    unfold scanLiteral
    split
    case h_1 a b c rest => simp [hquote a (by simp), hquote b (by simp), hquote c (by simp)]
    case h_2 a b rest _ => simp [hquote a (by simp), hquote b (by simp)]
    case h_3 a rest _ _ => simp [hquote a (by simp)]
    case h_4 => rfl
  have hword : scanWord cs = some (cs, []) := by
    have hall : ∀ d ∈ cs, isIdentifierLike d = true := fun d hd => isIdentifierLike_of_mem h hd
    refine scanWord_eq_some_iff.mpr ⟨(List.takeWhile_eq_self_iff.mpr hall).symm,
      (List.dropWhile_eq_nil_iff.mpr hall).symm, ?_⟩
    cases cs with
    | nil => cases h
    | cons first rest =>
      obtain ⟨hstart, hrest⟩ := Bool.and_eq_true_iff.mp h
      refine ⟨first, rest, rfl, ?_, fun d hd => ?_⟩
      · rw [Text.isWordStart, hstart, Bool.true_or]
      · rw [Text.isWordRest, List.all_eq_true.mp hrest d hd, Bool.true_or]
  cases cs with
  | nil => cases h
  | cons first rest =>
    have hpoint : first ≠ '.' := ne_of_mem_identifier h List.mem_cons_self (by decide)
    have hlike := isIdentifierLike_of_mem h List.mem_cons_self
    have hnumber : numberFirst (first :: rest) = false := by
      rw [numberFirst_cons hpoint]
      exact isDigit_of_isIdentifierStart (Bool.and_eq_true_iff.mp h).1
    unfold scanLexeme
    rw [hliteral, hnumber]
    simp [hlike, hword]

theorem tokenize_identifier (h : Text.isIdentifier cs = true) :
    tokenize cs = some [⟨"", .word, String.ofList cs⟩] := by
  have hlexeme := scanLexeme_identifier h
  have hbrackets : depthAfter 0 cs = 0 := by
    have hne : ∀ d, isIdentifierLike d = false → cs ≠ [d] := by
      rintro d hd rfl
      exact ne_of_mem_identifier h List.mem_cons_self hd rfl
    unfold depthAfter
    split
    case h_1 => exact absurd rfl (hne '(' (by decide))
    case h_2 => exact absurd rfl (hne '[' (by decide))
    case h_3 => exact absurd rfl (hne _ (by decide))
    all_goals rfl
  cases cs with
  | nil => cases h
  | cons first rest =>
    obtain ⟨hline, hnewline⟩ := isLineBlank_of_mem_identifier h List.mem_cons_self
    have hsharp : first ≠ '#' := ne_of_mem_identifier h List.mem_cons_self (by decide)
    have hescape : first ≠ '\\' := ne_of_mem_identifier h List.mem_cons_self (by decide)
    have hink : emptyFirst (first :: rest) = false := by
      simp [emptyFirst, firstInk, hnewline, hline, hsharp]
    have hindentation : indentation (first :: rest) = [] := by
      simp [indentation, hline]
    have hgap : scanGap false false (first :: rest) = ([], first :: rest) :=
      scanGap_stop (by simp) (by simp [hline]) (by simp) (by simpa using hescape) rest
    have hcomments : onlyComments false (first :: rest) = false := by
      simp [onlyComments, hnewline, hline, hsharp]
    unfold tokenize
    rw [dropEmptyLines_of_ink _ hink]
    simp [hindentation, scan, hgap, hcomments, hlexeme, hbrackets, scanGap, onlyComments]

end Token

namespace Grammar

/-! A name by itself is read as such at every level, from atoms up to sequences. -/

theorem parseExpr_atom_name {id : String} (hname : readsAsName id = true) (n : Nat) :
    parseExpr (n + 1) .atom [⟨"", .word, id⟩] = some (.name id, []) := by
  have hword : (isName ⟨"", .word, id⟩ || ["True", "False", "None"].contains id) = true := by
    simpa [isName, readsAsName] using hname
  rw [parseExpr_level]
  exact if_pos hword

theorem parseExpr_primary_name {id : String} (hname : readsAsName id = true) (n : Nat) :
    parseExpr (n + 2) .primary [⟨"", .word, id⟩] = some (.name id, []) := by
  rw [parseExpr_level]
  simp only [Option.bind_eq_bind, parseExpr_atom_name hname, Option.bind_some]
  rw [parseExpr_level]

section Name

variable {id : String} (hid : Text.isIdentifier id.toList = true) (hname : readsAsName id = true)

include hid hname

/-- A name is none of the lexemes with a rule of their own. -/
theorem ne_of_readsAsName (lexeme : String)
    (h : (Text.isIdentifier lexeme.toList && readsAsName lexeme) = false) : id ≠ lexeme := by
  rintro rfl
  rw [hid, hname] at h
  cases h

theorem parseExpr_power_name (n : Nat) : parseExpr (n + 4) .power [⟨"", .word, id⟩] = some (.name id, []) := by
  have hawait := ne_of_readsAsName hid hname "await" (by decide +kernel)
  have hawaited : parseExpr (n + 3) .awaited [⟨"", .word, id⟩] = some (.name id, []) := by
    rw [parseExpr_level]
    simp [accept, hawait, parseExpr_primary_name hname]
  rw [parseExpr_level]
  simp [hawaited, accept]

theorem parseExpr_factor_name (n : Nat) : parseExpr (n + 5) .factor [⟨"", .word, id⟩] = some (.name id, []) := by
  have hminus := ne_of_readsAsName hid hname "-" (by decide +kernel)
  have hplus := ne_of_readsAsName hid hname "+" (by decide +kernel)
  have htilde := ne_of_readsAsName hid hname "~" (by decide +kernel)
  rw [parseExpr_level]
  simp [hminus, hplus, htilde, parseExpr_power_name hid hname]

-- Binary operators have six levels; the induction goes from the tightest one outwards.
theorem parseExpr_binary_name (n : Nat) {k : Nat} (hk : k ≤ 5) :
    parseExpr (n + 6 + k) (.binary (5 - k)) [⟨"", .word, id⟩] = some (.name id, []) := by
  induction k with
  | zero =>
    rw [parseExpr_level]
    simp only [Nat.sub_zero, Nat.lt_irrefl, if_false, Option.bind_eq_bind, parseExpr_factor_name hid hname,
      Option.bind_some]
    rw [parseExpr_level]
  | succ k ih =>
    have hlevel : 5 - (k + 1) < 5 := by omega
    have hnext : 5 - (k + 1) + 1 = 5 - k := by omega
    rw [show n + 6 + (k + 1) = (n + 6 + k) + 1 by omega, parseExpr_level]
    simp only [hlevel, if_true, hnext, ih (by omega), Option.bind_eq_bind, Option.bind_some]
    rw [show n + 6 + k = (n + 5 + k) + 1 by omega, parseExpr_level]

theorem parseExpr_comparison_name (n : Nat) :
    parseExpr (n + 12) .comparison [⟨"", .word, id⟩] = some (.name id, []) := by
  have hfirst : parseExpr (n + 11) (.binary 0) [⟨"", .word, id⟩] = some (.name id, []) :=
    parseExpr_binary_name hid hname n le_rfl
  rw [parseExpr_level]
  simp only [hfirst, Option.bind_eq_bind, Option.bind_some]
  rw [parseExpr_level]
  rfl

theorem parseExpr_disjunction_name (n : Nat) :
    parseExpr (n + 15) .disjunction [⟨"", .word, id⟩] = some (.name id, []) := by
  have hnot := ne_of_readsAsName hid hname "not" (by decide +kernel)
  have hinversion : parseExpr (n + 13) .inversion [⟨"", .word, id⟩] = some (.name id, []) := by
    rw [parseExpr_level]
    simp [accept, hnot, parseExpr_comparison_name hid hname]
  have hjunction : ∀ op m, parseExpr (m + 1) (.junctionRest op (.name id)) [] = some (.name id, []) := by
    intro op m
    rw [parseExpr_level]
    rfl
  have hconjunction : parseExpr (n + 14) .conjunction [⟨"", .word, id⟩] = some (.name id, []) := by
    rw [parseExpr_level]
    simp only [hinversion, Option.bind_eq_bind, Option.bind_some, hjunction]
  rw [parseExpr_level]
  simp only [hconjunction, Option.bind_eq_bind, Option.bind_some, hjunction]

theorem parseExpr_sequence_name (n : Nat) :
    parseExpr (n + 18) .sequence [⟨"", .word, id⟩] = some (.name id, []) := by
  have hlambda := ne_of_readsAsName hid hname "lambda" (by decide +kernel)
  have hstar := ne_of_readsAsName hid hname "*" (by decide +kernel)
  have hexpression : parseExpr (n + 16) .expression [⟨"", .word, id⟩] = some (.name id, []) := by
    rw [parseExpr_level]
    simp [hlambda, parseExpr_disjunction_name hid hname, accept]
  have hfirst : parseExpr (n + 17) .starOrExpr [⟨"", .word, id⟩] = some (.name id, []) := by
    rw [parseExpr_level]
    simp [hstar, hexpression]
  rw [parseExpr_level]
  simp [hfirst, nextIs]

theorem parse?_name : parse? [⟨"", .word, id⟩] = some (.name id) := by
  unfold parse?
  rw [show 30 * ([(⟨"", .word, id⟩ : Token)].length + 2) = 72 + 18 from rfl,
    parseExpr_sequence_name hid hname]

end Name

end Grammar

namespace Reading

open Text

theorem trim_of_inked {cs : List Char} (h : ∀ c ∈ cs, isBlank c = false) : trim cs = cs := by
  have hdrop : ∀ ds : List Char, (∀ c ∈ ds, isBlank c = false) → ds.dropWhile isBlank = ds := by
    intro ds hds
    cases ds with
    | nil => rfl
    | cons c ds => exact List.dropWhile_cons_of_neg (by simp [hds c List.mem_cons_self])
  unfold trim dropEndWhile
  rw [hdrop _ h, hdrop _ (fun c hc => h c (List.mem_reverse.mp hc)), List.reverse_reverse]

theorem dropMarks_of_isIdentifier {cs : List Char} (h : isIdentifier cs = true) : dropMarks cs.length cs = cs := by
  cases cs with
  | nil => rfl
  | cons c rest =>
    have hmark : dropMark? (c :: rest) = none := dropMark?_eq_none_iff.mpr
      ⟨Token.ne_of_mem_identifier h List.mem_cons_self (by decide),
        Token.ne_of_mem_identifier h List.mem_cons_self (by decide)⟩
    rw [List.length_cons, dropMarks, hmark]

theorem dropCasts_of_inked {cs : List Char} (h : ∀ c ∈ cs, isBlank c = false) : dropCasts cs = cs := by
  induction cs with
  | nil => rfl
  | cons c cs ih =>
    obtain ⟨hc, hrest⟩ := List.forall_mem_cons.mp h
    rw [dropCasts, castFirst_of_ink hc, if_neg Bool.false_ne_true, ih hrest]

/-- An operand that is an identifier and no keyword is the name that it is. -/
theorem operand_of_identifier {id : String} (hid : isIdentifier id.toList = true)
    (hname : Grammar.readsAsName id = true) : operand id = .ok (.name id) := by
  have hink := isBlank_of_isIdentifier hid
  have hcolon : replacePair ':' ':' ['.'] id.toList = id.toList := by
    have hout : ':' ∉ id.toList := fun hc => Token.ne_of_mem_identifier hid hc (by decide) rfl
    have happend := replacePair_append_of_not_mem ['.'] hout hout []
    have hempty : replacePair ':' ':' ['.'] [] = [] := rfl
    rwa [hempty, List.append_nil] at happend
  have hparse : Expr.parse? (bared id.toList) = some (.name id) := by
    unfold bared spelled
    rw [trim_of_inked hink, dropMarks_of_isIdentifier hid, dropCasts_of_inked hink, hcolon, Expr.parse?,
      Token.tokenize_identifier hid, String.ofList_toList]
    exact Grammar.parse?_name hid hname
  rw [operand_of_parse hparse, Expr.checked_eq_ok_iff]
  simp [Expr.fault?, nameFault?, hid]

end Reading

end CrateSafety
