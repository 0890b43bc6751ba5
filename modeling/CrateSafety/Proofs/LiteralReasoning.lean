import CrateSafety.Proofs.EntailmentOrder
import CrateSafety.Proofs.LiteralRounding
import Mathlib.Order.CountableDenseLinearOrder

/-!
# Reasoning about whole numbers

Lines that compare one expression with whole literals, taken as statements about the whole numbers that the
expression may have. The logic sees the rounded literals only. Where no two of the literals fall together in
rounding, every whole number has a rational that compares with the rounded literals as the number does with the
literals as written, so entailment and contradiction are those of the written literals. Literals that do fall
together are one to the logic.
-/

namespace CrateSafety

namespace Text

/-- Two parts of a text without a common character can be told apart, whichever comes first. -/
theorem eq_of_append {p : Char → Bool} {s s' n n' : List Char} (hs : ∀ c ∈ s, p c = true)
    (hs' : ∀ c ∈ s', p c = true) (hn : ∀ c ∈ n, p c = false) (hn' : ∀ c ∈ n', p c = false)
    (h : s ++ n = s' ++ n' ∨ n ++ s = n' ++ s') : s = s' ∧ n = n' := by
  have hkept {cs : List Char} (hcs : ∀ c ∈ cs, p c = true) :
      cs.filter p = cs ∧ cs.filter (fun c => !p c) = [] :=
    ⟨List.filter_eq_self.mpr hcs, List.filter_eq_nil_iff.mpr fun c hc => by simp [hcs c hc]⟩
  have hleft {cs : List Char} (hcs : ∀ c ∈ cs, p c = false) :
      cs.filter p = [] ∧ cs.filter (fun c => !p c) = cs :=
    ⟨List.filter_eq_nil_iff.mpr fun c hc => by simp [hcs c hc],
      List.filter_eq_self.mpr fun c hc => by simp [hcs c hc]⟩
  rcases h with h | h
  all_goals
    have hp := congrArg (List.filter p) h
    have hq := congrArg (List.filter fun c => !p c) h
    simp only [List.filter_append, hkept hs, hkept hs', hleft hn, hleft hn', List.append_nil,
      List.nil_append] at hp hq
    exact ⟨hp, hq⟩

/-- Whether a character stands in a comparison sign. -/
def isSign (c : Char) : Bool := ['<', '>', '=', '!'].contains c

end Text

/-- Whether an expression starts like a literal: with a minus sign or a digit. -/
def Expr.startsFigure (e : Expr) : Bool :=
  (Text.ink e.render.toList).head?.any fun c => c == '-' || c.isDigit

/-- Expressions with one key are written alike up to blanks. -/
theorem Expr.ink_of_key {e e' : Expr} (h : e.key = e'.key) :
    Text.ink e.render.toList = Text.ink e'.render.toList := by
  have hink (e : Expr) : Text.ink e.key.toList = Text.ink e.render.toList := ink_canonicalKey e.render
  rw [← hink, h, hink]

namespace Comparison

/-- A comparison of two points depends on their order only. -/
theorem relates_congr {op : Comparison} {a b a' b' : Line} (hlt : a < b ↔ a' < b') (hgt : b < a ↔ b' < a') :
    op.Relates a b ↔ op.Relates a' b' := by
  have heq : a = b ↔ a' = b' := by
    rw [eq_iff_le_not_lt, eq_iff_le_not_lt, ← not_lt, ← not_lt, hlt, hgt]
  cases op with
  | lt => exact hlt
  | le => simpa only [Relates, ← not_lt] using not_congr hgt
  | gt => exact hgt
  | ge => simpa only [Relates, ← not_lt] using not_congr hlt
  | eq => exact heq
  | ne => exact not_congr heq

theorem swapped_swapped (op : Comparison) : op.swapped.swapped = op := by cases op <;> rfl

theorem symbol_injective {op op' : Comparison} (h : op.symbol.toList = op'.symbol.toList) : op = op' := by
  revert h
  cases op <;> cases op' <;> decide

theorem isSign_of_mem_symbol (op : Comparison) :
    ∀ c ∈ op.symbol.toList, Text.isSign c = true ∧ Text.isBlank c = false := by
  have hall : (op.symbol.toList.all fun c => Text.isSign c && !Text.isBlank c) = true := by
    cases op <;> decide
  intro c hc
  simpa using List.all_eq_true.mp hall c hc

end Comparison

/-- A line that compares an expression with a whole literal on either side of the operator. -/
structure LiteralLine where
  /-- The line. -/
  text : String
  /-- Whether the literal is on the left. -/
  mirrored : Bool
  /-- How the expression compares with the literal. -/
  op : Comparison
  /-- What stands before the operator. -/
  before : String
  /-- What stands after the operator. -/
  after : String
  /-- Whether the literal has a minus sign. -/
  negative : Bool
  /-- The literal without its sign: digits of any base, the mark of the base, underscores. -/
  digits : String

namespace LiteralLine

/-- The operator as it is written. -/
def written (l : LiteralLine) : Comparison := if l.mirrored then l.op.swapped else l.op

/-- The operator with what surrounds it. -/
def spelling (l : LiteralLine) : String := l.before ++ l.written.symbol ++ l.after

/-- The literal with its sign. -/
def literal (l : LiteralLine) : Expr :=
  if l.negative then .minus "" (.number .integer l.digits) else .number .integer l.digits

/-- The number that the literal writes. -/
def value (l : LiteralLine) : ℤ :=
  if l.negative then -Literal.whole (Literal.plain l.digits) else Literal.whole (Literal.plain l.digits)

/-- The comparison of an expression with the literal. -/
def node (l : LiteralLine) (e : Expr) : Expr :=
  if l.mirrored then .compare l.literal (.order l.written) l.spelling e
  else .compare e (.order l.written) l.spelling l.literal

/-- A whole number compares with the literal, as it is written, in the way that the line states. -/
def Holds (l : LiteralLine) (x : ℤ) : Prop := l.op.Relates (Line.ofRat x) (Line.ofRat l.value)

instance (l : LiteralLine) (x : ℤ) : Decidable (l.Holds x) := inferInstanceAs (Decidable (l.op.Relates _ _))

/-- The line is read as the comparison of an expression with the literal, and the literal is in range. -/
structure Reads (l : LiteralLine) (e : Expr) : Prop where
  /-- The line is that comparison. -/
  read : Reading.read? l.text = some (l.node e)
  /-- Nothing but blanks stands around the operator. -/
  blank : (l.before.toList ++ l.after.toList).all Text.isBlank = true
  /-- The literal is one word. -/
  word : l.digits.toList.all Text.isNameRest = true
  /-- The word starts with a digit. -/
  first : l.digits.toList.head?.any Char.isDigit = true
  /-- The literal is not too large. -/
  inRange : (Double.ofNat? l.value.natAbs).isSome = true

instance (l : LiteralLine) (e : Expr) : Decidable (l.Reads e) :=
  decidable_of_iff (Reading.read? l.text = some (l.node e) ∧
      (l.before.toList ++ l.after.toList).all Text.isBlank = true ∧
      l.digits.toList.all Text.isNameRest = true ∧ l.digits.toList.head?.any Char.isDigit = true ∧
      (Double.ofNat? l.value.natAbs).isSome = true)
    ⟨fun ⟨hread, hblank, hword, hfirst, hrange⟩ => ⟨hread, hblank, hword, hfirst, hrange⟩,
      fun h => ⟨h.read, h.blank, h.word, h.first, h.inRange⟩⟩

/-- No two of the literals fall together in rounding. -/
def Apart (lines : List LiteralLine) : Prop :=
  ∀ l ∈ lines, ∀ l' ∈ lines, Double.nearest l.value = Double.nearest l'.value → l.value = l'.value

instance (lines : List LiteralLine) : Decidable (Apart lines) :=
  inferInstanceAs (Decidable (∀ l ∈ lines, ∀ l' ∈ lines,
    Double.nearest l.value = Double.nearest l'.value → l.value = l'.value))

/-- Literals of at most 53 bits do not fall together. -/
theorem apart_of_natAbs_le {lines : List LiteralLine} (h : ∀ l ∈ lines, l.value.natAbs ≤ 2 ^ 53) :
    Apart lines := by
  intro l hl l' hl' heq
  rwa [Double.nearest_of_natAbs_le (h l hl), Double.nearest_of_natAbs_le (h l' hl')] at heq

section Keys

variable {e : Expr} {l l' : LiteralLine}

/-- The characters of the literal. -/
def figure (l : LiteralLine) : List Char := (if l.negative then ['-'] else []) ++ l.digits.toList

theorem render_literal (l : LiteralLine) : l.literal.render.toList = l.figure := by
  unfold literal figure
  cases l.negative <;> simp [Expr.render]

/-- The characters of a literal are neither blank nor part of a comparison sign. -/
theorem Reads.mem_figure (h : l.Reads e) :
    ∀ c ∈ l.figure, Text.isBlank c = false ∧ Text.isSign c = false := by
  have hminus : Text.isBlank '-' = false ∧ Text.isSign '-' = false := by decide
  intro c hc
  rcases List.mem_append.mp hc with hc | hc
  · cases hneg : l.negative with
    | false => simp [hneg] at hc
    | true =>
      rw [hneg, if_pos rfl, List.mem_singleton] at hc
      exact hc ▸ hminus
  · have hname := List.all_eq_true.mp h.word c hc
    refine ⟨Text.isBlank_of_isNameRest hname, ?_⟩
    by_contra hsign
    simp only [Text.isSign, Bool.not_eq_false, List.contains_iff_mem, List.mem_cons, List.not_mem_nil,
      or_false] at hsign
    rcases hsign with rfl | rfl | rfl | rfl <;> exact absurd hname (by decide)

theorem Reads.ink_figure (h : l.Reads e) : Text.ink l.figure = l.figure :=
  Text.ink_of_inked fun c hc => (h.mem_figure c hc).1

theorem Reads.ink_spelling (h : l.Reads e) : Text.ink l.spelling.toList = l.written.symbol.toList := by
  have hsymbol := Text.ink_of_inked fun c hc => (l.written.isSign_of_mem_symbol c hc).2
  have hblank := List.all_eq_true.mp h.blank
  have hbefore := Text.ink_of_blank fun c hc => hblank c (List.mem_append_left _ hc)
  have hafter := Text.ink_of_blank fun c hc => hblank c (List.mem_append_right _ hc)
  rw [spelling, String.toList_append, String.toList_append, Text.ink_append, Text.ink_append, hbefore, hsymbol,
    hafter, List.nil_append, List.append_nil]

theorem Reads.ink_render (h : l.Reads e) : Text.ink (l.node e).render.toList =
    if l.mirrored then l.figure ++ l.written.symbol.toList ++ Text.ink e.render.toList
    else Text.ink e.render.toList ++ (l.written.symbol.toList ++ l.figure) := by
  unfold node
  cases l.mirrored with
  | true =>
    rw [if_pos rfl, if_pos rfl, Expr.render, String.toList_append, String.toList_append, Text.ink_append,
      Text.ink_append, h.ink_spelling, render_literal, h.ink_figure]
  | false =>
    rw [if_neg Bool.false_ne_true, if_neg Bool.false_ne_true, Expr.render, String.toList_append,
      String.toList_append, Text.ink_append, Text.ink_append, h.ink_spelling, render_literal, h.ink_figure,
      List.append_assoc]

theorem Reads.value_of_figure (h : l.Reads e) (h' : l'.Reads e) (heq : l.figure = l'.figure) :
    l.value = l'.value := by
  have hminus : ∀ l : LiteralLine, ∀ c ∈ (if l.negative then ['-'] else []), (c == '-') = true := by
    intro l c hc
    cases hneg : l.negative <;> simp_all
  have hdigits {l : LiteralLine} (h : l.Reads e) : ∀ c ∈ l.digits.toList, (c == '-') = false := by
    intro c hc
    by_contra hdash
    have heq : c = '-' := by simpa using hdash
    have hname := List.all_eq_true.mp h.word c hc
    rw [heq] at hname
    exact absurd hname (by decide)
  obtain ⟨hsign, hword⟩ := Text.eq_of_append (hminus l) (hminus l') (hdigits h) (hdigits h') (.inl heq)
  have hnegative : l.negative = l'.negative := by
    cases hl : l.negative <;> cases hl' : l'.negative <;> simp_all
  unfold value
  rw [hnegative, String.toList_injective hword]

theorem Reads.exists_figure (h : l.Reads e) :
    ∃ c cs, l.figure = c :: cs ∧ (c == '-' || c.isDigit) = true := by
  obtain ⟨c, hc, hdigit⟩ := (Option.any_eq_true _ _).mp h.first
  obtain ⟨cs, hdigits⟩ := List.head?_eq_some_iff.mp hc
  unfold figure
  cases l.negative with
  | true => exact ⟨'-', l.digits.toList, rfl, rfl⟩
  | false => exact ⟨c, cs, hdigits, by rw [hdigit, Bool.or_true]⟩

/-- Lines with the literal on different sides have different keys if the expression starts like no literal. -/
theorem Reads.key_ne (h : l.Reads e) (h' : l'.Reads e) (hright : l.mirrored = false)
    (hleft : l'.mirrored = true) (hstart : e.startsFigure = false) :
    (l.node e).key ≠ (l'.node e).key := by
  intro hkey
  have hink := Expr.ink_of_key hkey
  rw [h.ink_render, h'.ink_render, hright, hleft, if_neg Bool.false_ne_true, if_pos rfl] at hink
  obtain ⟨c, cs, hfigure, hc⟩ := h'.exists_figure
  rw [hfigure] at hink
  cases hexpr : Text.ink e.render.toList with
  | cons first rest =>
    rw [hexpr] at hink
    rw [Expr.startsFigure, hexpr, List.head?_cons, Option.any_some, (List.cons.inj hink).1, hc] at hstart
    cases hstart
  | nil =>
    -- then the operator comes first, and no literal starts with a sign of it
    rw [hexpr] at hink
    have hplain := (h'.mem_figure c (hfigure ▸ List.mem_cons_self)).2
    cases hsymbol : l.written.symbol.toList with
    | nil => exact absurd hsymbol (by cases l.written <;> decide)
    | cons first rest =>
      have hsign := (l.written.isSign_of_mem_symbol first (hsymbol ▸ List.mem_cons_self)).1
      rw [hsymbol] at hink
      rw [(List.cons.inj hink).1, hplain] at hsign
      cases hsign

/-- Lines of one key with the literal on the same side state the same. -/
theorem Reads.eq_of_key (h : l.Reads e) (h' : l'.Reads e) (hside : l.mirrored = l'.mirrored)
    (hkey : (l.node e).key = (l'.node e).key) : l.op = l'.op ∧ l.value = l'.value := by
  have hink := Expr.ink_of_key hkey
  rw [h.ink_render, h'.ink_render, ← hside] at hink
  have hsides : l.written.symbol.toList ++ l.figure = l'.written.symbol.toList ++ l'.figure ∨
      l.figure ++ l.written.symbol.toList = l'.figure ++ l'.written.symbol.toList := by
    cases hmirrored : l.mirrored with
    | true =>
      rw [hmirrored, if_pos rfl, if_pos rfl] at hink
      exact .inr (List.append_cancel_right hink)
    | false =>
      rw [hmirrored, if_neg Bool.false_ne_true, if_neg Bool.false_ne_true] at hink
      exact .inl (List.append_cancel_left hink)
  obtain ⟨hsymbol, hfigure⟩ := Text.eq_of_append (fun c hc => (l.written.isSign_of_mem_symbol c hc).1)
    (fun c hc => (l'.written.isSign_of_mem_symbol c hc).1) (fun c hc => (h.mem_figure c hc).2)
    (fun c hc => (h'.mem_figure c hc).2) hsides
  have hwritten := Comparison.symbol_injective hsymbol
  refine ⟨?_, h.value_of_figure h' hfigure⟩
  unfold written at hwritten
  rw [← hside] at hwritten
  cases hmirrored : l.mirrored with
  | true =>
    rw [hmirrored, if_pos rfl, if_pos rfl] at hwritten
    rw [← l.op.swapped_swapped, hwritten, l'.op.swapped_swapped]
  | false => rwa [hmirrored, if_neg Bool.false_ne_true, if_neg Bool.false_ne_true] at hwritten

end Keys

section Atoms

variable {e : Expr} {l : LiteralLine}

theorem natAbs_value (l : LiteralLine) : l.value.natAbs = Literal.whole (Literal.plain l.digits) := by
  unfold value
  cases l.negative <;> simp

/-- The literal is seen as the rounded value of the number that it writes. -/
theorem numeric_literal (h : (Double.ofNat? l.value.natAbs).isSome = true) :
    ∃ d, l.literal.numeric? = .ok (some d) ∧ d.point = Line.ofRat (Double.nearest l.value) := by
  have hread := Literal.integer?_of_isSome (l.natAbs_value ▸ h)
  have hdigits : (Expr.number .integer l.digits).literal? =
      .ok (some (.finite (Double.rounded (Literal.whole (Literal.plain l.digits))))) := by
    rw [Expr.literal?, hread]
  unfold literal value
  cases l.negative with
  | false =>
    refine ⟨_, hdigits, ?_⟩
    rw [if_neg Bool.false_ne_true, Double.nearest_natCast, Int.cast_natCast]
    rfl
  | true =>
    refine ⟨Double.neg (.finite (Double.rounded (Literal.whole (Literal.plain l.digits)))), ?_, ?_⟩
    · rw [if_pos rfl, Expr.numeric?]
      simp only [Expr.strip, Expr.core, hdigits, bind, Except.bind, pure, Except.pure, Option.map_some]
    · rw [if_pos rfl, Double.nearest_neg, Double.point_neg_finite, Int.cast_neg, Int.cast_natCast]

/-- The line bounds the expression by the rounded literal. -/
theorem boundOf_node (he : e.numeric? = .ok none) (h : (Double.ofNat? l.value.natAbs).isSome = true) :
    ∃ d, Atom.boundOf (l.node e) = .ok (some ⟨e.core.key, l.op, d⟩) ∧
      d.point = Line.ofRat (Double.nearest l.value) := by
  obtain ⟨d, hliteral, hpoint⟩ := numeric_literal h
  obtain ⟨inner, hstrip⟩ := Expr.strip_isOk_of_numeric he
  have hkey : Atom.strippedKey e = .ok e.core.key := by
    rw [Atom.strippedKey, hstrip, (Expr.strip_eq_ok_iff.mp hstrip).1]
    rfl
  refine ⟨d, ?_, hpoint⟩
  unfold node written
  cases l.mirrored with
  | true =>
    simp only [if_true, Atom.boundOf, he, hliteral, bind, Except.bind, hkey, pure, Except.pure,
      Comparison.swapped_swapped]
  | false =>
    simp only [Bool.false_eq_true, if_false, Atom.boundOf, he, hliteral, bind, Except.bind, hkey, pure,
      Except.pure]

/-- The atom of a line, as the logic sees it. -/
structure States (l : LiteralLine) (e : Expr) (a : Atom) : Prop where
  /-- It is the only atom of the line. -/
  parsed : Reading.parseDnf l.text = .ok [[a]]
  /-- Its key is that of the comparison. -/
  key : a.key = (l.node e).key
  /-- It bounds the expression by the rounded literal. -/
  bound : ∃ d, a.bound = some ⟨e.core.key, l.op, d⟩ ∧ d.point = Line.ofRat (Double.nearest l.value)

theorem Reads.exists_atom (he : e.numeric? = .ok none) (h : l.Reads e) : ∃ a, l.States e a := by
  have hleaf : (l.node e).isLeaf = true := by
    unfold node
    cases l.mirrored <;> rfl
  have hunit : ∀ inner, l.node e ≠ .unit inner := by
    unfold node
    cases l.mirrored <;> simp
  have hcore := Expr.core_of_isLeaf hleaf
  obtain ⟨d, hbound, hpoint⟩ := boundOf_node he h.inRange
  obtain ⟨a, ha⟩ := (Atom.ofExpr_isOk_iff hcore hunit).mpr
    ⟨⟨_, hbound⟩, ⟨_, Atom.negatedKey_of_isLeaf hleaf⟩⟩
  refine ⟨a, ?_, ?_, d, ?_, hpoint⟩
  · rw [Reading.parseDnf_of_expression (Reading.expression_of_read h.read), Reading.dnf_of_isLeaf hleaf]
    exact Outcome.bind_eq_ok_iff.mpr ⟨a, ha, rfl⟩
  · rw [Atom.key_of_ofExpr ha, hcore]
  · have hstated := (Atom.stated_of_ofExpr ha).2.1
    rw [hcore, hbound] at hstated
    exact (Except.ok.inj hstated).symm

/-- The atom of a comparison is no constant and negates nothing. -/
theorem States.plain {a : Atom} (h : l.States e a) :
    a.key ≠ "True" ∧ a.key ≠ "False" ∧ a.negates = none := by
  have hcoherent : a.Coherent := Reading.coherent_parseDnf h.parsed [a] (by simp) a (by simp)
  obtain ⟨d, hbound, -⟩ := h.bound
  have hconstant : ¬ (a.key = "True" ∨ a.key = "False") := by
    intro hkey
    rw [(hcoherent.constant hkey).1] at hbound
    cases hbound
  refine ⟨fun hkey => hconstant (.inl hkey), fun hkey => hconstant (.inr hkey), ?_⟩
  cases hnegates : a.negates with
  | none => rfl
  | some key =>
    rw [(hcoherent.negation key hnegates).1] at hbound
    cases hbound

end Atoms

section Placement

variable {lines : List LiteralLine} {x : ℤ} {y : ℚ}

/-- A rational lies among the rounded literals as a whole number does among the literals. -/
def Placed (lines : List LiteralLine) (x : ℤ) (y : ℚ) : Prop :=
  ∀ l ∈ lines, (y < Double.nearest l.value ↔ x < l.value) ∧ (Double.nearest l.value < y ↔ l.value < x)

/-- Literals that do not fall together keep their order. -/
theorem Apart.nearest_lt_iff (h : Apart lines) {l l' : LiteralLine} (hl : l ∈ lines) (hl' : l' ∈ lines) :
    Double.nearest l.value < Double.nearest l'.value ↔ l.value < l'.value := by
  constructor
  · intro hlt
    by_contra hge
    exact absurd (Double.nearest_mono (not_lt.mp hge)) hlt.not_ge
  · exact fun hlt => Double.nearest_lt (fun heq => hlt.ne (h l hl l' hl' heq)) hlt

/-- The rounded values of the literals that pass a test. -/
def roundedWhere (lines : List LiteralLine) (test : ℤ → Bool) : Finset ℚ :=
  ((lines.filter fun l => test l.value).map fun l => (Double.nearest l.value : ℚ)).toFinset

theorem mem_roundedWhere {test : ℤ → Bool} {q : ℚ} : q ∈ roundedWhere lines test ↔
    ∃ l ∈ lines, test l.value = true ∧ (Double.nearest l.value : ℚ) = q := by
  simp [roundedWhere, and_assoc]

/-- Where no literals fall together there is room for every whole number. -/
theorem Apart.exists_placed (h : Apart lines) (x : ℤ) : ∃ y, Placed lines x y := by
  by_cases hx : ∃ l ∈ lines, l.value = x
  · obtain ⟨same, hsame, rfl⟩ := hx
    refine ⟨Double.nearest same.value, fun l hl => ⟨?_, ?_⟩⟩
    · rw [Int.cast_lt, h.nearest_lt_iff hsame hl]
    · rw [Int.cast_lt, h.nearest_lt_iff hl hsame]
  · have hroom : ∀ p ∈ roundedWhere lines (· < x), ∀ q ∈ roundedWhere lines (x < ·), p < q := by
      intro p hp q hq
      obtain ⟨l, hl, hbelow, rfl⟩ := mem_roundedWhere.mp hp
      obtain ⟨l', hl', habove, rfl⟩ := mem_roundedWhere.mp hq
      have hlt : l.value < l'.value := (of_decide_eq_true hbelow).trans (of_decide_eq_true habove)
      exact Int.cast_lt.mpr ((h.nearest_lt_iff hl hl').mpr hlt)
    obtain ⟨y, hbelow, habove⟩ := Order.exists_between_finsets _ _ hroom
    refine ⟨y, fun l hl => ?_⟩
    rcases lt_trichotomy l.value x with hlt | heq | hgt
    · have hy := hbelow _ (mem_roundedWhere.mpr ⟨l, hl, decide_eq_true hlt, rfl⟩)
      exact ⟨iff_of_false hy.not_gt hlt.not_gt, iff_of_true hy hlt⟩
    · exact absurd ⟨l, hl, heq⟩ hx
    · have hy := habove _ (mem_roundedWhere.mpr ⟨l, hl, decide_eq_true hgt, rfl⟩)
      exact ⟨iff_of_true hy hgt, iff_of_false hy.not_gt hgt.not_gt⟩

/-- A line holds of a whole number exactly if its bound holds of the rational in its place. -/
theorem Placed.holds_iff (h : Placed lines x y) {l : LiteralLine} (hl : l ∈ lines) {d : Double}
    (hd : d.point = Line.ofRat (Double.nearest l.value)) : l.op.Holds y d ↔ l.Holds x := by
  obtain ⟨hlt, hgt⟩ := h l hl
  rw [Comparison.Holds, hd]
  refine Comparison.relates_congr ?_ ?_
  · rw [Line.ofRat_lt_ofRat, Line.ofRat_lt_ofRat, hlt, Int.cast_lt]
  · rw [Line.ofRat_lt_ofRat, Line.ofRat_lt_ofRat, hgt, Int.cast_lt]

end Placement

section Reasoning

variable {e : Expr} {lines : List LiteralLine} {x : ℤ} {y : ℚ} {atomOf : LiteralLine → Atom}

/-- The lines that hold of a whole number are true, and a rational stands in its place. -/
def valuation (e : Expr) (lines : List LiteralLine) (x : ℤ) (y : ℚ) : Valuation where
  truth key := key == "True" || lines.any fun l => (l.node e).key == key && decide (l.Holds x)
  number _ := y

/-- Lines of one key have the literal on the same side. -/
def OneSided (e : Expr) (lines : List LiteralLine) : Prop :=
  ∀ l ∈ lines, ∀ l' ∈ lines, (l.node e).key = (l'.node e).key → l.mirrored = l'.mirrored

instance (e : Expr) (lines : List LiteralLine) : Decidable (OneSided e lines) :=
  inferInstanceAs (Decidable (∀ l ∈ lines, ∀ l' ∈ lines,
    (l.node e).key = (l'.node e).key → l.mirrored = l'.mirrored))

theorem oneSided_of_start (hreads : ∀ l ∈ lines, l.Reads e)
    (hstart : e.startsFigure = false) : OneSided e lines := by
  intro l hl l' hl' hkey
  cases hside : l.mirrored <;> cases hside' : l'.mirrored
  · rfl
  · exact absurd hkey ((hreads l hl).key_ne (hreads l' hl') hside hside' hstart)
  · exact absurd hkey.symm ((hreads l' hl').key_ne (hreads l hl) hside' hside hstart)
  · rfl

variable (hreads : ∀ l ∈ lines, l.Reads e) (hsides : OneSided e lines)
  (hstates : ∀ l ∈ lines, l.States e (atomOf l))

include hreads hsides hstates

theorem truth_valuation {l : LiteralLine} (hl : l ∈ lines) :
    (valuation e lines x y).truth (atomOf l).key = true ↔ l.Holds x := by
  have hne : (atomOf l).key ≠ "True" := (hstates l hl).plain.1
  simp only [valuation, Bool.or_eq_true, beq_iff_eq, hne, false_or, List.any_eq_true, Bool.and_eq_true,
    decide_eq_true_iff]
  rw [(hstates l hl).key]
  constructor
  · rintro ⟨l', hl', hkey, hholds⟩
    obtain ⟨hop, hvalue⟩ := (hreads l' hl').eq_of_key (hreads l hl) (hsides l' hl' l hl hkey) hkey
    rwa [Holds, hop, hvalue] at hholds
  · exact fun hholds => ⟨l, hl, rfl, hholds⟩

theorem admits_valuation (hplaced : Placed lines x y) :
    (valuation e lines x y).Admits (lines.map atomOf) where
  true_key := rfl
  false_key := by
    have hfalse : ("False" == "True") = false := by decide
    simp only [valuation, hfalse, Bool.false_or, List.any_eq_false, Bool.and_eq_true, beq_iff_eq, not_and]
    intro l hl hkey
    exact absurd ((hstates l hl).key.trans hkey) (hstates l hl).plain.2.1
  bound := by
    intro a ha b hb
    obtain ⟨l, hl, rfl⟩ := List.mem_map.mp ha
    obtain ⟨d, hbound, hpoint⟩ := (hstates l hl).bound
    cases hbound.symm.trans hb
    rw [truth_valuation hreads hsides hstates hl]
    exact (hplaced.holds_iff hl hpoint).symm
  negates := by
    intro a ha key hkey
    obtain ⟨l, hl, rfl⟩ := List.mem_map.mp ha
    rw [(hstates l hl).plain.2.2] at hkey
    cases hkey

end Reasoning

end LiteralLine

namespace Conjunction

/-- A conjunction entails what states one of its bounds, as far as the logic sees. -/
theorem entails_of_bound {atoms : Conjunction} {a target : Atom} {b b' : Bound} (ha : a ∈ atoms)
    (hb : a.bound = some b) (hb' : target.bound = some b') (hsubject : b.subject = b'.subject)
    (hop : b.op = b'.op) (hpoint : b.value.point = b'.value.point) : atoms.entails target = true := by
  cases hs : atoms.satisfiable with
  | false => simp [entails, hs]
  | true =>
    obtain ⟨i, hlookup, hsatisfies⟩ := exists_interval_of_mem hs ha hb
    rw [hsubject] at hlookup
    rw [hop, i.satisfies_eq_of_point b'.op hpoint] at hsatisfies
    refine (entails_iff_of_satisfiable hs).mpr (.inr (.inr ⟨b', hb', ?_⟩))
    rw [impliesBound, hlookup]
    exact hsatisfies

end Conjunction

/-- What the logic concludes from lines that compare an expression with whole literals is so for the whole numbers
that the expression may have and the literals as they are written, where no two of the literals fall together in
rounding; those of at most 53 bits do not. Lines with one operator whose literals fall together entail each other,
whichever literal is the larger one. Lines of one key have the literal on the same side, as they do wherever the
expression starts with neither a digit nor a minus sign. -/
theorem integer_reasoning_exact_while_apart {e : Expr} {assumed : List LiteralLine} {target : LiteralLine}
    (he : e.numeric? = .ok none) (hreads : ∀ l ∈ target :: assumed, l.Reads e)
    (hsides : LiteralLine.OneSided e (target :: assumed)) :
    ∃ atomOf : LiteralLine → Atom,
      (∀ l ∈ target :: assumed, Reading.parseDnf l.text = .ok [[atomOf l]]) ∧
      (LiteralLine.Apart (target :: assumed) →
        (Conjunction.entails (assumed.map atomOf) (atomOf target) = true →
          ∀ x : ℤ, (∀ l ∈ assumed, l.Holds x) → target.Holds x) ∧
        (Conjunction.satisfiable (assumed.map atomOf) = false → ∀ x : ℤ, ¬ ∀ l ∈ assumed, l.Holds x)) ∧
      ((∀ l ∈ target :: assumed, l.value.natAbs ≤ 2 ^ 53) → LiteralLine.Apart (target :: assumed)) ∧
      ∀ l ∈ assumed, l.op = target.op → Double.nearest l.value = Double.nearest target.value →
        Conjunction.entails (assumed.map atomOf) (atomOf target) = true := by
  have hatoms : ∀ l, ∃ a, l ∈ target :: assumed → l.States e a := by
    intro l
    by_cases hl : l ∈ target :: assumed
    · obtain ⟨a, ha⟩ := (hreads l hl).exists_atom he
      exact ⟨a, fun _ => ha⟩
    · exact ⟨Atom.ofProse [], fun hmem => absurd hmem hl⟩
  choose atomOf hstates using hatoms
  have hholds {x : ℤ} {y : ℚ} (hx : ∀ l ∈ assumed, l.Holds x) : Conjunction.Holds
      (LiteralLine.valuation e (target :: assumed) x y) (assumed.map atomOf) := by
    intro a ha
    obtain ⟨l, hl, rfl⟩ := List.mem_map.mp ha
    exact (LiteralLine.truth_valuation hreads hsides hstates (List.mem_cons_of_mem _ hl)).mpr (hx l hl)
  refine ⟨atomOf, fun l hl => (hstates l hl).parsed, fun hapart => ⟨?_, ?_⟩,
    LiteralLine.apart_of_natAbs_le, ?_⟩
  · intro hentails x hx
    obtain ⟨y, hplaced⟩ := hapart.exists_placed x
    have hadmits := LiteralLine.admits_valuation hreads hsides hstates hplaced
    have htruth := Conjunction.truth_of_entails hadmits (hholds hx) hentails
    exact (LiteralLine.truth_valuation hreads hsides hstates List.mem_cons_self).mp htruth
  · intro hunsatisfiable x hx
    obtain ⟨y, hplaced⟩ := hapart.exists_placed x
    have hadmits := LiteralLine.admits_valuation hreads hsides hstates hplaced
    have hassumed := hadmits.mono (List.subset_cons_self (atomOf target) (assumed.map atomOf))
    rw [Conjunction.satisfiable_of_holds hassumed (hholds hx)] at hunsatisfiable
    cases hunsatisfiable
  · intro l hl hop hnearest
    obtain ⟨d, hbound, hpoint⟩ := (hstates l (List.mem_cons_of_mem _ hl)).bound
    obtain ⟨d', hbound', hpoint'⟩ := (hstates target List.mem_cons_self).bound
    refine Conjunction.entails_of_bound (List.mem_map_of_mem hl) hbound hbound' rfl hop ?_
    rw [hpoint, hpoint', hnearest]

/-- Bounds by the largest number of 64 bits, in base sixteen, and by a negative number on the left. -/
def wordBounds : List LiteralLine :=
  [{ text := "len <= 0xFFFF_FFFF_FFFF_FFFF", mirrored := false, op := .le, before := " ", after := " ",
     negative := false, digits := "0xFFFF_FFFF_FFFF_FFFF" },
   { text := "-5 < len", mirrored := true, op := .gt, before := " ", after := " ", negative := true,
     digits := "5" }]

/-- A bound from above by a decimal number. -/
def decimalBound (digits : String) : LiteralLine where
  text := "len <= " ++ digits
  mirrored := false
  op := .le
  before := " "
  after := " "
  negative := false
  digits := digits

/-- A bound of 64 bits entails a wider one, and is right to; beyond 53 bits a bound entails the next smaller one,
which is wrong. -/
theorem wordBounds_entail_wider :
    (∃ a b t, Reading.parseDnf "len <= 0xFFFF_FFFF_FFFF_FFFF" = .ok [[a]] ∧
      Reading.parseDnf "-5 < len" = .ok [[b]] ∧ Reading.parseDnf "len <= 36893488147419103232" = .ok [[t]] ∧
      Conjunction.entails [a, b] t = true ∧
      ∀ x : ℤ, (∀ l ∈ wordBounds, l.Holds x) → (decimalBound "36893488147419103232").Holds x) ∧
    ∃ a t, Reading.parseDnf "len <= 9007199254740993" = .ok [[a]] ∧
      Reading.parseDnf "len <= 9007199254740992" = .ok [[t]] ∧ Conjunction.entails [a] t = true ∧
      (decimalBound "9007199254740993").Holds 9007199254740993 ∧
      ¬ (decimalBound "9007199254740992").Holds 9007199254740993 := by
  have hnumeric : (Expr.name "len").numeric? = .ok none := rfl
  have hstart : (Expr.name "len").startsFigure = false := by decide +kernel
  constructor
  · have hreads : ∀ l ∈ decimalBound "36893488147419103232" :: wordBounds, l.Reads (.name "len") := by
      decide +kernel
    have hcheck : Reading.soleAtom "len <= 0xFFFF_FFFF_FFFF_FFFF" (fun a => Reading.soleAtom "-5 < len" fun b =>
        Reading.soleAtom "len <= 36893488147419103232" (Conjunction.entails [a, b])) = true := by decide +kernel
    obtain ⟨a, ha, hcheck⟩ := Reading.soleAtom_eq_true_iff.mp hcheck
    obtain ⟨b, hb, hcheck⟩ := Reading.soleAtom_eq_true_iff.mp hcheck
    obtain ⟨t, ht, hentails⟩ := Reading.soleAtom_eq_true_iff.mp hcheck
    obtain ⟨atomOf, hparsed, hexact, -, -⟩ :=
      integer_reasoning_exact_while_apart hnumeric hreads (LiteralLine.oneSided_of_start hreads hstart)
    simp only [wordBounds, List.forall_mem_cons] at hparsed
    obtain ⟨hparsedT, hparsedA, hparsedB, -⟩ := hparsed
    cases ht.symm.trans hparsedT
    cases ha.symm.trans hparsedA
    cases hb.symm.trans hparsedB
    exact ⟨_, _, _, ha, hb, ht, hentails, (hexact (by decide +kernel)).1 hentails⟩
  · have hreads : ∀ l ∈ [decimalBound "9007199254740992", decimalBound "9007199254740993"],
        l.Reads (.name "len") := by decide +kernel
    obtain ⟨atomOf, hparsed, -, -, htogether⟩ :=
      integer_reasoning_exact_while_apart hnumeric hreads (LiteralLine.oneSided_of_start hreads hstart)
    simp only [List.forall_mem_cons] at hparsed
    obtain ⟨hparsedT, hparsedA, -⟩ := hparsed
    refine ⟨_, _, hparsedA, hparsedT, ?_, by decide +kernel, by decide +kernel⟩
    exact htogether _ List.mem_cons_self rfl (by decide +kernel)

end CrateSafety
