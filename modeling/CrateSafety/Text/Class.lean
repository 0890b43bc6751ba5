import CrateSafety.Text.WordRanges
import CrateSafety.Text.IdentifierRanges
import CrateSafety.Text.CaseRanges
import CrateSafety.Text.HiddenRanges

/-!
# Classes of characters

Blanks, word characters, digits, identifier characters, capitals and hidden characters. Each class is
decided directly on ASCII and by a table of code point ranges beyond it.
-/

namespace CrateSafety.Text

/-- Whether `n` lies in one of the closed ranges of `table`. -/
def inRanges (table : List (Nat × Nat)) (n : Nat) : Bool :=
  table.any fun range => range.1 ≤ n && n ≤ range.2

/-- Whether `n` lies on one of the runs `(first, last, step)` of `table`. -/
def inRuns (table : List (Nat × Nat × Nat)) (n : Nat) : Bool :=
  table.any fun (first, last, step) => first ≤ n && n ≤ last && (n - first) % step == 0

/-- Blanks beyond ASCII. -/
def blankRanges : List (Nat × Nat) :=
  [(0x85, 0x85), (0xa0, 0xa0), (0x1680, 0x1680), (0x2000, 0x200a), (0x2028, 0x2029),
    (0x202f, 0x202f), (0x205f, 0x205f), (0x3000, 0x3000)]

/-- Blanks separate words: space, the controls from tab to carriage return and from U+001C to U+001F,
and the Unicode spaces. -/
def isBlank (c : Char) : Bool :=
  let n := c.toNat
  if n < 128 then n == 32 || (9 ≤ n && n ≤ 13) || (28 ≤ n && n ≤ 31) else inRanges blankRanges n

/-- ASCII letters and the underscore start a plain name. -/
def isNameStart (c : Char) : Bool :=
  c.isAlpha || c == '_'

/-- ASCII letters, digits and the underscore continue a plain name. -/
def isNameRest (c : Char) : Bool :=
  c.isAlphanum || c == '_'

/-- Letters, digits and numerals of any script, and the underscore. -/
def isWordChar (c : Char) : Bool :=
  if c.toNat < 128 then isNameRest c else inRanges wordRanges c.toNat

/-- Decimal digits of any script. -/
def isDecimalDigit (c : Char) : Bool :=
  if c.toNat < 128 then c.isDigit else inRanges digitRanges c.toNat

/-- Characters that may start an identifier. -/
def isIdentifierStart (c : Char) : Bool :=
  if c.toNat < 128 then isNameStart c else inRanges identifierStartRanges c.toNat

/-- Characters that may continue an identifier. -/
def isIdentifierRest (c : Char) : Bool :=
  if c.toNat < 128 then isNameRest c else inRanges identifierContinueRanges c.toNat

/-- Whether a text is an identifier. -/
def isIdentifier : List Char → Bool
  | [] => false
  | c :: rest => isIdentifierStart c && rest.all isIdentifierRest

/-- Characters that may start a word of an expression. Words admit more characters than identifiers do. -/
def isWordStart (c : Char) : Bool :=
  isIdentifierStart c || inRanges laterStartRanges c.toNat

/-- Characters that may continue a word of an expression. -/
def isWordRest (c : Char) : Bool :=
  isIdentifierRest c || inRanges laterContinueRanges c.toNat

/-- Capital letters of any script. -/
def isCapital (c : Char) : Bool :=
  if c.toNat < 128 then c.isUpper else inRuns capitalRuns c.toNat

/-- Letters that have case and are not passed over in the search for a neighbouring cased letter. -/
def isCased (c : Char) : Bool :=
  if c.toNat < 128 then c.isAlpha else inRanges casedRanges c.toNat

/-- Characters that are passed over in the search for a neighbouring cased letter. -/
def isCaseIgnorable (c : Char) : Bool :=
  if c.toNat < 128 then [39, 46, 58, 94, 96].contains c.toNat
  else inRanges caseIgnorableRanges c.toNat

/-- Characters without a printed form. -/
def isHidden (c : Char) : Bool :=
  if c.toNat < 128 then c.toNat < 32 || c.toNat == 127 else inRanges hiddenRanges c.toNat

end CrateSafety.Text
