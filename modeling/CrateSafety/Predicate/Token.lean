import CrateSafety.Predicate.Expr
import CrateSafety.Text.Class

/-!
# Tokens of predicates

A token carries the gap before it, so that gaps and lexemes together give back the text. Newlines and
comments belong to gaps inside brackets and end the text outside of them.
-/

namespace CrateSafety

/-- The kinds of tokens. -/
inductive TokenKind where
  | word
  | number (kind : NumberKind)
  | quoted
  | symbol
  deriving DecidableEq, Repr

/-- A lexeme and the gap before it. -/
structure Token where
  /-- Blanks, continued lines and, inside brackets, newlines and comments before the lexeme. -/
  gap : String
  /-- The kind of the lexeme. -/
  kind : TokenKind
  /-- The lexeme. -/
  lexeme : String
  deriving DecidableEq, Repr

namespace Token

/-- Blanks inside a line. -/
def isLineBlank (c : Char) : Bool :=
  c == ' ' || c == '\t' || c.toNat == 12

/-- Characters that end a line. -/
def isNewline (c : Char) : Bool :=
  c == '\n' || c == '\r'

/-- Splits off the gap at the start of a text; `nested` inside brackets, `comment` inside a comment. -/
def scanGap (nested comment : Bool) : List Char → List Char × List Char
  | [] => ([], [])
  | c :: rest =>
    if comment then
      let (gap, after) := scanGap nested (!isNewline c) rest
      (c :: gap, after)
    else if isLineBlank c || (nested && isNewline c) then
      let (gap, after) := scanGap nested false rest
      (c :: gap, after)
    else if nested && c == '#' then
      let (gap, after) := scanGap nested true rest
      (c :: gap, after)
    else if c == '\\' then
      match rest with
      | '\r' :: '\n' :: more =>
        let (gap, after) := scanGap nested false more
        ('\\' :: '\r' :: '\n' :: gap, after)
      | newline :: more =>
        if isNewline newline then
          let (gap, after) := scanGap nested false more
          ('\\' :: newline :: gap, after)
        else ([], c :: rest)
      | _ => ([], c :: rest)
    else ([], c :: rest)

/-- Whether a text holds nothing but blanks, newlines and comments. -/
def onlyComments (comment : Bool) : List Char → Bool
  | [] => true
  | c :: rest =>
    if isNewline c then onlyComments false rest
    else if comment || isLineBlank c then onlyComments comment rest
    else c == '#' && onlyComments true rest

/-- Characters that may belong to an identifier as far as its extent is concerned. -/
def isIdentifierLike (c : Char) : Bool :=
  Text.isNameRest c || 128 ≤ c.toNat

/-- Reads the body of a string literal up to its closing quote on the same line. -/
def scanQuoted (quote : Char) : List Char → Option (List Char × List Char)
  | [] => none
  | '\\' :: '\r' :: '\n' :: rest => do
    let (body, after) ← scanQuoted quote rest
    some ('\\' :: '\r' :: '\n' :: body, after)
  | '\\' :: c :: rest => do
    let (body, after) ← scanQuoted quote rest
    some ('\\' :: c :: body, after)
  | c :: rest =>
    if c == quote then some ([c], rest)
    else if isNewline c then none
    else do
      let (body, after) ← scanQuoted quote rest
      some (c :: body, after)

/-- Reads the body of a string literal up to its three closing quotes. -/
def scanTripleQuoted (quote : Char) : List Char → Option (List Char × List Char)
  | '\\' :: c :: rest => do
    let (body, after) ← scanTripleQuoted quote rest
    some ('\\' :: c :: body, after)
  | a :: b :: c :: rest =>
    if a == quote && b == quote && c == quote then some ([a, b, c], rest)
    else do
      let (body, after) ← scanTripleQuoted quote (b :: c :: rest)
      some (a :: body, after)
  | _ => none

/-- Reads a string literal that starts with its opening quote. -/
def scanString (quote : Char) : List Char → Option (List Char × List Char)
  | a :: b :: rest =>
    if a == quote && b == quote then do
      let (body, after) ← scanTripleQuoted quote rest
      some (quote :: quote :: quote :: body, after)
    else do
      let (body, after) ← scanQuoted quote (a :: b :: rest)
      some (quote :: body, after)
  | rest => do
    let (body, after) ← scanQuoted quote rest
    some (quote :: body, after)

/-- The quotes of string literals. -/
def isQuote (c : Char) : Bool :=
  c.toNat == 34 || c.toNat == 39

/-- Letters that may mark a string literal. -/
def isMark (c : Char) : Bool :=
  ['r', 'R', 'b', 'B', 'u', 'U'].contains c

/-- Whether two marks may stand together: raw and bytes, in either order. -/
def marksPair (a b : Char) : Bool :=
  (a.toLower == 'r' && b.toLower == 'b') || (a.toLower == 'b' && b.toLower == 'r')

/-- Reads a string literal with its marks; `none` when the text starts with none, `some none` when the
literal is not closed. -/
def scanLiteral : List Char → Option (Option (List Char × List Char))
  | a :: b :: c :: rest =>
    if isQuote a then some (scanString a (b :: c :: rest))
    else if isMark a && isQuote b then
      some ((scanString b (c :: rest)).map fun (body, after) => (a :: body, after))
    else if marksPair a b && isQuote c then
      some ((scanString c rest).map fun (body, after) => (a :: b :: body, after))
    else none
  | a :: b :: rest =>
    if isQuote a then some (scanString a (b :: rest))
    else if isMark a && isQuote b then
      some ((scanString b rest).map fun (body, after) => (a :: body, after))
    else none
  | a :: rest => if isQuote a then some (scanString a rest) else none
  | [] => none

/-- Reads digits of a class with single underscores between them; an underscore that no digit follows is
left in place. -/
def scanDigits (isDigit : Char → Bool) : List Char → List Char × List Char
  | '_' :: c :: rest =>
    if isDigit c then
      let (digits, after) := scanDigits isDigit rest
      ('_' :: c :: digits, after)
    else ([], '_' :: c :: rest)
  | c :: rest =>
    if isDigit c then
      let (digits, after) := scanDigits isDigit rest
      (c :: digits, after)
    else ([], c :: rest)
  | [] => ([], [])

/-- Whether a text starts with a digit. -/
def digitFirst : List Char → Bool
  | c :: _ => c.isDigit
  | [] => false

/-- Whether a text starts with an underscore. -/
def underscoreFirst : List Char → Bool
  | c :: _ => c == '_'
  | [] => false

/-- Reads decimal digits, the first of them not an underscore; a dangling underscore is an error. -/
def scanDecimal (cs : List Char) : Option (List Char × List Char) :=
  let (digits, after) := if digitFirst cs then scanDigits Char.isDigit cs else ([], cs)
  if !digits.isEmpty && underscoreFirst after then none else some (digits, after)

/-- Reads an exponent, if digits follow its mark. -/
def scanExponent : List Char → Option (List Char × List Char)
  | e :: rest =>
    if e == 'e' || e == 'E' then
      match rest with
      | s :: more =>
        if (s == '+' || s == '-') && digitFirst more then
          (scanDecimal more).map fun (digits, after) => (e :: s :: digits, after)
        else if s.isDigit then
          (scanDecimal (s :: more)).map fun (digits, after) => (e :: digits, after)
        else some ([], e :: rest)
      | [] => some ([], [e])
    else some ([], e :: rest)
  | [] => some ([], [])

/-- Digits of a base marked by a letter. -/
def baseDigit (mark : Char) : Option (Char → Bool) :=
  match mark.toLower with
  | 'x' => some fun c => c.isDigit || ('a' ≤ c.toLower && c.toLower ≤ 'f')
  | 'o' => some fun c => '0' ≤ c && c ≤ '7'
  | 'b' => some fun c => c == '0' || c == '1'
  | _ => none

/-- Reads a number with a base mark, its leading zero already seen. -/
def scanBased (mark : Char) (isDigit : Char → Bool) (cs : List Char) :
    Option (NumberKind × List Char × List Char) :=
  let (digits, after) := scanDigits isDigit cs
  if digits.isEmpty || underscoreFirst after || digitFirst after then none
  else some (.integer, '0' :: mark :: digits, after)

/-- A decimal number from its parts: a fraction or an exponent makes it fractional, and whole numbers
other than zero have no leading zero. -/
def decimalNumber (whole point exponent rest : List Char) : Option (NumberKind × List Char × List Char) :=
  let body := whole ++ point ++ exponent
  if !point.isEmpty || !exponent.isEmpty then some (.float, body, rest)
  else if whole.head? == some '0' && whole.any (fun c => c.isDigit && c != '0') then none
  else some (.integer, body, rest)

/-- Reads a decimal number; a letter after it makes it imaginary. -/
def scanPlain (cs : List Char) : Option (NumberKind × List Char × List Char) := do
  let (whole, rest) ← scanDecimal cs
  let (point, rest) ←
    match rest with
    | '.' :: more => do
      let (fraction, after) ← scanDecimal more
      some ('.' :: fraction, after)
    | _ => some ([], rest)
  let (exponent, rest) ← scanExponent rest
  match rest with
  | c :: after =>
    if c == 'j' || c == 'J' then some (.imaginary, whole ++ point ++ exponent ++ [c], after)
    else decimalNumber whole point exponent rest
  | [] => decimalNumber whole point exponent rest

/-- Reads a number. -/
def scanNumber : List Char → Option (NumberKind × List Char × List Char)
  | '0' :: mark :: rest =>
    match baseDigit mark with
    | some isDigit => scanBased mark isDigit rest
    | none => scanPlain ('0' :: mark :: rest)
  | cs => scanPlain cs

/-- The symbols of expressions, longer ones first. -/
def symbols : List String :=
  ["...", "**", "//", "<<", ">>", "<=", ">=", "==", "!=", ":=", "(", ")", "[", "]", "\x7b", "\x7d",
    ",", ":", ".", "=", "+", "-", "*", "/", "%", "@", "&", "|", "^", "~", "<", ">"]

/-- Reads a symbol. -/
def scanSymbol (cs : List Char) : Option (List Char × List Char) :=
  (symbols.find? fun s => s.toList.isPrefixOf cs).map fun s => (s.toList, cs.drop s.length)

/-- Reads an identifier or a keyword. -/
def scanWord (cs : List Char) : Option (List Char × List Char) :=
  let word := cs.takeWhile isIdentifierLike
  match word with
  | c :: rest =>
    if Text.isWordStart c && rest.all Text.isWordRest then
      some (word, cs.dropWhile isIdentifierLike)
    else none
  | [] => none

/-- Whether a number starts here. -/
def numberFirst : List Char → Bool
  | '.' :: c :: _ => c.isDigit
  | c :: _ => c.isDigit
  | [] => false

/-- Reads one lexeme. -/
def scanLexeme (cs : List Char) : Option (TokenKind × List Char × List Char) :=
  match scanLiteral cs with
  | some literal => literal.map fun (body, after) => (.quoted, body, after)
  | none =>
    if numberFirst cs then (scanNumber cs).map fun (kind, body, after) => (.number kind, body, after)
    else
      match cs with
      | c :: _ =>
        if isIdentifierLike c then (scanWord cs).map fun (body, after) => (.word, body, after)
        else (scanSymbol cs).map fun (body, after) => (.symbol, body, after)
      | [] => none

/-- The bracket depth after a lexeme. -/
def depthAfter (depth : Nat) (lexeme : List Char) : Nat :=
  match lexeme with
  | ['('] => depth + 1
  | ['['] => depth + 1
  | ['\x7b'] => depth + 1
  | [')'] => depth - 1
  | [']'] => depth - 1
  | ['\x7d'] => depth - 1
  | _ => depth

/-- Reads the tokens of a text at a bracket depth; `none` if some part is no token. -/
def scan : Nat → Nat → List Char → Option (List Token)
  | 0, _, _ => none
  | n + 1, depth, cs =>
    let (gap, rest) := scanGap (0 < depth) false cs
    if depth = 0 && onlyComments false rest then some []
    else do
      let (kind, lexeme, after) ← scanLexeme rest
      let more ← scan n (depthAfter depth lexeme) after
      some (⟨String.ofList gap, kind, String.ofList lexeme⟩ :: more)

/-- Drops the lines of blanks and comments before the first line with a token. The first argument bounds
their number. -/
def dropEmptyLines : Nat → List Char → List Char
  | 0, cs => cs
  | n + 1, cs =>
    let ink := (cs.takeWhile fun c => !isNewline c).dropWhile isLineBlank
    if ink.isEmpty || ink.head? == some '#' then
      match cs.dropWhile fun c => !isNewline c with
      | _ :: rest => dropEmptyLines n rest
      | [] => []
    else cs

/-- The blanks before the first token of a line that indent it: those after the last form feed. -/
def indentation (cs : List Char) : List Char :=
  ((cs.takeWhile isLineBlank).reverse.takeWhile (· != '\x0c')).reverse

/-- The tokens of a text. Its first line with a token may not be indented. -/
def tokenize (cs : List Char) : Option (List Token) :=
  let body := dropEmptyLines (cs.length + 1) cs
  if body.isEmpty || !(indentation body).isEmpty then none else scan (body.length + 1) 0 body

end Token

end CrateSafety
