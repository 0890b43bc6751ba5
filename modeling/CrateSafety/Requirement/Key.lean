import CrateSafety.Text.Basic

/-!
# Canonical keys

The key of a text is the sequence of its tokens, one space between two of them, so that texts that differ
in spacing only have one key.
-/

namespace CrateSafety

namespace Key

/-- The fraction that follows the digits of a number, if it has a digit. -/
def fraction : List Char → List Char × List Char
  | '.' :: c :: rest =>
    if Text.isDecimalDigit c then
      ('.' :: c :: rest.takeWhile Text.isDecimalDigit, rest.dropWhile Text.isDecimalDigit)
    else ([], '.' :: c :: rest)
  | cs => ([], cs)

/-- The tokens of a text: plain names, numbers with at most one point, and single other characters.
The first argument bounds the number of steps. -/
def lexemes : Nat → List Char → List (List Char)
  | 0, _ => []
  | _ + 1, [] => []
  | n + 1, c :: rest =>
    if Text.isNameStart c then
      (c :: rest.takeWhile Text.isNameRest) :: lexemes n (rest.dropWhile Text.isNameRest)
    else if Text.isDecimalDigit c then
      let (places, after) := fraction (rest.dropWhile Text.isDecimalDigit)
      (c :: rest.takeWhile Text.isDecimalDigit ++ places) :: lexemes n after
    else if Text.isBlank c then lexemes n rest
    else [c] :: lexemes n rest

/-- The tokens of a text. -/
def tokens (cs : List Char) : List (List Char) :=
  lexemes cs.length cs

end Key

/-- The canonical key of a text. -/
def canonicalKey (text : String) : String :=
  String.ofList (Text.join [' '] (Key.tokens text.toList))

end CrateSafety
