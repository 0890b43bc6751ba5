import CrateSafety.Text.Class

/-!
# Cutting and joining of texts

Texts are lists of characters. Trimming, splitting into words, replacing of fixed pairs, and search for a
fixed text.
-/

namespace CrateSafety.Text

/-- Drops the characters of a class from the end. -/
def dropEndWhile (p : Char → Bool) (cs : List Char) : List Char :=
  (cs.reverse.dropWhile p).reverse

/-- Drops blanks from both ends. -/
def trim (cs : List Char) : List Char :=
  dropEndWhile isBlank (cs.dropWhile isBlank)

/-- Drops full stops from the end. -/
def dropFinalStops (cs : List Char) : List Char :=
  dropEndWhile (· == '.') cs

/-- Whether a text has a character other than a blank. -/
def hasInk (cs : List Char) : Bool :=
  cs.any fun c => !isBlank c

/-- Cuts a text at every character of a class; `current` holds the piece being read, reversed. -/
def cutAt (p : Char → Bool) (current : List Char) : List Char → List (List Char)
  | [] => [current.reverse]
  | c :: rest => if p c then current.reverse :: cutAt p [] rest else cutAt p (c :: current) rest

/-- The pieces between the characters of a class, empty pieces included. -/
def splitAt (p : Char → Bool) (cs : List Char) : List (List Char) :=
  cutAt p [] cs

/-- The maximal pieces without blanks. -/
def words (cs : List Char) : List (List Char) :=
  (splitAt isBlank cs).filter fun w => !w.isEmpty

/-- The pieces joined by a separator. -/
def join (separator : List Char) : List (List Char) → List Char
  | [] => []
  | [piece] => piece
  | piece :: rest => piece ++ separator ++ join separator rest

/-- Replaces each pair of neighbours `a`, `b`, found from left to right, by `image`. -/
def replacePair (a b : Char) (image : List Char) : List Char → List Char
  | x :: y :: rest =>
    if x == a && y == b then image ++ replacePair a b image rest
    else x :: replacePair a b image (y :: rest)
  | cs => cs

/-- The rest after a fixed beginning. -/
def dropStart? : List Char → List Char → Option (List Char)
  | [], cs => some cs
  | p :: ps, c :: cs => if p == c then dropStart? ps cs else none
  | _ :: _, [] => none

/-- The position of the first occurrence of `pattern`. -/
def find? (pattern : List Char) : List Char → Option Nat
  | [] => if pattern.isEmpty then some 0 else none
  | c :: rest =>
    if (dropStart? pattern (c :: rest)).isSome then some 0 else (find? pattern rest).map (· + 1)

/-- Removes later repetitions. -/
def distinct (names : List String) : List String :=
  names.foldl (fun seen name => if seen.contains name then seen else seen ++ [name]) []

end CrateSafety.Text
