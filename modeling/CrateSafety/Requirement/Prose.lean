import CrateSafety.Requirement.Key
import CrateSafety.Text.Lower

/-!
# Prose requirements

A requirement that is not an expression is kept as a line of prose. It refers to names in back quotes, to
members of `self`, and to its subject. Renaming in prose replaces whole words.
-/

namespace CrateSafety

namespace Prose

/-- A piece of a line: a character between words, or a word, for `self` perhaps with a member. -/
inductive Segment where
  | between (c : Char)
  | word (root : List Char) (member : Option (List Char))

/-- Whether a word may start after the given character. -/
def startsAfter (previous : Option Char) : Bool :=
  match previous with
  | some c => !(Text.isWordChar c || c == '.')
  | none => true

/-- The member that is taken of `self` at the start of a text, with what follows it. -/
def selfMember? (cs : List Char) : Option (List Char × List Char) :=
  match Text.dropStart? ['s', 'e', 'l', 'f', '.'] cs with
  | some (c :: rest) =>
    if Text.isNameStart c then
      some (c :: rest.takeWhile Text.isWordChar, rest.dropWhile Text.isWordChar)
    else none
  | _ => none

/-- Cuts a line into segments, given the character before it. The first argument bounds the number of
steps. -/
def segmentsAfter : Nat → Option Char → List Char → List Segment
  | 0, _, _ => []
  | _ + 1, _, [] => []
  | n + 1, previous, c :: rest =>
    if startsAfter previous && Text.isNameStart c then
      match selfMember? (c :: rest) with
      | some (member, after) =>
        .word ['s', 'e', 'l', 'f'] (some member) :: segmentsAfter n member.getLast? after
      | none =>
        let word := c :: rest.takeWhile Text.isWordChar
        .word word none :: segmentsAfter n word.getLast? (rest.dropWhile Text.isWordChar)
    else .between c :: segmentsAfter n (some c) rest

/-- The segments of a line. -/
def segments (cs : List Char) : List Segment :=
  segmentsAfter cs.length none cs

/-- The texts between back quotes; `open?` holds the text read since the last opening quote, reversed. -/
def quotedAfter (open? : Option (List Char)) : List Char → List (List Char)
  | [] => []
  | c :: rest =>
    match open? with
    | none => quotedAfter (if c.toNat == 96 then some [] else none) rest
    | some [] => quotedAfter (if c.toNat == 96 then some [] else some [c]) rest
    | some inner =>
      if c.toNat == 96 then inner.reverse :: quotedAfter none rest
      else quotedAfter (some (c :: inner)) rest

/-- The name at the start of a quoted text. -/
def leadingName? (cs : List Char) : Option String :=
  match cs.dropWhile Text.isBlank with
  | c :: rest =>
    if Text.isNameStart c then some (String.ofList (c :: rest.takeWhile Text.isNameRest)) else none
  | [] => none

/-- Leading words that open a sentence without naming a variable. -/
def openers : List String :=
  ["a", "an", "the", "this", "that", "these", "those", "it", "its", "each", "every", "all", "any", "no",
    "both", "either", "neither", "there", "caller", "callers", "we", "you", "they", "one", "only"]

/-- Verbs that make the leading word of a line its subject. -/
def verbs : List String :=
  ["must", "is", "are", "has", "have", "should", "shall", "may", "can", "cannot", "remains", "stays",
    "points", "outlives", "lives", "refers", "contains", "holds"]

/-- Whether a word consists of small letters, digits and underscores and does not start with a digit. -/
def isSmallName : List Char → Bool
  | [] => false
  | c :: rest =>
    (c.isLower || c == '_') && rest.all fun d => d.isLower || d.isDigit || d == '_'

/-- The subject of a line: its first word, if one word follows or a verb does. -/
def subject? (words : List (List Char)) : Option String :=
  match words with
  | word :: follower :: more =>
    let name := String.ofList word
    if isSmallName word && !openers.contains name &&
        (more.isEmpty || verbs.contains (String.ofList (Text.lower follower))) then some name
    else none
  | _ => none

/-- The line with its blanks reduced to single spaces. -/
def clean (cs : List Char) : List Char :=
  Text.join [' '] (Text.words cs)

/-- All words of a line. -/
def wordsOf (segments : List Segment) : List String :=
  Text.distinct (segments.filterMap fun
    | .word root _ => some (String.ofList root)
    | .between _ => none)

/-- The members of `self` that a line names. -/
def membersOf (segments : List Segment) : List String :=
  Text.distinct (segments.filterMap fun
    | .word _ (some member) => some (String.ofList member)
    | _ => none)

/-- The names that a line refers to. -/
def namesOf (line : List Char) : List String :=
  let receiver := if (membersOf (segments line)).isEmpty then [] else ["self"]
  Text.distinct
    (receiver ++ (quotedAfter none line).filterMap leadingName? ++ (subject? (Text.words line)).toList)

/-- The key of a line: letter case and a final stop do not count. -/
def key (line : List Char) : String :=
  "prose: " ++ canonicalKey (String.ofList (Text.dropFinalStops (Text.lower line)))

/-- A segment with its words renamed. -/
def Segment.renamed (names selfFields : List (String × String)) : Segment → List Char
  | .between c => [c]
  | .word root none => ((names.lookup (String.ofList root)).map String.toList).getD root
  | .word root (some member) =>
    match selfFields.lookup (String.ofList member), names.lookup (String.ofList root) with
    | some text, _ => text.toList
    | none, some text => text.toList ++ '.' :: member
    | none, none => root ++ '.' :: member

/-- The line with its words renamed. -/
def rename (names selfFields : List (String × String)) (line : List Char) : List Char :=
  (segments line).flatMap (Segment.renamed names selfFields)

end Prose

end CrateSafety
