import CrateSafety.Text.Basic

/-!
# Markup of log messages

Log messages may hold tags in square brackets. Escaping a text protects what would be read as a tag by a
backslash; the plain text of a message has its tags removed and its escapes undone.
-/

namespace CrateSafety.Markup

/-- Whether a tag can start with this character. -/
def startsTag (c : Char) : Bool :=
  c.isLower || c == '#' || c == '/' || c == '@'

/-- The tag at the start of a text after its opening bracket: its inside, and what follows it. -/
def tag? : List Char → Option (List Char × List Char)
  | [] => none
  | c :: rest =>
    if startsTag c then
      let inside := rest.takeWhile fun d => d != '[' && d != ']'
      match rest.drop inside.length with
      | ']' :: after => some (c :: inside, after)
      | _ => none
    else none

/-- A part of a message. -/
inductive Part where
  /-- A character that stands for itself. -/
  | plain (c : Char)
  /-- A tag with the number of backslashes before it. -/
  | tag (backslashes : Nat) (inside : List Char)
  deriving DecidableEq, Repr

/-- The parts of a message; `backslashes` counts those just read. The first argument bounds the number of
steps. -/
def parts : Nat → Nat → List Char → List Part
  | 0, backslashes, _ => List.replicate backslashes (.plain '\\')
  | _, backslashes, [] => List.replicate backslashes (.plain '\\')
  | n + 1, backslashes, c :: rest =>
    if c == '\\' then parts n (backslashes + 1) rest
    else
      match if c == '[' then tag? rest else none with
      | some (inside, after) => .tag backslashes inside :: parts n 0 after
      | none => List.replicate backslashes (.plain '\\') ++ .plain c :: parts n 0 rest

/-- The parts of a message. -/
def read (cs : List Char) : List Part :=
  parts cs.length 0 cs

/-- A tag as it is written. -/
def tagText (inside : List Char) : List Char :=
  '[' :: inside ++ [']']

/-- A part with its tag protected: its backslashes are doubled and one is added. -/
def protect : Part → List Char
  | .plain c => [c]
  | .tag backslashes inside => List.replicate (2 * backslashes + 1) '\\' ++ tagText inside

/-- Doubles a single backslash at the end. -/
def closeEnd (cs : List Char) : List Char :=
  match cs.reverse with
  | '\\' :: '\\' :: _ => cs
  | '\\' :: _ => cs ++ ['\\']
  | _ => cs

/-- A text in which nothing is read as a tag. -/
def escape (text : String) : String :=
  String.ofList (closeEnd ((read text.toList).flatMap protect))

/-- Drops a backslash before each opening bracket. -/
def unescapeBrackets (cs : List Char) : List Char :=
  Text.replacePair '\\' '[' ['['] cs

/-- The plain text of parts; `pending` holds the plain characters just read, reversed. -/
def plainFrom (pending : List Char) : List Part → List Char
  | [] => unescapeBrackets pending.reverse
  | .plain c :: rest => plainFrom (c :: pending) rest
  | .tag backslashes inside :: rest =>
    unescapeBrackets pending.reverse ++ List.replicate (backslashes / 2) '\\' ++
      (if backslashes % 2 = 0 then [] else tagText inside) ++ plainFrom [] rest

/-- The plain text of a message. -/
def plain (text : String) : String :=
  let cs := text.toList
  if cs.contains '[' then String.ofList (plainFrom [] (read cs)) else text

end CrateSafety.Markup
