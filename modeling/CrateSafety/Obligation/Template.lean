import CrateSafety.Text.Basic
import CrateSafety.Text.Quoted

/-!
# Requirement templates

A template is a text with fields in braces that the operand of an operation fills. A field names the
operand, may pick a character of it, may ask for it in quotes, and may pad or cut it. Doubled braces stand
for themselves.
-/

namespace CrateSafety

/-- Why a template cannot be filled. -/
inductive TemplateError where
  /-- A field without a name, or a numbered one. -/
  | positional
  /-- A field of another name. -/
  | unknownName (name : String)
  /-- Braces, a conversion or a layout that make no sense. -/
  | malformed
  /-- A member of the operand. -/
  | noMember
  /-- A position beyond the end of the operand. -/
  | beyondEnd
  /-- A position that is no number. -/
  | noPosition
  deriving DecidableEq, Repr

namespace Template

/-- The opening brace. -/
def opening : Char := Char.ofNat 123

/-- The closing brace. -/
def closing : Char := Char.ofNat 125

/-- The name of the operand. -/
def operandName : List Char := "target".toList

/-- A part of a template. -/
inductive Piece where
  /-- A character that stands for itself. -/
  | literal (c : Char)
  /-- A field: its name with positions, the conversion, and the layout. -/
  | field (name : List Char) (conversion : Option Char) (layout : List Char)
  /-- A place from which the template cannot be read. -/
  | unread
  deriving DecidableEq, Repr

/-- A field name up to the mark that ends it, brackets skipped: the name reversed, the mark and the rest.
A name has no opening brace. -/
def nameFrom (inBrackets : Bool) (name : List Char) : List Char → Option (List Char × Char × List Char)
  | [] => none
  | c :: rest =>
    if inBrackets then nameFrom (c != ']') (c :: name) rest
    else if c == opening then none
    else if c == closing || c == ':' || c == '!' then some (name.reverse, c, rest)
    else nameFrom (c == '[') (c :: name) rest

/-- A layout up to the brace that closes its field; `depth` counts the open braces. -/
def layoutFrom (depth : Nat) (layout : List Char) : List Char → Option (List Char × List Char)
  | [] => none
  | c :: rest =>
    if c == opening then layoutFrom (depth + 1) (c :: layout) rest
    else if c == closing then
      match depth with
      | 0 => some (layout.reverse, rest)
      | d + 1 => layoutFrom d (c :: layout) rest
    else layoutFrom depth (c :: layout) rest

/-- A field after its opening brace, and the rest of the template. -/
def fieldFrom (cs : List Char) : Option (Piece × List Char) :=
  match nameFrom false [] cs with
  | none => none
  | some (name, mark, rest) =>
    let withLayout (conversion : Option Char) (after : List Char) : Option (Piece × List Char) :=
      (layoutFrom 0 [] after).map fun (layout, tail) => (.field name conversion layout, tail)
    if mark == closing then some (.field name none [], rest)
    else if mark == ':' then withLayout none rest
    else
      match rest with
      | [] => none
      | conversion :: [] => withLayout (some conversion) []
      | conversion :: c :: tail =>
        if c == closing then some (.field name (some conversion) [], tail)
        else if c == ':' then withLayout (some conversion) tail
        else none

/-- The parts of a template. The first argument bounds the number of parts. -/
def pieces : Nat → List Char → List Piece
  | 0, _ => []
  | _, [] => []
  | n + 1, c :: rest =>
    if c == opening then
      match rest with
      | [] => [.unread]
      | d :: tail =>
        if d == opening then .literal c :: pieces n tail
        else
          match fieldFrom rest with
          | some (piece, after) => piece :: pieces n after
          | none => [.unread]
    else if c == closing then
      match rest with
      | d :: tail => if d == closing then .literal c :: pieces n tail else [.unread]
      | [] => [.unread]
    else .literal c :: pieces n rest

/-- The value of a decimal digit of any script. -/
def digitValue (c : Char) : Nat :=
  if c.toNat < 128 then c.toNat - 48
  else
    match Text.digitRanges.find? fun range => range.1 ≤ c.toNat && c.toNat ≤ range.2 with
    | some range => (c.toNat - range.1) % 10
    | none => 0

/-- The largest number in a template. -/
def maxNumber : Nat := Nat.pow 2 63 - 1

/-- The number written by digits; too large a number makes no sense. -/
def number (digits : List Char) : Except TemplateError Nat :=
  let n := digits.foldl (fun n c => n * 10 + digitValue c) 0
  if n ≤ maxNumber then .ok n else .error .malformed

/-- Whether a text is a number. -/
def isNumber (cs : List Char) : Bool :=
  !cs.isEmpty && cs.all Text.isDecimalDigit

/-- The part of the operand that the steps after the name pick. The first argument bounds the steps. -/
def pick : Nat → List Char → List Char → Except TemplateError (List Char)
  | 0, _, operand => .ok operand
  | _, [], operand => .ok operand
  | n + 1, c :: rest, operand =>
    if c == '.' then
      if (rest.takeWhile fun c => c != '.' && c != '[').isEmpty then .error .malformed else .error .noMember
    else if c == '[' then
      let inside := rest.takeWhile (· != ']')
      match rest.dropWhile (· != ']') with
      | [] => .error .malformed
      | _ :: after =>
        if inside.isEmpty then .error .malformed
        else if isNumber inside then do
          match operand[(← number inside)]? with
          | some picked => pick n after [picked]
          | none => .error .beyondEnd
        else .error .noPosition
    else .error .malformed

/-- The value of a field name. -/
def lookUp (name operand : List Char) : Except TemplateError (List Char) :=
  let first := name.takeWhile fun c => c != '.' && c != '['
  let steps := name.drop first.length
  if first.isEmpty then .error .positional
  else if isNumber first then do
    let _ ← number first
    .error .positional
  else if first == operandName then pick steps.length steps operand
  else .error (.unknownName (String.ofList first))

/-- A converted value: as it is, in quotes, or in quotes with ASCII only. -/
def convert (conversion : Option Char) (value : List Char) : Except TemplateError (List Char) :=
  match conversion with
  | none => .ok value
  | some 's' => .ok value
  | some 'r' => .ok (Text.quoted value)
  | some 'a' => .ok (Text.quotedAscii value)
  | some _ => .error .malformed

/-- Where a padded text stands. -/
inductive Alignment where
  /-- At the left. -/
  | left
  /-- At the right. -/
  | right
  /-- In the middle. -/
  | center
  deriving DecidableEq, Repr

/-- The alignment of a mark; padding after a sign is not for texts. -/
def alignment? (c : Char) : Option (Option Alignment) :=
  if c == '<' then some (some .left)
  else if c == '>' then some (some .right)
  else if c == '^' then some (some .center)
  else if c == '=' then some none
  else none

/-- How a text is laid out. -/
structure Layout where
  /-- The padding character. -/
  fill : Char := ' '
  /-- Where the text stands. -/
  alignment : Alignment := .left
  /-- The least width. -/
  width : Nat := 0
  /-- The greatest length of the text. -/
  limit : Option Nat := none
  deriving DecidableEq, Repr

namespace Layout

/-- The fill and alignment at the start of a layout, if any, and the rest. -/
def start (cs : List Char) : Except TemplateError (Option Char × Alignment × List Char) :=
  let placed (fill : Option Char) (mark : Option Alignment) (rest : List Char) :
      Except TemplateError (Option Char × Alignment × List Char) :=
    match mark with
    | some alignment => .ok (fill, alignment, rest)
    | none => .error .malformed
  match cs with
  | c :: d :: rest =>
    match alignment? d with
    | some mark => placed (some c) mark rest
    | none =>
      match alignment? c with
      | some mark => placed none mark (d :: rest)
      | none => .ok (none, .left, cs)
  | [c] =>
    match alignment? c with
    | some mark => placed none mark []
    | none => .ok (none, .left, cs)
  | [] => .ok (none, .left, [])

/-- The greatest length, and the end of a layout: nothing, or the mark of texts. -/
def finish (layout : Layout) (cs : List Char) : Except TemplateError Layout := do
  let (limit, rest) ←
    match cs with
    | '.' :: more =>
      let digits := more.takeWhile Text.isDecimalDigit
      if digits.isEmpty then throw .malformed
      else pure (some (← number digits), more.drop digits.length)
    | _ => pure (none, cs)
  match rest with
  | [] => return { layout with limit := limit }
  | ['s'] => return { layout with limit := limit }
  | _ => throw .malformed

/-- A layout from its text. A zero before the width pads with zeros. -/
def parse (cs : List Char) : Except TemplateError Layout := do
  let (fill, alignment, rest) ← start cs
  let (fill, rest) :=
    match fill, rest with
    | none, '0' :: more => ('0', more)
    | _, _ => (fill.getD ' ', rest)
  let digits := rest.takeWhile Text.isDecimalDigit
  let width ← number digits
  finish { fill := fill, alignment := alignment, width := width } (rest.drop digits.length)

/-- A text cut and padded. -/
def apply (layout : Layout) (cs : List Char) : List Char :=
  let body := match layout.limit with
    | some limit => cs.take limit
    | none => cs
  let room := layout.width - body.length
  match layout.alignment with
  | .left => body ++ List.replicate room layout.fill
  | .right => List.replicate room layout.fill ++ body
  | .center =>
    List.replicate (room / 2) layout.fill ++ body ++ List.replicate (room - room / 2) layout.fill

end Layout

/-- The text of the parts in order. -/
def render (piece : Piece → Except TemplateError (List Char)) :
    List Piece → Except TemplateError (List Char)
  | [] => .ok []
  | p :: rest => do return (← piece p) ++ (← render piece rest)

/-- A template filled with an operand. Layouts may be templates themselves, up to the given depth. -/
def fillWithin : Nat → List Char → List Char → Except TemplateError (List Char)
  | 0, _, _ => .error .malformed
  | depth + 1, template, operand =>
    render (fun
      | .literal c => .ok [c]
      | .unread => .error .malformed
      | .field name conversion layout => do
        let value ← convert conversion (← lookUp name operand)
        let layout ← if layout.contains opening then fillWithin depth layout operand else pure layout
        if layout.isEmpty then return value
        return (← Layout.parse layout).apply value) (pieces template.length template)

/-- A template filled with an operand. -/
def fill (template operand : String) : Except TemplateError String := do
  return String.ofList (← fillWithin 2 template.toList operand.toList)

end Template

end CrateSafety
