/-!
# Faults of input values

A fault is a cause at a place: the names and positions that lead to the offending value. A check collects
every fault of its parts, in order, instead of stopping at the first.
-/

namespace CrateSafety

/-- One step into a value. -/
inductive Place where
  /-- A field, a key, or the kind of an item. -/
  | name (text : String)
  /-- A position in a list. -/
  | index (position : Nat)
  deriving DecidableEq, Repr

/-- What is wrong with a value. -/
inductive Cause where
  /-- A required field is absent. -/
  | missing
  /-- A field that the record does not have. -/
  | unknownField
  /-- Not a text. -/
  | notText
  /-- Not a list. -/
  | notList
  /-- Not a mapping. -/
  | notMapping
  /-- Not a list of distinct values. -/
  | notSet
  /-- Not a record of the named type. -/
  | notRecord (type : String)
  /-- Not one of the members of an enumeration. -/
  | notMember (members : List String)
  /-- Not one of the fixed texts. -/
  | notLiteral (texts : List String)
  /-- Not a truth value. -/
  | notFlag
  /-- A text or number that does not spell a truth value. -/
  | unreadFlag
  /-- Not an integer. -/
  | notInteger
  /-- A number with a fractional part. -/
  | fractional
  /-- An infinite number. -/
  | infinite
  /-- A text that does not spell an integer. -/
  | unreadInteger
  /-- A number too large to be read as an integer. -/
  | oversizedInteger
  /-- An item of an unknown kind, as shown. -/
  | unknownKind (shown : String) (kinds : List String)
  /-- An item whose kind is absent on purpose. -/
  | noKind
  /-- A rule on the whole value that fails. -/
  | rejected (reason : String)
  deriving DecidableEq, Repr

namespace Cause

/-- A text in single quotes. -/
def quote (text : String) : String :=
  "'" ++ text ++ "'"

/-- Texts in single quotes as a choice: commas, and `or` before the last. -/
def choice : List String → String
  | [] => ""
  | [text] => quote text
  | [text, last] => quote text ++ " or " ++ quote last
  | text :: rest => quote text ++ ", " ++ choice rest

/-- The short name of the cause. -/
def code : Cause → String
  | missing => "missing"
  | unknownField => "extra_forbidden"
  | notText => "string_type"
  | notList => "list_type"
  | notMapping => "dict_type"
  | notSet => "set_type"
  | notRecord _ => "model_type"
  | notMember _ => "enum"
  | notLiteral _ => "literal_error"
  | notFlag => "bool_type"
  | unreadFlag => "bool_parsing"
  | notInteger => "int_type"
  | fractional => "int_from_float"
  | infinite => "finite_number"
  | unreadInteger => "int_parsing"
  | oversizedInteger => "int_parsing_size"
  | unknownKind _ _ => "union_tag_invalid"
  | noKind => "union_tag_not_found"
  | rejected _ => "value_error"

/-- The message of the cause. -/
def message : Cause → String
  | missing => "Field required"
  | unknownField => "Extra inputs are not permitted"
  | notText => "Input should be a valid string"
  | notList => "Input should be a valid list"
  | notMapping => "Input should be a valid dictionary"
  | notSet => "Input should be a valid set"
  | notRecord type => "Input should be a valid dictionary or instance of " ++ type
  | notMember members => "Input should be " ++ choice members
  | notLiteral texts => "Input should be " ++ choice texts
  | notFlag => "Input should be a valid boolean"
  | unreadFlag => "Input should be a valid boolean, unable to interpret input"
  | notInteger => "Input should be a valid integer"
  | fractional => "Input should be a valid integer, got a number with a fractional part"
  | infinite => "Input should be a finite number"
  | unreadInteger => "Input should be a valid integer, unable to parse string as an integer"
  | oversizedInteger => "Unable to parse input string as an integer, exceeded maximum size"
  | unknownKind shown kinds =>
    "Input tag " ++ quote shown ++ " found using _item_tag() does not match any of the expected tags: " ++
      ", ".intercalate (kinds.map quote)
  | noKind => "Unable to extract tag using discriminator _item_tag()"
  | rejected reason => "Value error, " ++ reason

end Cause

/-- A cause at a place. -/
structure Fault where
  /-- The steps from the whole value to the offending one. -/
  place : List Place
  /-- What is wrong there. -/
  cause : Cause
  deriving DecidableEq, Repr

/-- The outcome of a check: a value, or the faults found. -/
inductive Checked (α : Type) where
  /-- The value that was read. -/
  | valid (value : α)
  /-- Every fault, in order. -/
  | invalid (faults : List Fault)

namespace Checked

variable {α β : Type}

/-- One fault at the value itself. -/
def fault (cause : Cause) : Checked α :=
  .invalid [⟨[], cause⟩]

/-- Two checks side by side: the faults of both are collected. -/
def both (f : Checked (α → β)) (x : Checked α) : Checked β :=
  match f, x with
  | .valid g, .valid a => .valid (g a)
  | .valid _, .invalid found => .invalid found
  | .invalid found, .valid _ => .invalid found
  | .invalid found, .invalid more => .invalid (found ++ more)

instance : Applicative Checked where
  pure := .valid
  seq f x := both f (x ())

/-- The check of a part: its faults lie beneath the given place. -/
def beneath (place : Place) : Checked α → Checked α
  | .valid a => .valid a
  | .invalid found => .invalid (found.map fun f => ⟨place :: f.place, f.cause⟩)

/-- A rule on a value whose parts are valid. -/
def ensure (rule : α → Bool) (cause : Cause) : Checked α → Checked α
  | .valid a => if rule a then .valid a else fault cause
  | .invalid found => .invalid found

end Checked

end CrateSafety
