import CrateSafety.Number.Shortest
import CrateSafety.Snapshot.Json
import CrateSafety.Text.Quoted

/-!
# Values as they are shown in messages

Texts are shown in quotes, numbers by their shortest digits, and lists and mappings with their entries in
order.
-/

namespace CrateSafety.Json

/-- An integer in decimal. -/
def integerText (n : Int) : List Char :=
  if n < 0 then '-' :: Nat.toDigits 10 n.natAbs else Nat.toDigits 10 n.natAbs

mutual

/-- A value as a message shows it. -/
def display : Json → List Char
  | .null => "None".toList
  | .bool true => "True".toList
  | .bool false => "False".toList
  | .integer n => integerText n
  | .decimal d => d.text.toList
  | .string s => Text.quoted s.toList
  | .array items => '[' :: displayItems items ++ [']']
  | .object fields => Char.ofNat 123 :: displayFields fields ++ [Char.ofNat 125]

/-- The items of a list, separated by commas. -/
def displayItems : List Json → List Char
  | [] => []
  | [item] => display item
  | item :: rest => display item ++ ',' :: ' ' :: displayItems rest

/-- The fields of a mapping, separated by commas. -/
def displayFields : List (String × Json) → List Char
  | [] => []
  | [(name, value)] => Text.quoted name.toList ++ ':' :: ' ' :: display value
  | (name, value) :: rest =>
    Text.quoted name.toList ++ ':' :: ' ' :: display value ++ ',' :: ' ' :: displayFields rest

end

/-- A value as plain text: a text stands for itself, any other value is displayed. -/
def plainText : Json → String
  | .string s => s
  | other => String.ofList other.display

end CrateSafety.Json
