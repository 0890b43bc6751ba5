import CrateSafety.Snapshot.Declaration
import CrateSafety.Snapshot.Display
import CrateSafety.Snapshot.Read

/-!
# Snapshots from values

Each record is read field by field, with defaults. Declarations have no fields but their own, and a
visibility may be given by its word alone.
-/

namespace CrateSafety

open Read

namespace Visibility

/-- The words of the markers with their reach. -/
def words : List (String × Reach) :=
  Reach.all.map fun reach => (reach.word, reach)

/-- A marker from its fields; a marker that names an ancestor needs a path. -/
def ofFields (fields : List (String × Json)) : Checked Visibility :=
  (Visibility.mk
    <$> optional fields "kind" .ownModule (member words (.notMember (Reach.all.map (·.word))))
    <*> optional fields "path" none (nullable text)).ensure hasTarget
      (.rejected "pub_in_path visibility requires a 'path'")

/-- A marker from its word or from its fields. -/
def ofJson : Json → Checked Visibility
  | .string word => ofFields [("kind", .string word)]
  | value => record "VisibilityDecl" ofFields value

/-- The marker of a record, private unless it is given. -/
def ofField (fields : List (String × Json)) : Checked Visibility :=
  optional fields "visibility" {} ofJson

end Visibility

namespace Module

/-- The fields of a module record. -/
def known : List String := ["path", "visibility"]

/-- A module from its value. -/
def ofJson : Json → Checked Module :=
  record "ModuleDecl" fun fields =>
    closed fields known (Module.mk <$> required fields "path" text <*> Visibility.ofField fields)

end Module

namespace Field

/-- The fields of a field record. -/
def known : List String := ["name", "visibility"]

/-- A struct field from its value. -/
def ofJson : Json → Checked Field :=
  record "FieldDecl" fun fields =>
    closed fields known (Field.mk <$> required fields "name" text <*> Visibility.ofField fields)

end Field

namespace Operation

/-- The fields of an operation record. -/
def known : List String :=
  ["op", "target", "args", "receiver", "fields", "field", "value", "access", "guards", "justification",
    "line"]

/-- A kind of operation from its word. -/
def kindOfJson : Json → Checked OperationKind :=
  member (OperationKind.all.map fun kind => (kind.word, kind))
    (.notMember (OperationKind.all.map (·.word)))

/-- A mode of access from its word. -/
def accessOfJson : Json → Checked Access :=
  member (Access.all.map fun access => (access.word, access)) (.notLiteral (Access.all.map (·.word)))

/-- An operation from its value. -/
def ofJson : Json → Checked Operation :=
  record "OperationDecl" fun fields =>
    closed fields known
      (Operation.mk
        <$> required fields "op" kindOfJson
        <*> required fields "target" text
        <*> optional fields "args" [] (list text)
        <*> optional fields "receiver" none (nullable text)
        <*> optional fields "fields" [] (mapping text)
        <*> optional fields "field" none (nullable text)
        <*> optional fields "value" none (nullable text)
        <*> optional fields "access" .read accessOfJson
        <*> optional fields "guards" [] (list text)
        <*> optional fields "justification" none (nullable text)
        <*> optional fields "line" none (nullable integer))

end Operation

namespace FunctionDeclaration

/-- The fields of a function record. -/
def known : List String :=
  ["kind", "path", "module", "visibility", "unsafe", "params", "owner", "constructor", "implements",
    "requirements", "body", "line"]

/-- A kind of function from its word. -/
def kindOfJson : Json → Checked FunctionKind :=
  member (FunctionKind.all.map fun kind => (kind.word, kind))
    (.notLiteral (FunctionKind.all.map (·.word)))

/-- A function from its value. -/
def ofJson : Json → Checked FunctionDeclaration :=
  record "FunctionDecl" fun fields =>
    closed fields known
      (FunctionDeclaration.mk
        <$> optional fields "kind" .free kindOfJson
        <*> required fields "path" text
        <*> optional fields "module" Path.crateRoot text
        <*> Visibility.ofField fields
        <*> optional fields "unsafe" false flag
        <*> optional fields "params" [] (list text)
        <*> optional fields "owner" none (nullable text)
        <*> optional fields "constructor" false flag
        <*> optional fields "implements" none (nullable text)
        <*> optional fields "requirements" [] (list text)
        <*> optional fields "body" [] (list Operation.ofJson)
        <*> optional fields "line" none (nullable integer))

end FunctionDeclaration

namespace TraitMethodDeclaration

/-- The fields of a trait method record. -/
def known : List String :=
  ["name", "unsafe", "receiver", "params", "requirements", "body", "line"]

/-- A trait method from its value. -/
def ofJson : Json → Checked TraitMethodDeclaration :=
  record "TraitMethodDecl" fun fields =>
    closed fields known
      (TraitMethodDeclaration.mk
        <$> required fields "name" text
        <*> optional fields "unsafe" false flag
        <*> optional fields "receiver" true flag
        <*> optional fields "params" [] (list text)
        <*> optional fields "requirements" [] (list text)
        <*> optional fields "body" [] (list Operation.ofJson)
        <*> optional fields "line" none (nullable integer))

end TraitMethodDeclaration

namespace TraitDeclaration

/-- The fields of a trait record. -/
def known : List String :=
  ["kind", "path", "module", "visibility", "unsafe", "invariant", "methods", "line"]

/-- A trait from its value. -/
def ofJson : Json → Checked TraitDeclaration :=
  record "TraitDecl" fun fields =>
    closed fields known
      (TraitDeclaration.mk
        <$> required fields "path" text
        <*> optional fields "module" Path.crateRoot text
        <*> Visibility.ofField fields
        <*> optional fields "unsafe" false flag
        <*> optional fields "invariant" [] (list text)
        <*> optional fields "methods" [] (list TraitMethodDeclaration.ofJson)
        <*> optional fields "line" none (nullable integer))

end TraitDeclaration

namespace StructDeclaration

/-- The fields of a struct record. -/
def known : List String :=
  ["kind", "path", "module", "visibility", "fields", "invariant", "line"]

/-- A struct from its value. -/
def ofJson : Json → Checked StructDeclaration :=
  record "StructDecl" fun fields =>
    closed fields known
      (StructDeclaration.mk
        <$> required fields "path" text
        <*> optional fields "module" Path.crateRoot text
        <*> Visibility.ofField fields
        <*> optional fields "fields" [] (list Field.ofJson)
        <*> optional fields "invariant" [] (list text)
        <*> optional fields "line" none (nullable integer))

end StructDeclaration

namespace EnumDeclaration

/-- The fields of an enumeration record. -/
def known : List String :=
  ["kind", "path", "module", "visibility", "variants", "line"]

/-- An enumeration from its value. -/
def ofJson : Json → Checked EnumDeclaration :=
  record "EnumDecl" fun fields =>
    closed fields known
      (EnumDeclaration.mk
        <$> required fields "path" text
        <*> optional fields "module" Path.crateRoot text
        <*> Visibility.ofField fields
        <*> optional fields "variants" [] (list text)
        <*> optional fields "line" none (nullable integer))

end EnumDeclaration

namespace ImplDeclaration

/-- The fields of an implementation record. -/
def known : List String :=
  ["kind", "path", "module", "trait", "target", "unsafe", "justification", "line"]

/-- An implementation from its value. -/
def ofJson : Json → Checked ImplDeclaration :=
  record "TraitImplDecl" fun fields =>
    closed fields known
      (ImplDeclaration.mk
        <$> required fields "path" text
        <*> optional fields "module" Path.crateRoot text
        <*> required fields "trait" text
        <*> required fields "target" text
        <*> optional fields "unsafe" false flag
        <*> optional fields "justification" none (nullable text)
        <*> optional fields "line" none (nullable integer))

end ImplDeclaration

namespace Declaration

/-- The kinds of item records: the place of their faults, and how they are read. -/
def readers : List (String × (Json → Checked Declaration)) :=
  [("function", fun v => Declaration.function <$> FunctionDeclaration.ofJson v),
    ("trait", fun v => Declaration.trait <$> TraitDeclaration.ofJson v),
    ("struct", fun v => Declaration.struct <$> StructDeclaration.ofJson v),
    ("enum", fun v => Declaration.enum <$> EnumDeclaration.ofJson v),
    ("trait_impl", fun v => Declaration.impl <$> ImplDeclaration.ofJson v)]

/-- The kind that an item value names; functions need not name one. -/
def kindOf : Json → Json
  | .object fields => (Json.field? fields "kind").getD (.string FunctionKind.free.word)
  | _ => .string FunctionKind.free.word

/-- The record kind for the kind of an item: the three kinds of functions are one. -/
def recordKind (word : String) : String :=
  if word == FunctionKind.method.word || word == FunctionKind.associated.word then
    FunctionKind.free.word
  else word

/-- An item from its value, read by its kind. -/
def ofJson (value : Json) : Checked Declaration :=
  match kindOf value with
  | .null => .fault .noKind
  | kind =>
    let shown := recordKind kind.plainText
    match kind, readers.find? fun entry => entry.1 == shown with
    | .string _, some (name, read) => (read value).beneath (.name name)
    | _, _ => .fault (.unknownKind shown (readers.map (·.1)))

end Declaration

namespace Snapshot

/-- A snapshot from its value; unknown fields are passed over. -/
def ofJson : Json → Checked Snapshot :=
  record "CrateSnapshot" fun fields =>
    Snapshot.mk
      <$> optional fields "name" Path.crateRoot text
      <*> optional fields "modules" [] (list Module.ofJson)
      <*> optional fields "items" [] (list Declaration.ofJson)

end Snapshot

end CrateSafety
