import CrateSafety.Snapshot.Declaration
import CrateSafety.Snapshot.Json

/-!
# Snapshots as values

Every field is written, defaults included, and every marker with its word and its path.
-/

namespace CrateSafety

namespace Json

/-- A list of texts. -/
def texts (values : List String) : Json :=
  .array (values.map .string)

/-- A text that may be absent. -/
def nullableText : Option String → Json
  | some s => .string s
  | none => .null

/-- An integer that may be absent. -/
def nullableInteger : Option Int → Json
  | some n => .integer n
  | none => .null

end Json

/-- A marker as a value. -/
def Visibility.toJson (v : Visibility) : Json :=
  .object [("kind", .string v.reach.word), ("path", .nullableText v.path)]

/-- A module as a value. -/
def Module.toJson (m : Module) : Json :=
  .object [("path", .string m.path), ("visibility", m.visibility.toJson)]

/-- A struct field as a value. -/
def Field.toJson (f : Field) : Json :=
  .object [("name", .string f.name), ("visibility", f.visibility.toJson)]

/-- An operation as a value. -/
def Operation.toJson (o : Operation) : Json :=
  .object [("op", .string o.kind.word), ("target", .string o.target), ("args", .texts o.args),
    ("receiver", .nullableText o.receiver),
    ("fields", .object (o.fields.map fun (name, text) => (name, .string text))),
    ("field", .nullableText o.field), ("value", .nullableText o.value),
    ("access", .string o.access.word), ("guards", .texts o.guards),
    ("justification", .nullableText o.justification), ("line", .nullableInteger o.line)]

/-- A function as a value. -/
def FunctionDeclaration.toJson (d : FunctionDeclaration) : Json :=
  .object [("kind", .string d.kind.word), ("path", .string d.path), ("module", .string d.module),
    ("visibility", d.visibility.toJson), ("unsafe", .bool d.declaredUnsafe), ("params", .texts d.params),
    ("owner", .nullableText d.owner), ("constructor", .bool d.constructor),
    ("implements", .nullableText d.implements), ("requirements", .texts d.requirements),
    ("body", .array (d.body.map (·.toJson))), ("line", .nullableInteger d.line)]

/-- A trait method as a value. -/
def TraitMethodDeclaration.toJson (d : TraitMethodDeclaration) : Json :=
  .object [("name", .string d.name), ("unsafe", .bool d.declaredUnsafe), ("receiver", .bool d.receiver),
    ("params", .texts d.params), ("requirements", .texts d.requirements),
    ("body", .array (d.body.map (·.toJson))), ("line", .nullableInteger d.line)]

/-- A trait as a value. -/
def TraitDeclaration.toJson (d : TraitDeclaration) : Json :=
  .object [("kind", .string "trait"), ("path", .string d.path), ("module", .string d.module),
    ("visibility", d.visibility.toJson), ("unsafe", .bool d.declaredUnsafe),
    ("invariant", .texts d.invariant), ("methods", .array (d.methods.map (·.toJson))),
    ("line", .nullableInteger d.line)]

/-- A struct as a value. -/
def StructDeclaration.toJson (d : StructDeclaration) : Json :=
  .object [("kind", .string "struct"), ("path", .string d.path), ("module", .string d.module),
    ("visibility", d.visibility.toJson), ("fields", .array (d.fields.map (·.toJson))),
    ("invariant", .texts d.invariant), ("line", .nullableInteger d.line)]

/-- An enumeration as a value. -/
def EnumDeclaration.toJson (d : EnumDeclaration) : Json :=
  .object [("kind", .string "enum"), ("path", .string d.path), ("module", .string d.module),
    ("visibility", d.visibility.toJson), ("variants", .texts d.variants),
    ("line", .nullableInteger d.line)]

/-- An implementation as a value. -/
def ImplDeclaration.toJson (d : ImplDeclaration) : Json :=
  .object [("kind", .string "trait_impl"), ("path", .string d.path), ("module", .string d.module),
    ("trait", .string d.trait), ("target", .string d.target), ("unsafe", .bool d.declaredUnsafe),
    ("justification", .nullableText d.justification), ("line", .nullableInteger d.line)]

/-- An item as a value. -/
def Declaration.toJson : Declaration → Json
  | .function d => d.toJson
  | .trait d => d.toJson
  | .struct d => d.toJson
  | .enum d => d.toJson
  | .impl d => d.toJson

/-- A snapshot as a value. -/
def Snapshot.toJson (s : Snapshot) : Json :=
  .object [("name", .string s.name), ("modules", .array (s.modules.map (·.toJson))),
    ("items", .array (s.items.map (·.toJson)))]

end CrateSafety
