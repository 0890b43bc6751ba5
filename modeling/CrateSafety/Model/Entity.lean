import CrateSafety.Requirement.Claim
import CrateSafety.Requirement.Condition
import CrateSafety.Snapshot.Declaration
import CrateSafety.Verdict.Rule

/-!
# The item model

The entities of a crate with their requirements read as conditions. Entities stand in declaration order,
the methods of a trait right after it.
-/

namespace CrateSafety

/-- An operation with its guards and its justification read. -/
structure Site where
  /-- The operation as declared. -/
  operation : Operation
  /-- The branch conditions around it. -/
  guards : Condition
  /-- The justification at it. -/
  justification : Option Justification

/-- The kinds of function-like items. -/
inductive ItemKind where
  /-- A free function. -/
  | function
  /-- A function with a receiver. -/
  | method
  /-- A function of a type, without a receiver. -/
  | associatedFunction
  /-- A method of a trait. -/
  | traitMethod
  deriving DecidableEq, Repr

namespace ItemKind

/-- The name. -/
def name : ItemKind → String
  | function => "function"
  | method => "method"
  | associatedFunction => "associated_function"
  | traitMethod => "trait_method"

/-- The kind of a declared function. -/
def ofFunction : FunctionKind → ItemKind
  | .free => function
  | .method => method
  | .associated => associatedFunction

end ItemKind

/-- A function, method, associated function or trait method. -/
structure Item where
  /-- The path. -/
  path : String
  /-- The kind. -/
  kind : ItemKind
  /-- The module. -/
  module : String
  /-- The marker. -/
  visibility : Visibility
  /-- Whether it is declared unsafe. -/
  declaredUnsafe : Bool
  /-- The parameters without the receiver. -/
  params : List String
  /-- The documented requirements. -/
  requirements : Condition
  /-- The type or trait that it belongs to. -/
  owner : Option String
  /-- The operations of its body. -/
  body : List Site
  /-- Whether it constructs its owner. -/
  constructor : Bool
  /-- The trait method that it implements. -/
  implements : Option String
  /-- Whether it has a receiver. -/
  hasReceiver : Bool
  /-- The source line. -/
  line : Option Int

namespace Item

/-- The names that the requirements of an item may use. -/
def signature (i : Item) : List String :=
  if i.hasReceiver then selfName :: i.params else i.params

/-- The owner, if one is given. -/
def owner? (i : Item) : Option String :=
  Path.given? i.owner

/-- The implemented trait method, if one is given. -/
def implements? (i : Item) : Option String :=
  Path.given? i.implements

end Item

/-- A struct. -/
structure Struct where
  /-- The path. -/
  path : String
  /-- The module. -/
  module : String
  /-- The marker. -/
  visibility : Visibility
  /-- The fields. -/
  fields : List Field
  /-- The type invariant, its fields as members of `self`. -/
  invariant : Condition
  /-- The source line. -/
  line : Option Int

namespace Struct

/-- The names of the fields. -/
def fieldNames (s : Struct) : List String :=
  s.fields.map (·.name)

/-- The first field of a name. -/
def field? (s : Struct) (name : String) : Option Field :=
  s.fields.find? fun f => f.name == name

/-- The fields that the invariant constrains. -/
def invariantFields (s : Struct) : List String :=
  s.fieldNames.filter fun name => s.invariant.atoms.any fun a => a.selfMembers.contains name

end Struct

/-- A trait. -/
structure Trait where
  /-- The path. -/
  path : String
  /-- The module. -/
  module : String
  /-- The marker. -/
  visibility : Visibility
  /-- Whether it is declared unsafe. -/
  declaredUnsafe : Bool
  /-- The documented invariant. -/
  invariant : Condition
  /-- The paths of its methods. -/
  methods : List String
  /-- The source line. -/
  line : Option Int

/-- An implementation of a trait for a type. -/
structure Impl where
  /-- The path that identifies the block. -/
  path : String
  /-- The module. -/
  module : String
  /-- The implemented trait. -/
  trait : String
  /-- The implementing type. -/
  target : String
  /-- Whether it is declared unsafe. -/
  declaredUnsafe : Bool
  /-- The justification of the block. -/
  justification : Option Justification
  /-- The source line. -/
  line : Option Int

/-- An entity of the model. -/
inductive Entity where
  /-- A function-like item. -/
  | item (value : Item)
  /-- A struct. -/
  | struct (value : Struct)
  /-- A trait. -/
  | trait (value : Trait)
  /-- An enumeration type. -/
  | enum (value : EnumDeclaration)
  /-- An implementation of a trait. -/
  | impl (value : Impl)

namespace Entity

/-- The path. -/
def path : Entity → String
  | item i => i.path
  | struct s => s.path
  | trait t => t.path
  | enum e => e.path
  | impl i => i.path

/-- Whether the entity is declared unsafe; structs and enumerations never are. -/
def declaredUnsafe : Entity → Bool
  | item i => i.declaredUnsafe
  | trait t => t.declaredUnsafe
  | impl i => i.declaredUnsafe
  | struct _ | enum _ => false

/-- The item, if it is one. -/
def item? : Entity → Option Item
  | item i => some i
  | _ => none

/-- The struct, if it is one. -/
def struct? : Entity → Option Struct
  | struct s => some s
  | _ => none

/-- The trait, if it is one. -/
def trait? : Entity → Option Trait
  | trait t => some t
  | _ => none

/-- The enumeration type, if it is one. -/
def enum? : Entity → Option EnumDeclaration
  | enum e => some e
  | _ => none

/-- The implementation, if it is one. -/
def impl? : Entity → Option Impl
  | impl i => some i
  | _ => none

end Entity

/-- A requirement that names what is not visible where it is declared. -/
structure Issue where
  /-- The path of the declaration. -/
  path : String
  /-- The broken rule. -/
  rule : Rule
  /-- The text of the requirement. -/
  requirement : String
  /-- The hidden names. -/
  identifiers : List String
  deriving DecidableEq, Repr

/-- The explanation of an issue. -/
def Issue.explanation (i : Issue) : String :=
  "requirement '" ++ i.requirement ++ "' references " ++
    ", ".intercalate (i.identifiers.map fun name => "`" ++ name ++ "`") ++
    ", which is not visible at its declaration site"

/-- The model of one crate. -/
structure Model where
  /-- The name of the crate. -/
  crate : String
  /-- The modules, parents before children. -/
  modules : List Module
  /-- The entities in declaration order. -/
  entities : List Entity
  /-- The malformed requirements in the order in which they were found. -/
  issues : List Issue

namespace Model

/-- The function-like items in declaration order. -/
def items (m : Model) : List Item := m.entities.filterMap Entity.item?

/-- The structs in declaration order. -/
def structs (m : Model) : List Struct := m.entities.filterMap Entity.struct?

/-- The traits in declaration order. -/
def traits (m : Model) : List Trait := m.entities.filterMap Entity.trait?

/-- The enumeration types in declaration order. -/
def enums (m : Model) : List EnumDeclaration := m.entities.filterMap Entity.enum?

/-- The implementations in declaration order. -/
def impls (m : Model) : List Impl := m.entities.filterMap Entity.impl?

/-- The module of a path. -/
def module? (m : Model) (path : String) : Option Module :=
  m.modules.find? fun x => x.path == path

/-- The entity of a path. -/
def entity? (m : Model) (path : String) : Option Entity :=
  m.entities.find? fun e => e.path == path

/-- The item of a path. -/
def item? (m : Model) (path : String) : Option Item :=
  m.items.find? fun i => i.path == path

/-- The struct of a path. -/
def struct? (m : Model) (path : String) : Option Struct :=
  m.structs.find? fun s => s.path == path

/-- The trait of a path. -/
def trait? (m : Model) (path : String) : Option Trait :=
  m.traits.find? fun t => t.path == path

/-- The enumeration type of a path. -/
def enum? (m : Model) (path : String) : Option EnumDeclaration :=
  m.enums.find? fun e => e.path == path

/-- The declaration order: each path with its position. -/
def declarationOrder (m : Model) : List (String × Int) :=
  m.entities.mapIdx fun n e => (e.path, (n : Int))

/-- The issues of one declaration. -/
def issuesFor (m : Model) (path : String) : List Issue :=
  m.issues.filter fun i => i.path == path

end Model

end CrateSafety
