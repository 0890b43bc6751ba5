import CrateSafety.Visibility

/-!
# Crate snapshots

A snapshot is the parsed description of one crate: its modules and its items in declaration order, with
documentation and justifications as texts.
-/

namespace CrateSafety

/-- The kinds of safety-relevant operations in a body. -/
inductive OperationKind where
  /-- A call of an item. -/
  | call
  /-- A dereference of a raw pointer. -/
  | rawDeref
  /-- An access to a mutable static. -/
  | staticMut
  /-- A read of a union field. -/
  | unionField
  /-- A struct literal. -/
  | structLiteral
  /-- A write to a field. -/
  | fieldWrite
  deriving DecidableEq, Repr

namespace OperationKind

/-- The word of a snapshot for it. -/
def word : OperationKind → String
  | call => "call"
  | rawDeref => "raw_deref"
  | staticMut => "static_mut"
  | unionField => "union_field"
  | structLiteral => "struct_literal"
  | fieldWrite => "field_write"

/-- All kinds in order. -/
def all : List OperationKind :=
  [call, rawDeref, staticMut, unionField, structLiteral, fieldWrite]

/-- Whether the operation is unsafe in the language itself, without a callee. -/
def isPrimitive : OperationKind → Bool
  | rawDeref | staticMut | unionField => true
  | _ => false

/-- Whether the operation reaches the fields of a struct. -/
def touchesInternals : OperationKind → Bool
  | structLiteral | fieldWrite => true
  | _ => false

end OperationKind

/-- How a raw pointer is used. -/
inductive Access where
  /-- It is read from. -/
  | read
  /-- It is written to. -/
  | write
  deriving DecidableEq, Repr

namespace Access

/-- The word of a snapshot for it. -/
def word : Access → String
  | read => "read"
  | write => "write"

/-- Both modes in order. -/
def all : List Access := [read, write]

end Access

/-- A module of the crate. -/
structure Module where
  /-- The path. -/
  path : String
  /-- The marker, relative to the parent module. -/
  visibility : Visibility := {}
  deriving DecidableEq, Repr

/-- A field of a struct. -/
structure Field where
  /-- The name. -/
  name : String
  /-- The marker, relative to the module of the struct. -/
  visibility : Visibility := {}
  deriving DecidableEq, Repr

/-- A safety-relevant operation in a body, as declared. -/
structure Operation where
  /-- What is done. -/
  kind : OperationKind
  /-- The callee, the struct, or the operand. -/
  target : String
  /-- The arguments of a call, by position. -/
  args : List String := []
  /-- The receiver of a method call or of a field write. -/
  receiver : Option String := none
  /-- The initialisers of a struct literal. -/
  fields : List (String × String) := []
  /-- The written field. -/
  field : Option String := none
  /-- The written value. -/
  value : Option String := none
  /-- How a raw pointer is used. -/
  access : Access := .read
  /-- The branch conditions around the site. -/
  guards : List String := []
  /-- The justification at the site. -/
  justification : Option String := none
  /-- The source line. -/
  line : Option Int := none
  deriving DecidableEq, Repr

/-- The kinds of functions. -/
inductive FunctionKind where
  /-- A free function. -/
  | free
  /-- A function with a receiver. -/
  | method
  /-- A function of a type, without a receiver. -/
  | associated
  deriving DecidableEq, Repr

namespace FunctionKind

/-- The word of a snapshot for it. -/
def word : FunctionKind → String
  | free => "function"
  | method => "method"
  | associated => "associated_function"

/-- All kinds in order. -/
def all : List FunctionKind := [free, method, associated]

end FunctionKind

/-- A free function, method or associated function, as declared. -/
structure FunctionDeclaration where
  /-- The kind. -/
  kind : FunctionKind := .free
  /-- The path. -/
  path : String
  /-- The module. -/
  module : String := Path.crateRoot
  /-- The marker. -/
  visibility : Visibility := {}
  /-- Whether it is declared unsafe. -/
  declaredUnsafe : Bool := false
  /-- The parameters without the receiver. -/
  params : List String := []
  /-- The type that it belongs to. -/
  owner : Option String := none
  /-- Whether it constructs its owner. -/
  constructor : Bool := false
  /-- The trait method that it implements. -/
  implements : Option String := none
  /-- The documented requirements. -/
  requirements : List String := []
  /-- The operations of its body. -/
  body : List Operation := []
  /-- The source line. -/
  line : Option Int := none
  deriving DecidableEq, Repr

/-- A method of a trait, as declared. -/
structure TraitMethodDeclaration where
  /-- The name. -/
  name : String
  /-- Whether it is declared unsafe. -/
  declaredUnsafe : Bool := false
  /-- Whether it has a receiver. -/
  receiver : Bool := true
  /-- The parameters without the receiver. -/
  params : List String := []
  /-- The documented requirements. -/
  requirements : List String := []
  /-- The operations of its default body. -/
  body : List Operation := []
  /-- The source line. -/
  line : Option Int := none
  deriving DecidableEq, Repr

/-- A trait, as declared. -/
structure TraitDeclaration where
  /-- The path. -/
  path : String
  /-- The module. -/
  module : String := Path.crateRoot
  /-- The marker. -/
  visibility : Visibility := {}
  /-- Whether it is declared unsafe. -/
  declaredUnsafe : Bool := false
  /-- The documented invariant. -/
  invariant : List String := []
  /-- The methods. -/
  methods : List TraitMethodDeclaration := []
  /-- The source line. -/
  line : Option Int := none
  deriving DecidableEq, Repr

/-- A struct, as declared. -/
structure StructDeclaration where
  /-- The path. -/
  path : String
  /-- The module. -/
  module : String := Path.crateRoot
  /-- The marker. -/
  visibility : Visibility := {}
  /-- The fields. -/
  fields : List Field := []
  /-- The documented invariant over the fields. -/
  invariant : List String := []
  /-- The source line. -/
  line : Option Int := none
  deriving DecidableEq, Repr

/-- An enumeration type. -/
structure EnumDeclaration where
  /-- The path. -/
  path : String
  /-- The module. -/
  module : String := Path.crateRoot
  /-- The marker. -/
  visibility : Visibility := {}
  /-- The names of the variants. -/
  variants : List String := []
  /-- The source line. -/
  line : Option Int := none
  deriving DecidableEq, Repr

/-- An implementation of a trait for a type, as declared. -/
structure ImplDeclaration where
  /-- The path that identifies the block. -/
  path : String
  /-- The module. -/
  module : String := Path.crateRoot
  /-- The implemented trait. -/
  trait : String
  /-- The implementing type. -/
  target : String
  /-- Whether it is declared unsafe. -/
  declaredUnsafe : Bool := false
  /-- The justification of the block. -/
  justification : Option String := none
  /-- The source line. -/
  line : Option Int := none
  deriving DecidableEq, Repr

/-- An item of a crate, as declared. -/
inductive Declaration where
  /-- A function, method or associated function. -/
  | function (declared : FunctionDeclaration)
  /-- A trait with its methods. -/
  | trait (declared : TraitDeclaration)
  /-- A struct. -/
  | struct (declared : StructDeclaration)
  /-- An enumeration type. -/
  | enum (declared : EnumDeclaration)
  /-- An implementation of a trait. -/
  | impl (declared : ImplDeclaration)
  deriving DecidableEq, Repr

namespace Declaration

/-- The path. -/
def path : Declaration → String
  | function d => d.path
  | trait d => d.path
  | struct d => d.path
  | enum d => d.path
  | impl d => d.path

/-- The module. -/
def module : Declaration → String
  | function d => d.module
  | trait d => d.module
  | struct d => d.module
  | enum d => d.module
  | impl d => d.module

end Declaration

/-- The description of one crate. -/
structure Snapshot where
  /-- The name of the crate. -/
  name : String := Path.crateRoot
  /-- The modules; the root module need not be among them. -/
  modules : List Module := []
  /-- The items in declaration order. -/
  items : List Declaration := []
  deriving DecidableEq, Repr

end CrateSafety
