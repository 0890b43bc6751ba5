import CrateSafety.Snapshot.Declaration
import CrateSafety.Snapshot.Display
import CrateSafety.Snapshot.Read
import CrateSafety.Text.Lower

/-!
# Configurations

One configuration is chosen for a run: the soundness criterion, the requirement templates of primitive
operations, the names that are always visible, and what is reported.
-/

namespace CrateSafety

open Read

/-- The boundary at which misuse by safe code must be impossible. -/
inductive Criterion where
  /-- The implementation blocks of the struct. -/
  | struct
  /-- The module that defines the struct. -/
  | module
  /-- The crate. -/
  | crate
  deriving DecidableEq, Repr

namespace Criterion

/-- The name. -/
def name : Criterion → String
  | struct => "struct"
  | module => "module"
  | crate => "crate"

/-- All criteria in order. -/
def all : List Criterion := [struct, module, crate]

/-- Drops a fixed ending, if it is there. -/
def dropEnd? (ending cs : List Char) : Option (List Char) :=
  (Text.dropStart? ending.reverse cs.reverse).map List.reverse

/-- A spelled criterion in plain form: lower case, trimmed, with underscores, and without the ending
`level`. -/
def normalize (cs : List Char) : List Char :=
  let plain := (Text.trim (Text.lower cs)).map fun c => if c == '-' then '_' else c
  match dropEnd? "_level".toList plain with
  | some rest => rest
  | none => (dropEnd? "level".toList plain).getD plain

/-- The criterion of a name. -/
def ofName? (name : String) : Option Criterion :=
  all.find? fun criterion => criterion.name == name

/-- A criterion from its value. -/
def ofJson : Json → Checked Criterion
  | .string s =>
    match ofName? (String.ofList (normalize s.toList)) with
    | some criterion => .valid criterion
    | none =>
      .fault (.rejected ("Unknown soundness criterion: '" ++ s ++ "'. Supported criteria: [" ++
        ", ".intercalate (all.map fun criterion => "'" ++ criterion.name ++ "'") ++ "]"))
  | value => .fault (.rejected ("Unknown soundness criterion: " ++ String.ofList value.display))

end Criterion

/-- A configuration. -/
structure Config where
  /-- The soundness criterion. -/
  criterion : Criterion := .module
  /-- Requirement templates by operation, or by operation and mode of access. -/
  primitiveRequirements : List (String × List String) :=
    [("raw_deref:read", ["valid_for_reads(\x7btarget\x7d)", "aligned(\x7btarget\x7d)"]),
      ("raw_deref:write", ["valid_for_writes(\x7btarget\x7d)", "aligned(\x7btarget\x7d)"]),
      ("static_mut", ["exclusive_access(\x7btarget\x7d)"]),
      ("union_field", ["initialized_as(\x7btarget\x7d)"])]
  /-- Names that requirements may always use. -/
  ambientNames : List String :=
    ["True", "False", "None", "null", "usize", "isize", "u8", "u16", "u32", "u64", "i8", "i16", "i32",
      "i64", "size_of", "align_of", "len"]
  /-- Traits of other crates that are unsafe, by their last segment. -/
  unsafeExternalTraits : List String := ["Send", "Sync", "GlobalAlloc", "TrustedLen"]
  /-- Whether recommendations are reported. -/
  reportRecommended : Bool := true
  /-- Whether the first malformed requirement ends the build of the model. -/
  strictRequirements : Bool := false
  deriving DecidableEq, Repr

namespace Config

/-- A configuration from its value; unknown fields are passed over. -/
def ofJson : Json → Checked Config :=
  record "AnalysisConfig" fun fields =>
    let default : Config := {}
    Config.mk
      <$> optional fields "criterion" default.criterion Criterion.ofJson
      <*> optional fields "primitive_requirements" default.primitiveRequirements (mapping (list text))
      <*> optional fields "ambient_names" default.ambientNames (set text)
      <*> optional fields "unsafe_external_traits" default.unsafeExternalTraits (set text)
      <*> optional fields "report_recommended" default.reportRecommended flag
      <*> optional fields "strict_requirements" default.strictRequirements flag

/-- The templates of a key. -/
def templates? (c : Config) (key : String) : Option (List String) :=
  (c.primitiveRequirements.find? fun entry => entry.1 == key).map (·.2)

/-- The requirement templates of an operation: those for its mode of access, or else those for it. -/
def templatesFor (c : Config) (kind : OperationKind) (access : Access) : List String :=
  match c.templates? (kind.word ++ ":" ++ access.word) with
  | some templates => templates
  | none => (c.templates? kind.word).getD []

end Config

end CrateSafety
