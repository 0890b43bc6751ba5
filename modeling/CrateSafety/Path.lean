/-!
# Item paths

Paths are texts whose segments are separated by `::`. A scope root is a path, or `none` for the whole
universe of observers.
-/

namespace CrateSafety

namespace Path

/-- The path of the root module. -/
def crateRoot : String := "crate"

/-- Cuts a text at its last `::`. -/
def cutLast : List Char → Option (List Char × List Char)
  | [] => none
  | c :: rest =>
    match cutLast rest with
    | some (before, after) => some (c :: before, after)
    | none =>
      match c, rest with
      | ':', ':' :: after => some ([], after)
      | _, _ => none

/-- The enclosing path, if there is one. -/
def parent? (path : String) : Option String :=
  (cutLast path.toList).map fun (before, _) => String.ofList before

/-- The enclosing path, or the root module where there is none. -/
def parentOrRoot (path : String) : String :=
  match parent? path with
  | some parent => if parent == "" then crateRoot else parent
  | none => crateRoot

/-- The last segment. -/
def lastSegment (path : String) : String :=
  match cutLast path.toList with
  | some (_, after) => String.ofList after
  | none => path

/-- A path extended by one segment. -/
def child (path name : String) : String :=
  path ++ "::" ++ name

/-- Whether `path` is `ancestor` or lies beneath it. -/
def within (path ancestor : String) : Bool :=
  path == ancestor || (ancestor.toList ++ [':', ':']).isPrefixOf path.toList

/-- How many separators a path has, counted from left to right without overlap. -/
def separators : List Char → Nat
  | ':' :: ':' :: rest => separators rest + 1
  | _ :: rest => separators rest
  | [] => 0

/-- How deep a path lies. -/
def depth (path : String) : Nat :=
  separators path.toList

/-- A path that may be left out; an empty one counts as left out. -/
def given? (path : Option String) : Option String :=
  path.filter (· != "")

end Path

/-- Where something can be named from: a module and all beneath it, or everywhere (`none`). -/
abbrev Scope := Option String

/-- The narrower of two scopes on one chain of ancestors. -/
def Scope.narrowest : Scope → Scope → Scope
  | none, b => b
  | some a, none => some a
  | some a, some b => if Path.within a b then some a else some b

end CrateSafety
