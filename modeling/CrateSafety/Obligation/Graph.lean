import CrateSafety.Obligation.Edge
import CrateSafety.Traced

/-!
# The obligation graph

The obligations of all items, with the items ordered so that every callee precedes its callers. Among items
that are ready the earliest declared one comes first. A cycle of calls has no such order.
-/

namespace CrateSafety

/-- What an unresolved target would have been. -/
inductive TargetRole where
  /-- An item to call. -/
  | callee
  /-- A struct. -/
  | struct
  deriving DecidableEq, Repr

/-- A target that names nothing. -/
structure Unresolved where
  /-- The path of the item. -/
  caller : String
  /-- The target as written. -/
  target : String
  /-- What it would have been. -/
  role : TargetRole
  deriving DecidableEq, Repr

/-- Why there is no graph. -/
inductive GraphError where
  /-- An obligation that cannot be stated. -/
  | obligation (error : ObligationError)
  /-- A cycle of calls; its first item is repeated at the end. -/
  | cyclic (cycle : List String)
  deriving DecidableEq, Repr

/-- A cycle as a text. -/
def cycleText (cycle : List String) : String :=
  " -> ".intercalate cycle

/-- The obligations of a crate. -/
structure Graph where
  /-- The obligations of each item, in declaration order. -/
  edges : List (String × List Edge)
  /-- The items, callees first. -/
  order : List String

/-- The distinct callees among obligations, in order. -/
def calleesOf (edges : List Edge) : List String :=
  Text.distinct ((edges.filter fun e => e.kind == .call).map (·.target))

namespace Graph

/-- The obligations among listed ones that belong to an item. -/
def lookUp (edges : List (String × List Edge)) (caller : String) : List Edge :=
  ((edges.find? fun entry => entry.1 == caller).map (·.2)).getD []

/-- The obligations of an item. -/
def edgesFrom (g : Graph) (caller : String) : List Edge :=
  lookUp g.edges caller

/-- The callees of an item. -/
def callees (g : Graph) (caller : String) : List String :=
  calleesOf (g.edgesFrom caller)

/-- All obligations in the order of the items. -/
def allEdges (g : Graph) : List Edge :=
  g.order.flatMap g.edgesFrom

/-- Moves items from `remaining` to `done`, each time the first whose callees are all done, until none is
ready. The first argument bounds the number of moves. -/
def arrange (callees : String → List String) : Nat → List String → List String → List String × List String
  | 0, done, remaining => (done, remaining)
  | n + 1, done, remaining =>
    match remaining.find? fun path => (callees path).all done.contains with
    | some path => arrange callees n (done ++ [path]) (remaining.erase path)
    | none => (done, remaining)

/-- Follows first callees among the remaining items until one repeats; the trail from there is a cycle.
The first argument bounds the length of the trail. -/
def walk (callees : String → List String) (remaining : List String) : Nat → List String → String →
    List String
  | 0, trail, _ => trail
  | n + 1, trail, current =>
    if trail.contains current then trail.dropWhile (· != current) ++ [current]
    else
      match (callees current).find? remaining.contains with
      | some next => walk callees remaining n (trail ++ [current]) next
      | none => trail ++ [current]

/-- A cycle among items of which none is ready. -/
def findCycle (callees : String → List String) (remaining : List String) : List String :=
  walk callees remaining (remaining.length + 1) [] (remaining.headD "")

/-- The items with callees first, or a cycle. -/
def calleeFirst (callees : String → List String) (paths : List String) :
    Except (List String) (List String) :=
  let (done, remaining) := arrange callees paths.length [] paths
  if remaining.isEmpty then .ok done else .error (findCycle callees remaining)

end Graph

namespace Model

/-- The item that a call target names: as written, for the owner where it starts with `Self`, beneath the
owner, or beneath the module. -/
def resolveItem (m : Model) (caller : Item) (target : String) : Option Item :=
  let forSelf := match Text.dropStart? "Self::".toList target.toList, caller.owner? with
    | some rest, some owner => [Path.child owner (String.ofList rest)]
    | _, _ => []
  let beneathOwner := caller.owner?.toList.map fun owner => Path.child owner target
  (target :: forSelf ++ beneathOwner ++ [Path.child caller.module target]).findSome? m.item?

/-- The struct that a target names: the owner for `Self` or no name, as written, or beneath the module. -/
def resolveStruct (m : Model) (caller : Item) (target : String) : Option Struct :=
  let own := if target == "Self" || target == "" then caller.owner.bind m.struct? else none
  own.or ([target, Path.child caller.module target].findSome? m.struct?)

/-- The obligation of an operation, or a note that its target names nothing. -/
def edge (m : Model) (config : Config) (caller : Item) (site : Site) :
    Traced Unresolved GraphError (Option Edge) :=
  let o := site.operation
  if o.kind.isPrimitive then
    some <$> .lift .obligation (Edge.ofPrimitive config caller site)
  else if o.kind.touchesInternals then
    match m.resolveStruct caller o.target with
    | some s => some <$> .lift (.obligation ∘ .predicate) (Edge.ofInternals caller s site)
    | none => ⟨[⟨caller.path, o.target, .struct⟩], .ok none⟩
  else
    match m.resolveItem caller o.target with
    | some callee => some <$> .lift (.obligation ∘ .predicate) (Edge.ofCall caller callee site)
    | none => ⟨[⟨caller.path, o.target, .callee⟩], .ok none⟩

/-- The obligations of an item. -/
def edgesOf (m : Model) (config : Config) (caller : Item) :
    Traced Unresolved GraphError (String × List Edge) := do
  let edges ← caller.body.mapM (m.edge config caller)
  return (caller.path, edges.filterMap id)

/-- The obligation graph, with the targets that name nothing. -/
def graph (m : Model) (config : Config) : Traced Unresolved GraphError Graph := do
  let edges ← m.items.mapM (m.edgesOf config)
  let callees (path : String) : List String := calleesOf (Graph.lookUp edges path)
  let order ← .lift .cyclic (Graph.calleeFirst callees (edges.map (·.1)))
  return ⟨edges, order⟩

end Model

end CrateSafety
