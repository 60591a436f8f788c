import Metamodel.Registry

/-!
# Resolution of properties

Properties are settled in rounds. A round steps every pending property once, in the order of
registration, and each step sees what the steps before it settled. `attempt` is one step seen
from the graph alone; `Registry.resolveRounds` runs rounds until nothing is pending, but no more
of them than there were pending properties at the start: if that is not enough, some expressions
wait for each other.
-/

namespace Metamodel

/-- What a settled property is settled to. -/
structure Settlement where
  target : Option TypeKey := none
  dependencies : List PropPath := []
  deriving DecidableEq, Repr

namespace Graph

/-- The property of a type that a segment names, for a dependency of which `path` is the whole
text; a fault if there is none. -/
def dependencyAt (graph : Graph) (path : String) (owner : TypeKey) (segment : String) :
    Except Fault PropKey :=
  match graph.findProp? owner segment with
  | some key => .ok key
  | none => .error (.unknownDependency path segment (graph.typeName owner))

/-- Whether the last segment of a dependency has to wait for the property it names. -/
def awaitsAtEnd (graph : Graph) (key : PropKey) : Bool :=
  (graph.prop? key).any fun prop => prop.kind.isExpression && !prop.resolution.isResolved

/-- Whether an inner segment of a dependency has to wait for the property it names. -/
def awaitsOnTheWay (graph : Graph) (key : PropKey) : Bool :=
  (graph.prop? key).any (·.resolution.isPending)

/-- Follows the segments of a dependency from a type on. The result is absent while a property on
the way is pending, or the one at the end is an expression that is not settled. -/
def walkDependency (graph : Graph) (path : String) (owner : TypeKey) :
    List String → Except Fault (Option (List PropKey))
  | [] => .ok (some [])
  | segment :: rest =>
    match graph.dependencyAt path owner segment with
    | .error fault => .error fault
    | .ok key =>
      if rest = [] then
        .ok (if graph.awaitsAtEnd key then none else some [key])
      else if graph.awaitsOnTheWay key then .ok none
      else
        match graph.target? key with
        | none => .error (.impassableDependency path segment)
        | some target => (graph.walkDependency path target rest).map (Option.map (key :: ·))

/-- The dependencies at the ends of the paths of an expression. The result is absent as soon as
one of them has to wait. -/
def followDependencies (graph : Graph) (owner : TypeKey) :
    List String → Except Fault (Option (List PropPath))
  | [] => .ok (some [])
  | path :: rest =>
    match graph.walkDependency path owner (Text.splitDots path) with
    | .error fault => .error fault
    | .ok none => .ok none
    | .ok (some segments) =>
      (graph.followDependencies owner rest).map (Option.map (⟨path, segments⟩ :: ·))

/-- The registered type that a property refers to. -/
def linkedType? (graph : Graph) (prop : Property) : Except Fault (Option TypeNode) :=
  match prop.reference with
  | none => .ok none
  | some name =>
    match graph.find? name with
    | some type => .ok (some type)
    | none => .error (.unregistered name)

/-- What a plain property links to: an embeddable, or nothing. -/
def settleScalar (graph : Graph) (prop : Property) : Except Fault Settlement := do
  let linked ← graph.linkedType? prop
  return { target := (linked.filter (·.category = .embeddable)).map (·.key) }

/-- What an association links to: an entity. -/
def settleAssociation (graph : Graph) (prop : Property) : Except Fault Settlement := do
  match ← graph.linkedType? prop with
  | none => throw .unlinked
  | some type =>
    if type.category = .entity then return { target := some type.key }
    else throw (.targetNotEntity type.qualifiedName type.category)

/-- What a property settles to in the present state of the graph, absent if it has to wait. -/
def attempt (graph : Graph) (prop : Property) : Except Fault (Option Settlement) :=
  match prop.kind with
  | .sql _ => .ok (some {})
  | .scalar => (graph.settleScalar prop).map some
  | .association => (graph.settleAssociation prop).map some
  | .expression paths =>
    (graph.followDependencies prop.declaringType paths).map
      (Option.map fun dependencies => { dependencies })

end Graph

namespace Registry

/-- The registry with another resolution for the property at a key. -/
def setResolution (registry : Registry) (key : PropKey) (resolution : Resolution) : Registry :=
  { registry with graph := registry.graph.setResolution key resolution }

/-- Steps the property at a key in a round and tells whether it is still pending. A property that
is not pending stays as it is. -/
def resolveProperty (round : Nat) (key : PropKey) (registry : Registry) : Outcome Bool :=
  match registry.graph.prop? key with
  | none => ⟨.ok false, registry⟩
  | some prop =>
    if !prop.resolution.isPending then ⟨.ok false, registry⟩
    else
      match registry.graph.attempt prop with
      | .ok none => ⟨.ok true, registry⟩
      | .ok (some settlement) =>
        let settled := registry.setResolution key
          (.resolved round settlement.target settlement.dependencies)
        ⟨.ok false, settled.record
          (.propertyResolved (registry.graph.label key) prop.kind round)⟩
      | .error fault =>
        let label := registry.graph.label key
        ⟨.error (.ofMember label.owner label.name fault),
          registry.setResolution key (.failed (some round))⟩

/-- Steps every property that a type declares and tells whether some are still pending. -/
def resolveType (round : Nat) (key : TypeKey) (registry : Registry) : Outcome Bool :=
  anyStep (resolveProperty round) (((registry.graph.type? key).map (·.declared)).getD []) registry

/-- Steps every property once and tells whether some are still pending. -/
def resolveRound (round : Nat) (registry : Registry) : Outcome Bool :=
  anyStep (resolveType round) registry.graph.typeKeys registry

/-- The registry with every pending property failed for want of a round. -/
def giveUp (registry : Registry) : Registry :=
  registry.graph.pending.foldl (fun registry key => registry.setResolution key (.failed none))
    registry

/-- The violation of the properties that no round has settled: the first of them takes the
blame. -/
def unsettled? (bound : Nat) (graph : Graph) : Option Violation :=
  graph.pending.head?.map fun key =>
    let label := graph.label key
    .ofMember label.owner label.name (.unsettled bound (graph.pending.map graph.label))

/-- Runs up to `remaining` rounds, the first of them numbered `round`, until one leaves nothing
pending, and gives the number of the last. -/
def roundsFrom (bound : Nat) : (remaining round : Nat) → Registry → Outcome Nat
  | 0, _, registry =>
    match unsettled? bound registry.graph with
    | none => ⟨.ok bound, registry⟩
    | some violation => ⟨.error violation, registry.giveUp⟩
  | remaining + 1, round, registry =>
    match registry.resolveRound round with
    | ⟨.error violation, after⟩ => ⟨.error violation, after⟩
    | ⟨.ok more, after⟩ =>
      let finished := after.record (.roundFinished round after.graph.pending.length)
      if more then roundsFrom bound remaining (round + 1) finished else ⟨.ok round, finished⟩

/-- Runs rounds until nothing is pending and gives their number. -/
def resolveRounds (registry : Registry) : Outcome Nat :=
  let bound := registry.graph.pending.length
  if bound = 0 then ⟨.ok 0, registry⟩ else roundsFrom bound bound 1 registry

end Registry

end Metamodel
