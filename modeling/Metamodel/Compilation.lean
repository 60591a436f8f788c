import Metamodel.Registry.Registration
import Metamodel.Registry.Resolution

/-!
# Compilation

A compilation registers every declaration of a source, then what their properties refer to, and
then settles all properties. It gives a `Model` or the first violation, and the events either
way. `Command` is one call on a registry; `LeadsTo` relates a registry to those that further calls
can make of it, and `Reachable` holds of those that calls can make of the empty one.
-/

namespace Metamodel

/-- A compiled source: the graph and the number of rounds that it took to settle. -/
structure Model where
  graph : Graph
  rounds : Nat
  deriving DecidableEq, Repr

/-- The result of a compilation and what it reported. -/
structure Compilation where
  result : Except Violation Model
  events : List Event

namespace Compilation

/-- Registers, links and settles everything, up to the first violation. -/
def settle (source : Source) (config : Config) : Outcome Nat :=
  match Registry.resolveAll source config {} with
  | ⟨.error violation, after⟩ => ⟨.error violation, after⟩
  | ⟨.ok (), registered⟩ =>
    match registered.linkTargets source config with
    | ⟨.error violation, after⟩ => ⟨.error violation, after⟩
    | ⟨.ok (), linked⟩ => linked.resolveRounds

/-- The event that ends a compilation. -/
def lastEvent : Except Violation Model → Event
  | .ok model =>
    .compileFinished model.graph.types.length model.graph.props.length model.rounds
  | .error violation => .compileFailed violation.diagnostic.cls violation.diagnostic.text

/-- Compiles a source. -/
def run (source : Source) (config : Config) : Compilation :=
  let outcome := settle source config
  let result := outcome.result.map fun rounds => { graph := outcome.registry.graph, rounds }
  { result, events := outcome.registry.events ++ [lastEvent result] }

end Compilation

/-- The model of a source, or the first violation. -/
def compile (source : Source) (config : Config) : Except Violation Model :=
  (Compilation.run source config).result

/-- One call on a registry. -/
inductive Command where
  | resolve (name : String)
  | resolveAll
  | linkTargets
  | resolveProperty (key : PropKey) (round : Nat)
  | resolveType (key : TypeKey) (round : Nat)
  | resolveRounds
  deriving DecidableEq, Repr

namespace Command

/-- Makes a call and forgets what it returns, but not its violation. -/
def run (source : Source) (config : Config) (registry : Registry) : Command → Outcome Unit
  | .resolve name => (registry.resolve source config name).forget
  | .resolveAll => registry.resolveAll source config
  | .linkTargets => registry.linkTargets source config
  | .resolveProperty key round => (registry.resolveProperty round key).forget
  | .resolveType key round => (registry.resolveType round key).forget
  | .resolveRounds => registry.resolveRounds.forget

/-- Whether the call steps properties one by one: it registers nothing and runs no rounds. -/
def isStep : Command → Bool
  | .resolveProperty .. | .resolveType .. => true
  | _ => false

/-- Makes calls in order, up to the first that fails. -/
def runAll (source : Source) (config : Config) (commands : List Command)
    (registry : Registry) : Outcome Unit :=
  Registry.forEach (fun command registry => command.run source config registry) commands registry

end Command

/-- The registries that calls, failing ones included, can lead to from a given one on. -/
inductive LeadsTo (source : Source) (config : Config) (start : Registry) : Registry → Prop where
  | refl : LeadsTo source config start start
  | step {registry : Registry} (command : Command) :
      LeadsTo source config start registry →
      LeadsTo source config start (command.run source config registry).registry

/-- What a registry leads to leads on from there. -/
theorem LeadsTo.trans {source : Source} {config : Config} {first second third : Registry}
    (before : LeadsTo source config first second) (after : LeadsTo source config second third) :
    LeadsTo source config first third := by
  induction after with
  | refl => exact before
  | step command _ ih => exact .step command ih

/-- The registries that calls can lead to from the empty one on. -/
def Reachable (source : Source) (config : Config) (registry : Registry) : Prop :=
  LeadsTo source config {} registry

end Metamodel
