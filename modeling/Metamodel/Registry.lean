import Metamodel.Blueprint
import Metamodel.Event
import Metamodel.Graph

/-!
# The registry

A registry holds the graph built so far, the names whose construction is under way, and the
events recorded. Every step of a compilation takes a registry and gives an `Outcome`: a result
and the registry after the step, also where the step fails.
-/

namespace Metamodel

/-- The state of a compilation. -/
structure Registry where
  graph : Graph := {}
  /-- The names whose construction waits for that of the ancestor after them. -/
  inProgress : List String := []
  events : List Event := []
  deriving DecidableEq, Repr

/-- The result of a step and the registry that it leaves. -/
structure Outcome (α : Type) where
  result : Except Violation α
  registry : Registry

/-- The outcome without what a success returns. -/
def Outcome.forget {α : Type} (outcome : Outcome α) : Outcome Unit where
  result := outcome.result.map fun _ => ()
  registry := outcome.registry

namespace Registry

/-- The registry with one more event. -/
def record (registry : Registry) (event : Event) : Registry :=
  { registry with events := registry.events ++ [event] }

/-- The registry while the construction of a name is under way. -/
def enter (registry : Registry) (name : String) : Registry :=
  { registry with inProgress := registry.inProgress ++ [name] }

/-- The registry after the construction entered last came to its end. -/
def leave (registry : Registry) : Registry :=
  { registry with inProgress := registry.inProgress.dropLast }

variable {α κ : Type}

/-- Runs a step for each item in order, up to the first that fails. -/
def forEach (step : κ → Registry → Outcome α) : List κ → Registry → Outcome Unit
  | [], registry => ⟨.ok (), registry⟩
  | item :: rest, registry =>
    match step item registry with
    | ⟨.ok _, after⟩ => forEach step rest after
    | ⟨.error violation, after⟩ => ⟨.error violation, after⟩

/-- Runs a step for each item in order, up to the first that fails, and tells whether some step
said yes. -/
def anyStep (step : κ → Registry → Outcome Bool) : List κ → Registry → Outcome Bool
  | [], registry => ⟨.ok false, registry⟩
  | item :: rest, registry =>
    match step item registry with
    | ⟨.error violation, after⟩ => ⟨.error violation, after⟩
    | ⟨.ok yes, after⟩ =>
      let outcome := anyStep step rest after
      ⟨outcome.result.map (yes || ·), outcome.registry⟩

end Registry

end Metamodel
