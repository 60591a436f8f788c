import Metamodel.Proofs.Calls

/-!
# The numbers of rounds

A step is told the number of its round, and a property that leaves the pending state in the step
gets that number, whether it is settled or fails. So whatever consists of steps of one round
`Registry.Numbers` what leaves the pending state in it: the steps of some properties, of a type
(`resolveType_numbers`), and of all types, which is a round (`resolveRound_numbers`).
-/

namespace Metamodel

namespace Registry

open Relation (ReflTransGen)

variable {registry after first second third : Registry} {round : Nat} {key : PropKey}
  {outcome : Outcome Bool}

/-- Resolution goes on in a round, and whatever leaves the pending state gets its number. -/
structure Numbers (round : Nat) (before after : Registry) : Prop where
  advances : before.graph.Advances after.graph
  round?_eq : ∀ {key : PropKey} {prop : Property}, key ∈ before.graph.pending →
    after.graph.prop? key = some prop → prop.resolution ≠ .pending →
    prop.resolution.round? = some round

namespace Numbers

theorem refl (round : Nat) (registry : Registry) : Numbers round registry registry where
  advances := .refl _
  round?_eq hbefore hkey hne := absurd ((Graph.mem_pending_iff hkey).1 hbefore) hne

theorem trans (h : Numbers round first second) (h' : Numbers round second third) :
    Numbers round first third where
  advances := h.advances.trans h'.advances
  round?_eq := by
    intro key prop hbefore hkey hne
    by_cases hmiddle : key ∈ second.graph.pending
    · exact h'.round?_eq hmiddle hkey hne
    · -- it has left before, and is kept
      rw [h'.advances.prop?_eq hmiddle] at hkey
      exact h.round?_eq hbefore hkey hne

instance : Std.Refl (Numbers round) := ⟨refl round⟩

instance : IsTrans Registry (Numbers round) := ⟨fun _ _ _ => trans⟩

theorem record (h : Numbers round first second) (event : Event) :
    Numbers round first (second.record event) :=
  ⟨h.advances, h.round?_eq⟩

/-- A pending property can be given any resolution of the round. -/
theorem setResolution (hpending : key ∈ registry.graph.pending) {resolution : Resolution}
    (hround : resolution.round? = some round) :
    Numbers round registry (registry.setResolution key resolution) where
  advances := .setResolution hpending resolution
  round?_eq := by
    intro other prop hbefore hother hne
    rw [Registry.setResolution, Graph.prop?_setResolution] at hother
    split at hother
    · obtain ⟨_, -, rfl⟩ := Option.map_eq_some_iff.1 hother
      exact hround
    · exact (refl round registry).round?_eq hbefore hother hne

/-- What leaves the pending state in a round has its number afterwards. -/
theorem exists_prop? (h : Numbers round registry after) (hbefore : key ∈ registry.graph.pending)
    (hafter : key ∉ after.graph.pending) :
    ∃ prop, after.graph.prop? key = some prop ∧ prop.resolution.round? = some round := by
  obtain ⟨_, hkey, -⟩ := Graph.mem_pending.1 hbefore
  obtain ⟨prop, hprop, -⟩ := Graph.exists_prop?_of_fresh h.advances.fresh_eq hkey
  exact ⟨prop, hprop, h.round?_eq hbefore hprop ((Graph.mem_pending_iff hprop).not.1 hafter)⟩

end Numbers

/-- A step gives the number of its round to the property, if that leaves the pending state. -/
theorem Step.numbers (hstep : Step round key registry outcome) :
    Numbers round registry outcome.registry := by
  cases hstep with
  | idle _ | waits _ _ _ => exact .refl round registry
  | settles hkey hpending _ =>
    exact .record (.setResolution (Graph.mem_pending.2 ⟨_, hkey, hpending⟩) rfl) _
  | fails hkey hpending _ => exact .setResolution (Graph.mem_pending.2 ⟨_, hkey, hpending⟩) rfl

theorem resolveProperty_numbers (round : Nat) (key : PropKey) (registry : Registry) :
    Numbers round registry (resolveProperty round key registry).registry :=
  (resolveProperty_step round key registry).numbers

/-- Where each step numbers what leaves the pending state, so do steps one after the other. -/
theorem anyStep_numbers {κ : Type} {step : κ → Registry → Outcome Bool}
    (hstep : ∀ item registry, Numbers round registry (step item registry).registry)
    (items : List κ) (registry : Registry) :
    Numbers round registry (anyStep step items registry).registry := by
  have hsteps : ReflTransGen (Numbers round) registry (anyStep step items registry).registry :=
    anyStep_moves (fun item registry => .single (hstep item registry)) items registry
  rwa [Relation.reflTransGen_eq_self] at hsteps

theorem resolveType_numbers (round : Nat) (key : TypeKey) (registry : Registry) :
    Numbers round registry (resolveType round key registry).registry :=
  anyStep_numbers (resolveProperty_numbers round) _ registry

theorem resolveRound_numbers (round : Nat) (registry : Registry) :
    Numbers round registry (resolveRound round registry).registry :=
  anyStep_numbers (resolveType_numbers round) _ registry

end Registry

end Metamodel
