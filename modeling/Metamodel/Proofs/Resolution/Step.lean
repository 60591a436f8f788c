import Metamodel.Proofs.Resolution.Agreement
import Metamodel.Proofs.Resolution.Attempt

/-!
# What a step does

`Registry.Step` lists what a step of a property can do, and `Graph.Advances` what it never
undoes: a property that is no longer pending stays as it is. A step that does not fail settles one
property, if any (`Step.proceeds`), and that keeps a graph healthy (`Proceeds.healthy`).
-/

namespace Metamodel

open Relation (ReflTransGen)

/-- The number of the round that an event reports as finished. -/
def Event.finishedRound? : Event → Option Nat
  | .roundFinished round _ => some round
  | _ => none

/-- The numbers of the rounds reported as finished. -/
def Registry.finishedRounds (registry : Registry) : List Nat :=
  registry.events.filterMap Event.finishedRound?

namespace Graph

variable {graph before after first second third : Graph} {prop : Property}

/-- Resolution goes on: nothing changes but how far it has come, and whatever is no longer
pending stays as it is. -/
structure Advances (before after : Graph) : Prop where
  fresh_eq : before.fresh = after.fresh
  kept : ∀ {key : PropKey} {prop : Property}, before.prop? key = some prop →
    prop.resolution ≠ .pending → after.prop? key = some prop

namespace Advances

theorem refl (graph : Graph) : graph.Advances graph :=
  ⟨rfl, fun hkey _ => hkey⟩

theorem trans (h : first.Advances second) (h' : second.Advances third) :
    first.Advances third :=
  ⟨h.fresh_eq.trans h'.fresh_eq, fun hkey hne => h'.kept (h.kept hkey hne) hne⟩

/-- A property that is pending can be given any resolution. -/
theorem setResolution {key : PropKey} (hpending : key ∈ graph.pending)
    (resolution : Resolution) : graph.Advances (graph.setResolution key resolution) where
  fresh_eq := by simp
  kept := by
    intro other prop hother hne
    have hdistinct : key ≠ other := by
      rintro rfl
      exact hne ((mem_pending_iff hother).1 hpending)
    rwa [prop?_setResolution, if_neg hdistinct]

/-- Where nothing is pending there is what was there before. -/
theorem prop?_eq (h : before.Advances after) {key : PropKey} (hkey : key ∉ before.pending) :
    after.prop? key = before.prop? key := by
  cases hprop : before.prop? key with
  | none =>
    cases hprop' : after.prop? key with
    | none => rfl
    | some prop' =>
      obtain ⟨prop, hsome, -⟩ := exists_prop?_of_fresh h.fresh_eq.symm hprop'
      rw [hprop] at hsome
      cases hsome
  | some prop => exact h.kept hprop ((mem_pending_iff hprop).not.1 hkey)

/-- Whatever was settled before is settled to the same. -/
theorem below (h : before.Advances after) : before.Below after where
  fresh_eq := h.fresh_eq
  kept hkey := by rw [prop?_timeless, prop?_timeless, h.prop?_eq hkey]

/-- What is pending was pending before. -/
theorem mem_pending (h : before.Advances after) {key : PropKey} (hkey : key ∈ after.pending) :
    key ∈ before.pending :=
  h.below.mem_pending hkey

end Advances

/-- Types declare what they declare, whatever is settled. -/
theorem declared_congr (hfresh : before.fresh = after.fresh)
    (h : before.types.flatMap (·.declared) = before.propKeys) :
    after.types.flatMap (·.declared) = after.propKeys := by
  rw [← types_eq_of_fresh hfresh, ← propKeys_congr hfresh, h]

theorem Regular.congr (h : graph.Regular) (hfresh : graph.fresh = after.fresh) :
    after.Regular where
  toIndexed := h.toIndexed.congr hfresh
  declared := declared_congr hfresh h.declared
  names_nodup owner := by
    rw [← mergedProps_congr hfresh, ← label_congr hfresh]
    exact h.names_nodup owner
  reference hkey := by
    obtain ⟨prop', hprop', hsame⟩ := exists_prop?_of_fresh hfresh.symm hkey
    have hreference := h.reference hprop'
    rw [show prop'.reference = _ from congrArg (·.reference) hsame,
      show prop'.type = _ from congrArg (·.type) hsame, find?_congr hfresh] at hreference
    exact hreference

/-- Settling what is ready to what it has to settle to keeps a graph healthy. -/
theorem Healthy.setResolution (h : graph.Healthy) {key : PropKey}
    (hkey : graph.prop? key = some prop) (round : Nat) {settlement : Settlement}
    (hsettles : graph.Settles prop settlement)
    (hready : ∀ dependency ∈ settlement.dependencies, graph.ready dependency.segments = true) :
    (graph.setResolution key
      (.resolved round settlement.target settlement.dependencies)).Healthy where
  regular := h.regular.congr (by simp)
  settled := by
    intro other prop' hother
    have hfresh : graph.fresh = (graph.setResolution key
        (.resolved round settlement.target settlement.dependencies)).fresh := by simp
    rw [prop?_setResolution] at hother
    split at hother
    · next hsame =>
      subst hsame
      rw [hkey, Option.map_some, Option.some.injEq] at hother
      subst hother
      refine .inr ⟨round, settlement.target, settlement.dependencies, rfl, ?_, ?_⟩
      · refine Settles.congr hfresh ?_ hsettles
        rfl
      · exact (h.grounded_of_ready ⟨prop, settlement, hkey, hsettles, hready⟩).congr hfresh
    · refine (h.settled hother).imp_right ?_
      rintro ⟨round', target, dependencies, hresolved, hsettles', hgrounded⟩
      exact ⟨round', target, dependencies, hresolved, hsettles'.congr hfresh rfl,
        hgrounded.congr hfresh⟩

/-- What is ready has something to settle to and need not wait for it. -/
theorem Healthy.exists_yields (h : graph.Healthy) {key : PropKey} (hready : graph.Ready key) :
    ∃ settlement, graph.Yields key settlement := by
  obtain ⟨prop, settlement, hprop, hsettles, hall⟩ := hready
  refine ⟨settlement, prop, hprop, ?_⟩
  rw [h.attempt_eq hprop hsettles, if_pos (by simpa using hall)]

/-- One pending property is settled to what an attempt at it gives. -/
inductive Proceeds (before : Graph) : Graph → Prop where
  | settles {key : PropKey} {settlement : Settlement} (round : Nat) :
    key ∈ before.pending →
    before.Yields key settlement →
    Proceeds before
      (before.setResolution key (.resolved round settlement.target settlement.dependencies))

theorem Proceeds.advances (h : before.Proceeds after) : before.Advances after := by
  cases h with
  | settles round hpending _ => exact .setResolution hpending _

/-- Settling one property keeps a graph healthy. -/
theorem Proceeds.healthy (h : before.Proceeds after) (hhealthy : before.Healthy) :
    after.Healthy := by
  cases h with
  | settles round _ hyields =>
    obtain ⟨prop, hprop, hattempt⟩ := hyields
    obtain ⟨hsettles, hready⟩ := hhealthy.settles_of_attempt hprop hattempt
    exact hhealthy.setResolution hprop round hsettles hready

theorem advances_of_proceeds (h : ReflTransGen Proceeds before after) :
    before.Advances after := by
  induction h with
  | refl => exact .refl _
  | tail _ hproceeds ih => exact ih.trans hproceeds.advances

theorem healthy_of_proceeds (h : ReflTransGen Proceeds before after) (hhealthy : before.Healthy) :
    after.Healthy := by
  induction h with
  | refl => exact hhealthy
  | tail _ hproceeds ih => exact hproceeds.healthy ih

end Graph

namespace Registry

variable {registry first second third : Registry} {round : Nat} {key : PropKey}

/-- What a step of the property at a key in a round can do. -/
inductive Step (round : Nat) (key : PropKey) (registry : Registry) : Outcome Bool → Prop where
  | idle : key ∉ registry.graph.pending → Step round key registry ⟨.ok false, registry⟩
  | waits {prop : Property} :
    registry.graph.prop? key = some prop →
    prop.resolution = .pending →
    registry.graph.attempt prop = .ok none →
    Step round key registry ⟨.ok true, registry⟩
  | settles {prop : Property} {settlement : Settlement} :
    registry.graph.prop? key = some prop →
    prop.resolution = .pending →
    registry.graph.attempt prop = .ok (some settlement) →
    Step round key registry ⟨.ok false,
      (registry.setResolution key
        (.resolved round settlement.target settlement.dependencies)).record
          (.propertyResolved (registry.graph.label key) prop.kind round)⟩
  | fails {prop : Property} {fault : Fault} :
    registry.graph.prop? key = some prop →
    prop.resolution = .pending →
    registry.graph.attempt prop = .error fault →
    Step round key registry ⟨.error (.ofMember (registry.graph.label key).owner
      (registry.graph.label key).name fault),
      registry.setResolution key (.failed (some round))⟩

/-- A step does one of these things. -/
theorem resolveProperty_step (round : Nat) (key : PropKey) (registry : Registry) :
    Step round key registry (resolveProperty round key registry) := by
  rw [resolveProperty]
  cases hkey : registry.graph.prop? key with
  | none => exact .idle (by simp [Graph.mem_pending, hkey])
  | some prop =>
    by_cases hpending : prop.resolution = .pending
    · simp only [hpending, Resolution.isPending, Bool.not_true, Bool.false_eq_true, ↓reduceIte]
      split
      · next hattempt => exact .waits hkey hpending hattempt
      · next settlement hattempt => exact .settles hkey hpending hattempt
      · next fault hattempt => exact .fails hkey hpending hattempt
    · have hidle : key ∉ registry.graph.pending := by simp [Graph.mem_pending, hkey, hpending]
      have hsettled : prop.resolution.isPending = false := by
        cases h : prop.resolution <;> simp_all [Resolution.isPending]
      simp only [hsettled, Bool.not_false, ↓reduceIte]
      exact .idle hidle

/-- Resolution of the properties at some keys: the others stay as they are, and no round comes to
its end. -/
structure Resolves (keys : List PropKey) (before after : Registry) : Prop where
  advances : before.graph.Advances after.graph
  elsewhere : ∀ key ∉ keys, after.graph.prop? key = before.graph.prop? key
  finishedRounds_eq : after.finishedRounds = before.finishedRounds

theorem Resolves.refl (keys : List PropKey) (registry : Registry) :
    Resolves keys registry registry :=
  ⟨.refl _, fun _ _ => rfl, rfl⟩

theorem Resolves.append {keys keys' : List PropKey} (h : Resolves keys first second)
    (h' : Resolves keys' second third) : Resolves (keys ++ keys') first third where
  advances := h.advances.trans h'.advances
  elsewhere key hkey := by
    rw [List.mem_append, not_or] at hkey
    rw [h'.elsewhere key hkey.2, h.elsewhere key hkey.1]
  finishedRounds_eq := h'.finishedRounds_eq.trans h.finishedRounds_eq

/-- A pending property can be given any resolution. -/
theorem Resolves.setResolution (hpending : key ∈ registry.graph.pending)
    (resolution : Resolution) :
    Resolves [key] registry (registry.setResolution key resolution) where
  advances := .setResolution hpending resolution
  elsewhere other hother := by
    rw [List.mem_singleton] at hother
    exact (Graph.prop?_setResolution ..).trans (if_neg (Ne.symm hother))
  finishedRounds_eq := rfl

/-- An event other than the end of a round goes unnoticed. -/
theorem Resolves.record {keys : List PropKey} {event : Event} (h : Resolves keys first second)
    (hevent : event.finishedRound? = none) : Resolves keys first (second.record event) where
  advances := h.advances
  elsewhere := h.elsewhere
  finishedRounds_eq := by
    rw [← h.finishedRounds_eq]
    simp [finishedRounds, Registry.record, hevent]

namespace Step

variable {outcome : Outcome Bool}

theorem resolves (h : Step round key registry outcome) :
    Resolves [key] registry outcome.registry := by
  cases h with
  | idle _ => exact .refl _ _
  | waits _ _ _ => exact .refl _ _
  | settles hkey hpending _ =>
    exact (Resolves.setResolution (Graph.mem_pending.2 ⟨_, hkey, hpending⟩) _).record rfl
  | fails hkey hpending _ => exact .setResolution (Graph.mem_pending.2 ⟨_, hkey, hpending⟩) _

/-- After a step the property is pending exactly when the step says so. -/
theorem eq_pending {yes : Bool} (h : Step round key registry outcome)
    (hresult : outcome.result = .ok yes) : yes = true ↔ key ∈ outcome.registry.graph.pending := by
  cases h with
  | idle hidle =>
    cases hresult
    simpa using hidle
  | waits hkey hpending _ =>
    cases hresult
    simpa using Graph.mem_pending.2 ⟨_, hkey, hpending⟩
  | settles hkey hpending _ =>
    cases hresult
    simp [Graph.mem_pending, setResolution, record, Graph.prop?_setResolution, hkey]
  | fails _ _ _ => cases hresult

/-- A step that does not fail settles one property, or nothing. -/
theorem proceeds {yes : Bool} (h : Step round key registry outcome)
    (hresult : outcome.result = .ok yes) :
    ReflTransGen Graph.Proceeds registry.graph outcome.registry.graph := by
  cases h with
  | idle _ => exact .refl
  | waits _ _ _ => exact .refl
  | settles hkey hpending hattempt =>
    exact .single (.settles round (Graph.mem_pending.2 ⟨_, hkey, hpending⟩) ⟨_, hkey, hattempt⟩)
  | fails _ _ _ => cases hresult

/-- The step of a property that has something to settle to does not fail. -/
theorem exists_ok (h : Step round key registry outcome) (hhealthy : registry.graph.Healthy)
    (hall : registry.graph.Settleable) :
    ∃ yes, outcome.result = .ok yes := by
  cases h with
  | idle _ => exact ⟨_, rfl⟩
  | waits _ _ _ => exact ⟨_, rfl⟩
  | settles _ _ _ => exact ⟨_, rfl⟩
  | fails hkey _ hattempt =>
    obtain ⟨settlement, hsettles⟩ := hall _ (List.mem_of_getElem? hkey)
    rw [hhealthy.attempt_eq hkey hsettles] at hattempt
    cases hattempt

/-- The step of a property that has something to settle to now leaves it settled. -/
theorem settled_of_yields (h : Step round key registry outcome) {settlement : Settlement}
    (hyields : registry.graph.Yields key settlement) :
    key ∉ outcome.registry.graph.pending := by
  obtain ⟨prop, hprop, hattempt⟩ := hyields
  cases h with
  | idle hidle => exact hidle
  | waits hkey _ hwaits =>
    obtain rfl := Option.some.inj (hkey.symm.trans hprop)
    cases hattempt.symm.trans hwaits
  | settles hkey _ _ =>
    simp [Graph.mem_pending, setResolution, record, Graph.prop?_setResolution, hkey]
  | fails hkey _ hfails =>
    obtain rfl := Option.some.inj (hkey.symm.trans hprop)
    cases hattempt.symm.trans hfails

end Step

end Registry

end Metamodel
