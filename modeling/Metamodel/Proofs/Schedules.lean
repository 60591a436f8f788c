import Metamodel.Proofs.Resolution.Development
import Metamodel.Proofs.Resolution.Rounds
import Metamodel.Proofs.WellFormed

/-!
# Schedules of steps

Rounds are one way of stepping properties; callers may step them one by one or type by type
instead, in any order and more than once. Where rounds would succeed, no such call fails, rounds
still succeed afterwards, and everything is settled as it would have been without the calls, but
for the rounds in which that happens (`Reachable.resolveRounds_confluent`). Each call keeps the
graph between the start and the goal of one `Graph.Development`, that of the rounds alone.
-/

namespace Metamodel

open Metamodel.Graph (Between Development)

namespace Registry

variable {start goal : Graph} {registry : Registry}

/-- A step stays on the way. -/
theorem resolveProperty_between (h : Development start goal) (round : Nat) (key : PropKey)
    (registry : Registry) (hbetween : Between start goal registry.graph) :
    ∃ yes after, resolveProperty round key registry = ⟨.ok yes, after⟩ ∧
      Between start goal after.graph := by
  have hstep := resolveProperty_step round key registry
  generalize resolveProperty round key registry = outcome at hstep ⊢
  cases hstep with
  | idle _ => exact ⟨_, _, rfl, hbetween⟩
  | waits _ _ _ => exact ⟨_, _, rfl, hbetween⟩
  | settles hkey hpending hattempt =>
    exact ⟨_, _, rfl, hbetween.settles h (Graph.mem_pending.2 ⟨_, hkey, hpending⟩)
      ⟨_, hkey, hattempt⟩ round⟩
  | fails hkey hpending hattempt =>
    exact absurd hattempt (hbetween.not_fails h hkey hpending _)

/-- So do the steps of all properties of a type. -/
theorem resolveType_between (h : Development start goal) (round : Nat) (key : TypeKey)
    (registry : Registry) (hbetween : Between start goal registry.graph) :
    ∃ yes after, resolveType round key registry = ⟨.ok yes, after⟩ ∧
      Between start goal after.graph :=
  anyStep_exists_ok (P := fun registry => Between start goal registry.graph)
    (resolveProperty_between h round) _ hbetween

/-- So do the steps of a round. -/
theorem resolveRound_between (h : Development start goal) (round : Nat)
    (hbetween : Between start goal registry.graph) :
    ∃ yes after, resolveRound round registry = ⟨.ok yes, after⟩ ∧
      Between start goal after.graph :=
  anyStep_exists_ok (P := fun registry => Between start goal registry.graph)
    (resolveType_between h round) _ hbetween

/-- Rounds succeed if there are at least as many as there are pending properties: each of them
settles one more, which is to be crossed off. -/
theorem roundsFrom_between (h : Development start goal) (bound : Nat) {remaining round : Nat}
    (hdeclared : start.types.flatMap (·.declared) = start.propKeys)
    (hbetween : Between start goal registry.graph) {waiting : List PropKey}
    (hwaiting : ∀ key ∈ registry.graph.pending, key ∈ waiting)
    (hlength : waiting.length ≤ remaining) :
    ∃ rounds after, registry.roundsFrom bound remaining round = ⟨.ok rounds, after⟩ ∧
      Between start goal after.graph := by
  induction remaining generalizing registry round waiting with
  | zero =>
    obtain rfl : waiting = [] := List.length_eq_zero_iff.1 (Nat.le_zero.1 hlength)
    have hnone : registry.graph.pending = [] := by
      simpa [List.eq_nil_iff_forall_not_mem] using hwaiting
    refine ⟨bound, registry, ?_, hbetween⟩
    rw [roundsFrom, unsettled?_eq_none_iff.2 hnone]
  | succ remaining ih =>
    obtain ⟨more, middle, hround, hmiddle⟩ := resolveRound_between h round hbetween
    obtain ⟨hresolves, -, hmore, hsettled⟩ :=
      resolveRound_ok (Graph.declared_congr hbetween.left.fresh_eq hdeclared) hround
    let finished := middle.record (.roundFinished round middle.graph.pending.length)
    simp only [roundsFrom, hround]
    cases more with
    | false => exact ⟨round, finished, rfl, hmiddle⟩
    | true =>
      -- something was pending before the round too, and some of it is settled now
      obtain ⟨key, hkey⟩ := List.exists_mem_of_ne_nil _ (hmore.1 rfl)
      have hne := List.ne_nil_of_mem (hresolves.advances.mem_pending hkey)
      obtain ⟨next, hnext, settlement, hyields⟩ := h.exists_yields hbetween hne
      have hfinished : Between start goal finished.graph := hmiddle
      have hfewer : ∀ key ∈ finished.graph.pending, key ∈ waiting.erase next := by
        intro other hother
        refine (List.mem_erase_of_ne ?_).2 (hwaiting other (hresolves.advances.mem_pending hother))
        rintro rfl
        exact hsettled other settlement hyields hother
      refine ih hfinished hfewer ?_
      rw [List.length_erase_of_mem (hwaiting next hnext)]
      omega

/-- Rounds succeed from anywhere on the way. -/
theorem resolveRounds_between (h : Development start goal)
    (hdeclared : start.types.flatMap (·.declared) = start.propKeys)
    (hbetween : Between start goal registry.graph) :
    ∃ rounds after, registry.resolveRounds = ⟨.ok rounds, after⟩ ∧
      Between start goal after.graph := by
  rw [resolveRounds]
  split
  · exact ⟨_, _, rfl, hbetween⟩
  · exact roundsFrom_between h _ hdeclared hbetween (fun _ hkey => hkey) (Nat.le_refl _)

end Registry

variable {source : Source} {config : Config} {registry : Registry} {start goal : Graph}

/-- Calls that step properties succeed and stay on the way. -/
theorem Command.runAll_between (h : Development start goal) {commands : List Command}
    (hsteps : ∀ command ∈ commands, command.isStep = true)
    (hbetween : Between start goal registry.graph) :
    ∃ after, Command.runAll source config commands registry = ⟨.ok (), after⟩ ∧
      Between start goal after.graph := by
  induction commands generalizing registry with
  | nil => exact ⟨registry, rfl, hbetween⟩
  | cons command rest ih =>
    have hrest : ∀ command ∈ rest, command.isStep = true :=
      fun other hother => hsteps other (List.mem_cons_of_mem _ hother)
    obtain ⟨middle, hrun, hmiddle⟩ : ∃ middle,
        command.run source config registry = ⟨.ok (), middle⟩ ∧
          Between start goal middle.graph := by
      have hstep := hsteps command List.mem_cons_self
      cases command with
      | resolveProperty key round =>
        obtain ⟨yes, after, hrun, hafter⟩ :=
          Registry.resolveProperty_between h round key registry hbetween
        exact ⟨after, by rw [run, hrun]; rfl, hafter⟩
      | resolveType key round =>
        obtain ⟨yes, after, hrun, hafter⟩ :=
          Registry.resolveType_between h round key registry hbetween
        exact ⟨after, by rw [run, hrun]; rfl, hafter⟩
      | resolve _ => cases hstep
      | resolveAll => cases hstep
      | linkTargets => cases hstep
      | resolveRounds => cases hstep
    obtain ⟨after, hafter, hbetween'⟩ := ih hrest hmiddle
    refine ⟨after, ?_, hbetween'⟩
    rw [runAll, Registry.forEach, hrun]
    exact hafter

/-- Where rounds succeed in a reachable registry, properties may be stepped one by one or type by
type before them, in any order, any number of times and under any round numbers: no step fails,
rounds succeed afterwards, and the graph is the same in the end but for the rounds in which its
properties were settled. -/
theorem Reachable.resolveRounds_confluent (h : Reachable source config registry) {rounds : Nat}
    (hrounds : registry.resolveRounds.result = .ok rounds) {commands : List Command}
    (hsteps : ∀ command ∈ commands, command.isStep = true) :
    ∃ after rounds', Command.runAll source config commands registry = ⟨.ok (), after⟩ ∧
      after.resolveRounds.result = .ok rounds' ∧
      after.resolveRounds.registry.graph.timeless =
        registry.resolveRounds.registry.graph.timeless := by
  have hdeclared := h.sound.realizes.declared
  have houtcome : registry.resolveRounds = ⟨.ok rounds, registry.resolveRounds.registry⟩ := by
    rw [← hrounds]
  obtain ⟨hproceeds, hpending⟩ := Registry.resolveRounds_ok hdeclared houtcome
  have hdevelopment : Development registry.graph registry.resolveRounds.registry.graph :=
    ⟨hproceeds, hpending⟩
  obtain ⟨after, hrun, hbetween⟩ :=
    Command.runAll_between hdevelopment hsteps (Between.of_start hdevelopment)
  obtain ⟨rounds', last, hlast, hbetween'⟩ :=
    Registry.resolveRounds_between hdevelopment hdeclared hbetween
  have hdeclared' := Graph.declared_congr hbetween.left.fresh_eq hdeclared
  refine ⟨after, rounds', hrun, by rw [hlast], ?_⟩
  rw [hlast]
  exact hbetween'.timeless_eq (Registry.resolveRounds_ok hdeclared' hlast).2

theorem Reachable.resolveRounds_confluent_orders :
    ∃ registry, Reachable orders {} registry ∧ registry.resolveRounds.result = .ok 2 ∧
      ∃ after rounds, Command.runAll orders {}
          [.resolveProperty ⟨1⟩ 7, .resolveType ⟨1⟩ 3, .resolveProperty ⟨2⟩ 0] registry =
            ⟨.ok (), after⟩ ∧
        after.resolveRounds.result = .ok rounds ∧
        after.resolveRounds.registry.graph.timeless =
          registry.resolveRounds.registry.graph.timeless := by
  have hreachable : LeadsTo orders {} {} _ := .step .linkTargets <| .step (.resolve "Order") .refl
  have hrounds : ((Registry.resolve orders {} "Order" {}).registry.linkTargets
      orders {}).registry.resolveRounds.result = .ok 2 := by decide +kernel
  exact ⟨_, hreachable, hrounds,
    Reachable.resolveRounds_confluent hreachable hrounds (by decide)⟩

end Metamodel
