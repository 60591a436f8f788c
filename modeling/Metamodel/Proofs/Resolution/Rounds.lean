import Metamodel.Proofs.Resolution.Step

/-!
# Rounds

A round that does not fail tells truly whether something is still pending, and settles whatever
was ready when it began (`resolveRound_ok`). As long as something grounded is pending, something
is ready; so with as many rounds as there are properties, what stays pending is what is not
grounded (`roundsFrom_ends`).
-/

namespace Metamodel

open Relation (ReflTransGen)

namespace Registry

variable {registry : Registry} {round : Nat}

/-! ### One round -/

/-- The steps of two lists are those of the first and then those of the second. -/
theorem anyStep_append {κ : Type} (step : κ → Registry → Outcome Bool) (items rest : List κ)
    (registry : Registry) :
    anyStep step (items ++ rest) registry =
      match anyStep step items registry with
      | ⟨.error violation, after⟩ => ⟨.error violation, after⟩
      | ⟨.ok yes, after⟩ =>
        ⟨(anyStep step rest after).result.map (yes || ·), (anyStep step rest after).registry⟩ := by
  induction items generalizing registry with
  | nil =>
    simp only [List.nil_append, anyStep, Bool.false_or]
    cases hrest : anyStep step rest registry with
    | mk result after => cases result <;> rfl
  | cons item items ih =>
    simp only [List.cons_append, anyStep]
    cases step item registry with
    | mk result middle =>
      cases result with
      | error violation => rfl
      | ok yes =>
        dsimp only
        rw [ih]
        cases anyStep step items middle with
        | mk result after =>
          cases result with
          | error violation => rfl
          | ok yes' =>
            dsimp only
            cases hrest : (anyStep step rest after).result <;>
              simp [hrest, Except.map, Bool.or_assoc]

/-- Steps of some properties leave the others alone. -/
theorem anyStep_resolves (round : Nat) (keys : List PropKey) (registry : Registry) :
    Resolves keys registry (anyStep (resolveProperty round) keys registry).registry := by
  induction keys generalizing registry with
  | nil => exact .refl _ _
  | cons key keys ih =>
    have hstep := (resolveProperty_step round key registry).resolves
    rw [anyStep]
    cases houtcome : resolveProperty round key registry with
    | mk result middle =>
      rw [houtcome] at hstep
      cases result with
      | error violation => exact hstep.append (.refl keys middle)
      | ok yes => exact hstep.append (ih middle)

/-- Steps that do not fail settle properties one by one, tell truly whether something is still
pending, and settle whatever had something to settle to when they began. -/
theorem anyStep_ok {keys : List PropKey} (hnodup : keys.Nodup) {yes : Bool} {after : Registry}
    (h : anyStep (resolveProperty round) keys registry = ⟨.ok yes, after⟩) :
    ReflTransGen Graph.Proceeds registry.graph after.graph ∧
      (yes = true ↔ ∃ key ∈ keys, key ∈ after.graph.pending) ∧
      ∀ key ∈ keys, ∀ settlement, registry.graph.Yields key settlement →
        key ∉ after.graph.pending := by
  induction keys generalizing registry yes with
  | nil =>
    cases h
    exact ⟨.refl, by simp, by simp⟩
  | cons key keys ih =>
    obtain ⟨hkey, hnodup⟩ := List.nodup_cons.1 hnodup
    have hstep := resolveProperty_step round key registry
    rw [anyStep] at h
    cases houtcome : resolveProperty round key registry with
    | mk result middle =>
      rw [houtcome] at h hstep
      cases result with
      | error violation => cases h
      | ok first =>
        have hrest := anyStep_resolves round keys middle
        cases hothers : anyStep (resolveProperty round) keys middle with
        | mk result after' =>
          rw [hothers] at hrest
          simp only [hothers, Outcome.mk.injEq, Except.map_eq_ok_iff] at h
          obtain ⟨⟨others, rfl, rfl⟩, rfl⟩ := h
          obtain ⟨hproceeds, hpending, hsettled⟩ := ih hnodup hothers
          -- the later steps do not touch the first property
          have hfirst : key ∈ after'.graph.pending ↔ key ∈ middle.graph.pending := by
            rw [Graph.mem_pending, Graph.mem_pending, hrest.elsewhere key hkey]
          refine ⟨(hstep.proceeds rfl).trans hproceeds, ?_, ?_⟩
          · simp only [Bool.or_eq_true, hpending, hstep.eq_pending rfl, List.mem_cons,
              exists_eq_or_imp, hfirst]
          · intro other hother settlement hyields
            rcases List.mem_cons.1 hother with rfl | hother
            · rw [hfirst]
              exact hstep.settled_of_yields hyields
            · exact hsettled other hother settlement
                (hstep.resolves.advances.below.yields hyields)

/-- Where each step succeeds and keeps an invariant, so do steps one after the other. -/
theorem anyStep_exists_ok {κ : Type} {step : κ → Registry → Outcome Bool} {P : Registry → Prop}
    (hstep : ∀ item registry, P registry →
      ∃ yes after, step item registry = ⟨.ok yes, after⟩ ∧ P after)
    (items : List κ) (h : P registry) :
    ∃ yes after, anyStep step items registry = ⟨.ok yes, after⟩ ∧ P after := by
  induction items generalizing registry with
  | nil => exact ⟨_, _, rfl, h⟩
  | cons item items ih =>
    obtain ⟨yes, middle, houtcome, hmiddle⟩ := hstep item registry h
    obtain ⟨others, after, hothers, hafter⟩ := ih hmiddle
    refine ⟨yes || others, after, ?_, hafter⟩
    simp only [anyStep, houtcome, hothers, Except.map]

/-- The properties that types declare are stepped type by type. -/
theorem anyStep_resolveType (round : Nat) (keys : List TypeKey) (registry : Registry) :
    anyStep (resolveType round) keys registry =
      anyStep (resolveProperty round)
        (keys.flatMap fun key => ((registry.graph.type? key).map (·.declared)).getD [])
        registry := by
  induction keys generalizing registry with
  | nil => rfl
  | cons key keys ih =>
    rw [List.flatMap_cons, anyStep_append, anyStep]
    have hresolves := anyStep_resolves round
      (((registry.graph.type? key).map (·.declared)).getD []) registry
    rw [resolveType]
    cases houtcome : anyStep (resolveProperty round)
        (((registry.graph.type? key).map (·.declared)).getD []) registry with
    | mk result middle =>
      rw [houtcome] at hresolves
      cases result with
      | error violation => rfl
      | ok yes => simp only [ih middle, ← Graph.type?_congr hresolves.advances.fresh_eq]

/-- A round comes to properties in this order: type by type, as the types declare them. -/
def roundOrder (registry : Registry) : List PropKey :=
  registry.graph.typeKeys.flatMap fun key =>
    ((registry.graph.type? key).map (·.declared)).getD []

theorem resolveRound_eq_anyStep (round : Nat) (registry : Registry) :
    registry.resolveRound round =
      anyStep (resolveProperty round) registry.roundOrder registry :=
  anyStep_resolveType round registry.graph.typeKeys registry

theorem roundOrder_eq (registry : Registry) :
    registry.roundOrder = registry.graph.types.flatMap (·.declared) := by
  rw [roundOrder, Graph.typeKeys, List.flatMap_def, List.flatMap_def, List.map_map]
  congr 1
  apply List.ext_getElem
  · simp
  · intro index hleft hright
    simp only [List.length_map] at hright
    simp [Graph.type?, List.getElem?_eq_getElem hright]

/-- A round steps every property once, if types declare all properties in order. -/
theorem resolveRound_eq
    (hdeclared : registry.graph.types.flatMap (·.declared) = registry.graph.propKeys)
    (round : Nat) :
    registry.resolveRound round =
      anyStep (resolveProperty round) registry.graph.propKeys registry := by
  rw [resolveRound_eq_anyStep, roundOrder_eq, hdeclared]

theorem nodup_propKeys (graph : Graph) : graph.propKeys.Nodup :=
  List.nodup_range.map fun _ _ heq => PropKey.mk.inj heq

/-- What a round that does not fail leaves behind. -/
theorem resolveRound_ok
    (hdeclared : registry.graph.types.flatMap (·.declared) = registry.graph.propKeys)
    {yes : Bool} {after : Registry} (h : registry.resolveRound round = ⟨.ok yes, after⟩) :
    Resolves registry.graph.propKeys registry after ∧
      ReflTransGen Graph.Proceeds registry.graph after.graph ∧
      (yes = true ↔ after.graph.pending ≠ []) ∧
      ∀ key settlement, registry.graph.Yields key settlement → key ∉ after.graph.pending := by
  rw [resolveRound_eq hdeclared] at h
  have hresolves := anyStep_resolves round registry.graph.propKeys registry
  obtain ⟨hproceeds, hyes, hsettled⟩ := anyStep_ok (nodup_propKeys _) h
  rw [h] at hresolves
  -- nothing is pending outside the properties of the graph
  have hmem {key : PropKey} (hkey : key ∈ after.graph.pending) : key ∈ registry.graph.propKeys :=
    (List.mem_filter.1 (hresolves.advances.mem_pending hkey)).1
  refine ⟨hresolves, hproceeds, ?_, ?_⟩
  · rw [hyes]
    constructor
    · rintro ⟨key, -, hkey⟩
      exact List.ne_nil_of_mem hkey
    · intro hne
      obtain ⟨key, hkey⟩ := List.exists_mem_of_ne_nil _ hne
      exact ⟨key, hmem hkey, hkey⟩
  · intro key settlement hyields hpending
    exact hsettled key (hmem hpending) settlement hyields hpending

/-- Where everything has something to settle to, a step succeeds and leaves it so. -/
theorem resolveProperty_exists_ok (round : Nat) (key : PropKey) (registry : Registry)
    (h : registry.graph.Healthy ∧ registry.graph.Settleable) :
    ∃ yes after, resolveProperty round key registry = ⟨.ok yes, after⟩ ∧
      after.graph.Healthy ∧ after.graph.Settleable := by
  obtain ⟨hhealthy, hall⟩ := h
  have hstep := resolveProperty_step round key registry
  obtain ⟨yes, hyes⟩ := hstep.exists_ok hhealthy hall
  refine ⟨yes, (resolveProperty round key registry).registry, by rw [← hyes], ?_, ?_⟩
  · exact Graph.healthy_of_proceeds (hstep.proceeds hyes) hhealthy
  · exact hall.congr hstep.resolves.advances.fresh_eq

/-! ### All rounds -/

/-- The registry after a round has come to its end. -/
theorem finishedRounds_record (registry : Registry) (round pending : Nat) :
    (registry.record (.roundFinished round pending)).finishedRounds =
      registry.finishedRounds ++ [round] := by
  simp [finishedRounds, record, Event.finishedRound?]

/-- Giving up on the properties that are pending reports nothing. -/
theorem events_giveUp (registry : Registry) : registry.giveUp.events = registry.events := by
  have hfold (keys : List PropKey) (registry : Registry) :
      (keys.foldl (fun registry key => registry.setResolution key (.failed none))
        registry).events = registry.events := by
    induction keys generalizing registry with
    | nil => rfl
    | cons key keys ih => exact ih _
  exact hfold _ registry

/-- There is someone to blame exactly when something is pending. -/
theorem unsettled?_eq_none_iff {bound : Nat} {graph : Graph} :
    unsettled? bound graph = none ↔ graph.pending = [] := by
  rw [unsettled?, Option.map_eq_none_iff, List.head?_eq_none_iff]

/-- Rounds that come to an end without failure settle properties one by one, and all of them. -/
theorem roundsFrom_ok {bound remaining rounds : Nat}
    (hdeclared : registry.graph.types.flatMap (·.declared) = registry.graph.propKeys)
    {after : Registry} (h : registry.roundsFrom bound remaining round = ⟨.ok rounds, after⟩) :
    ReflTransGen Graph.Proceeds registry.graph after.graph ∧ after.graph.pending = [] := by
  induction remaining generalizing registry round with
  | zero =>
    rw [roundsFrom] at h
    cases hblame : unsettled? bound registry.graph with
    | some violation => simp [hblame] at h
    | none =>
      simp only [hblame, Outcome.mk.injEq] at h
      obtain ⟨-, rfl⟩ := h
      exact ⟨.refl, unsettled?_eq_none_iff.1 hblame⟩
  | succ remaining ih =>
    rw [roundsFrom] at h
    cases hround : registry.resolveRound round with
    | mk result middle =>
      rw [hround] at h
      cases result with
      | error violation => simp at h
      | ok more =>
        obtain ⟨hresolves, hproceeds, hmore, -⟩ := resolveRound_ok hdeclared hround
        cases more with
        | true =>
          let finished := middle.record (.roundFinished round middle.graph.pending.length)
          have hdeclared' : finished.graph.types.flatMap (·.declared) = finished.graph.propKeys :=
            Graph.declared_congr hresolves.advances.fresh_eq hdeclared
          obtain ⟨hproceeds', hpending⟩ := ih hdeclared' h
          exact ⟨hproceeds.trans hproceeds', hpending⟩
        | false =>
          simp only [Bool.false_eq_true, ↓reduceIte, Outcome.mk.injEq] at h
          obtain ⟨-, rfl⟩ := h
          have hnone : middle.graph.pending = [] := by simpa using hmore
          exact ⟨hproceeds, hnone⟩

/-- How a number of rounds comes to its end where everything has something to settle to: nothing
is pending any more, or what is pending is not grounded and each round was run to its end. -/
inductive Ends (bound remaining round : Nat) (registry : Registry) : Outcome Nat → Prop where
  | settled {last : Registry} {rounds : Nat} :
    registry.graph.Advances last.graph →
    last.graph.pending = [] →
    Ends bound remaining round registry ⟨.ok rounds, last⟩
  | stuck {last : Registry} {violation : Violation} :
    registry.graph.Advances last.graph →
    last.graph.Healthy →
    (∀ key ∈ last.graph.pending, ¬ last.graph.Grounded key) →
    last.finishedRounds = registry.finishedRounds ++ List.range' round remaining →
    unsettled? bound last.graph = some violation →
    Ends bound remaining round registry ⟨.error violation, last.giveUp⟩

/-- One more round before the others. -/
theorem Ends.of_round {bound remaining : Nat} {keys : List PropKey} {middle : Registry}
    {outcome : Outcome Nat} (hround : Resolves keys registry middle) (pending : Nat)
    (h : Ends bound remaining (round + 1) (middle.record (.roundFinished round pending)) outcome) :
    Ends bound (remaining + 1) round registry outcome := by
  cases h with
  | settled hadvances hpending =>
    exact .settled (hround.advances.trans hadvances) hpending
  | stuck hadvances hhealthy hpending hfinished hblame =>
    refine .stuck (hround.advances.trans hadvances) hhealthy hpending ?_ hblame
    rw [hfinished, finishedRounds_record, hround.finishedRounds_eq, List.range'_succ,
      List.append_assoc, List.singleton_append]

/-- With at least as many rounds as there are pending properties that are grounded, all of these
get settled. -/
theorem roundsFrom_ends {remaining : Nat} (bound : Nat) (hhealthy : registry.graph.Healthy)
    (hall : registry.graph.Settleable) {waiting : List PropKey}
    (hwaiting : ∀ key ∈ registry.graph.pending, registry.graph.Grounded key → key ∈ waiting)
    (hlength : waiting.length ≤ remaining) :
    Ends bound remaining round registry (registry.roundsFrom bound remaining round) := by
  induction remaining generalizing registry round waiting with
  | zero =>
    obtain rfl : waiting = [] := List.length_eq_zero_iff.1 (Nat.le_zero.1 hlength)
    rw [roundsFrom]
    cases hblame : unsettled? bound registry.graph with
    | none => exact .settled (.refl _) (unsettled?_eq_none_iff.1 hblame)
    | some violation =>
      refine .stuck (.refl _) hhealthy ?_ (by simp) hblame
      intro key hkey hgrounded
      simpa using hwaiting key hkey hgrounded
  | succ remaining ih =>
    obtain ⟨more, middle, hround⟩ : ∃ more middle,
        registry.resolveRound round = ⟨.ok more, middle⟩ := by
      obtain ⟨more, middle, hround, -⟩ := anyStep_exists_ok
        (P := fun registry => registry.graph.Healthy ∧ registry.graph.Settleable)
        (resolveProperty_exists_ok round) registry.graph.propKeys ⟨hhealthy, hall⟩
      exact ⟨more, middle, resolveRound_eq hhealthy.regular.declared round ▸ hround⟩
    obtain ⟨hresolves, hproceeds, hmore, hsettled⟩ :=
      resolveRound_ok hhealthy.regular.declared hround
    have hadvances := hresolves.advances
    have hhealthy' := Graph.healthy_of_proceeds hproceeds hhealthy
    simp only [roundsFrom, hround]
    cases more with
    | false =>
      have hnone : middle.graph.pending = [] := by simpa using hmore
      exact .settled hadvances hnone
    | true =>
      -- the round has settled one of the grounded properties, unless there was none
      obtain ⟨fewer, hfewer, hlength'⟩ : ∃ fewer : List PropKey,
          (∀ key ∈ middle.graph.pending, middle.graph.Grounded key → key ∈ fewer) ∧
            fewer.length ≤ remaining := by
        have hback {key : PropKey} (hgrounded : middle.graph.Grounded key) :
            registry.graph.Grounded key := hgrounded.congr hadvances.fresh_eq.symm
        by_cases hsome : ∃ key ∈ registry.graph.pending, registry.graph.Grounded key
        · obtain ⟨key, hkey, hgrounded⟩ := hsome
          obtain ⟨prop, hprop, hpending⟩ := Graph.mem_pending.1 hkey
          obtain ⟨next, prop', hprop', hpending', hnext⟩ :=
            hhealthy.progress hall hgrounded hprop hpending
          have hmem := hwaiting next (Graph.mem_pending.2 ⟨prop', hprop', hpending'⟩)
            (hhealthy.grounded_of_ready hnext)
          refine ⟨waiting.erase next, ?_, ?_⟩
          · intro other hother hother'
            refine (List.mem_erase_of_ne ?_).2
              (hwaiting other (hadvances.mem_pending hother) (hback hother'))
            rintro rfl
            obtain ⟨settlement, hyields⟩ := hhealthy.exists_yields hnext
            exact hsettled other settlement hyields hother
          · rw [List.length_erase_of_mem hmem]
            omega
        · refine ⟨[], ?_, Nat.zero_le _⟩
          intro key hkey hgrounded
          exact absurd ⟨key, hadvances.mem_pending hkey, hback hgrounded⟩ hsome
      exact .of_round hresolves _ (ih hhealthy' (hall.congr hadvances.fresh_eq) hfewer hlength')

/-- A registry whose rounds come to an end without failure has everything settled, one by one. -/
theorem resolveRounds_ok {rounds : Nat}
    (hdeclared : registry.graph.types.flatMap (·.declared) = registry.graph.propKeys)
    {after : Registry} (h : registry.resolveRounds = ⟨.ok rounds, after⟩) :
    ReflTransGen Graph.Proceeds registry.graph after.graph ∧ after.graph.pending = [] := by
  rw [resolveRounds] at h
  split at h
  · next hbound =>
    cases h
    exact ⟨.refl, List.length_eq_zero_iff.1 hbound⟩
  · exact roundsFrom_ok hdeclared h

/-- There are as many rounds as there are pending properties, which is enough. -/
theorem resolveRounds_ends (hhealthy : registry.graph.Healthy)
    (hall : registry.graph.Settleable) :
    Ends registry.graph.pending.length registry.graph.pending.length 1 registry
      registry.resolveRounds := by
  rw [resolveRounds]
  split
  · next hbound => exact .settled (.refl _) (List.length_eq_zero_iff.1 hbound)
  · exact roundsFrom_ends _ hhealthy hall (fun key hkey _ => hkey) (Nat.le_refl _)

/-- Where everything has something to settle to and is grounded, the rounds come to an end without
failure. -/
theorem resolveRounds_exists_ok (hhealthy : registry.graph.Healthy)
    (hall : registry.graph.Settleable) (hgrounded : ∀ key, registry.graph.Grounded key) :
    ∃ rounds last, registry.resolveRounds = ⟨.ok rounds, last⟩ := by
  have hends := resolveRounds_ends hhealthy hall
  generalize registry.resolveRounds = outcome at hends
  cases hends with
  | @settled last rounds _ _ => exact ⟨rounds, last, rfl⟩
  | @stuck last violation hadvances _ hungrounded _ hblame =>
    -- nothing can be stuck, for everything is grounded
    have hnone : last.graph.pending = [] := by
      rw [List.eq_nil_iff_forall_not_mem]
      intro key hkey
      exact hungrounded key hkey ((hgrounded key).congr hadvances.fresh_eq)
    rw [unsettled?_eq_none_iff.2 hnone] at hblame
    cases hblame

end Registry

end Metamodel
