import Metamodel.Proofs.Numbering
import Metamodel.Proofs.Alteration

/-!
# How properties leave the pending state

A property leaves the pending state in a step, which gives it the number of a round, or when the
rounds of a registry run out, and then it gets no number. `Registry.Departs` finds the step within a
call, and `Registry.Exhausts` tells when the rounds run out; both are read off the loop of the
rounds, of which `Registry.ComesTo` has the beginnings. Read `Command.departs` first: a property
that a call does not find settled or failed, but leaves so, left the pending state in one of these
two ways. From this and from what calls keep, `Reachable.round?_iff` tells the whole history of a
property from its resolution.
-/

namespace Metamodel

open Relation (ReflTransGen)

namespace Registry

variable {source : Source} {config : Config} {registry start before after : Registry}
  {key : PropKey} {prop : Property} {round : Nat}

/-! ### Ways out of the pending state -/

/-- The loop of the rounds comes to a round: all before it were run to their ends, and each left
something pending. After the last round the loop comes to the number that would be next. -/
inductive ComesTo (start : Registry) : Nat → Registry → Prop where
  | first : ComesTo start 1 start
  | next {round : Nat} {registry after : Registry} :
    ComesTo start round registry →
    round ≤ start.graph.pending.length →
    registry.resolveRound round = ⟨.ok true, after⟩ →
    ComesTo start (round + 1) (after.record (.roundFinished round after.graph.pending.length))

/-- The property at a key is pending in one registry and no longer in another. -/
def Leaves (key : PropKey) (before after : Registry) : Prop :=
  key ∈ before.graph.pending ∧ key ∉ after.graph.pending

/-- A call takes the property at a key out of the pending state in a step of a round. -/
inductive Departs (key : PropKey) (round : Nat) (before : Registry) : Command → Prop where
  | property {other : PropKey} :
    Leaves key before (before.resolveProperty round other).registry →
    Departs key round before (.resolveProperty other round)
  | type {type : TypeKey} :
    Leaves key before (before.resolveType round type).registry →
    Departs key round before (.resolveType type round)
  | rounds {current : Registry} :
    before.ComesTo round current →
    round ≤ before.graph.pending.length →
    Leaves key current (current.resolveRound round).registry →
    Departs key round before .resolveRounds

/-- The rounds of a registry run out while the property at a key is pending. -/
def Exhausts (key : PropKey) (before : Registry) : Prop :=
  ∃ current, before.ComesTo (before.graph.pending.length + 1) current ∧
    key ∈ current.graph.pending

/-! ### The loop of the rounds -/

/-- There is nothing to run where nothing is pending. -/
theorem resolveRounds_eq (registry : Registry) :
    registry.resolveRounds = roundsFrom registry.graph.pending.length
      registry.graph.pending.length 1 registry := by
  rw [resolveRounds]
  split
  · next hbound =>
    rw [hbound, roundsFrom, unsettled?_eq_none_iff.2 (List.length_eq_zero_iff.1 hbound)]
  · rfl

namespace ComesTo

/-- Where the loop comes to a round, the rest of it is still to be run. -/
theorem resolveRounds_eq (h : start.ComesTo round registry) {remaining : Nat}
    (hsum : round + remaining = start.graph.pending.length + 1) :
    start.resolveRounds = roundsFrom start.graph.pending.length remaining round registry := by
  induction h generalizing remaining with
  | first =>
    obtain rfl : remaining = start.graph.pending.length := by omega
    exact start.resolveRounds_eq
  | next _ _ hround ih =>
    rw [@ih (remaining + 1) (by omega), roundsFrom, hround]
    rfl

/-- The rounds of a registry go on from the end of each of them. -/
theorem resolving (h : start.ComesTo round registry) (hround : round ≤ start.graph.pending.length) :
    ReflTransGen Resolving (registry.resolveRound round).registry
      start.resolveRounds.registry := by
  obtain ⟨remaining, hsum⟩ : ∃ remaining, round + (remaining + 1) =
      start.graph.pending.length + 1 := ⟨start.graph.pending.length - round, by omega⟩
  rw [h.resolveRounds_eq hsum]
  exact roundsFrom_succ_resolving (roundsFrom_resolving _ remaining) round registry

end ComesTo

/-- What is given up fails without a round, and all else stays as it is. -/
theorem prop?_giveUp (registry : Registry) (key : PropKey) :
    registry.giveUp.graph.prop? key =
      if key ∈ registry.graph.pending then
        (registry.graph.prop? key).map fun prop => { prop with resolution := .failed none }
      else registry.graph.prop? key := by
  have hfold (keys : List PropKey) (registry : Registry) :
      (keys.foldl (fun registry key => registry.setResolution key (.failed none))
        registry).graph.prop? key =
        if key ∈ keys then
          (registry.graph.prop? key).map fun prop => { prop with resolution := .failed none }
        else registry.graph.prop? key := by
    induction keys generalizing registry with
    | nil => rfl
    | cons first keys ih =>
      rw [List.foldl_cons, ih, setResolution, Graph.prop?_setResolution]
      by_cases hfirst : first = key
      · subst hfirst
        simp [Function.comp_def]
      · simp [hfirst, Ne.symm hfirst]
  exact hfold _ registry

/-- What is pending when the rounds of a registry run out fails without a round. -/
theorem Exhausts.exists_prop? (h : registry.Exhausts key) :
    ∃ prop, registry.resolveRounds.registry.graph.prop? key = some prop ∧
      prop.resolution = .failed none := by
  obtain ⟨current, hcomes, hpending⟩ := h
  obtain ⟨prop, hkey, -⟩ := Graph.mem_pending.1 hpending
  refine ⟨{ prop with resolution := .failed none }, ?_, rfl⟩
  rw [hcomes.resolveRounds_eq (Nat.add_zero _), roundsFrom]
  cases hblame : unsettled? registry.graph.pending.length current.graph with
  | none =>
    rw [unsettled?_eq_none_iff.1 hblame] at hpending
    cases hpending
  | some violation => rw [prop?_giveUp, if_pos hpending, hkey, Option.map_some]

/-- From some round on, a property that is pending then but not in the end leaves the pending state
in one of the rounds, or they run out. -/
theorem ComesTo.departs {remaining : Nat} (hcomes : start.ComesTo round registry)
    (hsum : round + remaining = start.graph.pending.length + 1)
    (hpending : key ∈ registry.graph.pending)
    (hend : key ∉ start.resolveRounds.registry.graph.pending) :
    (∃ later, Departs key later start .resolveRounds) ∨ start.Exhausts key := by
  induction remaining generalizing round registry with
  | zero =>
    obtain rfl : round = start.graph.pending.length + 1 := hsum
    exact .inr ⟨registry, hcomes, hpending⟩
  | succ remaining ih =>
    by_cases hmiddle : key ∈ (registry.resolveRound round).registry.graph.pending
    · -- there is another round, for otherwise the property would be pending in the end
      rw [hcomes.resolveRounds_eq hsum, roundsFrom] at hend
      cases houtcome : registry.resolveRound round with
      | mk result middle =>
        rw [houtcome] at hend hmiddle
        cases result with
        | error violation => exact absurd hmiddle hend
        | ok more =>
          cases more with
          | true => exact ih (hcomes.next (by omega) houtcome) (by omega) hmiddle
          | false => exact absurd hmiddle hend
    · exact .inl ⟨round, .rounds hcomes (by omega) ⟨hpending, hmiddle⟩⟩

/-! ### Calls -/

/-- A property that departs in a round has its number when the call is over. -/
theorem Departs.exists_prop? {command : Command} (h : Departs key round registry command)
    (source : Source) (config : Config) :
    ∃ prop, (command.run source config registry).registry.graph.prop? key = some prop ∧
      prop.resolution.round? = some round := by
  cases h with
  | property hleaves =>
    exact (resolveProperty_numbers round _ registry).exists_prop? hleaves.1 hleaves.2
  | type hleaves => exact (resolveType_numbers round _ registry).exists_prop? hleaves.1 hleaves.2
  | @rounds current hcomes hround hleaves =>
    obtain ⟨prop, hprop, hnumber⟩ :=
      (resolveRound_numbers round current).exists_prop? hleaves.1 hleaves.2
    refine ⟨prop, ?_, hnumber⟩
    exact ((advances_of_resolving (hcomes.resolving hround)).prop?_eq hleaves.2).trans hprop

/-- From a graph of placed types on, registration adds what is pending, and that is all. -/
def OnlyAdds (source : Source) (config : Config) (before after : Registry) : Prop :=
  before.graph.Realizes source config →
    after.graph.Realizes source config ∧ ∃ types props, before.Adds types props after

instance : Std.Refl (OnlyAdds source config) :=
  ⟨fun registry h => ⟨h, [], [], .nil registry⟩⟩

instance : IsTrans Registry (OnlyAdds source config) where
  trans _ _ _ hfirst hsecond h := by
    obtain ⟨hrealizes, types, props, hadds⟩ := hfirst h
    obtain ⟨hrealizes', types', props', hadds'⟩ := hsecond hrealizes
    exact ⟨hrealizes', _, _, hadds.append hadds'⟩

theorem resolve_onlyAdds (name : String) (registry : Registry) :
    OnlyAdds source config registry (registry.resolve source config name).registry := by
  intro h
  obtain ⟨hrealizes, hadds, -⟩ := resolve_registers h name
  exact ⟨hrealizes, hadds⟩

theorem resolveAll_onlyAdds (registry : Registry) :
    OnlyAdds source config registry (registry.resolveAll source config).registry := by
  have hsteps : ReflTransGen (OnlyAdds source config) registry
      (registry.resolveAll source config).registry :=
    forEach_moves (fun name registry => .single (resolve_onlyAdds name registry)) _ registry
  rwa [Relation.reflTransGen_eq_self] at hsteps

theorem linkTargets_onlyAdds (registry : Registry) :
    OnlyAdds source config registry (registry.linkTargets source config).registry := by
  have hsteps : ReflTransGen (OnlyAdds source config) registry
      (registry.linkTargets source config).registry :=
    forEach_moves (linkTarget_moves resolve_onlyAdds) _ registry
  rwa [Relation.reflTransGen_eq_self] at hsteps

/-- Whatever is not pending after a registration was there before. -/
theorem OnlyAdds.prop?_eq (h : OnlyAdds source config before after)
    (hrealizes : before.graph.Realizes source config)
    (hkey : after.graph.prop? key = some prop) (hne : prop.resolution ≠ .pending) :
    before.graph.prop? key = some prop := by
  obtain ⟨-, types, props, hadds⟩ := h hrealizes
  rw [Graph.prop?, hadds.props_eq, List.getElem?_append] at hkey
  split at hkey
  · exact hkey
  · exact absurd (hadds.pending prop (List.mem_of_getElem? hkey)) hne

end Registry

open Registry (Departs Exhausts OnlyAdds)

variable {source : Source} {config : Config} {registry : Registry} {key : PropKey}
  {prop : Property} {round : Nat}

/-- What a call leaves settled or failed was so before, or it left the pending state in a step of
the call, or the rounds of the call ran out. -/
theorem Command.departs (command : Command) (h : registry.graph.Realizes source config)
    (hkey : (command.run source config registry).registry.graph.prop? key = some prop)
    (hne : prop.resolution ≠ .pending) :
    registry.graph.prop? key = some prop ∨
      (∃ round, Departs key round registry command) ∨
      command = .resolveRounds ∧ registry.Exhausts key := by
  have hend : key ∉ (command.run source config registry).registry.graph.pending := by
    rwa [Graph.mem_pending_iff hkey]
  have of_adds (hadds : OnlyAdds source config registry
      (command.run source config registry).registry) : registry.graph.prop? key = some prop :=
    hadds.prop?_eq h hkey hne
  have of_advances (hadvances : registry.graph.Advances
      (command.run source config registry).registry.graph)
      (hidle : key ∉ registry.graph.pending) : registry.graph.prop? key = some prop :=
    (hadvances.prop?_eq hidle).symm.trans hkey
  cases command with
  | resolve name => exact .inl (of_adds (Registry.resolve_onlyAdds name registry))
  | resolveAll => exact .inl (of_adds registry.resolveAll_onlyAdds)
  | linkTargets => exact .inl (of_adds registry.linkTargets_onlyAdds)
  | resolveProperty other round =>
    by_cases hpending : key ∈ registry.graph.pending
    · exact .inr (.inl ⟨round, .property ⟨hpending, hend⟩⟩)
    · have hnumbers := Registry.resolveProperty_numbers round other registry
      exact .inl (of_advances hnumbers.advances hpending)
  | resolveType type round =>
    by_cases hpending : key ∈ registry.graph.pending
    · exact .inr (.inl ⟨round, .type ⟨hpending, hend⟩⟩)
    · have hnumbers := Registry.resolveType_numbers round type registry
      exact .inl (of_advances hnumbers.advances hpending)
  | resolveRounds =>
    by_cases hpending : key ∈ registry.graph.pending
    · have hrounds := Registry.ComesTo.first.departs (Nat.add_comm 1 _) hpending hend
      exact .inr (hrounds.imp_right fun hexhausts => ⟨rfl, hexhausts⟩)
    · have hresolving := registry.resolveRounds_resolving
      exact .inl (of_advances (Registry.advances_of_resolving hresolving) hpending)

/-! ### Histories -/

/-- On some way to a registry the property at a key left the pending state in a step of a round. -/
def LeftIn (source : Source) (config : Config) (key : PropKey) (round : Nat)
    (registry : Registry) : Prop :=
  ∃ before command, Reachable source config before ∧ Departs key round before command ∧
    LeadsTo source config (command.run source config before).registry registry

/-- On some way to a registry the rounds ran out while the property at a key was pending. -/
def GivenUp (source : Source) (config : Config) (key : PropKey) (registry : Registry) : Prop :=
  ∃ before, Reachable source config before ∧ before.Exhausts key ∧
    LeadsTo source config before.resolveRounds.registry registry

/-- What is settled or has failed stays so on any way from a reachable registry. -/
theorem Reachable.prop?_eq (h : Reachable source config registry) {later : Registry}
    (hleads : LeadsTo source config registry later) (hkey : registry.graph.prop? key = some prop)
    (hne : prop.resolution ≠ .pending) : later.graph.prop? key = some prop :=
  (Registry.continues_of_moves hleads.moves h.sound.realizes).2.kept hkey hne

/-- What has a round is not pending. -/
theorem Resolution.ne_pending_of_round? {resolution : Resolution}
    (h : resolution.round? = some round) : resolution ≠ .pending := by
  rintro rfl
  cases h

/-- What left the pending state in a round has its number. -/
theorem LeftIn.round?_eq (h : LeftIn source config key round registry)
    (hkey : registry.graph.prop? key = some prop) : prop.resolution.round? = some round := by
  obtain ⟨before, command, hbefore, hdeparts, hleads⟩ := h
  obtain ⟨same, hsame, hround⟩ := hdeparts.exists_prop? source config
  have hafter : Reachable source config (command.run source config before).registry :=
    .step command hbefore
  have hlater := hafter.prop?_eq hleads hsame (Resolution.ne_pending_of_round? hround)
  obtain rfl := Option.some.inj (hlater.symm.trans hkey)
  exact hround

/-- What was given up failed without a round. -/
theorem GivenUp.resolution_eq (h : GivenUp source config key registry)
    (hkey : registry.graph.prop? key = some prop) : prop.resolution = .failed none := by
  obtain ⟨before, hbefore, hexhausts, hleads⟩ := h
  obtain ⟨same, hsame, hfailed⟩ := hexhausts.exists_prop?
  have hafter : Reachable source config before.resolveRounds.registry :=
    .step .resolveRounds hbefore
  have hlater := hafter.prop?_eq hleads hsame (by rw [hfailed]; nofun)
  obtain rfl := Option.some.inj (hlater.symm.trans hkey)
  exact hfailed

/-- What is settled or has failed left the pending state in some round, or was given up. -/
theorem Reachable.leftIn_or_givenUp (h : Reachable source config registry)
    (hkey : registry.graph.prop? key = some prop) (hne : prop.resolution ≠ .pending) :
    (∃ round, LeftIn source config key round registry) ∨ GivenUp source config key registry := by
  induction h with
  | refl => cases hkey
  | @step before command hbefore ih =>
    rcases command.departs (Reachable.sound hbefore).realizes hkey hne with
      hsame | ⟨round, hdeparts⟩ | ⟨rfl, hexhausts⟩
    · rcases ih hsame with ⟨round, first, earlier, hfirst, hdeparts, hleads⟩ | hgiven
      · exact .inl ⟨round, first, earlier, hfirst, hdeparts, .step command hleads⟩
      · obtain ⟨first, hfirst, hexhausts, hleads⟩ := hgiven
        exact .inr ⟨first, hfirst, hexhausts, .step command hleads⟩
    · exact .inl ⟨round, before, command, hbefore, hdeparts, .refl⟩
    · exact .inr ⟨before, hbefore, hexhausts, .refl⟩

/-- The resolution of a property tells how it left the pending state, on whatever way its registry
was reached, failing calls included. It has the number of the round in whose step it left. Only a
property that was still pending when rounds ran out has failed without a number; all others have one
exactly if they are no longer pending. -/
theorem Reachable.round?_iff (h : Reachable source config registry)
    (hkey : registry.graph.prop? key = some prop) :
    (∀ round, prop.resolution.round? = some round ↔ LeftIn source config key round registry) ∧
    (prop.resolution = .failed none ↔ GivenUp source config key registry) ∧
    ((prop.resolution.round?.isSome = true ↔ prop.resolution ≠ .pending) ↔
      ¬ GivenUp source config key registry) := by
  refine ⟨fun round => ⟨?_, fun hleft => hleft.round?_eq hkey⟩,
    ⟨?_, fun hgiven => hgiven.resolution_eq hkey⟩, ?_, ?_⟩
  · intro hround
    rcases h.leftIn_or_givenUp hkey (Resolution.ne_pending_of_round? hround) with
      ⟨other, hleft⟩ | hgiven
    · obtain rfl := Option.some.inj (hround.symm.trans (hleft.round?_eq hkey))
      exact hleft
    · rw [hgiven.resolution_eq hkey] at hround
      cases hround
  · intro hfailed
    rcases h.leftIn_or_givenUp hkey (by rw [hfailed]; nofun) with ⟨other, hleft⟩ | hgiven
    · have hround := hleft.round?_eq hkey
      rw [hfailed] at hround
      cases hround
    · exact hgiven
  · intro hiff hgiven
    have hfailed := hgiven.resolution_eq hkey
    have hround := hiff.2 (by rw [hfailed]; nofun)
    rw [hfailed] at hround
    cases hround
  · intro hkept
    rw [Option.isSome_iff_exists]
    constructor
    · intro hsome
      obtain ⟨round, hround⟩ := hsome
      exact Resolution.ne_pending_of_round? hround
    · intro hne
      obtain ⟨round, hleft⟩ := (h.leftIn_or_givenUp hkey hne).resolve_right hkept
      exact ⟨round, hleft.round?_eq hkey⟩

theorem Reachable.round?_iff_orders :
    ∃ registry, Reachable orders {} registry ∧
      registry.graph.props.map (·.resolution.round?) = [some 1, some 2, some 1, none, none] ∧
      (∀ round, LeftIn orders {} ⟨1⟩ round registry ↔ round = 2) ∧
      ¬ GivenUp orders {} ⟨1⟩ registry := by
  let registered := ((Command.resolve "Order").run orders {} {}).registry
  let stepped := ((Command.resolveType ⟨0⟩ 1).run orders {} registered).registry
  let linked := (Command.linkTargets.run orders {} stepped).registry
  let registry := ((Command.resolveProperty ⟨1⟩ 2).run orders {} linked).registry
  have hreachable : Reachable orders {} registry := .step (.resolveProperty ⟨1⟩ 2) <|
    .step .linkTargets <| .step (.resolveType ⟨0⟩ 1) <| .step (.resolve "Order") .refl
  have htitle : (registry.graph.prop? ⟨1⟩).map (·.resolution) = some (.failed (some 2)) := by
    decide +kernel
  obtain ⟨title, hkey, hfailed⟩ := Option.map_eq_some_iff.1 htitle
  obtain ⟨hleft, hgiven, -⟩ := hreachable.round?_iff hkey
  rw [hfailed] at hleft hgiven
  refine ⟨registry, hreachable, by decide +kernel, fun round => ?_, ?_⟩
  · rw [← hleft, Resolution.round?, Option.some.injEq, eq_comm]
  · rw [← hgiven]
    nofun

/-- Two expressions that wait for each other are given up: they are no longer pending, and have no
round. -/
theorem Reachable.exists_round?_eq_none_deadlock :
    ∃ registry, Reachable deadlock {} registry ∧
      ∃ prop ∈ registry.graph.props,
        prop.resolution ≠ .pending ∧ prop.resolution.round? = none := by
  let registered := (Command.resolveAll.run deadlock {} {}).registry
  let registry := (Command.resolveRounds.run deadlock {} registered).registry
  have hreachable : Reachable deadlock {} registry :=
    .step .resolveRounds (.step .resolveAll .refl)
  have hlow : (registry.graph.prop? ⟨0⟩).map (·.resolution) = some (.failed none) := by
    decide +kernel
  obtain ⟨low, hkey, hfailed⟩ := Option.map_eq_some_iff.1 hlow
  refine ⟨registry, hreachable, low, List.mem_of_getElem? hkey, ?_, ?_⟩
  · rw [hfailed]
    nofun
  · rw [hfailed, Resolution.round?]

end Metamodel
