import Metamodel.Proofs.Kinds
import Metamodel.Proofs.Linking
import Metamodel.Proofs.Recording

/-!
# What a compilation reports

The events of a successful compilation are a function of its model (`Model.trace`): the types in
the order of their keys, each round with the properties that have its number, and the end. From
this list it can be read that each property is reported once, under a text that no other has, and
that each round leaves fewer properties than the one before. A failure reports types before anything
is settled, and itself at the end. `Compilation.run_told` has both.
-/

namespace Metamodel

open Relation (ReflTransGen)

/-! ### Kinds of events -/

namespace Event

/-- Whether an event reports a registered type. -/
def isRegistration : Event → Bool
  | .typeRegistered .. => true
  | _ => false

/-- Whether an event reports a settled property or the end of a round. -/
def isResolution : Event → Bool
  | .propertyResolved .. | .roundFinished .. => true
  | _ => false

/-- The property that an event reports as settled. -/
def label? : Event → Option PropLabel
  | .propertyResolved label _ _ => some label
  | _ => none

/-- The number of pending properties that an event reports at the end of a round. -/
def pending? : Event → Option Nat
  | .roundFinished _ pending => some pending
  | _ => none

end Event

/-- The events of a compilation that succeeds with a model. -/
def Model.trace (model : Model) : List Event :=
  model.graph.types.map TypeNode.registered ++
    (List.range' 1 model.rounds).flatMap model.graph.roundEvents ++
    [.compileFinished model.graph.types.length model.graph.props.length model.rounds]

/-- Events tell of a success: they are those of the model, each property is reported once and is
known by the text of its label, and what is pending gets less from round to round until nothing
is. -/
structure Model.ToldBy (model : Model) (events : List Event) : Prop where
  events_eq : events = model.trace
  reported_once : (events.filterMap Event.label?).Perm (model.graph.propKeys.map model.graph.label)
  texts_nodup : (model.graph.propKeys.map fun key => (model.graph.label key).text).Nodup
  decreasing : (events.filterMap Event.pending?).Pairwise (· > ·)
  last_eq_zero : ∀ count ∈ (events.filterMap Event.pending?).getLast?, count = 0

/-- Events tell of a failure: types are reported before anything is settled, and at the end the
class and the text of the violation. -/
def Violation.ToldBy (violation : Violation) (events : List Event) : Prop :=
  ∃ registrations resolutions : List Event,
    events = registrations ++ resolutions ++
      [.compileFailed violation.fault.cls violation.diagnostic.text] ∧
    (∀ event ∈ registrations, event.isRegistration = true) ∧
    ∀ event ∈ resolutions, event.isResolution = true

/-! ### No round is in vain -/

namespace Graph

variable {graph : Graph} {key : PropKey} {round rounds index : Nat}

/-- What has a round is a property of the graph. -/
theorem mem_propKeys_of_roundOf (hround : 1 ≤ graph.roundOf key) : key ∈ graph.propKeys := by
  cases hkey : graph.prop? key with
  | none => simp [roundOf, hkey] at hround
  | some prop =>
    have hlt := (List.getElem?_eq_some_iff.1 hkey).1
    exact List.mem_map.2 ⟨key.index, List.mem_range.2 hlt, rfl⟩

/-- What is settled in a later round than the first had to wait for something that was settled in
the round before. -/
theorem Timely.exists_previous (h : graph.Timely rounds index) (hpending : graph.pending = [])
    (hround : 1 ≤ round) (hkey : graph.roundOf key = round + 1) :
    ∃ other, graph.roundOf other = round := by
  -- among what it waited for in the same round there is a first
  induction hindex : key.index using Nat.strong_induction_on generalizing key with
  | _ index ih =>
    subst hindex
    cases hprop : graph.prop? key with
    | none => simp [roundOf, hprop] at hkey
    | some prop =>
      have hprompt := h.prompt hprop (by rw [hpending]; exact List.not_mem_nil)
      have hmem := (List.max?_eq_some_iff.1 hprompt.max?_eq).1
      rw [hkey, List.mem_cons] at hmem
      obtain ⟨waited, hwaited, harrival⟩ := List.mem_map.1 (hmem.resolve_left (by omega))
      rw [arrival] at harrival
      by_cases hlt : key.index < waited.index
      · rw [if_pos hlt] at harrival
        exact ⟨waited, by omega⟩
      · rw [if_neg hlt] at harrival
        have hne : waited.index ≠ key.index := by
          intro heq
          exact (hprompt.settled waited hwaited).2 (congrArg PropKey.mk heq)
        exact ih waited.index (by omega) harrival rfl

/-- Something is settled in each round up to one in which something is. -/
theorem Timely.exists_of_le (h : graph.Timely rounds index) (hpending : graph.pending = [])
    (hround : 1 ≤ round) (hle : round ≤ graph.roundOf key) :
    ∃ other, graph.roundOf other = round := by
  obtain ⟨gap, hgap⟩ := Nat.exists_eq_add_of_le hle
  clear hle
  induction gap generalizing key with
  | zero => exact ⟨key, hgap⟩
  | succ gap ih =>
    have hsucc : graph.roundOf key = (round + gap) + 1 := hgap
    obtain ⟨other, hother⟩ := h.exists_previous hpending (by omega) hsucc
    exact ih hother

/-- A round in which something is settled leaves less than any earlier one. -/
theorem countAfter_lt (hkey : graph.roundOf key = round) {earlier : Nat} (hlt : earlier < round) :
    graph.countAfter round < graph.countAfter earlier := by
  have hsplit : graph.propKeys.filter (round < graph.roundOf ·) =
      (graph.propKeys.filter (earlier < graph.roundOf ·)).filter (round < graph.roundOf ·) := by
    rw [List.filter_filter]
    refine List.filter_congr fun other _ => ?_
    rw [Bool.eq_iff_iff, Bool.and_eq_true, decide_eq_true_iff, decide_eq_true_iff]
    omega
  rw [countAfter, hsplit, countAfter, List.length_filter_lt_length_iff_exists]
  refine ⟨key, List.mem_filter.2 ⟨mem_propKeys_of_roundOf (by omega), ?_⟩, ?_⟩
  · rw [hkey]
    exact decide_eq_true hlt
  · rw [hkey]
    simp

/-- The last round leaves nothing. -/
theorem countAfter_eq_zero (h : ∀ key, graph.roundOf key ≤ round) : graph.countAfter round = 0 := by
  rw [countAfter, List.length_eq_zero_iff, List.filter_eq_nil_iff]
  intro key _
  simpa using h key

/-! ### What is read off the events of rounds -/

theorem pending?_roundEvents (graph : Graph) (round : Nat) :
    (graph.roundEvents round).filterMap Event.pending? = [graph.countAfter round] := by
  have hnone : (graph.propKeys.filterMap (graph.settledEvent? round)).filterMap Event.pending? =
      [] := by
    rw [List.filterMap_eq_nil_iff]
    intro event hevent
    obtain ⟨key, -, hsettled⟩ := List.mem_filterMap.1 hevent
    obtain ⟨prop, -, hsome⟩ := Option.bind_eq_some_iff.1 hsettled
    split at hsome
    · cases hsome
      rfl
    · cases hsome
  rw [roundEvents, List.filterMap_append, hnone]
  rfl

/-- Round by round, the number of properties that are still pending. -/
theorem pending?_flatMap (graph : Graph) (rounds : List Nat) :
    (rounds.flatMap graph.roundEvents).filterMap Event.pending? = rounds.map graph.countAfter := by
  rw [List.filterMap_flatMap, List.map_eq_flatMap]
  exact congrArg (rounds.flatMap ·) (funext graph.pending?_roundEvents)

/-- A property is reported for the round in which it was settled and for no other. -/
theorem label?_settledEvent? (hround : 1 ≤ round) (key : PropKey) :
    (graph.settledEvent? round key).bind Event.label? =
      if graph.roundOf key = round then some (graph.label key) else none := by
  by_cases hkey : graph.roundOf key = round
  · rw [if_pos hkey]
    cases hprop : graph.prop? key with
    | none =>
      simp only [roundOf, hprop, Option.bind_none, Option.getD_none] at hkey
      omega
    | some prop =>
      cases hnumber : prop.resolution.round? with
      | none =>
        simp only [roundOf, hprop, Option.bind_some, hnumber, Option.getD_none] at hkey
        omega
      | some number =>
        simp only [roundOf, hprop, Option.bind_some, hnumber, Option.getD_some] at hkey
        simp [settledEvent?, hprop, hnumber, hkey, Event.label?]
  · rw [if_neg hkey, settledEvent?_eq_none hkey, Option.bind_none]

theorem label?_roundEvents (hround : 1 ≤ round) :
    (graph.roundEvents round).filterMap Event.label? =
      (graph.propKeys.filter (graph.roundOf · = round)).map graph.label := by
  have hlist (keys : List PropKey) : keys.filterMap (fun key =>
      if graph.roundOf key = round then some (graph.label key) else none) =
      (keys.filter (graph.roundOf · = round)).map graph.label := by
    induction keys with
    | nil => rfl
    | cons key keys ih =>
      by_cases hkey : graph.roundOf key = round <;> simp [hkey, ih]
  rw [roundEvents, List.filterMap_append, List.filterMap_filterMap,
    funext (label?_settledEvent? hround), hlist]
  exact List.append_nil _

/-- Rounds that settle everything report each property once. -/
theorem label?_flatMap_perm (hfirst : ∀ key ∈ graph.propKeys, 1 ≤ graph.roundOf key)
    (hlast : ∀ key, graph.roundOf key ≤ rounds) :
    (((List.range' 1 rounds).flatMap graph.roundEvents).filterMap Event.label?).Perm
      (graph.propKeys.map graph.label) := by
  have hreported : ((List.range' 1 rounds).flatMap graph.roundEvents).filterMap Event.label? =
      ((List.range' 1 rounds).flatMap fun round =>
        graph.propKeys.filter (graph.roundOf · = round)).map graph.label := by
    rw [List.filterMap_flatMap, List.map_flatMap, List.flatMap_def, List.flatMap_def]
    congr 1
    refine List.map_congr_left fun round hmem => ?_
    exact label?_roundEvents (List.mem_range'_1.1 hmem).1
  rw [hreported]
  refine List.Perm.map _ ((List.perm_ext_iff_of_nodup ?_ (Registry.nodup_propKeys graph)).2 ?_)
  · rw [List.nodup_flatMap]
    refine ⟨fun round _ => (Registry.nodup_propKeys graph).filter _, ?_⟩
    refine (List.pairwise_lt_range' 1).imp fun {earlier round} hlt => ?_
    intro key hmem hmem'
    have hearlier := of_decide_eq_true (List.mem_filter.1 hmem).2
    have hround := of_decide_eq_true (List.mem_filter.1 hmem').2
    omega
  · intro key
    rw [List.mem_flatMap]
    constructor
    · rintro ⟨round, -, hkey⟩
      exact (List.mem_filter.1 hkey).1
    · intro hkey
      have hge := hfirst key hkey
      have hle := hlast key
      refine ⟨graph.roundOf key, List.mem_range'_1.2 ⟨hge, by omega⟩, ?_⟩
      exact List.mem_filter.2 ⟨hkey, by simp⟩

end Graph

/-! ### Labels as texts -/

/-- Labels whose names have no dot are told apart by their texts. -/
theorem PropLabel.text_inj {label other : PropLabel} (hname : '.' ∉ label.name.toList)
    (hname' : '.' ∉ other.name.toList) (h : label.text = other.text) : label = other := by
  obtain ⟨owner, name⟩ := label
  obtain ⟨owner', name'⟩ := other
  have hchars : owner.toList ++ '.' :: name.toList = owner'.toList ++ '.' :: name'.toList := by
    simpa [text] using congrArg String.toList h
  -- what stands after the last dot is the name
  have hfirst {chars : List Char} {rest rest' : List Char} (hrest : '.' ∉ rest)
      (heq : '.' :: rest = chars ++ '.' :: rest') : chars = [] := by
    cases chars with
    | nil => rfl
    | cons c chars =>
      obtain ⟨-, rfl⟩ := List.cons.inj heq
      simp at hrest
  rw [List.append_eq_append_iff] at hchars
  rcases hchars with ⟨chars, howner, heq⟩ | ⟨chars, howner, heq⟩
  · obtain rfl := hfirst hname heq
    rw [List.append_nil] at howner
    rw [String.toList_injective howner, String.toList_injective (List.cons.inj heq).2]
  · obtain rfl := hfirst hname' heq
    rw [List.append_nil] at howner
    rw [String.toList_injective howner, String.toList_injective (List.cons.inj heq).2]

namespace Graph.Realizes

variable {source : Source} {config : Config} {graph : Graph}

/-- No two properties have one text. -/
theorem nodup_texts (h : graph.Realizes source config) :
    (graph.propKeys.map fun key => (graph.label key).text).Nodup := by
  have hname : ∀ key ∈ graph.propKeys, '.' ∉ (graph.label key).name.toList := by
    intro key hkey
    obtain ⟨prop, hprop⟩ := exists_prop?_of_mem_propKeys hkey
    rw [name_label hprop]
    exact h.dot_not_mem_name (List.mem_of_getElem? hprop)
  refine List.Nodup.map_on ?_ (Registry.nodup_propKeys graph)
  intro key hkey other hother hsame
  have hlabel := PropLabel.text_inj (hname key hkey) (hname other hother) hsame
  exact List.inj_on_of_nodup_map h.nodup_labels hkey hother hlabel

end Graph.Realizes

/-! ### Failures -/

namespace Registry

variable {registry after : Registry} {key : PropKey} {round : Nat} {outcome : Outcome Bool}

/-- Only settled properties and ends of rounds are reported between two registries. -/
def Reports (before after : Registry) : Prop :=
  ∃ events : List Event, after.events = before.events ++ events ∧
    ∀ event ∈ events, event.isResolution = true

namespace Reports

theorem refl (registry : Registry) : Reports registry registry :=
  ⟨[], by simp, by simp⟩

theorem trans {first second third : Registry} (h : Reports first second)
    (h' : Reports second third) : Reports first third := by
  obtain ⟨events, hevents, hall⟩ := h
  obtain ⟨events', hevents', hall'⟩ := h'
  refine ⟨events ++ events', by rw [hevents', hevents, List.append_assoc], ?_⟩
  intro event hevent
  exact (List.mem_append.1 hevent).elim (hall event) (hall' event)

/-- A step reports a settled property or nothing. -/
theorem of_step (hstep : Step round key registry outcome) : Reports registry outcome.registry := by
  cases hstep with
  | idle _ => exact refl registry
  | waits _ _ _ => exact refl registry
  | settles _ _ _ => exact ⟨[_], rfl, by simp [Event.isResolution]⟩
  | fails _ _ _ => exact ⟨[], by simp [setResolution], by simp⟩

theorem of_resolving (h : Resolving registry after) : Reports registry after := by
  cases h with
  | steps round key => exact of_step (resolveProperty_step round key registry)
  | reports round pending => exact ⟨[_], rfl, by simp [Event.isResolution]⟩
  | givesUp _ => exact ⟨[], by simp [setResolution], by simp⟩

end Reports

/-- However far resolution comes, it reports nothing else. -/
theorem reports_of_resolving (h : ReflTransGen Resolving registry after) :
    Reports registry after := by
  induction h with
  | refl => exact .refl registry
  | tail _ hlast ih => exact ih.trans (.of_resolving hlast)

end Registry

/-! ### Compilations -/

theorem isRegistration_registered {types : List TypeNode} {event : Event}
    (hevent : event ∈ types.map TypeNode.registered) : event.isRegistration = true := by
  obtain ⟨type, -, rfl⟩ := List.mem_map.1 hevent
  rfl

/-- What is not read off registered types and the end of a compilation is read off its rounds. -/
theorem Model.filterMap_trace {α : Type} (model : Model) {f : Event → Option α}
    (hregistered : ∀ type : TypeNode, f type.registered = none)
    (hfinished : ∀ types props rounds, f (.compileFinished types props rounds) = none) :
    model.trace.filterMap f =
      ((List.range' 1 model.rounds).flatMap model.graph.roundEvents).filterMap f := by
  have hnone : (model.graph.types.map TypeNode.registered).filterMap f = [] := by
    rw [List.filterMap_map]
    exact List.filterMap_eq_nil_iff.2 fun type _ => hregistered type
  rw [trace, List.filterMap_append, List.filterMap_append, hnone, List.nil_append,
    List.filterMap_cons, hfinished]
  exact List.append_nil _

variable {source : Source} {config : Config} {model : Model} {violation : Violation}

/-- In a compiled graph the numbers of rounds are those from one to the number of rounds. -/
theorem compile_numbers (h : compile source config = .ok model) :
    (∀ key ∈ model.graph.propKeys, 1 ≤ model.graph.roundOf key) ∧
      (∀ key, model.graph.roundOf key ≤ model.rounds) ∧
      ∀ round, 1 ≤ round → round ≤ model.rounds → ∃ key, model.graph.roundOf key = round := by
  obtain ⟨registry, registered⟩ := exists_registered_of_compile h
  obtain ⟨-, -, hpending⟩ := compile_settled registered h
  rcases compile_timely h with ⟨hnone, hzero⟩ | ⟨htimely, last, -, hlast⟩
  · refine ⟨?_, ?_, by omega⟩
    · intro key hkey
      simp [Graph.propKeys, hnone] at hkey
    · intro key
      simp [Graph.roundOf, Graph.prop?, hnone]
  · refine ⟨?_, ?_, ?_⟩
    · intro key hkey
      obtain ⟨prop, hprop⟩ := Graph.exists_prop?_of_mem_propKeys hkey
      have hprompt := htimely.prompt hprop (by rw [hpending]; exact List.not_mem_nil)
      exact (List.max?_eq_some_iff.1 hprompt.max?_eq).2 1 List.mem_cons_self
    · intro key
      have hle := htimely.roundOf_le key
      simp only [Graph.stepped] at hle
      split at hle <;> omega
    · intro round hround hle
      exact htimely.exists_of_le hpending hround (hlast ▸ hle)

/-- The events of a compilation that succeeds are those of its model. -/
theorem events_of_compile (h : compile source config = .ok model) :
    (Compilation.run source config).events = model.trace := by
  obtain ⟨registry, registered⟩ := exists_registered_of_compile h
  have hcomplete := Registry.resolveAll_complete registered
  obtain ⟨hresult, hgraph⟩ := (compile_eq_ok_iff registered).1 h
  obtain ⟨hfresh, -, -⟩ := compile_settled registered h
  have hrounds : registry.resolveRounds = ⟨.ok model.rounds, registry.resolveRounds.registry⟩ := by
    rw [← hresult]
  have hevents := Registry.resolveRounds_records hcomplete.realizes.declared hcomplete.pending
    hrounds
  have hlast : (Compilation.run source config).events =
      registry.resolveRounds.registry.events ++ [Compilation.lastEvent (.ok model)] := by
    rw [← h, ← Compilation.settle_eq registered]
    rfl
  rw [hlast, hevents, hgraph, hcomplete.events_eq, Graph.types_eq_of_fresh hfresh]
  rfl

/-- A compilation that succeeds is told by its events. -/
theorem Model.toldBy_of_compile (h : compile source config = .ok model) :
    model.ToldBy (Compilation.run source config).events := by
  obtain ⟨hfirst, hlast, hall⟩ := compile_numbers h
  obtain ⟨registry, registered⟩ := exists_registered_of_compile h
  have hrealizes : model.graph.Realizes source config :=
    (Registry.resolveAll_complete registered).realizes.of_fresh_eq (compile_settled registered h).1
  have hcounts : model.trace.filterMap Event.pending? =
      (List.range' 1 model.rounds).map model.graph.countAfter := by
    rw [model.filterMap_trace (fun _ => rfl) fun _ _ _ => rfl, Graph.pending?_flatMap]
  rw [events_of_compile h]
  refine ⟨rfl, ?_, hrealizes.nodup_texts, ?_, ?_⟩
  · rw [model.filterMap_trace (fun _ => rfl) fun _ _ _ => rfl]
    exact Graph.label?_flatMap_perm hfirst hlast
  · rw [hcounts, List.pairwise_map]
    refine (List.pairwise_lt_range' 1).imp_of_mem fun {earlier round} _ hmem hlt => ?_
    obtain ⟨hround, hle⟩ := List.mem_range'_1.1 hmem
    obtain ⟨key, hkey⟩ := hall round hround (by omega)
    exact Graph.countAfter_lt hkey hlt
  · intro count hcount
    rw [hcounts, List.getLast?_map, List.getLast?_range'] at hcount
    split at hcount
    · cases hcount
    · obtain rfl : model.graph.countAfter (1 + model.rounds - 1) = count := by simpa using hcount
      exact Graph.countAfter_eq_zero fun key => (hlast key).trans (by omega)

/-- A compilation that fails is told by its events. -/
theorem Violation.toldBy_of_compile (h : compile source config = .error violation) :
    violation.ToldBy (Compilation.run source config).events := by
  have hevents : (Compilation.run source config).events =
      (Compilation.settle source config).registry.events ++
        [.compileFailed violation.fault.cls violation.diagnostic.text] := by
    show _ ++ [Compilation.lastEvent (Compilation.run source config).result] = _
    rw [show (Compilation.run source config).result = .error violation from h]
    rfl
  rw [hevents]
  cases houtcome : Registry.resolveAll source config {} with
  | mk result registry =>
    cases result with
    | error first =>
      obtain ⟨-, ⟨types, props, hadds⟩, -⟩ := Registry.forEach_resolve .empty houtcome
      have hregistered : (Compilation.settle source config).registry.events =
          types.map TypeNode.registered := by
        simp only [Compilation.settle, houtcome, hadds.events_eq]
        rfl
      exact ⟨types.map TypeNode.registered, [], by rw [hregistered, List.append_nil],
        fun _ => isRegistration_registered, by simp⟩
    | ok done =>
      obtain ⟨resolutions, hresolutions, hall⟩ :=
        Registry.reports_of_resolving registry.resolveRounds_resolving
      have hcomplete := Registry.resolveAll_complete houtcome
      rw [Compilation.settle_eq houtcome, hresolutions, hcomplete.events_eq]
      exact ⟨_, resolutions, rfl, fun _ => isRegistration_registered, hall⟩

/-- The events of a compilation tell what it did. If it succeeds, they are one for each type in the
order of registration, then for each round one for each property that was settled in it and the
number of those that are still pending, and the end; each property is reported once, and from
round to round there are fewer pending, none only after the last. If it fails, no type is reported
after anything was settled, and the last event and no other says what failed. -/
theorem Compilation.run_told (source : Source) (config : Config) :
    match Compilation.run source config with
    | ⟨.ok model, events⟩ => model.ToldBy events
    | ⟨.error violation, events⟩ => violation.ToldBy events := by
  cases hrun : Compilation.run source config with
  | mk result events =>
    cases result with
    | ok model =>
      have hmodel : compile source config = .ok model := congrArg Compilation.result hrun
      have htold := Model.toldBy_of_compile hmodel
      rwa [hrun] at htold
    | error violation =>
      have hviolation : compile source config = .error violation := congrArg Compilation.result hrun
      have htold := Violation.toldBy_of_compile hviolation
      rwa [hrun] at htold

example : (Compilation.run orders {}).events = [
    .typeRegistered "Order" .entity 3, .typeRegistered "Customer" .entity 2,
    .propertyResolved ⟨"Order", "id"⟩ .scalar 1,
    .propertyResolved ⟨"Order", "customer"⟩ .association 1,
    .propertyResolved ⟨"Customer", "id"⟩ .scalar 1,
    .propertyResolved ⟨"Customer", "name"⟩ .scalar 1, .roundFinished 1 1,
    .propertyResolved ⟨"Order", "title"⟩ (.expression ["customer.name"]) 2, .roundFinished 2 0,
    .compileFinished 2 5 2] := by
  decide +kernel

end Metamodel
