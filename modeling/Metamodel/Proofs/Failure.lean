import Metamodel.Proofs.Graph.Whole
import Metamodel.Proofs.Independence

/-!
# What a failing registration leaves behind

A type is written to the graph only when all its checks have passed, and its ancestors are written
before it is checked. So a failing registration may leave types, but these are ancestors of the one
that is at fault, and they are as whole and as well reported as any other; of the names that were
waiting nothing is to be found. `Reachable.resolve_failsWhole` says so for every reachable registry.
Read `Registry.FailsWhole` first.
-/

namespace Metamodel

open Relation (ReflTransGen TransGen)

/-! ### Reports of registration -/

/-- The name of the type that an event reports as registered. -/
def Event.registeredName? : Event → Option String
  | .typeRegistered name _ _ => some name
  | _ => none

namespace Registry

variable {source : Source} {config : Config} {registry before after : Registry} {key : PropKey}
  {round : Nat} {outcome : Outcome Bool}

/-- Types are reported as they are registered: each once, and in order. -/
def Told (registry : Registry) : Prop :=
  registry.events.filterMap Event.registeredName? =
    registry.graph.types.map (·.qualifiedName)

theorem Adds.told {types : List TypeNode} {props : List Property}
    (h : before.Adds types props after) (hbefore : before.Told) : after.Told := by
  have hnew : (types.map TypeNode.registered).filterMap Event.registeredName? =
      types.map (·.qualifiedName) := by
    rw [List.filterMap_map]
    exact congrFun List.filterMap_eq_map types
  rw [Told] at hbefore ⊢
  rw [h.events_eq, h.types_eq, List.filterMap_append, List.map_append, hbefore, hnew]

theorem Told.record (h : registry.Told) {event : Event} (hevent : event.registeredName? = none) :
    (registry.record event).Told := by
  rw [Told] at h ⊢
  rw [Registry.record, List.filterMap_append, h]
  simp [hevent]

theorem Step.told (hstep : Step round key registry outcome) (h : registry.Told) :
    outcome.registry.Told := by
  cases hstep with
  | idle | waits | fails => exact h
  | settles =>
    refine Told.record ?_ rfl
    exact h

/-- Every move reports the types that it registers. -/
theorem Moves.told (hmove : Moves source config before after) (h : before.Told) : after.Told := by
  cases hmove with
  | registers name =>
    obtain ⟨types, props, hadds, -⟩ := resolve_adds source config name before
    exact hadds.told h
  | steps round key => exact (resolveProperty_step round key before).told h
  | reports round pending => exact h.record rfl
  | givesUp => exact h

end Registry

/-- In a reachable registry each type has been reported once. -/
theorem Reachable.told {source : Source} {config : Config} {registry : Registry}
    (h : Reachable source config registry) : registry.Told := by
  have hmoves := LeadsTo.moves h
  clear h
  induction hmoves with
  | refl => rfl
  | tail _ hmove ih => exact hmove.told ih

/-! ### Failures -/

namespace Registry

variable {source : Source} {config : Config} {before after : Registry} {name : String}
  {violation : Violation}

/-- A call for a name fares alike in two registries: it fails for the same reasons, or it gives a
type that is the same in names, with its ancestors and what they declare. -/
structure FaresAlike (source : Source) (config : Config) (before : Registry) (name : String)
    (after : Registry) : Prop where
  error_iff : ∀ violation, (after.resolve source config name).result = .error violation ↔
    (before.resolve source config name).result = .error violation
  chain_eq : ∀ old new, (before.resolve source config name).result = .ok old →
    (after.resolve source config name).result = .ok new →
    let graph := (before.resolve source config name).registry.graph
    let other := (after.resolve source config name).registry.graph
    (other.chain new).map other.typeInNames = (graph.chain old).map graph.typeInNames

/-- What a failing registration leaves behind. -/
structure FailsWhole (source : Source) (config : Config) (before : Registry) (name : String)
    (violation : Violation) (waiting : List String) (failing : String) (types : List TypeNode)
    (props : List Property) (after : Registry) : Prop where
  /-- The names that wait, each for its ancestor, until one is at fault. -/
  climb : source.Climb name waiting failing
  breaks : source.Breaks config waiting failing violation
  blamed : violation.subject.typeName = failing
  /-- What was there is as it was, and what is new comes after it. -/
  types_eq : after.graph.types = before.graph.types ++ types
  props_eq : after.graph.props = before.graph.props ++ props
  byName_eq : after.graph.byName = (types.map TypeNode.entry).reverse ++ before.graph.byName
  events_eq : after.events = before.events ++ types.map TypeNode.registered
  /-- What is new is strictly above the name at fault, whole, and reported once. -/
  above : ∀ type ∈ types,
    TransGen source.Ascends failing type.qualifiedName ∧ type.qualifiedName ≠ failing
  whole : ∀ type ∈ types, after.graph.Whole source type
  told : ∀ type ∈ types,
    (after.events.filterMap Event.registeredName?).count type.qualifiedName = 1
  /-- Of the names that wait and the one at fault there is neither an entry in the index nor a
  type nor a property. -/
  unlisted : ∀ busy ∈ waiting ++ [failing], after.graph.keyOf? busy = none
  absent : ∀ type ∈ after.graph.types, type.qualifiedName ∉ waiting ++ [failing]
  owned : ∀ prop ∈ after.graph.props, ∃ type ∈ after.graph.types,
    prop.declaringType = type.key ∧ type.qualifiedName ∉ waiting ++ [failing]
  /-- Nothing is left under construction, and every name fares as before. -/
  inProgress_eq : after.inProgress = before.inProgress
  later : ∀ other, before.FaresAlike source config other after

/-- Whether and why a name cannot be registered is the same for all registries in which every type
has its place and nothing is under construction. -/
theorem resolve_eq_error_iff (hbefore : before.graph.Realizes source config)
    (hafter : after.graph.Realizes source config) (hidle : before.inProgress = [])
    (hidle' : after.inProgress = []) (name : String) (violation : Violation) :
    (after.resolve source config name).result = .error violation ↔
      (before.resolve source config name).result = .error violation := by
  by_cases hlineage : ∃ lineage, source.HasLineage config name lineage
  · obtain ⟨key, hkey⟩ := (resolve_ok_iff hbefore hidle name).2 hlineage
    obtain ⟨key', hkey'⟩ := (resolve_ok_iff hafter hidle' name).2 hlineage
    rw [hkey, hkey']
    constructor <;> nofun
  · have hfruitless : before.Fruitless source config := by
      intro busy hbusy
      rw [hidle] at hbusy
      cases hbusy
    obtain ⟨blamed, hblamed, hblamed'⟩ :=
      resolve_error hbefore hfruitless hlineage after hafter (hidle.trans hidle'.symm)
    rw [hblamed, hblamed']

/-- A name that is registered from two registries in which every type has its place has the same
chain of types in names. -/
theorem map_chain_of_resolve_ok (hbefore : before.graph.Realizes source config)
    (hafter : after.graph.Realizes source config) {old new : TypeKey}
    (hold : (before.resolve source config name).result = .ok old)
    (hnew : (after.resolve source config name).result = .ok new) :
    ((after.resolve source config name).registry.graph.chain new).map
        (after.resolve source config name).registry.graph.typeInNames =
      ((before.resolve source config name).registry.graph.chain old).map
        (before.resolve source config name).registry.graph.typeInNames := by
  obtain ⟨hrealizes, -, hfound⟩ := resolve_registers hbefore name
  obtain ⟨hrealizes', -, hfound'⟩ := resolve_registers hafter name
  obtain ⟨type, htype, rfl⟩ := hfound hold
  obtain ⟨type', htype', rfl⟩ := hfound' hnew
  obtain ⟨hmem, rfl⟩ := hrealizes.find?_eq_some_iff.1 htype
  obtain ⟨hmem', hname⟩ := hrealizes'.find?_eq_some_iff.1 htype'
  obtain ⟨lineage, hlineage, hplaces⟩ := hrealizes.placed type hmem
  obtain ⟨lineage', hlineage', hplaces'⟩ := hrealizes'.placed type' hmem'
  obtain rfl := hlineage.unique (hname ▸ hlineage')
  have htwins : Graph.Twins _ _ type type' := ⟨lineage, hplaces, hplaces'⟩
  exact htwins.map_chain

/-- Every name fares alike in all registries in which every type has its place and nothing is under
construction. -/
theorem FaresAlike.of_realizes (hbefore : before.graph.Realizes source config)
    (hafter : after.graph.Realizes source config) (hidle : before.inProgress = [])
    (hidle' : after.inProgress = []) : before.FaresAlike source config name after where
  error_iff := resolve_eq_error_iff hbefore hafter hidle hidle' name
  chain_eq _ _ := map_chain_of_resolve_ok hbefore hafter

end Registry

variable {source : Source} {config : Config} {registry : Registry} {name : String}
  {violation : Violation}

/-- A registration that fails leaves no partial type behind, from whatever reachable registry it
starts: earlier types and properties are as they were, new types are whole ancestors of the name at
fault and reported once, nothing is left of that name and of those that waited for it, and later
registrations do not notice. -/
theorem Reachable.resolve_failsWhole (h : Reachable source config registry)
    (hresult : (registry.resolve source config name).result = .error violation) :
    ∃ waiting failing types props, registry.FailsWhole source config name violation waiting failing
      types props (registry.resolve source config name).registry := by
  have hgraph := h.sound.realizes
  have hidle := h.sound.inProgress_eq
  obtain ⟨hrealizes, -, -⟩ := Registry.resolve_registers hgraph name
  obtain ⟨waiting, failing, hfails⟩ := Registry.resolve_failsAt hgraph hresult
  obtain ⟨types, props, hadds, habove⟩ := hfails.adds
  have hbreaks : source.Breaks config waiting failing violation := by
    simpa only [hidle, List.nil_append] using hfails.breaks
  have habsent : ∀ type ∈ (registry.resolve source config name).registry.graph.types,
      type.qualifiedName ∉ waiting ++ [failing] := by
    intro type htype hbusy
    exact hrealizes.keyOf?_eq_none_iff.1 (hfails.unregistered _ hbusy) (List.mem_map_of_mem htype)
  have hnew : ∀ type ∈ types,
      type ∈ (registry.resolve source config name).registry.graph.types := by
    intro type htype
    rw [hadds.types_eq]
    exact List.mem_append_right _ htype
  refine ⟨waiting, failing, types, props, {
    climb := hfails.climb
    breaks := hbreaks
    blamed := hbreaks.typeName_eq
    types_eq := hadds.types_eq
    props_eq := hadds.props_eq
    byName_eq := hadds.byName_eq
    events_eq := hadds.events_eq
    above := fun type htype => ⟨habove type htype, fun heq =>
      habsent type (hnew type htype) (by simp [heq])⟩
    whole := fun type htype => hrealizes.whole (hnew type htype)
    told := ?_
    unlisted := hfails.unregistered
    absent := habsent
    owned := ?_
    inProgress_eq := hadds.inProgress_eq
    later := fun _ => .of_realizes hgraph hrealizes hidle (hadds.inProgress_eq.trans hidle) }⟩
  · intro type htype
    rw [hadds.told h.told]
    exact List.count_eq_one_of_mem hrealizes.names_nodup (List.mem_map_of_mem (hnew type htype))
  · intro prop hprop
    obtain ⟨key, hkey⟩ := Graph.exists_prop?_eq_some hprop
    obtain ⟨type, _, _, htype, -, -, -, howner, -⟩ := hrealizes.exists_owner hkey
    exact ⟨type, htype, howner, habsent type htype⟩

/-- Entries of a journal, below a type that declares its date twice, below one that is legal; and
a place, which has nothing to do with them. -/
def journal : Source where
  declarations := {
    toList := [
      { simpleName := "Entry"
        tags := [.entity none]
        interfaces := ["Dated"]
        members := [{ name := "text", type := .named "string" }] },
      { simpleName := "Dated"
        tags := [.mappedSuperclass none false]
        interfaces := ["Numbered"]
        members := [
          { name := "date", type := .named "string" },
          { name := "date", type := .named "string" }] },
      { simpleName := "Numbered"
        tags := [.mappedSuperclass none false]
        members := [{ name := "number", type := .named "int", tags := [.id] }] },
      { simpleName := "Place"
        tags := [.embeddable]
        members := [{ name := "street", type := .named "string" }] }]
    names_nodup := by decide }

theorem Reachable.resolve_failsWhole_journal :
    ∃ registry violation, Reachable journal {} registry ∧
      (registry.resolve journal {} "Entry").result = .error violation ∧
      let after := (registry.resolve journal {} "Entry").registry
      registry.graph.types.map (·.qualifiedName) = ["Place"] ∧
      after.graph.types.map (·.qualifiedName) = ["Place", "Numbered"] ∧
      ∃ waiting failing types props, registry.FailsWhole journal {} "Entry" violation waiting
        failing types props after := by
  have hreachable : LeadsTo journal {} {} _ := .step (.resolve "Place") .refl
  exact ⟨_, .ofMember "Dated" "date" .redeclared, hreachable, by decide +kernel,
    by decide +kernel, by decide +kernel,
    Reachable.resolve_failsWhole hreachable (by decide +kernel)⟩

end Metamodel
