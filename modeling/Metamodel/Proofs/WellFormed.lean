import Metamodel.Proofs.Calls
import Metamodel.Proofs.Settlement

/-!
# Reachable registries are well formed

Keys are positions, so a graph is only as good as the care with which they are handed out. In a
well-formed graph every key leads where it should: types stand at their own keys and are found by
their names, they declare all properties one after the other, ancestors come before descendants,
and whatever a type or a property refers to is there. Calls keep this, failing ones included, and
leave nothing under construction (`Reachable.wellFormed`). Read `Registry.Sound` first: it is what
each move keeps.
-/

namespace Metamodel

open Relation (ReflTransGen)

namespace Graph

variable {graph before after : Graph} {prop : Property}

/-- What a property is settled to is in the graph: the type that it links to and the properties at
the segments of its dependencies. -/
structure Covers (graph : Graph) (settlement : Settlement) : Prop where
  target : ∀ key, settlement.target = some key → ∃ type, graph.type? key = some type
  segments : ∀ dependency ∈ settlement.dependencies, ∀ key ∈ dependency.segments,
    ∃ prop, graph.prop? key = some prop

theorem Covers.mono {settlement : Settlement} (h : before.Covers settlement)
    (hgrows : before.Grows after) : after.Covers settlement where
  target key hkey := by
    obtain ⟨type, htype⟩ := h.target key hkey
    exact ⟨type, hgrows.type? htype⟩
  segments dependency hmem key hkey := by
    obtain ⟨prop, hprop⟩ := h.segments dependency hmem key hkey
    exact hgrows.exists_prop? hprop

/-- Nothing is always in the graph. -/
theorem covers_nothing (graph : Graph) : graph.Covers {} :=
  ⟨by simp, by simp⟩

/-- A dependency that is followed with success leads along properties of the graph. -/
theorem exists_prop?_of_walkDependency {path : String} {owner : TypeKey} {segments : List String}
    {keys : List PropKey} (h : graph.walkDependency path owner segments = .ok (some keys)) :
    ∀ key ∈ keys, ∃ prop, graph.prop? key = some prop := by
  induction segments generalizing owner keys with
  | nil =>
    cases h
    simp
  | cons segment rest ih =>
    rw [walkDependency] at h
    cases hfound : graph.findProp? owner segment with
    | none => simp [dependencyAt, hfound] at h
    | some key =>
      obtain ⟨-, prop, hkey, -⟩ := findProp?_eq_some hfound
      simp only [dependencyAt, hfound] at h
      split at h
      · -- the last segment
        split at h
        · simp at h
        · simp only [Except.ok.injEq, Option.some.injEq] at h
          subst h
          simpa using ⟨prop, hkey⟩
      · split at h
        · simp at h
        · split at h
          · simp at h
          · simp only [Except.map_eq_ok_iff, Option.map_eq_some_iff] at h
            obtain ⟨_, hwalk, keys, rfl, rfl⟩ := h
            rw [List.forall_mem_cons]
            exact ⟨⟨prop, hkey⟩, ih hwalk⟩

theorem exists_prop?_of_followDependencies {owner : TypeKey} {paths : List String}
    {dependencies : List PropPath}
    (h : graph.followDependencies owner paths = .ok (some dependencies)) :
    ∀ dependency ∈ dependencies, ∀ key ∈ dependency.segments,
      ∃ prop, graph.prop? key = some prop := by
  induction paths generalizing dependencies with
  | nil =>
    cases h
    simp
  | cons path rest ih =>
    rw [followDependencies] at h
    split at h
    · cases h
    · cases h
    · next segments hwalk =>
      simp only [Except.map_eq_ok_iff, Option.map_eq_some_iff] at h
      obtain ⟨_, hrest, dependencies, rfl, rfl⟩ := h
      rw [List.forall_mem_cons]
      exact ⟨exists_prop?_of_walkDependency hwalk, ih hrest⟩

/-- The type that a property refers to is one of the types. -/
theorem mem_types_of_linkedType? {type : TypeNode}
    (h : graph.linkedType? prop = .ok (some type)) : type ∈ graph.types := by
  rw [linkedType?] at h
  split at h
  · cases h
  · split at h
    · next found hfound =>
      cases h
      obtain ⟨key, -, htype⟩ := Option.bind_eq_some_iff.1 hfound
      exact List.mem_of_getElem? htype
    · cases h

/-- Where types stand at their own keys, properties settle to what is there. -/
theorem covers_of_attempt
    (hown : ∀ type ∈ graph.types, graph.type? type.key = some type) {settlement : Settlement}
    (h : graph.attempt prop = .ok (some settlement)) : graph.Covers settlement := by
  rw [attempt] at h
  cases hkind : prop.kind with
  | sql text =>
    simp only [hkind, Except.ok.injEq, Option.some.injEq] at h
    exact h ▸ graph.covers_nothing
  | scalar =>
    simp only [hkind, settleScalar, Except.map_eq_ok_iff, Except.bind_eq_ok_iff] at h
    obtain ⟨_, ⟨linked, hlinked, hsettle⟩, hsome⟩ := h
    cases hsome
    cases hsettle
    refine ⟨fun key hkey => ?_, by simp⟩
    obtain ⟨type, hfilter, rfl⟩ := Option.map_eq_some_iff.1 hkey
    obtain ⟨rfl, -⟩ := Option.filter_eq_some_iff.1 hfilter
    exact ⟨type, hown type (mem_types_of_linkedType? hlinked)⟩
  | association =>
    simp only [hkind, settleAssociation, Except.map_eq_ok_iff, Except.bind_eq_ok_iff] at h
    obtain ⟨_, ⟨linked, hlinked, hsettle⟩, hsome⟩ := h
    cases hsome
    split at hsettle
    · cases hsettle
    · next type =>
      split at hsettle
      · cases hsettle
        refine ⟨fun key hkey => ?_, by simp⟩
        cases hkey
        exact ⟨type, hown type (mem_types_of_linkedType? hlinked)⟩
      · cases hsettle
  | expression paths =>
    simp only [hkind, Except.map_eq_ok_iff, Option.map_eq_some_iff] at h
    obtain ⟨_, hfollow, dependencies, rfl, rfl⟩ := h
    exact ⟨by simp, exists_prop?_of_followDependencies hfollow⟩

end Graph

/-- What a resolution has settled, nothing unless it is settled. -/
def Resolution.settlement (resolution : Resolution) : Settlement where
  target := resolution.target?
  dependencies := resolution.dependencies

namespace Registry

variable {source : Source} {config : Config} {registry before after : Registry} {key : PropKey}
  {round : Nat} {outcome : Outcome Bool}

/-- Every type has its place, nothing is under construction, and properties are settled to what
is in the graph. -/
structure Sound (source : Source) (config : Config) (registry : Registry) : Prop where
  realizes : registry.graph.Realizes source config
  inProgress_eq : registry.inProgress = []
  covers : ∀ prop ∈ registry.graph.props, registry.graph.Covers prop.resolution.settlement

namespace Sound

/-- The empty registry is sound. -/
theorem empty : Sound source config {} :=
  ⟨.empty, rfl, by simp⟩

/-- Types stand at their own keys. -/
theorem type?_key (h : registry.Sound source config) :
    ∀ type ∈ registry.graph.types, registry.graph.type? type.key = some type := by
  intro type htype
  obtain ⟨lineage, -, hplaces⟩ := h.realizes.placed type htype
  exact hplaces.type?_key

/-- A new resolution keeps a registry sound if what it settles is in the graph. -/
theorem setResolution (h : registry.Sound source config) (key : PropKey) {resolution : Resolution}
    (hcovers : registry.graph.Covers resolution.settlement) :
    (registry.setResolution key resolution).Sound source config := by
  have hgrows : registry.graph.Grows (registry.graph.setResolution key resolution) :=
    .of_fresh_eq (by simp)
  refine ⟨h.realizes.of_fresh_eq (by simp [Registry.setResolution]), h.inProgress_eq, ?_⟩
  intro prop hprop
  obtain ⟨other, hother⟩ := Graph.exists_prop?_eq_some hprop
  refine Graph.Covers.mono ?_ hgrows
  rw [Registry.setResolution, Graph.prop?_setResolution] at hother
  split at hother
  · obtain ⟨_, -, rfl⟩ := Option.map_eq_some_iff.1 hother
    exact hcovers
  · exact h.covers prop (List.mem_of_getElem? hother)

/-- Events do not matter. -/
theorem record (h : registry.Sound source config) (event : Event) :
    (registry.record event).Sound source config :=
  ⟨h.realizes, h.inProgress_eq, h.covers⟩

/-- Registration of a name keeps a registry sound, also where it fails. -/
theorem resolve (h : registry.Sound source config) (name : String) :
    (registry.resolve source config name).registry.Sound source config := by
  obtain ⟨hrealizes, ⟨types, props, hadds⟩, -⟩ := resolve_registers h.realizes name
  refine ⟨hrealizes, hadds.inProgress_eq.trans h.inProgress_eq, ?_⟩
  intro prop hprop
  rw [hadds.props_eq, List.mem_append] at hprop
  rcases hprop with hold | hnew
  · exact (h.covers prop hold).mono hadds.grows
  · rw [hadds.pending prop hnew]
    exact Graph.covers_nothing _

end Sound

/-- A step keeps a registry sound, also where it fails. -/
theorem Step.sound (hstep : Step round key registry outcome) (h : registry.Sound source config) :
    outcome.registry.Sound source config := by
  cases hstep with
  | idle _ => exact h
  | waits _ _ _ => exact h
  | settles _ _ hattempt =>
    exact (h.setResolution key (Graph.covers_of_attempt h.type?_key hattempt)).record _
  | fails _ _ _ => exact h.setResolution key (Graph.covers_nothing _)

/-- Every move keeps a registry sound. -/
theorem Moves.sound (hmove : Moves source config before after) (h : before.Sound source config) :
    after.Sound source config := by
  cases hmove with
  | registers name => exact h.resolve name
  | steps round key => exact (resolveProperty_step round key before).sound h
  | reports round pending => exact h.record _
  | givesUp _ => exact h.setResolution _ (Graph.covers_nothing _)

/-- So does every sequence of moves. -/
theorem sound_of_moves (h : Relation.ReflTransGen (Moves source config) before after)
    (hsound : before.Sound source config) : after.Sound source config := by
  induction h with
  | refl => exact hsound
  | tail _ hmove ih => exact hmove.sound ih

end Registry

variable {source : Source} {config : Config} {registry : Registry}

/-- Calls keep a registry sound. -/
theorem LeadsTo.sound {start : Registry} (h : LeadsTo source config start registry)
    (hstart : start.Sound source config) : registry.Sound source config :=
  Registry.sound_of_moves h.moves hstart

/-- Every reachable registry is sound. -/
theorem Reachable.sound (h : Reachable source config registry) : registry.Sound source config :=
  LeadsTo.sound h .empty

/-! ### Well-formed graphs -/

namespace Graph

variable {graph : Graph} {type : TypeNode} {lineage : Lineage} {key : PropKey}

/-- A graph in which every key leads where it should. -/
structure WellFormed (graph : Graph) : Prop where
  /-- A name has the key of the one type that has the name. -/
  keyOf?_eq_some_iff : ∀ name key, graph.keyOf? name = some key ↔
    ∃ type, graph.type? key = some type ∧ type.qualifiedName = name
  /-- A type stands at its own key. -/
  key_eq : ∀ key type, graph.type? key = some type → type.key = key
  /-- Types declare all properties, one after the other and each once. -/
  declared_eq : graph.types.flatMap (·.declared) =
    (List.range graph.props.length).map PropKey.mk
  /-- A property knows the type that declares it. -/
  declaringType_eq : ∀ type ∈ graph.types, ∀ key ∈ type.declared,
    ∃ prop, graph.prop? key = some prop ∧ prop.declaringType = type.key
  /-- An ancestor is registered, and was before its descendants. -/
  superType_lt : ∀ type ∈ graph.types, ∀ ancestor, type.superType = some ancestor →
    ancestor.index < type.key.index ∧ ∃ parent, graph.type? ancestor = some parent
  /-- Special properties are there. -/
  specials_mem : ∀ type ∈ graph.types, ∀ special key, type.specials.get special = some key →
    ∃ prop, graph.prop? key = some prop
  /-- What properties are settled to is there. -/
  settlement_mem : ∀ prop ∈ graph.props, graph.Covers prop.resolution.settlement
  /-- What the views of a type list is there. -/
  views_mem : ∀ type ∈ graph.types, ∀ key,
    key ∈ graph.mergedProps type.key ∨ key ∈ graph.propsById type.key →
      ∃ prop, graph.prop? key = some prop

/-- What is listed is in the graph. -/
theorem Lists.exists_prop? {keys : List PropKey} {props : List LineageProp}
    (h : graph.Lists keys props) (hkey : key ∈ keys) : ∃ prop, graph.prop? key = some prop := by
  obtain ⟨named, -, hnamed⟩ := List.Forall₂.exists_of_mem h hkey
  obtain ⟨prop, hprop, -⟩ := Option.map_eq_some_iff.1 hnamed
  exact ⟨prop, hprop⟩

/-- A special property is in the graph, whichever ancestor it comes from. -/
theorem Places.exists_special (h : graph.Places type lineage) {special : Special}
    (hkey : type.specials.get special = some key) : ∃ prop, graph.prop? key = some prop := by
  have hown {type : TypeNode} {blueprint : Blueprint} {inherited : Special → Option PropKey}
      (hbuilds : graph.Builds type blueprint inherited) {index : Nat}
      (hindex : type.declared[index]? = some key) : ∃ prop, graph.prop? key = some prop := by
    obtain ⟨prop, hprop, -⟩ := hbuilds.exists_prop? (List.mem_of_getElem? hindex)
    exact ⟨prop, hprop⟩
  induction h with
  | root hbuilds _ =>
    rw [hbuilds.specials special] at hkey
    split at hkey
    · cases hkey
    · cases hkey
    · exact hown hbuilds hkey
  | child hbuilds _ _ _ ih =>
    rw [hbuilds.specials special] at hkey
    split at hkey
    · cases hkey
    · exact ih hkey
    · exact hown hbuilds hkey

/-- A placed type has its ancestor, if any, at a smaller key. -/
theorem Places.superType_lt (h : graph.Places type lineage) {ancestor : TypeKey}
    (hancestor : type.superType = some ancestor) :
    ancestor.index < type.key.index ∧ ∃ parent, graph.type? ancestor = some parent := by
  cases h with
  | root _ hroot =>
    rw [hroot] at hancestor
    cases hancestor
  | child _ hparent hlt hplaces =>
    obtain rfl := Option.some.inj (hparent.symm.trans hancestor)
    exact ⟨hlt, _, hplaces.type?_key⟩

/-- The views of a placed type list what is in the graph. -/
theorem Places.exists_of_view (h : graph.Places type lineage)
    (hkey : key ∈ graph.mergedProps type.key ∨ key ∈ graph.propsById type.key) :
    ∃ prop, graph.prop? key = some prop := by
  rcases hkey with hkey | hkey
  · exact h.lists_mergedProps.exists_prop? hkey
  · exact h.lists_propsById.exists_prop? hkey

variable {source : Source} {config : Config}

end Graph

/-- The graph of a sound registry is well formed. -/
theorem Registry.Sound.graph_wellFormed (h : registry.Sound source config) :
    registry.graph.WellFormed where
  keyOf?_eq_some_iff name key := h.realizes.keyOf?_eq_some_iff
  key_eq key type htype := h.realizes.key htype
  declared_eq := h.realizes.declared
  declaringType_eq type htype key hkey := by
    obtain ⟨lineage, -, hplaces⟩ := h.realizes.placed type htype
    obtain ⟨blueprint, above, inherited, -, hbuilds⟩ := hplaces.head
    obtain ⟨prop, hprop, howner, -⟩ := hbuilds.exists_prop? hkey
    exact ⟨prop, hprop, howner⟩
  superType_lt type htype ancestor hancestor := by
    obtain ⟨lineage, -, hplaces⟩ := h.realizes.placed type htype
    exact hplaces.superType_lt hancestor
  specials_mem type htype special key hkey := by
    obtain ⟨lineage, -, hplaces⟩ := h.realizes.placed type htype
    exact hplaces.exists_special hkey
  settlement_mem := h.covers
  views_mem type htype key hkey := by
    obtain ⟨lineage, -, hplaces⟩ := h.realizes.placed type htype
    exact hplaces.exists_of_view hkey

/-- After any calls from the empty registry on, failing ones included, the graph is well formed
and nothing is under construction. -/
theorem Reachable.wellFormed (h : Reachable source config registry) :
    registry.graph.WellFormed ∧ registry.inProgress = [] :=
  ⟨h.sound.graph_wellFormed, h.sound.inProgress_eq⟩

theorem Reachable.wellFormed_orders :
    ∃ registry, Reachable orders {} registry ∧
      registry.graph.types.map (·.qualifiedName) = ["Order", "Customer"] ∧
      registry.graph.props.map (·.resolution.name) =
        ["Resolved", "Pending", "Failed", "Pending", "Pending"] ∧
      registry.graph.WellFormed ∧ registry.inProgress = [] := by
  -- the second and the third call fail: there is no such name, and no customer to link to yet
  have hreachable : LeadsTo orders {} {} _ :=
    .step .linkTargets <| .step (.resolveType ⟨0⟩ 1) <| .step (.resolve "Invoice") <|
      .step (.resolve "Order") .refl
  exact ⟨_, hreachable, by decide +kernel, by decide +kernel, Reachable.wellFormed hreachable⟩

end Metamodel
