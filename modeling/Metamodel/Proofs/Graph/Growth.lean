import Metamodel.Proofs.Graph.Index
import Metamodel.Proofs.Graph.Placement

/-!
# Growing graphs

Registration adds a type at the end of a graph and nothing else ever changes the types, so what a
graph places stays in its place (`Places.mono`). `Graph.Realizes` holds of the graphs in which
every type has the lineage that the source gives to its name; adding a legal blueprint under a
placed parent keeps it (`Realizes.add`).
-/

namespace Metamodel

namespace Graph

/-- A graph goes on where another stops, except for how far resolution has come. -/
structure Grows (before after : Graph) : Prop where
  types : before.types <+: after.types
  props : before.fresh.props <+: after.fresh.props

namespace Grows

variable {first second third : Graph}

theorem trans (h : first.Grows second) (h' : second.Grows third) : first.Grows third :=
  ⟨h.types.trans h'.types, h.props.trans h'.props⟩

/-- Resolution makes a graph grow by nothing. -/
theorem of_fresh_eq (h : first.fresh = second.fresh) : first.Grows second :=
  ⟨by rw [types_eq_of_fresh h], by rw [h]⟩

/-- Types stay where they are. -/
theorem type? (h : first.Grows second) {key : TypeKey} {type : TypeNode}
    (hkey : first.type? key = some type) : second.type? key = some type := by
  obtain ⟨more, hmore⟩ := h.types
  obtain ⟨hlt, -⟩ := List.getElem?_eq_some_iff.1 hkey
  rw [Graph.type?, ← hmore, List.getElem?_append_left hlt]
  exact hkey

/-- Properties stay where they are, except for how far resolution has come. -/
theorem prop?_fresh (h : first.Grows second) {key : PropKey} {prop : Property}
    (hkey : first.fresh.prop? key = some prop) : second.fresh.prop? key = some prop := by
  obtain ⟨more, hmore⟩ := h.props
  obtain ⟨hlt, -⟩ := List.getElem?_eq_some_iff.1 hkey
  rw [Graph.prop?, ← hmore, List.getElem?_append_left hlt]
  exact hkey

theorem exists_prop? (h : first.Grows second) {key : PropKey} {prop : Property}
    (hkey : first.prop? key = some prop) : ∃ prop', second.prop? key = some prop' := by
  have hfresh : first.fresh.prop? key = some prop.fresh := by
    rw [Graph.prop?_fresh, hkey, Option.map_some]
  have hlater := h.prop?_fresh hfresh
  rw [Graph.prop?_fresh, Option.map_eq_some_iff] at hlater
  obtain ⟨prop', hprop', -⟩ := hlater
  exact ⟨prop', hprop'⟩

end Grows

variable {graph after : Graph} {type : TypeNode} {blueprint : Blueprint} {lineage : Lineage}

/-- A registered name stays registered, under the same key. -/
theorem Indexed.find?_mono (h : graph.Indexed) (hafter : after.Indexed)
    (hgrows : graph.Grows after) {name : String} (hname : graph.find? name = some type) :
    after.find? name = some type := by
  obtain ⟨hmem, rfl⟩ := h.find?_eq_some_iff.1 hname
  exact hafter.find?_qualifiedName (hgrows.types.mem hmem)

theorem Builds.mono {inherited : Special → Option PropKey}
    (h : graph.Builds type blueprint inherited) (hgrows : graph.Grows after) :
    after.Builds type blueprint inherited :=
  { h with
    key := hgrows.type? h.key
    declared := h.declared.imp fun _ _ hkey => hgrows.prop?_fresh hkey }

/-- A placed type stays placed while the graph grows. -/
theorem Places.mono (h : graph.Places type lineage) (hgrows : graph.Grows after) :
    after.Places type lineage := by
  induction h with
  | root hbuilds hroot => exact .root (hbuilds.mono hgrows) hroot
  | child hbuilds hparent hlt _ ih => exact .child (hbuilds.mono hgrows) hparent hlt ih

/-- Adding a blueprint makes a graph grow. -/
theorem grows_add (graph : Graph) (blueprint : Blueprint) (ancestor : Option TypeKey) :
    graph.Grows (graph.add blueprint ancestor) :=
  ⟨List.prefix_append _ _, by simp [add, fresh]⟩

/-- The type of a blueprint added to a graph is the type of that blueprint. -/
theorem builds_add (graph : Graph) {blueprint : Blueprint} (ancestor : Option TypeKey)
    (hslots : blueprint.SlotsFilled) :
    (graph.add blueprint ancestor).Builds (graph.placeType blueprint ancestor) blueprint
      (fun special => (ancestor.bind graph.type?).bind (·.specials.get special)) where
  key := by simp [add, placeType, nextTypeKey, Graph.type?]
  qualifiedName := rfl
  package := rfl
  simpleName := rfl
  category := rfl
  scope := rfl
  names := rfl
  messages := rfl
  declared := by
    rw [List.forall₂_iff_get]
    refine ⟨by simp [placeType], ?_⟩
    intro index hkey hspec
    have hprops : (graph.add blueprint ancestor).prop? (graph.freshPropKey index) =
        some { blueprint.props[index] with declaringType := graph.nextTypeKey } := by
      simp only [add, prop?, freshPropKey]
      rw [List.getElem?_append_right (Nat.le_add_right _ _), Nat.add_sub_cancel_left]
      simp only [placeProps, List.getElem?_map, List.getElem?_eq_getElem hspec, Option.map_some]
    simp only [placeType, List.get_eq_getElem, List.getElem_map, List.getElem_range,
      Graph.prop?_fresh, hprops, Option.map_some]
    rfl
  specials := by
    intro special
    simp only [placeType, Specials.get_tabulate]
    cases hslot : blueprint.specials.get special with
    | empty => rfl
    | inherited => rfl
    | own index => simp [fillSlot, hslots special index hslot]

/-- Every type has its place and the lineage that the source gives to its name; names are
distinct and lead to the types that have them, and types declare all properties in order. -/
structure Realizes (graph : Graph) (source : Source) (config : Config) : Prop
    extends Indexed graph where
  names_nodup : (graph.types.map (·.qualifiedName)).Nodup
  declared : graph.types.flatMap (·.declared) = graph.propKeys
  placed : ∀ type ∈ graph.types, ∃ lineage,
    source.HasLineage config type.qualifiedName lineage ∧ graph.Places type lineage

variable {source : Source} {config : Config}

namespace Realizes

/-- Before anything is registered there is nothing to place. -/
theorem empty : Realizes {} source config where
  toIndexed := .empty
  names_nodup := by simp
  declared := by simp [propKeys]
  placed := by simp

/-- What is registered is declared. -/
theorem isSome_declaration? (h : graph.Realizes source config) {name : String}
    (hname : (graph.find? name).isSome) : (source.declaration? name).isSome := by
  obtain ⟨type, htype⟩ := Option.isSome_iff_exists.1 hname
  obtain ⟨hmem, rfl⟩ := h.find?_eq_some_iff.1 htype
  obtain ⟨lineage, hlineage, -⟩ := h.placed type hmem
  exact Option.isSome_iff_exists.2 hlineage.declared

/-- Every property is declared by a placed type, as its blueprint says. -/
theorem exists_owner (h : graph.Realizes source config) {key : PropKey} {prop : Property}
    (hprop : graph.prop? key = some prop) :
    ∃ type blueprint above, type ∈ graph.types ∧ key ∈ type.declared ∧
      source.HasLineage config type.qualifiedName (blueprint :: above) ∧
      graph.Places type (blueprint :: above) ∧ prop.declaringType = type.key ∧
      prop.toPropSpec ∈ blueprint.props := by
  -- the types declare all properties, so one of them declares this one
  obtain ⟨index⟩ := key
  have hlt := (List.getElem?_eq_some_iff.1 hprop).1
  have hmem : PropKey.mk index ∈ graph.types.flatMap (·.declared) := by
    simpa [h.declared, propKeys] using hlt
  obtain ⟨type, htype, hdeclared⟩ := List.mem_flatMap.1 hmem
  obtain ⟨lineage, hlineage, hplaces⟩ := h.placed type htype
  obtain ⟨blueprint, above, inherited, rfl, hbuilds⟩ := hplaces.head
  obtain ⟨found, hfound, howner, hspec⟩ := hbuilds.exists_prop? hdeclared
  obtain rfl := Option.some.inj (hprop.symm.trans hfound)
  exact ⟨type, blueprint, above, htype, hdeclared, hlineage, hplaces, howner, hspec⟩

/-- Every property is what a member becomes, in the declaration of the type that declares it. -/
theorem exists_origin (h : graph.Realizes source config) {key : PropKey} {prop : Property}
    (hprop : graph.prop? key = some prop) :
    ∃ owner ∈ graph.types, graph.type? prop.declaringType = some owner ∧
      ∃ declaration header, source.declaration? owner.qualifiedName = some declaration ∧
        Header.ofDeclaration source declaration = .ok header ∧
        ∃ member ∈ declaration.propertyMembers, ∃ id,
          member.spec source declaration.qualifiedName id = .ok prop.toPropSpec := by
  obtain ⟨owner, blueprint, above, howner, -, hlineage, hplaces, hdeclaring, hspec⟩ :=
    h.exists_owner hprop
  obtain ⟨declaration, header, hdeclared, hheader, hblueprint⟩ := hlineage.exists_declaration
  obtain ⟨-, -, props, hprops, -, -, rfl⟩ := Blueprint.ofDeclaration_eq_ok_iff.1 hblueprint
  obtain ⟨⟨member, id⟩, hentry, hmade⟩ :=
    List.Forall₂.exists_of_mem (Declaration.propSpecs_eq_ok_iff.1 hprops).flip hspec
  exact ⟨owner, howner, hdeclaring ▸ hplaces.type?_key, declaration, header, hdeclared, hheader,
    member, List.fst_mem_of_mem_zipIdx hentry, id, hmade⟩

/-- A property refers to the declaration that its type names, if there is one. -/
theorem reference_eq (h : graph.Realizes source config) {key : PropKey} {prop : Property}
    (hprop : graph.prop? key = some prop) :
    prop.reference =
      (source.declaration? prop.type.innermost).map fun _ => prop.type.innermost := by
  obtain ⟨_, -, -, _, _, -, -, member, -, id, hmade⟩ := h.exists_origin hprop
  have hspec := (Member.spec_eq_ok_iff.1 hmade).2.2
  rw [show prop.reference = _ from congrArg PropSpec.reference hspec,
    show prop.type = _ from congrArg PropSpec.type hspec]
  rfl

/-- Resolution keeps types in their places. -/
theorem of_fresh_eq (h : graph.Realizes source config) (heq : graph.fresh = after.fresh) :
    after.Realizes source config where
  toIndexed := h.toIndexed.congr heq
  names_nodup := types_eq_of_fresh heq ▸ h.names_nodup
  declared := by rw [← types_eq_of_fresh heq, ← propKeys_congr heq, h.declared]
  placed type htype := by
    obtain ⟨lineage, hlineage, hplaces⟩ := h.placed type (types_eq_of_fresh heq ▸ htype)
    exact ⟨lineage, hlineage, hplaces.mono (.of_fresh_eq heq)⟩

/-- Adding the blueprint of a new name keeps all types in their places, if the type itself has
its place. -/
theorem add (h : graph.Realizes source config) {ancestor : Option TypeKey}
    (hfresh : graph.keyOf? blueprint.qualifiedName = none)
    (hlineage : source.HasLineage config blueprint.qualifiedName lineage)
    (hplaces : (graph.add blueprint ancestor).Places (graph.placeType blueprint ancestor)
      lineage) :
    (graph.add blueprint ancestor).Realizes source config where
  toIndexed := h.toIndexed.add ancestor hfresh
  names_nodup := by
    simp only [Graph.add, List.map_append, List.map_cons, List.map_nil]
    refine List.nodup_append.2 ⟨h.names_nodup, by simp, ?_⟩
    intro name hname other hother heq
    have hother : other = blueprint.qualifiedName := List.mem_singleton.1 hother
    exact h.keyOf?_eq_none_iff.1 hfresh (hother ▸ heq ▸ hname)
  declared := by
    have hown : (graph.placeType blueprint ancestor).declared =
        ((List.range blueprint.props.length).map (graph.props.length + ·)).map PropKey.mk := by
      simp [placeType, freshPropKey, Function.comp_def]
    simp only [Graph.add, List.flatMap_append, List.flatMap_singleton, h.declared, hown, propKeys,
      placeProps, List.length_append, List.length_map, List.range_add, List.map_append]
  placed := by
    intro type htype
    simp only [Graph.add, List.mem_append, List.mem_singleton] at htype
    rcases htype with htype | rfl
    · obtain ⟨lineage, hlineage, hplaces⟩ := h.placed type htype
      exact ⟨lineage, hlineage, hplaces.mono (grows_add graph blueprint ancestor)⟩
    · exact ⟨lineage, hlineage, hplaces⟩

end Realizes

end Graph

end Metamodel
