import Metamodel.Proofs.Lineage.Numbers
import Metamodel.Proofs.Roles

/-!
# Views of registered types

A type is seen in three ways: as a merged view with identities first, as a list in the order of
numbers, and by the names of its properties. `Graph.ViewsAgree` says that all three show the same,
namely what the type and its ancestors declare, and that numbers count along the chain from 1 on.
They do so in every reachable registry (`Reachable.viewsAgree`).
-/

namespace Metamodel

open Relation (ReflTransGen TransGen)

/-- Lists are the same if a function with distinct values on one of them gives the same on both. -/
theorem List.eq_of_map_eq {α β : Type} {f : α → β} {items others : List α}
    (hnodup : (items.map f).Nodup) (hmem : ∀ item ∈ others, item ∈ items)
    (h : items.map f = others.map f) : items = others := by
  have hlength : items.length = others.length := by simpa using congrArg List.length h
  refine List.ext_getElem hlength fun index hleft hright => ?_
  refine List.inj_on_of_nodup_map hnodup (List.getElem_mem hleft)
    (hmem _ (List.getElem_mem hright)) ?_
  simpa [List.getElem?_eq_getElem hleft, List.getElem?_eq_getElem hright] using
    congrArg (·[index]?) h

namespace Graph

variable {source : Source} {config : Config} {graph : Graph} {type : TypeNode}
  {lineage : Lineage} {name : String} {key : PropKey}

/-- The views of a type agree with each other and with what its chain of ancestors declares. -/
structure ViewsAgree (graph : Graph) (type : TypeNode) : Prop where
  /-- The merged view has what the type and its ancestors declare, each property once. -/
  nodup : (graph.mergedProps type.key).Nodup
  mem_iff : ∀ key, key ∈ graph.mergedProps type.key ↔
    ∃ owner, (owner = type ∨ graph.InheritsFrom type owner) ∧ key ∈ owner.declared
  /-- Names are distinct, so each property is found under its own. -/
  names_nodup : ((graph.mergedProps type.key).map fun key => (graph.label key).name).Nodup
  findProp?_eq : ∀ key ∈ graph.mergedProps type.key, ∃ prop, graph.prop? key = some prop ∧
    graph.findProp? type.key prop.name = some key
  /-- The numbers are those from 1 to the number of properties. -/
  ids_perm : ((graph.mergedProps type.key).map graph.idOf).Perm
    (List.range' 1 (graph.mergedProps type.key).length)
  maxPropId_eq : graph.maxPropId type.key = (graph.mergedProps type.key).length
  /-- The numbers of an ancestor are below those of the type itself. -/
  idOf_lt : ∀ ancestor, graph.InheritsFrom type ancestor →
    ∀ inherited ∈ graph.mergedProps ancestor.key, ∀ own ∈ type.declared,
      graph.idOf inherited < graph.idOf own
  /-- The other view has the same properties in the order of their numbers. -/
  propsById_perm : (graph.propsById type.key).Perm (graph.mergedProps type.key)
  ids_propsById : (graph.propsById type.key).map graph.idOf =
    List.range' 1 (graph.mergedProps type.key).length
  /-- The merged view has that order too, but for the identity, which comes first. -/
  mergedProps_eq : graph.mergedProps type.key =
    match type.specials.get .identity with
    | none => graph.propsById type.key
    | some key => key :: (graph.propsById type.key).erase key

namespace Places

/-- In the order of numbers the properties of a placed type are numbered from 1 on. -/
theorem ids_propsById (h : graph.Places type lineage)
    (hlineage : source.HasLineage config name lineage) :
    (graph.propsById type.key).map graph.idOf =
      List.range' 1 (graph.mergedProps type.key).length := by
  rw [h.lists_propsById.map_idOf, hlineage.propsById_eq, hlineage.ids_byLevel,
    h.lists_mergedProps.length_eq, lineage.mergedProps_perm_byLevel.length_eq]

theorem propsById_perm (graph : Graph) (type : TypeKey) :
    (graph.propsById type).Perm (graph.mergedProps type) :=
  List.mergeSort_perm ..

theorem ids_perm (h : graph.Places type lineage)
    (hlineage : source.HasLineage config name lineage) :
    ((graph.mergedProps type.key).map graph.idOf).Perm
      (List.range' 1 (graph.mergedProps type.key).length) := by
  rw [← h.ids_propsById hlineage]
  exact ((propsById_perm graph type.key).map _).symm

/-- The merged view of a placed type is in the order of numbers, but for the identities. -/
theorem mergedProps_eq (h : graph.Places type lineage)
    (hlineage : source.HasLineage config name lineage) :
    graph.mergedProps type.key =
      (graph.propsById type.key).filter graph.isId ++
        (graph.propsById type.key).filter (!graph.isId ·) := by
  -- numbers are distinct, and the two lists have the same
  refine List.eq_of_map_eq ((h.ids_perm hlineage).nodup_iff.2 List.nodup_range') ?_ ?_
  · intro key hkey
    rw [← (propsById_perm graph type.key).mem_iff]
    exact (List.filter_append_perm _ _).mem_iff.1 hkey
  · rw [h.lists_mergedProps.map_idOf, h.lists_propsById.identitiesFirst.map_idOf,
      hlineage.mergedProps_eq]

/-- The one identity of a placed type, if it has any, is the one in its record. -/
theorem filter_isId_propsById (h : graph.Places type lineage)
    (hlineage : source.HasLineage config name lineage) :
    (graph.propsById type.key).filter graph.isId = (type.specials.get .identity).toList := by
  have hperm := (propsById_perm graph type.key).filter (graph.carries .identity)
  rw [h.filter_carries hlineage] at hperm
  exact List.Perm.eq_toList hperm

/-- The merged view of a placed type is in the order of numbers, but for its identity. -/
theorem mergedProps_eq_erase (h : graph.Places type lineage)
    (hlineage : source.HasLineage config name lineage) :
    graph.mergedProps type.key =
      match type.specials.get .identity with
      | none => graph.propsById type.key
      | some key => key :: (graph.propsById type.key).erase key := by
  have hidentity := h.filter_isId_propsById hlineage
  rw [h.mergedProps_eq hlineage, hidentity]
  cases hslot : type.specials.get .identity with
  | none =>
    rw [hslot, Option.toList_none, List.filter_eq_nil_iff] at hidentity
    exact List.filter_eq_self.2 (by simpa using hidentity)
  | some key =>
    have hnodup : (graph.propsById type.key).Nodup :=
      (propsById_perm graph type.key).nodup_iff.2 (List.Nodup.of_map _ (h.names_nodup hlineage))
    show key :: _ = key :: _
    rw [hnodup.erase_eq_filter]
    congr 1
    refine List.filter_congr fun other hother => ?_
    -- what is an identity is this one
    have hiff : graph.isId other = true ↔ other = key := by
      have hmem : other ∈ (graph.propsById type.key).filter graph.isId ↔ other = key := by
        rw [hidentity, hslot, Option.toList_some, List.mem_singleton]
      simpa [hother] using hmem
    rw [Bool.eq_iff_iff, Bool.not_eq_true', bne_iff_ne, ← Bool.not_eq_true, hiff]

/-- The numbers of what a placed type inherits are below those of what it declares. -/
theorem idOf_lt (h : graph.Places type lineage)
    (hlineage : source.HasLineage config name lineage) {ancestor : TypeNode}
    (hinherits : graph.InheritsFrom type ancestor) {inherited own : PropKey}
    (hinherited : inherited ∈ graph.mergedProps ancestor.key) (hown : own ∈ type.declared) :
    graph.idOf inherited < graph.idOf own := by
  obtain ⟨parent, hextends, hchain⟩ := TransGen.head'_iff.1 hinherits
  obtain ⟨-, blueprint, above, rfl, hparent⟩ := h.of_extends hextends
  obtain ⟨_, habove⟩ := hparent.exists_lineage hlineage
  obtain ⟨_, habove'⟩ := h.exists_of_inheritsFrom hinherits
  have hmem : inherited ∈ graph.mergedProps parent.key := by
    obtain ⟨owner, howner, hdeclared⟩ := habove'.mem_mergedProps_iff.1 hinherited
    exact hparent.mem_mergedProps_iff.2 ⟨owner, hchain.trans howner, hdeclared⟩
  have hle : graph.idOf inherited ≤ Lineage.maxPropId above := by
    have hid := (hparent.ids_perm habove).mem_iff.1 (List.mem_map_of_mem hmem)
    rw [List.mem_range'_1, hparent.lists_mergedProps.length_eq, ← habove.maxPropId_eq] at hid
    omega
  have hgt : Lineage.maxPropId above < graph.idOf own := by
    obtain ⟨_, _, _, heq, hbuilds⟩ := h.head
    cases heq
    have hid := List.mem_map_of_mem (f := graph.idOf) hown
    rw [hbuilds.lists_declared.map_idOf, hlineage.ids_ownProps, List.mem_range'_1] at hid
    omega
  omega

end Places

/-- In a graph of placed types all views agree. -/
theorem Realizes.views (h : graph.Realizes source config) (htype : type ∈ graph.types) :
    graph.ViewsAgree type := by
  obtain ⟨lineage, hlineage, hplaces⟩ := h.placed type htype
  have hnames := hplaces.names_nodup hlineage
  have hnodup : (graph.mergedProps type.key).Nodup := List.Nodup.of_map _ hnames
  have hperm := Places.propsById_perm graph type.key
  have hmax : graph.maxPropId type.key = (graph.mergedProps type.key).length := by
    rw [hplaces.maxPropId_eq, hlineage.maxPropId_eq, hplaces.lists_mergedProps.length_eq]
  refine {
    nodup := hnodup
    mem_iff := ?_
    names_nodup := hnames
    findProp?_eq := ?_
    ids_perm := hplaces.ids_perm hlineage
    maxPropId_eq := hmax
    idOf_lt := fun _ hinherits _ hinherited _ hown =>
      hplaces.idOf_lt hlineage hinherits hinherited hown
    propsById_perm := hperm
    ids_propsById := hplaces.ids_propsById hlineage
    mergedProps_eq := hplaces.mergedProps_eq_erase hlineage }
  · intro key
    simp only [hplaces.mem_mergedProps_iff, Relation.reflTransGen_iff_eq_or_transGen]
    rfl
  · intro key hkey
    obtain ⟨prop, hprop⟩ := hplaces.exists_of_view (.inl hkey)
    exact ⟨prop, hprop, findProp?_eq_of_nodup hnames hkey hprop⟩

end Graph

/-- After any calls from the empty registry on, failing ones included, the views of every type
agree. -/
theorem Reachable.viewsAgree {source : Source} {config : Config} {registry : Registry}
    (h : Reachable source config registry) {type : TypeNode}
    (htype : type ∈ registry.graph.types) : registry.graph.ViewsAgree type :=
  h.sound.realizes.views htype

theorem Reachable.viewsAgree_archive :
    ∃ registry, Reachable archive {} registry ∧
      registry.graph.mergedProps ⟨2⟩ = [⟨2⟩, ⟨0⟩, ⟨1⟩, ⟨3⟩] ∧
      ∃ document ∈ registry.graph.types, document.key = ⟨2⟩ ∧
        registry.graph.ViewsAgree document := by
  have hreachable : LeadsTo archive {} {} _ := .step (.resolve "Document") .refl
  refine ⟨_, hreachable, by decide +kernel, ?_⟩
  have hkeys : (⟨2⟩ : TypeKey) ∈
      (Command.run archive {} {} (.resolve "Document")).registry.graph.types.map (·.key) := by
    decide +kernel
  obtain ⟨document, hdocument, hkey⟩ := List.mem_map.1 hkeys
  exact ⟨document, hdocument, hkey, Reachable.viewsAgree hreachable hdocument⟩

end Metamodel
