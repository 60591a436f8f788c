import Metamodel.Proofs.Ascent
import Metamodel.Proofs.Inheritance
import Metamodel.Proofs.Lineage.Numbers

/-!
# Whole types

What a declaration says of a type is spread over the graph: its properties stand among all others,
and its ancestors are types of their own. `Graph.Whole` says that nothing of it is missing, and
`Graph.Realizes.whole` that this is so of every registered type.
-/

namespace Metamodel

open Relation (TransGen)

namespace Graph

variable {source : Source} {config : Config} {graph : Graph} {type : TypeNode}

/-- A type is whole: it has a property for every member of its declaration that becomes one, and
the types of all names that it leads up to are its ancestors in the graph. -/
structure Whole (graph : Graph) (source : Source) (type : TypeNode) : Prop where
  members : ∃ declaration, source.declaration? type.qualifiedName = some declaration ∧
    List.Forall₂
      (fun key member => ∃ prop, graph.prop? key = some prop ∧ prop.declaringType = type.key ∧
        prop.name = member.name ∧ prop.type = member.type ∧ prop.tags = member.tags)
      type.declared declaration.propertyMembers
  ancestors : ∀ ancestor, TransGen source.Ascends type.qualifiedName ancestor →
    ∃ parent, graph.find? ancestor = some parent ∧ graph.InheritsFrom type parent

/-- How many properties a type inherits. -/
def inheritedCount (graph : Graph) (type : TypeNode) : Nat :=
  (type.superType.map fun parent => (graph.mergedProps parent).length).getD 0

/-- A placed type inherits the properties of what stands above it. -/
theorem Places.inheritedCount_eq {blueprint : Blueprint} {above : Lineage}
    (h : graph.Places type (blueprint :: above)) :
    graph.inheritedCount type = (Lineage.mergedProps above).length := by
  cases h with
  | root _ hroot => rw [inheritedCount, hroot]; rfl
  | child _ hparent _ hplaces =>
    rw [inheritedCount, hparent]
    exact hplaces.lists_mergedProps.length_eq

/-- The own properties of a registered type are what the members of its declaration become, one by
one, and their numbers go on where those of the inherited ones end. -/
theorem Realizes.exists_made (h : graph.Realizes source config) (htype : type ∈ graph.types) :
    ∃ declaration, source.declaration? type.qualifiedName = some declaration ∧
      List.Forall₂
        (fun key (entry : Member × Nat) => ∃ prop, graph.prop? key = some prop ∧
          prop.declaringType = type.key ∧ prop.toPropSpec = entry.1.specOf source entry.2)
        type.declared (declaration.propertyMembers.zipIdx (graph.inheritedCount type + 1)) := by
  obtain ⟨lineage, hlineage, hplaces⟩ := h.placed type htype
  obtain ⟨blueprint, above, inherited, rfl, hbuilds⟩ := hplaces.head
  obtain ⟨declaration, header, hdeclared, -, hblueprint⟩ := hlineage.exists_declaration
  obtain ⟨-, -, props, hprops, -, -, rfl⟩ := Blueprint.ofDeclaration_eq_ok_iff.1 hblueprint
  have hlast : ((Lineage.inherited? above).map (·.maxPropId)).getD 0 =
      graph.inheritedCount type := by
    rw [Lineage.maxPropId_inherited?, hplaces.inheritedCount_eq]
    rcases hlineage.above with rfl | ⟨ancestor, habove⟩
    · rfl
    · exact habove.maxPropId_eq
  have hspecs := hbuilds.declared
  rw [Blueprint.withProps, Declaration.eq_of_propSpecs hprops, List.forall₂_map_right_iff,
    hlast] at hspecs
  refine ⟨declaration, hdeclared, hspecs.imp ?_⟩
  rintro key ⟨member, id⟩ hkey
  rw [prop?_fresh, Option.map_eq_some_iff] at hkey
  obtain ⟨prop, hprop, hsame⟩ := hkey
  exact ⟨prop, hprop, congrArg Property.declaringType hsame, congrArg Property.toPropSpec hsame⟩

/-- The single immutable interface of a registered type is registered and extended by the type. -/
theorem Realizes.exists_extends (h : graph.Realizes source config) (htype : type ∈ graph.types)
    {declaration : Declaration}
    (hdeclared : source.declaration? type.qualifiedName = some declaration)
    {ancestor : String} (hsingle : declaration.interfaces.filter source.isImmutable = [ancestor]) :
    ∃ parent ∈ graph.types, parent.qualifiedName = ancestor ∧ graph.Extends type parent := by
  obtain ⟨other, hother, hextends⟩ := h.extendsDeclared htype
  obtain rfl := Option.some.inj (hdeclared.symm.trans hother)
  cases hkey : type.superType with
  | none =>
    rw [hextends.superType_eq_none_iff.1 hkey] at hsingle
    cases hsingle
  | some key =>
    obtain ⟨name, hname, hfound⟩ := (hextends.superType_eq_some_iff key).1 hkey
    obtain rfl : name = ancestor := by simpa using hname.symm.trans hsingle
    obtain ⟨parent, hparent, rfl⟩ := h.keyOf?_eq_some_iff.1 hfound
    exact ⟨parent, List.mem_of_getElem? hparent, rfl, key, hkey, hparent⟩

/-- Every registered type is whole. -/
theorem Realizes.whole (h : graph.Realizes source config) (htype : type ∈ graph.types) :
    graph.Whole source type where
  members := by
    obtain ⟨declaration, hdeclared, hmade⟩ := h.exists_made htype
    refine ⟨declaration, hdeclared, ?_⟩
    rw [← List.zipIdx_map_fst (graph.inheritedCount type + 1) declaration.propertyMembers,
      List.forall₂_map_right_iff]
    refine hmade.imp ?_
    rintro key ⟨member, id⟩ ⟨prop, hprop, howner, hspec⟩
    exact ⟨prop, hprop, howner, congrArg PropSpec.name hspec, congrArg PropSpec.type hspec,
      congrArg PropSpec.tags hspec⟩
  ancestors := by
    intro ancestor hup
    obtain ⟨parent, hparent, rfl, hinherits⟩ : ∃ parent ∈ graph.types,
        parent.qualifiedName = ancestor ∧ graph.InheritsFrom type parent := by
      induction hup with
      | single hstep =>
        obtain ⟨declaration, hdeclared, -, hsingle⟩ := hstep
        obtain ⟨parent, hparent, hname, hextends⟩ := h.exists_extends htype hdeclared hsingle
        exact ⟨parent, hparent, hname, .single hextends⟩
      | tail _ hstep ih =>
        obtain ⟨lower, hlower, rfl, hinherits⟩ := ih
        obtain ⟨declaration, hdeclared, -, hsingle⟩ := hstep
        obtain ⟨parent, hparent, hname, hextends⟩ := h.exists_extends hlower hdeclared hsingle
        exact ⟨parent, hparent, hname, hinherits.tail hextends⟩
    exact ⟨parent, h.find?_qualifiedName hparent, hinherits⟩

end Graph

end Metamodel
