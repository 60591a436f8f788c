import Metamodel.Proofs.Declaration.Legal
import Metamodel.Proofs.Graph.Ancestry
import Metamodel.Proofs.WellFormed

/-!
# Lawful inheritance

Registration compares a type with its direct ancestor and with no other. What holds of neighbours
holds along whole chains of ancestors, except that a type shared across all partitions lets the
chain change its partition. `Reachable.inheritance` says what is left of the comparison at any
distance. Read `Graph.FitsUnder` first.
-/

namespace Metamodel

open Relation (ReflTransGen TransGen)

/-- A type is in a partition that its category allows: only mapped superclasses are shared, what
is shared has no name, and embeddables are in no partition at all. -/
structure TypeNode.WellScoped (type : TypeNode) : Prop where
  shared : type.scope.acrossPartitions = true →
    type.category = .mappedSuperclass ∧ type.scope.name = none
  embeddable : type.category = .embeddable → type.scope = {}

namespace Graph

/-- A type may have a type above it in its chain: the upper one is what a type of this category
extends, and both are in one partition unless something from the upper one down to the direct
ancestor is shared. -/
structure FitsUnder (graph : Graph) (type ancestor : TypeNode) : Prop where
  not_entity : ancestor.category ≠ .entity
  embeddable : type.category = .embeddable → ancestor.category = .embeddable
  mappedSuperclass : type.category ≠ .embeddable → ancestor.category = .mappedSuperclass
  partition : (∀ between, graph.InheritsFrom type between →
      ReflTransGen graph.Extends between ancestor → between.scope.acrossPartitions = false) →
    ancestor.scope.name = type.scope.name

/-- A type has the ancestor that its declaration lists among its interfaces: the registered type
of the one that the source calls immutable, and none if there is no such interface. -/
structure ExtendsDeclared (graph : Graph) (source : Source) (type : TypeNode)
    (declaration : Declaration) : Prop where
  superType_eq_some_iff : ∀ key, type.superType = some key ↔
    ∃ name, declaration.interfaces.filter source.isImmutable = [name] ∧
      graph.keyOf? name = some key
  superType_eq_none_iff : type.superType = none ↔
    declaration.interfaces.filter source.isImmutable = []

end Graph

/-! ### Neighbours -/

/-- A category that a type may extend is that of no entity, and is decided by whether the type is
an embeddable. -/
theorem Category.accepts_iff {category ancestor : Category} :
    category.accepts ancestor = true ↔
      ancestor = if category = .embeddable then .embeddable else .mappedSuperclass := by
  cases category <;> simp [accepts]

/-- What a type may extend may extend the same. -/
theorem Category.accepts_trans {category parent ancestor : Category}
    (h : category.accepts parent = true) (h' : parent.accepts ancestor = true) :
    category.accepts ancestor = true := by
  rw [accepts_iff] at *
  subst h' h
  cases category <;> rfl

/-- Two scopes of which the upper admits the lower and is not shared are of one partition. -/
theorem Scope.name_eq_of_admits {scope other : Scope} (h : scope.admits other = true)
    (hunshared : scope.acrossPartitions = false) : scope.name = other.name := by
  simpa [admits, hunshared] using h

namespace Graph

variable {source : Source} {config : Config} {graph : Graph} {type parent ancestor : TypeNode}

/-- A type fits the one that it extends. -/
theorem Realizes.admits_of_extends (h : graph.Realizes source config) (htype : type ∈ graph.types)
    (hextends : graph.Extends type parent) :
    type.category.accepts parent.category = true ∧ parent.scope.admits type.scope = true := by
  obtain ⟨lineage, hlineage, hplaces⟩ := h.placed type htype
  obtain ⟨-, blueprint, above, rfl, habove⟩ := hplaces.of_extends hextends
  obtain ⟨_, _, _, heq, hbuilds⟩ := hplaces.head
  cases heq
  obtain ⟨declaration, header, -, -, hblueprint⟩ := hlineage.exists_declaration
  obtain ⟨hfault, -, props, -, -, -, rfl⟩ := Blueprint.ofDeclaration_eq_ok_iff.1 hblueprint
  -- what the parent lends is what the header was compared with
  rw [← habove.inherited?_eq, inherited?, habove.type?_key, Option.map_some, Option.bind_some,
    Header.ancestorFault?] at hfault
  have hcategory : type.category = header.category := hbuilds.category
  have hscope : type.scope = header.scope := hbuilds.scope
  rw [hcategory, hscope]
  split at hfault
  · cases hfault
  · next haccepts =>
    split at hfault
    · cases hfault
    · next hadmits => exact ⟨by simpa using haccepts, by simpa using hadmits⟩

/-- The scope of a type is that of the one tag of its declaration. -/
theorem Realizes.wellScoped (h : graph.Realizes source config) (htype : type ∈ graph.types) :
    type.WellScoped := by
  obtain ⟨lineage, hlineage, hplaces⟩ := h.placed type htype
  obtain ⟨blueprint, above, inherited, rfl, hbuilds⟩ := hplaces.head
  obtain ⟨declaration, header, -, hheader, hblueprint⟩ := hlineage.exists_declaration
  obtain ⟨-, -, props, -, -, -, rfl⟩ := Blueprint.ofDeclaration_eq_ok_iff.1 hblueprint
  obtain ⟨-, hclassify, -⟩ := Header.ofDeclaration_eq_ok_iff.1 hheader
  obtain ⟨tag, -, hunshared, hcategory, hscope⟩ := Declaration.classify_eq_ok_iff.1 hclassify
  have htypeCategory : type.category = tag.category := hbuilds.category.trans hcategory.symm
  have htypeScope : type.scope = tag.scope := hbuilds.scope.trans hscope.symm
  constructor
  · intro hshared
    rw [htypeScope] at hshared
    rw [htypeCategory, htypeScope, TypeTag.scope, hunshared hshared]
    cases tag with
    | mappedSuperclass _ _ => exact ⟨rfl, rfl⟩
    | entity _ | embeddable => cases hshared
  · intro hembeddable
    rw [htypeCategory] at hembeddable
    rw [htypeScope]
    cases tag with
    | embeddable => rfl
    | entity _ | mappedSuperclass _ _ => cases hembeddable

/-- A type extends the registered type of the one immutable interface of its declaration, or
nothing if there is none. -/
theorem Realizes.extendsDeclared (h : graph.Realizes source config) (htype : type ∈ graph.types) :
    ∃ declaration, source.declaration? type.qualifiedName = some declaration ∧
      graph.ExtendsDeclared source type declaration := by
  obtain ⟨lineage, hlineage, hplaces⟩ := h.placed type htype
  cases hlineage with
  | @root _ declaration header _ hdeclared hheader hancestor _ =>
    have hnone : declaration.interfaces.filter source.isImmutable = [] := by
      obtain ⟨-, -, -, -, hsome⟩ := Header.ofDeclaration_eq_ok_iff.1 hheader
      have hhead := (Declaration.ancestor?_eq_ok_iff.1 hsome).2
      rwa [hancestor, eq_comm, List.head?_eq_none_iff] at hhead
    have hroot : type.superType = none := by
      cases hplaces with
      | root _ hroot => exact hroot
      | child _ _ _ habove => exact nomatch habove
    exact ⟨declaration, hdeclared, by simp [hroot, hnone], by simp [hroot, hnone]⟩
  | @child _ name declaration header _ above hdeclared hheader hancestor hup _ =>
    have hone : declaration.interfaces.filter source.isImmutable = [name] := by
      obtain ⟨-, -, -, -, hsome⟩ := Header.ofDeclaration_eq_ok_iff.1 hheader
      obtain ⟨hlength, hhead⟩ := Declaration.ancestor?_eq_ok_iff.1 hsome
      rw [hancestor, eq_comm, List.head?_eq_some_iff] at hhead
      obtain ⟨rest, hrest⟩ := hhead
      rw [hrest] at hlength ⊢
      simpa using hlength
    obtain ⟨upper, rest, rfl, hname⟩ := hup.head
    cases hplaces with
    | @child _ parent _ _ _ hparent _ habove =>
      -- the parent is the type of the first blueprint above
      obtain ⟨_, _, _, heq, hbuilds⟩ := habove.head
      cases heq
      have hfound := h.find?_qualifiedName (List.mem_of_getElem? habove.type?_key)
      rw [hbuilds.qualifiedName, hname] at hfound
      refine ⟨declaration, hdeclared, ?_, by simp [hparent, hone]⟩
      intro key
      simp [hparent, hone, h.keyOf?_eq, hfound]

/-! ### Chains -/

/-- A type fits all that it inherits from. -/
theorem Realizes.fitsUnder (h : graph.Realizes source config) (htype : type ∈ graph.types)
    (hinherits : graph.InheritsFrom type ancestor) : graph.FitsUnder type ancestor := by
  -- the waiver does not reach the type itself, so the chain is taken apart at its lower end
  have hchain : type.category.accepts ancestor.category = true ∧
      ((∀ between, graph.InheritsFrom type between →
          ReflTransGen graph.Extends between ancestor → between.scope.acrossPartitions = false) →
        ancestor.scope.name = type.scope.name) := by
    induction hinherits using TransGen.head_induction_on with
    | @single type hextends =>
      obtain ⟨haccepts, hadmits⟩ := h.admits_of_extends htype hextends
      refine ⟨haccepts, fun hunshared => ?_⟩
      exact Scope.name_eq_of_admits hadmits (hunshared _ (.single hextends) .refl)
    | @head type parent hextends hrest ih =>
      obtain ⟨haccepts, hadmits⟩ := h.admits_of_extends htype hextends
      have hparent : parent ∈ graph.types := by
        obtain ⟨_, -, hkey⟩ := hextends
        exact List.mem_of_getElem? hkey
      obtain ⟨hup, hpartition⟩ := ih hparent
      refine ⟨Category.accepts_trans haccepts hup, fun hunshared => ?_⟩
      calc ancestor.scope.name
        _ = parent.scope.name := by
          refine hpartition fun between hbelow habove => ?_
          exact hunshared between (.head hextends hbelow) habove
        _ = type.scope.name :=
          Scope.name_eq_of_admits hadmits
            (hunshared parent (.single hextends) hrest.to_reflTransGen)
  obtain ⟨haccepts, hpartition⟩ := hchain
  rw [Category.accepts_iff] at haccepts
  refine ⟨?_, ?_, ?_, hpartition⟩
  · rw [haccepts]
    split <;> decide
  · intro hembeddable
    rw [haccepts, if_pos hembeddable]
  · intro hother
    rw [haccepts, if_neg hother]

end Graph

/-- In a reachable registry every type fits all that it inherits from, at any distance: no
ancestor is an entity, embeddables inherit from embeddables and all others from mapped
superclasses, and both ends of a chain are in one partition unless something from the upper end
down to the direct ancestor is shared. Only mapped superclasses without a partition name are
shared, embeddables are in no partition, and the direct ancestor is the one that the declaration
of the type lists. -/
theorem Reachable.inheritance {source : Source} {config : Config} {registry : Registry}
    (h : Reachable source config registry) :
    ∀ type ∈ registry.graph.types,
      (∀ ancestor, registry.graph.InheritsFrom type ancestor →
        registry.graph.FitsUnder type ancestor) ∧
      type.WellScoped ∧
      ∃ declaration, source.declaration? type.qualifiedName = some declaration ∧
        registry.graph.ExtendsDeclared source type declaration := by
  intro type htype
  have hrealizes := h.sound.realizes
  exact ⟨fun ancestor hinherits => hrealizes.fitsUnder htype hinherits,
    hrealizes.wellScoped htype, hrealizes.extendsDeclared htype⟩

/-- Invoices of one partition, below a type that is shared, below one in no partition. -/
def ledgers : Source where
  declarations := {
    toList := [
      { simpleName := "Invoice"
        tags := [.entity (some "billing")]
        interfaces := ["Tracked", "Serializable"]
        members := [{ name := "amount", type := .named "Money" }] },
      { simpleName := "Tracked"
        tags := [.mappedSuperclass none true]
        interfaces := ["Identified"]
        members := [{ name := "note", type := .named "string" }] },
      { simpleName := "Identified"
        tags := [.mappedSuperclass none false]
        members := [{ name := "id", type := .named "int", tags := [.id] }] },
      { simpleName := "Money"
        tags := [.embeddable]
        members := [{ name := "cents", type := .named "int" }] }]
    names_nodup := by decide }

theorem Reachable.inheritance_ledgers :
    ∃ registry, Reachable ledgers {} registry ∧
      registry.graph.types.map (fun type => (type.qualifiedName, type.superType)) =
        [("Identified", none), ("Tracked", some ⟨0⟩), ("Invoice", some ⟨1⟩), ("Money", none)] ∧
      registry.graph.types.map (·.scope) =
        [{}, { acrossPartitions := true }, { name := some "billing" }, {}] ∧
      ∀ type ∈ registry.graph.types,
        (∀ ancestor, registry.graph.InheritsFrom type ancestor →
          registry.graph.FitsUnder type ancestor) ∧
        type.WellScoped ∧
        ∃ declaration, ledgers.declaration? type.qualifiedName = some declaration ∧
          registry.graph.ExtendsDeclared ledgers type declaration := by
  have hreachable : LeadsTo ledgers {} {} _ := .step .resolveAll .refl
  exact ⟨_, hreachable, by decide +kernel, by decide +kernel, Reachable.inheritance hreachable⟩

end Metamodel
