import Metamodel.Proofs.Graph.Whole

/-!
# Overrides

No property takes the name of an inherited one, and a declaration that would need this is never
registered: `Reachable.rejectsOverrides`. Helpers become no properties and are not compared with
what is inherited, so that one of them may have the name of an inherited property:
`Reachable.exists_helper_reuses_shelf`.
-/

namespace Metamodel

namespace Graph

/-- A member has the name of a property of a type, be it declared there or inherited. -/
def Reuses (graph : Graph) (type : TypeNode) (member : Member) : Prop :=
  ∃ key ∈ graph.mergedProps type.key, (graph.label key).name = member.name

/-- A member of a declaration becomes a property although it reuses the name of one of the type
that the declaration extends. -/
structure Overrides (graph : Graph) (source : Source) (declaration : Declaration)
    (member : Member) : Prop where
  declared : member ∈ declaration.members
  isProperty : member.isProperty = true
  reuses : ∃ ancestor parent, declaration.interfaces.filter source.isImmutable = [ancestor] ∧
    graph.find? ancestor = some parent ∧ graph.Reuses parent member

variable {source : Source} {config : Config} {graph : Graph} {type : TypeNode} {member : Member}

/-- The names of the properties of a placed type are those of its lineage. -/
theorem Places.reuses_iff {lineage : Lineage} (h : graph.Places type lineage) :
    graph.Reuses type member ↔ member.name ∈ lineage.mergedProps.map (·.spec.name) := by
  have hnames := congrArg (List.map PropLabel.name) h.lists_mergedProps.map_label
  rw [List.map_map, List.map_map] at hnames
  rw [show (fun prop : LineageProp => prop.spec.name) = PropLabel.name ∘ LineageProp.label from rfl,
    ← hnames, List.mem_map]
  rfl

end Graph

namespace Source.HasLineage

variable {source : Source} {config : Config} {name : String} {blueprint : Blueprint}
  {above : Lineage} {declaration : Declaration} {member : Member}

/-- A member that becomes a property has none of the names from above. -/
theorem memberName_not_mem_above (h : source.HasLineage config name (blueprint :: above))
    (hdeclared : source.declaration? name = some declaration)
    (hmember : member ∈ declaration.members) (hproperty : member.isProperty = true) :
    member.name ∉ (Lineage.mergedProps above).map (·.spec.name) := by
  obtain ⟨_, header, hdeclared', -, hblueprint⟩ := h.exists_declaration
  obtain rfl := Option.some.inj (hdeclared.symm.trans hdeclared')
  obtain ⟨-, -, props, hprops, -, -, rfl⟩ := Blueprint.ofDeclaration_eq_ok_iff.1 hblueprint
  obtain ⟨id, hspec⟩ := Declaration.exists_spec_of_propSpecs hprops
    (Declaration.mem_propertyMembers.2 ⟨hmember, hproperty⟩)
  exact h.name_not_mem_above hspec

/-- What stands above a blueprint is the lineage of the single immutable interface. -/
theorem above_of_single (h : source.HasLineage config name (blueprint :: above))
    (hdeclared : source.declaration? name = some declaration) {ancestor : String}
    (hsingle : declaration.interfaces.filter source.isImmutable = [ancestor]) :
    source.HasLineage config ancestor above := by
  obtain ⟨_, header, hdeclared', hheader, -⟩ := h.exists_declaration
  obtain rfl := Option.some.inj (hdeclared.symm.trans hdeclared')
  have hup : source.Ascends name ancestor :=
    ⟨declaration, hdeclared, Header.exists_ok_iff.1 ⟨header, hheader⟩, hsingle⟩
  obtain ⟨_, _, heq, habove⟩ := h.of_ascends hup
  cases heq
  exact habove

end Source.HasLineage

namespace Graph

variable {source : Source} {config : Config} {graph other : Graph} {type parent : TypeNode}
  {declaration : Declaration} {member : Member}

/-- Of the members of a registered type only helpers reuse names of what it extends. -/
theorem Realizes.isProperty_eq_false_of_reuses (h : graph.Realizes source config)
    (htype : type ∈ graph.types) (hextends : graph.Extends type parent)
    (hdeclared : source.declaration? type.qualifiedName = some declaration)
    (hmember : member ∈ declaration.members) (hreuses : graph.Reuses parent member) :
    member.isProperty = false := by
  obtain ⟨lineage, hlineage, hplaces⟩ := h.placed type htype
  obtain ⟨-, blueprint, above, rfl, hparent⟩ := hplaces.of_extends hextends
  by_contra hproperty
  exact hlineage.memberName_not_mem_above hdeclared hmember (eq_true_of_ne_false hproperty)
    (hparent.reuses_iff.1 hreuses)

/-- A declaration with a member that overrides in one graph is registered in none. -/
theorem Overrides.qualifiedName_ne (h : graph.Overrides source declaration member)
    (hgraph : graph.Realizes source config) (hother : other.Realizes source config)
    {name : String} (hdeclared : source.declaration? name = some declaration)
    (htype : type ∈ other.types) : type.qualifiedName ≠ name := by
  rintro rfl
  obtain ⟨ancestor, parent, hsingle, hfound, hreuses⟩ := h.reuses
  obtain ⟨hparent, rfl⟩ := hgraph.find?_eq_some_iff.1 hfound
  obtain ⟨upper, hupper, hplaces⟩ := hgraph.placed parent hparent
  obtain ⟨lineage, hlineage, -⟩ := hother.placed type htype
  obtain ⟨blueprint, above, rfl, -⟩ := hlineage.head
  -- the ancestor has one lineage, whichever graph places it
  obtain rfl := (hlineage.above_of_single hdeclared hsingle).unique hupper
  exact hlineage.memberName_not_mem_above hdeclared h.declared h.isProperty
    (hplaces.reuses_iff.1 hreuses)

end Graph

/-- In a reachable registry no property of a type has the name of one that the type inherits: of
the members of its declaration only helpers may reuse such a name. A declaration with a member
that becomes a property and has the name of one of the type that it extends is rejected by
`Registry.resolve`, in every reachable registry, and is registered in none. -/
theorem Reachable.rejectsOverrides {source : Source} {config : Config} {registry : Registry}
    (h : Reachable source config registry) :
    (∀ type ∈ registry.graph.types, ∀ parent, registry.graph.Extends type parent →
      ∃ declaration, source.declaration? type.qualifiedName = some declaration ∧
        ∀ member ∈ declaration.members, registry.graph.Reuses parent member →
          member.isProperty = false) ∧
      ∀ name declaration member, source.declaration? name = some declaration →
        registry.graph.Overrides source declaration member →
          ∀ other, Reachable source config other →
            (∀ type ∈ other.graph.types, type.qualifiedName ≠ name) ∧
            (∃ violation, (other.resolve source config name).result = .error violation) ∧
            ∀ type ∈ (other.resolve source config name).registry.graph.types,
              type.qualifiedName ≠ name := by
  have hrealizes := h.sound.realizes
  constructor
  · intro type htype parent hextends
    obtain ⟨declaration, hdeclared, -⟩ := hrealizes.exists_made htype
    exact ⟨declaration, hdeclared, fun member hmember hreuses =>
      hrealizes.isProperty_eq_false_of_reuses htype hextends hdeclared hmember hreuses⟩
  · intro name declaration member hdeclared hoverrides other hother
    have hregisters := other.resolve_registers hother.sound.realizes name
    refine ⟨fun type htype => hoverrides.qualifiedName_ne hrealizes hother.sound.realizes
      hdeclared htype, ?_, fun type htype => hoverrides.qualifiedName_ne hrealizes
      hregisters.realizes hdeclared htype⟩
    cases hresult : (other.resolve source config name).result with
    | error violation => exact ⟨violation, rfl⟩
    | ok key =>
      obtain ⟨type, hfound, -⟩ := hregisters.found hresult
      obtain ⟨htype, hname⟩ := hregisters.realizes.find?_eq_some_iff.1 hfound
      exact absurd hname
        (hoverrides.qualifiedName_ne hrealizes hregisters.realizes hdeclared htype)

/-- A book with a helper of an inherited name. -/
def book : Declaration where
  simpleName := "Book"
  tags := [.entity none]
  interfaces := ["Item"]
  members := [
    { name := "title", type := .named "string", hasBody := true },
    { name := "author", type := .named "string" }]

/-- A magazine with a property of an inherited name. -/
def magazine : Declaration where
  simpleName := "Magazine"
  tags := [.entity none]
  interfaces := ["Item"]
  members := [{ name := "title", type := .named "string" }]

/-- Books and magazines below items, which have a title. -/
def shelf : Source where
  declarations := {
    toList := [book, magazine,
      { simpleName := "Item"
        tags := [.mappedSuperclass none false]
        members := [
          { name := "id", type := .named "int", tags := [.id] },
          { name := "title", type := .named "string" }] }]
    names_nodup := by decide }

theorem Reachable.rejectsOverrides_shelf :
    ∃ registry, Reachable shelf {} registry ∧
      registry.graph.types.map (·.qualifiedName) = ["Item", "Book"] ∧
      registry.graph.Overrides shelf magazine { name := "title", type := .named "string" } ∧
      ∃ violation, (registry.resolve shelf {} "Magazine").result = .error violation := by
  have hreachable : LeadsTo shelf {} {} _ := .step (.resolve "Book") .refl
  obtain ⟨item, hitem, hkey⟩ := Option.map_eq_some_iff.1
    (show ((Command.run shelf {} {} (.resolve "Book")).registry.graph.find? "Item").map (·.key) =
      some ⟨0⟩ by decide +kernel)
  have hoverrides : Graph.Overrides _ shelf magazine { name := "title", type := .named "string" } :=
    ⟨by decide, by decide, "Item", item, by decide, hitem, ⟨1⟩, by rw [hkey]; decide +kernel,
      by decide +kernel⟩
  exact ⟨_, hreachable, by decide +kernel, hoverrides,
    ((Reachable.rejectsOverrides hreachable).2 "Magazine" magazine _ (by decide) hoverrides _
      hreachable).2.1⟩

/-- A book is registered although its helper has the name of a property of items. -/
theorem Reachable.exists_helper_reuses_shelf :
    ∃ registry, Reachable shelf {} registry ∧
      ∃ type ∈ registry.graph.types, ∃ item, registry.graph.Extends type item ∧
        shelf.declaration? type.qualifiedName = some book ∧
          ∃ member ∈ book.members, registry.graph.Reuses item member := by
  have hreachable : LeadsTo shelf {} {} _ := .step (.resolve "Book") .refl
  obtain ⟨type, hfound, hsuper⟩ := Option.map_eq_some_iff.1
    (show ((Command.run shelf {} {} (.resolve "Book")).registry.graph.find? "Book").map
      (·.superType) = some (some ⟨0⟩) by decide +kernel)
  obtain ⟨item, hitem, hkey⟩ := Option.map_eq_some_iff.1
    (show ((Command.run shelf {} {} (.resolve "Book")).registry.graph.type? ⟨0⟩).map (·.key) =
      some ⟨0⟩ by decide +kernel)
  have hindexed := (Reachable.sound hreachable).realizes.toIndexed
  obtain ⟨htype, hname⟩ := hindexed.find?_eq_some_iff.1 hfound
  exact ⟨_, hreachable, type, htype, item, ⟨⟨0⟩, hsuper, hitem⟩, by rw [hname]; decide,
    { name := "title", type := .named "string", hasBody := true }, by decide, ⟨1⟩,
    by rw [hkey]; decide +kernel, by decide +kernel⟩

end Metamodel
