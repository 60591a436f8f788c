import Mathlib.Data.List.Infix
import Metamodel.Proofs.Graph.Fresh
import Metamodel.Proofs.Lineage
import Metamodel.Registry.Registration

/-!
# Types in their places

A graph places a lineage when a type and its ancestors are those of its blueprints. What such a
graph says about the type is then what the lineage says, in names (`Places.typeView_eq`), and
what the type lends to descendants is what the lineage lends (`Places.inherited?_eq`).
-/

namespace Metamodel

/-- What stands in one of two lists that correspond has something opposite it in the other. -/
theorem List.Forall₂.exists_of_mem {α β : Type} {R : α → β → Prop} {left : List α}
    {right : List β} (h : List.Forall₂ R left right) {a : α} (ha : a ∈ left) :
    ∃ b ∈ right, R a b := by
  induction h with
  | nil => cases ha
  | cons hfirst _ ih =>
    rcases List.mem_cons.1 ha with rfl | ha
    · exact ⟨_, List.mem_cons_self, hfirst⟩
    · obtain ⟨b, hb, hab⟩ := ih ha
      exact ⟨b, List.mem_cons_of_mem _ hb, hab⟩

namespace Graph

/-- A type sorts what it inherits and what it declares: identities first. -/
theorem mergeLevel_eq (graph : Graph) (inherited own : List PropKey) :
    graph.mergeLevel inherited own =
      (inherited ++ own).filter graph.isId ++ (inherited ++ own).filter (!graph.isId ·) := by
  simp only [mergeLevel, List.filter_append, List.append_assoc]

theorem mergeLevel_perm (graph : Graph) (inherited own : List PropKey) :
    (graph.mergeLevel inherited own).Perm (inherited ++ own) := by
  rw [mergeLevel_eq]
  exact List.filter_append_perm _ _

/-- The property at a key, by its owner's name instead of its key. -/
def named? (graph : Graph) (key : PropKey) : Option LineageProp :=
  (graph.prop? key).map fun prop => ⟨graph.typeName prop.declaringType, prop.toPropSpec⟩

section Named

variable (graph : Graph) (key : PropKey)

theorem label_eq_named? :
    graph.label key = ((graph.named? key).map LineageProp.label).getD ⟨"", ""⟩ := by
  rw [label, named?]
  cases graph.prop? key <;> rfl

theorem isId_eq_named? : graph.isId key = (graph.named? key).any (·.spec.isId) := by
  rw [isId, named?]
  cases graph.prop? key <;> rfl

theorem idOf_eq_named? : graph.idOf key = ((graph.named? key).map (·.spec.id)).getD 0 := by
  rw [idOf, named?]
  cases graph.prop? key <;> rfl

theorem named?_fresh :
    graph.named? key =
      (graph.fresh.prop? key).map fun prop =>
        ⟨graph.typeName prop.declaringType, prop.toPropSpec⟩ := by
  rw [named?, prop?_fresh]
  cases graph.prop? key <;> rfl

end Named

/-- The keys are those of the given properties, one by one. -/
def Lists (graph : Graph) : List PropKey → List LineageProp → Prop :=
  List.Forall₂ fun key prop => graph.named? key = some prop

section Lists

variable {graph : Graph} {keys : List PropKey} {props : List LineageProp}

theorem lists_iff : graph.Lists keys props ↔ keys.map graph.named? = props.map some := by
  rw [← List.forall₂_eq_eq_eq, List.forall₂_map_left_iff, List.forall₂_map_right_iff]
  rfl

namespace Lists

/-- What can be said of the property at a key can be said of the key. -/
theorem map_eq {α : Type} (h : graph.Lists keys props) {f : PropKey → α} {g : LineageProp → α}
    (hfg : ∀ key prop, graph.named? key = some prop → f key = g prop) :
    keys.map f = props.map g := by
  induction h with
  | nil => rfl
  | cons hkey _ ih => simp [hfg _ _ hkey, ih]

theorem map_label (h : graph.Lists keys props) :
    keys.map graph.label = props.map LineageProp.label := by
  apply h.map_eq
  intro key prop hkey
  rw [label_eq_named?, hkey]
  rfl

theorem map_idOf (h : graph.Lists keys props) : keys.map graph.idOf = props.map (·.spec.id) := by
  apply h.map_eq
  intro key prop hkey
  rw [idOf_eq_named?, hkey]
  rfl

/-- Lists stay alike when one test is made on both. -/
theorem filter (h : graph.Lists keys props) {p : PropKey → Bool} {q : LineageProp → Bool}
    (hpq : ∀ key prop, graph.named? key = some prop → p key = q prop) :
    graph.Lists (keys.filter p) (props.filter q) := by
  induction h with
  | nil => exact .nil
  | cons hkey _ ih =>
    simp only [List.filter_cons, hpq _ _ hkey]
    split
    · exact .cons hkey ih
    · exact ih

theorem append {keys' : List PropKey} {props' : List LineageProp} (h : graph.Lists keys props)
    (h' : graph.Lists keys' props') : graph.Lists (keys ++ keys') (props ++ props') :=
  List.rel_append h h'

/-- Lists stay alike when the identities of both are moved to the front. -/
theorem identitiesFirst (h : graph.Lists keys props) :
    graph.Lists (keys.filter graph.isId ++ keys.filter (!graph.isId ·))
      (props.filter (·.spec.isId) ++ props.filter (!·.spec.isId)) := by
  have hid (key : PropKey) (prop : LineageProp) (hkey : graph.named? key = some prop) :
      graph.isId key = prop.spec.isId := by
    rw [isId_eq_named?, hkey]
    rfl
  have hnot (key : PropKey) (prop : LineageProp) (hkey : graph.named? key = some prop) :
      (!graph.isId key) = !prop.spec.isId := by
    rw [hid key prop hkey]
  exact (h.filter hid).append (h.filter hnot)

end Lists

end Lists

/-- A type is that of a blueprint, with `inherited` in the special roles that it inherits. -/
structure Builds (graph : Graph) (type : TypeNode) (blueprint : Blueprint)
    (inherited : Special → Option PropKey) : Prop where
  key : graph.type? type.key = some type
  qualifiedName : type.qualifiedName = blueprint.qualifiedName
  package : type.package = blueprint.package
  simpleName : type.simpleName = blueprint.simpleName
  category : type.category = blueprint.category
  scope : type.scope = blueprint.scope
  names : type.names = blueprint.names
  messages : type.messages = blueprint.messages
  declared : List.Forall₂
    (fun key spec => graph.fresh.prop? key = some { spec with declaringType := type.key })
    type.declared blueprint.props
  specials (special : Special) : type.specials.get special =
    match blueprint.specials.get special with
    | .empty => none
    | .inherited => inherited special
    | .own index => type.declared[index]?

/-- A type and its ancestors are those of a lineage. -/
inductive Places (graph : Graph) : TypeNode → Lineage → Prop where
  | root {type : TypeNode} {blueprint : Blueprint} :
    graph.Builds type blueprint (fun _ => none) →
    type.superType = none →
    Places graph type [blueprint]
  | child {type parent : TypeNode} {blueprint : Blueprint} {above : Lineage} :
    graph.Builds type blueprint parent.specials.get →
    type.superType = some parent.key →
    parent.key.index < type.key.index →
    Places graph parent above →
    Places graph type (blueprint :: above)

/-- The own properties of a type are those of its blueprint. -/
theorem Builds.lists_declared {graph : Graph} {type : TypeNode} {blueprint : Blueprint}
    {inherited : Special → Option PropKey} (h : graph.Builds type blueprint inherited) :
    graph.Lists type.declared blueprint.ownProps := by
  rw [Lists, Blueprint.ownProps, List.forall₂_map_right_iff]
  refine h.declared.imp ?_
  intro key spec hkey
  rw [named?_fresh, hkey]
  simp [typeName, h.key, h.qualifiedName]

/-- What a type declares is in the graph, says that the type declares it, and is as the blueprint
has it. -/
theorem Builds.exists_prop? {graph : Graph} {type : TypeNode} {blueprint : Blueprint}
    {inherited : Special → Option PropKey} (h : graph.Builds type blueprint inherited)
    {key : PropKey} (hkey : key ∈ type.declared) :
    ∃ prop, graph.prop? key = some prop ∧ prop.declaringType = type.key ∧
      prop.toPropSpec ∈ blueprint.props := by
  obtain ⟨spec, hspec, hfresh⟩ := List.Forall₂.exists_of_mem h.declared hkey
  rw [prop?_fresh, Option.map_eq_some_iff] at hfresh
  obtain ⟨prop, hprop, hsame⟩ := hfresh
  have htoSpec : prop.toPropSpec = spec := congrArg Property.toPropSpec hsame
  exact ⟨prop, hprop, congrArg Property.declaringType hsame, htoSpec ▸ hspec⟩

/-- A type without ancestor has what it declares. -/
theorem Builds.mergedProps_root {graph : Graph} {type : TypeNode} {blueprint : Blueprint}
    {inherited : Special → Option PropKey} (h : graph.Builds type blueprint inherited)
    (hroot : type.superType = none) : graph.mergedProps type.key = type.declared := by
  rw [Graph.mergedProps, h.key]
  simp only [hroot]

/-- Any other type adds what it declares to what its ancestor has. -/
theorem Builds.mergedProps_child {graph : Graph} {type : TypeNode} {blueprint : Blueprint}
    {inherited : Special → Option PropKey} (h : graph.Builds type blueprint inherited)
    {parent : TypeKey} (hparent : type.superType = some parent)
    (hlt : parent.index < type.key.index) :
    graph.mergedProps type.key = graph.mergeLevel (graph.mergedProps parent) type.declared := by
  rw [Graph.mergedProps, h.key]
  simp only [hparent, if_pos hlt]

/-- A special property of a type is that of its lineage, if the inherited one is. -/
theorem Builds.map_label_specials {graph : Graph} {type : TypeNode} {blueprint : Blueprint}
    {above : Lineage} {inherited : Special → Option PropKey} {special : Special}
    (h : graph.Builds type blueprint inherited)
    (habove : (inherited special).map graph.label = Lineage.holder special above) :
    (type.specials.get special).map graph.label =
      Lineage.holder special (blueprint :: above) := by
  rw [h.specials special, Lineage.holder]
  cases blueprint.specials.get special with
  | empty => rfl
  | inherited => exact habove
  | own index =>
    simp only
    rw [← List.getElem?_map, h.lists_declared.map_label, List.getElem?_map]

namespace Places

variable {graph : Graph} {type : TypeNode} {lineage : Lineage}

/-- A placed type is found at its key. -/
theorem type?_key (h : graph.Places type lineage) : graph.type? type.key = some type := by
  cases h with
  | root hbuilds _ => exact hbuilds.key
  | child hbuilds _ _ _ => exact hbuilds.key

/-- The lineage of a placed type starts with the blueprint of its name. -/
theorem head (h : graph.Places type lineage) :
    ∃ blueprint above inherited, lineage = blueprint :: above ∧
      graph.Builds type blueprint inherited := by
  cases h with
  | root hbuilds _ => exact ⟨_, _, _, rfl, hbuilds⟩
  | child hbuilds _ _ _ => exact ⟨_, _, _, rfl, hbuilds⟩

/-- Where a blueprint stands below the lineage of a placed type, that is the lineage of a name. -/
theorem exists_lineage (h : graph.Places type lineage) {source : Source} {config : Config}
    {name : String} {blueprint : Blueprint}
    (hbelow : source.HasLineage config name (blueprint :: lineage)) :
    ∃ ancestor, source.HasLineage config ancestor lineage := by
  obtain ⟨_, _, _, rfl, -⟩ := h.head
  exact hbelow.above.resolve_left (by simp)

/-- The merged view of a placed type is that of its lineage. -/
theorem lists_mergedProps (h : graph.Places type lineage) :
    graph.Lists (graph.mergedProps type.key) lineage.mergedProps := by
  induction h with
  | root hbuilds hroot =>
    rw [hbuilds.mergedProps_root hroot]
    exact hbuilds.lists_declared
  | @child type parent blueprint above hbuilds hparent hlt hplaces ih =>
    obtain ⟨next, rest, -, rfl, -⟩ := hplaces.head
    rw [hbuilds.mergedProps_child hparent hlt, mergeLevel_eq, Lineage.mergedProps_cons_cons]
    exact (ih.append hbuilds.lists_declared).identitiesFirst

/-- The properties of a placed type have distinct names. -/
theorem names_nodup (h : graph.Places type lineage) {source : Source} {config : Config}
    {name : String} (hlineage : source.HasLineage config name lineage) :
    ((graph.mergedProps type.key).map fun key => (graph.label key).name).Nodup := by
  have hnames := congrArg (List.map PropLabel.name) h.lists_mergedProps.map_label
  simp only [List.map_map] at hnames
  rw [show (fun key => (graph.label key).name) = PropLabel.name ∘ graph.label from rfl, hnames]
  exact hlineage.propNames_nodup

/-- The same holds of the views in the order of numbers. -/
theorem lists_propsById (h : graph.Places type lineage) :
    graph.Lists (graph.propsById type.key) lineage.propsById := by
  have hviews := lists_iff.1 h.lists_mergedProps
  rw [lists_iff, Graph.propsById, Lineage.propsById,
    List.map_mergeSort (f := graph.named?)
      (s := fun a b => decide ((a.map (·.spec.id)).getD 0 ≤ (b.map (·.spec.id)).getD 0))
      (fun a _ b _ => by simp only [idOf_eq_named?]),
    List.map_mergeSort (f := some) (r := fun a b : LineageProp => decide (a.spec.id ≤ b.spec.id))
      (s := fun a b => decide ((a.map (·.spec.id)).getD 0 ≤ (b.map (·.spec.id)).getD 0))
      (fun a _ b _ => rfl), hviews]

/-- The largest number of a property of a placed type is that of its lineage. -/
theorem maxPropId_eq (h : graph.Places type lineage) :
    graph.maxPropId type.key = lineage.maxPropId := by
  rw [Graph.maxPropId, h.lists_mergedProps.map_idOf, Lineage.maxPropId]

/-- The special properties of a placed type are those of its lineage. -/
theorem map_label_specials (h : graph.Places type lineage) (special : Special) :
    (type.specials.get special).map graph.label = lineage.holder special := by
  induction h with
  | root hbuilds _ => exact hbuilds.map_label_specials rfl
  | child hbuilds _ _ _ ih => exact hbuilds.map_label_specials ih

/-- A placed type lends what its lineage lends. -/
theorem inherited?_eq (h : graph.Places type lineage) :
    graph.inherited? type.key = lineage.inherited? := by
  have hmax := h.maxPropId_eq
  have hspecials : (type.specials.map fun prop => prop.map graph.label) =
      .tabulate fun special => lineage.holder special := by
    simp only [Specials.map, h.map_label_specials]
  have hnames : (graph.mergedProps type.key).map (fun prop => (graph.label prop).name) =
      lineage.mergedProps.map (·.spec.name) := by
    simpa [LineageProp.label, Function.comp_def] using
      congrArg (List.map PropLabel.name) h.lists_mergedProps.map_label
  obtain ⟨blueprint, above, inherited, rfl, hbuilds⟩ := h.head
  rw [Graph.inherited?, hbuilds.key, Lineage.inherited?]
  simp only [Option.map_some, hnames, hmax, hspecials, hbuilds.qualifiedName, hbuilds.category,
    hbuilds.scope]

/-- A placed type in names is its lineage in names. -/
theorem typeView_eq {blueprint : Blueprint} {above : Lineage}
    (h : graph.Places type (blueprint :: above)) :
    graph.typeView type = Lineage.view blueprint above := by
  have hsuper : type.superType.map graph.typeName = above.head?.map (·.qualifiedName) := by
    cases h with
    | root _ hroot => simp [hroot]
    | child _ hparent _ hplaces =>
      obtain ⟨next, rest, inherited, rfl, hnext⟩ := hplaces.head
      simp [hparent, typeName, hnext.key, hnext.qualifiedName]
  have hspecials : (type.specials.map fun prop => prop.map graph.label) =
      .tabulate fun special => Lineage.holder special (blueprint :: above) := by
    simp only [Specials.map, h.map_label_specials]
  have hbyId : (graph.propsById type.key).map (fun prop => (graph.idOf prop, graph.label prop)) =
      (Lineage.propsById (blueprint :: above)).map fun prop => (prop.spec.id, prop.label) := by
    apply h.lists_propsById.map_eq
    intro key prop hkey
    rw [idOf_eq_named?, label_eq_named?, hkey]
    rfl
  have hmax := h.maxPropId_eq
  have hprops := h.lists_mergedProps.map_label
  obtain ⟨_, _, inherited, heq, hbuilds⟩ := h.head
  cases heq
  rw [Graph.typeView, Lineage.view]
  simp only [hsuper, hspecials, hbyId, hmax, hprops, hbuilds.lists_declared.map_label,
    hbuilds.qualifiedName, hbuilds.package, hbuilds.simpleName, hbuilds.category, hbuilds.scope,
    hbuilds.names, hbuilds.messages]

end Places

end Graph

end Metamodel
