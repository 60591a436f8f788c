import Metamodel.Registry

/-!
# Registration of types

`Registry.resolve` gives the key of the type of a name, after registering it if need be. The
ancestor of a type is registered before the type is, so a failure leaves behind whole ancestors
and nothing else. The names under construction tell when the ancestors of a type lead back to it;
since they are distinct declared names, the descent comes to an end.
-/

namespace Metamodel

namespace Graph

/-- What a type lends to its descendants. -/
def inherited? (graph : Graph) (key : TypeKey) : Option Inherited :=
  (graph.type? key).map fun type =>
    { name := type.qualifiedName
      category := type.category
      scope := type.scope
      propNames := (graph.mergedProps key).map fun prop => (graph.label prop).name
      maxPropId := graph.maxPropId key
      specials := type.specials.map fun prop => prop.map graph.label }

/-- The key of the next type to be registered. -/
def nextTypeKey (graph : Graph) : TypeKey :=
  ⟨graph.types.length⟩

/-- The property key at a position after the last one in use. -/
def freshPropKey (graph : Graph) (position : Nat) : PropKey :=
  ⟨graph.props.length + position⟩

/-- The key of the property for a role: one of the ancestor, or one about to be registered. -/
def fillSlot (graph : Graph) (ancestor : Option TypeKey) (special : Special) :
    Slot → Option PropKey
  | .empty => none
  | .inherited => (ancestor.bind graph.type?).bind (·.specials.get special)
  | .own index => some (graph.freshPropKey index)

/-- The type of a blueprint at the next place of a graph. -/
def placeType (graph : Graph) (blueprint : Blueprint) (ancestor : Option TypeKey) : TypeNode where
  key := graph.nextTypeKey
  qualifiedName := blueprint.qualifiedName
  package := blueprint.package
  simpleName := blueprint.simpleName
  category := blueprint.category
  scope := blueprint.scope
  superType := ancestor
  declared := (List.range blueprint.props.length).map graph.freshPropKey
  specials := .tabulate fun special =>
    graph.fillSlot ancestor special (blueprint.specials.get special)
  names := blueprint.names
  messages := blueprint.messages

/-- The properties of a blueprint, all pending, with the type about to be registered. -/
def placeProps (graph : Graph) (blueprint : Blueprint) : List Property :=
  blueprint.props.map fun spec => { spec with declaringType := graph.nextTypeKey }

/-- The graph with the type of a blueprint and its properties. -/
def add (graph : Graph) (blueprint : Blueprint) (ancestor : Option TypeKey) : Graph where
  types := graph.types ++ [graph.placeType blueprint ancestor]
  props := graph.props ++ graph.placeProps blueprint
  byName := (blueprint.qualifiedName, graph.nextTypeKey) :: graph.byName

end Graph

namespace Registry

/-- The declared names whose construction is not under way. -/
def idle (source : Source) (registry : Registry) : List String :=
  source.declarations.names.filter (· ∉ registry.inProgress)

/-- Registers a declaration whose header is legal and whose ancestor is registered. -/
def construct (source : Source) (config : Config) (declaration : Declaration) (header : Header)
    (ancestor : Option TypeKey) (registry : Registry) : Outcome TypeKey :=
  match Blueprint.ofDeclaration source config declaration header
      (ancestor.bind registry.graph.inherited?) with
  | .error violation => ⟨.error violation, registry⟩
  | .ok blueprint =>
    let key := registry.graph.nextTypeKey
    let placed := { registry with graph := registry.graph.add blueprint ancestor }
    ⟨.ok key, placed.record
      (.typeRegistered blueprint.qualifiedName blueprint.category blueprint.props.length)⟩

/-- Entering a declared name that is not under construction leaves fewer idle names. -/
theorem idle_enter_lt {source : Source} {registry : Registry} {name : String}
    {declaration : Declaration} (declared : source.declaration? name = some declaration)
    (fresh : name ∉ registry.inProgress) :
    ((registry.enter name).idle source).length < (registry.idle source).length := by
  have hname : name ∈ source.declarations.names := by
    have hmem := List.mem_of_find?_eq_some declared
    have heq : declaration.qualifiedName = name := by simpa using List.find?_some declared
    exact heq ▸ List.mem_map_of_mem hmem
  have hsplit : (registry.enter name).idle source = (registry.idle source).filter (· ≠ name) := by
    simp only [idle, enter, List.filter_filter]
    congr 1
    funext other
    simp [not_or, and_comm]
  rw [hsplit]
  apply List.length_filter_lt_length_iff_exists.2
  exact ⟨name, by simp [idle, hname, fresh], by simp⟩

/-- The key of the type of a name, registered now unless it was before. Fails without trace if
the name is under construction, is not declared, or its declaration breaks a rule. -/
def resolve (source : Source) (config : Config) (name : String) (registry : Registry) :
    Outcome TypeKey :=
  match registry.graph.keyOf? name with
  | some key => ⟨.ok key, registry⟩
  | none =>
    if _ : name ∈ registry.inProgress then
      let cycle := registry.inProgress.dropWhile (· ≠ name) ++ [name]
      ⟨.error (.ofType name (.cyclicAncestry cycle)), registry⟩
    else
      match _ : source.declaration? name with
      | none => ⟨.error (.ofType name .undeclared), registry⟩
      | some declaration =>
        match Header.ofDeclaration source declaration with
        | .error violation => ⟨.error violation, registry⟩
        | .ok header =>
          match header.ancestor with
          | none => registry.construct source config declaration header none
          | some ancestor =>
            let outcome := resolve source config ancestor (registry.enter name)
            match outcome.result with
            | .error violation => ⟨.error violation, outcome.registry.leave⟩
            | .ok key =>
              outcome.registry.leave.construct source config declaration header (some key)
termination_by (registry.idle source).length
decreasing_by exact idle_enter_lt (by assumption) (by assumption)

/-- Registers every name of the source in order, up to the first that fails. -/
def resolveAll (source : Source) (config : Config) (registry : Registry) : Outcome Unit :=
  forEach (resolve source config) source.names registry

/-- Registers the declared type that the property at a key refers to, if there is such a property
and it refers to one. -/
def linkTarget (source : Source) (config : Config) (key : PropKey) (registry : Registry) :
    Outcome Unit :=
  match (registry.graph.prop? key).bind (·.reference) with
  | none => ⟨.ok (), registry⟩
  | some name => (registry.resolve source config name).forget

/-- Registers every declared type that some property refers to. The properties that this adds
are looked at in their turn; there are never more properties than declared members. -/
def linkTargets (source : Source) (config : Config) (registry : Registry) : Outcome Unit :=
  forEach (linkTarget source config) ((List.range source.memberCount).map PropKey.mk) registry

end Registry

end Metamodel
