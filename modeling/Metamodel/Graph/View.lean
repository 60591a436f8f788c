import Metamodel.Graph

/-!
# Views without keys

What a graph says about a type or a property when every key is replaced by a name: types by their
qualified names, properties by their labels. Two graphs that differ only in the order of
registration have the same views.
-/

namespace Metamodel

/-- A type in names. -/
structure TypeView where
  qualifiedName : String
  package : String
  simpleName : String
  category : Category
  scope : Scope
  superType : Option String
  declared : List PropLabel
  specials : Specials (Option PropLabel)
  names : DerivedNames
  messages : List ValidationMessage
  /-- The merged view. -/
  props : List PropLabel
  /-- The merged view in the order of numbers, each property with its number. -/
  byId : List (Nat × PropLabel)
  maxPropId : Nat
  deriving DecidableEq, Repr

/-- A dependency in names. -/
structure PathView where
  raw : String
  segments : List PropLabel
  deriving DecidableEq, Repr

/-- The property at the end of the path. -/
def PathView.target? (path : PathView) : Option PropLabel :=
  path.segments.getLast?

/-- A property in names, without the round in which it was settled. -/
structure PropView where
  label : PropLabel
  id : Nat
  kind : PropertyKind
  type : TypeRef
  tags : TagSet
  reference : Option String
  /-- The name of the state of its resolution. -/
  state : String
  target : Option String
  dependencies : List PathView
  deriving DecidableEq, Repr

namespace Graph

/-- A type of the graph in names. -/
def typeView (graph : Graph) (type : TypeNode) : TypeView where
  qualifiedName := type.qualifiedName
  package := type.package
  simpleName := type.simpleName
  category := type.category
  scope := type.scope
  superType := type.superType.map graph.typeName
  declared := type.declared.map graph.label
  specials := type.specials.map fun prop => prop.map graph.label
  names := type.names
  messages := type.messages
  props := (graph.mergedProps type.key).map graph.label
  byId := (graph.propsById type.key).map fun prop => (graph.idOf prop, graph.label prop)
  maxPropId := graph.maxPropId type.key

/-- A dependency in names. -/
def pathView (graph : Graph) (path : PropPath) : PathView where
  raw := path.raw
  segments := path.segments.map graph.label

/-- A property of the graph in names. -/
def propView (graph : Graph) (prop : Property) : PropView where
  label := ⟨graph.typeName prop.declaringType, prop.name⟩
  id := prop.id
  kind := prop.kind
  type := prop.type
  tags := prop.tags
  reference := prop.reference
  state := prop.resolution.name
  target := prop.resolution.target?.map graph.typeName
  dependencies := prop.resolution.dependencies.map graph.pathView

/-- The view of the type of a qualified name. -/
def viewOf? (graph : Graph) (name : String) : Option TypeView :=
  (graph.find? name).map graph.typeView

/-- The view of the property with a label. -/
def propViewOf? (graph : Graph) (label : PropLabel) : Option PropView :=
  (graph.props.find? fun prop =>
    (⟨graph.typeName prop.declaringType, prop.name⟩ : PropLabel) = label).map graph.propView

end Graph

end Metamodel
