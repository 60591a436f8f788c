import Metamodel.DerivedNames
import Metamodel.Property
import Metamodel.Scope
import Metamodel.Violation

/-!
# The graph of types

Registered types and their properties, each in the order of registration, and the keys of types by
name. A type names its ancestor and its own properties by their keys; what it has altogether is its
merged view, which puts identities first and ancestors before descendants. `propPath` follows a
dotted path through the graph.
-/

namespace Metamodel

/-- A registered type. -/
structure TypeNode where
  key : TypeKey
  qualifiedName : String
  package : String
  simpleName : String
  category : Category
  scope : Scope
  superType : Option TypeKey
  /-- The properties that the type itself declares. -/
  declared : List PropKey
  /-- The properties in special roles, inherited ones included. -/
  specials : Specials (Option PropKey)
  names : DerivedNames
  /-- The custom messages in the order of their constraints. -/
  messages : List ValidationMessage
  deriving DecidableEq, Repr

/-- The custom message of a constraint. -/
def TypeNode.message? (type : TypeNode) (constraint : String) : Option String :=
  (type.messages.find? fun entry => entry.constraint = constraint).map (·.message)

/-- Types and properties in the order of registration, and an index of the types. -/
structure Graph where
  types : List TypeNode := []
  props : List Property := []
  /-- The keys of types by qualified name, the last one first; of two entries with one name the
  first counts. -/
  byName : List (String × TypeKey) := []
  deriving DecidableEq, Repr

namespace Graph

/-- The type at a key. -/
def type? (graph : Graph) (key : TypeKey) : Option TypeNode :=
  graph.types[key.index]?

/-- The property at a key. -/
def prop? (graph : Graph) (key : PropKey) : Option Property :=
  graph.props[key.index]?

/-- The key of the type of a qualified name. -/
def keyOf? (graph : Graph) (name : String) : Option TypeKey :=
  graph.byName.lookup name

/-- The registered type of a qualified name. -/
def find? (graph : Graph) (name : String) : Option TypeNode :=
  (graph.keyOf? name).bind graph.type?

/-- The qualified name of the type at a key. -/
def typeName (graph : Graph) (key : TypeKey) : String :=
  ((graph.type? key).map (·.qualifiedName)).getD ""

/-- The keys of all types. -/
def typeKeys (graph : Graph) : List TypeKey :=
  (List.range graph.types.length).map TypeKey.mk

/-- The keys of all properties. -/
def propKeys (graph : Graph) : List PropKey :=
  (List.range graph.props.length).map PropKey.mk

/-- The declaring type and the name of the property at a key. -/
def label (graph : Graph) (key : PropKey) : PropLabel :=
  match graph.prop? key with
  | some prop => ⟨graph.typeName prop.declaringType, prop.name⟩
  | none => ⟨"", ""⟩

/-- Whether the property at a key is an identity. -/
def isId (graph : Graph) (key : PropKey) : Bool :=
  (graph.prop? key).any (·.isId)

/-- The number of the property at a key. -/
def idOf (graph : Graph) (key : PropKey) : Nat :=
  ((graph.prop? key).map (·.id)).getD 0

/-- The keys of the properties that are still pending. -/
def pending (graph : Graph) : List PropKey :=
  graph.propKeys.filter fun key => (graph.prop? key).any (·.resolution.isPending)

/-- The view of a type over that of its ancestor: the inherited identities, its own identities,
the other inherited properties, its other own properties. -/
def mergeLevel (graph : Graph) (inherited own : List PropKey) : List PropKey :=
  inherited.filter graph.isId ++ own.filter graph.isId ++
    inherited.filter (!graph.isId ·) ++ own.filter (!graph.isId ·)

/-- All properties of a type, its ancestors' included. An ancestor is registered before its
descendants, so its key is the smaller one. -/
def mergedProps (graph : Graph) (key : TypeKey) : List PropKey :=
  match graph.type? key with
  | none => []
  | some type =>
    match type.superType with
    | none => type.declared
    | some ancestor =>
      if ancestor.index < key.index then
        graph.mergeLevel (graph.mergedProps ancestor) type.declared
      else type.declared
termination_by key.index

/-- All properties of a type in the order of their numbers. -/
def propsById (graph : Graph) (key : TypeKey) : List PropKey :=
  (graph.mergedProps key).mergeSort fun a b => graph.idOf a ≤ graph.idOf b

/-- The property of a type that has a name. -/
def findProp? (graph : Graph) (key : TypeKey) (name : String) : Option PropKey :=
  (graph.mergedProps key).find? fun prop => (graph.prop? prop).any (·.name = name)

/-- The largest number of a property of a type, zero if it has none. -/
def maxPropId (graph : Graph) (key : TypeKey) : Nat :=
  ((graph.mergedProps key).map graph.idOf).max?.getD 0

/-- The type that the property at a key links to. -/
def target? (graph : Graph) (key : PropKey) : Option TypeKey :=
  (graph.prop? key).bind (·.resolution.target?)

/-- The properties at the segments of a path, of which `path` is the whole text. -/
def walkPath (graph : Graph) (path : String) (owner : TypeKey) :
    List String → Except Violation (List PropKey)
  | [] => .ok []
  | segment :: rest =>
    match graph.findProp? owner segment with
    | none => .error (.ofType (graph.typeName owner) (.unknownSegment path segment))
    | some key =>
      if rest = [] then .ok [key]
      else
        match graph.target? key with
        | none =>
          .error (.ofMember (graph.typeName owner) segment (.impassableSegment path segment))
        | some target => (graph.walkPath path target rest).map (key :: ·)

/-- The properties at the segments of a dotted path that starts at a type. Each segment but the
last must link to the type that has the next. -/
def propPath (graph : Graph) (key : TypeKey) (path : String) :
    Except Violation (List PropKey) :=
  graph.walkPath path key (Text.splitDots path)

/-- The graph with the property at a key changed. -/
def modifyProp (graph : Graph) (key : PropKey) (f : Property → Property) : Graph :=
  { graph with props := graph.props.modify key.index f }

/-- The graph with another resolution for the property at a key. -/
def setResolution (graph : Graph) (key : PropKey) (resolution : Resolution) : Graph :=
  graph.modifyProp key fun prop => { prop with resolution := resolution }

/-- A new resolution changes the property at its key and leaves all others alone. -/
theorem prop?_setResolution (graph : Graph) (key other : PropKey) (resolution : Resolution) :
    (graph.setResolution key resolution).prop? other =
      if key = other then
        (graph.prop? other).map fun prop => { prop with resolution := resolution }
      else graph.prop? other := by
  obtain ⟨index⟩ := key
  obtain ⟨other⟩ := other
  simp only [prop?, setResolution, modifyProp, List.getElem?_modify, PropKey.mk.injEq]
  split <;> simp

end Graph

end Metamodel
