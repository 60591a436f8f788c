import Metamodel.Registry.Registration
import Metamodel.Registry.Resolution

/-!
# Graphs under another naming

The names of the generated classes of a type stand in the graph, but nothing in the graph is found
by them and nothing else is made from them. `Graph.rename` derives them anew from another naming;
whatever else a graph says it says of the renamed graph as well, down to what an attempt at a
property gives (`attempt_rename`).
-/

namespace Metamodel

/-- The type with the names of its classes derived from a naming. -/
def TypeNode.rename (naming : Naming) (type : TypeNode) : TypeNode :=
  { type with names := .derive type.package type.simpleName type.category naming }

namespace Graph

/-- The graph with the names of all classes derived from a naming. -/
def rename (naming : Naming) (graph : Graph) : Graph :=
  { graph with types := graph.types.map (TypeNode.rename naming) }

variable (naming : Naming) (graph : Graph)

@[simp]
theorem type?_rename (key : TypeKey) :
    (graph.rename naming).type? key = (graph.type? key).map (TypeNode.rename naming) :=
  List.getElem?_map ..

@[simp]
theorem keyOf?_rename (name : String) : (graph.rename naming).keyOf? name = graph.keyOf? name :=
  rfl

@[simp]
theorem find?_rename (name : String) :
    (graph.rename naming).find? name = (graph.find? name).map (TypeNode.rename naming) := by
  rw [find?, find?, keyOf?_rename]
  cases graph.keyOf? name with
  | none => rfl
  | some key => exact type?_rename naming graph key

@[simp]
theorem prop?_rename (key : PropKey) : (graph.rename naming).prop? key = graph.prop? key := rfl

@[simp]
theorem pending_rename : (graph.rename naming).pending = graph.pending := rfl

@[simp]
theorem typeKeys_rename : (graph.rename naming).typeKeys = graph.typeKeys := by
  simp [typeKeys, rename]

@[simp]
theorem typeName_rename (key : TypeKey) :
    (graph.rename naming).typeName key = graph.typeName key := by
  rw [typeName, typeName, type?_rename, Option.map_map]
  rfl

@[simp]
theorem label_rename (key : PropKey) : (graph.rename naming).label key = graph.label key := by
  rw [label, label, prop?_rename]
  cases graph.prop? key <;> simp

/-- The merged view of a type does not depend on the names of classes. -/
@[simp]
theorem mergedProps_rename (key : TypeKey) :
    (graph.rename naming).mergedProps key = graph.mergedProps key := by
  fun_induction Graph.mergedProps graph key with
  | case1 key hkey => rw [mergedProps, type?_rename, hkey, Option.map_none]
  | case2 key type hkey hroot =>
    rw [mergedProps, type?_rename, hkey, Option.map_some]
    simp [TypeNode.rename, hroot]
  | case3 key type hkey ancestor hancestor hlt ih =>
    rw [mergedProps, type?_rename, hkey, Option.map_some]
    simp only [TypeNode.rename, hancestor, if_pos hlt, ih]
    rfl
  | case4 key type hkey ancestor hancestor hlt =>
    rw [mergedProps, type?_rename, hkey, Option.map_some]
    simp [TypeNode.rename, hancestor, hlt]

@[simp]
theorem findProp?_rename (key : TypeKey) (name : String) :
    (graph.rename naming).findProp? key name = graph.findProp? key name := by
  rw [findProp?, findProp?, mergedProps_rename]
  rfl

/-- What a type lends has no names of classes in it. -/
@[simp]
theorem inherited?_rename (key : TypeKey) :
    (graph.rename naming).inherited? key = graph.inherited? key := by
  have hlabel : (graph.rename naming).label = graph.label := funext (graph.label_rename naming)
  have hmax : (graph.rename naming).maxPropId key = graph.maxPropId key := by
    rw [maxPropId, maxPropId, mergedProps_rename]
    rfl
  rw [inherited?, inherited?, type?_rename, Option.map_map, hlabel, hmax, mergedProps_rename]
  rfl

theorem walkDependency_rename (path : String) (owner : TypeKey) (segments : List String) :
    (graph.rename naming).walkDependency path owner segments =
      graph.walkDependency path owner segments := by
  induction segments generalizing owner with
  | nil => rfl
  | cons segment rest ih =>
    have hnext : (graph.rename naming).dependencyAt path owner segment =
        graph.dependencyAt path owner segment := by
      rw [dependencyAt, dependencyAt, findProp?_rename, typeName_rename]
    simp only [walkDependency, hnext, ih]
    rfl

theorem followDependencies_rename (owner : TypeKey) (paths : List String) :
    (graph.rename naming).followDependencies owner paths =
      graph.followDependencies owner paths := by
  induction paths with
  | nil => rfl
  | cons path rest ih =>
    simp only [followDependencies, walkDependency_rename, ih]

/-- What a property refers to is the same type, but for the names of its classes. -/
theorem linkedType?_rename (prop : Property) :
    (graph.rename naming).linkedType? prop =
      (graph.linkedType? prop).map (Option.map (TypeNode.rename naming)) := by
  rw [linkedType?, linkedType?]
  cases prop.reference with
  | none => rfl
  | some name =>
    simp only [find?_rename]
    cases graph.find? name <;> rfl

/-- What an attempt at a property gives does not depend on the names of classes. -/
theorem attempt_rename (prop : Property) :
    (graph.rename naming).attempt prop = graph.attempt prop := by
  have hscalar : (graph.rename naming).settleScalar prop = graph.settleScalar prop := by
    rw [settleScalar, settleScalar, linkedType?_rename]
    cases graph.linkedType? prop with
    | error fault => rfl
    | ok linked =>
      cases linked with
      | none => rfl
      | some type =>
        by_cases hembeddable : type.category = .embeddable <;>
          simp [Except.map, bind, Except.bind, Option.filter, hembeddable, TypeNode.rename]
  have hassociation : (graph.rename naming).settleAssociation prop =
      graph.settleAssociation prop := by
    rw [settleAssociation, settleAssociation, linkedType?_rename]
    cases graph.linkedType? prop with
    | error fault => rfl
    | ok linked => cases linked <;> rfl
  rw [attempt, attempt, hscalar, hassociation]
  simp only [followDependencies_rename]

end Graph

end Metamodel
