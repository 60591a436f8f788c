import Metamodel.Data.Declaration
import Metamodel.Graph
import Metamodel.Property.Record

/-!
# Graphs as data

Types and properties of a graph with their keys as numbers.
-/

namespace Metamodel

/-- The form of a class name. -/
def ClassName.data (name : ClassName) : Data :=
  .record [("package", .text name.package), ("simple_names", .texts name.simpleNames)]

/-- The form of derived names, in which classes that are absent are left out. -/
def DerivedNames.data (names : DerivedNames) : Data :=
  .record <| ClassRole.all.flatMap fun role =>
    Data.optionalField role.key ClassName.data (names.get? role)

/-- The form of a scope, in which the partition without a name and the usual lack of sharing are
left out. -/
def Scope.data (scope : Scope) : Data :=
  .record <|
    Data.optionalField "name" .text scope.name ++
      if scope.acrossPartitions then [("across_partitions", .bool true)] else []

/-- The form of a type key. -/
def TypeKey.data (key : TypeKey) : Data := .number key.index

/-- The form of a property key. -/
def PropKey.data (key : PropKey) : Data := .number key.index

/-- The form of a registered type. -/
def TypeNode.data (type : TypeNode) : Data :=
  .record [("key", type.key.data), ("qualified_name", .text type.qualifiedName),
    ("package", .text type.package), ("simple_name", .text type.simpleName),
    ("category", .text type.category.name), ("scope", type.scope.data),
    ("super_type", .ofOption TypeKey.data type.superType),
    ("declared_props", .list (type.declared.map PropKey.data)),
    ("id_prop", .ofOption PropKey.data type.specials.identity),
    ("version_prop", .ofOption PropKey.data type.specials.version),
    ("logical_deleted_prop", .ofOption PropKey.data type.specials.logicalDeleted),
    ("derived_names", type.names.data),
    ("validation_messages",
      .record (type.messages.map fun entry => (entry.constraint, .text entry.message)))]

/-- The form of a dependency. -/
def PropPath.data (path : PropPath) : Data :=
  .record [("raw", .text path.raw), ("segments", .list (path.segments.map PropKey.data))]

/-- The form of a property record. -/
def PropertyRecord.data (record : PropertyRecord) : Data :=
  .record [("id", .number record.id), ("name", .text record.name),
    ("declaring_type", record.declaringType.data), ("kind", .text record.kind.name),
    ("ty", record.type.data), ("tags", record.tags.data),
    ("target_name", .ofOption .text record.targetName), ("sql", .ofOption .text record.sql),
    ("dependency_paths", .texts record.dependencyPaths), ("state", .text record.state.name),
    ("resolved_round", .ofOption .number record.resolvedRound),
    ("target", .ofOption TypeKey.data record.target),
    ("dependencies", .list (record.dependencies.map PropPath.data))]

/-- The form of a graph. -/
def Graph.data (graph : Graph) : Data :=
  .record [("types", .list (graph.types.map TypeNode.data)),
    ("props", .list (graph.props.map fun prop => prop.record.data))]

end Metamodel
