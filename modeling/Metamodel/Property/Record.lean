import Metamodel.Property

/-!
# Records of properties

What is stored of a property, field by field. A `Property` has room for a database expression only
where its kind asks for one, and for a target only once it is settled. A record has all fields at
all times, and it is up to those who write to them that what does not apply is left out.
-/

namespace Metamodel

/-- A property with every field apart. -/
structure PropertyRecord where
  id : Nat
  name : String
  declaringType : TypeKey
  kind : KindTag
  type : TypeRef
  tags : TagSet
  /-- The declared type that the property refers to. -/
  targetName : Option String
  sql : Option String
  /-- The paths of an expression as declared. -/
  dependencyPaths : List String
  state : ResolutionState
  /-- The round in which the property left the pending state. -/
  resolvedRound : Option Nat
  target : Option TypeKey
  dependencies : List PropPath
  deriving DecidableEq, Repr

/-- The fields of a property. -/
def Property.record (prop : Property) : PropertyRecord where
  id := prop.id
  name := prop.name
  declaringType := prop.declaringType
  kind := prop.kind.tag
  type := prop.type
  tags := prop.tags
  targetName := prop.reference
  sql := prop.kind.sql?
  dependencyPaths := prop.kind.paths
  state := prop.resolution.state
  resolvedRound := prop.resolution.round?
  target := prop.resolution.target?
  dependencies := prop.resolution.dependencies

end Metamodel
