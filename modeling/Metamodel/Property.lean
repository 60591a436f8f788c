import Metamodel.Declaration

/-!
# Properties

A property is what a member becomes once its type is accepted. What its declaration says about it
is a `PropSpec`; a `Property` adds the type that declares it and how far its resolution has come.
Handles into the graph are kept apart by their types.
-/

namespace Metamodel

/-- The place of a type in the order of registration. -/
structure TypeKey where
  index : Nat
  deriving DecidableEq, Repr

/-- The place of a property in the order of registration. -/
structure PropKey where
  index : Nat
  deriving DecidableEq, Repr

/-- What kind of value a property has. -/
inductive KindTag where
  | scalar
  | association
  | expression
  | sql
  deriving DecidableEq, Repr

namespace KindTag

/-- The name of a kind. -/
def name : KindTag → String
  | .scalar => "Scalar"
  | .association => "Association"
  | .expression => "ComputedExpression"
  | .sql => "ComputedSql"

/-- Whether the value is computed. -/
def isComputed : KindTag → Bool
  | .scalar | .association => false
  | .expression | .sql => true

end KindTag

/-- What kind of value a property has, with what a computed one is computed from. -/
inductive PropertyKind where
  /-- A plain value, or an embedded one. -/
  | scalar
  /-- A link to an entity. -/
  | association
  /-- Computed from the properties at the ends of the paths. -/
  | expression (paths : List String)
  /-- Computed by the database. -/
  | sql (text : String)
  deriving DecidableEq, Repr

namespace PropertyKind

/-- The kind alone. -/
def tag : PropertyKind → KindTag
  | .scalar => .scalar
  | .association => .association
  | .expression _ => .expression
  | .sql _ => .sql

/-- The name of a kind. -/
def name (kind : PropertyKind) : String :=
  kind.tag.name

/-- Whether the value is computed. -/
def isComputed (kind : PropertyKind) : Bool :=
  kind.tag.isComputed

/-- Whether the kind is that of a link to an entity. -/
def isAssociation : PropertyKind → Bool
  | .association => true
  | _ => false

/-- Whether the kind is that of an expression over other properties. -/
def isExpression : PropertyKind → Bool
  | .expression _ => true
  | _ => false

/-- The paths of an expression, none for other kinds. -/
def paths : PropertyKind → List String
  | .expression paths => paths
  | _ => []

/-- The database expression. -/
def sql? : PropertyKind → Option String
  | .sql text => some text
  | _ => none

end PropertyKind

/-- What a declaration says about a property. -/
structure PropSpec where
  /-- The number of the property, counted along its chain of ancestors. -/
  id : Nat
  name : String
  kind : PropertyKind
  type : TypeRef
  tags : TagSet
  /-- The declared type that the property refers to. -/
  reference : Option String
  deriving DecidableEq, Repr

/-- Whether the property is an identity. -/
def PropSpec.isId (spec : PropSpec) : Bool :=
  spec.tags.has .id

/-- A dependency that was followed to its end: the path as declared and the property at each
segment. -/
structure PropPath where
  raw : String
  segments : List PropKey
  deriving DecidableEq, Repr

/-- The states of a property. -/
inductive ResolutionState where
  | pending
  | resolved
  | failed
  deriving DecidableEq, Repr

/-- The name of a state. -/
def ResolutionState.name : ResolutionState → String
  | .pending => "Pending"
  | .resolved => "Resolved"
  | .failed => "Failed"

/-- How far the resolution of a property has come. -/
inductive Resolution where
  /-- Still to be stepped. -/
  | pending
  /-- Settled in a round, with the type it links to and the dependencies it has. -/
  | resolved (round : Nat) (target : Option TypeKey) (dependencies : List PropPath)
  /-- Failed: in the step of a round, or for want of a round that settles it. -/
  | failed (round : Option Nat)
  deriving DecidableEq, Repr

namespace Resolution

/-- The state alone. -/
def state : Resolution → ResolutionState
  | .pending => .pending
  | .resolved .. => .resolved
  | .failed _ => .failed

/-- The name of a state. -/
def name (resolution : Resolution) : String :=
  resolution.state.name

/-- Whether the property is still to be stepped. -/
def isPending : Resolution → Bool
  | .pending => true
  | _ => false

/-- Whether the property is settled. -/
def isResolved : Resolution → Bool
  | .resolved .. => true
  | _ => false

/-- The round in which the property left the pending state. -/
def round? : Resolution → Option Nat
  | .pending => none
  | .resolved round _ _ => some round
  | .failed round => round

/-- The type that the property links to. -/
def target? : Resolution → Option TypeKey
  | .resolved _ target _ => target
  | _ => none

/-- The dependencies of the property. -/
def dependencies : Resolution → List PropPath
  | .resolved _ _ dependencies => dependencies
  | _ => []

end Resolution

/-- A property of a registered type. -/
structure Property extends PropSpec where
  declaringType : TypeKey
  resolution : Resolution := .pending
  deriving DecidableEq, Repr

end Metamodel
