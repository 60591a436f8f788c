import Metamodel.Tag

/-!
# Declarations

What is known of a type before it is compiled: its name, its category tags, the interfaces that
it lists, its members, and custom messages for validation constraints. Nothing here is checked;
a declaration may be as wrong as its author made it.
-/

namespace Metamodel

/-- The type of a member: a named type, or lists of a type. -/
inductive TypeRef where
  | named (name : String)
  | list (element : TypeRef)
  deriving DecidableEq, Repr

namespace TypeRef

/-- The name under all the lists. -/
def innermost : TypeRef → String
  | .named name => name
  | .list element => element.innermost

/-- Whether the type is a list. -/
def isList : TypeRef → Bool
  | .named _ => false
  | .list _ => true

end TypeRef

/-- A member of a declaration. -/
structure Member where
  name : String
  /-- The member computes its value itself. -/
  hasBody : Bool := false
  type : TypeRef
  tags : TagSet := []
  deriving DecidableEq, Repr

/-- The tag that gives a declaration its category. -/
inductive TypeTag where
  | entity (scope : Option String)
  | mappedSuperclass (scope : Option String) (acrossPartitions : Bool)
  | embeddable
  deriving DecidableEq, Repr

/-- Whether members may be associations to a type with this tag. -/
def TypeTag.isAssociationTarget : TypeTag → Bool
  | .entity _ | .mappedSuperclass _ _ => true
  | .embeddable => false

/-- A custom message for a validation constraint. -/
structure ValidationMessage where
  constraint : String
  message : String
  deriving DecidableEq, Repr

/-- A declared type. -/
structure Declaration where
  package : String := ""
  simpleName : String
  tags : List TypeTag := []
  interfaces : List String := []
  members : List Member := []
  messages : List ValidationMessage := []
  deriving DecidableEq, Repr

namespace Declaration

/-- The name of a type inside its package, if it is in one. -/
def qualify (package simpleName : String) : String :=
  if package = "" then simpleName else package ++ "." ++ simpleName

/-- The name by which other declarations refer to this one. -/
def qualifiedName (declaration : Declaration) : String :=
  qualify declaration.package declaration.simpleName

/-- Whether a member whose type is this declaration is an association. -/
def isAssociationTarget (declaration : Declaration) : Bool :=
  declaration.tags.any TypeTag.isAssociationTarget

end Declaration

end Metamodel
