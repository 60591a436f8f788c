import Metamodel.Declaration.Source
import Metamodel.Property

/-!
# The properties of a declaration

Which members of a declaration become properties, in which order, and what each of them is.
Identities come first, then expressions, then all the rest; a member with a body and no formula
is a helper and becomes no property.
-/

namespace Metamodel

namespace Member

/-- An identity: it has no body and carries the tag. -/
def isIdentity (member : Member) : Bool :=
  !member.hasBody && member.tags.has .id

/-- An expression over other properties: it has a body and a formula. -/
def isExpression (member : Member) : Bool :=
  member.hasBody && member.tags.has .formula

/-- A member without a body that is no identity. -/
def isPlain (member : Member) : Bool :=
  !member.hasBody && !member.tags.has .id

/-- What makes the formula of a member illegal: an identity has none, a member with a body has
an expression, any other a database expression. -/
def formulaFault? (member : Member) : Option Fault :=
  match member.tags.formula? with
  | none => none
  | some formula =>
    if member.hasBody then formula.expressionFault?.map .illegalFormula
    else if member.tags.has .id then some .computedIdentity
    else formula.sqlFault?.map .illegalFormula

/-- The tag, other than a formula, that a member with a body must not carry. -/
def bodyTag? (member : Member) : Option TagKind :=
  if member.hasBody then member.tags.kinds.find? (· ≠ .formula) else none

/-- The declaration that the type of a member names under its lists. -/
def referent? (member : Member) (source : Source) : Option Declaration :=
  source.declaration? member.type.innermost

/-- Whether the type of a member is one that associations link to. -/
def refersToTarget (member : Member) (source : Source) : Bool :=
  (member.referent? source).any (·.isAssociationTarget)

/-- What kind of property a member becomes. -/
def kind (member : Member) (source : Source) : PropertyKind :=
  match member.tags.formula? with
  | some formula =>
    if member.hasBody then .expression formula.dependencies else .sql formula.sql
  | none => if member.refersToTarget source then .association else .scalar

/-- The property that a member becomes, or the rule that it breaks. -/
def spec (source : Source) (typeName : String) (member : Member) (id : Nat) :
    Except Violation PropSpec :=
  Except.mapError (.ofMember typeName member.name) do
    succeedUnless member.formulaFault?
    if (member.kind source).isComputed && member.refersToTarget source then
      throw (.computedAssociation member.type.innermost)
    return {
      id
      name := member.name
      kind := member.kind source
      type := member.type
      tags := member.tags
      reference := (member.referent? source).map fun _ => member.type.innermost }

end Member

/-- The first member that repeats the name of one before it, those in `seen` included, or that
has a body and a tag for members without. -/
def memberViolation? (typeName : String) (seen : List String) : List Member → Option Violation
  | [] => none
  | member :: rest =>
    if member.name ∈ seen then some (.ofMember typeName member.name .redeclared)
    else (member.bodyTag?.map fun kind => .ofMember typeName member.name (.taggedBody kind))
      |>.or (memberViolation? typeName (member.name :: seen) rest)

namespace Declaration

/-- The members that become properties, in the order of their numbers. -/
def propertyMembers (declaration : Declaration) : List Member :=
  declaration.members.filter Member.isIdentity ++
    declaration.members.filter Member.isExpression ++
    declaration.members.filter Member.isPlain

/-- The properties of a declaration, numbered from the one after `last`. -/
def propSpecs (source : Source) (declaration : Declaration) (last : Nat) :
    Except Violation (List PropSpec) :=
  (declaration.propertyMembers.zipIdx (last + 1)).mapM fun (member, id) =>
    member.spec source declaration.qualifiedName id

end Declaration

end Metamodel
