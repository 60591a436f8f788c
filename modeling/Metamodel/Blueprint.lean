import Metamodel.Blueprint.Header
import Metamodel.Blueprint.Properties
import Metamodel.DerivedNames

/-!
# Blueprints

A blueprint is a type that has passed every check and only wants its place in the graph. It is
built from the declaration and from what the type inherits, both without keys, so whether a type
is legal does not depend on what else is registered. Read `Blueprint.ofDeclaration` first.
-/

namespace Metamodel

/-- What a type takes over from its ancestor. -/
structure Inherited where
  name : String
  category : Category
  scope : Scope
  propNames : List String
  maxPropId : Nat
  specials : Specials (Option PropLabel)
  deriving DecidableEq, Repr

/-- Where the property for a special role comes from. -/
inductive Slot where
  /-- There is none. -/
  | empty
  /-- It is the one of the ancestor. -/
  | inherited
  /-- It is the property of the type at a position. -/
  | own (index : Nat)
  deriving DecidableEq, Repr

/-- A legal type before it has a place in the graph. -/
structure Blueprint where
  qualifiedName : String
  package : String
  simpleName : String
  category : Category
  scope : Scope
  props : List PropSpec
  specials : Specials Slot
  names : DerivedNames
  messages : List ValidationMessage
  deriving DecidableEq, Repr

/-- What makes an ancestor illegal: a category that the type must not extend, or a scope that
does not admit the type. -/
def Header.ancestorFault? (header : Header) (ancestor : Inherited) : Option Fault :=
  if !header.category.accepts ancestor.category then
    some (.illegalAncestor header.category ancestor.name ancestor.category)
  else if !ancestor.scope.admits header.scope then
    some (.scopeMismatch header.scope.label ancestor.name ancestor.scope.label)
  else none

/-- The first property that an ancestor has a property of the same name for. -/
def overrideViolation? (typeName : String) (inherited : List String) (props : List PropSpec) :
    Option Violation :=
  (props.find? fun prop => prop.name ∈ inherited).map fun prop =>
    .ofMember typeName prop.name .overridesInherited

/-- What is needed to fill the special roles of a type. -/
structure SpecialContext where
  typeName : String
  category : Category
  inherited : Specials (Option PropLabel)
  props : List PropSpec

namespace SpecialContext

/-- The properties of the type tagged for a role, with their positions. -/
def tagged (context : SpecialContext) (special : Special) : List (PropSpec × Nat) :=
  context.props.zipIdx.filter fun (prop, _) => prop.tags.has special.tag

/-- The first property of the type tagged for a role. -/
def first? (context : SpecialContext) (special : Special) : Option PropSpec :=
  (context.tagged special).head?.map (·.1)

/-- Where the property for a role comes from. -/
def slot (context : SpecialContext) (special : Special) : Slot :=
  if (context.inherited.get special).isSome then .inherited
  else
    match context.tagged special with
    | [] => .empty
    | (_, index) :: _ => .own index

/-- A fault of the first property tagged for a role. -/
def blame (context : SpecialContext) (special : Special) (fault : Fault) : Option Violation :=
  (context.first? special).map fun prop => .ofMember context.typeName prop.name fault

/-- A property is tagged for a role that the ancestor has filled. -/
def taken? (context : SpecialContext) (special : Special) : Option Violation :=
  (context.inherited.get special).bind fun holder =>
    context.blame special (.specialTaken special holder)

/-- A property is tagged for a role that the category does not have. -/
def disallowed? (context : SpecialContext) (special : Special) : Option Violation :=
  if context.category.allowsSpecials then none
  else context.blame special (.specialDisallowed special context.category)

/-- Two properties of the type are tagged for one role. -/
def repeated? (context : SpecialContext) (special : Special) : Option Violation :=
  match context.tagged special with
  | (first, _) :: (second, _) :: _ =>
    some (.ofType context.typeName (.specialRepeated special first.name second.name))
  | _ => none

/-- An association is tagged for a role. -/
def association? (context : SpecialContext) (special : Special) : Option Violation :=
  if (context.inherited.get special).isSome then none
  else
    (context.first? special).bind fun prop =>
      if prop.kind.isAssociation then
        some (.ofMember context.typeName prop.name (.specialAssociation special))
      else none

/-- An entity must have an identity, and nothing fills the role. -/
def missingIdentity? (context : SpecialContext) (config : Config) : Option Violation :=
  if context.category = .entity && context.slot .identity = .empty && config.requireEntityId then
    some (.ofType context.typeName .identityMissing)
  else none

/-- The first rule about special roles that the type breaks. Each rule is checked for all roles
before the next rule is. -/
def violation? (context : SpecialContext) (config : Config) : Option Violation :=
  (Special.all.findSome? context.taken?)
    |>.or (Special.all.findSome? context.disallowed?)
    |>.or (Special.all.findSome? context.repeated?)
    |>.or (Special.all.findSome? context.association?)
    |>.or (context.missingIdentity? config)

/-- Where the property for each role comes from. -/
def slots (context : SpecialContext) : Specials Slot :=
  Specials.tabulate context.slot

end SpecialContext

namespace Blueprint

/-- The blueprint of a declaration with a legal header, or the first rule that it breaks. -/
def ofDeclaration (source : Source) (config : Config) (declaration : Declaration)
    (header : Header) (inherited : Option Inherited) : Except Violation Blueprint := do
  let typeName := declaration.qualifiedName
  succeedUnless ((inherited.bind header.ancestorFault?).map (.ofType typeName))
  succeedUnless (memberViolation? typeName [] declaration.members)
  let props ← declaration.propSpecs source ((inherited.map (·.maxPropId)).getD 0)
  succeedUnless (overrideViolation? typeName ((inherited.map (·.propNames)).getD []) props)
  let context : SpecialContext :=
    { typeName
      category := header.category
      inherited := (inherited.map (·.specials)).getD (Specials.tabulate fun _ => none)
      props }
  succeedUnless (context.violation? config)
  return {
    qualifiedName := typeName
    package := declaration.package
    simpleName := declaration.simpleName
    category := header.category
    scope := header.scope
    props
    specials := context.slots
    names := .derive declaration.package declaration.simpleName header.category config.naming
    messages := header.messages }

end Blueprint

end Metamodel
