import Metamodel.Category
import Metamodel.Declaration.Computed
import Metamodel.Declaration.Naming
import Metamodel.Diagnostic
import Metamodel.Special

/-!
# Violations

A violation is a fault and the type or member that has it. Faults are the causes, with what is
needed to explain them; class and wording are functions of the fault alone.
-/

namespace Metamodel

/-- A property by the type that declares it and its name there. -/
structure PropLabel where
  owner : String
  name : String
  deriving DecidableEq, Repr

/-- The label as a message or an event writes it. -/
def PropLabel.text (label : PropLabel) : String :=
  label.owner ++ "." ++ label.name

/-- The ways in which declarations break the rules. -/
inductive Fault where
  /-- A type or member of that name was declared before. -/
  | redeclared
  /-- Following the ancestors leads back to the type; the names on the way stand in order. -/
  | cyclicAncestry (cycle : List String)
  /-- No declaration has the name. -/
  | undeclared
  /-- A name in the declaration is not an identifier. -/
  | illegalName (fault : NameFault)
  /-- No tag gives the type a category. -/
  | uncategorized
  /-- More than one tag gives the type a category. -/
  | manyCategories
  /-- The type is shared across partitions and names one. -/
  | sharedAndNamed (partition : String)
  /-- A constraint with a message is not a dotted identifier. -/
  | illegalConstraint (constraint : String) (fault : Text.IdentifierFault)
  /-- The message of a constraint is blank. -/
  | blankMessage (constraint : String)
  /-- A constraint has a message already. -/
  | repeatedConstraint (constraint : String)
  /-- The type lists more than one ancestor. -/
  | manyAncestors (ancestors : List String)
  /-- The category of the type does not accept that of its ancestor. -/
  | illegalAncestor (category : Category) (ancestor : String) (ancestorCategory : Category)
  /-- The scope of the ancestor does not admit that of the type. -/
  | scopeMismatch (partition : String) (ancestor ancestorPartition : String)
  /-- A member with a body has a tag other than a formula. -/
  | taggedBody (kind : TagKind)
  /-- An identity is computed. -/
  | computedIdentity
  /-- The formula does not fit the member. -/
  | illegalFormula (fault : FormulaFault)
  /-- A computed property would be an association. -/
  | computedAssociation (target : String)
  /-- An ancestor has a property of that name. -/
  | overridesInherited
  /-- An ancestor has a property in that role. -/
  | specialTaken (special : Special) (holder : PropLabel)
  /-- Types of the category have no property in that role. -/
  | specialDisallowed (special : Special) (category : Category)
  /-- Two properties of the type are tagged for the role. -/
  | specialRepeated (special : Special) (first second : String)
  /-- An association is tagged for the role. -/
  | specialAssociation (special : Special)
  /-- An entity has no identity. -/
  | identityMissing
  /-- The declared type that the property refers to is not registered. -/
  | unregistered (target : String)
  /-- An association refers to no declared type. -/
  | unlinked
  /-- The target of an association is not an entity. -/
  | targetNotEntity (target : String) (category : Category)
  /-- A segment of a dependency names no property of the type reached. -/
  | unknownDependency (path segment owner : String)
  /-- An inner segment of a dependency links to no type. -/
  | impassableDependency (path segment : String)
  /-- Properties are still pending after as many rounds as there were pending properties. -/
  | unsettled (bound : Nat) (pending : List PropLabel)
  /-- A segment of a path names no property of the type reached. -/
  | unknownSegment (path segment : String)
  /-- An inner segment of a path links to no type. -/
  | impassableSegment (path segment : String)
  deriving DecidableEq, Repr

namespace Fault

/-- The class of rule that a fault breaks. -/
def cls : Fault → ViolationClass
  | .redeclared | .cyclicAncestry _ | .illegalName _ | .uncategorized | .manyCategories
  | .manyAncestors _ | .illegalAncestor .. | .overridesInherited => .structural
  | .specialTaken .. | .specialRepeated .. | .identityMissing => .cardinality
  | .illegalConstraint .. | .blankMessage _ | .repeatedConstraint _ | .taggedBody _
  | .computedIdentity | .illegalFormula _ | .computedAssociation _ | .specialDisallowed ..
  | .specialAssociation _ => .tagMisuse
  | .sharedAndNamed _ | .scopeMismatch .. => .consistency
  | .undeclared | .unregistered _ | .unlinked | .targetNotEntity .. | .unknownDependency ..
  | .impassableDependency .. | .unknownSegment .. | .impassableSegment .. => .reference
  | .unsettled .. => .resolutionTimeout

/-- The sentence for an ancestor that a category does not accept. -/
def illegalAncestorMessage (ancestor : String) : Category → Category → String
  | .embeddable, category =>
    s!"its super type \"{ancestor}\" is {category.name}, an embeddable may only extend another " ++
      "embeddable"
  | _, .entity =>
    s!"its super type \"{ancestor}\" is an entity, inheriting from an entity is not supported; " ++
      "use a mapped superclass as the super type"
  | _, _ => s!"its super type \"{ancestor}\" is not a mapped superclass"

/-- The sentence that reports a fault. -/
def message : Fault → String
  | .redeclared => "it is declared more than once"
  | .cyclicAncestry cycle => "its ancestry is cyclic: " ++ " -> ".intercalate cycle
  | .undeclared => "no such declaration is known to the declaration source"
  | .illegalName fault => fault.message
  | .uncategorized => "it is not tagged as Entity, MappedSuperclass or Embeddable"
  | .manyCategories => "it carries more than one category tag"
  | .sharedAndNamed partition =>
    s!"it is shared across partitions so it cannot also name the partition \"{partition}\""
  | .illegalConstraint constraint fault => s!"constraint '{constraint}': {fault.message}"
  | .blankMessage constraint => s!"the message of constraint \"{constraint}\" is empty"
  | .repeatedConstraint constraint =>
    s!"constraint \"{constraint}\" carries more than one validation message"
  | .manyAncestors ancestors =>
    "it inherits multiple immutable interfaces: " ++ ", ".intercalate ancestors
  | .illegalAncestor category ancestor ancestorCategory =>
    illegalAncestorMessage ancestor category ancestorCategory
  | .scopeMismatch partition ancestor ancestorPartition =>
    s!"its partition is \"{partition}\" but the partition of its super type \"{ancestor}\" is " ++
      s!"\"{ancestorPartition}\""
  | .taggedBody kind =>
    s!"it has a body so it cannot be tagged {kind.name}, only Formula is allowed on members " ++
      "with a body"
  | .computedIdentity => "an identity property cannot be a computed property"
  | .illegalFormula fault => fault.message
  | .computedAssociation target =>
    s!"a computed property cannot be an association, but it returns \"{target}\""
  | .overridesInherited => "it overrides property of super type, this is not allowed"
  | .specialTaken special holder =>
    s!"it cannot be the {special.label} property because \"{holder.name}\" is already the " ++
      s!"{special.label} property declared by super type \"{holder.owner}\""
  | .specialDisallowed special category =>
    s!"it cannot be the {special.label} property because its type is {category.name}, not an " ++
      "entity or mapped superclass"
  | .specialRepeated special first second =>
    s!"multiple {special.label} properties are not supported, but both \"{first}\" and " ++
      s!"\"{second}\" are tagged {special.tag.name}"
  | .specialAssociation special => s!"an association cannot be the {special.label} property"
  | .identityMissing => "entity type must have an identity property"
  | .unregistered target => s!"it refers to \"{target}\" which has not been registered"
  | .unlinked => "an association must refer to an immutable type"
  | .targetNotEntity target category =>
    s!"it refers to \"{target}\" which is {category.name}, an association must target an entity"
  | .unknownDependency path segment owner =>
    s!"dependency \"{path}\" refers to unknown property \"{segment}\" of \"{owner}\""
  | .impassableDependency path segment =>
    s!"dependency \"{path}\" cannot navigate through \"{segment}\", it is neither an " ++
      "association nor an embedded property"
  | .unsettled bound pending =>
    s!"property resolution did not settle within {bound} rounds, still pending: "
      ++ ", ".intercalate (pending.map PropLabel.text) ++ "; their dependencies are circular"
  | .unknownSegment path segment =>
    s!"property path \"{path}\" refers to unknown property \"{segment}\""
  | .impassableSegment path segment =>
    s!"property path \"{path}\" cannot navigate through \"{segment}\", it links to no other type"

end Fault

/-- A fault and who has it. -/
structure Violation where
  subject : Subject
  fault : Fault
  deriving DecidableEq, Repr

namespace Violation

/-- A fault of a type as a whole. -/
def ofType (typeName : String) (fault : Fault) : Violation :=
  ⟨⟨typeName, none⟩, fault⟩

/-- A fault of a member of a type. -/
def ofMember (typeName member : String) (fault : Fault) : Violation :=
  ⟨⟨typeName, some member⟩, fault⟩

/-- The violation as it is reported. -/
def diagnostic (violation : Violation) : Diagnostic where
  cls := violation.fault.cls
  subject := violation.subject
  message := violation.fault.message

end Violation

/-- Success, unless there is something to report. -/
def succeedUnless {ε : Type} : Option ε → Except ε Unit
  | none => .ok ()
  | some report => .error report

end Metamodel
