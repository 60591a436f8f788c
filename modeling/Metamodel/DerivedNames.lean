import Metamodel.Category
import Metamodel.ClassName
import Metamodel.Config

/-!
# Derived names

The classes that are generated for a type, and how their names follow from its own. Which classes
there are depends on the category: only entities have tables, and mapped superclasses have
nothing to fetch.
-/

namespace Metamodel

/-- The classes that may be generated for a type. -/
inductive ClassRole where
  | value | draft | producer | implementor | implementation | draftImplementation | mapStruct
  | props | table | tableEx | remoteTable | fetcher | propExpression
  deriving DecidableEq, Repr

namespace ClassRole

/-- All roles, each once. -/
def all : List ClassRole :=
  [.value, .draft, .producer, .implementor, .implementation, .draftImplementation, .mapStruct,
    .props, .table, .tableEx, .remoteTable, .fetcher, .propExpression]

/-- The key of a role in a record. -/
def key : ClassRole → String
  | .value => "value"
  | .draft => "draft"
  | .producer => "producer"
  | .implementor => "implementor"
  | .implementation => "implementation"
  | .draftImplementation => "draft_implementation"
  | .mapStruct => "map_struct"
  | .props => "props"
  | .table => "table"
  | .tableEx => "table_ex"
  | .remoteTable => "remote_table"
  | .fetcher => "fetcher"
  | .propExpression => "prop_expression"

/-- Whether types of the category have a class in the role. -/
def appliesTo (role : ClassRole) (category : Category) : Bool :=
  match role with
  | .table | .tableEx | .remoteTable => category = .entity
  | .fetcher => category = .entity || category = .embeddable
  | .propExpression => category = .embeddable
  | _ => true

end ClassRole

/-- The names of the classes for a type; those of a role that the category does not have are
absent. -/
structure DerivedNames where
  value : ClassName
  draft : ClassName
  producer : ClassName
  implementor : ClassName
  implementation : ClassName
  draftImplementation : ClassName
  mapStruct : ClassName
  props : ClassName
  table : Option ClassName
  tableEx : Option ClassName
  remoteTable : Option ClassName
  fetcher : Option ClassName
  propExpression : Option ClassName
  deriving DecidableEq, Repr

namespace DerivedNames

/-- The class in a role. -/
def get? (names : DerivedNames) : ClassRole → Option ClassName
  | .value => some names.value
  | .draft => some names.draft
  | .producer => some names.producer
  | .implementor => some names.implementor
  | .implementation => some names.implementation
  | .draftImplementation => some names.draftImplementation
  | .mapStruct => some names.mapStruct
  | .props => some names.props
  | .table => names.table
  | .tableEx => names.tableEx
  | .remoteTable => names.remoteTable
  | .fetcher => names.fetcher
  | .propExpression => names.propExpression

/-- The name of the class in a role, for a category that has the role. -/
def nameFor (package simpleName : String) (naming : Naming) : ClassRole → ClassName
  | .value => .topLevel package simpleName
  | .draft => draftName
  | .producer => producerName
  | .implementor => producerName.nested "Implementor"
  | .implementation => producerName.nested "Impl"
  | .draftImplementation => producerName.nested "DraftImpl"
  | .mapStruct => draftName.nested "MapStruct"
  | .props => suffixed naming.props
  | .table => suffixed naming.table
  | .tableEx => suffixed (naming.table ++ "Ex")
  | .remoteTable => (suffixed naming.table).nested "Remote"
  | .fetcher => suffixed naming.fetcher
  | .propExpression => suffixed naming.propExpression
where
  suffixed (suffix : String) : ClassName := .topLevel package (simpleName ++ suffix)
  draftName : ClassName := suffixed naming.draft
  producerName : ClassName := draftName.nested "Producer"

/-- The names of all classes for a type. -/
def derive (package simpleName : String) (category : Category) (naming : Naming) :
    DerivedNames where
  value := nameFor package simpleName naming .value
  draft := nameFor package simpleName naming .draft
  producer := nameFor package simpleName naming .producer
  implementor := nameFor package simpleName naming .implementor
  implementation := nameFor package simpleName naming .implementation
  draftImplementation := nameFor package simpleName naming .draftImplementation
  mapStruct := nameFor package simpleName naming .mapStruct
  props := nameFor package simpleName naming .props
  table := given .table
  tableEx := given .tableEx
  remoteTable := given .remoteTable
  fetcher := given .fetcher
  propExpression := given .propExpression
where
  given (role : ClassRole) : Option ClassName :=
    if role.appliesTo category then some (nameFor package simpleName naming role) else none

/-- A class is there exactly for the roles of the category, under the name for the role. -/
theorem get?_derive (package simpleName : String) (category : Category) (naming : Naming)
    (role : ClassRole) :
    (derive package simpleName category naming).get? role =
      if role.appliesTo category then some (nameFor package simpleName naming role) else none := by
  cases role <;> rfl

end DerivedNames

end Metamodel
