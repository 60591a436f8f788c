/-!
# Configuration

What a compilation can be told from outside: whether an entity must have an identity, and the
suffixes from which the names of generated classes are made.
-/

namespace Metamodel

/-- The classes whose names are made with a configured suffix. -/
inductive SuffixRole where
  | draft | table | fetcher | props | propExpression
  deriving DecidableEq, Repr

namespace SuffixRole

/-- All roles, in the order in which their suffixes are checked. -/
def all : List SuffixRole := [.draft, .table, .fetcher, .props, .propExpression]

/-- The key of the suffix in a configuration document. -/
def key : SuffixRole → String
  | .draft => "draft_suffix"
  | .table => "table_suffix"
  | .fetcher => "fetcher_suffix"
  | .props => "props_suffix"
  | .propExpression => "prop_expression_suffix"

/-- The role whose suffix has a key. -/
def ofKey? (text : String) : Option SuffixRole :=
  all.find? fun role => role.key = text

/-- Each role is found by its key. -/
theorem ofKey?_key (role : SuffixRole) : ofKey? role.key = some role := by
  cases role <;> decide

end SuffixRole

/-- The suffix of each class. -/
structure Naming where
  draft : String := "Draft"
  table : String := "Table"
  fetcher : String := "Fetcher"
  props : String := "Props"
  propExpression : String := "PropExpression"
  deriving DecidableEq, Repr

/-- What makes a suffix unfit to end an identifier. -/
inductive SuffixFault where
  /-- The suffix is empty. -/
  | empty (role : SuffixRole)
  /-- The suffix holds a character that no identifier has. -/
  | notFragment (role : SuffixRole) (suffix : String)
  deriving DecidableEq, Repr

/-- The sentence that reports a fault. -/
def SuffixFault.message : SuffixFault → String
  | .empty role => s!"naming.{role.key} must not be empty"
  | .notFragment role suffix => s!"naming.{role.key} '{suffix}' must be an identifier fragment"

namespace Naming

/-- The suffix of a role. -/
def suffix (naming : Naming) : SuffixRole → String
  | .draft => naming.draft
  | .table => naming.table
  | .fetcher => naming.fetcher
  | .props => naming.props
  | .propExpression => naming.propExpression

/-- The naming with another suffix for a role. -/
def withSuffix (naming : Naming) (role : SuffixRole) (suffix : String) : Naming :=
  match role with
  | .draft => { naming with draft := suffix }
  | .table => { naming with table := suffix }
  | .fetcher => { naming with fetcher := suffix }
  | .props => { naming with props := suffix }
  | .propExpression => { naming with propExpression := suffix }

/-- ASCII letters, digits and underscores. -/
def isFragment (text : String) : Bool :=
  text.toList.all fun c => c.isAlphanum || c = '_'

/-- The fault of the suffix of a role. -/
def suffixFault? (naming : Naming) (role : SuffixRole) : Option SuffixFault :=
  if naming.suffix role = "" then some (.empty role)
  else if !isFragment (naming.suffix role) then some (.notFragment role (naming.suffix role))
  else none

/-- The first fault among the suffixes. -/
def fault? (naming : Naming) : Option SuffixFault :=
  SuffixRole.all.findSome? naming.suffixFault?

theorem suffix_withSuffix (naming : Naming) (role other : SuffixRole) (text : String) :
    (naming.withSuffix role text).suffix other =
      if role = other then text else naming.suffix other := by
  cases role <;> cases other <;> rfl

end Naming

/-- The settings of a compilation. -/
structure Config where
  requireEntityId : Bool := true
  naming : Naming := {}
  deriving DecidableEq, Repr

end Metamodel
