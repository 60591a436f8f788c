import Metamodel.Tag

/-!
# Special properties

A type has at most one identity, one version and one deletion mark, its ancestors' included.
`Specials` holds something for each of the three.
-/

namespace Metamodel

/-- The three roles that at most one property of a type may play. -/
inductive Special where
  | identity | version | logicalDeleted
  deriving DecidableEq, Repr

namespace Special

/-- All roles, in the order in which they are checked. -/
def all : List Special := [.identity, .version, .logicalDeleted]

/-- The tag that gives a property the role. -/
def tag : Special → TagKind
  | .identity => .id
  | .version => .version
  | .logicalDeleted => .logicalDeleted

/-- The word for the role in a message. -/
def label : Special → String
  | .identity => "identity"
  | .version => "version"
  | .logicalDeleted => "logical-deleted"

end Special

/-- One value for each role. -/
structure Specials (α : Type) where
  identity : α
  version : α
  logicalDeleted : α
  deriving DecidableEq, Repr

namespace Specials

variable {α β : Type}

/-- The value for a role. -/
def get (specials : Specials α) : Special → α
  | .identity => specials.identity
  | .version => specials.version
  | .logicalDeleted => specials.logicalDeleted

/-- The values that a function gives. -/
def tabulate (f : Special → α) : Specials α :=
  ⟨f .identity, f .version, f .logicalDeleted⟩

/-- The values after a function is applied to each. -/
def map (f : α → β) (specials : Specials α) : Specials β :=
  tabulate fun special => f (specials.get special)

@[simp]
theorem get_tabulate (f : Special → α) (special : Special) :
    (tabulate f).get special = f special := by
  cases special <;> rfl

end Specials

end Metamodel
