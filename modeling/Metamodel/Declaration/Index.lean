import Metamodel.Violation
import Std.Data.HashMap

/-!
# Declarations in order and by name

A source in memory keeps the qualified names in the order in which they came, and beside them the
declarations by name. The two are separate: an insertion asks only the second whether a name is
taken, and then writes both, one after the other.
-/

namespace Metamodel

/-- The qualified names in order, and the declarations by name. -/
structure DeclarationIndex where
  order : List String := []
  byName : Std.HashMap String Declaration := ∅

namespace DeclarationIndex

/-- Adds a declaration, unless there is one by its name. What is written before a failure stays
written. -/
def insert (declaration : Declaration) : EStateM Violation DeclarationIndex Unit := do
  let name := declaration.qualifiedName
  if (← get).byName.contains name then
    throw (.ofType name .redeclared)
  modify fun index => { index with order := index.order ++ [name] }
  modify fun index => { index with byName := index.byName.insert name declaration }

/-- Adds declarations one after the other, up to the first that is refused. -/
def insertAll (declarations : List Declaration) : EStateM Violation DeclarationIndex Unit :=
  declarations.forM insert

/-- The index of a list of declarations. -/
def ofList (declarations : List Declaration) : Except Violation DeclarationIndex :=
  match (insertAll declarations).run {} with
  | .ok () index => .ok index
  | .error violation _ => .error violation

/-- The qualified names in order. -/
def names (index : DeclarationIndex) : List String :=
  index.order

/-- The declaration of a qualified name. -/
def declaration? (index : DeclarationIndex) (name : String) : Option Declaration :=
  index.byName[name]?

/-- Whether a name is that of a declared type, which is immutable and can be an ancestor. -/
def isImmutable (index : DeclarationIndex) (name : String) : Bool :=
  (index.declaration? name).isSome

/-- The number of names. -/
def size (index : DeclarationIndex) : Nat :=
  index.order.length

end DeclarationIndex

end Metamodel
