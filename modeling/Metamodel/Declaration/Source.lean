import Metamodel.Declaration.Set

/-!
# Declaration sources

What a compilation may ask about the world outside: which names there are, which of them are
immutable types, and the declarations themselves. Beside its declarations a source may list names
that it cannot declare, and call names immutable that it cannot declare.
-/

namespace Metamodel

/-- The declarations of a compilation and what is known beyond them. -/
structure Source where
  declarations : DeclarationSet
  /-- Names to compile that have no declaration here. -/
  furtherNames : List String := []
  /-- Names of immutable types that have no declaration here. -/
  furtherImmutable : List String := []

namespace Source

/-- The declaration of a name. -/
def declaration? (source : Source) (name : String) : Option Declaration :=
  source.declarations.find? name

/-- The names to compile, in order. -/
def names (source : Source) : List String :=
  source.declarations.names ++ source.furtherNames

/-- Whether a name is that of an immutable type, which makes it an ancestor when it is listed as
an interface. -/
def isImmutable (source : Source) (name : String) : Bool :=
  source.declarations.contains name || source.furtherImmutable.contains name

/-- The number of members of all declarations together. -/
def memberCount (source : Source) : Nat :=
  (source.declarations.toList.flatMap (·.members)).length

end Source

end Metamodel
