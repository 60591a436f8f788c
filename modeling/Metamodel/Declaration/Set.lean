import Metamodel.Violation

/-!
# Declaration sets

Declarations in the order in which they came, with distinct qualified names. The names are what
everything else looks declarations up by, so a second declaration of a name is refused.
-/

namespace Metamodel

/-- Declarations with distinct qualified names, in order. -/
structure DeclarationSet where
  toList : List Declaration
  names_nodup : (toList.map Declaration.qualifiedName).Nodup
  deriving DecidableEq

namespace DeclarationSet

/-- No declarations. -/
def empty : DeclarationSet := ⟨[], by simp⟩

/-- The qualified names in order. -/
def names (set : DeclarationSet) : List String :=
  set.toList.map Declaration.qualifiedName

/-- The declaration of a qualified name. -/
def find? (set : DeclarationSet) (name : String) : Option Declaration :=
  set.toList.find? fun declaration => declaration.qualifiedName = name

/-- Whether a name is declared. -/
def contains (set : DeclarationSet) (name : String) : Bool :=
  (set.find? name).isSome

/-- The number of declarations. -/
def size (set : DeclarationSet) : Nat :=
  set.toList.length

/-- The set with one more declaration at its end, unless its name is taken. -/
def insert (set : DeclarationSet) (declaration : Declaration) :
    Except Violation DeclarationSet :=
  if fresh : declaration.qualifiedName ∉ set.names then
    .ok ⟨set.toList ++ [declaration], by
      rw [List.map_append, List.nodup_append]
      refine ⟨set.names_nodup, by simp, ?_⟩
      intro name hname other hother heq
      simp only [List.map_cons, List.map_nil, List.mem_singleton] at hother
      exact fresh (hother ▸ heq ▸ hname)⟩
  else .error (.ofType declaration.qualifiedName .redeclared)

/-- The declarations inserted one after the other, up to the first that is refused. -/
def insertAll (set : DeclarationSet) : List Declaration → Except Violation DeclarationSet
  | [] => .ok set
  | declaration :: rest => set.insert declaration >>= (·.insertAll rest)

/-- The set of a list of declarations. -/
def ofList (declarations : List Declaration) : Except Violation DeclarationSet :=
  empty.insertAll declarations

end DeclarationSet

end Metamodel
