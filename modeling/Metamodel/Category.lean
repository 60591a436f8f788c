/-!
# Categories of types

A declared type is an entity, a mapped superclass or an embeddable. The category decides which
ancestors a type may have and whether it may carry an identity, a version or a deletion mark.
-/

namespace Metamodel

/-- The three kinds of declared types. -/
inductive Category where
  /-- A type with an identity of its own. -/
  | entity
  /-- A type that lends its properties to the types that extend it. -/
  | mappedSuperclass
  /-- A type whose values live inside other types. -/
  | embeddable
  deriving DecidableEq, Repr

namespace Category

/-- All categories, each once. -/
def all : List Category := [.entity, .mappedSuperclass, .embeddable]

/-- The name of a category. -/
def name : Category → String
  | .entity => "Entity"
  | .mappedSuperclass => "MappedSuperclass"
  | .embeddable => "Embeddable"

/-- A text without regard to the case of its ASCII letters. -/
def foldCase (text : String) : List Char :=
  text.toList.map Char.toLower

/-- The category that a text names, whatever the case of its letters. -/
def ofName? (text : String) : Option Category :=
  all.find? fun category => foldCase category.name = foldCase text

/-- The expression that generated code uses for a category, its tokens set apart by blanks. -/
def tokens (category : Category) : String :=
  ":: quarry_schema :: types :: Category :: " ++ category.name

/-- Whether a type of this category may carry special properties. -/
def allowsSpecials : Category → Bool
  | .entity | .mappedSuperclass => true
  | .embeddable => false

/-- Whether a type of the category may extend a type of category `ancestor`: embeddables extend
embeddables, all others extend mapped superclasses. -/
def accepts (category ancestor : Category) : Bool :=
  match category with
  | .entity | .mappedSuperclass => ancestor = .mappedSuperclass
  | .embeddable => ancestor = .embeddable

end Category

end Metamodel
