import Metamodel.Declaration
import Metamodel.Text.Dotted
import Metamodel.Text.Word

/-!
# Class names

The name of a generated class: its package and the simple names from the outermost class inward.
A class name is written as a dotted name, or as a path in generated code. What a path is made of is
left to a `CodeWriter`, which turns the segments into identifiers and tokens into text; the one that
is used here writes words.
-/

namespace Metamodel

open Text

/-- A class in a package, inside the classes that enclose it. -/
structure ClassName where
  package : String
  simpleNames : List String
  deriving DecidableEq, Repr

namespace ClassName

/-- A class that no other encloses. -/
def topLevel (package simpleName : String) : ClassName :=
  ⟨package, [simpleName]⟩

/-- A class inside this one. -/
def nested (name : ClassName) (simpleName : String) : ClassName :=
  { name with simpleNames := name.simpleNames ++ [simpleName] }

/-- The innermost simple name. -/
def simpleName (name : ClassName) : String :=
  name.simpleNames.getLast?.getD ""

/-- The name with dots between all its parts. -/
def canonicalName (name : ClassName) : String :=
  Declaration.qualify name.package (joinDots name.simpleNames)

/-- The segments of the name as a path; an empty segment of the package leaves no trace. -/
def pathSegments (name : ClassName) : List String :=
  (splitDots name.package).filter (· ≠ "") ++ name.simpleNames

end ClassName

/-- A token of a path. -/
inductive PathToken (Ident : Type) where
  | ident (ident : Ident)
  /-- The two colons between identifiers. -/
  | separator

/-- What generated code is written with. -/
structure CodeWriter (Ident : Type) where
  /-- The identifier that a text spells; none where the writer gives up. -/
  ident? : String → Option Ident
  /-- The text of an identifier. -/
  text : Ident → String
  /-- The text of tokens in order. -/
  print : List (PathToken Ident) → String

namespace ClassName

variable {Ident : Type}

/-- The tokens of the name as a path; none if the writer gives up on a segment. -/
def pathTokens? (writer : CodeWriter Ident) (name : ClassName) :
    Option (List (PathToken Ident)) := do
  let idents ← name.pathSegments.mapM writer.ident?
  return (idents.map .ident).intersperse .separator

/-- The name as a path in generated code; none if the writer gives up on a segment. -/
def render? (writer : CodeWriter Ident) (name : ClassName) : Option String :=
  (name.pathTokens? writer).map writer.print

end ClassName

/-- Takes words for identifiers, and sets tokens apart by blanks. -/
def wordWriter : CodeWriter String where
  ident? text := if isPathSegment text.toList then some text else none
  text word := word
  print tokens := " ".intercalate (tokens.map fun
    | .ident word => word
    | .separator => "::")

/-- The name as a path of words; none if some segment is no word. -/
def ClassName.tokens? (name : ClassName) : Option String :=
  name.render? wordWriter

end Metamodel
