import Metamodel.Declaration.Source
import Metamodel.Scope

/-!
# Headers

What a declaration settles before its ancestor is looked at: that its names are identifiers, which
category and scope it has, its custom messages, and which of its interfaces is its ancestor.
`Header.ofDeclaration` needs nothing but the source.
-/

namespace Metamodel

open Text

/-- What is known of a type before its ancestor is. -/
structure Header where
  category : Category
  scope : Scope
  /-- The custom messages in the order of their constraints. -/
  messages : List ValidationMessage
  ancestor : Option String
  deriving DecidableEq, Repr

/-- The first fault among custom messages, those of the constraints in `seen` having come
before. -/
def messageFault? (seen : List String) : List ValidationMessage → Option Fault
  | [] => none
  | entry :: rest =>
    ((dottedFault? entry.constraint).map (.illegalConstraint entry.constraint))
      |>.or (if isBlank entry.message then some (.blankMessage entry.constraint) else none)
      |>.or (if entry.constraint ∈ seen then some (.repeatedConstraint entry.constraint) else none)
      |>.or (messageFault? (entry.constraint :: seen) rest)

namespace Declaration

/-- The category and the scope that the tags of a declaration give it. -/
def classify (declaration : Declaration) : Except Fault (Category × Scope) :=
  match declaration.tags with
  | [] => .error .uncategorized
  | [.entity scope] => .ok (.entity, .ofLabel scope false)
  | [.mappedSuperclass label acrossPartitions] =>
    let scope := Scope.ofLabel label acrossPartitions
    if scope.acrossPartitions && scope.name.isSome then .error (.sharedAndNamed scope.label)
    else .ok (.mappedSuperclass, scope)
  | [.embeddable] => .ok (.embeddable, {})
  | _ => .error .manyCategories

/-- The custom messages in the order of their constraints. -/
def sortedMessages (declaration : Declaration) : List ValidationMessage :=
  declaration.messages.mergeSort fun a b => a.constraint ≤ b.constraint

/-- The interfaces of a declaration that are immutable types. -/
def ancestors (declaration : Declaration) (source : Source) : List String :=
  declaration.interfaces.filter source.isImmutable

/-- The one ancestor of a declaration, if it has any. -/
def ancestor? (declaration : Declaration) (source : Source) : Except Fault (Option String) :=
  match declaration.ancestors source with
  | [] => .ok none
  | [ancestor] => .ok (some ancestor)
  | many => .error (.manyAncestors many)

end Declaration

namespace Header

/-- The header of a declaration, or the first rule that it breaks. -/
def ofDeclaration (source : Source) (declaration : Declaration) : Except Violation Header :=
  Except.mapError (.ofType declaration.qualifiedName) do
    succeedUnless (declaration.nameFault?.map .illegalName)
    let (category, scope) ← declaration.classify
    succeedUnless (messageFault? [] declaration.messages)
    let ancestor ← declaration.ancestor? source
    return { category, scope, messages := declaration.sortedMessages, ancestor }

end Header

end Metamodel
