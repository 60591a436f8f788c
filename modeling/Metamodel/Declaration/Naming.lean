import Metamodel.Declaration
import Metamodel.Text.Dotted
import Metamodel.Text.Identifier

/-!
# Names in declarations

The segments of a package, the name of a type, the names of its members and the segments of a
constraint are identifiers. The faults are looked for in that order.
-/

namespace Metamodel

open Text

/-- The name in a declaration that is not an identifier. -/
inductive NameFault where
  /-- A segment of the package is at fault. -/
  | package (text : String) (fault : IdentifierFault)
  /-- The name of the type is at fault. -/
  | simpleName (fault : IdentifierFault)
  /-- The name of a member is at fault. -/
  | member (fault : IdentifierFault)
  deriving DecidableEq, Repr

/-- The sentence that reports a fault. -/
def NameFault.message : NameFault → String
  | .package text fault => s!"package '{text}': {fault.message}"
  | .simpleName fault => s!"type name: {fault.message}"
  | .member fault => s!"member name: {fault.message}"

/-- The first fault among the segments of a dotted name. -/
def dottedFault? (text : String) : Option IdentifierFault :=
  (splitDots text).findSome? (identifierFault? typeNameLimit)

namespace Declaration

/-- The fault of the package; the empty package is the default one and has none. -/
def packageFault? (declaration : Declaration) : Option NameFault :=
  if declaration.package = "" then none
  else (dottedFault? declaration.package).map (.package declaration.package)

/-- The first fault among the names of a declaration. -/
def nameFault? (declaration : Declaration) : Option NameFault :=
  declaration.packageFault?
    |>.or ((identifierFault? typeNameLimit declaration.simpleName).map .simpleName)
    |>.or ((declaration.members.findSome? fun member =>
        identifierFault? memberNameLimit member.name).map .member)

end Declaration

end Metamodel
