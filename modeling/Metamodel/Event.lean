import Metamodel.Diagnostic
import Metamodel.Property
import Metamodel.Violation

/-!
# Events

What a compilation reports while it runs. Events are values; who reads them decides how they are
written.
-/

namespace Metamodel

/-- One thing that happened. -/
inductive Event where
  /-- A type was registered, with the number of properties that it declares. -/
  | typeRegistered (qualifiedName : String) (category : Category) (declaredProps : Nat)
  /-- A property was settled in a round. -/
  | propertyResolved (prop : PropLabel) (kind : PropertyKind) (round : Nat)
  /-- A round came to its end with a number of properties still pending. -/
  | roundFinished (round pending : Nat)
  /-- The compilation succeeded. -/
  | compileFinished (types props rounds : Nat)
  /-- The compilation failed, with the class of the broken rule and the text of the report. -/
  | compileFailed (cls : ViolationClass) (message : String)
  deriving DecidableEq, Repr

end Metamodel
