/-!
# Partitions

A scope says to which partition of the type graph a type belongs. A mapped superclass may be
shared across all partitions instead; it then admits descendants of any of them.
-/

namespace Metamodel

/-- The partition of a type: a named one, the one without a name, or all of them. -/
structure Scope where
  name : Option String := none
  acrossPartitions : Bool := false
  deriving DecidableEq, Repr

namespace Scope

/-- The scope for a label as it stands in a declaration, where the empty label names nothing. -/
def ofLabel (label : Option String) (acrossPartitions : Bool) : Scope where
  name := label.filter (· ≠ "")
  acrossPartitions := acrossPartitions

/-- The name of the partition, empty for the one without a name. -/
def label (scope : Scope) : String :=
  scope.name.getD ""

/-- Whether a type of this scope may be the ancestor of a type of scope `other`. -/
def admits (scope other : Scope) : Bool :=
  scope.acrossPartitions || scope.name = other.name

end Scope

end Metamodel
