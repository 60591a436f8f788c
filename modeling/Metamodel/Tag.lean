/-!
# Tags of members

A member of a declaration carries tags: what makes it an identity, a key, a version, a deletion
mark or a computed property. A tag set is a list, so a kind may stand in it more than once; what
counts of repeated formulas is the first.
-/

namespace Metamodel

/-- The kinds of tags. -/
inductive TagKind where
  | formula | id | key | logicalDeleted | version
  deriving DecidableEq, Repr

namespace TagKind

/-- All kinds in the order of their names. -/
def all : List TagKind := [.formula, .id, .key, .logicalDeleted, .version]

/-- The name of a kind. -/
def name : TagKind → String
  | .formula => "Formula"
  | .id => "Id"
  | .key => "Key"
  | .logicalDeleted => "LogicalDeleted"
  | .version => "Version"

end TagKind

/-- How a computed property gets its value: by a database expression, or from other properties
given by paths relative to the declaring type. -/
structure Formula where
  sql : String := ""
  dependencies : List String := []
  deriving DecidableEq, Repr

/-- Whether the formula has a database expression. -/
def Formula.hasSql (formula : Formula) : Bool :=
  formula.sql ≠ ""

/-- Whether the formula lists dependencies. -/
def Formula.hasDependencies (formula : Formula) : Bool :=
  !formula.dependencies.isEmpty

/-- One tag of a member. -/
inductive Tag where
  | formula (formula : Formula)
  | id
  | key
  | logicalDeleted
  | version
  deriving DecidableEq, Repr

/-- The kind of a tag. -/
def Tag.kind : Tag → TagKind
  | .formula _ => .formula
  | .id => .id
  | .key => .key
  | .logicalDeleted => .logicalDeleted
  | .version => .version

/-- The formula that a tag carries. -/
def Tag.formula? : Tag → Option Formula
  | .formula given => some given
  | _ => none

/-- The tags of a member in the order in which they were declared. -/
abbrev TagSet := List Tag

namespace TagSet

/-- The kinds of the tags in order, repeats kept. -/
def kinds (tags : TagSet) : List TagKind :=
  tags.map Tag.kind

/-- Whether some tag is of the kind. -/
def has (tags : TagSet) (kind : TagKind) : Bool :=
  tags.any fun tag => tag.kind = kind

/-- The first formula among the tags. -/
def formula? (tags : TagSet) : Option Formula :=
  tags.findSome? Tag.formula?

/-- There is a formula to find exactly where a tag is of the formula kind. -/
theorem isSome_formula? (tags : TagSet) : tags.formula?.isSome = tags.has .formula := by
  induction tags with
  | nil => rfl
  | cons tag tags ih =>
    cases tag <;> simp_all [formula?, has, List.findSome?_cons, Tag.formula?, Tag.kind]

end TagSet

end Metamodel
