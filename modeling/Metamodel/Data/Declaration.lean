import Metamodel.Data
import Metamodel.Declaration

/-!
# Declarations as data

Every field of a declaration stands in its record; of a formula only what it has.
-/

namespace Metamodel

/-- The form of a type reference. -/
def TypeRef.data : TypeRef → Data
  | .named name => .variant "Named" (.text name)
  | .list element => .variant "List" element.data

/-- The form of a formula, in which an empty expression and an empty list are left out. -/
def Formula.data (formula : Formula) : Data :=
  .record <|
    (if formula.hasSql then [("sql", .text formula.sql)] else []) ++
      if formula.hasDependencies then [("dependencies", .texts formula.dependencies)] else []

/-- The form of a tag. -/
def Tag.data (tag : Tag) : Data :=
  match tag.formula? with
  | some given => .variant tag.kind.name given.data
  | none => .text tag.kind.name

/-- The form of a tag set. -/
def TagSet.data (tags : TagSet) : Data :=
  .list (tags.map Tag.data)

/-- The form of a category tag. -/
def TypeTag.data : TypeTag → Data
  | .entity scope => .variant "Entity" (.record [("scope", .ofOption .text scope)])
  | .mappedSuperclass scope acrossPartitions =>
    .variant "MappedSuperclass"
      (.record [("scope", .ofOption .text scope), ("across_partitions", .bool acrossPartitions)])
  | .embeddable => .text "Embeddable"

/-- The form of a member. -/
def Member.data (member : Member) : Data :=
  .record [("name", .text member.name), ("has_body", .bool member.hasBody),
    ("ty", member.type.data), ("tags", member.tags.data)]

/-- The form of a custom message. -/
def ValidationMessage.data (entry : ValidationMessage) : Data :=
  .record [("constraint", .text entry.constraint), ("message", .text entry.message)]

/-- The form of a declaration. -/
def Declaration.data (declaration : Declaration) : Data :=
  .record [("package", .text declaration.package), ("simple_name", .text declaration.simpleName),
    ("tags", .list (declaration.tags.map TypeTag.data)),
    ("interfaces", .texts declaration.interfaces),
    ("members", .list (declaration.members.map Member.data)),
    ("validation_messages", .list (declaration.messages.map ValidationMessage.data))]

end Metamodel
