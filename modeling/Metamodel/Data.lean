/-!
# Data

The form in which declarations, types and events are handed to other programs: a tree of records,
lists and atoms. An enumeration is a text when it carries nothing and a record with one field when
it does.
-/

namespace Metamodel

/-- A tree of records, lists and atoms. -/
inductive Data where
  | null
  | bool (value : Bool)
  | number (value : Nat)
  | text (value : String)
  | list (items : List Data)
  | record (fields : List (String × Data))

namespace Data

/-- A value that may be absent. -/
def ofOption {α : Type} (form : α → Data) (value : Option α) : Data :=
  (value.map form).getD .null

/-- The field of a value that may be absent, left out where it is. -/
def optionalField {α : Type} (key : String) (form : α → Data) (value : Option α) :
    List (String × Data) :=
  value.toList.map fun value => (key, form value)

/-- A list of texts. -/
def texts (items : List String) : Data :=
  .list (items.map .text)

/-- The case of an enumeration that carries something. -/
def variant (name : String) (content : Data) : Data :=
  .record [(name, content)]

end Data

end Metamodel
