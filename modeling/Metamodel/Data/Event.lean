import Metamodel.Data
import Metamodel.Event

/-!
# Events as data

An event is handed on as a record that names it, or as an entry of a log with a level, a target
and a sentence. Both carry the same fields.
-/

namespace Metamodel

/-- The form of a subject. -/
def Subject.data (subject : Subject) : Data :=
  .record
    (("type_name", .text subject.typeName) :: Data.optionalField "member" .text subject.member)

namespace Event

/-- The name of an event. -/
def name : Event → String
  | .typeRegistered .. => "type_registered"
  | .propertyResolved .. => "property_resolved"
  | .roundFinished .. => "round_finished"
  | .compileFinished .. => "compile_finished"
  | .compileFailed .. => "compile_failed"

/-- What an event carries. -/
def fields : Event → List (String × Data)
  | .typeRegistered qualifiedName category declaredProps =>
    [("qualified_name", .text qualifiedName), ("category", .text category.name),
      ("declared_props", .number declaredProps)]
  | .propertyResolved prop kind round =>
    [("prop", .text prop.text), ("kind", .text kind.name), ("round", .number round)]
  | .roundFinished round pending => [("round", .number round), ("pending", .number pending)]
  | .compileFinished types props rounds =>
    [("types", .number types), ("props", .number props), ("rounds", .number rounds)]
  | .compileFailed cls message => [("class", .text cls.label), ("message", .text message)]

/-- The form of an event. -/
def data (event : Event) : Data :=
  .record (("event", .text event.name) :: event.fields)

/-- How much an event matters to the reader of a log. -/
def level : Event → String
  | .typeRegistered .. | .roundFinished .. => "DEBUG"
  | .propertyResolved .. => "TRACE"
  | .compileFinished .. => "INFO"
  | .compileFailed .. => "WARN"

/-- The part of the program that a log names for an event. -/
def target : Event → String
  | .typeRegistered .. => "quarry::registry"
  | .propertyResolved .. | .roundFinished .. => "quarry::resolve"
  | .compileFinished .. | .compileFailed .. => "quarry::build"

/-- What a log says about an event. -/
def sentence : Event → String
  | .typeRegistered .. => "type registered"
  | .propertyResolved .. => "property resolved"
  | .roundFinished .. => "round finished"
  | .compileFinished .. => "metamodel compiled"
  | .compileFailed .. => "metamodel compilation failed"

/-- The entry of a log for an event. Where the event has a message of its own, that one stands in
the field of the sentence. -/
def logData (event : Event) : Data :=
  let sentence :=
    if event.fields.any (·.1 = "message") then [] else [("message", .text event.sentence)]
  .record [("level", .text event.level), ("target", .text event.target),
    ("fields", .record (sentence ++ event.fields))]

end Event

end Metamodel
