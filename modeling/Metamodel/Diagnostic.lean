/-!
# Diagnostics

What a reader is told when a declaration breaks a rule: the class of the rule, the type or member
at fault, and a sentence.
-/

namespace Metamodel

/-- The classes of rules. -/
inductive ViolationClass where
  | structural | cardinality | tagMisuse | consistency | reference | resolutionTimeout
  deriving DecidableEq, Repr

namespace ViolationClass

/-- All classes, each once. -/
def all : List ViolationClass :=
  [.structural, .cardinality, .tagMisuse, .consistency, .reference, .resolutionTimeout]

/-- The label of a class. -/
def label : ViolationClass → String
  | .structural => "structural"
  | .cardinality => "cardinality"
  | .tagMisuse => "tag_misuse"
  | .consistency => "consistency"
  | .reference => "reference"
  | .resolutionTimeout => "resolution_timeout"

/-- The class with a label. -/
def ofLabel? (text : String) : Option ViolationClass :=
  all.find? fun cls => cls.label = text

end ViolationClass

/-- The type, or the member of a type, that a diagnostic is about. -/
structure Subject where
  typeName : String
  member : Option String := none
  deriving DecidableEq, Repr

/-- The subject as a message names it. -/
def Subject.text (subject : Subject) : String :=
  match subject.member with
  | some member => s!"illegal type \"{subject.typeName}\", member \"{member}\""
  | none => s!"illegal type \"{subject.typeName}\""

/-- A broken rule as it is reported. -/
structure Diagnostic where
  cls : ViolationClass
  subject : Subject
  message : String
  deriving DecidableEq, Repr

namespace Diagnostic

/-- Subject and message. -/
def text (diagnostic : Diagnostic) : String :=
  s!"{diagnostic.subject.text}: {diagnostic.message}"

/-- Class, subject and message. -/
def textWithClass (diagnostic : Diagnostic) : String :=
  s!"{diagnostic.cls.label}: {diagnostic.text}"

end Diagnostic

end Metamodel
