import Metamodel.Config
import Metamodel.Text.Quoted

/-!
# Configuration documents

A configuration is written as a document with two sections, `validation` and `naming`. Everything
in it is optional and keeps its default where it is left out; anything else in it is refused. The
entries of a table are looked at in the order in which the reader of the document hands them over,
up to the first mistake. Suffixes are checked last. How a text is read as a document is left to a
`DocumentReader`.
-/

namespace Metamodel

/-- What stands in a document. -/
inductive DocumentValue where
  | string (text : String)
  | boolean (value : Bool)
  /-- A value that a configuration has no use for, in the words that describe it. -/
  | other (description : String)
  | array (items : List DocumentValue)
  | table (entries : List (String × DocumentValue))
  deriving Repr

/-- The entries of a document or of a table in it. -/
abbrev DocumentEntries := List (String × DocumentValue)

/-- What reads texts as documents. -/
structure DocumentReader where
  /-- The entries of the document that a text is; none if it is none. -/
  read? : String → Option (DocumentEntries)
  /-- Whether the reader can tell a mistake in the content of a document from one in its form. -/
  isWhole : String → Bool

/-- The tables of a configuration document. -/
inductive Section where
  | document | validation | naming
  deriving DecidableEq, Repr

/-- What a place in the document calls for. -/
inductive Expectation where
  | string | boolean | validation | naming
  deriving DecidableEq, Repr

/-- The words for what is called for. -/
def Expectation.text : Expectation → String
  | .string => "a string"
  | .boolean => "a boolean"
  | .validation => "struct ValidationConfig"
  | .naming => "struct NamingConfig"

/-- The keys that a table may have. -/
def Section.expected : Section → String
  | .document => "expected `validation` or `naming`"
  | .validation => "expected `require_entity_id`"
  | .naming =>
    "expected one of " ++ ", ".intercalate (SuffixRole.all.map fun role => "`" ++ role.key ++ "`")

/-- Why a document is not a configuration. -/
inductive SchemaError where
  /-- A table has a key that means nothing in it. -/
  | unknownField (table : Section) (key : String)
  /-- A value is of a type other than the one called for. -/
  | invalidType (found : DocumentValue) (expected : Expectation)
  deriving Repr

/-- How a message describes a value that it did not call for. -/
def DocumentValue.describe : DocumentValue → String
  | .string text => "string " ++ Text.quote text
  | .boolean b => s!"boolean `{b}`"
  | .other description => description
  | .array _ => "sequence"
  | .table _ => "map"

/-- The sentence that reports an error. -/
def SchemaError.message : SchemaError → String
  | .unknownField table key => s!"unknown field `{key}`, {table.expected}"
  | .invalidType found expected => s!"invalid type: {found.describe}, expected {expected.text}"

/-- Why there is no configuration. -/
inductive ConfigError where
  /-- The file cannot be read as text. -/
  | io
  /-- The text is no document. -/
  | malformed
  /-- The document is no configuration. -/
  | schema (error : SchemaError)
  /-- A suffix of the configuration is unfit. -/
  | invalid (fault : SuffixFault)
  deriving Repr

/-- The sentence that reports an unfit suffix. -/
def SuffixFault.report (fault : SuffixFault) : String :=
  "invalid config: " ++ fault.message

/-- A value that must be a string. -/
def stringValue : DocumentValue → Except SchemaError String
  | .string text => .ok text
  | value => .error (.invalidType value .string)

/-- A value that must be a boolean. -/
def booleanValue : DocumentValue → Except SchemaError Bool
  | .boolean b => .ok b
  | value => .error (.invalidType value .boolean)

namespace Naming

/-- The naming with the suffix that an entry gives. -/
def setEntry (naming : Naming) (entry : String × DocumentValue) : Except SchemaError Naming :=
  match SuffixRole.ofKey? entry.1 with
  | none => .error (.unknownField .naming entry.1)
  | some role => (stringValue entry.2).map (naming.withSuffix role)

/-- The naming with suffixes for the first roles, as many as there are items. -/
def setItems (naming : Naming) : List (SuffixRole × DocumentValue) → Except SchemaError Naming
  | [] => .ok naming
  | (role, value) :: rest =>
    match stringValue value with
    | .error error => .error error
    | .ok suffix => (naming.withSuffix role suffix).setItems rest

/-- The naming that a section describes. An array gives the suffixes in the order of their roles,
and what it has beyond them does not count. -/
def ofValue : DocumentValue → Except SchemaError Naming
  | .table entries => entries.foldlM setEntry {}
  | .array items => setItems {} (SuffixRole.all.zip items)
  | value => .error (.invalidType value .naming)

end Naming

/-- Whether an entity must have an identity, as the entry of a section says. -/
def requirementOfEntry (entry : String × DocumentValue) : Except SchemaError Bool :=
  if entry.1 = "require_entity_id" then booleanValue entry.2
  else .error (.unknownField .validation entry.1)

/-- Whether an entity must have an identity, as a section says. Of an array the first item
counts. -/
def requirementOfValue : DocumentValue → Except SchemaError Bool
  | .table entries => entries.foldlM (fun _ entry => requirementOfEntry entry) true
  | .array (item :: _) => booleanValue item
  | .array [] => .ok true
  | value => .error (.invalidType value .validation)

namespace Config

/-- The configuration with what an entry of the document says. -/
def setEntry (config : Config) (entry : String × DocumentValue) : Except SchemaError Config :=
  if entry.1 = "naming" then
    (Naming.ofValue entry.2).map fun naming => { config with naming }
  else if entry.1 = "validation" then
    (requirementOfValue entry.2).map fun requireEntityId => { config with requireEntityId }
  else .error (.unknownField .document entry.1)

/-- The configuration that the entries of a document describe. -/
def ofEntries (entries : DocumentEntries) : Except SchemaError Config :=
  entries.foldlM setEntry {}

/-- The configuration, if its suffixes are fit to end identifiers. -/
def validate (config : Config) : Except ConfigError Config :=
  match config.naming.fault? with
  | some fault => .error (.invalid fault)
  | none => .ok config

/-- The configuration that a text describes, as it is read by a reader. -/
def parseWith (reader : DocumentReader) (text : String) : Except ConfigError Config :=
  match reader.read? text with
  | none => .error .malformed
  | some entries =>
    match ofEntries entries with
    | .error error => .error (if reader.isWhole text then .schema error else .malformed)
    | .ok config => config.validate

end Config

end Metamodel
