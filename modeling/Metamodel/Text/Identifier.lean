/-!
# Identifiers

The names of packages, types, members and constraints are made of ASCII identifiers of bounded
length. `identifierFault?` says what is wrong with a text, in the order in which a reader would
want to hear it: nothing there, too long, not ASCII, not of identifier form.
-/

namespace Metamodel.Text

/-- Letters, digits and the underscore, of ASCII alone. -/
def isIdentifierChar (c : Char) : Bool :=
  c.isAlphanum || c = '_'

/-- Letters and the underscore: an identifier does not start with a digit. -/
def isIdentifierStart (c : Char) : Bool :=
  c.isAlpha || c = '_'

/-- A start character followed by identifier characters. -/
def isIdentifierText : List Char → Bool
  | [] => false
  | c :: cs => isIdentifierStart c && cs.all isIdentifierChar

/-- What keeps a text from being an identifier. -/
inductive IdentifierFault where
  /-- The text is empty. -/
  | empty
  /-- The text takes more bytes than the limit. -/
  | tooLong (text : String) (limit : Nat)
  /-- The text holds a character outside ASCII. -/
  | notAscii (text : String)
  /-- The text is ASCII but not of identifier form. -/
  | malformed (text : String)
  deriving DecidableEq, Repr

/-- The sentence that reports a fault. -/
def IdentifierFault.message : IdentifierFault → String
  | .empty => "ident is empty"
  | .tooLong text limit => s!"ident '{text}' exceeds max length {limit}"
  | .notAscii text => s!"ident '{text}' must be ASCII"
  | .malformed text => s!"ident '{text}' is not a valid identifier"

/-- The first fault of a text, none if it is an identifier of at most `limit` bytes. -/
def identifierFault? (limit : Nat) (text : String) : Option IdentifierFault :=
  if text = "" then some .empty
  else if limit < text.utf8ByteSize then some (.tooLong text limit)
  else if !text.toList.all (·.val < 128) then some (.notAscii text)
  else if !isIdentifierText text.toList then some (.malformed text)
  else none

/-- The most bytes that a type name, a package segment or a constraint segment may take. -/
def typeNameLimit : Nat := 64

/-- The most bytes that a member name may take. -/
def memberNameLimit : Nat := 64

end Metamodel.Text
