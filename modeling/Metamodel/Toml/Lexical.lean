/-!
# Blanks, lines and comments

The parts of a TOML document that carry no value. A reader takes the characters that are left and
gives what it read with the characters after it; it fails where the text is not TOML.
-/

namespace Metamodel.Toml

/-- Reads something from the front of a text. -/
abbrev Reader (α : Type) := List Char → Option (α × List Char)

/-- The blanks inside a line. -/
def isBlank (c : Char) : Bool :=
  c = ' ' || c = '\t'

/-- The characters that may stand in a comment or in a string on one line. -/
def isText (c : Char) : Bool :=
  c = '\t' || (0x20 ≤ c.toNat && c.toNat ≠ 0x7f)

/-- What follows the blanks. -/
def skipBlanks (text : List Char) : List Char :=
  text.dropWhile isBlank

/-- What follows the end of a line. -/
def newline? : List Char → Option (List Char)
  | '\n' :: rest => some rest
  | '\r' :: '\n' :: rest => some rest
  | _ => none

/-- What follows a comment, up to the end of its line. -/
def skipComment : List Char → List Char
  | '#' :: rest => rest.dropWhile isText
  | text => text

/-- What follows the line, on which nothing but blanks and a comment is left. -/
def endLine? (text : List Char) : Option (List Char) :=
  match skipComment (skipBlanks text) with
  | [] => some []
  | rest => newline? rest

/-- Dropping characters makes no text longer. -/
theorem length_dropWhile_le (p : Char → Bool) (text : List Char) :
    (text.dropWhile p).length ≤ text.length :=
  (List.dropWhile_sublist p).length_le

/-- What follows blanks, ends of lines and comments in any number. -/
def skipVoid : List Char → List Char
  | ' ' :: rest => skipVoid rest
  | '\t' :: rest => skipVoid rest
  | '\n' :: rest => skipVoid rest
  | '\r' :: '\n' :: rest => skipVoid rest
  | '#' :: rest => skipVoid (rest.dropWhile isText)
  | text => text
termination_by text => text.length
decreasing_by
  all_goals simp only [List.length_cons]
  any_goals omega
  exact Nat.lt_succ_of_le (length_dropWhile_le isText rest)

end Metamodel.Toml
