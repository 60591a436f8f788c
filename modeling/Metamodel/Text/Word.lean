import Metamodel.Text.WordTable

/-!
# Words

A word is a name that generated code may use for a path segment. It is freer than an identifier
of a declaration: letters of any script may stand in it, and `r#` in front of it keeps it apart
from the keyword that it spells.
-/

namespace Metamodel.Text

/-- Whether a word may start with the character. -/
def isWordStart (c : Char) : Bool :=
  if c.toNat < 0x80 then c.isAlpha || c = '_' else inRanges wordStarts c

/-- Whether a word may go on with the character. -/
def isWordContinue (c : Char) : Bool :=
  if c.toNat < 0x80 then c.isAlphanum || c = '_'
  else inRanges wordStarts c || inRanges wordContinuations c

/-- A start character followed by continuing ones. -/
def isWord : List Char → Bool
  | [] => false
  | c :: cs => isWordStart c && cs.all isWordContinue

/-- The words that name a place in the module tree, and the lone underscore: these cannot be
kept apart from the keyword. -/
def placeWords : List (List Char) :=
  ["_".toList, "super".toList, "self".toList, "Self".toList, "crate".toList]

/-- Whether a text can stand as one segment of a path in generated code. -/
def isPathSegment : List Char → Bool
  | 'r' :: '#' :: word => isWord word && !placeWords.contains word
  | word => isWord word

end Metamodel.Text
