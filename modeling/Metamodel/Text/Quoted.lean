import Metamodel.Text.GraphicTable

/-!
# Quoted text

A text as it stands in a message about itself: between double quotes, with an escape for every
character that a reader could not make out. Escaping keeps the quotes unambiguous: a quote or a
backslash of the text never stands alone.
-/

namespace Metamodel.Text

/-- The characters with a visible shape, which stand for themselves inside quotes. -/
def isPlain (c : Char) : Bool :=
  if c.toNat < 0x80 then 0x20 ≤ c.toNat && c.toNat < 0x7f
  else !inRanges graphemeExtenders c && !inRanges invisibles c

/-- The hexadecimal digits of a code point, without leading zeros. -/
def hexDigits (c : Char) : List Char :=
  Nat.toDigits 16 c.toNat

/-- One character inside quotes. -/
def escapeChar (c : Char) : List Char :=
  match c with
  | '\x00' => ['\\', '0']
  | '\t' => ['\\', 't']
  | '\n' => ['\\', 'n']
  | '\r' => ['\\', 'r']
  | '"' => ['\\', '"']
  | '\\' => ['\\', '\\']
  | c => if isPlain c then [c] else ['\\', 'u', '\x7b'] ++ hexDigits c ++ ['\x7d']

/-- A text between double quotes. -/
def quote (text : String) : String :=
  String.ofList ('"' :: text.toList.flatMap escapeChar ++ ['"'])

end Metamodel.Text
