import Metamodel.Toml.Lexical

/-!
# Strings

The four ways to write a string: on one line or several, with escapes or without. Each reader
starts after the opening quotes and stops after the closing ones.
-/

namespace Metamodel.Toml

/-- The value of a hexadecimal digit. -/
def hexValue? (c : Char) : Option Nat :=
  if '0' ≤ c && c ≤ '9' then some (c.toNat - '0'.toNat)
  else if 'a' ≤ c && c ≤ 'f' then some (c.toNat - 'a'.toNat + 10)
  else if 'A' ≤ c && c ≤ 'F' then some (c.toNat - 'A'.toNat + 10)
  else none

/-- The number that hexadecimal digits write. -/
def hexNumber? (digits : List Char) : Option Nat :=
  digits.foldl (fun sum c => sum.bind fun n => (hexValue? c).map (16 * n + ·)) (some 0)

/-- The character whose code point hexadecimal digits write. -/
def codePoint? (digits : List Char) : Option Char :=
  (hexNumber? digits).bind fun n => if n.isValidChar then some (Char.ofNat n) else none

/-- The character that a letter after a backslash stands for. -/
def escaped? : Char → Option Char
  | 'b' => some '\x08'
  | 't' => some '\t'
  | 'n' => some '\n'
  | 'f' => some '\x0c'
  | 'r' => some '\r'
  | 'e' => some '\x1b'
  | '"' => some '"'
  | '\\' => some '\\'
  | _ => none

/-- What was read with one more character in front. -/
def before (c : Char) (read : Option (List Char × List Char)) :
    Option (List Char × List Char) :=
  read.map fun (content, rest) => (c :: content, rest)

/-- The text after the opening quote of a string with escapes on one line. -/
def basicString : Reader (List Char)
  | [] => none
  | '"' :: rest => some ([], rest)
  | '\\' :: 'x' :: a :: b :: rest =>
    (codePoint? [a, b]).bind fun c => before c (basicString rest)
  | '\\' :: 'u' :: a :: b :: c :: d :: rest =>
    (codePoint? [a, b, c, d]).bind fun c => before c (basicString rest)
  | '\\' :: 'U' :: a :: b :: c :: d :: e :: f :: g :: h :: rest =>
    (codePoint? [a, b, c, d, e, f, g, h]).bind fun c => before c (basicString rest)
  | '\\' :: letter :: rest => (escaped? letter).bind fun c => before c (basicString rest)
  | c :: rest => if isText c && c ≠ '\\' then before c (basicString rest) else none

/-- The text after the opening quote of a string without escapes on one line. -/
def literalString : Reader (List Char)
  | [] => none
  | '\'' :: rest => some ([], rest)
  | c :: rest => if isText c then before c (literalString rest) else none

/-- What is left of a text after up to two quotes that belong to a string of several lines. -/
def lastQuotes (quote : Char) : List Char → List Char × List Char
  | a :: b :: rest =>
    if a = quote then
      if b = quote then ([quote, quote], rest) else ([quote], b :: rest)
    else ([], a :: b :: rest)
  | [a] => if a = quote then ([quote], []) else ([], [a])
  | [] => ([], [])

/-- The text of a string with escapes on several lines. After a backslash at the end of a line,
`folding` drops blanks and line ends up to the next other character. -/
def multilineBasic (folding : Bool) : Reader (List Char)
  | [] => none
  | '"' :: '"' :: '"' :: rest => some (lastQuotes '"' rest)
  | '\\' :: 'x' :: a :: b :: rest =>
    (codePoint? [a, b]).bind fun c => before c (multilineBasic false rest)
  | '\\' :: 'u' :: a :: b :: c :: d :: rest =>
    (codePoint? [a, b, c, d]).bind fun c => before c (multilineBasic false rest)
  | '\\' :: 'U' :: a :: b :: c :: d :: e :: f :: g :: h :: rest =>
    (codePoint? [a, b, c, d, e, f, g, h]).bind fun c => before c (multilineBasic false rest)
  | '\\' :: letter :: rest =>
    if (newline? (skipBlanks (letter :: rest))).isSome then multilineBasic true (letter :: rest)
    else (escaped? letter).bind fun c => before c (multilineBasic false rest)
  | '\r' :: '\n' :: rest =>
    if folding then multilineBasic true rest
    else before '\r' (before '\n' (multilineBasic false rest))
  | c :: rest =>
    if folding && (isBlank c || c = '\n') then multilineBasic true rest
    else if (isText c && c ≠ '\\') || c = '\n' then before c (multilineBasic false rest)
    else none

/-- The text of a string without escapes on several lines. -/
def multilineLiteral : Reader (List Char)
  | [] => none
  | '\'' :: '\'' :: '\'' :: rest => some (lastQuotes '\'' rest)
  | '\r' :: '\n' :: rest => before '\r' (before '\n' (multilineLiteral rest))
  | c :: rest => if isText c || c = '\n' then before c (multilineLiteral rest) else none

/-- A line end right after the opening quotes does not belong to the string. -/
def trimNewline (text : List Char) : List Char :=
  (newline? text).getD text

/-- A string with its quotes, of any of the four kinds. -/
def anyString : Reader (List Char)
  | '"' :: '"' :: '"' :: rest => multilineBasic false (trimNewline rest)
  | '\'' :: '\'' :: '\'' :: rest => multilineLiteral (trimNewline rest)
  | '"' :: rest => basicString rest
  | '\'' :: rest => literalString rest
  | _ => none

end Metamodel.Toml
