import Metamodel.Decimal.Reading
import Metamodel.Toml.Lexical
import Metamodel.Toml.Value

/-!
# Scalars without quotes

Booleans, numbers, dates and times. A scalar is a run of characters, or several with blanks between
them, since a date and a time may be two runs; what a scalar says is decided from the whole of it.
A number stands or falls by its form alone: one of the right form whose value does not fit, or
cannot be told, is an unreadable value and no fault of the document.
-/

namespace Metamodel.Toml

/-! ### Digits -/

/-- The value of a digit in a base up to sixteen. -/
def digitValue (c : Char) : Nat :=
  if c.isDigit then c.toNat - '0'.toNat else c.toLower.toNat - 'a'.toNat + 10

/-- Whether a character is a digit of a base up to sixteen. -/
def isDigitOf (base : Nat) (c : Char) : Bool :=
  (c.isDigit || ('a' ≤ c.toLower && c.toLower ≤ 'f')) && digitValue c < base

/-- The number that digits write in a base. -/
def numberIn (base : Nat) (digits : List Char) : Nat :=
  digits.foldl (fun n c => base * n + digitValue c) 0

/-- Whether every underscore of a text stands between two digits; `afterDigit` tells whether a
digit comes before the text. -/
def isSpaced (isDigit : Char → Bool) (afterDigit : Bool) : List Char → Bool
  | [] => true
  | '_' :: rest => afterDigit && rest.head?.any isDigit && isSpaced isDigit false rest
  | c :: rest => isSpaced isDigit (isDigit c) rest

/-- A text without its underscores. -/
def unspaced (text : List Char) : List Char :=
  text.filter (· ≠ '_')

/-- The digits of a text that is nothing but digits with single underscores between them. -/
def separated? (isDigit : Char → Bool) (text : List Char) : Option (List Char) :=
  let digits := unspaced text
  if !digits.isEmpty && digits.all isDigit && isSpaced isDigit false text then some digits
  else none

/-- Decimal digits that do not start with a zero, unless that is all of them. -/
def wholeDigits? (text : List Char) : Option (List Char) :=
  match separated? Char.isDigit text with
  | some ('0' :: _ :: _) => none
  | digits => digits

/-- The sign of a number, true for minus, and what follows it. -/
def sign : List Char → Bool × List Char
  | '-' :: rest => (true, rest)
  | '+' :: rest => (false, rest)
  | text => (false, text)

/-- Whether a character marks a power of ten. -/
def isExponentMark (c : Char) : Bool :=
  c = 'e' || c = 'E'

/-! ### Integers -/

/-- A text that may be an integer: its base, whether it is negative, and its digits. -/
structure Numeral where
  base : Nat
  negative : Bool
  digits : List Char

namespace Numeral

/-- Only a decimal integer may have a sign; the other bases have a mark in front. -/
def ofText : List Char → Numeral
  | '0' :: 'x' :: digits => ⟨16, false, digits⟩
  | '0' :: 'o' :: digits => ⟨8, false, digits⟩
  | '0' :: 'b' :: digits => ⟨2, false, digits⟩
  | text => ⟨10, (sign text).1, (sign text).2⟩

/-- Whether a text without its sign has the form of a decimal integer: a lone zero, or digits that
start with another one. After an underscore anything may stand but a space and what a float needs,
as long as there is a digit of some base on either side of each underscore. -/
def isDecimal : List Char → Bool
  | ['0'] => true
  | text =>
    let rest := text.dropWhile Char.isDigit
    text.head?.any (fun c => c.isDigit && c ≠ '0') && rest.head?.all (· = '_') &&
      rest.all (fun c => c ≠ ' ' && c ≠ '.' && !isExponentMark c) &&
      isSpaced (isDigitOf 16) false text

/-- Whether the format lets the numeral stand for an integer. After the mark of a base there need
not be any digits. -/
def isAccepted (numeral : Numeral) : Bool :=
  if numeral.base = 10 then isDecimal numeral.digits
  else
    (unspaced numeral.digits).all (isDigitOf numeral.base) &&
      isSpaced (isDigitOf numeral.base) false numeral.digits

/-- The first integer that is too large for a document, two to the power of 63. -/
def bound : Int := 0x8000000000000000

/-- The value of a numeral, if it is written in digits alone and fits into 64 bits. -/
def value? (numeral : Numeral) : Option Int :=
  let digits := unspaced numeral.digits
  if digits.isEmpty || !digits.all (isDigitOf numeral.base) then none
  else
    let size : Int := numberIn numeral.base digits
    let n := if numeral.negative then -size else size
    if -bound ≤ n && n < bound then some n else none

end Numeral

/-- An integer. -/
def integer? (text : List Char) : Option Value :=
  let numeral := Numeral.ofText text
  if !numeral.isAccepted then none
  else some ((numeral.value?.map Value.integer).getD (.unreadable (String.ofList text)))

/-! ### Floats -/

/-- A power of ten after the mark: digits with an optional sign. -/
def exponent? (text : List Char) : Option Int :=
  let (negative, digits) := sign text
  (separated? Char.isDigit digits).map fun digits =>
    if negative then -(numberIn 10 digits : Int) else numberIn 10 digits

/-- A float without its sign, as digits and the power of ten that they are multiplied with: whole
digits, then a fraction, a power of ten, or both. -/
def decimal? (text : List Char) : Option (Nat × Int) :=
  let mantissa := text.takeWhile (!isExponentMark ·)
  let whole := mantissa.takeWhile (· ≠ '.')
  let scale := if mantissa.length < text.length then exponent? (text.drop (mantissa.length + 1))
    else some 0
  let fraction := if whole.length < mantissa.length then
      separated? Char.isDigit (mantissa.drop (whole.length + 1))
    else if mantissa.length < text.length then some []
    else none
  (wholeDigits? whole).bind fun whole => fraction.bind fun fraction => scale.map fun scale =>
    (numberIn 10 (whole ++ fraction), scale - fraction.length)

/-- The size of a float without its sign, none within the option where no double is as large. -/
def magnitude? (text : List Char) : Option (Option Float) :=
  if text = ['i', 'n', 'f'] then some (some (1.0 / 0.0))
  else if text = ['n', 'a', 'n'] then some (some (0.0 / 0.0))
  else (decimal? text).map fun (digits, exponent) => Decimal.nearest? digits exponent

/-- A float: a finite number, an infinity, or no number at all. -/
def float? (text : List Char) : Option Value :=
  let (negative, rest) := sign text
  (magnitude? rest).map fun
    | some x => .float (if negative then -x else x)
    | none => .unreadable (String.ofList text)

/-! ### Dates and times -/

/-- A number of exactly as many decimal digits as characters. -/
def digits? (text : List Char) : Option Nat :=
  if text.all Char.isDigit then some (numberIn 10 text) else none

/-- The number of days of a month. -/
def daysIn (year month : Nat) : Nat :=
  if month = 2 then
    if year % 4 = 0 && (year % 100 ≠ 0 || year % 400 = 0) then 29 else 28
  else if month = 4 || month = 6 || month = 9 || month = 11 then 30
  else 31

/-- Whether a text is a day of the calendar. -/
def isDate : List Char → Bool
  | [a, b, c, d, '-', e, f, '-', g, h] =>
    match digits? [a, b, c, d], digits? [e, f], digits? [g, h] with
    | some year, some month, some day =>
      1 ≤ month && month ≤ 12 && 1 ≤ day && day ≤ daysIn year month
    | _, _, _ => false
  | _ => false

/-- Whether two digits write a number up to a limit. -/
def isUpTo (limit : Nat) (a b : Char) : Bool :=
  (digits? [a, b]).any (· ≤ limit)

/-- What follows a time of day, whose seconds and their fraction are optional. -/
def timeRest? : List Char → Option (List Char)
  | a :: b :: ':' :: c :: d :: rest =>
    if isUpTo 23 a b && isUpTo 59 c d then
      match rest with
      | ':' :: e :: f :: rest =>
        if isUpTo 60 e f then
          match rest with
          | '.' :: g :: rest => if g.isDigit then some (rest.dropWhile Char.isDigit) else none
          | rest => some rest
        else none
      | rest => some rest
    else none
  | _ => none

/-- Whether a text is a time of day. -/
def isTime (text : List Char) : Bool :=
  timeRest? text = some []

/-- Whether a text is the distance to universal time. -/
def isOffset : List Char → Bool
  | ['Z'] | ['z'] => true
  | [s, a, b, ':', c, d] => (s = '+' || s = '-') && isUpTo 23 a b && isUpTo 59 c d
  | _ => false

/-- Whether a text is a time of day that may have an offset. -/
def isZonedTime (text : List Char) : Bool :=
  (timeRest? text).any fun rest => rest.isEmpty || isOffset rest

/-- Whether a text is a date, a time, or a date and a time. -/
def isDatetime (text : List Char) : Bool :=
  isDate text || isTime text ||
    match text.drop 10 with
    | c :: time => (c = 'T' || c = 't' || c = ' ') && isDate (text.take 10) && isZonedTime time
    | [] => false

/-! ### All of them -/

/-- The characters that end a run. -/
def scalarEnds : List Char :=
  [' ', '\t', '\r', '\n', '#', ',', '=', '[', ']', '\x7b', '\x7d']

/-- The characters that may stand in a run. -/
def isScalarChar (c : Char) : Bool :=
  !scalarEnds.contains c

/-- What a run of characters says. -/
def scalarValue? (text : List Char) : Option Value :=
  if text = ['t', 'r', 'u', 'e'] then some (.boolean true)
  else if text = ['f', 'a', 'l', 's', 'e'] then some (.boolean false)
  else if isDatetime text then some (.datetime (String.ofList text))
  else (integer? text).or (float? text)

/-- The runs at the front of a text with the blanks between them; `between` tells whether blanks
come before the text. A run after blanks may not start with a quote. -/
def runs (between : Bool) : List Char → List Char
  | [] => []
  | c :: rest =>
    if isScalarChar c then
      if between && (c = '"' || c = '\'') then [] else c :: runs false rest
    else if isBlank c then
      match runs true rest with
      | [] => []
      | more => c :: more
    else []

/-- A scalar without quotes. -/
def scalar : Reader Value := fun text =>
  let run := runs false text
  (scalarValue? run).map fun value => (value, text.drop run.length)

end Metamodel.Toml
