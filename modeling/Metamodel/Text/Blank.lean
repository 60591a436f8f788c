/-!
# Blank text

A message or a path segment that shows nothing on the page says nothing. `isBlank` holds of the
texts made of white space alone, the empty one included.
-/

namespace Metamodel.Text

/-- The characters with the Unicode property White_Space. -/
def isSpace (c : Char) : Bool :=
  (0x9 ≤ c.val && c.val ≤ 0xd) || c.val == 0x20 || c.val == 0x85 || c.val == 0xa0 ||
    c.val == 0x1680 || (0x2000 ≤ c.val && c.val ≤ 0x200a) || c.val == 0x2028 ||
    c.val == 0x2029 || c.val == 0x202f || c.val == 0x205f || c.val == 0x3000

/-- Nothing but white space. -/
def isBlank (text : String) : Bool :=
  text.toList.all isSpace

end Metamodel.Text
