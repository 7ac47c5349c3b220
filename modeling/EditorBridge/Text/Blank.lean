/-!
White space in the sense of Unicode, and trimming. A blank character is one of the twenty-five code
points with the property White_Space; the zero-width characters and the byte order mark are not.
-/
namespace EditorBridge.Text

/-- Has the character the property White_Space? -/
def isBlank (c : Char) : Bool :=
  let n := c.toNat
  (0x9 ≤ n && n ≤ 0xd) || n == 0x20 || n == 0x85 || n == 0xa0 || n == 0x1680 ||
    (0x2000 ≤ n && n ≤ 0x200a) || n == 0x2028 || n == 0x2029 || n == 0x202f || n == 0x205f ||
    n == 0x3000

/-- The text without the blank characters at its end. -/
def trimRightChars (s : List Char) : List Char := (s.reverse.dropWhile isBlank).reverse

/-- The text without the blank characters at both ends. -/
def trimChars (s : List Char) : List Char := trimRightChars (s.dropWhile isBlank)

def trim (s : String) : String := String.ofList (trimChars s.toList)

def trimRight (s : String) : String := String.ofList (trimRightChars s.toList)

/-- Is there nothing but blank characters? -/
def isBlankText (s : String) : Bool := s.toList.all isBlank

end EditorBridge.Text
