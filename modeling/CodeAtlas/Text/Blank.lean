/-!
# Blanks

The characters that separate words, texts without them at their ends, and the words between them.
-/

namespace CodeAtlas.Text

/-- The character is a blank, a line end or another separator of words. -/
def isBlank (c : Char) : Bool :=
  let n := c.toNat
  (9 ≤ n && n ≤ 13) || (0x1c ≤ n && n ≤ 0x20) || n = 0x85 || n = 0xa0 || n = 0x1680
    || (0x2000 ≤ n && n ≤ 0x200a) || n = 0x2028 || n = 0x2029 || n = 0x202f || n = 0x205f
    || n = 0x3000

/-- The list without the blanks at its end. -/
def dropTrailingBlanks (cs : List Char) : List Char := (cs.reverse.dropWhile isBlank).reverse

/-- The list without the blanks at its ends. -/
def stripChars (cs : List Char) : List Char := dropTrailingBlanks (cs.dropWhile isBlank)

/-- The words of the list. -/
def words (cs : List Char) : List (List Char) :=
  (cs.splitBy fun a b => isBlank a == isBlank b).filter fun w => !w.all isBlank

/-- The text without the blanks at its ends. -/
def strip (s : String) : String := String.ofList (stripChars s.toList)

end CodeAtlas.Text
