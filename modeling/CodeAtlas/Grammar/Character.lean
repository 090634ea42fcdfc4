/-!
# Character classes of the source language

Which characters are blank between tokens, which end a line for the insertion of semicolons, and
which may begin or continue a name.  A name is anything that is not blank, not a control character
and not punctuation of the language.
-/

namespace CodeAtlas.Grammar.Character

/-- The space separators of Unicode. -/
def isSpaceSeparator (c : Char) : Bool :=
  c = ' ' || c = '\u00a0' || c = '\u1680' || ('\u2000' ≤ c && c ≤ '\u200a') || c = '\u202f'
    || c = '\u205f' || c = '\u3000'

/-- Tab, the four line controls, and the space. -/
def isPlainBlank (c : Char) : Bool := ('\t' ≤ c && c ≤ '\r') || c = ' '

/-- The separators of lines and paragraphs. -/
def isLineSeparator (c : Char) : Bool := c = '\u2028' || c = '\u2029'

/-- Characters that may stand between two tokens. -/
def isBlank (c : Char) : Bool :=
  isPlainBlank c || isSpaceSeparator c || isLineSeparator c || c = '\ufeff' || c = '\u2060'
    || c = '\u200b'

/-- Characters that the search for an omitted semicolon passes over: the blanks at which a line may
be broken. -/
def isBreakable (c : Char) : Bool :=
  isPlainBlank c || isLineSeparator c
    || (isSpaceSeparator c && c ≠ '\u00a0' && c ≠ '\u2007' && c ≠ '\u202f')

/-- Characters after which an omitted semicolon is looked for. -/
def endsLine (c : Char) : Bool := c = '\n' || isLineSeparator c

/-- The punctuation that ends a name. -/
def isPunctuation (c : Char) : Bool :=
  ":;`\"'@#.,|^&<=>+-*/\\%?!~()[]\x7b\x7d".toList.contains c

/-- Characters that may continue a name. -/
def continuesName (c : Char) : Bool := '\u001f' < c && !isBlank c && !isPunctuation c

/-- Characters that may begin a name. -/
def beginsName (c : Char) : Bool := continuesName c && !c.isDigit

/-- Hexadecimal digits. -/
def isHexDigit (c : Char) : Bool :=
  c.isDigit || ('a' ≤ c && c ≤ 'f') || ('A' ≤ c && c ≤ 'F')

/-- Octal digits. -/
def isOctalDigit (c : Char) : Bool := '0' ≤ c && c ≤ '7'

/-- Binary digits. -/
def isBinaryDigit (c : Char) : Bool := c = '0' || c = '1'

end CodeAtlas.Grammar.Character
