/-!
# Searching in text
-/

namespace CodeAtlas.Text

/-- `needle` occurs in the list. -/
def occursInChars (needle : List Char) : List Char → Bool
  | [] => needle.isEmpty
  | c :: rest => needle.isPrefixOf (c :: rest) || occursInChars needle rest

/-- `needle` occurs in the text. -/
def occursIn (needle text : String) : Bool := occursInChars needle.toList text.toList

/-- The text begins with `start`. -/
def beginsWith (start text : String) : Bool := start.toList.isPrefixOf text.toList

/-- The text ends with `tail`. -/
def endsWith (tail text : String) : Bool := tail.toList.isSuffixOf text.toList

/-- The text from its first character other than `c` on. -/
def dropLeading (c : Char) (text : String) : String := String.ofList (text.toList.dropWhile (· = c))

/-- The text up to its last character other than `c`. -/
def dropTrailing (c : Char) (text : String) : String :=
  String.ofList (text.toList.reverse.dropWhile (· = c)).reverse

/-- The text with every occurrence of `needle` replaced, from left to right and without overlap;
`skip` characters belong to an occurrence that has been replaced. -/
def replaceChars (needle by_ : List Char) : Nat → List Char → List Char
  | _, [] => []
  | skip + 1, _ :: rest => replaceChars needle by_ skip rest
  | 0, c :: rest =>
    if needle.isPrefixOf (c :: rest) then by_ ++ replaceChars needle by_ (needle.length - 1) rest
    else c :: replaceChars needle by_ 0 rest

/-- The text with every occurrence of `needle` replaced, from left to right and without overlap. -/
def replace (needle by_ text : String) : String :=
  String.ofList (replaceChars needle.toList by_.toList 0 text.toList)

end CodeAtlas.Text
