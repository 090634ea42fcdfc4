import CodeAtlas.Text.Blank
import CodeAtlas.Text.LowerCase
import CodeAtlas.Text.Search

/-!
# Names of styles

A style is named by words: attributes, colours and a link.  Names that say the same are one name, so
each has a canonical form; a name that says nothing is its own canonical form in lower case.
-/

namespace CodeAtlas.Console

/-- An attribute is set or explicitly not set. -/
structure Attribute where
  name : String
  isSet : Bool
deriving DecidableEq, Inhabited

/-- A style. -/
structure Style where
  attributes : List Attribute
  colour : Option String
  background : Option String
  link : Option String
deriving DecidableEq, Inhabited

namespace Style

/-- The attributes, each with the short names for it, in canonical order. -/
def attributeNames : List (String × List String) :=
  [("bold", ["b"]), ("dim", ["d"]), ("italic", ["i"]), ("underline", ["u"]), ("blink", []),
    ("blink2", []), ("reverse", ["r"]), ("conceal", ["c"]), ("strike", ["s"]),
    ("underline2", ["uu"]), ("frame", []), ("encircle", []), ("overline", ["o"])]

/-- The names of colours. -/
def colourNames : List String := ["default",
  "black", "red", "green", "yellow", "blue", "magenta", "cyan", "white", "bright_black",
  "bright_red", "bright_green", "bright_yellow", "bright_blue", "bright_magenta",
  "bright_cyan", "bright_white", "grey0", "gray0", "navy_blue", "dark_blue", "blue3", "blue1",
  "dark_green", "deep_sky_blue4", "dodger_blue3", "dodger_blue2", "green4", "spring_green4",
  "turquoise4", "deep_sky_blue3", "dodger_blue1", "green3", "spring_green3", "dark_cyan",
  "light_sea_green", "deep_sky_blue2", "deep_sky_blue1", "spring_green2", "cyan3",
  "dark_turquoise", "turquoise2", "green1", "spring_green1", "medium_spring_green", "cyan2",
  "cyan1", "dark_red", "deep_pink4", "purple4", "purple3", "blue_violet", "orange4", "grey37",
  "gray37", "medium_purple4", "slate_blue3", "royal_blue1", "chartreuse4", "dark_sea_green4",
  "pale_turquoise4", "steel_blue", "steel_blue3", "cornflower_blue", "chartreuse3",
  "cadet_blue", "sky_blue3", "steel_blue1", "pale_green3", "sea_green3", "aquamarine3",
  "medium_turquoise", "chartreuse2", "sea_green2", "sea_green1", "aquamarine1",
  "dark_slate_gray2", "dark_magenta", "dark_violet", "purple", "light_pink4", "plum4",
  "medium_purple3", "slate_blue1", "yellow4", "wheat4", "grey53", "gray53", "light_slate_grey",
  "light_slate_gray", "medium_purple", "light_slate_blue", "dark_olive_green3",
  "dark_sea_green", "light_sky_blue3", "sky_blue2", "dark_sea_green3", "dark_slate_gray3",
  "sky_blue1", "chartreuse1", "light_green", "pale_green1", "dark_slate_gray1", "red3",
  "medium_violet_red", "magenta3", "dark_orange3", "indian_red", "hot_pink3", "medium_orchid3",
  "medium_orchid", "medium_purple2", "dark_goldenrod", "light_salmon3", "rosy_brown", "grey63",
  "gray63", "medium_purple1", "gold3", "dark_khaki", "navajo_white3", "grey69", "gray69",
  "light_steel_blue3", "light_steel_blue", "yellow3", "dark_sea_green2", "light_cyan3",
  "light_sky_blue1", "green_yellow", "dark_olive_green2", "dark_sea_green1", "pale_turquoise1",
  "deep_pink3", "magenta2", "hot_pink2", "orchid", "medium_orchid1", "orange3", "light_pink3",
  "pink3", "plum3", "violet", "light_goldenrod3", "tan", "misty_rose3", "thistle3", "plum2",
  "khaki3", "light_goldenrod2", "light_yellow3", "grey84", "gray84", "light_steel_blue1",
  "yellow2", "dark_olive_green1", "honeydew2", "light_cyan1", "red1", "deep_pink2",
  "deep_pink1", "magenta1", "orange_red1", "indian_red1", "hot_pink", "dark_orange", "salmon1",
  "light_coral", "pale_violet_red1", "orchid2", "orchid1", "orange1", "sandy_brown",
  "light_salmon1", "light_pink1", "pink1", "plum1", "gold1", "navajo_white1", "misty_rose1",
  "thistle1", "yellow1", "light_goldenrod1", "khaki1", "wheat1", "cornsilk1", "grey100",
  "gray100", "grey3", "gray3", "grey7", "gray7", "grey11", "gray11", "grey15", "gray15",
  "grey19", "gray19", "grey23", "gray23", "grey27", "gray27", "grey30", "gray30", "grey35",
  "gray35", "grey39", "gray39", "grey42", "gray42", "grey46", "gray46", "grey50", "gray50",
  "grey54", "gray54", "grey58", "gray58", "grey62", "gray62", "grey66", "gray66", "grey70",
  "gray70", "grey74", "gray74", "grey78", "gray78", "grey82", "gray82", "grey85", "gray85",
  "grey89", "gray89", "grey93", "gray93"]

/-- The attribute that a word stands for. -/
def attribute? (word : String) : Option String :=
  (attributeNames.find? fun (name, short) => name = word || short.contains word).map (·.1)

/-- The number that the digits stand for. -/
def number? (digits : String) : Option Nat :=
  if digits.toList.all Char.isDigit then digits.toNat? else none

/-- What stands between `start` and a closing bracket at the end. -/
def argument? (start word : String) : Option String :=
  if Text.beginsWith start word && Text.endsWith ")" word then
    some (String.ofList ((word.toList.drop start.length).dropLast))
  else none

/-- A digit of a hexadecimal number in lower case. -/
def isHexDigit (c : Char) : Bool := c.isDigit || ('a' ≤ c && c ≤ 'f')

/-- The word, in lower case, names a colour: by its name, its number, or its shares of red, green
and blue. -/
def isColour (word : String) : Bool :=
  colourNames.contains word
    || (Text.beginsWith "#" word && word.length = 7 && (word.toList.drop 1).all isHexDigit)
    || ((argument? "color(" word).bind number?).any (· ≤ 255)
    || (argument? "rgb(" word).any fun inner =>
      let shares := (inner.splitOn ",").map number?
      shares.length = 3 && shares.all (·.any (· ≤ 255))

/-- The style without anything set. -/
def plain : Style := ⟨[], none, none, none⟩

/-- The style with an attribute set as given. -/
def withAttribute (s : Style) (name : String) (isSet : Bool) : Style :=
  { s with attributes := ⟨name, isSet⟩ :: s.attributes.filter (·.name != name) }

/-- The style that words say, going on from one that is known so far. -/
def ofWords (s : Style) : List String → Option Style
  | [] => some s
  | word :: rest =>
    let lowered := Text.lower word
    if lowered = "on" then match rest with
      | colour :: rest =>
        if isColour (Text.lower colour) then
          ofWords { s with background := some (Text.lower colour) } rest
        else none
      | [] => none
    else if lowered = "not" then match rest with
      | name :: rest =>
        match attribute? name with
        | some name => ofWords (s.withAttribute name false) rest
        | none => none
      | [] => none
    else if lowered = "link" then match rest with
      | target :: rest => ofWords { s with link := some target } rest
      | [] => none
    else match attribute? lowered with
      | some name => ofWords (s.withAttribute name true) rest
      | none =>
        if isColour lowered then ofWords { s with colour := some lowered } rest else none

/-- The canonical name of a style. -/
def name (s : Style) : String :=
  let attributes := attributeNames.filterMap fun (name, _) =>
    (s.attributes.find? (·.name == name)).map fun a => (if a.isSet then "" else "not ") ++ name
  let words := attributes ++ s.colour.toList ++ (s.background.map ("on " ++ ·)).toList
    ++ (s.link.map ("link " ++ ·)).toList
  if words.isEmpty then "none" else " ".intercalate words

/-- The canonical form of the name of a style. -/
def canonical (text : String) : String :=
  if Text.strip text = "none" then plain.name
  else match ofWords plain ((Text.words text.toList).map String.ofList) with
    | some s => s.name
    | none => Text.lower (Text.strip text)

end Style

end CodeAtlas.Console
