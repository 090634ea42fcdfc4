import CodeAtlas.Console.Emoji
import CodeAtlas.Console.Style

/-!
# Markup

Texts for the console may have styles marked in them: `[bold]` begins a style, `[/bold]` ends it and
`[/]` ends the one begun last.  A backslash before a tag makes it text.  Here only the text is of
interest; the tags have to fit together all the same.
-/

namespace CodeAtlas.Console

/-- Why the tags of a text do not fit together. -/
inductive MarkupFault where
  /-- A tag ends a style that has not begun. -/
  | unmatched (tag : String) (position : Nat)
  /-- A tag ends the latest style, but there is none. -/
  | nothingToClose (position : Nat)
deriving DecidableEq, Inhabited

/-- The wording of a fault. -/
def MarkupFault.message : MarkupFault → String
  | unmatched tag position =>
    "closing tag '" ++ tag ++ "' at position " ++ toString position ++
      " doesn't match any open tag"
  | nothingToClose position =>
    "closing tag '[/]' at position " ++ toString position ++ " has nothing to close"

namespace Markup

/-- A part of a text: text, or what stands between the brackets of a tag at some position. -/
inductive Part where
  | text (cs : List Char)
  | tag (position : Nat) (inner : List Char)
deriving DecidableEq, Inhabited

/-- The character may stand at the beginning of a tag. -/
def opensTag (c : Char) : Bool :=
  ('a' ≤ c && c ≤ 'z') || c = '#' || c = '/' || c = '@'

/-- What stands between the brackets of a tag with which a text begins. -/
def tag? : List Char → Option (List Char)
  | '[' :: c :: rest =>
    let inner := rest.takeWhile fun d => d != ']' && d != '['
    if opensTag c && (rest.drop inner.length).head? == some ']' then some (c :: inner) else none
  | _ => none

/-- A part of a text, unless it is empty. -/
def textPart (cs : List Char) : List Part := if cs.isEmpty then [] else [.text cs]

/-- The parts of a text from a position on; `plain` holds the text before that and `skip` characters
belong to what has been dealt with.  Of the backslashes before a tag each two stand for one, and one
that is left over makes the tag text. -/
def partsFrom (plain : List Char) (position : Nat) : Nat → List Char → List Part
  | _, [] => textPart plain
  | skip + 1, _ :: rest => partsFrom plain (position + 1) skip rest
  | 0, c :: rest =>
    let slashes := ((c :: rest).takeWhile (· = '\\')).length
    match tag? ((c :: rest).drop slashes) with
    | none => partsFrom (plain ++ [c]) (position + 1) 0 rest
    | some inner =>
      let found := if slashes % 2 = 0 then Part.tag (position + slashes) inner
        else .text ('[' :: inner ++ [']'])
      textPart plain ++ textPart (List.replicate (slashes / 2) '\\')
        ++ found :: partsFrom [] (position + 1) (slashes + inner.length + 1) rest

/-- The parts of a text. -/
def parts (cs : List Char) : List Part := partsFrom [] 0 0 cs

/-- The character is shown; a few control characters are not. -/
def isShown (c : Char) : Bool := !([7, 8, 11, 12, 13].contains c.toNat)

/-- What is shown for the text of a part. -/
def shown (cs : List Char) : List Char :=
  (Emoji.replace (Text.replaceChars ['\\', '['] ['['] 0 cs)).filter isShown

/-- The name in a tag, which ends where a value begins. -/
def nameIn (inner : List Char) : List Char := inner.takeWhile (· != '=')

/-- What is shown for parts while the given styles have begun, the latest first. -/
def render (begun : List String) : List Part → Except MarkupFault (List Char)
  | [] => .ok []
  | .text cs :: rest => (render begun rest).map (shown cs ++ ·)
  | .tag position inner :: rest =>
    match nameIn inner with
    | '/' :: name =>
      let name := Text.strip (String.ofList name)
      if name.isEmpty then
        if begun.isEmpty then .error (.nothingToClose position) else render begun.tail rest
      else
        let name := Style.canonical name
        if begun.contains name then render (begun.erase name) rest
        else .error (.unmatched ("[" ++ String.ofList inner ++ "]") position)
    | name => render (Style.canonical (String.ofList name) :: begun) rest

/-- The text that is shown for a text with markup. -/
def plain (text : String) : Except MarkupFault (List Char) :=
  if text.toList.contains '[' then render [] (parts text.toList)
  else .ok ((Emoji.replace text.toList).filter isShown)

end Markup

end CodeAtlas.Console
