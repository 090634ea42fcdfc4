import CodeAtlas.Console.EmojiNames
import CodeAtlas.Text.Blank
import CodeAtlas.Text.LowerCase

/-!
# Emoji given by name

In a text a name between colons stands for an emoji, as in `:smile:`; behind the name it may say
whether the emoji is to be shown as text or as emoji.  A name that stands for none is left as it is.
-/

namespace CodeAtlas.Console

open CodeAtlas.Text

namespace Emoji

/-- The elements of a list two by two. -/
def inPairs {α : Type} : List α → List (α × α)
  | a :: b :: rest => (a, b) :: inPairs rest
  | _ => []

/-- The emoji by name. -/
def table : List (List Char × List Char) := inPairs (words emojiNames.toList)

/-- Comes behind the names of those emoji that have tones of skin. -/
def toneMark : List Char := ['~']

/-- The ends of names that give a tone of skin, and the characters for the tones. -/
def tones : List (List Char × Char) :=
  [("_dark_skin_tone".toList, '🏿'), ("_light_skin_tone".toList, '🏻'),
    ("_medium_skin_tone".toList, '🏽'), ("_medium-dark_skin_tone".toList, '🏾'),
    ("_medium-light_skin_tone".toList, '🏼')]

/-- The emoji under a key of the table. -/
def find? (key : List Char) : Option (List Char) := (table.find? (·.1 == key)).map (·.2)

/-- The emoji with a tone of skin, which follows its first character. -/
def toned (tone : Char) : List Char → List Char
  | [] => [tone]
  | c :: rest => c :: tone :: rest.dropWhile (· = '\ufe0f')

/-- The emoji of the given name, which is in lower case. -/
def ofName? (name : List Char) : Option (List Char) :=
  (find? name).or ((find? (name ++ toneMark)).or (tones.findSome? fun (tail, tone) =>
    if tail.isSuffixOf name then
      (find? (name.take (name.length - tail.length) ++ toneMark)).map (toned tone)
    else none))

/-- The characters that have an emoji shown as text or as emoji, by the ends of names. -/
def variants : List (List Char × Char) :=
  [("-emoji".toList, '\ufe0f'), ("-text".toList, '\ufe0e')]

/-- The emoji that is meant by what stands between two colons. -/
def ofCode? (code : List Char) : Option (List Char) :=
  let (name, variant) := match variants.find? fun (tail, _) => tail.isSuffixOf code with
    | some (tail, c) => (code.take (code.length - tail.length), [c])
    | none => (code, [])
  (ofName? (lower (String.ofList name)).toList).map (· ++ variant)

/-- The text with emoji in place of their names; `skip` characters belong to a name that has been
dealt with. -/
def replaceFrom : Nat → List Char → List Char
  | _, [] => []
  | skip + 1, _ :: rest => replaceFrom skip rest
  | 0, c :: rest =>
    let code := rest.takeWhile fun d => !isBlank d && d != ':'
    if c = ':' && (rest.drop code.length).head? == some ':' then
      (match ofCode? code with
        | some emoji => emoji
        | none => c :: (code ++ [':'])) ++ replaceFrom (code.length + 1) rest
    else c :: replaceFrom 0 rest

/-- The text with emoji in place of their names. -/
def replace (cs : List Char) : List Char := replaceFrom 0 cs

end Emoji

end CodeAtlas.Console
