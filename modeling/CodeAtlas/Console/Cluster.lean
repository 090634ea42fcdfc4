import CodeAtlas.Number.Sum
import CodeAtlas.Console.Columns

/-!
# Characters that are shown as one

A character and the marks on it are shown as one, as are characters that are joined.  A text is cut
between these clusters only, and its width is that of its clusters.
-/

namespace CodeAtlas.Console

/-- Joins the characters around it. -/
def joiner : Char := '\u200d'

/-- Has the character before it shown as emoji. -/
def emojiSelector : Char := '\ufe0f'

/-- Characters that are shown as one, and how many columns they take up. -/
structure Cluster where
  chars : List Char
  span : Nat
deriving DecidableEq, Inhabited

namespace Cluster

/-- Adds characters that take up no column of their own to the last of the clusters, which are given
from last to first. -/
def extend (chars : List Char) (wider : Nat) : List Cluster → List Cluster
  | [] => [⟨chars, wider⟩]
  | k :: done => ⟨k.chars ++ chars, k.span + wider⟩ :: done

/-- Goes on with the clusters of a text, those so far being given from last to first; `base` is the
last character with a width, unless it has been shown as emoji already. -/
def collect (done : List Cluster) (base : Option Char) : List Char → List Cluster
  | [] => done.reverse
  | [c] =>
    if c = emojiSelector && base.any widensAsEmoji then (extend [c] 1 done).reverse
    else if c = joiner || columns c = 0 then (extend [c] 0 done).reverse
    else (⟨[c], columns c⟩ :: done).reverse
  | c :: d :: rest =>
    if c = joiner then
      if done.isEmpty then collect [⟨[c], 0⟩] base (d :: rest)
      else collect (extend [c, d] 0 done) base rest
    else if c = emojiSelector && base.any widensAsEmoji then
      collect (extend [c] 1 done) none (d :: rest)
    else if columns c = 0 then collect (extend [c] 0 done) base (d :: rest)
    else collect (⟨[c], columns c⟩ :: done) (some c) (d :: rest)

/-- The clusters of a text. -/
def ofChars (cs : List Char) : List Cluster := collect [] none cs

end Cluster

/-- How many columns a text takes up. -/
def width (cs : List Char) : Nat :=
  if cs.contains joiner || cs.contains emojiSelector then
    sumOf ((Cluster.ofChars cs).map (·.span))
  else sumOf (cs.map columns)

/-- Blanks in the given number. -/
def blanks (n : Nat) : List Char := List.replicate n ' '

/-- The text with blanks behind it to take up at least the given number of columns. -/
def padded (n : Nat) (cs : List Char) : List Char := cs ++ blanks (n - width cs)

/-- The clusters at the beginning that fit into the given number of columns. -/
def fitting : Nat → List Cluster → List Cluster
  | _, [] => []
  | n, k :: rest => if k.span ≤ n then k :: fitting (n - k.span) rest else []

/-- The text cut off or filled up with blanks to take up exactly the given number of columns. -/
def fitted (n : Nat) (cs : List Char) : List Char :=
  if width cs ≤ n then padded n cs
  else
    let kept := fitting n (Cluster.ofChars cs)
    kept.flatMap (·.chars) ++ blanks (n - sumOf (kept.map (·.span)))

/-- What is done with a text that is too wide for a line. -/
inductive Overflow where
  /-- It goes on in the next line. -/
  | fold
  /-- It is cut off, with dots in place of what is left out. -/
  | ellipsis
deriving DecidableEq, Inhabited

/-- The text cut off to take up no more than the given number of columns. -/
def truncated (n : Nat) (overflow : Overflow) (cs : List Char) : List Char :=
  if width cs ≤ n then cs
  else match overflow with
    | .fold => fitted n cs
    | .ellipsis => fitted (n - 1) cs ++ ['…']

/-- The clusters in pieces that each fit into the given number of columns; `piece` holds what the
current piece has so far and `used` the columns of it. -/
def chopFrom (n : Nat) (piece : List Char) (used : Nat) : List Cluster → List (List Char)
  | [] => [piece]
  | k :: rest =>
    if n < used + k.span then piece :: chopFrom n k.chars k.span rest
    else chopFrom n (piece ++ k.chars) (used + k.span) rest

/-- The text in pieces that each fit into the given number of columns. -/
def chop (n : Nat) (cs : List Char) : List (List Char) := chopFrom n [] 0 (Cluster.ofChars cs)

end CodeAtlas.Console
