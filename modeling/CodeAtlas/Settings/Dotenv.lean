import CodeAtlas.Text.Blank

/-!
# Files of variables

A file of variables holds one on each line: a name, an equals sign and a value, which may be in
quotes.  A line that is no such thing is skipped.  In a value, a name in braces behind a dollar sign
stands for the value of another variable.
-/

namespace CodeAtlas.Dotenv

/-- A blank that does not end a line. -/
def isInlineBlank (c : Char) : Bool := Text.isBlank c && c ≠ '\r' && c ≠ '\n'

/-- A character that ends a line. -/
def isLineEnd (c : Char) : Bool := c = '\r' || c = '\n'

/-- The text behind the blanks at its beginning that do not end a line. -/
def skipInline (s : List Char) : List Char := s.dropWhile isInlineBlank

/-- The text behind its first line. -/
def nextLine (s : List Char) : List Char :=
  match s.dropWhile (!isLineEnd ·) with
  | _ :: rest => rest
  | [] => []

/-- The text without the word `export` at its beginning, if blanks follow the word. -/
def skipExport (s : List Char) : List Char :=
  let word := "export".toList
  if word.isPrefixOf s then
    match s.drop word.length with
    | c :: rest => if isInlineBlank c then skipInline rest else s
    | [] => s
  else s

/-- Reads a name in single quotes, or up to a blank, an equals sign or a hash. -/
def name? (s : List Char) : Option (List Char × List Char) :=
  let (found, rest) := match s with
    | '\'' :: behind =>
      match behind.span (· ≠ '\'') with
      | (cs, '\'' :: rest) => (cs, rest)
      | _ => ([], s)
    | _ => s.span fun c => !(c = '=' || c = '#' || Text.isBlank c)
  if found.isEmpty then none else some (found, rest)

/-- Puts a character before a value that was read. -/
def consChar (c : Char) : Option (List Char × List Char) → Option (List Char × List Char)
  | some (cs, rest) => some (c :: cs, rest)
  | none => none

/-- Reads a value up to its closing quote.  A quote behind a backslash belongs to the value, unless
there is no closing quote without it. -/
def quoted? (mark : Char) : List Char → Option (List Char × List Char)
  | [] => none
  | '\\' :: c :: rest =>
    if c = mark then
      match quoted? mark rest with
      | some (cs, behind) => some ('\\' :: mark :: cs, behind)
      | none => some (['\\'], rest)
    else consChar '\\' (quoted? mark (c :: rest))
  | c :: rest => if c = mark then some ([], rest) else consChar c (quoted? mark rest)

/-- What a letter behind a backslash stands for in double quotes. -/
def escapeInDouble? : Char → Option Char
  | '\\' => some '\\'
  | '\'' => some '\''
  | '"' => some '"'
  | 'a' => some '\x07'
  | 'b' => some '\x08'
  | 'f' => some '\x0c'
  | 'n' => some '\n'
  | 'r' => some '\r'
  | 't' => some '\t'
  | 'v' => some '\x0b'
  | _ => none

/-- What a character behind a backslash stands for in single quotes. -/
def escapeInSingle? : Char → Option Char
  | '\\' => some '\\'
  | '\'' => some '\''
  | _ => none

/-- A value in which characters behind backslashes are replaced. -/
def unescape (escape? : Char → Option Char) : List Char → List Char
  | '\\' :: c :: rest =>
    match escape? c with
    | some e => e :: unescape escape? rest
    | none => '\\' :: unescape escape? (c :: rest)
  | c :: rest => c :: unescape escape? rest
  | [] => []

/-- A text up to a comment: a hash with blanks before it, which are left out as well. -/
def untilComment : List Char → List Char
  | [] => []
  | c :: rest =>
    if Text.isBlank c && (rest.dropWhile Text.isBlank).head? = some '#' then []
    else c :: untilComment rest

/-- Reads a value. -/
def value? (s : List Char) : Option (List Char × List Char) :=
  match s with
  | '\'' :: rest =>
    (quoted? '\'' rest).map fun (cs, rest) => (unescape escapeInSingle? cs, rest)
  | '"' :: rest =>
    (quoted? '"' rest).map fun (cs, rest) => (unescape escapeInDouble? cs, rest)
  | _ =>
    let (line, rest) := s.span (!isLineEnd ·)
    some (Text.dropTrailingBlanks (untilComment line), rest)

/-- What stands on a line: nothing that has a name, or a variable, which may lack a value. -/
structure Binding where
  name : Option String
  value : Option String
deriving DecidableEq, Inhabited

/-- Nothing that has a name. -/
def Binding.nothing : Binding := ⟨none, none⟩

/-- Reads what may follow a variable on its line: blanks, a comment and the end of the line. -/
def lineRest? (s : List Char) : Option (List Char) :=
  let s := match skipInline s with
    | '#' :: rest => rest.dropWhile (!isLineEnd ·)
    | _ => s
  match skipInline s with
  | [] => some []
  | '\r' :: '\n' :: rest => some rest
  | c :: rest => if isLineEnd c then some rest else none

/-- Reads a variable; a line that holds none is skipped from the place on where that shows. -/
def binding (s : List Char) : Binding × List Char :=
  let s := s.dropWhile Text.isBlank
  if s.isEmpty then (.nothing, [])
  else
    let s := skipExport s
    let named := if s.head? = some '#' then some (none, s)
      else (name? s).map fun (cs, rest) => (some (String.ofList cs), rest)
    match named with
    | none => (.nothing, nextLine s)
    | some (name, rest) =>
      let rest := skipInline rest
      let valued := match rest with
        | '=' :: behind =>
          let behind := skipInline behind
          match value? behind with
          | some (cs, rest) => (some (some (String.ofList cs)), rest)
          | none => (none, behind)
        | _ => (some none, rest)
      match valued with
      | (none, rest) => (.nothing, nextLine rest)
      | (some value, rest) =>
        match lineRest? rest with
        | some rest => (⟨name, value⟩, rest)
        | none => (.nothing, nextLine (match skipInline rest with
          | '#' :: behind => behind.dropWhile (!isLineEnd ·)
          | _ => rest))

/-- Reads variables; every one of them takes at least one character. -/
def bindings : Nat → List Char → List Binding
  | 0, _ => []
  | fuel + 1, s =>
    if s.isEmpty then []
    else
      let (b, rest) := binding s
      b :: bindings fuel rest

/-! ### References to other variables -/

/-- A piece of a value: text, or a reference with what stands in for a variable that is not there.
-/
inductive Piece where
  | literal (c : Char)
  | reference (name : String) (otherwise : String)
deriving DecidableEq, Inhabited

/-- Reads a reference behind its opening brace. -/
def reference? (s : List Char) : Option (Piece × List Char) :=
  let (name, rest) := s.span fun c => !(c = '}' || c = ':')
  match rest with
  | '}' :: rest => some (.reference (String.ofList name) "", rest)
  | ':' :: '-' :: rest =>
    match rest.span (· ≠ '}') with
    | (otherwise, '}' :: rest) =>
      some (.reference (String.ofList name) (String.ofList otherwise), rest)
    | _ => none
  | _ => none

/-- The pieces of a value. -/
def pieces : Nat → List Char → List Piece
  | 0, _ => []
  | fuel + 1, s =>
    match s with
    | [] => []
    | '$' :: '{' :: rest =>
      match reference? rest with
      | some (p, rest) => p :: pieces fuel rest
      | none => .literal '$' :: pieces fuel ('{' :: rest)
    | c :: rest => .literal c :: pieces fuel rest

/-- The variables of a file by name; one that was named without a value has none. -/
abbrev Variables := List (String × Option String)

/-- Sets a variable, which keeps its place if it is there. -/
def setVariable (name : String) (value : Option String) : Variables → Variables
  | [] => [(name, value)]
  | (n, v) :: rest =>
    if n = name then (name, value) :: rest else (n, v) :: setVariable name value rest

/-- The value of a variable among those of the file and those of the environment. -/
def valueOf (environment : List (String × String)) (found : Variables) (name : String) :
    Option (Option String) :=
  match found.find? (·.1 == name) with
  | some (_, v) => some v
  | none => (environment.find? (·.1 == name)).map fun (_, v) => some v

/-- The text of a piece. -/
def resolvePiece (environment : List (String × String)) (found : Variables) : Piece → List Char
  | .literal c => [c]
  | .reference name otherwise =>
    match valueOf environment found name with
    | some (some v) => v.toList
    | some none => []
    | none => otherwise.toList

/-- Adds a variable with its references resolved. -/
def addBinding (environment : List (String × String)) (found : Variables) (b : Binding) :
    Variables :=
  match b.name with
  | none => found
  | some name =>
    let value := b.value.map fun v =>
      String.ofList ((pieces (v.length + 1) v.toList).flatMap (resolvePiece environment found))
    setVariable name value found

/-- The variables that a file defines. -/
def parse (environment : List (String × String)) (text : String) : Variables :=
  (bindings (text.length + 1) text.toList).foldl (addBinding environment) []

end CodeAtlas.Dotenv
