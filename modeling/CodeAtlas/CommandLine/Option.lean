import CodeAtlas.Text.Search

/-!
# Options and operands

The words of a command line are options and operands.  An option has long names such as `--json` and
short ones such as `-j`; its value follows in the next word, behind an equals sign after a long
name, or at once after a short one.  Short options without values can be written as one word.
Behind a word `--` there are operands only.
-/

namespace CodeAtlas

namespace CommandLine

/-- What is wrong with a command line. -/
inductive UsageError where
  | unknownOption (name : String)
  | missingValue (name : String)
  | unexpectedValue (name : String)
  | notAnInteger (name value : String)
  | tooSmall (name value : String)
  | unexpectedOperand (value : String)
  | unknownCommand (name : String)
deriving DecidableEq, Inhabited

/-- The wording for what is wrong. -/
def UsageError.message : UsageError → String
  | unknownOption name => "There is no option " ++ name ++ "."
  | missingValue name => "The option " ++ name ++ " needs a value."
  | unexpectedValue name => "The option " ++ name ++ " takes no value."
  | notAnInteger name value =>
    "The value of " ++ name ++ " must be an integer, not " ++ value ++ "."
  | tooSmall name value => "The value of " ++ name ++ " must be at least 1, not " ++ value ++ "."
  | unexpectedOperand value => "There is one argument too many: " ++ value ++ "."
  | unknownCommand name => "There is no command " ++ name ++ "."

/-- An option by which a setting is chosen, and how it is written. -/
structure OptionForm (κ : Type) where
  key : κ
  names : List String
  takesValue : Bool

/-- The options of a command line in order, each with its value, which is empty if it takes none,
and the operands. -/
structure Arguments (κ : Type) where
  options : List (κ × String)
  operands : List String
deriving DecidableEq, Inhabited

namespace Arguments

variable {κ : Type} [DecidableEq κ]

/-- The value given last to an option. -/
def value? (a : Arguments κ) (key : κ) : Option String :=
  (a.options.reverse.find? (·.1 = key)).map (·.2)

/-- The option was given. -/
def has (a : Arguments κ) (key : κ) : Bool := (a.value? key).isSome

/-- The arguments with one more option before the others. -/
def withOption (key : κ) (value : String) (a : Arguments κ) : Arguments κ :=
  { a with options := (key, value) :: a.options }

end Arguments

/-- What one word says: some options, and the option whose value the next word is, if so. -/
structure Reading (κ : Type) where
  options : List (κ × String)
  pending : Option (κ × String)

section

variable {κ : Type}

/-- A name of one character behind one dash. -/
def isShort (name : String) : Bool := name.length = 2

/-- The option with the given name. -/
def form? (forms : List (OptionForm κ)) (name : String) : Option (OptionForm κ) :=
  forms.find? (·.names.contains name)

/-- Reads options of one character each; a value takes up the rest of the word. -/
def readShort (forms : List (OptionForm κ)) : List Char → Except UsageError (Reading κ)
  | [] => .ok ⟨[], none⟩
  | c :: rest =>
    let name := String.ofList ['-', c]
    match form? forms name with
    | none => .error (.unknownOption name)
    | some f =>
      if f.takesValue then
        .ok (if rest.isEmpty then ⟨[], some (f.key, name)⟩
          else ⟨[(f.key, String.ofList rest)], none⟩)
      else
        match readShort forms rest with
        | .ok r => .ok { r with options := (f.key, "") :: r.options }
        | .error e => .error e

/-- Reads an option with a long name and the value that stands in the same word. -/
def readLong (f : OptionForm κ) (name : String) : Option String → Except UsageError (Reading κ)
  | some value =>
    if f.takesValue then .ok ⟨[(f.key, value)], none⟩ else .error (.unexpectedValue name)
  | none => .ok (if f.takesValue then ⟨[], some (f.key, name)⟩ else ⟨[(f.key, "")], none⟩)

/-- Reads a word that begins with a dash. -/
def readOption (forms : List (OptionForm κ)) (word : String) : Except UsageError (Reading κ) :=
  let cs := word.toList
  let name := String.ofList (cs.takeWhile (· != '='))
  let value := (cs.dropWhile (· != '=')).tail?.map String.ofList
  match (if isShort name then none else form? forms name) with
  | some f => readLong f name value
  | none =>
    if Text.beginsWith "--" word then .error (.unknownOption name) else readShort forms (cs.drop 1)

/-- The word begins with a dash, and that is not all. -/
def looksLikeOption (word : String) : Bool := Text.beginsWith "-" word && 1 < word.length

/-- Reads the words of a command line.  Options may stand among operands only if `mixed` holds;
otherwise everything from the first operand on is one. -/
def readArguments (forms : List (OptionForm κ)) (mixed : Bool) :
    List String → Except UsageError (Arguments κ)
  | [] => .ok ⟨[], []⟩
  | word :: rest =>
    if word = "--" then .ok ⟨[], rest⟩
    else if looksLikeOption word then
      match readOption forms word with
      | .error e => .error e
      | .ok ⟨options, none⟩ =>
        (readArguments forms mixed rest).map fun a => { a with options := options ++ a.options }
      | .ok ⟨options, some (key, name)⟩ =>
        match rest with
        | [] => .error (.missingValue name)
        | value :: rest =>
          (readArguments forms mixed rest).map fun a =>
            { a with options := options ++ (key, value) :: a.options }
    else if mixed then
      (readArguments forms mixed rest).map fun a => { a with operands := word :: a.operands }
    else .ok ⟨[], word :: rest⟩

end

end CommandLine

end CodeAtlas
