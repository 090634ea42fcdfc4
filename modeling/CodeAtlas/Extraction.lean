import CodeAtlas.Extraction.Module
import CodeAtlas.Complexity.Formula
import CodeAtlas.Syntax.Fault
import CodeAtlas.Grammar.Program

/-!
# From a source text to the record of a file

The findings of a tree are those of its sites, in document order.  A text that is not a program of
its dialect has no record; the error names the line of the first fault.
-/

namespace CodeAtlas

open CodeAtlas.Syntax

/-- What has been found in a tree or a part of it. -/
structure Findings where
  functions : List FunctionRecord
  classes : List ClassRecord
  imports : List ImportRecord
  exports : List ExportRecord
deriving DecidableEq, Inhabited

namespace Findings

/-- Nothing. -/
def empty : Findings := ⟨[], [], [], []⟩

/-- Findings one after the other. -/
def append (a b : Findings) : Findings :=
  ⟨a.functions ++ b.functions, a.classes ++ b.classes, a.imports ++ b.imports,
    a.exports ++ b.exports⟩

instance : Append Findings where
  append := append

/-- What is found at one site. -/
def atSite (s : Site) : Findings :=
  ⟨Extraction.functionsAt s, Extraction.classesAt s, Extraction.importsAt s,
    Extraction.exportsAt s⟩

/-- What is found at a list of sites. -/
def ofSites (sites : List Site) : Findings :=
  ⟨sites.flatMap Extraction.functionsAt, sites.flatMap Extraction.classesAt,
    sites.flatMap Extraction.importsAt, sites.flatMap Extraction.exportsAt⟩

/-- What is found in a tree. -/
def ofTree (root : Node) : Findings := ofSites root.sites

end Findings

/-- The elements of a list, each at its first place only. -/
def distinct {α : Type} [BEq α] (xs : List α) : List α := xs.eraseDups

/-- Why a source text has no record. -/
inductive SourceError where
  /-- The text is not a program of the dialect; the line of the first fault is given. -/
  | syntaxError (path : String) (line : Option Nat) (dialect : Dialect)
  /-- A score of the file is too large. -/
  | score (error : ScoreError)
deriving DecidableEq, Inhabited

/-- The wording of the error. -/
def SourceError.message : SourceError → String
  | .syntaxError path line dialect =>
    let place := match line with
      | some n => path ++ ":" ++ toString n
      | none => path
    "Failed to parse " ++ place ++ ": syntax error (" ++ dialect.name ++ ")"
  | .score e => e.message

namespace FileRecord

/-- The record of a tree without faults. -/
def ofTree (path language : String) (size : Nat) (root : Node) : Except ScoreError FileRecord := do
  let found := Findings.ofTree root
  let lines : Int := root.endLine
  let complexity ← Score.fileComplexity (found.functions.map (·.complexity))
    (found.classes.map (·.complexity)) lines
  return { path, language, size, lines, complexity
           functions := found.functions, classes := found.classes
           imports := found.imports, exports := found.exports
           dependencies := distinct (found.imports.map (·.module))
           commitCount := none }

/-- The record of a source text. -/
def ofSource (dialect : Dialect) (path language text : String) : Except SourceError FileRecord :=
  let root := Grammar.parse dialect text
  if root.faulty then
    .error (.syntaxError path (root.firstFault.map (·.line)) dialect)
  else match ofTree path language text.length root with
    | .ok file => .ok file
    | .error e => .error (.score e)

/-- The name of the language of a file: its extension in lower case. -/
def languageOf (file : Path) : String :=
  Text.lower (String.ofList (file.suffix.toList.dropWhile (· = '.')))

/-- The record of the source text of a file in a repository.  `here` is the current directory. -/
def ofSourceAt (dialect : Dialect) (here : List String) (file root : Path) (text : String) :
    Except SourceError FileRecord :=
  ofSource dialect (Path.inRepository here file root) (languageOf file) text

end FileRecord

end CodeAtlas
