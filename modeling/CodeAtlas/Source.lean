import CodeAtlas.Extraction
import CodeAtlas.Failure
import CodeAtlas.FileSystem.Basic
import CodeAtlas.Text.Utf8

/-!
# From a file to its record

A source file is read as UTF-8, with line feeds for line ends of any kind.
-/

namespace CodeAtlas

/-- A source error as the failure of an analysis. -/
def SourceError.toFailure : SourceError → Failure
  | .syntaxError path line dialect =>
    .parse path ("syntax error (" ++ dialect.name ++ ")") (line.map fun n => (n : Int))
  | .score e => .score e

/-- The text of a source file. -/
def readSource (fs : FileSystem) (file : Path) : Except Failure String :=
  match fs.read file with
  | .error .nullCharacter => .error (.file .nullCharacter file.toText)
  | .error e => .error (.fileRead file.toText (e.message file.toText))
  | .ok bytes =>
    match Text.decode bytes with
    | .error e => .error (.fileRead file.toText e.message)
    | .ok text => .ok (Text.unifyLineEnds text)

namespace FileRecord

/-- The record of a file in a repository. -/
def ofFile (fs : FileSystem) (dialect : Dialect) (file root : Path) : Except Failure FileRecord :=
  match readSource fs file with
  | .error e => .error e
  | .ok text =>
    match ofSourceAt dialect fs.here file root text with
    | .ok r => .ok r
    | .error e => .error e.toFailure

end FileRecord

end CodeAtlas
