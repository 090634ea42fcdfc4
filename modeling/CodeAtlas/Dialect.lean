import CodeAtlas.Path

/-!
# Dialects

The dialects of source files that can be read, and which dialect a file is written in.
-/

namespace CodeAtlas

/-- A dialect of source files. -/
inductive Dialect where
  | javascript
  | typescript
  | tsx
deriving DecidableEq, Repr, Inhabited

namespace Dialect

/-- The name of a dialect. -/
def name : Dialect → String
  | javascript => "javascript"
  | typescript => "typescript"
  | tsx => "tsx"

/-- The dialect with a given name. -/
def ofName? : String → Option Dialect
  | "javascript" => some javascript
  | "typescript" => some typescript
  | "tsx" => some tsx
  | _ => none

/-- The file name extensions of the dialects, in the order in which they are tried. -/
def extensions : List (String × Dialect) :=
  [(".js", javascript), (".jsx", javascript), (".mjs", javascript), (".cjs", javascript),
    (".ts", typescript), (".tsx", tsx)]

/-- The extensions alone. -/
def supportedExtensions : List String := extensions.map Prod.fst

/-- The dialect that belongs to an extension in lower case. -/
def ofExtension? (extension : String) : Option Dialect :=
  (extensions.find? (·.1 == extension)).map Prod.snd

/-- The dialect of a file, by the extension of its name in any case. -/
def ofPath? (p : Path) : Option Dialect := ofExtension? (Text.lower p.suffix)

end Dialect

end CodeAtlas
