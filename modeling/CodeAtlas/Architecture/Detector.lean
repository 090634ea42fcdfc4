import CodeAtlas.Architecture.Component

/-!
# Detectors of practices

A detector looks for declarations with telling names.  It labels the components in which it finds
some and reports the practice for the repository as a whole.
-/

namespace CodeAtlas

/-- A detector. -/
inductive Detector where
  /-- Functions named as hooks. -/
  | hooks
  /-- Contexts and their providers. -/
  | context
deriving DecidableEq, Inhabited

namespace Detector

/-- The detectors that are run unless others are chosen. -/
def standard : List Detector := [hooks, context]

/-- The detector that a word stands for. -/
def ofName? : String → Option Detector
  | "hooks" => some hooks
  | "context" => some context
  | _ => none

/-- The name is that of a hook: `use` with a capital letter or a digit behind it. -/
def isHookName (name : String) : Bool :=
  match name.toList with
  | 'u' :: 's' :: 'e' :: c :: _ => c.isUpper || c.isDigit
  | _ => false

/-- The names that a file declares as classes or functions. -/
def declaredNames (file : FileRecord) : List String :=
  file.classes.map (·.name) ++ file.functions.map (·.name)

/-- The file declares a hook. -/
def hasHook (file : FileRecord) : Bool := file.functions.any fun f => isHookName f.name

/-- The file declares a name with the word in it. -/
def hasNameWith (word : String) (file : FileRecord) : Bool :=
  (declaredNames file).any (Text.occursIn word)

/-- The paths of the files that satisfy a test. -/
def pathsOf (test : FileRecord → Bool) (files : List FileRecord) : List String :=
  (files.filter test).map (·.path)

/-- The labels of a component with the given files. -/
def tags (files : List FileRecord) : Detector → List String
  | hooks => if files.any hasHook then ["React Hooks"] else []
  | context =>
    (if files.any (hasNameWith "Context") then ["Context Pattern"] else [])
      ++ (if files.any (hasNameWith "Provider") then ["Provider Pattern"] else [])

/-- The practice that is found in the files of a repository, if it is. -/
def detect (files : List FileRecord) : Detector → Option Pattern
  | hooks =>
    let found := pathsOf hasHook files
    if found.isEmpty then none
    else some ⟨"React Hooks Pattern", Double.ofRatio false 9 10, found,
      "Uses React hooks for state management and side effects"⟩
  | context =>
    let contexts := pathsOf (hasNameWith "Context") files
    let providers := pathsOf (hasNameWith "Provider") files
    if contexts.isEmpty || providers.isEmpty then none
    else some ⟨"Context Provider Pattern", Double.ofRatio false 8 10,
      (contexts ++ providers).eraseDups.mergeSort (· ≤ ·),
      "Uses React Context API for state management"⟩

end Detector

end CodeAtlas
