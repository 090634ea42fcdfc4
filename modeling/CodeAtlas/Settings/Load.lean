import CodeAtlas.Settings.Basic
import CodeAtlas.Settings.Dotenv
import CodeAtlas.Settings.Field
import CodeAtlas.Text.Utf8

/-!
# Loading settings

Settings come from variables of the environment and of a file; those of the environment come first.
Names of variables are compared without regard to case.  A whole section may be given in one
variable as an object, which comes before the variables of its settings.
-/

namespace CodeAtlas

/-- Why settings cannot be loaded. -/
inductive SettingsError where
  /-- A value that has to be JSON is none. -/
  | unreadable
  /-- Values are not what they have to be. -/
  | invalid (errors : List FieldError)
deriving DecidableEq, Inhabited

/-- Variables by their names in lower case. -/
abbrev NamedValues := List (String × String)

/-- Where settings are looked for, in order. -/
structure SettingsSources where
  environment : NamedValues
  file : NamedValues
deriving DecidableEq, Inhabited

namespace SettingsSources

/-- Variables under their names in lower case; of several that become the same, the last one counts.
-/
def lowered (given : List (String × String)) : NamedValues :=
  given.map fun (name, v) => (Text.lower name, v)

/-- The value of a variable. -/
def find? (name : String) (values : NamedValues) : Option String :=
  (values.reverse.find? (·.1 == Text.lower name)).map (·.2)

/-- The sources for an environment and the text of a file, if there is one. -/
def create (environment : List (String × String)) (file : Option String) : SettingsSources :=
  let held := match file with
    | some text => Dotenv.parse environment (Text.unifyLineEnds text)
    | none => []
  ⟨lowered environment,
    lowered (held.filterMap fun (name, v) => v.map fun v => (name, v))⟩

end SettingsSources

namespace Json

/-- Two values of which the first comes first: objects are merged, member by member. -/
def mergeAt (combine : Json → Json → Json) (first second : List (String × Json)) :
    List (String × Json) :=
  second.map (fun (k, v) =>
      match first.find? (·.1 == k) with
      | some (_, w) => (k, combine w v)
      | none => (k, v))
    ++ first.filter fun (k, _) => !second.any (·.1 == k)

/-- Merges two values to the given depth; where they are no objects the first one counts. -/
def merge : Nat → Json → Json → Json
  | depth + 1, .obj a, .obj b => .obj (mergeAt (merge depth) a b)
  | _, a, _ => a

end Json

namespace Settings

/-- The value of a variable that is plain text. -/
def plain (s : SettingsSources) (name : String) : Option Json :=
  ((SettingsSources.find? name s.environment).or (SettingsSources.find? name s.file)).map .str

/-- The value of a variable that is JSON in one source; null counts as no value. -/
def decoded (name : String) (values : NamedValues) : Except SettingsError (Option Json) :=
  match SettingsSources.find? name values with
  | none => .ok none
  | some text =>
    match Json.parse? text with
    | none => .error .unreadable
    | some .null => .ok none
    | some j => .ok (some j)

/-- Objects within objects are merged to this depth. -/
def mergeDepth : Nat := 8

/-- The value of a variable that is JSON in all sources. -/
def complex (s : SettingsSources) (name : String) : Except SettingsError (Option Json) := do
  let first ← decoded name s.environment
  let second ← decoded name s.file
  match first, second with
  | some a, some b => return some (Json.merge mergeDepth a b)
  | some a, none => return some a
  | none, b => return b

/-- The members of a section that was given as an object. -/
abbrev Given := List (String × Json)

/-- The value that a section was given for a setting. -/
def given? (g : Given) (name : String) : Option Json :=
  (g.reverse.find? fun (k, _) => Text.lower k == Text.lower name).map (·.2)

/-- A setting: what the section was given, what a variable holds, or the standard. -/
def setting {α : Type} (g : Given) (name : String) (variable_ : Option Json) (standard : α)
    (read : Json → Checked α) : Checked α :=
  match (given? g name).or variable_ with
  | some j => read j
  | none => .ok standard

/-- Settings that are complete, or their faults. -/
def finish {α : Type} (c : Checked α) : Except SettingsError α := c.mapError .invalid

/-- A setting that is plain text in variables. -/
def plainSetting {α : Type} (s : SettingsSources) (g : Given) (name : String) (standard : α)
    (read : Json → Except FieldFault α) : Checked α :=
  setting g name (plain s name) standard (FieldValue.at_ name read)

/-- The section of the analysis. -/
def analysisSection (s : SettingsSources) (g : Given) : Except SettingsError AnalysisSettings := do
  let d := standard.analysis
  let texts (name : String) (standard : List String) (variable_ : Option Json) :=
    setting g name variable_ standard (FieldValue.texts name)
  let integer (name : String) (standard : Int) :=
    plainSetting s g name standard FieldValue.integer
  let extensions ← complex s "NAVVI_EXTENSIONS"
  let patterns ← complex s "NAVVI_IGNORE_PATTERNS"
  finish (Checked.of AnalysisSettings.mk
    |> Checked.give (texts "NAVVI_EXTENSIONS" d.extensions extensions)
    |> Checked.give (texts "NAVVI_IGNORE_PATTERNS" d.ignorePatterns patterns)
    |> Checked.give (integer "NAVVI_MAX_FILE_SIZE" d.maxFileSize)
    |> Checked.give (integer "NAVVI_COMPLEXITY_THRESHOLD" d.complexityThreshold)
    |> Checked.give (integer "NAVVI_MAX_WORKERS" d.maxWorkers))

/-- The section of the repositories. -/
def gitSection (s : SettingsSources) (g : Given) : Except SettingsError GitSettings :=
  let d := standard.git
  let text (name : String) (standard : Option String) :=
    plainSetting s g name standard (FieldValue.optional FieldValue.text)
  finish (Checked.of GitSettings.mk
    |> Checked.give
      (plainSetting s g "CLONE_DEPTH" d.cloneDepth (FieldValue.optional FieldValue.integer))
    |> Checked.give (text "GITHUB_TOKEN" d.token)
    |> Checked.give (text "NAVVI_TEMP_DIR" d.tempDirectory)
    |> Checked.give
      (plainSetting s g "NAVVI_ENABLE_HISTORY" d.usesHistory FieldValue.truthValue))

/-- The section of the store. -/
def cacheSection (s : SettingsSources) (g : Given) : Except SettingsError CacheSettings :=
  let d := standard.cache
  finish (Checked.of CacheSettings.mk
    |> Checked.give
      (plainSetting s g "NAVVI_CACHE_MAX_ENTRIES" d.maxEntries FieldValue.integer)
    |> Checked.give
      (plainSetting s g "NAVVI_CACHE_TTL_SECONDS" d.timeToLive
        (FieldValue.optional FieldValue.number)))

/-- The section of the log. -/
def logSection (s : SettingsSources) (g : Given) : Except SettingsError LogSettings :=
  let d := standard.log
  finish (Checked.of LogSettings.mk
    |> Checked.give (plainSetting s g "LOG_LEVEL" d.level FieldValue.text)
    |> Checked.give
      (plainSetting s g "LOG_FILE" d.file (FieldValue.optional FieldValue.text)))

/-- A section: faults in one that was given lie below its name, and others end the loading. -/
def loadSection {α : Type} (name : String) (value : Option Json)
    (read : Given → Except SettingsError α) : Except SettingsError (Checked α) :=
  match value with
  | none => (read []).map .ok
  | some (.obj members) =>
    match read members with
    | .ok a => .ok (.ok a)
    | .error .unreadable => .ok (.error [⟨[name], .unusable⟩])
    | .error (.invalid errors) =>
      .ok (.error (errors.map fun e => { e with place := name :: e.place }))
  | some _ => .ok (.error [⟨[name], .sectionKind⟩])

/-- The settings that sources hold. -/
def load (s : SettingsSources) : Except SettingsError Settings := do
  let analysis ← complex s "analysis"
  let git ← complex s "git"
  let cache ← complex s "cache"
  let log ← complex s "logging"
  let analysis ← loadSection "analysis" analysis (analysisSection s)
  let git ← loadSection "git" git (gitSection s)
  let cache ← loadSection "cache" cache (cacheSection s)
  let log ← loadSection "logging" log (logSection s)
  finish (Checked.of Settings.mk |> Checked.give analysis |> Checked.give git
    |> Checked.give cache |> Checked.give log)

end Settings

/-- Settings that were loaded at some time; the number counts how often that was. -/
structure LoadedSettings where
  current : Option Settings
  generation : Nat
deriving DecidableEq, Inhabited

namespace LoadedSettings

/-- Nothing has been loaded. -/
def start : LoadedSettings := ⟨none, 0⟩

/-- The settings, which are loaded if they have not been. -/
def get (l : LoadedSettings) (s : SettingsSources) :
    Except SettingsError Settings × LoadedSettings :=
  match l.current with
  | some settings => (.ok settings, l)
  | none =>
    match Settings.load s with
    | .ok settings => (.ok settings, ⟨some settings, l.generation + 1⟩)
    | .error e => (.error e, l)

/-- The settings, loaded anew. -/
def reload (l : LoadedSettings) (s : SettingsSources) :
    Except SettingsError Settings × LoadedSettings :=
  { l with current := none }.get s

end LoadedSettings

end CodeAtlas
