import CodeAtlas.Failure
import CodeAtlas.FileSystem.Basic
import CodeAtlas.Repository.Identifier
import CodeAtlas.Text.Blank

/-!
# Checkouts

A repository is fetched into a local directory.  A local one is used where it is and never removed;
a remote one is cloned into a new directory, which is removed when it is given back.  What a clone
brings about is given from outside, as is the end of the name of the new directory.
-/

namespace CodeAtlas

/-- A call of the program that clones. -/
inductive CloneCall where
  | clone (url : String) (depth : Option Int)
  | close
deriving DecidableEq, Inhabited

/-- What becomes of an attempt to clone a repository. -/
inductive CloneResult where
  /-- Nothing was cloned. -/
  | failed (cause : Failure)
  /-- Cloning broke off when these files had been written. -/
  | brokenOff (files : List (String × Entry)) (cause : Failure)
  /-- The files of the repository, and why it could not be closed behind that, if so. -/
  | cloned (files : List (String × Entry)) (closing : Option Failure)
deriving Inhabited

namespace CloneResult

/-- The files that are in the new directory afterwards. -/
def files : CloneResult → List (String × Entry)
  | failed _ => []
  | brokenOff files _ | cloned files _ => files

/-- Why the attempt failed, if it did. -/
def failure? : CloneResult → Option Failure
  | failed cause | brokenOff _ cause => some cause
  | cloned _ closing => closing

/-- The calls that are made in the attempt; what was cloned is closed. -/
def calls (clone : CloneCall) : CloneResult → List CloneCall
  | failed _ | brokenOff .. => [clone]
  | cloned .. => [clone, .close]

end CloneResult

/-- How remote repositories are cloned: how much of their history, with which access token, and
below which directory. -/
structure GitFetcher where
  depth : Option Int
  token : Option String
  tempRoot : Option Path
deriving DecidableEq, Inhabited

namespace GitFetcher

/-- The token, unless it is empty. -/
def token? (g : GitFetcher) : Option String := g.token.filter (· != "")

/-- The beginning of the addresses to which the token is added. -/
def tokenHost : String := "https://github.com/"

/-- The scheme of the addresses to which the token is added. -/
def tokenScheme : String := "https://"

/-- The address that is cloned: the token is added where it is of use. -/
def cloneUrl (g : GitFetcher) (url : String) : String :=
  match g.token? with
  | some token =>
    if Text.beginsWith tokenHost url then
      tokenScheme ++ token ++ "@" ++ String.ofList (url.toList.drop tokenScheme.length)
    else url
  | none => url

/-- What is written for the token. -/
def mask : String := "***"

/-- A text in which the token is masked. -/
def redact (g : GitFetcher) (text : String) : String :=
  match g.token? with
  | some token => Text.replace token mask text
  | none => text

/-- The depth that is asked for, zero being none. -/
def depth? (g : GitFetcher) : Option Int := g.depth.filter (· ≠ 0)

/-- The kinds of failures that make a repository unavailable: failures of the program that clones,
of the system and of values. -/
def unavailabilityKinds : List String := ["GitError", "OSError", "ValueError"]

/-- Failures that make a repository unavailable, which all special cases of their kinds do; others
are none of the fetcher's business. -/
def isUnavailability : Failure → Bool
  | .foreign kind _ => unavailabilityKinds.any kind.isA
  | .file .. => true
  | _ => false

theorem isUnavailability_specialize {kind : FailureKind} {message : String}
    (h : isUnavailability (.foreign kind message) = true) (name : String) :
    isUnavailability (.foreign (kind.specialize name) message) = true := by
  obtain ⟨general, hmem, hgeneral⟩ := List.any_eq_true.mp h
  exact List.any_eq_true.mpr ⟨general, hmem, FailureKind.isA_specialize hgeneral name⟩

/-- Where the system keeps what is temporary, unless it is told otherwise. -/
def standardTempRoot : Path := ⟨1, ["tmp"]⟩

/-- The directory below which checkouts are made; the system has one for the purpose. -/
def parent (g : GitFetcher) (systemRoot : Path) : Path := g.tempRoot.getD systemRoot

/-- The directory for a repository; `ending` sets it apart from others for the same one. -/
def target (g : GitFetcher) (identifier ending : String) (systemRoot : Path) : Path :=
  (g.parent systemRoot).join
    (.ofText ("navvi-" ++ Repository.nameOf identifier ++ "-" ++ ending))

/-- Removes a checkout, if it is there. -/
def release (p : Path) (fs : FileSystem) : FileSystem :=
  match fs.lookUp p with
  | .ok _ => fs.removeDirectory p
  | .error _ => fs

/-- What is left after a failed clone: the checkout is removed and the failure is that of a fetch,
unless it is none of the fetcher's business. -/
def afterFailure (g : GitFetcher) (identifier : String) (fs : FileSystem) (target : Path)
    (cause : Failure) : Failure × FileSystem :=
  if isUnavailability cause then
    (.fetch identifier (g.redact (Text.strip cause.message)) (some cause), release target fs)
  else (cause, fs)

/-- Makes sure of the directory below which checkouts are made, and says why if that fails. -/
def prepare (g : GitFetcher) (fs : FileSystem) : Option Failure × FileSystem :=
  match g.tempRoot with
  | none => (none, fs)
  | some p =>
    match fs.ensureDirectories p with
    | .ok fs => (none, fs)
    | .error e => (some (.file e p.toText), fs.makeFrom { p with parts := [] } p.parts)

/-- Clones a repository into a directory that is there, which is removed if that fails. -/
def cloneInto (g : GitFetcher) (identifier : String) (target : Path) (result : CloneResult)
    (fs : FileSystem) : Except Failure Path × FileSystem :=
  let fs := fs.fillDirectory target result.files
  match result.failure? with
  | none => (.ok target, fs)
  | some cause =>
    let (e, fs) := g.afterFailure identifier fs target cause
    (.error e, fs)

/-- Clones a repository into a new directory. -/
def fetch (g : GitFetcher) (identifier ending : String) (result : CloneResult) (fs : FileSystem)
    (systemRoot : Path := standardTempRoot) :
    Except Failure Path × FileSystem × List CloneCall :=
  match g.prepare fs with
  | (some e, fs) => (.error e, fs, [])
  | (none, fs) =>
    let target := g.target identifier ending systemRoot
    match fs.makeDirectory target with
    | .error e => (.error (.file e target.toText), fs, [])
    | .ok fs =>
      let (found, fs) := g.cloneInto identifier target result fs
      (found, fs, result.calls (.clone (g.cloneUrl identifier) g.depth?))

end GitFetcher

namespace LocalFetcher

/-- A path in which `~` at the beginning stands for the home directory.  Nothing is known of the
homes of others. -/
def expandHome (home p : Path) : Except Failure Path :=
  if p.isAbsolute then .ok p
  else match p.parts with
    | [] => .ok p
    | first :: rest =>
      if first = "~" then .ok { home with parts := home.parts ++ rest }
      else if Text.beginsWith "~" first then
        .error (.foreign "RuntimeError" "Could not determine home directory.")
      else .ok p

/-- The directory of a local repository. -/
def fetch (home : Path) (identifier : String) (fs : FileSystem) : Except Failure Path := do
  let p ← expandHome home (.ofText identifier)
  match fs.isDirectory p with
  | .error e => throw (.file e p.toText)
  | .ok false => throw (.fetch identifier "not a directory" none)
  | .ok true =>
    match fs.locate p with
    | .ok l => return FileSystem.pathOf l
    | .error e => throw (.file e p.toText)

end LocalFetcher

/-- Where repositories are fetched from: local directories, remote ones, or either by its
identifier. -/
inductive Fetcher where
  | localOnly
  | remoteOnly (git : GitFetcher)
  | either (git : GitFetcher)
deriving DecidableEq, Inhabited

/-- A file system with the checkouts in it that were cloned and not given back. -/
structure Checkouts where
  fileSystem : FileSystem
  owned : List Path
deriving Inhabited

namespace Fetcher

/-- Fetches a repository. -/
def fetch (f : Fetcher) (home : Path) (identifier ending : String) (result : CloneResult)
    (c : Checkouts) (systemRoot : Path := GitFetcher.standardTempRoot) :
    Except Failure Path × Checkouts × List CloneCall :=
  let fromRemote (git : GitFetcher) (owns : Bool) :=
    let (found, fs, calls) := git.fetch identifier ending result c.fileSystem systemRoot
    match found with
    | .ok p => (.ok p, ⟨fs, if owns then p :: c.owned else c.owned⟩, calls)
    | .error e => (.error e, { c with fileSystem := fs }, calls)
  let fromLocal := (LocalFetcher.fetch home identifier c.fileSystem, c, [])
  match f with
  | localOnly => fromLocal
  | remoteOnly git => fromRemote git false
  | either git => if Repository.isRemote identifier then fromRemote git true else fromLocal

/-- Gives a directory back; only a checkout that was cloned is removed. -/
def release (f : Fetcher) (p : Path) (c : Checkouts) : Checkouts :=
  match f with
  | localOnly => c
  | remoteOnly _ => { c with fileSystem := GitFetcher.release p c.fileSystem }
  | either _ =>
    if c.owned.contains p then
      ⟨GitFetcher.release p c.fileSystem, c.owned.filter (· != p)⟩
    else c

end Fetcher

end CodeAtlas
