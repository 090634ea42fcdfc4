import CodeAtlas.Number.Binary64

/-!
# A bounded store

A store keeps a bounded number of values by key.  When it is full, the entry that was put or found
longest ago is dropped; an entry that is older than the time to live is not found and is dropped
when it is asked for.  Times are those of any clock that can be compared and subtracted.

`Store.expire` drops every entry that is too old at once; a store that expires before each operation
is the reference for one that does not.
-/

namespace CodeAtlas

/-- What a store needs to know of its clock. -/
class Clock (τ : Type) where
  /-- More than the given span has gone by from the first moment to the second. -/
  exceeds : (start now span : τ) → Bool

/-- An entry of a store. -/
structure StoreEntry (α τ : Type) where
  key : String
  storedAt : τ
  value : α
deriving DecidableEq, Inhabited

/-- A bounded store.  Its entries stand in the order in which they were last put or found, the
latest last. -/
structure Store (α τ : Type) where
  capacity : Nat
  timeToLive : Option τ
  entries : List (StoreEntry α τ)
  capacity_pos : 0 < capacity
deriving DecidableEq

/-- Why there is no store. -/
inductive StoreError where
  | noCapacity
deriving DecidableEq, Inhabited

/-- The wording of the error. -/
def StoreError.message : StoreError → String
  | noCapacity => "max_entries must be at least 1"

namespace Store

variable {α τ : Type}

/-- The number of entries that a store keeps unless another is chosen. -/
def standardCapacity : Int := 128

/-- The time to live in seconds unless another is chosen. -/
def standardTimeToLive : Nat := 3600

/-- The empty store of the given capacity, which must be at least one. -/
def create (capacity : Int) (timeToLive : Option τ) : Except StoreError (Store α τ) :=
  if h : 0 < capacity.toNat then .ok ⟨capacity.toNat, timeToLive, [], h⟩ else .error .noCapacity

/-- The keys, the latest put or found last. -/
def keys (s : Store α τ) : List String := s.entries.map (·.key)

/-- The number of entries. -/
def size (s : Store α τ) : Nat := s.entries.length

/-- The entry of a key. -/
def entry? (s : Store α τ) (key : String) : Option (StoreEntry α τ) :=
  s.entries.find? (·.key == key)

/-- The entries of the other keys. -/
def without (key : String) (entries : List (StoreEntry α τ)) : List (StoreEntry α τ) :=
  entries.filter (·.key != key)

/-- The latest entries, as many as the store can keep. -/
def latest (capacity : Nat) (entries : List (StoreEntry α τ)) : List (StoreEntry α τ) :=
  entries.drop (entries.length - capacity)

/-- Puts a value under a key. -/
def put (now : τ) (key : String) (value : α) (s : Store α τ) : Store α τ :=
  { s with entries := latest s.capacity (without key s.entries ++ [⟨key, now, value⟩]) }

/-- The entry is too old. -/
def isExpired [Clock τ] (timeToLive : Option τ) (now : τ) (e : StoreEntry α τ) : Bool :=
  match timeToLive with
  | none => false
  | some span => Clock.exceeds e.storedAt now span

/-- Looks for the value of a key: what is found becomes the latest, what is too old is dropped. -/
def get [Clock τ] (now : τ) (key : String) (s : Store α τ) : Option α × Store α τ :=
  match s.entry? key with
  | none => (none, s)
  | some e =>
    if isExpired s.timeToLive now e then (none, { s with entries := without key s.entries })
    else (some e.value, { s with entries := without key s.entries ++ [e] })

/-- Drops the entry of a key. -/
def invalidate (key : String) (s : Store α τ) : Store α τ :=
  { s with entries := without key s.entries }

/-- Drops every entry. -/
def clear (s : Store α τ) : Store α τ := { s with entries := [] }

/-- Drops every entry that is too old. -/
def expire [Clock τ] (now : τ) (s : Store α τ) : Store α τ :=
  { s with entries := s.entries.filter (!isExpired s.timeToLive now ·) }

/-! ### Runs -/

/-- An operation on a store. -/
inductive Operation (α : Type) where
  | put (key : String) (value : α)
  | get (key : String)
  | invalidate (key : String)
  | clear
deriving DecidableEq

/-- Performs an operation; only `get` may find a value. -/
def perform [Clock τ] (now : τ) (op : Operation α) (s : Store α τ) : Option α × Store α τ :=
  match op with
  | .put key value => (none, s.put now key value)
  | .get key => s.get now key
  | .invalidate key => (none, s.invalidate key)
  | .clear => (none, s.clear)

/-- Performs operations at given times one after the other and returns what each found. -/
def run [Clock τ] : List (τ × Operation α) → Store α τ → List (Option α) × Store α τ
  | [], s => ([], s)
  | (now, op) :: rest, s =>
    let (found, s) := s.perform now op
    let (more, s) := run rest s
    (found :: more, s)

/-- As `run`, but whatever is too old is dropped before each operation. -/
def runExpiring [Clock τ] : List (τ × Operation α) → Store α τ → List (Option α) × Store α τ
  | [], s => ([], s)
  | (now, op) :: rest, s =>
    let (found, s) := (s.expire now).perform now op
    let (more, s) := runExpiring rest s
    (found :: more, s)

end Store

/-- Whole units of time. -/
instance : Clock Int where
  exceeds start now span := span < now - start

/-- Units of time and fractions of them. -/
instance : Clock Double where
  exceeds start now span := span.lt (now.sub start)

end CodeAtlas
