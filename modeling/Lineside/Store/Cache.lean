import Lineside.Number.Duration
import Lineside.Script.Basic

/-!
A cache of scripts by signal type. An entry can be read until it is older than the cache's lifetime. When
there are more entries than the cache holds, those past their lifetime go first, and then the oldest.
-/

namespace Lineside

/-- What a clock says: the nanoseconds that it has counted. It has as many bits for them as a duration, so an age is
always one. -/
abbrev Instant := Fin 9223372036854775808

instance Instant.ofNat (count : Nat) : OfNat Instant count := ⟨⟨count % 9223372036854775808, Nat.mod_lt count (by decide)⟩⟩

structure CacheEntry where
  kind : Name
  script : Script
  time : Instant

namespace CacheEntry

def age (entry : CacheEntry) (now : Instant) : Int := now.val - entry.time.val

end CacheEntry

/-- What a call learns while it uses a cache: what the clock says each time it is read, and which of several
oldest entries is met first. -/
structure Moment where
  asked : Instant
  stamped : Instant
  swept : Instant
  /-- The position among the oldest entries of the one that goes, for each that has to go. -/
  choices : Nat → Nat

namespace Moment

def instant (now : Instant) : Moment where
  asked := now
  stamped := now
  swept := now
  choices := fun _ => 0

def start : Moment := instant 0

end Moment

structure Cache where
  capacity : Nat
  lifetime : Int
  /-- In the order in which they were put. -/
  entries : List CacheEntry := []

namespace Cache

/-- An empty cache. A size or lifetime that is not positive selects the usual one. -/
def new (size : Int64) (lifetime : Duration) : Cache where
  capacity := if 0 < size then size.toInt.toNat else 1000
  lifetime := if 0 < lifetime.nanoseconds then lifetime.nanoseconds.toInt else Duration.hour.nanoseconds.toInt

def get (cache : Cache) (now : Instant) (kind : Name) : Option Script :=
  (cache.entries.find? (·.kind == kind)).bind fun entry =>
    if cache.lifetime < entry.age now then none else some entry.script

def invalidate (cache : Cache) (kind : Name) : Cache :=
  { cache with entries := cache.entries.filter (·.kind != kind) }

def oldest (entries : List CacheEntry) : List CacheEntry :=
  entries.filter fun entry => entries.all fun other => decide (entry.time ≤ other.time)

def dropOldest (choice : Nat) (entries : List CacheEntry) : List CacheEntry :=
  match (oldest entries)[choice % (oldest entries).length]? with
  | some victim => entries.filter (·.kind != victim.kind)
  | none => entries

def dropMany (choices : Nat → Nat) : Nat → List CacheEntry → List CacheEntry
  | 0, entries => entries
  | count + 1, entries => dropMany choices count (dropOldest (choices count) entries)

def evict (cache : Cache) (now : Instant) (choices : Nat → Nat) : Cache :=
  if cache.entries.length ≤ cache.capacity then cache else
  let fresh := cache.entries.filter fun entry => decide (now.val - cache.lifetime ≤ entry.time.val)
  { cache with entries := dropMany choices (fresh.length - cache.capacity) fresh }

def put (cache : Cache) (moment : Moment) (kind : Name) (script : Script) : Cache :=
  evict { cache with entries := (cache.invalidate kind).entries ++ [⟨kind, script, moment.stamped⟩] }
    moment.swept moment.choices

def size (cache : Cache) : Nat := cache.entries.length

def kinds (cache : Cache) : List Name :=
  (cache.entries.map (·.kind)).mergeSort fun a b => decide (a ≤ b)

end Cache

end Lineside
