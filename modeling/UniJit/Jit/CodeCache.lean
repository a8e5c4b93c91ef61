import UniJit.Jit.CompiledCode
import UniJit.Lib.Transitions

/-!
# The code cache

The cache keeps compiled functions under a key and a fingerprint, bounded by a number of entries
and by the bytes of their executable mappings. Every operation holds the cache's mutex while it
reads and changes the state, so a run of the cache is a list of operations.

* The entries stand in the iteration order of the hash map. Removing an entry keeps the order of
  the others; inserting one may reorder the whole map, and the caller of the model chooses how.
* A subtraction that would borrow has no result. The run theorems say that none ever does.
* The tokens of the functions' assumptions are closed by other threads at any time. A publication
  reads them twice, first for the entry it finds and then for the function it brings, but it gets
  to the second reading only if the first found the entry retired or did not take place; so a
  token that is closed in between may as well have been closed before the publication.
-/

namespace UniJit.Jit

open UniJit.Lib UniJit.Runtime

/-! ## State -/

/-- The limits of a cache, which its options keep sensible. -/
structure CodeCacheLimits where
  maximumEntries : Nat := 1024
  maximumCodeBytes : Nat := 64 * 1024 * 1024
  maximumEntries_lt : maximumEntries < 2 ^ 64 := by decide
  maximumCodeBytes_lt : maximumCodeBytes < 2 ^ 64 := by decide

/-- The counters of a cache. -/
structure CodeCacheStats where
  lookups : BitVec 64 := 0
  hits : BitVec 64 := 0
  misses : BitVec 64 := 0
  publications : BitVec 64 := 0
  publicationReuses : BitVec 64 := 0
  uncachedPublications : BitVec 64 := 0
  replacements : BitVec 64 := 0
  invalidations : BitVec 64 := 0
  assumptionInvalidations : BitVec 64 := 0
  evictions : BitVec 64 := 0
  clears : BitVec 64 := 0
  residentEntries : Nat := 0
  residentCodeBytes : Nat := 0
  deriving DecidableEq, Repr

/-- The bytes that identify a function and its options. -/
abbrev CacheKey := List (BitVec 8)

/-- A resident entry. -/
structure CacheEntry where
  fingerprint : BitVec 64
  generation : BitVec 64
  lastAccess : BitVec 64
  codeBytes : Nat
  function : CompiledCode
  deriving DecidableEq

/-- What a client holds: a function and the generation it was published with. -/
structure CodeLease where
  function : CompiledCode
  generation : BitVec 64
  deriving DecidableEq

/-- The answer to a publication. -/
structure CodeCachePublication where
  status : Except Status Unit := .ok ()
  handle : Option CodeLease := none
  cached : Bool := false
  reused : Bool := false
  /-- The entries that were evicted to make room, in that order. -/
  evicted : List (CacheKey × CacheEntry) := []

/-- The order in which a hash map is iterated after an insertion. -/
structure IterationOrder where
  arrange : List (CacheKey × CacheEntry) → List (CacheKey × CacheEntry)
  perm : ∀ entries, (arrange entries).Perm entries

/-- The order in which the entries are stored. -/
def IterationOrder.keep : IterationOrder := ⟨id, List.Perm.refl⟩

/-- The cache under its mutex. -/
structure CodeCache where
  limits : CodeCacheLimits
  targetProfile : TargetProfile
  entries : List (CacheKey × CacheEntry) := []
  statistics : CodeCacheStats := {}
  accessClock : BitVec 64 := 0
  generation : BitVec 64 := 0

namespace CodeCache

/-! ## Operations -/

/-- Unsigned subtraction that does not borrow. -/
def checkedSub (a b : Nat) : Option Nat :=
  if b ≤ a then some (a - b) else none

/-- Change counters. -/
def count (c : CodeCache) (update : CodeCacheStats → CodeCacheStats) : CodeCache :=
  { c with statistics := update c.statistics }

/-- The next value of the use clock. A clock that wraps forgets the uses so far. -/
def nextStamp (c : CodeCache) : BitVec 64 × CodeCache :=
  if c.accessClock = BitVec.allOnes 64 then
    (1, { c with
      entries := c.entries.map fun (key, entry) => (key, { entry with lastAccess := 0 })
      accessClock := 1 })
  else (c.accessClock + 1, { c with accessClock := c.accessClock + 1 })

/-- The next generation of code, which skips 0. -/
def nextCodeGeneration (c : CodeCache) : BitVec 64 × CodeCache :=
  let generation := if c.generation = BitVec.allOnes 64 then 1 else c.generation + 1
  (generation, { c with generation := generation })

/-- The entry of a key. -/
def lookup (c : CodeCache) (key : CacheKey) : Option CacheEntry :=
  c.entries.lookup key

/-- Set the last use of an entry to the next stamp. -/
def touch (c : CodeCache) (key : CacheKey) : CodeCache :=
  let (stamp, c) := c.nextStamp
  { c with
    entries := c.entries.map fun (k, entry) =>
      (k, if k = key then { entry with lastAccess := stamp } else entry) }

/-- Remove an entry and its bytes. -/
def erase (c : CodeCache) (key : CacheKey) (entry : CacheEntry) : Option CodeCache := do
  let bytes ← checkedSub c.statistics.residentCodeBytes entry.codeBytes
  let entries := c.entries.eraseP (·.1 = key)
  pure { c with
    entries := entries
    statistics := { c.statistics with
      residentCodeBytes := bytes, residentEntries := entries.length } }

/-- The first of the entries with the smallest last use. -/
def minElement : List (CacheKey × CacheEntry) → Option (CacheKey × CacheEntry)
  | [] => none
  | entry :: rest =>
      some (rest.foldl (fun best e => if e.2.lastAccess < best.2.lastAccess then e else best) entry)

/-- Evict one entry, if there is one. -/
def evictOne (c : CodeCache) : Option (Option (CacheKey × CacheEntry) × CodeCache) :=
  match minElement c.entries with
  | none => some (none, c)
  | some victim => do
      let c ← c.erase victim.1 victim.2
      pure (some victim, c.count fun s => { s with evictions := s.evictions + 1 })

/-- The condition of the eviction loop. -/
def mustEvict (c : CodeCache) (room : Nat) : Bool :=
  c.limits.maximumEntries ≤ c.entries.length ∨ room < c.statistics.residentCodeBytes

/-- The eviction loop: the victims, whether the loop ended because the new entry fits, and the
cache. Each round removes an entry, so `fuel` beyond the number of entries is never used up. -/
def evictToFit (room : Nat) :
    Nat → CodeCache → Option (List (CacheKey × CacheEntry) × Bool × CodeCache)
  | 0, c => some ([], false, c)
  | fuel + 1, c =>
      if c.mustEvict room then do
        let (victim, c) ← c.evictOne
        match victim with
        | none => pure ([], false, c)
        | some victim => do
            let (victims, fits, c) ← evictToFit room fuel c
            pure (victim :: victims, fits, c)
      else some ([], true, c)

/-- Remove an entry whose assumptions failed. -/
def retire (c : CodeCache) (key : CacheKey) (entry : CacheEntry) : Option CodeCache := do
  let c ← c.erase key entry
  pure (c.count fun s => { s with assumptionInvalidations := s.assumptionInvalidations + 1 })

/-- Counts a miss. -/
def miss (c : CodeCache) : Option CodeLease × CodeCache :=
  (none, c.count fun s => { s with misses := s.misses + 1 })

/-- Counts a hit and marks the entry as used. -/
def hit (c : CodeCache) (key : CacheKey) (entry : CacheEntry) : Option CodeLease × CodeCache :=
  (some ⟨entry.function, entry.generation⟩,
    (c.count fun s => { s with hits := s.hits + 1 }).touch key)

/-- Looks for code, dropping an entry that is not valid any more. -/
def find (c : CodeCache) (valid : Token → Bool) (key : CacheKey) (fingerprint : BitVec 64) :
    Option (Option CodeLease × CodeCache) :=
  let c := c.count fun s => { s with lookups := s.lookups + 1 }
  match c.lookup key with
  | none => some c.miss
  | some entry =>
      if entry.fingerprint ≠ fingerprint then some c.miss
      else if entry.function.assumptions.firstInvalid valid ≠ none then do
        let c ← c.retire key entry
        pure c.miss
      else some (c.hit key entry)

/-- The checks of a publication before it takes the lock. -/
def checkPublication (c : CodeCache) (key : CacheKey) (function : Option CompiledCode) :
    Except Status CompiledCode := do
  require (key ≠ []) ⟨.invalidArgument, "code cache key cannot be empty", 0⟩
  match function with
  | none => .error ⟨.invalidArgument, "cannot publish a null compiled function", 0⟩
  | some function => do
      require (validateTargetProfile c.targetProfile = .ok ())
        ⟨.invalidArgument, "code cache has an invalid target profile", 0⟩
      require (targetProfilesEqual function.targetProfile c.targetProfile)
        ⟨.invalidArgument, "compiled function target does not match the code cache", 0⟩
      pure function

/-- Hands out code without keeping it. -/
def uncached (c : CodeCache) (lease : CodeLease) (evicted : List (CacheKey × CacheEntry)) :
    CodeCachePublication × CodeCache :=
  ({ handle := some lease, evicted := evicted },
    c.count fun s => { s with uncachedPublications := s.uncachedPublications + 1 })

/-- Add an entry for a key that has none. -/
def insert (c : CodeCache) (order : IterationOrder) (key : CacheKey) (fingerprint : BitVec 64)
    (lease : CodeLease) (evicted : List (CacheKey × CacheEntry)) :
    CodeCachePublication × CodeCache :=
  let codeBytes := lease.function.executableMappingSize
  let (stamp, c) := c.nextStamp
  let entries := order.arrange
    ((key, ⟨fingerprint, lease.generation, stamp, codeBytes, lease.function⟩) :: c.entries)
  ({ handle := some lease, cached := true, evicted := evicted }, { c with
    entries := entries
    statistics := { c.statistics with
      residentEntries := entries.length
      residentCodeBytes := (c.statistics.residentCodeBytes + codeBytes) % 2 ^ 64 } })

/-- Remove the entry that a publication replaces. -/
def replace (c : CodeCache) (key : CacheKey) : Option CacheEntry → Option CodeCache
  | none => some c
  | some entry => do
      let c ← c.erase key entry
      pure (c.count fun s => { s with replacements := s.replacements + 1 })

/-- Make room for a function and insert it. `emplace` inserts nothing where the key is taken. -/
def place (c : CodeCache) (order : IterationOrder) (key : CacheKey) (fingerprint : BitVec 64)
    (lease : CodeLease) : Option (CodeCachePublication × CodeCache) := do
  let room ← checkedSub c.limits.maximumCodeBytes lease.function.executableMappingSize
  let (victims, fits, c) ← evictToFit room (c.entries.length + 1) c
  if ¬ fits then pure (c.uncached lease victims)
  else if (c.lookup key).isSome then pure (c.uncached lease victims)
  else pure (c.insert order key fingerprint lease victims)

/-- The second half of a publication: a new generation takes the place of `existing`. -/
def publishNew (c : CodeCache) (valid : Token → Bool) (order : IterationOrder) (key : CacheKey)
    (fingerprint : BitVec 64) (function : CompiledCode) (existing : Option CacheEntry) :
    Option (CodeCachePublication × CodeCache) :=
  let (generation, c) := c.nextCodeGeneration
  let lease : CodeLease := ⟨function, generation⟩
  if function.assumptions.firstInvalid valid ≠ none ∨ c.limits.maximumEntries = 0 ∨
      c.limits.maximumCodeBytes < function.executableMappingSize then
    some (c.uncached lease [])
  else do
    let c ← c.replace key existing
    c.place order key fingerprint lease

/-- A publication of an identity that is resident. -/
def reuse (c : CodeCache) (key : CacheKey) (existing : CacheEntry) :
    CodeCachePublication × CodeCache :=
  ({ handle := some ⟨existing.function, existing.generation⟩, cached := true, reused := true },
    (c.count fun s => { s with publicationReuses := s.publicationReuses + 1 }).touch key)

/-- A publication, once it holds the lock. -/
def publishLocked (c : CodeCache) (valid : Token → Bool) (order : IterationOrder) (key : CacheKey)
    (fingerprint : BitVec 64) (function : CompiledCode) :
    Option (CodeCachePublication × CodeCache) :=
  let c := c.count fun s => { s with publications := s.publications + 1 }
  match c.lookup key with
  | none => c.publishNew valid order key fingerprint function none
  | some existing =>
      if existing.fingerprint ≠ fingerprint then
        c.publishNew valid order key fingerprint function (some existing)
      else if existing.function.assumptions.firstInvalid valid = none then
        some (c.reuse key existing)
      else do
        let c ← c.retire key existing
        c.publishNew valid order key fingerprint function none

/-- Publishes code, evicting as much as it needs. -/
def publish (c : CodeCache) (valid : Token → Bool) (order : IterationOrder) (key : CacheKey)
    (fingerprint : BitVec 64) (function : Option CompiledCode) :
    Option (CodeCachePublication × CodeCache) :=
  match c.checkPublication key function with
  | .error status => some ({ status := .error status }, c)
  | .ok function => c.publishLocked valid order key fingerprint function

/-- Remove the entry of a key, if it has one that meets a condition. -/
def invalidateIf (c : CodeCache) (key : CacheKey) (applies : CacheEntry → Bool) :
    Option (Bool × CodeCache) :=
  match c.lookup key with
  | none => some (false, c)
  | some entry =>
      if ¬ applies entry then some (false, c)
      else do
        let c ← c.erase key entry
        pure (true, c.count fun s => { s with invalidations := s.invalidations + 1 })

/-- Drops the entry of a key. -/
def invalidate (c : CodeCache) (key : CacheKey) : Option (Bool × CodeCache) :=
  c.invalidateIf key fun _ => true

/-- Drops the entry of a key when it has the fingerprint. -/
def invalidateFingerprint (c : CodeCache) (key : CacheKey) (fingerprint : BitVec 64) :
    Option (Bool × CodeCache) :=
  c.invalidateIf key fun entry => entry.fingerprint = fingerprint

/-- Drops every entry. -/
def clear (c : CodeCache) : CodeCache :=
  { c with
    entries := []
    statistics := { c.statistics with
      residentEntries := 0, residentCodeBytes := 0, clears := c.statistics.clears + 1 } }

end CodeCache

/-! ## Runs -/

/-- The operations on a cache, and the closing of a token by another thread. -/
inductive CacheOperation
  | find (key : CacheKey) (fingerprint : BitVec 64)
  | publish (order : IterationOrder) (key : CacheKey) (fingerprint : BitVec 64)
      (function : Option CompiledCode)
  | invalidate (key : CacheKey)
  | invalidateFingerprint (key : CacheKey) (fingerprint : BitVec 64)
  | clear
  | closeToken (token : Token)

/-- A cache with its surroundings. The last two fields record the run: which keys were used, by a
hit, a publication or a reuse, and how many entries were resident when `clear` was called. -/
structure CacheRun where
  cache : CodeCache
  closed : List Token := []
  uses : List CacheKey := []
  cleared : Nat := 0

namespace CacheRun

/-- A new cache. -/
def create (limits : CodeCacheLimits) (targetProfile : TargetProfile) : CacheRun :=
  { cache := { limits := limits, targetProfile := targetProfile } }

/-- An assumption that no one has invalidated. -/
def valid (r : CacheRun) (token : Token) : Bool := token ∉ r.closed

/-- Looks for code under the assumptions of the run. -/
def find (r : CacheRun) (key : CacheKey) (fingerprint : BitVec 64) :
    Option (Option CodeLease × CodeCache) :=
  r.cache.find r.valid key fingerprint

/-- Publishes code under the assumptions of the run. -/
def publish (r : CacheRun) (order : IterationOrder) (key : CacheKey) (fingerprint : BitVec 64)
    (function : Option CompiledCode) : Option (CodeCachePublication × CodeCache) :=
  r.cache.publish r.valid order key fingerprint function

/-- One operation on the cache. -/
def step (r : CacheRun) : CacheOperation → Option CacheRun
  | .find key fingerprint => do
      let (found, cache) ← r.find key fingerprint
      pure { r with cache := cache, uses := if found.isSome then r.uses ++ [key] else r.uses }
  | .publish order key fingerprint function => do
      let (publication, cache) ← r.publish order key fingerprint function
      pure { r with
        cache := cache, uses := if publication.cached then r.uses ++ [key] else r.uses }
  | .invalidate key => do
      let (_, cache) ← r.cache.invalidate key
      pure { r with cache := cache }
  | .invalidateFingerprint key fingerprint => do
      let (_, cache) ← r.cache.invalidateFingerprint key fingerprint
      pure { r with cache := cache }
  | .clear =>
      some { r with
        cache := r.cache.clear, cleared := r.cleared + r.cache.entries.length }
  | .closeToken token => some { r with closed := token :: r.closed }

end CacheRun

end UniJit.Jit
