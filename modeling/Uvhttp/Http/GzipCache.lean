import Uvhttp.Basic

namespace uvhttp.gzip

/-- `sizeof(gzip_cache_entry_t)`. -/
def GZIP_CACHE_ENTRY_OVERHEAD : Nat := 56

/-- `gzip_cache_entry_t`, one slot. The stream is `none` for a NULL pointer and
otherwise holds its `compressed_len` bytes. -/
structure GzipEntry where
  hash : UInt64
  body_len : Nat
  compressed : Option (List UInt8)
  valid : Bool
  stored_at : Int
  last_used : Nat
  deriving DecidableEq, Repr

/-- `uvhttp_gzip_cache`: `entries` are its `capacity` slots. -/
structure GzipCache where
  entries : List GzipEntry
  max_entries : Int
  max_memory_usage : Nat
  total_memory : UInt64
  cache_ttl : Int
  tick : Nat
  hit_count : Int
  miss_count : Int
  eviction_count : Int
  deriving DecidableEq, Repr

def GzipEntry.compressed_len (e : GzipEntry) : Nat := (e.compressed.getD []).length

/-- What a slot counts for in `total_memory`. -/
def GzipEntry.memory (e : GzipEntry) : UInt64 := UInt64.ofNat (e.compressed_len + GZIP_CACHE_ENTRY_OVERHEAD)

/-- The slot after its stream has been freed. -/
def GzipEntry.cleared (e : GzipEntry) : GzipEntry := { e with valid := false, compressed := none }

def GzipEntry.has_key (e : GzipEntry) (hash : UInt64) (body_len : Nat) : Bool :=
  e.valid && e.hash = hash && e.body_len = body_len

/-- `gzip_cache_entry_count`. -/
def gzip_cache_entry_count (cache : GzipCache) : Int := cache.entries.countP GzipEntry.valid

/-- The valid slot of smallest `last_used`, the first of several. -/
def oldest_slot (entries : List GzipEntry) : Option Nat :=
  (entries.zipIdx.foldl (fun victim slot =>
    if !slot.1.valid then victim
    else
      match victim with
      | none => some slot
      | some best => if slot.1.last_used < best.1.last_used then some slot else victim) none).map Prod.snd

/-- `gzip_cache_evict_one`. -/
def gzip_cache_evict_one (cache : GzipCache) : GzipCache :=
  match (oldest_slot cache.entries).bind fun victim => (cache.entries[victim]?).map fun e => (victim, e) with
  | none => cache
  | some (victim, e) =>
    { cache with
      entries := cache.entries.set victim e.cleared
      total_memory := cache.total_memory - e.memory
      eviction_count := cache.eviction_count + 1 }

/-- Evict while the condition holds. Every eviction frees a slot, so there are
at most `capacity` of them. -/
def evict_while (condition : GzipCache → Bool) : Nat → GzipCache → GzipCache
  | 0, cache => cache
  | fuel + 1, cache =>
    if condition cache then evict_while condition fuel (gzip_cache_evict_one cache) else cache

/-- The loop of `uvhttp_gzip_cache_find` over the slots: expired ones are freed
on the way to the first that has the key, which is marked as used. -/
def find_loop (cache_ttl now : Int) (hash : UInt64) (body_len tick : Nat) :
    List GzipEntry → UInt64 → Int → List GzipEntry × UInt64 × Int × Option GzipEntry
  | [], total_memory, evictions => ([], total_memory, evictions, none)
  | e :: rest, total_memory, evictions =>
    if e.valid && cache_ttl > 0 && now - e.stored_at > cache_ttl then
      let found := find_loop cache_ttl now hash body_len tick rest (total_memory - e.memory) (evictions + 1)
      (e.cleared :: found.1, found.2)
    else if e.has_key hash body_len then
      ({ e with last_used := tick + 1 } :: rest, total_memory, evictions, some e)
    else
      let found := find_loop cache_ttl now hash body_len tick rest total_memory evictions
      (e :: found.1, found.2)

/-- `uvhttp_gzip_cache_find`: the stream found, and the cache afterwards. -/
def uvhttp_gzip_cache_find (cache : GzipCache) (now : Int) (hash : UInt64) (body_len : Nat) :
    Option (List UInt8) × GzipCache :=
  let (entries, total_memory, eviction_count, found) :=
    find_loop cache.cache_ttl now hash body_len cache.tick cache.entries cache.total_memory cache.eviction_count
  match found with
  | some e => (e.compressed, { cache with
      entries, total_memory, eviction_count
      tick := cache.tick + 1
      hit_count := cache.hit_count + 1 })
  | none => (none, { cache with entries, total_memory, eviction_count, miss_count := cache.miss_count + 1 })

/-- `uvhttp_gzip_cache_put`. -/
def uvhttp_gzip_cache_put (alloc : Nat → Bool) (cache : GzipCache) (now : Int) (hash : UInt64) (body_len : Nat)
    (compressed : List UInt8) : UvhttpError × GzipCache :=
  if compressed.length = 0 then (.INVALID_PARAM, cache)
  else if compressed.length > cache.max_memory_usage then (.OK, cache)
  else
    let memory := UInt64.ofNat (compressed.length + GZIP_CACHE_ENTRY_OVERHEAD)
    match cache.entries.findIdx? fun e => e.has_key hash body_len with
    | some slot =>
      if !alloc compressed.length then (.OUT_OF_MEMORY, cache)
      else (.OK, { cache with
        entries := cache.entries.modify slot fun e =>
          { e with compressed := some compressed, stored_at := now, last_used := cache.tick + 1 }
        total_memory := cache.total_memory - ((cache.entries[slot]?).map GzipEntry.memory).getD 0 + memory
        tick := cache.tick + 1 })
    | none =>
      let within_budget := evict_while (fun cache =>
        (cache.total_memory + UInt64.ofNat compressed.length).toNat > cache.max_memory_usage &&
          gzip_cache_entry_count cache > 0) cache.entries.length cache
      let room := evict_while (fun cache => gzip_cache_entry_count cache ≥ cache.max_entries)
        cache.entries.length within_budget
      match room.entries.findIdx? fun e => !e.valid with
      | none => (.OK, room)
      | some slot =>
        if !alloc compressed.length then (.OUT_OF_MEMORY, room)
        else (.OK, { room with
          entries := room.entries.set slot
            { hash, body_len, compressed := some compressed, valid := true, stored_at := now
              last_used := room.tick + 1 }
          total_memory := room.total_memory + memory
          tick := room.tick + 1 })

/-- A slot of an array filled with zero bytes. -/
def GzipEntry.blank : GzipEntry where
  hash := 0
  body_len := 0
  compressed := none
  valid := false
  stored_at := 0
  last_used := 0

/-- `uvhttp_gzip_cache_create`, when its two allocations succeed. -/
def uvhttp_gzip_cache_create (max_memory_usage : Nat) (max_entries cache_ttl : Int) : GzipCache :=
  let max_entries := if max_entries ≤ 0 then 64 else max_entries
  { entries := List.replicate max_entries.toNat .blank
    max_entries
    max_memory_usage := if max_memory_usage = 0 then 2 ^ 20 else max_memory_usage
    total_memory := 0
    cache_ttl
    tick := 0
    hit_count := 0
    miss_count := 0
    eviction_count := 0 }

/-- `uvhttp_gzip_cache_clear`. -/
def uvhttp_gzip_cache_clear (cache : GzipCache) : GzipCache :=
  { cache with entries := cache.entries.map GzipEntry.cleared, total_memory := 0 }

/-- `uvhttp_gzip_cache_set_max_entries`. -/
def uvhttp_gzip_cache_set_max_entries (alloc : Nat → Bool) (cache : GzipCache) (max_entries : Int) : GzipCache :=
  if max_entries ≤ 0 then cache
  else
    let grown :=
      if max_entries > cache.entries.length then
        if !alloc (GZIP_CACHE_ENTRY_OVERHEAD * max_entries.toNat) then none
        else some { cache with
          entries := cache.entries ++ List.replicate (max_entries.toNat - cache.entries.length) .blank }
      else some cache
    match grown with
    | none => cache
    | some cache =>
      evict_while (fun cache => gzip_cache_entry_count cache > cache.max_entries) cache.entries.length
        { cache with max_entries }

/-- `uvhttp_gzip_cache_set_max_memory_usage`. -/
def uvhttp_gzip_cache_set_max_memory_usage (cache : GzipCache) (max_memory_usage : Nat) : GzipCache :=
  if max_memory_usage = 0 then cache
  else evict_while (fun cache => cache.total_memory.toNat > cache.max_memory_usage && gzip_cache_entry_count cache > 0)
    cache.entries.length { cache with max_memory_usage }

/-- `uvhttp_gzip_cache_set_cache_ttl`. -/
def uvhttp_gzip_cache_set_cache_ttl (cache : GzipCache) (cache_ttl : Int) : GzipCache := { cache with cache_ttl }

end uvhttp.gzip
