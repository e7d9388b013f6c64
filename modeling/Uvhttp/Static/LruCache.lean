import Uvhttp.Basic
import Uvhttp.Lib.LinkedList

namespace uvhttp.lru_cache

open linked_list

def UVHTTP_MAX_FILE_PATH_SIZE : Nat := 2048
def UVHTTP_MAX_HEADER_VALUE_SIZE : Nat := 4096
def SIZEOF_CACHE_ENTRY : Nat := 10368

/-- `cache_entry_t` without its list pointers. The content is `none` when its
pointer is NULL. `origin`, which the source does not store, is the canonical path of
the file that the content was read from. -/
structure CacheEntry where
  file_path : List UInt8
  content : Option (List UInt8)
  content_length : Nat
  mime_type : List UInt8
  last_modified : Int
  etag : List UInt8
  access_time : Int
  cache_time : Int
  memory_usage : UInt64
  is_compressed : Bool
  priority : Int
  origin : Option (List UInt8)
  deriving DecidableEq, Repr

/-- `cache_manager_t`, with the heap of its entries. The hash table is the set of
the entries in it, in the order in which `HASH_ITER` visits them. -/
structure CacheManager where
  entries : Nat → Option CacheEntry
  lru : Chain
  hash_table : List Nat
  total_memory_usage : UInt64
  max_memory_usage : UInt64
  max_file_size : Nat
  entry_count : Int
  max_entries : Int
  cache_ttl : Int
  batch_eviction_size : Nat
  enable_priority_eviction : Bool
  min_priority_threshold : Int
  hit_count : Int
  miss_count : Int
  eviction_count : Int

/-- `uvhttp_lru_cache_create`. -/
def uvhttp_lru_cache_create (alloc : Bool) (max_memory_usage : UInt64) (max_entries cache_ttl : Int) :
    Except UvhttpError CacheManager :=
  if max_memory_usage = 0 then .error .INVALID_PARAM
  else if max_entries ≤ 0 then .error .INVALID_PARAM
  else if !alloc then .error .OUT_OF_MEMORY
  else .ok {
    entries := fun _ => none
    lru := ⟨fun _ => none, none, none⟩
    hash_table := []
    total_memory_usage := 0
    max_memory_usage
    max_file_size := 1024 * 1024 * 1024
    entry_count := 0
    max_entries
    cache_ttl
    batch_eviction_size := 2
    enable_priority_eviction := false
    min_priority_threshold := 128
    hit_count := 0
    miss_count := 0
    eviction_count := 0 }

section entries

/-- `HASH_FIND_STR`. -/
def hash_find_str (cache : CacheManager) (file_path : List UInt8) : Option Nat :=
  cache.hash_table.find? fun p => (cache.entries p).any fun e => e.file_path = file_path

def set_entry (cache : CacheManager) (p : Nat) (e : CacheEntry) : CacheManager :=
  { cache with entries := Function.update cache.entries p (some e) }

/-- `free_cache_entry`. -/
def free_cache_entry (cache : CacheManager) (p : Nat) : CacheManager :=
  { cache with entries := Function.update cache.entries p none, lru := cache.lru.release p }

/-- `HASH_DEL`, the statistics and the release of an entry that has left the list. -/
def drop_entry (cache : CacheManager) (p : Nat) : Option CacheManager := do
  let e ← cache.entries p
  some (free_cache_entry { cache with
    hash_table := cache.hash_table.erase p
    total_memory_usage := cache.total_memory_usage - e.memory_usage
    entry_count := cache.entry_count - 1 } p)

/-- `uvhttp_lru_cache_is_expired`. -/
def uvhttp_lru_cache_is_expired (now : Int) (e : CacheEntry) (cache_ttl : Int) : Bool :=
  if cache_ttl ≤ 0 then false else now - e.cache_time > cache_ttl

/-- `uvhttp_lru_cache_move_to_head`. -/
def uvhttp_lru_cache_move_to_head (cache : CacheManager) (p : Nat) : Option CacheManager :=
  if cache.lru.head = some p then some cache
  else do
    let l ← cache.lru.links p
    if l.prev = none ∧ cache.lru.head ≠ none then
      let lru ← cache.lru.push_front p
      some { cache with lru }
    else
      let lru ← cache.lru.unlink p
      let lru ← lru.push_front p
      some { cache with lru }

/-- `uvhttp_lru_cache_remove_tail`. The entry it returns is still in the hash
table. -/
def uvhttp_lru_cache_remove_tail (cache : CacheManager) : Option (Option Nat × CacheManager) :=
  match cache.lru.tail with
  | none => some (none, cache)
  | some p => do
    let l ← cache.lru.links p
    let lru ← { cache.lru with tail := l.prev }.set_next l.prev none
    let lru : Chain := if l.prev.isNone then { lru with head := none } else lru
    let lru ← lru.clear_links p
    some (some p, { cache with lru })

/-- The loop of `uvhttp_lru_cache_remove_lowest_priority` over the list from its
tail on. -/
def find_unprotected (cache : CacheManager) : Nat → Option Nat → Option (Option Nat)
  | 0, _ => none
  | _ + 1, none => some none
  | fuel + 1, some p => do
    let e ← cache.entries p
    if cache.enable_priority_eviction ∧ e.priority ≥ cache.min_priority_threshold then
      let l ← cache.lru.links p
      find_unprotected cache fuel l.prev
    else some (some p)

/-- `uvhttp_lru_cache_remove_lowest_priority`. -/
def uvhttp_lru_cache_remove_lowest_priority (cache : CacheManager) : Option (Option Nat × CacheManager) := do
  let found ← find_unprotected cache (cache.hash_table.length + 1) cache.lru.tail
  match found with
  | none => some (none, cache)
  | some p =>
    let lru ← cache.lru.unlink p
    let lru ← lru.clear_links p
    some (some p, { cache with lru })

end entries

section operations

/-- `uvhttp_lru_cache_remove`. -/
def uvhttp_lru_cache_remove (cache : CacheManager) (file_path : List UInt8) : Option (UvhttpError × CacheManager) :=
  match hash_find_str cache file_path with
  | none => some (.NOT_FOUND, cache)
  | some p => do
    let lru ← cache.lru.unlink p
    let cache ← drop_entry { cache with lru } p
    some (.OK, cache)

/-- `uvhttp_lru_cache_find`: the entry, and the cache. -/
def uvhttp_lru_cache_find (now : Int) (cache : CacheManager) (file_path : List UInt8) :
    Option (Option Nat × CacheManager) :=
  match hash_find_str cache file_path with
  | none => some (none, { cache with miss_count := cache.miss_count + 1 })
  | some p => do
    let e ← cache.entries p
    if uvhttp_lru_cache_is_expired now e cache.cache_ttl then
      let removed ← uvhttp_lru_cache_remove cache file_path
      some (none, { removed.2 with miss_count := removed.2.miss_count + 1 })
    else
      let cache ← uvhttp_lru_cache_move_to_head (set_entry cache p { e with access_time := now }) p
      some (some p, { cache with hit_count := cache.hit_count + 1 })

/-- The comparison of a `size_t` with nine tenths of another, which the code makes
in floating point. -/
abbrev Exceeds := UInt64 → UInt64 → Bool

variable (exceeds : Exceeds)

/-- Whether entries have to be evicted for one of some size. -/
def needs_room (cache : CacheManager) (memory_usage : UInt64) : Bool :=
  (cache.max_memory_usage > 0 && exceeds (cache.total_memory_usage + memory_usage) cache.max_memory_usage) ||
    (cache.max_entries > 0 && cache.entry_count ≥ cache.max_entries)

/-- The choice of an entry to evict. -/
def choose_evicted (cache : CacheManager) : Option (Option Nat × CacheManager) :=
  if cache.enable_priority_eviction then uvhttp_lru_cache_remove_lowest_priority cache
  else uvhttp_lru_cache_remove_tail cache

/-- The inner loop of the eviction: at most a batch of entries. -/
def evict_batch (memory_usage : UInt64) : Nat → CacheManager → Option CacheManager
  | 0, cache => some cache
  | i + 1, cache =>
    if needs_room exceeds cache memory_usage then do
      let evicted ← choose_evicted cache
      match evicted.1 with
      | none => some evicted.2
      | some p =>
        let cache ← drop_entry evicted.2 p
        evict_batch memory_usage i { cache with eviction_count := cache.eviction_count + 1 }
    else some cache

/-- The outer loop: whether there is room, and the cache. Every round but the last
evicts an entry, or the loop never ends. -/
def evict_loop (memory_usage : UInt64) : Nat → CacheManager → Option (Bool × CacheManager)
  | 0, _ => none
  | fuel + 1, cache =>
    if needs_room exceeds cache memory_usage then
      if cache.lru.tail = none then some (false, cache)
      else do
        let cache ← evict_batch exceeds memory_usage cache.batch_eviction_size cache
        evict_loop memory_usage fuel cache
    else some (true, cache)

/-- The answers of the system in a `put`: the clock, and the two allocations. -/
structure PutAnswers where
  now : Int
  entry : Option Nat
  content : Bool
  deriving DecidableEq, Repr

/-- What is to be stored, and where its content was read. -/
structure PutRequest where
  file_path : List UInt8
  content : List UInt8
  mime_type : Option (List UInt8)
  last_modified : Int
  etag : Option (List UInt8)
  origin : Option (List UInt8)
  deriving DecidableEq, Repr

/-- `set_cache_entry_metadata`. -/
def set_cache_entry_metadata (e : CacheEntry) (mime_type etag : Option (List UInt8)) : CacheEntry :=
  { e with
    mime_type := (mime_type.getD (bytes "application/octet-stream")).take (UVHTTP_MAX_HEADER_VALUE_SIZE - 1)
    etag := (etag.getD []).take (UVHTTP_MAX_HEADER_VALUE_SIZE - 1) }

/-- An entry of which only the path is set. -/
def empty_entry (file_path : List UInt8) : CacheEntry where
  file_path
  content := none
  content_length := 0
  mime_type := []
  last_modified := 0
  etag := []
  access_time := 0
  cache_time := 0
  memory_usage := 0
  is_compressed := false
  priority := 0
  origin := none

/-- The content of an entry that is in the hash table: the rest of a `put`. -/
def store_content (answers : PutAnswers) (request : PutRequest) (memory_usage : UInt64) (cache : CacheManager)
    (p : Nat) : Option (UvhttpError × CacheManager) := do
  let e ← cache.entries p
  if !answers.content then
    if e.file_path = [] then
      some (.OUT_OF_MEMORY, free_cache_entry { cache with
        hash_table := cache.hash_table.erase p
        entry_count := cache.entry_count - 1 } p)
    else some (.OUT_OF_MEMORY, set_entry cache p { e with content := none })
  else
    let stored := set_cache_entry_metadata { e with
      content := some request.content
      content_length := request.content.length
      memory_usage
      last_modified := request.last_modified
      access_time := answers.now
      cache_time := answers.now
      is_compressed := false
      origin := request.origin } request.mime_type request.etag
    let cache ← uvhttp_lru_cache_move_to_head { set_entry cache p stored with
      total_memory_usage := cache.total_memory_usage + memory_usage } p
    some (.OK, cache)

/-- The entry of a `put`, old or new, once there is room. Memory that is in use is
never allocated again. -/
def store_entry (answers : PutAnswers) (request : PutRequest) (memory_usage : UInt64) (cache : CacheManager) :
    Option (UvhttpError × CacheManager) :=
  match hash_find_str cache request.file_path with
  | some p => do
    let e ← cache.entries p
    store_content answers request memory_usage { set_entry cache p { e with content := none } with
      total_memory_usage := cache.total_memory_usage - e.memory_usage } p
  | none =>
    match answers.entry with
    | none => some (.OUT_OF_MEMORY, cache)
    | some p =>
      if request.file_path.length ≥ UVHTTP_MAX_FILE_PATH_SIZE then some (.INVALID_PARAM, cache)
      else if (cache.entries p).isSome then none
      else
        store_content answers request memory_usage { set_entry cache p (empty_entry request.file_path) with
          lru := cache.lru.create p
          hash_table := cache.hash_table ++ [p]
          entry_count := cache.entry_count + 1 } p

/-- `uvhttp_lru_cache_put`. `none` is an access through an invalid pointer, or a loop
that does not end. -/
def uvhttp_lru_cache_put (answers : PutAnswers) (cache : CacheManager) (request : PutRequest) :
    Option (UvhttpError × CacheManager) :=
  if request.content.length > cache.max_file_size then some (.INVALID_PARAM, cache)
  else if request.content.length > SIZE_MAX - SIZEOF_CACHE_ENTRY then some (.INVALID_PARAM, cache)
  else do
    let memory_usage := UInt64.ofNat (SIZEOF_CACHE_ENTRY + request.content.length)
    let room ← evict_loop exceeds memory_usage (cache.hash_table.length + 1) cache
    if !room.1 then some (.OUT_OF_MEMORY, room.2) else store_entry answers request memory_usage room.2

/-- `uvhttp_lru_cache_clear`. -/
def uvhttp_lru_cache_clear (cache : CacheManager) : CacheManager :=
  { cache with
    entries := fun p => if p ∈ cache.hash_table then none else cache.entries p
    lru := ⟨fun p => if p ∈ cache.hash_table then none else cache.lru.links p, none, none⟩
    hash_table := []
    total_memory_usage := 0
    entry_count := 0 }

/-- The unlinking in `uvhttp_lru_cache_cleanup_expired`, which takes the two ends of
the list for each other. -/
def unlink_expired (c : Chain) (p : Nat) : Option Chain := do
  let l ← c.links p
  let c ← c.splice l
  some { c with
    tail := if l.prev.isNone then l.next else c.tail
    head := if l.next.isNone then l.prev else c.head }

/-- The loop of `uvhttp_lru_cache_cleanup_expired`. -/
def cleanup_loop (now : Int) : Nat → Option Nat → CacheManager → Option CacheManager
  | 0, _, _ => none
  | _ + 1, none, cache => some cache
  | fuel + 1, some p, cache => do
    let e ← cache.entries p
    let l ← cache.lru.links p
    if now - e.cache_time > cache.cache_ttl then
      let lru ← unlink_expired cache.lru p
      let cache ← drop_entry { cache with lru } p
      cleanup_loop now fuel l.prev cache
    else cleanup_loop now fuel l.prev cache

/-- `uvhttp_lru_cache_cleanup_expired`. -/
def uvhttp_lru_cache_cleanup_expired (now : Int) (cache : CacheManager) : Option CacheManager :=
  if cache.cache_ttl ≤ 0 then some cache else cleanup_loop now (cache.hash_table.length + 1) cache.lru.tail cache

/-- `uvhttp_lru_cache_force_eviction`. -/
def uvhttp_lru_cache_force_eviction : Nat → CacheManager → Option CacheManager
  | 0, cache => some cache
  | count + 1, cache => do
    let evicted ← uvhttp_lru_cache_remove_tail cache
    match evicted.1 with
    | none => some evicted.2
    | some p =>
      let cache ← drop_entry evicted.2 p
      uvhttp_lru_cache_force_eviction count { cache with eviction_count := cache.eviction_count + 1 }

/-- `uvhttp_lru_cache_set_entry_priority`. -/
def uvhttp_lru_cache_set_entry_priority (now : Int) (cache : CacheManager) (file_path : List UInt8) (priority : Int) :
    Option (UvhttpError × CacheManager) :=
  if priority < 0 ∨ priority > 255 then some (.INVALID_PARAM, cache)
  else do
    let found ← uvhttp_lru_cache_find now cache file_path
    match found.1 with
    | none => some (.NOT_FOUND, found.2)
    | some p =>
      let e ← found.2.entries p
      let cache ← uvhttp_lru_cache_move_to_head (set_entry found.2 p { e with priority }) p
      some (.OK, cache)

/-- `uvhttp_lru_cache_prewarm`. -/
def uvhttp_lru_cache_prewarm (answers : PutAnswers) (cache : CacheManager) (request : PutRequest) (priority : Int) :
    Option (UvhttpError × CacheManager) :=
  if priority < 0 ∨ priority > 255 then some (.INVALID_PARAM, cache)
  else do
    let found ← uvhttp_lru_cache_find answers.now cache request.file_path
    match found.1 with
    | some p =>
      let e ← found.2.entries p
      let cache ← uvhttp_lru_cache_move_to_head (set_entry found.2 p { e with priority }) p
      some (.OK, cache)
    | none =>
      let put ← uvhttp_lru_cache_put exceeds answers found.2 request
      if put.1 ≠ .OK then some put
      else
        let set ← uvhttp_lru_cache_set_entry_priority answers.now put.2 request.file_path priority
        some (.OK, set.2)

end operations

section settings

/-- The setters, of which some refuse their value. -/
inductive Setting where
  | max_file_size (value : Nat)
  | max_memory_usage (value : UInt64)
  | max_entries (value : Int)
  | cache_ttl (value : Int)
  | batch_eviction_size (value : Int)
  | enable_priority_eviction (value : Bool)
  | min_priority_threshold (value : Int)
  | reset_stats
  deriving DecidableEq, Repr

def apply_setting (cache : CacheManager) : Setting → CacheManager
  | .max_file_size value => { cache with max_file_size := value }
  | .max_memory_usage value => { cache with max_memory_usage := value }
  | .max_entries value => { cache with max_entries := value }
  | .cache_ttl value => { cache with cache_ttl := value }
  | .batch_eviction_size value => { cache with batch_eviction_size := if value < 1 then 2 else value.toNat }
  | .enable_priority_eviction value => { cache with enable_priority_eviction := value }
  | .min_priority_threshold value =>
    if value < 0 ∨ value > 255 then cache else { cache with min_priority_threshold := value }
  | .reset_stats => { cache with hit_count := 0, miss_count := 0, eviction_count := 0 }

end settings

end uvhttp.lru_cache
