import Uvhttp.Router.Model

namespace uvhttp.router_cache

open http (Method)
open router (Context Target MAX_ROUTE_PATH_LEN HYBRID_THRESHOLD SLASH COLON QUESTION_MARK)

def UVHTTP_ROUTER_HASH_BASE_SIZE : Nat := 256
def UVHTTP_ROUTER_HASH_MAX_SIZE : Nat := 4096
def SIZEOF_HASH_ENTRY : Nat := 276

variable {H : Type}

/-- `hash_entry_t`, when its path is not empty. -/
structure HashEntry (H : Type) where
  path : List UInt8
  method : Method
  handler : H
  deriving DecidableEq, Repr

/-- `hash_table_t`. A slot whose path is empty is free. -/
structure HashTable (H : Type) where
  entries : List (Option (HashEntry H))
  count : Nat
  threshold : Nat
  deriving DecidableEq, Repr

def HashTable.size (table : HashTable H) : Nat := table.entries.length

/-- The part of the table that may be in use: `UVHTTP_ROUTER_HASH_LOAD_FACTOR` is
0.75. -/
def load_threshold (size : Nat) : Nat := size * 3 / 4

/-- `hash_table_init`, when its allocation succeeds. -/
def hash_table_init (initial_size : Nat) : HashTable H where
  entries := List.replicate initial_size none
  count := 0
  threshold := load_threshold initial_size

/-- The slots in the order in which linear probing visits them from a hash on,
each of them once. -/
def probe_order (size : Nat) (hash : UInt32) : List Nat :=
  (List.range size).map fun step => (hash.toNat % size + step) % size

/-- `cache_optimized_router_t` with the public router in it. -/
structure CacheRouter (H : Type) where
  hash_table : HashTable H
  use_trie : Bool
  array_route_count : Nat
  static_prefix : Option (List UInt8)
  static_context : Option Context
  fallback_context : Option Context
  deriving DecidableEq, Repr

/-- `uvhttp_router_new`, when its allocations succeed. -/
def uvhttp_router_new : CacheRouter H where
  hash_table := hash_table_init UVHTTP_ROUTER_HASH_BASE_SIZE
  use_trie := false
  array_route_count := 0
  static_prefix := none
  static_context := none
  fallback_context := none

section table

variable (route_hash : List UInt8 → UInt32)

/-- The loop of `hash_table_resize` over the old slots, `none` when an entry finds
no free slot. -/
def rehash_entries (new_entries : List (Option (HashEntry H))) :
    List (Option (HashEntry H)) → Option (List (Option (HashEntry H)))
  | [] => some new_entries
  | none :: old_entries => rehash_entries new_entries old_entries
  | some entry :: old_entries =>
    match (probe_order new_entries.length (route_hash entry.path)).find? fun index =>
        (new_entries.getD index none).isNone with
    | none => none
    | some index => rehash_entries (new_entries.set index (some entry)) old_entries

/-- `find_slot`: the first slot of the probing that is free or holds the route.
`none` is the `UINT32_MAX` of a full table. -/
def find_slot (table : HashTable H) (path : List UInt8) (method : Method) : Option Nat :=
  (probe_order table.size (route_hash path)).find? fun index =>
    match table.entries.getD index none with
    | none => true
    | some entry => entry.path = path && entry.method = method

variable (alloc : Nat → Bool)

/-- `hash_table_resize`. -/
def hash_table_resize (table : HashTable H) (new_size : Nat) : UvhttpError × HashTable H :=
  if new_size = 0 ∨ new_size > UVHTTP_ROUTER_HASH_MAX_SIZE then (.INVALID_PARAM, table)
  else if !alloc (new_size * SIZEOF_HASH_ENTRY) then (.OUT_OF_MEMORY, table)
  else
    match rehash_entries route_hash (List.replicate new_size none) table.entries with
    | none => (.OUT_OF_MEMORY, table)
    | some new_entries => (.OK, { table with entries := new_entries, threshold := load_threshold new_size })

/-- The resize at the start of `add_to_hash_table`. -/
def make_room (table : HashTable H) : UvhttpError × HashTable H :=
  if table.count ≥ table.threshold then
    let new_size := min (table.size * 2) UVHTTP_ROUTER_HASH_MAX_SIZE
    if new_size > table.size then hash_table_resize route_hash alloc table new_size else (.OK, table)
  else (.OK, table)

/-- `add_to_hash_table`, `none` when it writes beyond the table. -/
def add_to_hash_table (table : HashTable H) (path : List UInt8) (method : Method) (handler : H) :
    Option (UvhttpError × HashTable H) :=
  if path.length ≥ MAX_ROUTE_PATH_LEN then some (.HEADER_TOO_LARGE, table)
  else
    let resized := make_room route_hash alloc table
    if resized.1 ≠ .OK then some resized
    else
      match find_slot route_hash resized.2 path method with
      | none => none
      | some slot =>
        if (resized.2.entries.getD slot none).any fun entry => entry.path = path && entry.method = method then
          some (.ALREADY_EXISTS, resized.2)
        else
          some (.OK, { resized.2 with
            entries := resized.2.entries.set slot (some ⟨path.take (MAX_ROUTE_PATH_LEN - 1), method, handler⟩)
            count := resized.2.count + 1 })

/-- The public fields that are kept in step with the other router. -/
def track_route (cr : CacheRouter H) (path : List UInt8) : CacheRouter H :=
  if COLON ∈ path ∨ cr.array_route_count ≥ HYBRID_THRESHOLD ∨ cr.use_trie then
    if cr.use_trie then cr else { cr with use_trie := true, array_route_count := 0 }
  else { cr with array_route_count := cr.array_route_count + 1 }

/-- `uvhttp_router_add_route_method`, `none` when it writes beyond the table. -/
def uvhttp_router_add_route_method (cr : CacheRouter H) (path : List UInt8) (method : Method)
    (handler : Option H) : Option (UvhttpError × CacheRouter H) :=
  match handler with
  | none => some (.INVALID_PARAM, cr)
  | some handler =>
    if path.length = 0 then some (.INVALID_PARAM, cr)
    else if path.length ≥ MAX_ROUTE_PATH_LEN then some (.INVALID_PARAM, cr)
    else if QUESTION_MARK ∈ path then some (.INVALID_PARAM, cr)
    else
      match add_to_hash_table route_hash alloc cr.hash_table path method handler with
      | none => none
      | some (err, table) =>
        if err ≠ .OK then some (err, { cr with hash_table := table })
        else some (.OK, track_route { cr with hash_table := table } path)

/-- `uvhttp_router_add_route`. -/
def uvhttp_router_add_route (cr : CacheRouter H) (path : List UInt8) (handler : Option H) :
    Option (UvhttpError × CacheRouter H) :=
  uvhttp_router_add_route_method route_hash alloc cr path .ANY handler

/-- `uvhttp_router_add_static_route`. -/
def uvhttp_router_add_static_route (cr : CacheRouter H) (prefix_path : List UInt8) (static_context : Option Context) :
    UvhttpError × CacheRouter H :=
  match static_context with
  | none => (.INVALID_PARAM, cr)
  | some context =>
    if !alloc (prefix_path.length + 1) then (.OUT_OF_MEMORY, { cr with static_prefix := none })
    else (.OK, { cr with static_prefix := some prefix_path, static_context := some context })

/-- `uvhttp_router_add_fallback_route`. -/
def uvhttp_router_add_fallback_route (cr : CacheRouter H) (static_context : Option Context) :
    UvhttpError × CacheRouter H :=
  match static_context with
  | none => (.INVALID_PARAM, cr)
  | some context => (.OK, { cr with fallback_context := some context })

/-- `uvhttp_router_add_binary_route` of some data. -/
def uvhttp_router_add_binary_route (binary_route_handler : H) (cr : CacheRouter H) (path mime_type : List UInt8) :
    Option (UvhttpError × CacheRouter H) :=
  uvhttp_router_add_route route_hash alloc { cr with static_context := some (.mime_type mime_type) } path
    (some binary_route_handler)

end table

section lookup

/-- `fast_method_parse`. -/
def fast_method_parse (method : List UInt8) : Method :=
  match method with
  | 71 :: rest => if rest = bytes "ET" then .GET else .ANY
  | 80 :: 79 :: rest => if rest = bytes "ST" then .POST else .ANY
  | 80 :: 85 :: rest => if rest = bytes "T" then .PUT else .ANY
  | 80 :: 65 :: rest => if rest = bytes "TCH" then .PATCH else .ANY
  | 68 :: rest => if rest = bytes "ELETE" then .DELETE else .ANY
  | 72 :: rest => if rest = bytes "EAD" then .HEAD else .ANY
  | 79 :: rest => if rest = bytes "PTIONS" then .OPTIONS else .ANY
  | _ => .ANY

@[simp] theorem fast_method_parse_to_string (method : Method) :
    fast_method_parse (router.uvhttp_method_to_string method) = method := by
  cases method <;> decide

/-- The loop that compares a route with a path, a parameter with everything up to
the next slash. Each round takes at least one character of the route. -/
def template_loop : Nat → List UInt8 → List UInt8 → Bool
  | fuel + 1, r :: rp, p :: pp =>
    if r = COLON then template_loop fuel (rp.dropWhile (· ≠ SLASH)) ((p :: pp).dropWhile (· ≠ SLASH))
    else if r = p then template_loop fuel rp pp
    else false
  | _, rp, pp => rp = [] && pp = []

/-- Whether a route with parameters matches a path. -/
def template_matches (route path : List UInt8) : Bool :=
  COLON ∈ route && template_loop route.length route path

/-- The first pass of `find_in_hash_table_ex`: probing for the path itself, up to
a free slot. -/
def exact_match (entries : List (Option (HashEntry H))) (path : List UInt8) (method : Method) :
    List Nat → Option H
  | [] => none
  | index :: rest =>
    match entries.getD index none with
    | none => none
    | some entry =>
      if entry.path = path && router.serves entry.method method then some entry.handler
      else exact_match entries path method rest

/-- The second pass: the routes with parameters, in the order of the slots. -/
def template_match (entries : List (Option (HashEntry H))) (path : List UInt8) (method : Method) : Option H :=
  entries.findSome? fun slot =>
    match slot with
    | none => none
    | some entry =>
      if router.serves entry.method method && template_matches entry.path path then some entry.handler else none

/-- `find_in_hash_table_ex`. -/
def find_in_hash_table (route_hash : List UInt8 → UInt32) (table : HashTable H) (path : List UInt8)
    (method : Method) : Option H :=
  exact_match table.entries path method (probe_order table.size (route_hash path)) <|>
    template_match table.entries path method

/-- `static_prefix_handler`: whether the static route takes a path. -/
def static_prefix_handler (cr : CacheRouter H) (path : List UInt8) : Bool :=
  match cr.static_prefix with
  | none => false
  | some static_prefix => cr.static_context.isSome && static_prefix.isPrefixOf path

/-- `uvhttp_router_find_handler`. -/
def uvhttp_router_find_handler (route_hash : List UInt8 → UInt32) (cr : CacheRouter H) (path method : List UInt8) :
    Option (Target H) :=
  if static_prefix_handler cr path then some .static_file_handler_wrapper
  else
    match find_in_hash_table route_hash cr.hash_table path (fast_method_parse method) with
    | some handler => some (.handler handler)
    | none => if cr.fallback_context.isSome then some .static_file_handler_wrapper else none

end lookup

end uvhttp.router_cache
