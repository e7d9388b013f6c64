import Uvhttp.Http.Request
import Uvhttp.Lib.OrderedTrie

namespace uvhttp.router

open http (Method)
open ordered_trie

def MAX_ROUTE_PATH_LEN : Nat := 256
def HYBRID_THRESHOLD : Nat := 100
def MAX_CHILD_INDICES : Nat := 12
def SEGMENT_DATA_SIZE : Nat := 32
def SIZEOF_ROUTE_NODE : Nat := 144
def SLASH : UInt8 := 47
def COLON : UInt8 := 58
def QUESTION_MARK : UInt8 := 63

/-- `uvhttp_method_from_string`. -/
def uvhttp_method_from_string (method : List UInt8) : Method :=
  if method = bytes "GET" then .GET
  else if method = bytes "POST" then .POST
  else if method = bytes "PUT" then .PUT
  else if method = bytes "PATCH" then .PATCH
  else if method = bytes "DELETE" then .DELETE
  else if method = bytes "HEAD" then .HEAD
  else if method = bytes "OPTIONS" then .OPTIONS
  else .ANY

/-- `uvhttp_method_to_string`. -/
def uvhttp_method_to_string : Method → List UInt8
  | .GET => bytes "GET"
  | .POST => bytes "POST"
  | .PUT => bytes "PUT"
  | .DELETE => bytes "DELETE"
  | .HEAD => bytes "HEAD"
  | .OPTIONS => bytes "OPTIONS"
  | .PATCH => bytes "PATCH"
  | .ANY => bytes "ANY"

@[simp] theorem uvhttp_method_from_to_string (method : Method) :
    uvhttp_method_from_string (uvhttp_method_to_string method) = method := by
  cases method <;> decide

section paths

/-- The pieces of a path between slashes, empty ones included. -/
def split_slash : List UInt8 → List (List UInt8)
  | [] => [[]]
  | c :: rest =>
    if c = SLASH then [] :: split_slash rest
    else
      match split_slash rest with
      | [] => [[c]]
      | piece :: pieces => (c :: piece) :: pieces

/-- The tokens that repeated calls of `strtok(path, "/")` return. -/
def strtok (path : List UInt8) : List (List UInt8) := (split_slash path).filter (· ≠ [])

/-- The copy of a path that is split into segments. -/
def path_copy (path : List UInt8) : List UInt8 := path.take (MAX_ROUTE_PATH_LEN - 1)

/-- The segments of a path that is looked up. -/
def path_segments (path : List UInt8) : List (List UInt8) := strtok (path_copy path)

/-- A token of a route, a parameter when it starts with a colon. -/
def route_label (token : List UInt8) : Label (List UInt8) :=
  if token.head? = some COLON then ⟨token.tail, true⟩ else ⟨token, false⟩

/-- The labels of a route, before they are stored. -/
def route_labels (path : List UInt8) : List (Label (List UInt8)) := (path_segments path).map route_label

/-- What a node keeps of a label: at most 31 characters of its name. -/
def stored_label (label : Label (List UInt8)) : Label (List UInt8) :=
  if label.name.length < SEGMENT_DATA_SIZE then label
  else { label with name := label.name.take (SEGMENT_DATA_SIZE - 1) }

end paths

/-- The node pool, of which only the fill level matters: its nodes are those of
the trie. -/
structure Pool where
  node_pool_used : Nat
  node_pool_size : Nat
  deriving DecidableEq, Repr

/-- The trie of a router: its root node, with the nodes that the child indices
lead to. A value is the method and the handler of a node that has a handler. -/
structure Trie (H : Type) where
  root : Option (Method × H)
  children : Forest (List UInt8) (Method × H)
  pool : Pool

/-- `array_route_t`. -/
structure ArrayRoute (H : Type) where
  path : List UInt8
  method : Method
  handler : H

/-- The route array: its entries in use, or freed memory that the router still
points to. -/
inductive ArrayTable (H : Type) where
  | routes (entries : List (ArrayRoute H))
  | released

/-- What a `void*` context of a router points to: the options of a static file
service, or the MIME type of a binary route. -/
inductive Context where
  | static_files (id : Nat)
  | mime_type (text : List UInt8)
  deriving DecidableEq, Repr

/-- `uvhttp_router_t`. -/
structure Router (H : Type) where
  use_trie : Bool
  array_routes : ArrayTable H
  trie : Trie H
  static_prefix : Option (List UInt8)
  static_context : Option Context
  fallback_context : Option Context

variable {H : Type}

/-- `uvhttp_router_new`, when its allocations succeed. -/
def uvhttp_router_new : Router H where
  use_trie := false
  array_routes := .routes []
  trie := ⟨none, .nil, ⟨1, 64⟩⟩
  static_prefix := none
  static_context := none
  fallback_context := none

section insertion

variable (alloc : Nat → Bool)

def create_route_node (pool : Pool) : Option Pool :=
  if pool.node_pool_used ≥ pool.node_pool_size then
    let new_size := pool.node_pool_size * 2
    if !alloc (new_size * SIZEOF_ROUTE_NODE) then none else some ⟨pool.node_pool_used + 1, new_size⟩
  else some { pool with node_pool_used := pool.node_pool_used + 1 }

variable (value : Method × H)

/-- New nodes for the rest of a path, as far as the pool goes: the branch, the
pool, and whether the branch is complete. -/
def create_branch (pool : Pool) :
    Label (List UInt8) → List (Label (List UInt8)) → Forest (List UInt8) (Method × H) × Pool × Bool
  | label, [] =>
    match create_route_node alloc pool with
    | none => (.nil, pool, false)
    | some pool => (.cons (stored_label label) (some value) .nil .nil, pool, true)
  | label, next :: labels =>
    match create_route_node alloc pool with
    | none => (.nil, pool, false)
    | some pool =>
      let below := create_branch pool next labels
      (.cons (stored_label label) none below.1 .nil, below.2)

/-- Follow a path, with `find_or_create_child` at each node: its loop over the
children, of which `seen` are done, takes the first whose segment is the whole
token, and else makes a new child unless there are twelve. The value is set at
the end. -/
def insert_path (pool : Pool) (seen : Nat) :
    Forest (List UInt8) (Method × H) → Label (List UInt8) → List (Label (List UInt8)) →
      Forest (List UInt8) (Method × H) × Pool × Bool
  | .nil, label, labels =>
    if seen ≥ MAX_CHILD_INDICES then (.nil, pool, false) else create_branch alloc value pool label labels
  | .cons first old children siblings, label, labels =>
    if first.name = label.name then
      match labels with
      | [] => (.cons first (some value) children siblings, pool, true)
      | next :: labels =>
        let below := insert_path pool 0 children next labels
        (.cons first old below.1 siblings, below.2)
    else
      let later := insert_path pool (seen + 1) siblings label labels
      (.cons first old children later.1, later.2)

/-- Add a route to the trie: the trie, and whether there was room. -/
def add_to_trie (trie : Trie H) (path : List UInt8) : Trie H × Bool :=
  match route_labels path with
  | [] => ({ trie with root := some value }, true)
  | label :: labels =>
    let inserted := insert_path alloc value trie.pool 0 trie.children label labels
    ({ trie with children := inserted.1, pool := inserted.2.1 }, inserted.2.2)

end insertion

section routes

variable (alloc : Nat → Bool)

/-- The loop of `migrate_to_trie`, up to the first route without room. -/
def migrate_routes (trie : Trie H) : List (ArrayRoute H) → Trie H × Bool
  | [] => (trie, true)
  | route :: routes =>
    let added := add_to_trie alloc (route.method, route.handler) trie route.path
    if !added.2 then (added.1, false) else migrate_routes added.1 routes

/-- `migrate_to_trie` of a router in array mode. On failure the array is freed
and still in use. -/
def migrate_to_trie (router : Router H) (entries : List (ArrayRoute H)) : UvhttpError × Router H :=
  let migrated := migrate_routes alloc router.trie entries
  if !migrated.2 then (.OUT_OF_MEMORY, { router with trie := migrated.1, array_routes := .released })
  else (.OK, { router with trie := migrated.1, use_trie := true, array_routes := .routes [] })

/-- The end of `uvhttp_router_add_route_method` in trie mode. -/
def add_trie_route (router : Router H) (path : List UInt8) (method : Method) (handler : H) :
    UvhttpError × Router H :=
  let added := add_to_trie alloc (method, handler) router.trie path
  (if added.2 then .OK else .OUT_OF_MEMORY, { router with trie := added.1 })

/-- `uvhttp_router_add_route_method`, `none` when it works on the freed array.
The array never grows: at its capacity the router turns to the trie. -/
def uvhttp_router_add_route_method (router : Router H) (path : List UInt8) (method : Method)
    (handler : Option H) : Option (UvhttpError × Router H) :=
  match handler with
  | none => some (.INVALID_PARAM, router)
  | some handler =>
    if path.length = 0 then some (.INVALID_PARAM, router)
    else if path.length ≥ MAX_ROUTE_PATH_LEN then some (.INVALID_PARAM, router)
    else if QUESTION_MARK ∈ path then some (.INVALID_PARAM, router)
    else if router.use_trie then some (add_trie_route alloc router path method handler)
    else
      match router.array_routes with
      | .released => none
      | .routes entries =>
        if COLON ∈ path ∨ entries.length ≥ HYBRID_THRESHOLD then
          let migrated := migrate_to_trie alloc router entries
          if migrated.1 ≠ .OK then some migrated
          else some (add_trie_route alloc migrated.2 path method handler)
        else
          let route : ArrayRoute H := ⟨path.take (MAX_ROUTE_PATH_LEN - 1), method, handler⟩
          some (.OK, { router with array_routes := .routes (entries ++ [route]) })

/-- `uvhttp_router_add_route`. -/
def uvhttp_router_add_route (router : Router H) (path : List UInt8) (handler : Option H) :
    Option (UvhttpError × Router H) :=
  uvhttp_router_add_route_method alloc router path .ANY handler

/-- `uvhttp_router_add_static_route`. Without memory for it the prefix is lost and
the context of the previous route stays. -/
def uvhttp_router_add_static_route (router : Router H) (prefix_path : List UInt8) (static_context : Option Context) :
    UvhttpError × Router H :=
  match static_context with
  | none => (.INVALID_PARAM, router)
  | some context =>
    if !alloc (prefix_path.length + 1) then (.OUT_OF_MEMORY, { router with static_prefix := none })
    else (.OK, { router with static_prefix := some prefix_path, static_context := some context })

/-- `uvhttp_router_add_fallback_route`. -/
def uvhttp_router_add_fallback_route (router : Router H) (static_context : Option Context) : UvhttpError × Router H :=
  match static_context with
  | none => (.INVALID_PARAM, router)
  | some context => (.OK, { router with fallback_context := some context })

/-- `uvhttp_router_add_binary_route` of some data: the MIME type takes the place of
the static context. -/
def uvhttp_router_add_binary_route (binary_route_handler : H) (router : Router H) (path mime_type : List UInt8) :
    Option (UvhttpError × Router H) :=
  uvhttp_router_add_route alloc { router with static_context := some (.mime_type mime_type) } path
    (some binary_route_handler)

end routes

section lookup

/-- Whether a route of some method serves another. -/
def serves (route_method method : Method) : Bool := route_method = .ANY || route_method = method

/-- The handler of a node, if it serves the method. -/
def node_handler (method : Method) (value : Method × H) : Option H :=
  if serves value.1 method then some value.2 else none

/-- `find_array_route`. -/
def find_array_route (entries : List (ArrayRoute H)) (path : List UInt8) (method : Method) : Option H :=
  (entries.find? fun route => serves route.method method && route.path = path).map ArrayRoute.handler

/-- `match_route_node` from the root, without the match that it fills in: the lookup that
keeps its match finds the same where the match has room. Below the root, each segment is
compared with the children in their order, and a child whose branch fails is given up. -/
def match_route_node (trie : Trie H) (segments : List (List UInt8)) (method : Method) : Option H :=
  match segments with
  | [] => trie.root.bind (node_handler method)
  | segment :: segments => trie.children.find (node_handler method) segment segments

/-- What a lookup returns when it is not NULL. -/
inductive Target (H : Type) where
  | handler (h : H)
  | static_file_handler_wrapper
  deriving DecidableEq, Repr

/-- Whether the static route takes a path. -/
def static_covers (router : Router H) (path : List UInt8) : Bool :=
  match router.static_prefix with
  | none => false
  | some static_prefix => router.static_context.isSome && static_prefix.isPrefixOf path

/-- The routes of a router, `none` when the lookup reads the freed array. -/
def find_route (router : Router H) (path : List UInt8) (method : Method) : Option (Option H) :=
  if router.use_trie then some (match_route_node router.trie (path_segments path) method)
  else
    match router.array_routes with
    | .released => none
    | .routes entries => some (find_array_route entries path method)

/-- `uvhttp_router_find_handler`. The inner option is the pointer it returns, and
`none` outside a lookup that reads freed memory. -/
def uvhttp_router_find_handler (router : Router H) (path method : List UInt8) : Option (Option (Target H)) :=
  if static_covers router path then some (some .static_file_handler_wrapper)
  else
    match find_route router path (uvhttp_method_from_string method) with
    | none => none
    | some (some handler) => some (some (.handler handler))
    | some none => some (if router.fallback_context.isSome then some .static_file_handler_wrapper else none)

end lookup

end uvhttp.router
