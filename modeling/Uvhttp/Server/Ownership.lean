import Uvhttp.Server.Context
import Uvhttp.Server.ProtocolUpgrade

open ledger
open uvhttp.context
open uvhttp.http (strcasecmp)

namespace uvhttp.ownership

/-- The blocks of a `uvhttp_router_t` that routes by its array. -/
structure RouterMemory where
  block : Nat
  array_routes : Nat
  node_pool : Nat
  static_prefix : Option Nat
  deriving DecidableEq, Repr

/-- The block of a `uvhttp_protocol_registry_t`, and the infos in its list with their names. -/
structure RegistryMemory where
  block : Nat
  protocols : List (Nat × List UInt8)
  deriving DecidableEq, Repr

/-- The block of a `ws_connection_manager_t`, and the nodes in its list with their connections. -/
structure ManagerMemory where
  block : Nat
  connections : List (Nat × Nat)
  deriving DecidableEq, Repr

/-- The block of a `uvhttp_server_t`, and what its pointers lead to: `loop` if the server owns it,
`ws_routes` as entries with their paths, `gzip_cache` with its entries. -/
structure ServerMemory where
  block : Nat
  loop : Option Nat
  router : Option RouterMemory
  tls_ctx : Option Nat
  config : Option Nat
  context : Option Context
  ws_routes : List (Nat × Nat)
  protocol_registry : Option RegistryMemory
  gzip_cache : Option (Nat × Nat)
  ws_connection_manager : Option ManagerMemory
  deriving DecidableEq, Repr

section objects

variable (granted : Nat → Bool)

/-- `uvhttp_router_new`: the pool has room for the root. -/
def uvhttp_router_new : LedgerM (Option RouterMemory) := do
  match ← acquire granted with
  | none => pure none
  | some block =>
    match ← acquire granted with
    | none => do
      release block
      pure none
    | some array_routes =>
      match ← acquire granted with
      | none => do
        release array_routes
        release block
        pure none
      | some node_pool => pure (some ⟨block, array_routes, node_pool, none⟩)

/-- The copy of the path prefix of the static files, if there is one. -/
def RouterMemory.served (router : RouterMemory) : List Nat := router.static_prefix.toList

def uvhttp_router_free (router : RouterMemory) : LedgerM Unit := do
  release router.node_pool
  release router.array_routes
  release_all router.served
  release router.block

def uvhttp_router_add_static_route (router : RouterMemory) : LedgerM RouterMemory := do
  release_all router.served
  let static_prefix ← acquire granted
  pure { router with static_prefix }

/-- `uvhttp_tls_context_new`, and whether the library behind it can be set up. -/
def uvhttp_tls_context_new (configured : Bool) : LedgerM (Option Nat) := do
  match ← acquire granted with
  | none => pure none
  | some ctx =>
    if !configured then do
      release ctx
      pure none
    else pure (some ctx)

def uvhttp_gzip_cache_create : LedgerM (Option (Nat × Nat)) := do
  match ← acquire granted with
  | none => pure none
  | some cache =>
    match ← acquire granted with
    | none => do
      release cache
      pure none
    | some entries => pure (some (cache, entries))

/-- The registry, created if there is none. -/
def registry_for (registry : Option RegistryMemory) : LedgerM (Option RegistryMemory) :=
  match registry with
  | some registry => pure (some registry)
  | none => do
    match ← acquire granted with
    | none => pure none
    | some block => pure (some ⟨block, []⟩)

/-- `uvhttp_server_register_protocol_upgrade`, for a name that is not too long. -/
def uvhttp_server_register_protocol_upgrade (registry : Option RegistryMemory) (protocol_name : List UInt8) :
    LedgerM (Option RegistryMemory) := do
  match ← registry_for granted registry with
  | none => pure none
  | some registry =>
    if registry.protocols.any fun info => strcasecmp info.2 protocol_name then pure (some registry)
    else if registry.protocols.length ≥ 10 then pure (some registry)
    else
      match ← acquire granted with
      | none => pure (some registry)
      | some info =>
        pure (some { registry with protocols := (info, server.normalized 32 protocol_name) :: registry.protocols })

/-- Take out the first element that is found, and free its block. -/
def free_first {α : Type} (found : α → Bool) : List (Nat × α) → LedgerM (List (Nat × α))
  | [] => pure []
  | entry :: entries =>
    if found entry.2 then do
      release entry.1
      pure entries
    else do
      let rest ← free_first found entries
      pure (entry :: rest)

/-- Take out every element that is to go, and free its block. -/
def free_where {α : Type} (goes : α → Bool) : List (Nat × α) → LedgerM (List (Nat × α))
  | [] => pure []
  | entry :: entries =>
    if goes entry.2 then do
      release entry.1
      free_where goes entries
    else do
      let rest ← free_where goes entries
      pure (entry :: rest)

end objects

section servers

variable (granted : Nat → Bool)

/-- A server with its registry and its cache, and nothing else yet. -/
def new_server (block : Nat) (protocol_registry : Option RegistryMemory) (gzip_cache : Option (Nat × Nat)) :
    ServerMemory :=
  ⟨block, none, none, none, none, none, [], protocol_registry, gzip_cache, none⟩

/-- `uvhttp_server_new`: the upgrade to WebSocket and the cache are left out where there is no memory for
them. -/
def uvhttp_server_new (uv_tcp_init : Bool) : LedgerM (Option ServerMemory) := do
  match ← acquire granted with
  | none => pure none
  | some block =>
    if !uv_tcp_init then do
      release block
      pure none
    else do
      let protocol_registry ← uvhttp_server_register_protocol_upgrade granted none (bytes "websocket")
      let gzip_cache ← uvhttp_gzip_cache_create granted
      pure (some (new_server block protocol_registry gzip_cache))

/-- The blocks of a list of `ws_route_entry_t` in the order in which they are freed. -/
def route_blocks (ws_routes : List (Nat × Nat)) : List Nat := ws_routes.flatMap fun entry => [entry.2, entry.1]

def registry_free (registry : RegistryMemory) : LedgerM Unit := do
  release_all (registry.protocols.map Prod.fst)
  release registry.block

/-- `uvhttp_gzip_cache_free`, with no streams in the cache. -/
def uvhttp_gzip_cache_free (cache : Nat × Nat) : LedgerM Unit := do
  release cache.2
  release cache.1

def uvhttp_server_free (s : ServerMemory) : LedgerM Unit := do
  release_object uvhttp_router_free s.router
  release_all s.tls_ctx.toList
  uvhttp_config_free s.config
  release_object uvhttp_context_destroy s.context
  release_all (route_blocks s.ws_routes)
  release_object registry_free s.protocol_registry
  release_object uvhttp_gzip_cache_free s.gzip_cache
  release_all s.loop.toList
  release s.block

def uvhttp_server_new_with_loop (uv_loop_init uv_tcp_init : Bool) : LedgerM (Option ServerMemory) := do
  match ← acquire granted with
  | none => pure none
  | some loop =>
    if !uv_loop_init then do
      release loop
      pure none
    else
      match ← uvhttp_server_new granted uv_tcp_init with
      | none => do
        release loop
        pure none
      | some s => pure (some { s with loop := some loop })

/-- `create_simple_server_internal`: the block of the `uvhttp_server_builder_t`, and its server. -/
def create_simple_server_internal (uv_tcp_init listens : Bool) : LedgerM (Option (Nat × ServerMemory)) := do
  match ← acquire granted with
  | none => pure none
  | some simple =>
    match ← uvhttp_server_new granted uv_tcp_init with
    | none => do
      release simple
      pure none
    | some s =>
      match ← uvhttp_router_new granted with
      | none => do
        uvhttp_server_free { s with config := none }
        release simple
        pure none
      | some router =>
        match ← uvhttp_config_new granted with
        | none => do
          uvhttp_router_free router
          uvhttp_server_free { s with config := none, router := none }
          release simple
          pure none
        | some config =>
          if !listens then do
            uvhttp_server_free { s with config := some config, router := some router }
            release simple
            pure none
          else pure (some (simple, { s with config := some config, router := some router }))

def uvhttp_server_simple_free (simple : Nat) (s : ServerMemory) : LedgerM Unit := do
  uvhttp_server_free s
  release simple

/-- `uvhttp_server_ws_disable_connection_management`. -/
def ws_disable (s : ServerMemory) : LedgerM ServerMemory :=
  match s.ws_connection_manager with
  | none => pure s
  | some manager => do
    release_all (manager.connections.map Prod.fst)
    release manager.block
    pure { s with ws_connection_manager := none }

/-- `uvhttp_server_ws_enable_connection_management`, for intervals that are allowed. -/
def ws_enable (timers : Bool) (s : ServerMemory) : LedgerM ServerMemory := do
  let s ← ws_disable s
  match ← acquire granted with
  | none => pure s
  | some manager =>
    if !timers then do
      release manager
      pure s
    else pure { s with ws_connection_manager := some ⟨manager, []⟩ }

/-- A change of the list of the manager, if there is one. -/
def on_connections (change : List (Nat × Nat) → LedgerM (List (Nat × Nat))) (s : ServerMemory) : LedgerM ServerMemory :=
  match s.ws_connection_manager with
  | none => pure s
  | some manager => do
    let connections ← change manager.connections
    pure { s with ws_connection_manager := some { manager with connections } }

/-- A node for a connection, where there is memory for it. -/
def add_node (ws_conn : Nat) (connections : List (Nat × Nat)) : LedgerM (List (Nat × Nat)) := do
  match ← acquire granted with
  | none => pure connections
  | some node => pure ((node, ws_conn) :: connections)

/-- `uvhttp_server_set_router`, which forgets the router that the server had. -/
def uvhttp_server_set_router (s : ServerMemory) (router : Option RouterMemory) : ServerMemory := { s with router }

/-- `uvhttp_server_set_context`, which forgets the context that the server had. -/
def uvhttp_server_set_context (s : ServerMemory) (context : Option Context) : ServerMemory := { s with context }

/-- `uvhttp_server_enable_tls`, which frees the TLS context that the server had before it looks at the new one. -/
def uvhttp_server_enable_tls (s : ServerMemory) (tls_ctx : Option Nat) : LedgerM ServerMemory :=
  match tls_ctx with
  | none => pure s
  | some tls_ctx => do
    release_all s.tls_ctx.toList
    pure { s with tls_ctx := some tls_ctx }

def uvhttp_server_disable_tls (s : ServerMemory) : LedgerM ServerMemory := do
  release_all s.tls_ctx.toList
  pure { s with tls_ctx := none }

/-- A call that works on the memory of a server and hands it no object. -/
inductive ServerCall where
  | uvhttp_router_add_static_route
  | uvhttp_server_disable_tls
  | uvhttp_server_register_ws_handler
  | uvhttp_server_register_protocol_upgrade (protocol_name : List UInt8)
  | uvhttp_server_unregister_protocol_upgrade (protocol_name : List UInt8)
  | uvhttp_server_ws_enable_connection_management (timers : Bool)
  | uvhttp_server_ws_disable_connection_management
  | uvhttp_server_ws_add_connection (ws_conn : Nat)
  | uvhttp_server_ws_remove_connection (ws_conn : Nat)
  | close_nodes (goes : Nat → Bool)

def ServerCall.perform (s : ServerMemory) : ServerCall → LedgerM ServerMemory
  | .uvhttp_router_add_static_route =>
    match s.router with
    | none => pure s
    | some router => do
      let router ← ownership.uvhttp_router_add_static_route granted router
      pure { s with router := some router }
  | .uvhttp_server_disable_tls => ownership.uvhttp_server_disable_tls s
  | .uvhttp_server_register_ws_handler => do
    match ← acquire granted with
    | none => pure s
    | some entry =>
      match ← acquire granted with
      | none => do
        release entry
        pure s
      | some path => pure { s with ws_routes := s.ws_routes ++ [(entry, path)] }
  | .uvhttp_server_register_protocol_upgrade protocol_name => do
    let protocol_registry ←
      ownership.uvhttp_server_register_protocol_upgrade granted s.protocol_registry protocol_name
    pure { s with protocol_registry }
  | .uvhttp_server_unregister_protocol_upgrade protocol_name =>
    match s.protocol_registry with
    | none => pure s
    | some registry => do
      let protocols ← free_first (strcasecmp · protocol_name) registry.protocols
      pure { s with protocol_registry := some { registry with protocols } }
  | .uvhttp_server_ws_enable_connection_management timers => ws_enable granted timers s
  | .uvhttp_server_ws_disable_connection_management => ws_disable s
  | .uvhttp_server_ws_add_connection ws_conn => on_connections (add_node granted ws_conn) s
  | .uvhttp_server_ws_remove_connection ws_conn => on_connections (free_first fun other => other = ws_conn) s
  | .close_nodes goes => on_connections (free_where goes) s

end servers

def RouterMemory.blocks (router : RouterMemory) : List Nat :=
  router.node_pool :: router.array_routes :: (router.served ++ [router.block])

def RegistryMemory.blocks (registry : RegistryMemory) : List Nat := registry.protocols.map Prod.fst ++ [registry.block]

def ManagerMemory.blocks (manager : ManagerMemory) : List Nat := manager.connections.map Prod.fst ++ [manager.block]

/-- The blocks of a server, part by part in the order in which `uvhttp_server_free` frees them; the manager of
the WebSocket connections is not freed with it. -/
def ServerMemory.parts (s : ServerMemory) : List (List Nat) :=
  [resources_of RouterMemory.blocks s.router, s.tls_ctx.toList, s.config.toList, resources_of Context.blocks s.context,
    route_blocks s.ws_routes, resources_of RegistryMemory.blocks s.protocol_registry,
    resources_of (fun cache => [cache.2, cache.1]) s.gzip_cache, s.loop.toList, [s.block],
    resources_of ManagerMemory.blocks s.ws_connection_manager]

def ServerMemory.blocks (s : ServerMemory) : List Nat := s.parts.flatten

/-- A server, and the objects in use that its application has beside it. -/
structure Application where
  server : ServerMemory
  routers : List RouterMemory
  tls_contexts : List Nat
  contexts : List Context
  configs : List Nat
  deriving DecidableEq, Repr

/-- The blocks of the objects that the server does not hold. -/
def Application.spare (a : Application) : List Nat :=
  a.routers.flatMap RouterMemory.blocks ++ (a.tls_contexts ++ (a.contexts.flatMap Context.blocks ++ a.configs))

def Application.blocks (a : Application) : List Nat := a.server.blocks ++ a.spare

/-- A call of an application. An object is told by its place among those that are in use: the server is handed
one that it can free, a router or a context also if it holds it already, a TLS context only if it does not, and
none where there is none at the place; an object is freed by the application if no other one holds it. A call
on a context is one on the context of the server, or on another one. -/
inductive ApplicationCall where
  | server (call : ServerCall)
  | uvhttp_router_new
  | uvhttp_router_free (router : Nat)
  | uvhttp_router_add_static_route (router : Nat)
  | uvhttp_server_set_router (router : Nat)
  | uvhttp_tls_context_new (configured : Bool)
  | uvhttp_tls_context_free (tls_ctx : Nat)
  | uvhttp_server_enable_tls (tls_ctx : Nat)
  | uvhttp_context_create
  | uvhttp_context_destroy (context : Nat)
  | uvhttp_server_set_context (context : Nat)
  | context (context : Option Nat) (call : ContextCall)

/-- The context that a call is on. -/
def Application.context_at (a : Application) : Option Nat → Option Context
  | none => a.server.context
  | some i => a.contexts[i]?

/-- A context in the place of another one. -/
def Application.with_context (a : Application) (c : Context) : Option Nat → Application
  | none => { a with server := { a.server with context := some c } }
  | some i => { a with contexts := a.contexts.set i c }

section applications

variable (granted : Nat → Bool)

def ApplicationCall.perform (a : Application) : ApplicationCall → LedgerM Application
  | .server call => do
    let server ← call.perform granted a.server
    pure { a with server }
  | .uvhttp_router_new => do
    let router ← ownership.uvhttp_router_new granted
    pure { a with routers := a.routers ++ router.toList }
  | .uvhttp_router_free router => do
    release_object ownership.uvhttp_router_free a.routers[router]?
    pure { a with routers := a.routers.eraseIdx router }
  | .uvhttp_router_add_static_route i =>
    match a.routers[i]? with
    | none => pure a
    | some router => do
      let router ← ownership.uvhttp_router_add_static_route granted router
      pure { a with routers := a.routers.set i router }
  | .uvhttp_server_set_router router =>
    let offered := a.server.router.toList ++ a.routers
    pure { a with
      server := ownership.uvhttp_server_set_router a.server offered[router]?
      routers := offered.eraseIdx router }
  | .uvhttp_tls_context_new configured => do
    let tls_ctx ← ownership.uvhttp_tls_context_new granted configured
    pure { a with tls_contexts := a.tls_contexts ++ tls_ctx.toList }
  | .uvhttp_tls_context_free tls_ctx => do
    release_all a.tls_contexts[tls_ctx]?.toList
    pure { a with tls_contexts := a.tls_contexts.eraseIdx tls_ctx }
  | .uvhttp_server_enable_tls tls_ctx => do
    let server ← ownership.uvhttp_server_enable_tls a.server a.tls_contexts[tls_ctx]?
    pure { a with server, tls_contexts := a.tls_contexts.eraseIdx tls_ctx }
  | .uvhttp_context_create => do
    let context ← context.uvhttp_context_create granted
    pure { a with contexts := a.contexts ++ context.toList }
  | .uvhttp_context_destroy i => do
    release_object context.uvhttp_context_destroy a.contexts[i]?
    pure { a with contexts := a.contexts.eraseIdx i }
  | .uvhttp_server_set_context i =>
    let offered := a.server.context.toList ++ a.contexts
    pure { a with
      server := ownership.uvhttp_server_set_context a.server offered[i]?
      contexts := offered.eraseIdx i }
  | .context i call =>
    match a.context_at i with
    | none => pure a
    | some c => do
      let called ← call.perform granted ⟨c, a.configs⟩
      pure { a.with_context called.context i with configs := called.configs }

end applications

/-- The blocks that nothing leads to after a call: those that a call on a context loses. -/
def ApplicationCall.loses (a : Application) : ApplicationCall → List Nat
  | .context i call => resources_of (fun c => call.loses ⟨c, a.configs⟩) (a.context_at i)
  | _ => []

/-- The ways to create a server, with what libuv answers. -/
inductive Creation where
  | uvhttp_server_new (uv_tcp_init : Bool)
  | uvhttp_server_new_with_loop (uv_loop_init uv_tcp_init : Bool)
  | uvhttp_server_create (uv_tcp_init listens : Bool)
  deriving DecidableEq, Repr

def Creation.perform (granted : Nat → Bool) : Creation → LedgerM (Option (Option Nat × ServerMemory))
  | .uvhttp_server_new uv_tcp_init => Option.map (none, ·) <$> ownership.uvhttp_server_new granted uv_tcp_init
  | .uvhttp_server_new_with_loop uv_loop_init uv_tcp_init =>
    Option.map (none, ·) <$> ownership.uvhttp_server_new_with_loop granted uv_loop_init uv_tcp_init
  | .uvhttp_server_create uv_tcp_init listens =>
    Option.map (fun made => (some made.1, made.2)) <$> create_simple_server_internal granted uv_tcp_init listens

/-- The end of a server, with its builder if it has one. -/
def server_end (simple : Option Nat) (s : ServerMemory) : LedgerM Unit :=
  match simple with
  | none => uvhttp_server_free s
  | some simple => uvhttp_server_simple_free simple s

/-- What a server leaves behind: the manager of its WebSocket connections if there still is one, the objects
that are held by the application alone, and the blocks that were lost. -/
structure Left where
  manager : List Nat
  spare : List Nat
  lost : List Nat
  deriving DecidableEq, Repr

/-- A server from its creation to its end. -/
def server_life (granted : Nat → Bool) (creation : Creation) (calls : List ApplicationCall) : LedgerM Left := do
  match ← creation.perform granted with
  | none => pure ⟨[], [], []⟩
  | some (simple, s) => do
    let (last, lost) ← run_losing (losing (ApplicationCall.perform granted) fun a _ call => call.loses a)
      (Application.mk s [] [] [] []) calls
    server_end simple last.server
    pure ⟨resources_of ManagerMemory.blocks last.server.ws_connection_manager, last.spare, lost⟩

section objects

variable {granted : Nat → Bool} {before : List Nat}

theorem router_new_accounts : Accounts (uvhttp_router_new granted) before fun router rs =>
    rs = resources_of RouterMemory.blocks router ++ before ∧ ∀ created ∈ router, created.block ∉ before := by
  have hnone : ∀ created ∈ (none : Option RouterMemory), created.block ∉ before := by
    intro created hcreated
    cases hcreated
  refine Accounts.acquire_bind (fun block hfresh => Accounts.acquire_bind (fun array_routes _ =>
    Accounts.acquire_bind (fun node_pool _ => ?_) ?_) ?_) ?_
  · refine Accounts.pure ⟨rfl, ?_⟩
    intro created hcreated
    obtain rfl := Option.some.inj hcreated
    exact hfresh
  · refine Accounts.release_bind (List.Perm.refl _) ?_
    exact Accounts.release_bind (List.Perm.refl _) (Accounts.pure ⟨rfl, hnone⟩)
  · exact Accounts.release_bind (List.Perm.refl _) (Accounts.pure ⟨rfl, hnone⟩)
  · exact Accounts.pure ⟨rfl, hnone⟩

theorem router_free_accounts (router : RouterMemory) : Accounts (uvhttp_router_free router)
    (router.blocks ++ before) fun _ rs => rs = before := by
  refine Accounts.release_bind (List.Perm.refl _) ?_
  refine Accounts.release_bind (List.Perm.refl _) ?_
  have hrest : (router.served ++ [router.block] ++ before).Perm (router.served ++ router.block :: before) := by
    rw [List.append_assoc]
    rfl
  exact Accounts.release_all_bind hrest Accounts.release

theorem tls_context_new_accounts {configured : Bool} : Accounts (uvhttp_tls_context_new granted configured) before
    fun ctx rs => rs = ctx.toList ++ before := by
  refine Accounts.acquire_bind (fun ctx _ => ?_) (Accounts.pure rfl)
  cases configured with
  | true => exact Accounts.pure rfl
  | false => exact Accounts.release_bind (List.Perm.refl _) (Accounts.pure rfl)

theorem gzip_cache_create_accounts : Accounts (uvhttp_gzip_cache_create granted) before fun cache rs =>
    rs = resources_of (fun cache => [cache.2, cache.1]) cache ++ before := by
  refine Accounts.acquire_bind (fun cache _ => Accounts.acquire_bind (fun entries _ => ?_) ?_) (Accounts.pure rfl)
  · exact Accounts.pure rfl
  · exact Accounts.release_bind (List.Perm.refl _) (Accounts.pure rfl)

theorem registry_for_accounts (registry : Option RegistryMemory) : Accounts (registry_for granted registry)
    (resources_of RegistryMemory.blocks registry ++ before) fun found rs =>
      rs = resources_of RegistryMemory.blocks found ++ before := by
  cases registry with
  | some registry => exact Accounts.pure rfl
  | none => exact Accounts.acquire_bind (fun block _ => Accounts.pure rfl) (Accounts.pure rfl)

theorem register_protocol_accounts (registry : Option RegistryMemory) (protocol_name : List UInt8) :
    Accounts (uvhttp_server_register_protocol_upgrade granted registry protocol_name)
      (resources_of RegistryMemory.blocks registry ++ before) fun registry' rs =>
        rs = resources_of RegistryMemory.blocks registry' ++ before := by
  refine (registry_for_accounts registry).bind ?_
  rintro found rs rfl
  cases found with
  | none => exact Accounts.pure rfl
  | some found =>
    dsimp only
    split
    · exact Accounts.pure rfl
    split
    · exact Accounts.pure rfl
    · exact Accounts.acquire_bind (fun info _ => Accounts.pure rfl) (Accounts.pure rfl)

/-- The element that is taken out is freed. -/
theorem free_first_accounts {α : Type} (found : α → Bool) (entries : List (Nat × α)) :
    Accounts (free_first found entries) (entries.map Prod.fst ++ before) fun entries' rs =>
      rs.Perm (entries'.map Prod.fst ++ before) := by
  induction entries generalizing before with
  | nil => exact Accounts.pure (List.Perm.refl _)
  | cons entry entries ih =>
    rw [free_first]
    by_cases hfound : found entry.2 = true
    · rw [if_pos hfound]
      exact Accounts.release_bind (List.Perm.refl _) (Accounts.pure (List.Perm.refl _))
    · rw [if_neg hfound]
      refine Accounts.perm List.perm_middle.symm ((@ih (entry.1 :: before)).bind ?_)
      exact fun entries' rs hrs => Accounts.pure (hrs.trans List.perm_middle)

theorem free_where_accounts {α : Type} (goes : α → Bool) (entries : List (Nat × α)) :
    Accounts (free_where goes entries) (entries.map Prod.fst ++ before) fun entries' rs =>
      rs.Perm (entries'.map Prod.fst ++ before) := by
  induction entries generalizing before with
  | nil => exact Accounts.pure (List.Perm.refl _)
  | cons entry entries ih =>
    rw [free_where]
    by_cases hgoes : goes entry.2 = true
    · rw [if_pos hgoes]
      exact Accounts.release_bind (List.Perm.refl _) ih
    · rw [if_neg hgoes]
      refine Accounts.perm List.perm_middle.symm ((@ih (entry.1 :: before)).bind ?_)
      exact fun entries' rs hrs => Accounts.pure (hrs.trans List.perm_middle)

end objects

section servers

variable {granted : Nat → Bool} {before : List Nat}

/-- A server as `uvhttp_server_new` makes it. -/
def New (s : ServerMemory) : Prop := ∃ protocol_registry gzip_cache, s = new_server s.block protocol_registry gzip_cache

theorem server_new_accounts {uv_tcp_init : Bool} : Accounts (uvhttp_server_new granted uv_tcp_init) before
    fun s rs => rs.Perm (resources_of ServerMemory.blocks s ++ before) ∧ ∀ made ∈ s, New made := by
  have hnone : ∀ made ∈ (none : Option ServerMemory), New made := by
    intro made hmade
    cases hmade
  refine Accounts.acquire_bind (fun block _ => ?_) (Accounts.pure ⟨List.Perm.refl _, hnone⟩)
  cases uv_tcp_init with
  | false => exact Accounts.release_bind (List.Perm.refl _) (Accounts.pure ⟨List.Perm.refl _, hnone⟩)
  | true =>
    refine (register_protocol_accounts none (bytes "websocket")).bind ?_
    rintro protocol_registry rs rfl
    refine gzip_cache_create_accounts.bind ?_
    rintro gzip_cache rs rfl
    refine Accounts.pure ⟨?_, ?_⟩
    · have hblocks : (new_server block protocol_registry gzip_cache).blocks =
          resources_of RegistryMemory.blocks protocol_registry ++
            (resources_of (fun cache => [cache.2, cache.1]) gzip_cache ++ [block]) := rfl
      change List.Perm _ ((new_server block protocol_registry gzip_cache).blocks ++ before)
      rw [hblocks, List.append_assoc, List.append_assoc]
      exact List.perm_append_comm_assoc _ _ _
    · intro made hmade
      obtain rfl := Option.some.inj hmade
      exact ⟨protocol_registry, gzip_cache, rfl⟩

/-- A new server that is given its loop. -/
theorem blocks_loop {s : ServerMemory} (h : New s) (loop : Nat) :
    ({ s with loop := some loop } : ServerMemory).blocks.Perm (loop :: s.blocks) := by
  obtain ⟨protocol_registry, gzip_cache, hs⟩ := h
  have hpart := @perm_part ({ s with loop := some loop } : ServerMemory).parts 7 [loop] rfl
  rw [hs] at hpart ⊢
  exact hpart

/-- A new server that is given a configuration and a router. -/
theorem blocks_configured {s : ServerMemory} (h : New s) (config : Nat) (router : RouterMemory) :
    ({ s with config := some config, router := some router } : ServerMemory).blocks =
      router.blocks ++ config :: s.blocks := by
  obtain ⟨protocol_registry, gzip_cache, hs⟩ := h
  rw [hs]
  rfl

theorem New.manager {s : ServerMemory} (h : New s) : s.ws_connection_manager = none := by
  obtain ⟨protocol_registry, gzip_cache, hs⟩ := h
  rw [hs]
  rfl

/-- What a failed creation sets to nothing is nothing. -/
theorem New.unset {s : ServerMemory} (h : New s) : { s with config := none } = s ∧
    { s with config := none, router := none } = s := by
  obtain ⟨protocol_registry, gzip_cache, hs⟩ := h
  rw [hs]
  exact ⟨rfl, rfl⟩

section calls

variable (s : ServerMemory)

theorem add_static_route_accounts (router : RouterMemory) :
    Accounts (uvhttp_router_add_static_route granted router) router.blocks fun router' rs =>
      rs.Perm router'.blocks := by
  have hserved (router : RouterMemory) : router.blocks.Perm
      (router.served ++ [router.node_pool, router.array_routes, router.block]) :=
    List.perm_append_comm_assoc [router.node_pool, router.array_routes] router.served [router.block]
  refine Accounts.release_all_bind (hserved router) ?_
  refine Accounts.acquire_bind (fun served _ => Accounts.pure ?_) (Accounts.pure ?_)
  · exact (hserved { router with static_prefix := some served }).symm
  · exact (hserved { router with static_prefix := none }).symm

theorem static_route_accounts : Accounts (ServerCall.uvhttp_router_add_static_route.perform granted s) s.blocks
    fun s' rs => rs.Perm s'.blocks := by
  rw [ServerCall.perform]
  cases hrouter : s.router with
  | none => exact Accounts.pure (List.Perm.refl _)
  | some router =>
    have hpart : s.parts[0]? = some router.blocks := by
      rw [ServerMemory.parts, hrouter]
      rfl
    refine Accounts.part 0 ServerMemory.parts hpart ?_
    exact (add_static_route_accounts router).bind fun router' rs hrs => Accounts.pure ⟨router'.blocks, rfl, hrs⟩

theorem register_ws_handler_accounts :
    Accounts (ServerCall.uvhttp_server_register_ws_handler.perform granted s) s.blocks fun s' rs =>
      rs.Perm s'.blocks := by
  refine Accounts.part 4 ServerMemory.parts rfl ?_
  refine Accounts.acquire_bind (fun entry _ => Accounts.acquire_bind (fun path _ => ?_) ?_) ?_
  · have hroutes : route_blocks (s.ws_routes ++ [(entry, path)]) = route_blocks s.ws_routes ++ [path, entry] :=
      List.flatMap_append
    refine Accounts.pure ⟨route_blocks (s.ws_routes ++ [(entry, path)]), rfl, ?_⟩
    rw [hroutes]
    exact @List.perm_append_comm _ [path, entry] (route_blocks s.ws_routes)
  · exact Accounts.release_bind (List.Perm.refl _) (Accounts.pure ⟨_, rfl, List.Perm.refl _⟩)
  · exact Accounts.pure ⟨_, rfl, List.Perm.refl _⟩

theorem register_protocol_upgrade_accounts (protocol_name : List UInt8) :
    Accounts ((ServerCall.uvhttp_server_register_protocol_upgrade protocol_name).perform granted s) s.blocks
      fun s' rs => rs.Perm s'.blocks := by
  have hpart : s.parts[5]? = some (resources_of RegistryMemory.blocks s.protocol_registry ++ []) := by
    rw [List.append_nil]
    rfl
  refine Accounts.part 5 ServerMemory.parts hpart ?_
  refine (register_protocol_accounts s.protocol_registry protocol_name).bind ?_
  rintro protocol_registry rs rfl
  exact Accounts.pure ⟨_, rfl, List.Perm.of_eq (List.append_nil _)⟩

theorem unregister_protocol_upgrade_accounts (protocol_name : List UInt8) :
    Accounts ((ServerCall.uvhttp_server_unregister_protocol_upgrade protocol_name).perform granted s) s.blocks
      fun s' rs => rs.Perm s'.blocks := by
  rw [ServerCall.perform]
  cases hregistry : s.protocol_registry with
  | none => exact Accounts.pure (List.Perm.refl _)
  | some registry =>
    have hpart : s.parts[5]? = some registry.blocks := by
      rw [ServerMemory.parts, hregistry]
      rfl
    refine Accounts.part 5 ServerMemory.parts hpart ?_
    exact (free_first_accounts _ registry.protocols).bind fun protocols rs hrs => Accounts.pure ⟨_, rfl, hrs⟩

/-- A change of the list frees the nodes that it takes out. -/
theorem on_connections_accounts {change : List (Nat × Nat) → LedgerM (List (Nat × Nat))}
    (hchange : ∀ (block : Nat) (connections : List (Nat × Nat)),
      Accounts (change connections) (connections.map Prod.fst ++ [block]) fun connections' rs =>
        rs.Perm (connections'.map Prod.fst ++ [block])) :
    Accounts (on_connections change s) s.blocks fun s' rs => rs.Perm s'.blocks := by
  rw [on_connections]
  cases hmanager : s.ws_connection_manager with
  | none => exact Accounts.pure (List.Perm.refl _)
  | some manager =>
    have hpart : s.parts[9]? = some manager.blocks := by
      rw [ServerMemory.parts, hmanager]
      rfl
    refine Accounts.part 9 ServerMemory.parts hpart ?_
    exact (hchange manager.block manager.connections).bind fun connections rs hrs => Accounts.pure ⟨_, rfl, hrs⟩

theorem add_node_accounts (ws_conn block : Nat) (connections : List (Nat × Nat)) :
    Accounts (add_node granted ws_conn connections) (connections.map Prod.fst ++ [block]) fun connections' rs =>
      rs.Perm (connections'.map Prod.fst ++ [block]) :=
  Accounts.acquire_bind (fun _ _ => Accounts.pure (List.Perm.refl _)) (Accounts.pure (List.Perm.refl _))

theorem ws_disable_accounts : Accounts (ws_disable s) (resources_of ManagerMemory.blocks s.ws_connection_manager)
    fun s' rs => rs = [] ∧ s' = { s with ws_connection_manager := none } := by
  rw [ws_disable]
  cases hmanager : s.ws_connection_manager with
  | none =>
    refine Accounts.pure ⟨rfl, ?_⟩
    rw [← hmanager]
  | some manager =>
    refine Accounts.release_all_bind (List.Perm.refl _) ?_
    exact Accounts.release_bind (List.Perm.refl _) (Accounts.pure ⟨rfl, rfl⟩)

theorem disable_management_accounts :
    Accounts (ServerCall.uvhttp_server_ws_disable_connection_management.perform granted s) s.blocks fun s' rs =>
      rs.Perm s'.blocks := by
  refine Accounts.part 9 ServerMemory.parts rfl ?_
  refine (ws_disable_accounts s).mono ?_
  rintro s' rs ⟨rfl, rfl⟩
  exact ⟨[], rfl, List.Perm.refl _⟩

theorem enable_management_accounts (timers : Bool) :
    Accounts ((ServerCall.uvhttp_server_ws_enable_connection_management timers).perform granted s) s.blocks
      fun s' rs => rs.Perm s'.blocks := by
  refine Accounts.part 9 ServerMemory.parts rfl ?_
  refine (ws_disable_accounts s).bind ?_
  rintro s' rs ⟨rfl, rfl⟩
  refine Accounts.acquire_bind (fun manager _ => ?_) (Accounts.pure ⟨[], rfl, List.Perm.refl _⟩)
  cases timers with
  | true => exact Accounts.pure ⟨[manager], rfl, List.Perm.refl _⟩
  | false => exact Accounts.release_bind (List.Perm.refl _) (Accounts.pure ⟨[], rfl, List.Perm.refl _⟩)

/-- A call keeps account of its blocks. -/
theorem server_call_accounts (call : ServerCall) : Accounts (call.perform granted s) s.blocks fun s' rs =>
    rs.Perm s'.blocks := by
  cases call with
  | uvhttp_router_add_static_route => exact static_route_accounts s
  | uvhttp_server_disable_tls =>
    refine Accounts.part 1 ServerMemory.parts rfl ?_
    exact Accounts.release_all_bind (List.append_nil _ ▸ List.Perm.refl _)
      (Accounts.pure ⟨[], rfl, List.Perm.refl _⟩)
  | uvhttp_server_register_ws_handler => exact register_ws_handler_accounts s
  | uvhttp_server_register_protocol_upgrade name => exact register_protocol_upgrade_accounts s name
  | uvhttp_server_unregister_protocol_upgrade name => exact unregister_protocol_upgrade_accounts s name
  | uvhttp_server_ws_enable_connection_management timers => exact enable_management_accounts s timers
  | uvhttp_server_ws_disable_connection_management => exact disable_management_accounts s
  | uvhttp_server_ws_add_connection ws_conn => exact on_connections_accounts s (add_node_accounts ws_conn)
  | uvhttp_server_ws_remove_connection ws_conn => exact on_connections_accounts s fun _ => free_first_accounts _
  | close_nodes goes => exact on_connections_accounts s fun _ => free_where_accounts goes

theorem registry_free_accounts (registry : RegistryMemory) : Accounts (registry_free registry)
    (registry.blocks ++ before) fun _ rs => rs = before := by
  have hblocks : registry.blocks ++ before = registry.protocols.map Prod.fst ++ registry.block :: before :=
    List.append_assoc ..
  rw [hblocks]
  exact Accounts.release_all_bind (List.Perm.refl _) Accounts.release

theorem gzip_cache_free_accounts (cache : Nat × Nat) : Accounts (uvhttp_gzip_cache_free cache)
    ([cache.2, cache.1] ++ before) fun _ rs => rs = before :=
  Accounts.release_bind (List.Perm.refl _) Accounts.release

/-- The server frees what it holds, except for the manager. -/
theorem server_free_accounts : Accounts (uvhttp_server_free s) s.blocks fun _ rs =>
    rs = resources_of ManagerMemory.blocks s.ws_connection_manager ++ [] := by
  refine (Accounts.release_object router_free_accounts s.router).bind ?_
  rintro - rs rfl
  refine Accounts.release_all_bind (List.Perm.refl _) ?_
  refine Accounts.release_all_bind (List.Perm.refl _) ?_
  refine (Accounts.release_object (fun c => ?_) s.context).bind ?_
  · refine ((destroy_accounts c).frame _).mono ?_
    rintro - rs ⟨own, rfl, rfl⟩
    rfl
  rintro - rs rfl
  refine Accounts.release_all_bind (List.Perm.refl _) ?_
  refine (Accounts.release_object registry_free_accounts s.protocol_registry).bind ?_
  rintro - rs rfl
  refine (Accounts.release_object gzip_cache_free_accounts s.gzip_cache).bind ?_
  rintro - rs rfl
  refine Accounts.release_all_bind (List.Perm.refl _) ?_
  exact Accounts.release

theorem server_freed (hmanager : s.ws_connection_manager = none) : Accounts (uvhttp_server_free s)
    (s.blocks ++ before) fun _ rs => rs = before := by
  refine ((server_free_accounts s).frame before).mono ?_
  rintro - rs ⟨own, rfl, rfl⟩
  rw [hmanager]
  rfl

end calls

/-- The parts of a server that it is handed, in front of the others. -/
theorem blocks_router (s : ServerMemory) (router : Option RouterMemory) : (uvhttp_server_set_router s router).blocks =
    resources_of RouterMemory.blocks router ++ (uvhttp_server_set_router s none).blocks := rfl

theorem blocks_context (s : ServerMemory) (context : Option Context) :
    (uvhttp_server_set_context s context).blocks.Perm
      (resources_of Context.blocks context ++ (uvhttp_server_set_context s none).blocks) :=
  @perm_part (uvhttp_server_set_context s context).parts 3 _ rfl

theorem blocks_tls_ctx (s : ServerMemory) (tls_ctx : Option Nat) : ({ s with tls_ctx } : ServerMemory).blocks.Perm
    (tls_ctx.toList ++ ({ s with tls_ctx := none } : ServerMemory).blocks) :=
  @perm_part ({ s with tls_ctx } : ServerMemory).parts 1 _ rfl

section applications

variable (a : Application)

theorem count_blocks (r : Nat) : a.blocks.count r = a.server.blocks.count r +
    ((a.routers.flatMap RouterMemory.blocks).count r + (a.tls_contexts.count r +
      ((a.contexts.flatMap Context.blocks).count r + a.configs.count r))) := by
  simp only [Application.blocks, Application.spare, List.count_append]

theorem set_router_accounts (i : Nat) :
    Accounts ((ApplicationCall.uvhttp_server_set_router i).perform granted a) a.blocks fun a' rs =>
      rs.Perm a'.blocks := by
  have htaken := taken_resources RouterMemory.blocks (a.server.router.toList ++ a.routers) i
  rw [List.flatMap_append, resources_toList] at htaken
  exact Accounts.pure (exchanged_perm (List.Perm.of_eq (blocks_router a.server a.server.router))
    (List.Perm.of_eq (blocks_router a.server _)) htaken)

theorem set_context_accounts (i : Nat) :
    Accounts ((ApplicationCall.uvhttp_server_set_context i).perform granted a) a.blocks fun a' rs =>
      rs.Perm a'.blocks := by
  have htaken := taken_resources Context.blocks (a.server.context.toList ++ a.contexts) i
  rw [List.flatMap_append, resources_toList] at htaken
  have hfront (a : Application) : a.blocks.Perm (a.server.blocks ++ (a.contexts.flatMap Context.blocks ++
      (a.routers.flatMap RouterMemory.blocks ++ (a.tls_contexts ++ a.configs)))) := by
    rw [Application.blocks, Application.spare]
    grind
  refine Accounts.pure ((hfront a).trans (List.Perm.trans ?_ (hfront _).symm))
  exact exchanged_perm (blocks_context a.server a.server.context) (blocks_context a.server _) htaken

/-- The TLS context that the server had is freed. -/
theorem enable_tls_accounts (i : Nat) :
    Accounts ((ApplicationCall.uvhttp_server_enable_tls i).perform granted a) a.blocks fun a' rs =>
      rs.Perm a'.blocks := by
  have htaken := taken_perm a.tls_contexts i
  rw [ApplicationCall.perform]
  cases htls : a.tls_contexts[i]? with
  | none =>
    rw [htls] at htaken
    exact Accounts.pure (((htaken.append_right _).append_left _).append_left _)
  | some tls_ctx =>
    rw [htls] at htaken
    have hbefore := blocks_tls_ctx a.server a.server.tls_ctx
    have hafter := blocks_tls_ctx a.server (some tls_ctx)
    have hsame : ({ a.server with tls_ctx := a.server.tls_ctx } : ServerMemory) = a.server := rfl
    rw [hsame] at hbefore
    have hfreed : a.blocks.Perm (a.server.tls_ctx.toList ++
        (Application.mk { a.server with tls_ctx := some tls_ctx } a.routers (a.tls_contexts.eraseIdx i) a.contexts
          a.configs).blocks) := by
      simp only [Application.blocks, Application.spare]
      grind
    have henable : uvhttp_server_enable_tls a.server (some tls_ctx) =
        release_all a.server.tls_ctx.toList >>= fun _ => pure { a.server with tls_ctx := some tls_ctx } := rfl
    rw [henable, bind_assoc]
    exact Accounts.release_all_bind hfreed (Accounts.pure (List.Perm.refl _))

/-- What is made stands at the end of its list. -/
theorem router_new_call_accounts : Accounts (ApplicationCall.uvhttp_router_new.perform granted a) a.blocks
    fun a' rs => rs.Perm a'.blocks := by
  refine router_new_accounts.bind ?_
  rintro router rs ⟨rfl, -⟩
  refine Accounts.pure ?_
  simp only [Application.blocks, Application.spare, List.flatMap_append, resources_toList]
  exact made_perm _ _ _ _

theorem tls_context_new_call_accounts (configured : Bool) :
    Accounts ((ApplicationCall.uvhttp_tls_context_new configured).perform granted a) a.blocks fun a' rs =>
      rs.Perm a'.blocks := by
  refine tls_context_new_accounts.bind ?_
  rintro tls_ctx rs rfl
  refine Accounts.pure ?_
  simp only [Application.blocks, Application.spare]
  grind

theorem context_create_call_accounts : Accounts (ApplicationCall.uvhttp_context_create.perform granted a) a.blocks
    fun a' rs => rs.Perm a'.blocks := by
  refine create_accounts.bind ?_
  rintro c rs ⟨rfl, -⟩
  refine Accounts.pure ?_
  simp only [Application.blocks, Application.spare, List.flatMap_append, resources_toList]
  grind

theorem router_free_call_accounts (i : Nat) :
    Accounts ((ApplicationCall.uvhttp_router_free i).perform granted a) a.blocks fun a' rs =>
      rs.Perm a'.blocks := by
  have htaken := taken_resources RouterMemory.blocks a.routers i
  have hfront : a.blocks.Perm (resources_of RouterMemory.blocks a.routers[i]? ++
      ({ a with routers := a.routers.eraseIdx i } : Application).blocks) := by
    simp only [Application.blocks, Application.spare]
    grind
  refine Accounts.perm hfront ((Accounts.release_object router_free_accounts _).bind ?_)
  rintro - rs rfl
  exact Accounts.pure (List.Perm.refl _)

theorem tls_context_free_call_accounts (i : Nat) :
    Accounts ((ApplicationCall.uvhttp_tls_context_free i).perform granted a) a.blocks fun a' rs =>
      rs.Perm a'.blocks := by
  have htaken := taken_perm a.tls_contexts i
  have hfront : a.blocks.Perm (a.tls_contexts[i]?.toList ++
      ({ a with tls_contexts := a.tls_contexts.eraseIdx i } : Application).blocks) := by
    simp only [Application.blocks, Application.spare]
    grind
  exact Accounts.release_all_bind hfront (Accounts.pure (List.Perm.refl _))

theorem context_destroy_call_accounts (i : Nat) :
    Accounts ((ApplicationCall.uvhttp_context_destroy i).perform granted a) a.blocks fun a' rs =>
      rs.Perm a'.blocks := by
  have htaken := taken_resources Context.blocks a.contexts i
  have hfront : a.blocks.Perm (resources_of Context.blocks a.contexts[i]? ++
      ({ a with contexts := a.contexts.eraseIdx i } : Application).blocks) := by
    simp only [Application.blocks, Application.spare]
    grind
  refine Accounts.perm hfront ((Accounts.release_object (fun c => ?_) _).bind ?_)
  · refine ((destroy_accounts c).frame _).mono ?_
    rintro - rs ⟨own, rfl, rfl⟩
    rfl
  rintro - rs rfl
  exact Accounts.pure (List.Perm.refl _)

theorem static_route_call_accounts (i : Nat) :
    Accounts ((ApplicationCall.uvhttp_router_add_static_route i).perform granted a) a.blocks fun a' rs =>
      rs.Perm a'.blocks := by
  rw [ApplicationCall.perform]
  cases hrouter : a.routers[i]? with
  | none => exact Accounts.pure (List.Perm.refl _)
  | some router =>
    have htaken := taken_resources RouterMemory.blocks a.routers i
    rw [hrouter, resources_of_some] at htaken
    have hfront : a.blocks.Perm (router.blocks ++
        ({ a with routers := a.routers.eraseIdx i } : Application).blocks) := by
      simp only [Application.blocks, Application.spare]
      grind
    refine ((add_static_route_accounts router).within hfront).bind ?_
    rintro router' - ⟨own, hown, rfl⟩
    have hput := put_resources RouterMemory.blocks hrouter router'
    refine Accounts.pure ?_
    simp only [Application.blocks, Application.spare]
    grind

/-- A context with the configurations beside it, in front of the rest of what is in use. -/
theorem blocks_context_at {i : Option Nat} {c : Context} (h : a.context_at i = some c) :
    ∃ rest, a.blocks.Perm ((Configured.mk c a.configs).blocks ++ rest) ∧ ∀ s : Configured,
      ({ a.with_context s.context i with configs := s.configs } : Application).blocks.Perm (s.blocks ++ rest) := by
  cases i with
  | none =>
    refine ⟨(uvhttp_server_set_context a.server none).blocks ++ (a.routers.flatMap RouterMemory.blocks ++
      (a.tls_contexts ++ a.contexts.flatMap Context.blocks)), ?_, fun s => ?_⟩
    · have hserver := blocks_context a.server (some c)
      have hsame : uvhttp_server_set_context a.server (some c) = a.server := by
        rw [uvhttp_server_set_context, ← show a.server.context = some c from h]
      rw [hsame, resources_of_some] at hserver
      refine List.perm_iff_count.mpr fun r => ?_
      have hcount := hserver.count_eq r
      simp only [count_blocks, Configured.blocks, List.count_append] at hcount ⊢
      omega
    · have hserver := blocks_context a.server (some s.context)
      rw [resources_of_some] at hserver
      refine List.perm_iff_count.mpr fun r => ?_
      have hcount := hserver.count_eq r
      simp only [count_blocks, Configured.blocks, List.count_append, Application.with_context,
        uvhttp_server_set_context] at hcount ⊢
      omega
  | some i =>
    have hcontext : a.contexts[i]? = some c := h
    refine ⟨a.server.blocks ++ (a.routers.flatMap RouterMemory.blocks ++ (a.tls_contexts ++
      (a.contexts.eraseIdx i).flatMap Context.blocks)), ?_, fun s => ?_⟩
    · have htaken := taken_resources Context.blocks a.contexts i
      rw [hcontext, resources_of_some] at htaken
      refine List.perm_iff_count.mpr fun r => ?_
      have hcount := htaken.count_eq r
      simp only [count_blocks, Configured.blocks, List.count_append] at hcount ⊢
      omega
    · have hput := put_resources Context.blocks hcontext s.context
      refine List.perm_iff_count.mpr fun r => ?_
      have hcount := hput.count_eq r
      simp only [count_blocks, Configured.blocks, List.count_append, Application.with_context] at hcount ⊢
      omega

theorem context_call_accounts (i : Option Nat) (call : ContextCall) :
    Accounts ((ApplicationCall.context i call).perform granted a) a.blocks fun a' rs =>
      rs.Perm (a'.blocks ++ (ApplicationCall.context i call).loses a) := by
  rw [ApplicationCall.perform, ApplicationCall.loses]
  cases hcontext : a.context_at i with
  | none => exact Accounts.pure (List.Perm.of_eq (List.append_nil _).symm)
  | some c =>
    obtain ⟨rest, hbefore, hafter⟩ := blocks_context_at a hcontext
    refine ((perform_accounts ⟨c, a.configs⟩ call).within hbefore).bind ?_
    rintro s - ⟨own, ⟨hown, -⟩, rfl⟩
    have hlost : resources_of (fun c => call.loses ⟨c, a.configs⟩) (some c) = call.loses ⟨c, a.configs⟩ := rfl
    rw [hlost]
    have hs := hafter s
    refine Accounts.pure ?_
    grind

theorem server_call_beside_accounts (call : ServerCall) :
    Accounts ((ApplicationCall.server call).perform granted a) a.blocks fun a' rs => rs.Perm a'.blocks := by
  refine ((server_call_accounts a.server call).frame a.spare).bind ?_
  rintro s' - ⟨own, hown, rfl⟩
  exact Accounts.pure (hown.append_right _)

/-- A call loses the blocks that it says, and no others. -/
theorem application_call_accounts (call : ApplicationCall) : Accounts (call.perform granted a) a.blocks
    fun a' rs => rs.Perm (a'.blocks ++ call.loses a) := by
  cases call with
  | server call => exact (server_call_beside_accounts a call).unlost
  | uvhttp_router_new => exact (router_new_call_accounts a).unlost
  | uvhttp_router_free i => exact (router_free_call_accounts a i).unlost
  | uvhttp_router_add_static_route i => exact (static_route_call_accounts a i).unlost
  | uvhttp_server_set_router i => exact (set_router_accounts a i).unlost
  | uvhttp_tls_context_new configured => exact (tls_context_new_call_accounts a configured).unlost
  | uvhttp_tls_context_free i => exact (tls_context_free_call_accounts a i).unlost
  | uvhttp_server_enable_tls i => exact (enable_tls_accounts a i).unlost
  | uvhttp_context_create => exact (context_create_call_accounts a).unlost
  | uvhttp_context_destroy i => exact (context_destroy_call_accounts a i).unlost
  | uvhttp_server_set_context i => exact (set_context_accounts a i).unlost
  | context i call => exact context_call_accounts a i call

/-- The call of the context module that ends a TLS state and keeps its blocks. -/
def ApplicationCall.EndsTls (call : ApplicationCall) : Prop := ∃ i, call = .context i .uvhttp_tls_cleanup

theorem loses_nothing {call : ApplicationCall} (h : ¬call.EndsTls) : call.loses a = [] := by
  cases call with
  | context i call =>
    have hcall : ∀ s : Configured, call.loses s = [] := by
      intro s
      cases call with
      | uvhttp_tls_cleanup => exact absurd ⟨i, rfl⟩ h
      | _ => rfl
    rw [ApplicationCall.loses]
    cases a.context_at i with
    | none => rfl
    | some c => exact hcall _
  | _ => rfl

theorem application_run_accounts (calls : List ApplicationCall) :
    Accounts (run_losing (losing (ApplicationCall.perform granted) fun a _ call => call.loses a) a calls) a.blocks
      fun r rs => rs.Perm (r.1.blocks ++ r.2) ∧ ((∀ call ∈ calls, ¬call.EndsTls) → r.2 = []) := by
  have hcall (b : Application) (call : ApplicationCall) :
      Accounts (losing (ApplicationCall.perform granted) (fun a _ call => call.loses a) b call) b.blocks fun r rs =>
        rs.Perm (r.1.blocks ++ r.2) ∧ True ∧ (¬call.EndsTls → r.2 = []) :=
    Accounts.map ((application_call_accounts b call).mono fun _ _ h => ⟨h, trivial, loses_nothing b⟩)
  have hrun := @Accounts.run_losing _ _ _ _ (fun _ => True) (fun call => ¬call.EndsTls) calls
    (fun b call _ _ => hcall b call) a trivial
  exact hrun.mono fun _ _ h => ⟨h.1, h.2.2⟩

end applications

theorem new_with_loop_accounts {uv_loop_init uv_tcp_init : Bool} :
    Accounts (uvhttp_server_new_with_loop granted uv_loop_init uv_tcp_init) before fun s rs =>
      rs.Perm (resources_of ServerMemory.blocks s ++ before) := by
  refine Accounts.acquire_bind (fun loop _ => ?_) (Accounts.pure (List.Perm.refl _))
  cases uv_loop_init with
  | false => exact Accounts.release_bind (List.Perm.refl _) (Accounts.pure (List.Perm.refl _))
  | true =>
    refine server_new_accounts.bind fun s rs ⟨hrs, hnew⟩ => ?_
    cases s with
    | none => exact Accounts.release_bind hrs (Accounts.pure (List.Perm.refl _))
    | some s =>
      refine Accounts.pure (hrs.trans (List.perm_middle.trans ?_))
      exact (blocks_loop (hnew s rfl) loop).symm.append_right before

/-- Whichever step of the creation fails, everything it took is given back. -/
theorem create_simple_accounts {uv_tcp_init listens : Bool} :
    Accounts (create_simple_server_internal granted uv_tcp_init listens) before fun made rs =>
      rs.Perm (resources_of (fun made => made.1 :: made.2.blocks) made ++ before) := by
  refine Accounts.acquire_bind (fun simple _ => ?_) (Accounts.pure (List.Perm.refl _))
  refine server_new_accounts.bind fun s rs ⟨hrs, hnew⟩ => ?_
  have hend : Accounts (do release simple; pure (none : Option (Nat × ServerMemory))) (simple :: before)
      fun made rs => rs.Perm (resources_of (fun made => made.1 :: made.2.blocks) made ++ before) :=
    Accounts.release_bind (List.Perm.refl _) (Accounts.pure (List.Perm.refl _))
  cases s with
  | none => exact Accounts.perm hrs hend
  | some s =>
  replace hnew := hnew s rfl
  refine Accounts.perm hrs (router_new_accounts.bind ?_)
  rintro router rs ⟨rfl, -⟩
  cases router with
  | none =>
    dsimp only
    rw [hnew.unset.1]
    refine (server_freed s hnew.manager).bind ?_
    rintro - rs rfl
    exact hend
  | some router =>
  refine Accounts.acquire_bind (fun config _ => ?_) ?_
  · have hmanager : ({ s with config := some config, router := some router } : ServerMemory).ws_connection_manager =
        none := hnew.manager
    have hblocks : (config :: (router.blocks ++ (s.blocks ++ simple :: before))).Perm
        (({ s with config := some config, router := some router } : ServerMemory).blocks ++ simple :: before) := by
      rw [blocks_configured hnew, List.append_assoc, List.cons_append]
      exact List.perm_middle.symm
    refine Accounts.perm hblocks ?_
    cases listens with
    | true => exact Accounts.pure List.perm_middle
    | false =>
      refine (server_freed _ hmanager).bind ?_
      rintro - rs rfl
      exact hend
  · refine (router_free_accounts router).bind ?_
    rintro - rs rfl
    rw [hnew.unset.2]
    refine (server_freed s hnew.manager).bind ?_
    rintro - rs rfl
    exact hend

theorem creation_accounts (creation : Creation) : Accounts (creation.perform granted) before fun made rs =>
    rs.Perm (resources_of (fun made => made.1.toList ++ made.2.blocks) made ++ before) := by
  have halone (s : Option ServerMemory) :
      resources_of (fun made => made.1.toList ++ made.2.blocks) (s.map fun s => (none, s)) =
        resources_of ServerMemory.blocks s := by
    cases s with
    | none => rfl
    | some s => rfl
  cases creation with
  | uvhttp_server_new uv_tcp_init =>
    refine Accounts.map (server_new_accounts.mono fun s rs h => ?_)
    rw [halone]
    exact h.1
  | uvhttp_server_new_with_loop uv_loop_init uv_tcp_init =>
    refine Accounts.map (new_with_loop_accounts.mono fun s rs h => ?_)
    rw [halone]
    exact h
  | uvhttp_server_create uv_tcp_init listens =>
    refine Accounts.map (create_simple_accounts.mono fun made rs h => ?_)
    cases made with
    | none => exact h
    | some made => exact h

/-- At the end of a server the manager is left, with what stands beside the server. -/
theorem end_accounts (simple : Option Nat) (s : ServerMemory) (lost : List Nat) :
    Accounts (server_end simple s) (s.blocks ++ lost ++ simple.toList) fun _ rs =>
      rs = resources_of ManagerMemory.blocks s.ws_connection_manager ++ lost := by
  have hfree (beside : List Nat) : Accounts (uvhttp_server_free s) (s.blocks ++ beside) fun _ rs =>
      rs = resources_of ManagerMemory.blocks s.ws_connection_manager ++ beside := by
    refine ((server_free_accounts s).frame beside).mono ?_
    rintro - rs ⟨own, rfl, rfl⟩
    rw [List.append_nil]
  cases simple with
  | none =>
    rw [Option.toList_none, List.append_nil]
    exact hfree lost
  | some simple =>
    have hfront : (s.blocks ++ lost ++ [simple]).Perm (s.blocks ++ simple :: lost) := by
      rw [List.append_assoc]
      exact List.Perm.append_left _ List.perm_append_comm
    refine Accounts.perm hfront ((hfree (simple :: lost)).bind ?_)
    rintro - rs rfl
    exact Accounts.perm List.perm_middle Accounts.release

end servers

/-- Whatever an application does with a server between its creation and its end, and whichever allocations and
calls of libuv fail, no block is freed twice as long as it hands over objects that are in use and that no other
object holds. What is left are the manager of the WebSocket connections with its nodes if connection management
is still enabled, the objects that the server does not hold at its end and that have not been freed, and the
blocks of the TLS states that `uvhttp_tls_cleanup` ended. -/
theorem server_life_accounts (granted : Nat → Bool) (creation : Creation) (calls : List ApplicationCall) :
    Accounts (server_life granted creation calls) [] fun left rs =>
      rs.Perm (left.manager ++ (left.spare ++ left.lost)) ∧ ((∀ call ∈ calls, ¬call.EndsTls) → left.lost = []) := by
  refine (creation_accounts creation).bind fun made rs hrs => Accounts.perm hrs ?_
  rw [List.append_nil]
  cases made with
  | none => exact Accounts.pure ⟨List.Perm.refl _, fun _ => rfl⟩
  | some made =>
    obtain ⟨simple, s⟩ := made
    have hbegin : (simple.toList ++ s.blocks).Perm ((Application.mk s [] [] [] []).blocks ++ simple.toList) := by
      have hblocks : (Application.mk s [] [] [] []).blocks = s.blocks := List.append_nil _
      rw [hblocks]
      exact List.perm_append_comm
    refine ((application_run_accounts (Application.mk s [] [] [] []) calls).within hbegin).bind ?_
    rintro r - ⟨own, ⟨hown, hlost⟩, rfl⟩
    have hend : (own ++ simple.toList).Perm (r.1.server.blocks ++ (r.1.spare ++ r.2) ++ simple.toList) := by
      refine (hown.append_right _).trans ?_
      rw [Application.blocks, List.append_assoc r.1.server.blocks]
    refine Accounts.perm hend ((end_accounts simple r.1.server (r.1.spare ++ r.2)).bind ?_)
    rintro - rs rfl
    exact Accounts.pure ⟨List.Perm.refl _, hlost⟩

/-- A TLS context that a server already has must not be handed to it again: it is freed, and freed again when
TLS is disabled. -/
theorem enable_tls_again_faults {s : ServerMemory} {tls_ctx : Nat} (h : s.tls_ctx = some tls_ctx) {l : Ledger}
    (hl : l.held.Nodup) : (uvhttp_server_enable_tls s (some tls_ctx) >>= uvhttp_server_disable_tls) l = none := by
  have henable : uvhttp_server_enable_tls s (some tls_ctx) >>= uvhttp_server_disable_tls = (do
      release tls_ctx
      release tls_ctx
      pure { s with tls_ctx := none }) := by
    have hown : s.tls_ctx.toList = [tls_ctx] := by rw [h, Option.toList_some]
    have hdisable : ∀ s : ServerMemory, s.tls_ctx = some tls_ctx → uvhttp_server_disable_tls s = (do
        release tls_ctx
        pure { s with tls_ctx := none }) := by
      intro s hs
      rw [uvhttp_server_disable_tls, hs]
      simp [release_all]
    simp [uvhttp_server_enable_tls, hown, release_all, hdisable]
  rw [henable]
  exact release_twice hl

/-- Connection management that is never disabled leaves its manager and a node behind; of two routers that a
server is handed, it frees the last one. -/
example : server_life (fun _ => true) (.uvhttp_server_new_with_loop true true)
    [.uvhttp_router_new, .uvhttp_server_set_router 0, .uvhttp_router_new, .uvhttp_server_set_router 1,
      .server (.uvhttp_server_ws_enable_connection_management true), .server (.uvhttp_server_ws_add_connection 0)]
      ⟨[], 0⟩ = some (⟨[13, 12], [8, 7, 6], []⟩, ⟨[13, 12, 8, 7, 6], 14⟩) := by decide +kernel

end uvhttp.ownership
