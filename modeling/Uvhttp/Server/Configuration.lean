import Uvhttp.Server.Accounting

open machine

namespace uvhttp.configuration

open connection server

/-- `uvhttp_config_t`: an `int` is an integer, a `size_t` a 64-bit word. -/
structure UvhttpConfig where
  max_connections : Int
  read_buffer_size : Int
  backlog : Int
  keepalive_timeout : Int
  request_timeout : Int
  connection_timeout : Int
  max_body_size : UInt64
  max_header_size : UInt64
  max_url_size : UInt64
  max_file_size : UInt64
  max_requests_per_connection : Int
  rate_limit_window : Int
  websocket_max_frame_size : Int
  websocket_max_message_size : Int
  websocket_ping_interval : Int
  websocket_ping_timeout : Int
  tcp_keepalive_timeout : Int
  sendfile_timeout_ms : Int
  sendfile_max_retry : Int
  cache_default_max_entries : Int
  cache_default_ttl : Int
  lru_cache_batch_eviction_size : Int
  rate_limit_max_requests : Int
  rate_limit_max_window_seconds : Int
  rate_limit_min_timeout_seconds : Int
  deriving DecidableEq, Repr

def UVHTTP_DEFAULT_MAX_CONNECTIONS : Int := 2048

/-- `uvhttp_config_set_defaults`, which sets every field. -/
def uvhttp_config_set_defaults : UvhttpConfig where
  max_connections := UVHTTP_DEFAULT_MAX_CONNECTIONS
  read_buffer_size := 16384
  backlog := 256
  keepalive_timeout := 30
  request_timeout := 60
  connection_timeout := 60
  max_body_size := 1024 * 1024
  max_header_size := 8192
  max_url_size := 2048
  max_file_size := 10 * 1024 * 1024
  max_requests_per_connection := 100
  rate_limit_window := 60
  websocket_max_frame_size := 16 * 1024 * 1024
  websocket_max_message_size := 64 * 1024 * 1024
  websocket_ping_interval := 30
  websocket_ping_timeout := 10
  tcp_keepalive_timeout := 60
  sendfile_timeout_ms := 30000
  sendfile_max_retry := 2
  cache_default_max_entries := 1000
  cache_default_ttl := 3600
  lru_cache_batch_eviction_size := 10
  rate_limit_max_requests := 1000000
  rate_limit_max_window_seconds := 86400
  rate_limit_min_timeout_seconds := 10

/-- A range check of `uvhttp_config_validate`: a value and the range it must lie in. -/
structure RangeCheck where
  value : Int
  min : Int
  max : Int

def RangeCheck.exceeds (check : RangeCheck) : Bool := check.value < check.min || check.value > check.max

/-- The range checks in their order. -/
def range_checks (config : UvhttpConfig) : List RangeCheck :=
  [⟨config.max_connections, 1, 65535⟩,
   ⟨config.read_buffer_size, 1024, 1024 * 1024⟩,
   ⟨config.max_body_size.toNat, 1024, 100 * 1024 * 1024⟩,
   ⟨config.websocket_max_frame_size, 1024, 256 * 1024 * 1024⟩,
   ⟨config.websocket_max_message_size, 1024, 1024 * 1024 * 1024⟩,
   ⟨config.websocket_ping_interval, 1, 3600⟩,
   ⟨config.websocket_ping_timeout, 1, 3600⟩,
   ⟨config.tcp_keepalive_timeout, 1, 7200⟩,
   ⟨config.sendfile_timeout_ms, 1000, 300000⟩,
   ⟨config.cache_default_max_entries, 0, 100000⟩,
   ⟨config.cache_default_ttl, 0, 86400⟩,
   ⟨config.lru_cache_batch_eviction_size, 1, 1000⟩,
   ⟨config.rate_limit_max_requests, 1, 10000000⟩,
   ⟨config.rate_limit_max_window_seconds, 1, 86400⟩,
   ⟨config.rate_limit_min_timeout_seconds, 10, 3600⟩]

/-- `uvhttp_config_validate`. -/
def uvhttp_config_validate (config : UvhttpConfig) : UvhttpError :=
  if (range_checks config).any RangeCheck.exceeds then .INVALID_PARAM
  else if config.websocket_max_message_size < config.websocket_max_frame_size then .INVALID_PARAM
  else .OK

/-- The configuration of `uvhttp_context_t`, or none before `uvhttp_context_init_config`. -/
abbrev ContextConfig := Option UvhttpConfig

/-- What the `uvhttp_config_update` functions share: a value in its range is stored in the current
configuration of the context. -/
def config_update (context : Option ContextConfig) (in_range : Bool) (store : UvhttpConfig → UvhttpConfig) :
    UvhttpError × Option ContextConfig :=
  match context with
  | none => (.INVALID_PARAM, none)
  | some current =>
    if !in_range then (.INVALID_PARAM, context)
    else
      match current with
      | some config => (.OK, some (some (store config)))
      | none => (.INVALID_PARAM, context)

def uvhttp_config_update_max_connections (context : Option ContextConfig) (max_connections : Int) :
    UvhttpError × Option ContextConfig :=
  config_update context (!(max_connections < 1 || max_connections > 10000)) fun config =>
    { config with max_connections }

def uvhttp_config_update_read_buffer_size (context : Option ContextConfig) (buffer_size : Int) :
    UvhttpError × Option ContextConfig :=
  config_update context (!(buffer_size < 1024 || buffer_size > 1048576)) fun config =>
    { config with read_buffer_size := buffer_size }

def uvhttp_config_update_size_limits (context : Option ContextConfig) (max_body_size max_header_size : UInt64) :
    UvhttpError × Option ContextConfig :=
  config_update context
    (!(max_body_size < 1024 || max_body_size > 100 * 1024 * 1024) &&
      !(max_header_size < 512 || max_header_size > 64 * 1024)) fun config =>
    { config with max_body_size, max_header_size }

/-- `uvhttp_config_get_current`. -/
def uvhttp_config_get_current (context : Option ContextConfig) : Option UvhttpConfig := context.bind id

/-- `uvhttp_config_set_current`. -/
def uvhttp_config_set_current (context : Option ContextConfig) (config : Option UvhttpConfig) : Option ContextConfig :=
  context.map fun _ => config

/-- `uvhttp_context_init_config`; `alloc` is whether `uvhttp_config_new` gets memory. -/
def uvhttp_context_init_config (context : Option ContextConfig) (alloc : Bool) : UvhttpError × Option ContextConfig :=
  match context with
  | none => (.INVALID_PARAM, none)
  | some (some config) => (.OK, some (some config))
  | some none => if !alloc then (.OUT_OF_MEMORY, some none) else (.OK, some (some uvhttp_config_set_defaults))

/-- A server with what decides its connection limit: `max_connections`, `config` and `context` of
`uvhttp_server_t`. -/
structure ConfiguredServer where
  clients : Server
  max_connections : UInt64
  config : Option UvhttpConfig
  context : Option ContextConfig

/-- `uvhttp_server_new`. -/
def uvhttp_server_new : ConfiguredServer := ⟨server_new, UInt64.ofInt UVHTTP_DEFAULT_MAX_CONNECTIONS, none, none⟩

/-- The limit that `on_connection` compares with: that of `config`, else that of the context, else that of
the server. -/
def connection_limit (s : ConfiguredServer) : UInt64 :=
  match s.config with
  | some config => UInt64.ofInt config.max_connections
  | none =>
    match uvhttp_config_get_current s.context with
    | some global_config => UInt64.ofInt global_config.max_connections
    | none => s.max_connections

/-- A change of the configuration: a call on the context, or one of the simplified calls of
`uvhttp_server_builder_t`, which write into `config`. -/
inductive ConfigCall where
  | uvhttp_server_set_context (context : Option ContextConfig)
  | uvhttp_config_set_current (config : Option UvhttpConfig)
  | uvhttp_context_init_config (alloc : Bool)
  | uvhttp_config_update_max_connections (max_connections : Int)
  | uvhttp_config_update_read_buffer_size (buffer_size : Int)
  | uvhttp_config_update_size_limits (max_body_size max_header_size : UInt64)
  | uvhttp_set_max_connections (max_conn : Int)
  | uvhttp_set_timeout (timeout : Int)
  | uvhttp_set_max_body_size (size : UInt64)
  deriving DecidableEq, Repr

def ConfigCall.perform (s : ConfiguredServer) : ConfigCall → UvhttpError × ConfiguredServer
  | .uvhttp_server_set_context context => (.OK, { s with context })
  | .uvhttp_config_set_current config =>
    (.OK, { s with context := configuration.uvhttp_config_set_current s.context config })
  | .uvhttp_context_init_config alloc =>
    let updated := configuration.uvhttp_context_init_config s.context alloc
    (updated.1, { s with context := updated.2 })
  | .uvhttp_config_update_max_connections n =>
    let updated := configuration.uvhttp_config_update_max_connections s.context n
    (updated.1, { s with context := updated.2 })
  | .uvhttp_config_update_read_buffer_size n =>
    let updated := configuration.uvhttp_config_update_read_buffer_size s.context n
    (updated.1, { s with context := updated.2 })
  | .uvhttp_config_update_size_limits body header =>
    let updated := configuration.uvhttp_config_update_size_limits s.context body header
    (updated.1, { s with context := updated.2 })
  | .uvhttp_set_max_connections n =>
    (.OK, { s with config := s.config.map fun config => { config with max_connections := n } })
  | .uvhttp_set_timeout n =>
    (.OK, { s with config := s.config.map fun config => { config with request_timeout := n, keepalive_timeout := n } })
  | .uvhttp_set_max_body_size n =>
    (.OK, { s with config := s.config.map fun config => { config with max_body_size := n } })

/-- A client arrives, something happens to a connection, or the configuration is changed. -/
inductive AdminEvent where
  | attempt (a : Attempt)
  | client (index : Nat) (event : Event)
  | configure (call : ConfigCall)
  deriving DecidableEq

/-- An event as the connections of the server see it: an attempt is made under the limit in force. -/
def AdminEvent.seen (s : ConfiguredServer) : AdminEvent → Option ServerEvent
  | .attempt a => some (.attempt { a with max_connections := connection_limit s })
  | .client index event => some (.client index event)
  | .configure _ => none

def admin_step (s : ConfiguredServer) : AdminEvent → ConfiguredServer × Unit
  | .configure call => ((call.perform s).2, ())
  | .attempt a => ({ s with clients := on_connection s.clients { a with max_connections := connection_limit s } }, ())
  | .client index event => ({ s with clients := (server_step s.clients (.client index event)).1 }, ())

/-- Events happen to connections that exist. -/
def AdminEvent.Possible (s : ConfiguredServer) (event : AdminEvent) : Prop :=
  ∀ served ∈ event.seen s, served.Possible s.clients

/-- `uv_accept` takes the client for which a connection object has been created. -/
def AdminEvent.Accepts (s : ConfiguredServer) (event : AdminEvent) : Prop :=
  ∀ served ∈ event.seen s, served.Accepts s.clients

/-- A change through the checked calls of the library. -/
def AdminEvent.Checked : AdminEvent → Prop
  | .configure (.uvhttp_context_init_config _) => True
  | .configure (.uvhttp_config_update_max_connections _) => True
  | .configure (.uvhttp_config_update_read_buffer_size _) => True
  | .configure (.uvhttp_config_update_size_limits _ _) => True
  | .configure _ => False
  | _ => True

/-- A server with a context whose configuration has been initialized. -/
def managed_server : ConfiguredServer := { uvhttp_server_new with context := some (some uvhttp_config_set_defaults) }

/-- A run of a server whose configuration is changed through the checked calls only, in which no
`uv_accept` fails on a connection object: such a failure would be counted off without ever having been
counted. -/
def ManagedRun (events : List AdminEvent) : Prop :=
  machine.Enabled admin_step (fun s event => event.Possible s ∧ event.Accepts s ∧ event.Checked) managed_server events

/-- The limit that an event sets. -/
def AdminEvent.new_limit : AdminEvent → Option Nat
  | .configure (.uvhttp_config_update_max_connections n) => if n < 1 ∨ n > 10000 then none else some n.toNat
  | _ => none

/-- The limits that were in force, the last one first. -/
def limits (events : List AdminEvent) : List Nat :=
  events.reverse.filterMap AdminEvent.new_limit ++ [UVHTTP_DEFAULT_MAX_CONNECTIONS.toNat]

/-- The limit is the last one that was set, the configuration is valid, and the books of the server are right. -/
structure Managed (s : ConfiguredServer) (events : List AdminEvent) (config : UvhttpConfig) : Prop where
  own : s.config = none
  context : s.context = some (some config)
  valid : uvhttp_config_validate config = .OK
  limit : (connection_limit s).toNat = (limits events).headD 0
  limited : ∀ limit ∈ limits events, 1 ≤ limit ∧ limit ≤ 10000
  balanced : Balanced s.clients
  bounded : ∀ bound, (∀ limit ∈ limits events, limit ≤ bound) → accepted_connections s.clients ≤ bound

section validation

variable {config : UvhttpConfig}

theorem validate_ok_iff : uvhttp_config_validate config = .OK ↔
    (∀ check ∈ range_checks config, check.min ≤ check.value ∧ check.value ≤ check.max) ∧
      config.websocket_max_frame_size ≤ config.websocket_max_message_size := by
  have hexceeds (check : RangeCheck) : check.exceeds = false ↔ check.min ≤ check.value ∧ check.value ≤ check.max := by
    rw [RangeCheck.exceeds, Bool.or_eq_false_iff, decide_eq_false_iff_not, decide_eq_false_iff_not, not_lt, not_lt]
  rw [uvhttp_config_validate]
  by_cases hany : (range_checks config).any RangeCheck.exceeds = true
  · obtain ⟨check, hcheck, hbad⟩ := List.any_eq_true.mp hany
    rw [if_pos hany]
    refine iff_of_false UvhttpError.noConfusion fun h => ?_
    rw [(hexceeds check).mpr (h.1 check hcheck)] at hbad
    exact Bool.false_ne_true hbad
  · have hranges : ∀ check ∈ range_checks config, check.min ≤ check.value ∧ check.value ≤ check.max := by
      intro check hcheck
      rw [← hexceeds, Bool.eq_false_iff]
      exact fun hbad => hany (List.any_eq_true.mpr ⟨check, hcheck, hbad⟩)
    rw [if_neg hany]
    by_cases hsize : config.websocket_max_message_size < config.websocket_max_frame_size
    · rw [if_pos hsize]
      exact iff_of_false UvhttpError.noConfusion fun h => absurd h.2 (by omega)
    · rw [if_neg hsize]
      exact iff_of_true rfl ⟨hranges, by omega⟩

/-- The checks after a change of the fields that can be updated. -/
theorem validate_update (h : uvhttp_config_validate config = .OK) {config' : UvhttpConfig}
    (hranges : ∀ check ∈ range_checks config', check ∈ range_checks config ∨
      check.min ≤ check.value ∧ check.value ≤ check.max)
    (hframe : config'.websocket_max_frame_size = config.websocket_max_frame_size)
    (hmessage : config'.websocket_max_message_size = config.websocket_max_message_size) :
    uvhttp_config_validate config' = .OK := by
  obtain ⟨hbefore, hsizes⟩ := validate_ok_iff.mp h
  refine validate_ok_iff.mpr ⟨fun check hcheck => ?_, by rw [hframe, hmessage]; exact hsizes⟩
  obtain hold | hnew := hranges check hcheck
  · exact hbefore check hold
  · exact hnew

theorem validate_max_connections (h : uvhttp_config_validate config = .OK) {n : Int} (hlow : 1 ≤ n)
    (hhigh : n ≤ 10000) :
    uvhttp_config_validate { config with max_connections := n } = .OK := by
  refine validate_update h (fun check hcheck => ?_) rfl rfl
  obtain rfl | hrest := List.mem_cons.mp hcheck
  · exact .inr ⟨hlow, by dsimp only; omega⟩
  · exact .inl (List.mem_cons_of_mem _ hrest)

theorem validate_read_buffer_size (h : uvhttp_config_validate config = .OK) {n : Int} (hlow : 1024 ≤ n)
    (hhigh : n ≤ 1048576) : uvhttp_config_validate { config with read_buffer_size := n } = .OK := by
  refine validate_update h (fun check hcheck => ?_) rfl rfl
  obtain rfl | hcheck := List.mem_cons.mp hcheck
  · exact .inl List.mem_cons_self
  obtain rfl | hrest := List.mem_cons.mp hcheck
  · exact .inr ⟨hlow, hhigh⟩
  · exact .inl (List.mem_cons_of_mem _ (List.mem_cons_of_mem _ hrest))

theorem validate_size_limits (h : uvhttp_config_validate config = .OK) {body header : UInt64} (hlow : 1024 ≤ body)
    (hhigh : body ≤ 100 * 1024 * 1024) :
    uvhttp_config_validate { config with max_body_size := body, max_header_size := header } = .OK := by
  refine validate_update h (fun check hcheck => ?_) rfl rfl
  obtain rfl | hcheck := List.mem_cons.mp hcheck
  · exact .inl List.mem_cons_self
  obtain rfl | hcheck := List.mem_cons.mp hcheck
  · exact .inl (List.mem_cons_of_mem _ List.mem_cons_self)
  obtain rfl | hrest := List.mem_cons.mp hcheck
  · rw [UInt64.le_iff_toNat_le] at hlow hhigh
    change 1024 ≤ body.toNat at hlow
    change body.toNat ≤ 104857600 at hhigh
    exact .inr ⟨by dsimp only; omega, by dsimp only; omega⟩
  · exact .inl (List.mem_cons_of_mem _ (List.mem_cons_of_mem _ (List.mem_cons_of_mem _ hrest)))

/-- The defaults pass their own checks. -/
theorem validate_defaults : uvhttp_config_validate uvhttp_config_set_defaults = .OK := by decide

end validation

section runs

variable {s : ConfiguredServer} {events : List AdminEvent} {config : UvhttpConfig}

theorem limits_append (events : List AdminEvent) (event : AdminEvent) :
    limits (events ++ [event]) = event.new_limit.toList ++ limits events := by
  rw [limits, List.reverse_append, List.reverse_singleton, List.singleton_append, List.filterMap_cons]
  cases event.new_limit with
  | none => rfl
  | some limit => rfl

/-- An event that sets no limit and leaves the configuration alone. -/
theorem Managed.same_limits (h : Managed s events config) {event : AdminEvent} (hlimit : event.new_limit = none)
    {clients : Server} (hbalanced : Balanced clients)
    (hbounded : accepted_connections clients ≤ accepted_connections s.clients ∨
      accepted_connections clients ≤ (connection_limit s).toNat) :
    Managed { s with clients } (events ++ [event]) config := by
  have hsame : limits (events ++ [event]) = limits events := by
    rw [limits_append, hlimit]
    rfl
  have hhead : (limits events).headD 0 ∈ limits events := by
    cases hlimits : limits events with
    | nil => exact absurd hlimits (by rw [limits]; exact List.append_ne_nil_of_right_ne_nil _ (List.cons_ne_nil _ _))
    | cons limit rest => exact List.mem_cons_self
  refine ⟨h.own, h.context, h.valid, by rw [hsame]; exact h.limit, by rw [hsame]; exact h.limited, hbalanced, ?_⟩
  rw [hsame]
  intro bound hbound
  obtain hfewer | hbelow := hbounded
  · exact hfewer.trans (h.bounded bound hbound)
  · exact hbelow.trans (h.limit ▸ hbound _ hhead)

/-- A change of the configuration that sets no limit. -/
theorem Managed.same_config (h : Managed s events config) {call : ConfigCall}
    (hlimit : (AdminEvent.configure call).new_limit = none) {config' : UvhttpConfig}
    (hvalid : uvhttp_config_validate config' = .OK) (hkept : config'.max_connections = config.max_connections) :
    Managed { s with context := some (some config') } (events ++ [.configure call]) config' := by
  have hsame : limits (events ++ [.configure call]) = limits events := by
    rw [limits_append, hlimit]
    rfl
  have hforce : connection_limit { s with context := some (some config') } = connection_limit s := by
    rw [connection_limit, connection_limit, h.own, h.context]
    exact congrArg UInt64.ofInt hkept
  refine ⟨h.own, rfl, hvalid, ?_, by rw [hsame]; exact h.limited, h.balanced, by rw [hsame]; exact h.bounded⟩
  rw [hsame, hforce]
  exact h.limit

/-- A call that is refused changes nothing. -/
theorem Managed.refused (h : Managed s events config) {call : ConfigCall}
    (hlimit : (AdminEvent.configure call).new_limit = none) (hsame : (call.perform s).2 = s) :
    Managed (admin_step s (.configure call)).1 (events ++ [.configure call]) config := by
  have hunchanged : (admin_step s (.configure call)).1 = { s with clients := s.clients } := hsame
  rw [hunchanged]
  exact h.same_limits hlimit h.balanced (.inl (Nat.le_refl _))

theorem Managed.new_limit (h : Managed s events config) {n : Int} (hlow : 1 ≤ n) (hhigh : n ≤ 10000) :
    Managed { s with context := some (some { config with max_connections := n }) }
      (events ++ [.configure (.uvhttp_config_update_max_connections n)]) { config with max_connections := n } := by
  have hset : (AdminEvent.configure (.uvhttp_config_update_max_connections n)).new_limit = some n.toNat :=
    if_neg (by omega)
  have hlimits : limits (events ++ [.configure (.uvhttp_config_update_max_connections n)]) =
      n.toNat :: limits events := by
    rw [limits_append, hset]
    rfl
  refine ⟨h.own, rfl, validate_max_connections h.valid hlow hhigh, ?_, ?_, h.balanced, ?_⟩
  · rw [hlimits, connection_limit, h.own]
    have hwraps : n < 2 ^ 64 := by omega
    exact toNat_ofInt (by omega : (0 : Int) ≤ n) hwraps
  · rw [hlimits]
    intro limit hlimit
    obtain rfl | hbefore := List.mem_cons.mp hlimit
    · omega
    · exact h.limited limit hbefore
  · rw [hlimits]
    intro bound hbound
    exact h.bounded bound fun limit hlimit => hbound limit (List.mem_cons_of_mem _ hlimit)

/-- A checked call stores its value, or it is refused. -/
theorem Managed.updated (h : Managed s events config) {call : ConfigCall} {in_range : Bool}
    {store : UvhttpConfig → UvhttpConfig}
    (hperform : (call.perform s).2 = { s with context := (config_update s.context in_range store).2 })
    (hrefused : in_range = false → (AdminEvent.configure call).new_limit = none)
    (hstored : in_range = true →
      Managed { s with context := some (some (store config)) } (events ++ [.configure call]) (store config)) :
    ∃ config', Managed (admin_step s (.configure call)).1 (events ++ [.configure call]) config' := by
  rw [h.context] at hperform
  cases hrange : in_range with
  | false =>
    rw [hrange] at hperform
    refine ⟨config, h.refused (hrefused hrange) (hperform.trans ?_)⟩
    exact congrArg (fun context => { s with context }) h.context.symm
  | true =>
    rw [hrange] at hperform
    refine ⟨store config, ?_⟩
    change Managed (call.perform s).2 _ _
    rw [hperform]
    exact hstored hrange

theorem managed_step (h : Managed s events config) {event : AdminEvent} (hpossible : event.Possible s)
    (haccepts : event.Accepts s) (hchecked : event.Checked) :
    ∃ config', Managed (admin_step s event).1 (events ++ [event]) config' := by
  cases event with
  | attempt a =>
    obtain ⟨hbalanced, hcount⟩ := on_connection_balanced h.balanced (haccepts _ rfl)
    refine ⟨config, h.same_limits rfl hbalanced ?_⟩
    obtain hsame | ⟨hmore, hroom⟩ := hcount
    · exact .inl hsame.le
    · exact .inr (hmore ▸ hroom)
  | client index event =>
    have hevent : PossibleFor event s.clients.clients[index]? := hpossible _ rfl
    cases hclient : s.clients.clients[index]? with
    | none =>
      rw [hclient] at hevent
      exact hevent.elim
    | some client =>
      rw [hclient] at hevent
      obtain ⟨hbalanced, hcount⟩ := client_step_balanced h.balanced hclient hevent
      exact ⟨config, h.same_limits rfl hbalanced (.inl hcount)⟩
  | configure call =>
    cases call with
    | uvhttp_server_set_context context => exact hchecked.elim
    | uvhttp_config_set_current config => exact hchecked.elim
    | uvhttp_set_max_connections n => exact hchecked.elim
    | uvhttp_set_timeout n => exact hchecked.elim
    | uvhttp_set_max_body_size n => exact hchecked.elim
    | uvhttp_context_init_config alloc =>
      refine ⟨config, h.refused rfl ?_⟩
      rw [ConfigCall.perform, h.context]
      dsimp only [uvhttp_context_init_config]
      rw [← h.context]
    | uvhttp_config_update_max_connections n =>
      refine h.updated rfl (fun hrefused => if_pos ?_) fun hstored => ?_
      · rw [Bool.not_eq_false', Bool.or_eq_true, decide_eq_true_iff, decide_eq_true_iff] at hrefused
        exact hrefused
      · rw [Bool.not_eq_true', Bool.or_eq_false_iff, decide_eq_false_iff_not, decide_eq_false_iff_not] at hstored
        exact h.new_limit (by omega) (by omega)
    | uvhttp_config_update_read_buffer_size n =>
      refine h.updated rfl (fun _ => rfl) fun hstored => ?_
      rw [Bool.not_eq_true', Bool.or_eq_false_iff, decide_eq_false_iff_not, decide_eq_false_iff_not] at hstored
      exact h.same_config rfl (validate_read_buffer_size h.valid (by omega) (by omega)) rfl
    | uvhttp_config_update_size_limits body header =>
      refine h.updated rfl (fun _ => rfl) fun hstored => ?_
      rw [Bool.and_eq_true, Bool.not_eq_true', Bool.or_eq_false_iff, decide_eq_false_iff_not,
        decide_eq_false_iff_not] at hstored
      exact h.same_config rfl
        (validate_size_limits h.valid (UInt64.not_lt.mp hstored.1.1) (UInt64.not_lt.mp hstored.1.2)) rfl

theorem managed_new : Managed managed_server [] uvhttp_config_set_defaults where
  own := rfl
  context := rfl
  valid := validate_defaults
  limit := by decide
  limited := by decide
  balanced := ⟨fun _ hclient => (List.not_mem_nil hclient).elim, fun _ hclient => (List.not_mem_nil hclient).elim, rfl⟩
  bounded := fun bound _ => Nat.zero_le bound

/-- While the configuration is changed only by the checked calls, it stays valid whatever they are given, the
limit in force is the last one that such a call has set, clients are turned away exactly when that many are
connected, and the number of connected clients never exceeds a limit that all of them keep, nor 10000. -/
theorem managed_admission {events : List AdminEvent} (h : ManagedRun events) :
    ∃ config, Managed (machine.run admin_step managed_server events) events config ∧
      (∀ a : Attempt, limit_reached (machine.run admin_step managed_server events).clients
          { a with max_connections := connection_limit (machine.run admin_step managed_server events) } = true ↔
        (limits events).headD 0 ≤ accepted_connections (machine.run admin_step managed_server events).clients) ∧
      accepted_connections (machine.run admin_step managed_server events).clients ≤ 10000 := by
  obtain ⟨config, hmanaged⟩ : ∃ config, Managed (machine.run admin_step managed_server events) events config :=
    machine.history_invariant (fun s events _ => ∃ config, Managed s events config) ⟨_, managed_new⟩
      (fun _ _ _ _ ⟨_, hbefore⟩ hevent => managed_step hbefore hevent.1 hevent.2.1 hevent.2.2) h
  refine ⟨config, hmanaged, fun a => ?_, ?_⟩
  · rw [limit_reached_iff hmanaged.balanced, hmanaged.limit]
  · exact hmanaged.bounded 10000 fun limit hlimit => (hmanaged.limited limit hlimit).2

/-- The limit is lowered to one and a zero is refused: of two clients the second is turned away. -/
theorem managed_admission_lowered :
    let a : Attempt := ⟨true, 0, true, true, true, none⟩
    let events : List AdminEvent :=
      [.configure (.uvhttp_config_update_max_connections 1), .attempt a,
        .configure (.uvhttp_config_update_max_connections 0), .attempt a]
    accepted_connections (machine.run admin_step managed_server events).clients = 1 ∧
      ∃ config, Managed (machine.run admin_step managed_server events) events config := by
  intro a events
  have hconfigure : ∀ (s : ConfiguredServer) (n : Int),
      AdminEvent.Possible s (.configure (.uvhttp_config_update_max_connections n)) ∧
        AdminEvent.Accepts s (.configure (.uvhttp_config_update_max_connections n)) := by
    refine fun s n => ⟨fun served hserved => ?_, fun served hserved => ?_⟩
    · cases hserved
    · cases hserved
  have hattempt : ∀ s : ConfiguredServer,
      AdminEvent.Possible s (.attempt a) ∧ AdminEvent.Accepts s (.attempt a) := by
    refine fun s => ⟨fun served hserved => ?_, fun served hserved => ?_⟩
    · rw [← Option.mem_unique rfl hserved]
      trivial
    · rw [← Option.mem_unique rfl hserved]
      exact fun _ _ _ => rfl
  have hevents : ManagedRun events :=
    ⟨⟨(hconfigure _ 1).1, (hconfigure _ 1).2, trivial⟩, ⟨(hattempt _).1, (hattempt _).2, trivial⟩,
      ⟨(hconfigure _ 0).1, (hconfigure _ 0).2, trivial⟩, ⟨(hattempt _).1, (hattempt _).2, trivial⟩, trivial⟩
  obtain ⟨config, hmanaged, -, -⟩ := managed_admission hevents
  exact ⟨by decide, config, hmanaged⟩

end runs

end uvhttp.configuration
