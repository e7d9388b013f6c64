import Uvhttp.Static.ExactlyOnce

namespace uvhttp.tls_confinement

open uvhttp.http hiding uvhttp_response_send uvhttp_response_send_raw
open uvhttp.output uvhttp.websocket uvhttp.static_files
open uvhttp.lru_cache (CacheManager)
open uvhttp.sendfile (Transfer)

/-- All writes to a socket are of mbedtls. -/
def Encrypted (writes : List SocketWrite) : Prop := ∀ w ∈ writes, w.encrypted = true

/-- A connection with all that produces output on it. `ws_ssl` is what its WebSocket
connection was given for `ssl` when it was created, and `transfers` are the files that
go out by sendfile. -/
structure Channel where
  conn : Connection
  ws_ssl : Option Bool
  cache : CacheManager
  transfers : List (List UInt8 × Transfer)
  socket : List SocketWrite

/-- A connection after its TLS handshake. -/
def tls_channel (cache : CacheManager) : Channel := ⟨⟨true, true⟩, none, cache, [], []⟩

section operations

/-- What produces output on a connection, with the answers of the code around it. A
frame is sent on a WebSocket connection in any state that it may be in. -/
inductive Operation where
  | response_send (t : Transport) (response : Response)
  | send_raw (t : Transport) (data : List UInt8)
  | send_response_data (t : Transport) (data : List UInt8)
  | static_request (sys : System) (config : StaticConfig) (request : Request) (response : Response)
  | transfer_event (i : Nat) (event : sendfile.Event)
  | ws_handshake
  | ws_send_frame (env : WsEnv) (records : List UInt8 → List UInt8) (ws : WsConnection) (data : List UInt8)
      (opcode : UInt8)

/-- The transfers that a request has left to libuv. -/
def started_transfers (sys : System) (config : StaticConfig) (writes : List SocketWrite) :
    List (List UInt8 × Transfer) :=
  writes.filterMap fun
    | .uv_fs_sendfile file_path _ _ =>
      let file_size := ((sys.fs .sendfile_stat).stat file_path).elim 0 Stat.size
      some (file_path, sendfile.start file_size (some config.sendfile) .accepted)
    | .mbedtls_bio_send _ | .uv_write _ | .send _ => none

/-- The request that `on_sendfile_complete` makes for the rest of a file. -/
def resent (file_path : List UInt8) (event : sendfile.Event) (t : Transfer) : List SocketWrite :=
  match event, t.sendfile_req with
  | .sendfile_complete _ _, some r => [.uv_fs_sendfile file_path r.offset r.length]
  | _, _ => []

def step (s : Channel) : Operation → Channel × Unit
  | .response_send t response =>
    ({ s with socket := s.socket ++ (uvhttp_response_send s.conn t response).1.socket }, ())
  | .send_raw t data => ({ s with socket := s.socket ++ (uvhttp_response_send_raw s.conn t data).socket }, ())
  | .send_response_data t data => ({ s with socket := s.socket ++ (uvhttp_send_response_data t data).socket }, ())
  | .static_request sys config request response =>
    match uvhttp_static_handle_request sys s.conn config request s.cache response with
    | none => (s, ())
    | some (_, x) =>
      ({ s with
        cache := x.cache
        transfers := s.transfers ++ started_transfers sys config x.socket
        socket := s.socket ++ x.socket }, ())
  | .transfer_event i event =>
    match s.transfers[i]? with
    | none => (s, ())
    | some (file_path, t) =>
      let t := (sendfile.step t event).1
      ({ s with
        transfers := s.transfers.set i (file_path, t)
        socket := s.socket ++ resent file_path event t }, ())
  | .ws_handshake => ({ s with ws_ssl := some s.conn.ssl }, ())
  | .ws_send_frame env records ws data opcode =>
    let sent := uvhttp_ws_send_frame env ws data opcode
    ({ s with socket := s.socket ++ ws_socket_writes ws.ssl records sent.2.2 }, ())

/-- A request returns, libuv reports on transfers that it has, and frames are sent on
the WebSocket connection of the channel, whose `ssl` never changes. -/
def Possible (s : Channel) : Operation → Prop
  | .static_request sys config request response =>
    (uvhttp_static_handle_request sys s.conn config request s.cache response).isSome = true
  | .transfer_event i event => ∃ file_path t, s.transfers[i]? = some (file_path, t) ∧ event.Possible t
  | .ws_send_frame _ _ ws _ _ => s.ws_ssl = some ws.ssl
  | .response_send _ _ | .send_raw _ _ | .send_response_data _ _ | .ws_handshake => True

end operations

section condition

/-- All is ready for a file to go out by sendfile, its headers are sent, and libuv
takes the file. -/
def SendfileAccepted (sys : System) (conn : Connection) (file_path : List UInt8) (r : Response) : Prop :=
  sys.uv_timer_init = true ∧ sys.uv_fs_sendfile = true ∧
    ∃ data, SendfileHeaders sys file_path r data ∧
      (uvhttp_response_send_raw conn (sys.transport 0) data).code = .OK

/-- A request is answered with a file that goes out by sendfile. -/
def SendsFile (sys : System) (conn : Connection) (request : Request) (r : Response) : Plan → Prop
  | .large file_path file_size last_modified =>
    uvhttp_static_check_conditional_request sys request (uvhttp_static_generate_etag last_modified file_size)
        last_modified = false ∧
      SendfileAccepted sys conn file_path r
  | .refused _ _ | .cached _ | .listing _ | .small _ _ => False

/-- The ways out that ask for no TLS are not taken. -/
def Safe (s : Channel) : Operation → Prop
  | .send_response_data t data =>
    data = [] ∨ t.alloc (SIZEOF_WRITE_DATA + data.length) = false ∨ t.uv_write = false
  | .static_request sys config request response =>
    ∀ p cache, plan sys config request s.cache = some (p, cache) → ¬ SendsFile sys s.conn request response p
  | .response_send _ _ | .send_raw _ _ | .transfer_event _ _ | .ws_handshake | .ws_send_frame _ _ _ _ _ => True

end condition

section writes

theorem encrypted_append {writes writes' : List SocketWrite} :
    Encrypted (writes ++ writes') ↔ Encrypted writes ∧ Encrypted writes' := List.forall_mem_append

theorem encrypted_nil : Encrypted [] := List.forall_mem_nil _

variable {conn : Connection} (htls : conn.tls_enabled = true) (hssl : conn.ssl = true)

include htls hssl

theorem encrypted_response_send (t : Transport) (r : Response) :
    Encrypted (uvhttp_response_send conn t r).1.socket := by
  rw [uvhttp_response_send]
  split
  · exact encrypted_nil
  · split
    · exact encrypted_nil
    · exact send_raw_encrypted htls hssl t _

variable {sys : System}

theorem encrypted_send_raw (kind : List UInt8 → Bool → Handed) (data : List UInt8) {x : static_files.Exchange}
    (h : Encrypted x.socket) : Encrypted (send_raw sys conn kind data x).2.socket :=
  encrypted_append.mpr ⟨h, send_raw_encrypted htls hssl _ data⟩

theorem encrypted_send_response {x : static_files.Exchange} (h : Encrypted x.socket) :
    Encrypted (send_response sys conn x).socket :=
  encrypted_append.mpr ⟨h, encrypted_response_send htls hssl _ _⟩

theorem encrypted_send_chunks (file : OpenFile) (file_size bytes_sent : Nat) {x : static_files.Exchange}
    (h : Encrypted x.socket) : Encrypted (send_chunks sys conn file file_size bytes_sent x).2.socket := by
  fun_induction send_chunks sys conn file file_size bytes_sent x with
  | case1 => exact h
  | case2 bytes_sent x hmore hread sent hfailed => exact encrypted_send_raw htls hssl _ _ h
  | case3 bytes_sent x hmore hread sent hsent ih => exact ih (encrypted_send_raw htls hssl _ _ h)
  | case4 => exact h

theorem encrypted_send_file_chunked (file_path : List UInt8) (file_size : Nat) (last_modified : Int)
    (etag : List UInt8) {x : static_files.Exchange} (h : Encrypted x.socket) :
    Encrypted (send_file_chunked sys conn file_path file_size last_modified etag x).2.socket := by
  rw [send_file_chunked]
  split
  · exact h
  split
  · exact h
  · dsimp only
    split
    · exact h
    · split
      · exact encrypted_send_raw htls hssl _ _ h
      · apply encrypted_send_chunks htls hssl
        exact encrypted_send_raw htls hssl _ _ h

/-- The file that libuv takes goes to the socket as it is, and nothing else does. -/
theorem encrypted_sendfile_transfer (config : StaticConfig) (file_path : List UInt8) (file_size : Nat)
    (data : List UInt8) {x : static_files.Exchange} (h : Encrypted x.socket) :
    (Encrypted (sendfile_transfer sys conn config file_path file_size data x).2.socket ↔
      ¬ (sys.uv_timer_init = true ∧ sys.uv_fs_sendfile = true ∧
        (uvhttp_response_send_raw conn (sys.transport x.sends) data).code = .OK)) ∧
      (sys.uv_timer_init = true → sys.uv_fs_sendfile = true →
        (uvhttp_response_send_raw conn (sys.transport x.sends) data).code = .OK →
        (sendfile_transfer sys conn config file_path file_size data x).1 = .OK) := by
  have hsent : (send_raw sys conn .response data x).1 =
      (uvhttp_response_send_raw conn (sys.transport x.sends) data).code := rfl
  have hencrypted := @encrypted_send_raw conn htls hssl sys .response data x h
  simp only [sendfile_transfer, hsent]
  by_cases hcode : (uvhttp_response_send_raw conn (sys.transport x.sends) data).code = .OK
  · simp only [hcode, ne_eq, not_true, if_false]
    cases htimer : sys.uv_timer_init with
    | false => exact ⟨iff_of_true hencrypted (by simp), by simp⟩
    | true =>
      cases haccepted : sys.uv_fs_sendfile with
      | false => exact ⟨iff_of_true hencrypted (by simp), by simp⟩
      | true =>
        refine ⟨iff_of_false ?_ (by simp), fun _ _ _ => rfl⟩
        intro hall
        have hplain := (encrypted_append.mp hall).2 _ (List.mem_singleton.mpr rfl)
        exact absurd hplain (by simp [SocketWrite.encrypted])
  · simp only [hcode, ne_eq, not_false_eq_true, if_true]
    exact ⟨iff_of_true hencrypted (by simp), by simp⟩

theorem encrypted_sendfile (config : StaticConfig) (file_path : List UInt8) {x : static_files.Exchange}
    (h : Encrypted x.socket) (hsends : x.sends = 0) :
    (Encrypted (uvhttp_static_sendfile_with_config sys conn config file_path x).2.socket ↔
      ¬ SendfileAccepted sys conn file_path x.response) ∧
      (SendfileAccepted sys conn file_path x.response →
        (uvhttp_static_sendfile_with_config sys conn config file_path x).1 = .OK) := by
  have hcases := @sendfile_cases sys conn config file_path x
  generalize uvhttp_static_sendfile_with_config sys conn config file_path x = result at hcases ⊢
  cases hcases with
  | stopped hcode hshrunk hready =>
    have hnot : ¬ SendfileAccepted sys conn file_path x.response := by
      rintro ⟨_, _, data, ⟨st, hstat, htrue, _⟩, _⟩
      exact absurd ((hready st hstat).symm.trans htrue) (by simp)
    exact ⟨iff_of_true h hnot, fun haccepted => absurd haccepted hnot⟩
  | shrunk response hshrunk =>
    have hnot : ¬ SendfileAccepted sys conn file_path x.response := by
      rintro ⟨_, _, data, hheaders, _⟩
      exact hheaders.not_shrunk hshrunk
    exact ⟨iff_of_true h hnot, fun _ => rfl⟩
  | unbuilt hstat hready hbuild =>
    have hnot : ¬ SendfileAccepted sys conn file_path x.response := by
      rintro ⟨_, _, data, ⟨st, hstat', _, hok⟩, _⟩
      obtain rfl := Option.some.inj (hstat'.symm.trans hstat)
      exact absurd (hbuild.symm.trans hok) (by simp)
    exact ⟨iff_of_true h hnot, fun haccepted => absurd haccepted hnot⟩
  | @built st data hstat hready hbuild =>
    have hheaders : SendfileHeaders sys file_path x.response data := ⟨st, hstat, hready, hbuild⟩
    have haccepted : SendfileAccepted sys conn file_path x.response ↔
        sys.uv_timer_init = true ∧ sys.uv_fs_sendfile = true ∧
          (uvhttp_response_send_raw conn (sys.transport x.sends) data).code = .OK := by
      rw [hsends]
      constructor
      · rintro ⟨htimer, htaken, data', hheaders', hcode⟩
        obtain rfl := hheaders.unique hheaders'
        exact ⟨htimer, htaken, hcode⟩
      · exact fun ⟨htimer, htaken, hcode⟩ => ⟨htimer, htaken, data, hheaders, hcode⟩
    obtain ⟨hexact, hok⟩ := @encrypted_sendfile_transfer conn htls hssl sys config file_path st.size data { x with
      response := sendfile_response sys file_path st.size x.response
      files := x.files ++ [(sys.fs .sendfile_open).realpath file_path] } h
    rw [haccepted]
    exact ⟨hexact, fun ⟨htimer, htaken, hcode⟩ => hok htimer htaken hcode⟩

variable {config : StaticConfig} {request : Request}

theorem encrypted_large (file_path : List UInt8) (file_size : Nat) (last_modified : Int) {x : static_files.Exchange}
    (h : Encrypted x.socket) (hsends : x.sends = 0) :
    Encrypted (serve_large sys conn config request file_path file_size last_modified x).2.socket ↔
      ¬ SendsFile sys conn request x.response (.large file_path file_size last_modified) := by
  obtain ⟨hexact, hok⟩ := @encrypted_sendfile conn htls hssl sys config file_path x h hsends
  simp only [serve_large, SendsFile]
  cases hcond : uvhttp_static_check_conditional_request sys request
      (uvhttp_static_generate_etag last_modified file_size) last_modified with
  | true => exact iff_of_true h (by simp)
  | false =>
    simp only [Bool.false_eq_true, if_false, true_and]
    by_cases haccepted : SendfileAccepted sys conn file_path x.response
    · rw [if_neg (not_not.mpr (hok haccepted))]
      exact hexact
    · have hclean := hexact.mpr haccepted
      refine iff_of_true ?_ haccepted
      split
      · exact encrypted_send_file_chunked htls hssl _ _ _ _ hclean
      · exact hclean

theorem encrypted_execute {x : static_files.Exchange} (h : Encrypted x.socket) (hsends : x.sends = 0) {p : Plan}
    {code : UvhttpError} {x' : static_files.Exchange}
    (hresult : static_files.execute sys conn config request x p = some (code, x')) :
    Encrypted x'.socket ↔ ¬ SendsFile sys conn request x.response p := by
  cases p with
  | refused refusal status =>
    obtain ⟨_, rfl⟩ := Prod.mk.inj (Option.some.inj hresult)
    exact iff_of_true h not_false
  | cached entry =>
    obtain ⟨_, rfl⟩ := Prod.mk.inj (Option.some.inj hresult)
    exact iff_of_true (encrypted_send_response htls hssl h) not_false
  | listing html =>
    obtain ⟨_, rfl⟩ := Prod.mk.inj (Option.some.inj hresult)
    exact iff_of_true h not_false
  | large file_path file_size last_modified =>
    have hlarge := @encrypted_large conn htls hssl sys config request file_path file_size last_modified x h hsends
    rw [Option.some.inj hresult] at hlarge
    exact hlarge
  | small file_path last_modified =>
    refine iff_of_true ?_ not_false
    simp only [static_files.execute, serve_small] at hresult
    split at hresult
    · obtain ⟨_, rfl⟩ := Prod.mk.inj (Option.some.inj hresult)
      exact h
    split at hresult
    · obtain ⟨_, rfl⟩ := Prod.mk.inj (Option.some.inj hresult)
      exact h
    split at hresult
    · exact absurd hresult (by simp)
    · obtain ⟨_, rfl⟩ := Prod.mk.inj (Option.some.inj hresult)
      exact encrypted_send_response htls hssl h

/-- A request writes to the socket through mbedtls only, unless a file goes out by
sendfile. -/
theorem encrypted_handle_request {cache : CacheManager} {response : Response} {code : UvhttpError}
    {x : static_files.Exchange}
    (h : uvhttp_static_handle_request sys conn config request cache response = some (code, x)) :
    Encrypted x.socket ↔
      ∀ p cache', plan sys config request cache = some (p, cache') → ¬ SendsFile sys conn request response p := by
  rw [uvhttp_static_handle_request] at h
  split at h
  · exact absurd h (by simp)
  rename_i p cache' hplan
  have hexact := encrypted_execute htls hssl encrypted_nil rfl h
  constructor
  · intro hencrypted p' cache'' hplan'
    obtain ⟨rfl, _⟩ := Prod.mk.inj (Option.some.inj (hplan.symm.trans hplan'))
    exact hexact.mp hencrypted
  · exact fun hnone => hexact.mpr (hnone p cache' hplan)

end writes

section runs

theorem encrypted_send_response_data (t : Transport) (data : List UInt8) :
    Encrypted (uvhttp_send_response_data t data).socket ↔
      data = [] ∨ t.alloc (SIZEOF_WRITE_DATA + data.length) = false ∨ t.uv_write = false := by
  simp only [uvhttp_send_response_data, Sent.refused, List.length_eq_zero_iff]
  split
  · rename_i hdata
    exact iff_of_true encrypted_nil (.inl hdata)
  rename_i hdata
  cases halloc : t.alloc (SIZEOF_WRITE_DATA + data.length) with
  | false => exact iff_of_true encrypted_nil (by simp)
  | true =>
    cases hwrite : t.uv_write with
    | false => exact iff_of_true encrypted_nil (by simp)
    | true =>
      refine iff_of_false ?_ (by simp [hdata])
      intro hall
      exact absurd (hall _ (List.mem_singleton.mpr rfl)) (by simp [SocketWrite.encrypted])

theorem encrypted_ws_socket_writes (records : List UInt8 → List UInt8) (events : List WsEvent) :
    Encrypted (ws_socket_writes true records events) := by
  induction events with
  | nil => exact encrypted_nil
  | cons event events ih =>
    cases event with
    | frame_sent frame => exact List.forall_mem_cons.mpr ⟨rfl, ih⟩
    | on_message opcode data => exact ih
    | on_close code reason => exact ih

/-- Encrypted writes have left no transfer to libuv. -/
theorem started_transfers_encrypted {writes : List SocketWrite} (h : Encrypted writes) (sys : System)
    (config : StaticConfig) : started_transfers sys config writes = [] := by
  rw [started_transfers, List.filterMap_eq_nil_iff]
  intro w hw
  cases w with
  | uv_fs_sendfile file_path offset length => exact absurd (h _ hw) (by simp [SocketWrite.encrypted])
  | mbedtls_bio_send records => rfl
  | uv_write data => rfl
  | send data => rfl

/-- TLS is on, also for the WebSocket connection, and no file goes out by sendfile. -/
structure Guarded (s : Channel) : Prop where
  tls_enabled : s.conn.tls_enabled = true
  ssl : s.conn.ssl = true
  ws_ssl : ∀ ssl, s.ws_ssl = some ssl → ssl = true
  transfers : s.transfers = []

/-- An operation adds to what was written. -/
theorem socket_step (s : Channel) (operation : Operation) :
    ∃ added, (step s operation).1.socket = s.socket ++ added := by
  cases operation with
  | response_send | send_raw | send_response_data | ws_send_frame => exact ⟨_, rfl⟩
  | static_request sys config request response =>
    simp only [step]
    split
    · exact ⟨[], (List.append_nil _).symm⟩
    · exact ⟨_, rfl⟩
  | transfer_event i event =>
    simp only [step]
    split
    · exact ⟨[], (List.append_nil _).symm⟩
    · exact ⟨_, rfl⟩
  | ws_handshake => exact ⟨[], (List.append_nil _).symm⟩

/-- An operation of a guarded channel keeps its output encrypted when it is safe, and
only then. -/
theorem encrypted_step {s : Channel} (hguarded : Guarded s) (h : Encrypted s.socket) {operation : Operation}
    (hpossible : Possible s operation) : Encrypted (step s operation).1.socket ↔ Safe s operation := by
  obtain ⟨htls, hssl, hws, htransfers⟩ := hguarded
  cases operation with
  | response_send t response =>
    exact iff_of_true (encrypted_append.mpr ⟨h, encrypted_response_send htls hssl t response⟩) trivial
  | send_raw t data => exact iff_of_true (encrypted_append.mpr ⟨h, send_raw_encrypted htls hssl t data⟩) trivial
  | send_response_data t data =>
    simp only [step, encrypted_append, h, true_and, Safe]
    exact encrypted_send_response_data t data
  | static_request sys config request response =>
    obtain ⟨⟨code, x⟩, hresult⟩ := Option.isSome_iff_exists.mp hpossible
    simp only [step, hresult, encrypted_append, h, true_and, Safe]
    exact encrypted_handle_request htls hssl hresult
  | transfer_event i event =>
    obtain ⟨file_path, t, hget, _⟩ := hpossible
    rw [htransfers] at hget
    exact absurd hget (by simp)
  | ws_handshake => exact iff_of_true h trivial
  | ws_send_frame env records ws data opcode =>
    refine iff_of_true (encrypted_append.mpr ⟨h, ?_⟩) trivial
    rw [hws _ hpossible]
    exact encrypted_ws_socket_writes records _

theorem guarded_step {s : Channel} (hguarded : Guarded s) {operation : Operation} (hpossible : Possible s operation)
    (hsafe : Safe s operation) : Guarded (step s operation).1 := by
  obtain ⟨htls, hssl, hws, htransfers⟩ := hguarded
  cases operation with
  | response_send | send_raw | send_response_data | ws_send_frame => exact ⟨htls, hssl, hws, htransfers⟩
  | static_request sys config request response =>
    obtain ⟨⟨code, x⟩, hresult⟩ := Option.isSome_iff_exists.mp hpossible
    have hencrypted := (encrypted_handle_request htls hssl hresult).mpr hsafe
    simp only [step, hresult]
    refine ⟨htls, hssl, hws, ?_⟩
    rw [htransfers, started_transfers_encrypted hencrypted]
    rfl
  | transfer_event i event =>
    obtain ⟨file_path, t, hget, _⟩ := hpossible
    rw [htransfers] at hget
    exact absurd hget (by simp)
  | ws_handshake =>
    refine ⟨htls, hssl, ?_, htransfers⟩
    intro ssl heq
    exact (Option.some.inj heq).symm.trans hssl

/-- In every run on a TLS connection all output is of mbedtls, exactly when every
operation of it is safe. -/
theorem tls_output_encrypted (cache : CacheManager) (operations : List Operation)
    (h : machine.Enabled step Possible (tls_channel cache) operations) :
    Encrypted (machine.run step (tls_channel cache) operations).socket ↔
      machine.Enabled step Safe (tls_channel cache) operations := by
  refine @machine.holds_iff_enabled _ _ _ step Possible (fun s => Encrypted s.socket) Guarded Safe ?_ ?_ ?_ _ ?_ ?_ _ h
  · intro s operation hafter
    obtain ⟨added, hadded⟩ := socket_step s operation
    rw [hadded] at hafter
    exact (encrypted_append.mp hafter).1
  · intro s operation hguarded hencrypted hpossible
    exact encrypted_step hguarded hencrypted hpossible
  · intro s operation hguarded _ hpossible hsafe
    exact guarded_step hguarded hpossible hsafe
  · exact ⟨rfl, rfl, by simp [tls_channel], rfl⟩
  · exact encrypted_nil

/-- An environment in which nothing fails. -/
def willing_env : WsEnv where
  alloc := fun _ _ => true
  fresh := fun _ _ => 0
  random := fun _ => some [0, 0, 0, 0]
  ssl_write := fun _ length => .wrote length
  send := fun _ length => some length
  message_callback := fun ws _ _ => ws
  close_callback := fun ws _ _ => ws

def open_websocket : WsConnection :=
  { uvhttp_ws_connection_create true true 1048576 1048576 (fun _ => 0) with state := .OPEN }

/-- A response, a WebSocket frame and a small file. -/
theorem tls_output_encrypted_frame_and_file :
    ∃ cache, (lru_cache.uvhttp_lru_cache_create true 1000000 10 0).toOption = some cache ∧
      Encrypted (machine.run step (tls_channel cache) [.response_send .willing uvhttp_response_init, .ws_handshake,
        .ws_send_frame willing_env id open_websocket (bytes "hello") OPCODE_TEXT,
        .static_request (.willing small_site) small_site_config (get "/a" []) uvhttp_response_init]).socket := by
  have hcomputed : (lru_cache.uvhttp_lru_cache_create true 1000000 10 0).toOption.any (fun cache =>
      (uvhttp_static_handle_request (.willing small_site) ⟨true, true⟩ small_site_config (get "/a" []) cache
        uvhttp_response_init).isSome &&
      (plan (.willing small_site) small_site_config (get "/a" []) cache).all fun planned =>
        planned.1 = .small (bytes "/srv/a") 0) = true := by
    decide +kernel
  simp only [Option.any_eq_true, Bool.and_eq_true] at hcomputed
  obtain ⟨cache, hcache, hsome, hplan⟩ := hcomputed
  refine ⟨cache, hcache, (tls_output_encrypted cache _ ?_).mpr ?_⟩
  · exact ⟨trivial, trivial, rfl, hsome, trivial⟩
  · refine ⟨trivial, trivial, trivial, ?_, trivial⟩
    intro p cache' hp
    have hplanned : plan (.willing small_site) small_site_config (get "/a" []) cache = some (p, cache') := hp
    rw [hplanned] at hplan
    obtain rfl : p = .small (bytes "/srv/a") 0 := by simpa using hplan
    exact not_false

/-- A site with a file of 65537 bytes. -/
def large_site : FileSystem where
  realpath := some
  stat := fun path => if path = bytes "/srv/big" then some ⟨true, false, 65537, 0⟩ else none
  open_file := fun path => if path = bytes "/srv/big" then some ⟨true, 65537, true, List.replicate 65537 0⟩ else none
  directory_listing := fun _ _ => none

theorem send_raw_willing {data : List UInt8} (hdata : data ≠ []) :
    (uvhttp_response_send_raw ⟨true, true⟩ .willing data).code = .OK := by
  have hlength : data.length ≠ 0 := fun hzero => hdata (List.length_eq_zero_iff.mp hzero)
  have hpos : 0 < data.length := Nat.pos_of_ne_zero hlength
  simp only [uvhttp_response_send_raw, if_neg hlength, uvhttp_connection_tls_write, Transport.willing, Bool.and_self,
    Bool.not_true, Bool.false_eq_true, if_false, if_true]
  rw [tls_write_loop, if_neg hlength]
  simp only [hpos, if_true, List.drop_length]
  rw [tls_write_loop]
  rfl

/-- The large file goes out by sendfile. -/
theorem large_file_accepted :
    SendfileAccepted (.willing large_site) ⟨true, true⟩ (bytes "/srv/big") uvhttp_response_init := by
  have hbuild : (build_data (fun _ => true) (sendfile_response (.willing large_site) (bytes "/srv/big") 65537
      uvhttp_response_init)).toOption.any (fun data => data ≠ []) = true := by
    decide +kernel
  simp only [Option.any_eq_true, decide_eq_true_eq] at hbuild
  obtain ⟨data, hok, hdata⟩ := hbuild
  refine ⟨rfl, rfl, data, ⟨⟨true, false, 65537, 0⟩, by decide +kernel, by decide +kernel, ?_⟩, send_raw_willing hdata⟩
  cases hresult : build_data ((System.willing large_site).alloc .sendfile_build)
      (sendfile_response (.willing large_site) (bytes "/srv/big") 65537 uvhttp_response_init) with
  | error e =>
    have hnone : (Except.error e : Except UvhttpError (List UInt8)).toOption = some data := by
      rw [← hresult]
      exact hok
    exact absurd hnone (by simp [Except.toOption])
  | ok data' =>
    have hsome : (Except.ok data' : Except UvhttpError (List UInt8)).toOption = some data := by
      rw [← hresult]
      exact hok
    rw [Option.some.inj hsome]

/-- `uvhttp_send_response_data` and sendfile do not ask for TLS. -/
theorem tls_output_plain :
    ∃ cache, (lru_cache.uvhttp_lru_cache_create true 1000000 10 0).toOption = some cache ∧
      ∀ operation ∈ [.send_response_data .willing (bytes "HTTP/1.1 200 OK\r\n\r\n"),
          .static_request (.willing large_site) small_site_config (get "/big" []) uvhttp_response_init],
        machine.Enabled step Possible (tls_channel cache) [operation] ∧
          ¬ Encrypted (machine.run step (tls_channel cache) [operation]).socket := by
  have hcomputed : (lru_cache.uvhttp_lru_cache_create true 1000000 10 0).toOption.any (fun cache =>
      (uvhttp_static_handle_request (.willing large_site) ⟨true, true⟩ small_site_config (get "/big" []) cache
        uvhttp_response_init).isSome &&
      (plan (.willing large_site) small_site_config (get "/big" []) cache).any fun planned =>
        planned.1 = .large (bytes "/srv/big") 65537 0) = true := by
    decide +kernel
  simp only [Option.any_eq_true, Bool.and_eq_true, decide_eq_true_eq] at hcomputed
  obtain ⟨cache, hcache, hsome, ⟨p, cache'⟩, hplan, hlarge⟩ := hcomputed
  have hguarded : Guarded (tls_channel cache) := ⟨rfl, rfl, by simp [tls_channel], rfl⟩
  refine ⟨cache, hcache, fun operation hoperation => ?_⟩
  simp only [List.mem_cons, List.not_mem_nil, or_false] at hoperation
  obtain rfl | rfl := hoperation
  · refine ⟨⟨trivial, trivial⟩, fun hencrypted => ?_⟩
    have hsafe := (@encrypted_step _ hguarded encrypted_nil (.send_response_data _ _) trivial).mp hencrypted
    exact absurd hsafe (by simp [Safe, Transport.willing, bytes])
  · refine ⟨⟨hsome, trivial⟩, fun hencrypted => ?_⟩
    have hsafe := (@encrypted_step _ hguarded encrypted_nil (.static_request _ _ _ _) hsome).mp hencrypted
    obtain rfl : p = .large (bytes "/srv/big") 65537 0 := hlarge
    refine hsafe _ cache' hplan ⟨?_, large_file_accepted⟩
    decide +kernel

end runs

end uvhttp.tls_confinement
