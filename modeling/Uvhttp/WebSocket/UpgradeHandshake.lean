import Uvhttp.Http.KeepAlive
import Uvhttp.Http.RequestHeaders
import Uvhttp.Server.ProtocolUpgrade
import Uvhttp.Static.Handler
import Uvhttp.WebSocket.HandshakeAgreement
import Uvhttp.WebSocket.Session

open text_search forward_list
open uvhttp.http uvhttp.server uvhttp.websocket
open uvhttp.static_files (uvhttp_request_get_header)

namespace uvhttp.ws_upgrade

/-- `uvhttp_ws_handler_t`: `on_connect` is whether the callback, if it is set, returns zero. -/
structure ConnectHandler extends WsHandler where
  on_connect : Option Bool
  deriving DecidableEq, Repr

/-- `ws_route_entry_t`. -/
structure WsRoute where
  path : List UInt8
  handler : ConnectHandler
  deriving DecidableEq, Repr

/-- `uvhttp_server_register_ws_handler`, its two allocations being there. -/
def uvhttp_server_register_ws_handler (ws_routes : List WsRoute) (path : List UInt8) (handler : ConnectHandler) :
    List WsRoute :=
  ws_routes ++ [⟨path, handler⟩]

def uvhttp_server_find_ws_handler : List WsRoute → List UInt8 → Option ConnectHandler
  | [], _ => none
  | current :: next, path =>
    if current.path = path then some current.handler else uvhttp_server_find_ws_handler next path

/-- The code around the upgrade of a connection without TLS: the allocator of the HTTP side, what
libuv answers, the crypto library, and the allocations of the two WebSocket objects. -/
structure UpgradeEnv where
  alloc : Nat → Bool
  uv_write : List UInt8 → Bool
  uv_fileno : Bool
  uv_read_start : Bool
  digest : Digest
  ws_conn_alloc : Bool
  wrapper_alloc : Bool
  stale : Nat → UInt8
  context : Bool
  max_frame_size : Int
  max_message_size : Int
  ws_routes : List WsRoute

/-- The connection of a request to upgrade. `written` is what has been handed to `uv_write`,
`connects` and `calls` are the callbacks made, and `managed` is the path under which the
connection manager was told of it. -/
structure UpgradeConn where
  request : Request
  response : Response
  protocol_name : List UInt8
  written : List UInt8
  ws_connection : Option HandshakeConnection
  wrapper : Bool
  connects : Nat
  calls : List RelayCall
  managed : Option (List UInt8)
  reading_frames : Bool
  closing : Bool

/-- A connection that has received a request and answered nothing. -/
def upgrade_new (request : Request) (response : Response) : UpgradeConn where
  request
  response
  protocol_name := []
  written := []
  ws_connection := none
  wrapper := false
  connects := 0
  calls := []
  managed := none
  reading_frames := false
  closing := false

def websocket_protocol_detector : Detector UpgradeConn := fun upgrade_header connection_header c =>
  match connection_header with
  | none => (false, c)
  | some connection_header =>
    if (uvhttp_request_get_header c.request HEADER_WEBSOCKET_KEY).isNone then (false, c)
    else if !strcasecmp upgrade_header (bytes "websocket") then (false, c)
    else if (uvhttp_ws_strcasestr connection_header (bytes "upgrade")).isNone then (false, c)
    else (true, { c with protocol_name := bytes "websocket" })

section handler

variable (env : UpgradeEnv)

/-- A response made of these calls. -/
def answer (c : UpgradeConn) (response_calls : List HandlerCall) : UpgradeConn :=
  let responded := respond env.alloc env.uv_write c.response response_calls
  { c with response := responded.1, written := c.written ++ responded.2 }

def uvhttp_connection_close (c : UpgradeConn) : UpgradeConn := { c with closing := true }

def uvhttp_connection_switch_to_websocket (c : UpgradeConn) : UpgradeConn :=
  if c.closing then c
  else if !env.uv_read_start then uvhttp_connection_close c
  else { c with reading_frames := true }

/-- `uvhttp_connection_websocket_close` with the handles. -/
def close_websocket (handler : Option ConnectHandler) (c : UpgradeConn) : UpgradeConn :=
  let (left, calls) := uvhttp_connection_websocket_close (handler.map ConnectHandler.toWsHandler)
    ⟨c.ws_connection.map HandshakeConnection.toWsConnection, c.wrapper⟩
  uvhttp_connection_close { c with ws_connection := none, wrapper := left.wrapper, calls := c.calls ++ calls }

/-- The WebSocket object for a key, wired to the internal callbacks and open. -/
def open_connection (ws_key : List UInt8) : HandshakeConnection where
  toWsConnection := upgraded_connection false env.context env.max_frame_size env.max_message_size env.stale
  client_key := uvhttp_safe_strncpy 64 ws_key

def uvhttp_connection_handle_websocket_handshake (ws_key : List UInt8) (c : UpgradeConn) :
    UvhttpError × UpgradeConn :=
  let path := cstr c.request.url
  let user_handler := uvhttp_server_find_ws_handler env.ws_routes path
  if !env.uv_fileno then (.IO_ERROR, c)
  else if !env.ws_conn_alloc then (.IO_ERROR, c)
  else if !env.wrapper_alloc then (.OUT_OF_MEMORY, c)
  else
    let c := { c with ws_connection := some (open_connection env ws_key), wrapper := true }
    let connected := user_handler.bind ConnectHandler.on_connect
    let c := { c with connects := c.connects + connected.toList.length }
    if connected = some false then (.IO_ERROR, close_websocket user_handler c)
    else (.OK, { uvhttp_connection_switch_to_websocket env c with managed := some path })

/-- How the handler makes the 101 response. -/
def upgrade_calls (accept : List UInt8) : List HandlerCall :=
  [.set_status 101, .set_header (bytes "Upgrade") (bytes "websocket"),
    .set_header (bytes "Connection") (bytes "Upgrade"), .set_header HEADER_WEBSOCKET_ACCEPT accept, .send]

def websocket_upgrade_handler : UpgradeHandler UpgradeConn := fun _ c =>
  match uvhttp_request_get_header c.request HEADER_WEBSOCKET_KEY with
  | none =>
    (.INVALID_PARAM, answer env c [.set_status 400, .set_header (bytes "Content-Type") (bytes "text/plain"),
      .set_body (bytes "Missing Sec-WebSocket-Key header"), .send])
  | some ws_key =>
    let c := answer env c (upgrade_calls (uvhttp_ws_generate_accept env.digest ws_key))
    match uvhttp_connection_handle_websocket_handshake env ws_key c with
    | (.OK, c) => (.OK, c)
    | (_, c) => (.CONNECTION_INIT, uvhttp_connection_close c)

/-- What `uvhttp_server_register_websocket_upgrade` registers. -/
def websocket_upgrade (registry_alloc : Bool) (info_alloc : Allocator (ProtocolInfo UpgradeConn)) :
    Registration UpgradeConn where
  protocol_name := some (bytes "websocket")
  upgrade_header := some (bytes "websocket")
  detector := some websocket_protocol_detector
  handler := some (websocket_upgrade_handler env)
  user_data := 0
  registry_alloc
  info_alloc

/-- The protocol it becomes in the registry. -/
def websocket_protocol : ProtocolInfo UpgradeConn where
  name := bytes "websocket"
  upgrade_header := bytes "websocket"
  detector := websocket_protocol_detector
  handler := websocket_upgrade_handler env
  user_data := 0

/-- What the dispatch does to the connection after the handler. -/
def dispatch_event (c : UpgradeConn) : UpgradeEvent UpgradeConn → UpgradeConn
  | .handler _ _ => c
  | .respond status content_type body =>
    answer env c [.set_status status, .set_header (bytes "Content-Type") content_type, .set_body body, .send]

/-- `on_message_complete` between the rate limit and the router: whether the request goes on to
the router, and the connection. -/
def upgrade_message (fuel : Nat) (registry : Option (ProtocolRegistry UpgradeConn)) (c : UpgradeConn) :
    Option (Bool × UpgradeConn) :=
  match uvhttp_request_get_header c.request (bytes "Upgrade") with
  | none => some (true, c)
  | some upgrade_header => do
    let u ← upgrade_request fuel upgrade_header (uvhttp_request_get_header c.request (bytes "Connection")) registry c
    some (u.routed, u.events.foldl (dispatch_event env) u.state)

end handler

/-- The response to an upgrade, as it goes to the client. -/
def upgrade_response (accept : List UInt8) : List UInt8 :=
  bytes "HTTP/1.1 101 Switching Protocols\r\nUpgrade: websocket\r\nConnection: Upgrade\r\n" ++
    HEADER_WEBSOCKET_ACCEPT ++ bytes ": " ++ accept ++
    bytes "\r\nContent-Type: text/plain\r\nContent-Length: 0\r\n\r\n"

/-- The headers that it is made of. -/
def upgrade_headers (accept : List UInt8) : List Header :=
  [⟨bytes "Upgrade", bytes "websocket"⟩, ⟨bytes "Connection", bytes "Upgrade"⟩, ⟨HEADER_WEBSOCKET_ACCEPT, accept⟩]

/-- A response in which nothing has been set. -/
structure Unused (r : Response) : Prop where
  sent : r.sent = false
  headers : r.headers = []
  body : r.body = none
  table : ResponseTable r

/-- The request asks for a WebSocket connection, with this key. -/
structure AsksWebSocket (request : Request) (ws_key : List UInt8) : Prop where
  upgrade : ∃ value, uvhttp_request_get_header request (bytes "Upgrade") = some value ∧
    strcasecmp value (bytes "websocket") = true
  connection : ∃ value, uvhttp_request_get_header request (bytes "Connection") = some value ∧
    (uvhttp_ws_strcasestr value (bytes "upgrade")).isSome = true
  ws_key : uvhttp_request_get_header request HEADER_WEBSOCKET_KEY = some ws_key

/-- What the callback of the registered handler answers, if there is one for the path. -/
def UpgradeEnv.connected (env : UpgradeEnv) (request : Request) : Option Bool :=
  (uvhttp_server_find_ws_handler env.ws_routes (cstr request.url)).bind ConnectHandler.on_connect

/-- The WebSocket objects are there, and the registered handler does not refuse. -/
def UpgradeEnv.Serves (env : UpgradeEnv) (request : Request) : Prop :=
  env.uv_fileno = true ∧ env.ws_conn_alloc = true ∧ env.wrapper_alloc = true ∧ env.connected request ≠ some false

instance (env : UpgradeEnv) (request : Request) : Decidable (env.Serves request) :=
  inferInstanceAs (Decidable (_ ∧ _ ∧ _ ∧ _))

/-- The registered handler refuses the connection, and hears of its end. -/
def UpgradeEnv.Refuses (env : UpgradeEnv) (request : Request) : Prop :=
  env.uv_fileno = true ∧ env.ws_conn_alloc = true ∧ env.wrapper_alloc = true ∧
    ∃ handler, uvhttp_server_find_ws_handler env.ws_routes (cstr request.url) = some handler ∧
      handler.on_connect = some false ∧ handler.on_close = true

/-- What the handshake makes of a connection that has no WebSocket object: an open session, or
none. -/
structure Handshaken (env : UpgradeEnv) (request : Request) (ws_key : List UInt8) (c : UpgradeConn) : Prop where
  connection : c.ws_connection = if env.Serves request then some (open_connection env ws_key) else none
  wrapper : c.wrapper = decide (env.Serves request)
  managed : c.managed = if env.Serves request then some (cstr request.url) else none
  reading : c.reading_frames = true ↔ env.Serves request ∧ env.uv_read_start = true
  closed : .on_close ∈ c.calls ↔ env.Refuses request

/-- What an upgrade does. The 101 goes out in any case; then there is an open session, or a
connection that closes. -/
structure Upgraded (env : UpgradeEnv) (request : Request) (ws_key : List UInt8) (c : UpgradeConn) : Prop
    extends Handshaken env request ws_key c where
  written : c.written = upgrade_response (uvhttp_ws_generate_accept env.digest ws_key)
  sent : c.response.sent = true
  closing : c.closing = true ↔ ¬(env.Serves request ∧ env.uv_read_start = true)

section response

variable {alloc : Nat → Bool} {uv_write : List UInt8 → Bool} {r : Response}

/-- A short valid header goes behind those of a response that has room. -/
theorem set_header_short (h : ResponseTable r) (hroom : r.headers.length < r.headers_capacity)
    {name value : List UInt8} (hvalid : ValidHeader name value) (hname : name.length < UVHTTP_HEADER_NAME_BUFFER_SIZE)
    (hvalue : value.length < UVHTTP_HEADER_VALUE_BUFFER_SIZE) :
    (uvhttp_response_set_header alloc r name value).2 = { r with headers := r.headers ++ [⟨name, value⟩] } := by
  rw [h.set_header, if_pos hvalid, if_pos (.inl hroom), with_header, if_pos hroom, if_pos hroom,
    written_header_fits hname hvalue]

theorem base64_printable {c : UInt8} (h : base64_char c = true) : ¬c < 32 ∧ c ≠ 127 := by
  refine ⟨?_, ?_⟩
  · simp only [base64_char, Bool.or_eq_true, Bool.and_eq_true, decide_eq_true_eq, beq_iff_eq,
      UInt8.le_iff_toNat_le, ← UInt8.toNat_inj] at h
    simp only [UInt8.lt_iff_toNat_lt]
    simp at h ⊢
    omega
  · rintro rfl
    revert h
    decide

/-- Base64 text is a valid header value. -/
theorem base64_valid {name value : List UInt8} (hname : uvhttp_validate_header_name name = true)
    (hchars : value.all base64_char = true) (hlength : value.length ≤ UVHTTP_MAX_HEADER_VALUE_SIZE) :
    ValidHeader name value := by
  refine validHeader_of_checks hname ?_
  rw [uvhttp_validate_header_value_safe, Bool.and_eq_true, decide_eq_true_eq, List.all_eq_true]
  refine ⟨hlength, fun c hc => ?_⟩
  obtain ⟨hlow, hdelete⟩ := base64_printable (List.all_eq_true.mp hchars c hc)
  simp [hlow, hdelete]

/-- The text of a response with the three headers of an upgrade. -/
theorem header_text_upgrade {accept : List UInt8} (hchars : accept.all base64_char = true)
    (hlength : accept.length = 28) (keepalive : Bool) :
    header_text 101 (upgrade_headers accept) none keepalive = upgrade_response accept := by
  have hclean : contains_control_chars accept = false :=
    (base64_valid (by decide : uvhttp_validate_header_name HEADER_WEBSOCKET_ACCEPT = true) hchars
      (by rw [hlength]; decide)).2.2
  have hsent : sent_headers (upgrade_headers accept) = upgrade_headers accept := by
    have hfirst : contains_control_chars (bytes "websocket") = false := by decide
    have hsecond : contains_control_chars (bytes "Upgrade") = false := by decide
    have hone : (bytes "websocket").length < UVHTTP_HEADER_VALUE_BUFFER_SIZE := by decide
    have htwo : (bytes "Upgrade").length < UVHTTP_HEADER_VALUE_BUFFER_SIZE := by decide
    simp [upgrade_headers, sent_headers, header_value_at, List.mapIdx_cons, hclean, hfirst, hsecond, hone, htwo]
  have htype : ((upgrade_headers accept).any fun h => strcasecmp h.name (bytes "Content-Type")) = false := rfl
  have hcount : ((upgrade_headers accept).any fun h => strcasecmp h.name (bytes "Content-Length")) = false := rfl
  have hconnection : ((upgrade_headers accept).any fun h => strcasecmp h.name (bytes "Connection")) = true := rfl
  have hfront : bytes "HTTP/1.1 " ++ bytes (toString (101 : Int)) ++ bytes " " ++ get_status_text 101 ++
      bytes "\r\n" ++ (bytes "Upgrade" ++ bytes ": " ++ bytes "websocket" ++ bytes "\r\n") ++
      (bytes "Connection" ++ bytes ": " ++ bytes "Upgrade" ++ bytes "\r\n") =
      bytes "HTTP/1.1 101 Switching Protocols\r\nUpgrade: websocket\r\nConnection: Upgrade\r\n" := by
    decide +kernel
  have hback : bytes "\r\n" ++ bytes "Content-Type: text/plain\r\n" ++ (bytes "Content-Length: " ++
      bytes (toString ((none : Option (List UInt8)).getD []).length) ++ bytes "\r\n") ++ bytes "\r\n" =
      bytes "\r\nContent-Type: text/plain\r\nContent-Length: 0\r\n\r\n" := by decide +kernel
  rw [header_text, hsent, htype, hcount, hconnection, upgrade_response, ← hfront, ← hback]
  simp only [upgrade_headers, List.flatMap_cons, List.flatMap_nil, Bool.false_eq_true, if_false, if_true,
    List.append_assoc, List.append_nil]

/-- The calls of the handler hand over the response to the upgrade. -/
theorem respond_upgrade (halloc : ∀ size, alloc size = true) (h : Unused r) {accept : List UInt8}
    (hchars : accept.all base64_char = true) (hlength : accept.length = 28) :
    (respond alloc uv_write r (upgrade_calls accept)).2 = upgrade_response accept ∧
      (respond alloc uv_write r (upgrade_calls accept)).1.sent = true := by
  obtain ⟨hunsent, hheaders, hbody, htable⟩ := h
  refine ⟨?_, respond_sends halloc htable (by simp [upgrade_calls])⟩
  obtain ⟨status, sent, finished, keepalive, headers, capacity, extra, body⟩ := r
  dsimp only at hunsent hheaders hbody
  subst hunsent hheaders hbody
  have hroom : 32 ≤ capacity := by
    rcases htable.capacity with hsmall | ⟨hlarge, -⟩
    · exact hsmall.ge
    · exact Nat.le_trans (by decide) hlarge.ge
  have hset : ∀ (headers : List Header) (name value : List UInt8), headers.length < 3 → ValidHeader name value →
      name.length < UVHTTP_HEADER_NAME_BUFFER_SIZE → value.length < UVHTTP_HEADER_VALUE_BUFFER_SIZE →
      (uvhttp_response_set_header alloc ⟨101, false, finished, keepalive, headers, capacity, extra, none⟩
        name value).2 = ⟨101, false, finished, keepalive, headers ++ [⟨name, value⟩], capacity, extra, none⟩ := by
    intro headers name value hfew hvalid hname hvalue
    have hsame : ResponseTable ⟨101, false, finished, keepalive, headers, capacity, extra, none⟩ :=
      ⟨by dsimp only; omega, htable.capacity⟩
    exact set_header_short hsame (by dsimp only; omega) hvalid hname hvalue
  have hstatus : (uvhttp_response_set_status ⟨status, false, finished, keepalive, [], capacity, extra, none⟩ 101).2 =
      ⟨101, false, finished, keepalive, [], capacity, extra, none⟩ := rfl
  have haccept := base64_valid (by decide : uvhttp_validate_header_name HEADER_WEBSOCKET_ACCEPT = true) hchars
    (by rw [hlength]; decide)
  simp only [upgrade_calls, respond, HandlerCall.perform]
  rw [hstatus, hset [] _ _ (by decide) (by decide) (by decide) (by decide),
    hset ([] ++ [_]) _ _ (by simp) (by decide) (by decide) (by decide),
    hset ([] ++ [_] ++ [_]) _ _ (by simp) haccept (by decide) (by rw [hlength]; decide),
    send_eq halloc uv_write rfl]
  simp only [List.nil_append, List.append_nil, List.cons_append, Option.getD_none]
  exact header_text_upgrade hchars hlength keepalive

end response

section dispatch

variable {σ : Type} {upgrade_header : List UInt8} {connection_header : Option (List UInt8)}

/-- The search goes past the protocols that refuse. -/
theorem seek_refused {infos : List (ProtocolInfo σ)} {s t : σ}
    (h : Refused upgrade_header connection_header infos s t) (rest : List (ProtocolInfo σ)) :
    forward_list.seek (detects upgrade_header connection_header) (infos ++ rest) s =
      forward_list.seek (detects upgrade_header connection_header) rest t := by
  induction infos generalizing s with
  | nil => rw [List.nil_append, show t = s from h]
  | cons info infos ih =>
    rw [List.cons_append, forward_list.seek, detects]
    rcases h with ⟨hunfit, hlater⟩ | ⟨hfits, u, hrefuses, hlater⟩
    · rw [if_pos (not_not.mp (mt token_fits_iff.mpr hunfit))]
      exact ih hlater
    · rw [if_neg (token_fits_iff.mp hfits), hrefuses]
      exact ih hlater

/-- The dispatch on a registry is the search of the list of its protocols. -/
theorem upgrade_request_eq {registry : Option (ProtocolRegistry σ)} {infos : List (ProtocolInfo σ)}
    (h : RegistryKeeps registry infos) {fuel : Nat} (hfuel : 10 ≤ fuel) (s : σ) :
    upgrade_request fuel upgrade_header connection_header registry s =
      let found := forward_list.seek (detects upgrade_header connection_header) infos s
      some (found.1.elim ⟨[], true, found.2⟩ fun proto => upgrade_to proto found.2) := by
  obtain ⟨hlists, -, hbounded⟩ := h
  cases registry with
  | none =>
    obtain rfl : infos = [] := hlists
    rfl
  | some registry =>
    obtain ⟨hrepresents, hcount⟩ := hlists
    have hloop : upgrade_loop fuel upgrade_header connection_header registry s =
        let found := forward_list.seek (detects upgrade_header connection_header) infos s
        some (found.1.elim ⟨[], true, found.2⟩ fun proto => upgrade_to proto found.2) := by
      rw [upgrade_loop, hrepresents.seek _ (Nat.le_trans hbounded hfuel)]
      rcases forward_list.seek (detects upgrade_header connection_header) infos s with ⟨found, t⟩
      cases found with
      | none => rfl
      | some proto => rfl
    rw [upgrade_request]
    split_ifs with hone
    · have hlength : infos.length = 1 := by
        rw [← hcount, hone]
        rfl
      rw [@upgrade_single_eq_loop σ fuel _ _ _ _ hrepresents hlength (by omega)]
      exact hloop
    · exact hloop

end dispatch

section upgrade

variable {env : UpgradeEnv} {request : Request} {response : Response} {ws_key : List UInt8}

/-- The detector accepts the requests that ask for a WebSocket connection. -/
theorem detector_accepts (h : AsksWebSocket request ws_key) {upgrade_header : List UInt8}
    (hupgrade : uvhttp_request_get_header request (bytes "Upgrade") = some upgrade_header) (c : UpgradeConn)
    (hc : c.request = request) :
    detects upgrade_header (uvhttp_request_get_header request (bytes "Connection")) (websocket_protocol env) c =
      (true, { c with protocol_name := bytes "websocket" }) := by
  obtain ⟨⟨value, hvalue, htoken⟩, ⟨connection, hconnection, hlisted⟩, hkey⟩ := h
  obtain rfl : value = upgrade_header := Option.some.inj (hvalue.symm.trans hupgrade)
  have hfound : (uvhttp_ws_strcasestr connection (bytes "upgrade")).isNone = false := by
    rw [← Option.not_isSome, hlisted]
    rfl
  rw [detects, if_neg, hconnection]
  · change websocket_protocol_detector value (some connection) c = _
    rw [websocket_protocol_detector, hc, hkey, htoken, hfound]
    rfl
  · change ¬(decide (bytes "websocket" ≠ []) && !strcasecmp value (bytes "websocket")) = true
    rw [htoken]
    simp

/-- It refuses the others, and leaves the connection as it is. -/
theorem detector_refuses (h : ¬∃ ws_key, AsksWebSocket request ws_key) {upgrade_header : List UInt8}
    (hupgrade : uvhttp_request_get_header request (bytes "Upgrade") = some upgrade_header) (c : UpgradeConn)
    (hc : c.request = request) :
    detects upgrade_header (uvhttp_request_get_header request (bytes "Connection")) (websocket_protocol env) c =
      (false, c) := by
  rw [detects]
  split_ifs with htoken
  · rfl
  · change websocket_protocol_detector upgrade_header _ c = _
    have htoken : strcasecmp upgrade_header (bytes "websocket") = true := by
      by_contra hother
      apply htoken
      have hname : (websocket_protocol env).upgrade_header = bytes "websocket" := rfl
      rw [hname, (Bool.not_eq_true _).mp hother]
      decide
    unfold websocket_protocol_detector
    cases hconnection : uvhttp_request_get_header request (bytes "Connection") with
    | none => rfl
    | some connection =>
      dsimp only
      rw [hc, htoken]
      cases hkey : uvhttp_request_get_header request HEADER_WEBSOCKET_KEY with
      | none => rfl
      | some ws_key =>
        cases hlisted : uvhttp_ws_strcasestr connection (bytes "upgrade") with
        | none => rfl
        | some found =>
          exact absurd ⟨ws_key, ⟨_, hupgrade, htoken⟩, ⟨_, hconnection, by rw [hlisted]; rfl⟩, hkey⟩ h

/-- A connection of which nothing has been made yet. -/
structure Untouched (c : UpgradeConn) : Prop where
  connection : c.ws_connection = none
  wrapper : c.wrapper = false
  managed : c.managed = none
  reading : c.reading_frames = false
  closing : c.closing = false
  calls : c.calls = []

theorem switch_spec {c : UpgradeConn} (h : c.closing = false) :
    uvhttp_connection_switch_to_websocket env c =
      { c with closing := !env.uv_read_start, reading_frames := c.reading_frames || env.uv_read_start } := by
  unfold uvhttp_connection_switch_to_websocket
  rw [h]
  cases hstart : env.uv_read_start with
  | true => simp
  | false => simp [uvhttp_connection_close]

theorem refuses_of_connected (hfileno : env.uv_fileno = true) (hconn : env.ws_conn_alloc = true)
    (hwrap : env.wrapper_alloc = true) (hconnected : env.connected request = some false) :
    ∃ handler, uvhttp_server_find_ws_handler env.ws_routes (cstr request.url) = some handler ∧
      handler.on_connect = some false ∧ (env.Refuses request ↔ handler.on_close = true) := by
  obtain ⟨handler, hfind, hconnect⟩ := Option.bind_eq_some_iff.mp hconnected
  refine ⟨handler, hfind, hconnect, ?_, ?_⟩
  · rintro ⟨-, -, -, other, hother, -, hclose⟩
    obtain rfl : handler = other := Option.some.inj (hfind.symm.trans hother)
    exact hclose
  · intro hclose
    exact ⟨hfileno, hconn, hwrap, handler, hfind, hconnect, hclose⟩

/-- The handshake after the response. -/
theorem handle_handshake {c : UpgradeConn} (hc : Untouched c) :
    ∃ code c', uvhttp_connection_handle_websocket_handshake env ws_key c = (code, c') ∧
      (code = .OK ↔ env.Serves c.request) ∧ Handshaken env c.request ws_key c' ∧ c'.response = c.response ∧
      c'.written = c.written ∧ (env.Serves c.request → c'.closing = !env.uv_read_start) := by
  have hnone : ¬env.Serves c.request → ¬env.Refuses c.request → Handshaken env c.request ws_key c := by
    intro hserves hrefuses
    constructor
    · rw [if_neg hserves, hc.connection]
    · rw [decide_eq_false hserves, hc.wrapper]
    · rw [if_neg hserves, hc.managed]
    · rw [hc.reading]
      simp [hserves]
    · rw [hc.calls]
      simp [hrefuses]
  unfold uvhttp_connection_handle_websocket_handshake
  by_cases hfileno : env.uv_fileno = true
  · by_cases hconn : env.ws_conn_alloc = true
    · by_cases hwrap : env.wrapper_alloc = true
      · rw [hfileno, hconn, hwrap]
        simp only [Bool.not_true, Bool.false_eq_true, if_false]
        change ∃ code c', (if env.connected c.request = some false then _ else _) = (code, c') ∧ _
        by_cases hconnected : env.connected c.request = some false
        · obtain ⟨handler, hfind, hconnect, hcloses⟩ := refuses_of_connected hfileno hconn hwrap hconnected
          have hserves : ¬env.Serves c.request := fun h => h.2.2.2 hconnected
          rw [if_pos hconnected]
          refine ⟨_, _, rfl, by simp [hserves], ?_, rfl, rfl, fun h => absurd h hserves⟩
          constructor
          · rw [if_neg hserves]
            rfl
          · rw [decide_eq_false hserves]
            rfl
          · rw [if_neg hserves]
            exact hc.managed
          · change c.reading_frames = true ↔ _
            rw [hc.reading]
            simp [hserves]
          · rw [hcloses, hfind]
            change RelayCall.on_close ∈ c.calls ++ (if handler.on_close then [.on_close] else []) ↔ _
            rw [hc.calls]
            simp
        · have hserves : env.Serves c.request := ⟨hfileno, hconn, hwrap, hconnected⟩
          rw [if_neg hconnected, switch_spec (by exact hc.closing)]
          refine ⟨_, _, rfl, by simp [hserves], ?_, rfl, rfl, fun _ => rfl⟩
          constructor
          · rw [if_pos hserves]
          · rw [decide_eq_true hserves]
          · rw [if_pos hserves]
          · simp [hserves, hc.reading]
          · have hrefuses : ¬env.Refuses c.request := by
              rintro ⟨-, -, -, handler, hfind, hconnect, -⟩
              apply hconnected
              rw [UpgradeEnv.connected, hfind]
              exact hconnect
            dsimp only
            rw [hc.calls]
            simp [hrefuses]
      · rw [(Bool.not_eq_true _).mp hwrap, hfileno, hconn]
        have hserves : ¬env.Serves c.request := fun h => hwrap h.2.2.1
        exact ⟨_, _, rfl, by simp [hserves], hnone hserves fun h => hwrap h.2.2.1, rfl, rfl, fun h => absurd h hserves⟩
    · rw [(Bool.not_eq_true _).mp hconn, hfileno]
      have hserves : ¬env.Serves c.request := fun h => hconn h.2.1
      exact ⟨_, _, rfl, by simp [hserves], hnone hserves fun h => hconn h.2.1, rfl, rfl, fun h => absurd h hserves⟩
  · rw [(Bool.not_eq_true _).mp hfileno]
    have hserves : ¬env.Serves c.request := fun h => hfileno h.1
    exact ⟨_, _, rfl, by simp [hserves], hnone hserves fun h => hfileno h.1, rfl, rfl, fun h => absurd h hserves⟩

/-- Once the response has been sent, another answer adds nothing. -/
theorem Upgraded.answer {c : UpgradeConn} (h : Upgraded env request ws_key c) (htable : ResponseTable c.response)
    (response_calls : List HandlerCall) : Upgraded env request ws_key (answer env c response_calls) := by
  obtain ⟨hsent, hnothing⟩ := @respond_sent env.alloc env.uv_write _ htable h.sent response_calls
  refine ⟨⟨h.connection, h.wrapper, h.managed, h.reading, h.closed⟩, ?_, hsent, h.closing⟩
  rw [ws_upgrade.answer, hnothing, List.append_nil]
  exact h.written

variable (halloc : ∀ size, env.alloc size = true) (hd : env.digest.Documented)

include halloc hd

theorem upgrade_handler_spec (hkey : uvhttp_request_get_header request HEADER_WEBSOCKET_KEY = some ws_key)
    {c : UpgradeConn} (hc : Untouched c) (hrequest : c.request = request) (hunused : Unused c.response)
    (hwritten : c.written = []) :
    ∃ code c', websocket_upgrade_handler env 0 c = (code, c') ∧ Upgraded env request ws_key c' ∧
      ResponseTable c'.response := by
  have hchars := hd.base64_chars (env.digest.sha1 ((ws_key ++ WS_GUID).take 255))
  have hlength := generate_accept_length hd ws_key
  obtain ⟨hresponse, hsent⟩ := @respond_upgrade env.alloc env.uv_write _ halloc hunused _ hchars hlength
  have htable := @respond_table env.alloc env.uv_write _ hunused.table
    (upgrade_calls (uvhttp_ws_generate_accept env.digest ws_key))
  have huntouched : Untouched (answer env c (upgrade_calls (uvhttp_ws_generate_accept env.digest ws_key))) :=
    ⟨hc.connection, hc.wrapper, hc.managed, hc.reading, hc.closing, hc.calls⟩
  obtain ⟨code, c', hhandshake, hcode, hdone, hafter, hwrote, hclosing⟩ :=
    @handle_handshake env ws_key _ huntouched
  have hpath : (answer env c (upgrade_calls (uvhttp_ws_generate_accept env.digest ws_key))).request = request :=
    hrequest
  rw [hpath] at hcode hdone hclosing
  have hbytes : c'.written = upgrade_response (uvhttp_ws_generate_accept env.digest ws_key) := by
    rw [hwrote, answer, hwritten, List.nil_append]
    exact hresponse
  have hanswered : c'.response.sent = true := by
    rw [hafter]
    exact hsent
  have hstays : ResponseTable c'.response := by
    rw [hafter]
    exact htable
  rw [websocket_upgrade_handler, hrequest, hkey]
  dsimp only
  rw [hhandshake]
  by_cases hserves : env.Serves request
  · obtain rfl : code = .OK := hcode.mpr hserves
    refine ⟨_, _, rfl, ⟨hdone, hbytes, hanswered, ?_⟩, hstays⟩
    rw [hclosing hserves]
    simp [hserves]
  · split
    · next c'' heq =>
      exact absurd (hcode.mp (Prod.mk.inj heq).1) hserves
    · next code' c'' _ heq =>
      obtain rfl := (Prod.mk.inj heq).2
      refine ⟨_, _, rfl, ⟨⟨hdone.connection, hdone.wrapper, hdone.managed, hdone.reading, hdone.closed⟩, hbytes,
        hanswered, ?_⟩, hstays⟩
      simp [uvhttp_connection_close, hserves]

omit halloc hd in
/-- The dispatch on a registry with the protocol, for a request that those registered after it
refuse. -/
theorem dispatch_eq {later earlier : List (ProtocolInfo UpgradeConn)} {registry : Option (ProtocolRegistry UpgradeConn)}
    (hregistry : RegistryKeeps registry (later ++ websocket_protocol env :: earlier)) {fuel : Nat}
    (hfuel : 10 ≤ fuel) {upgrade_header : List UInt8} {connection_header : Option (List UInt8)} {c : UpgradeConn}
    (hlater : Refused upgrade_header connection_header later c c) :
    upgrade_request fuel upgrade_header connection_header registry c =
      let found := forward_list.seek (detects upgrade_header connection_header) (websocket_protocol env :: earlier) c
      some (found.1.elim ⟨[], true, found.2⟩ fun proto => upgrade_to proto found.2) := by
  rw [upgrade_request_eq hregistry hfuel, seek_refused hlater]

/-- A request that asks for a WebSocket connection, and that no protocol registered later takes. -/
theorem upgrade_message_accepts {later earlier : List (ProtocolInfo UpgradeConn)}
    {registry : Option (ProtocolRegistry UpgradeConn)}
    (hregistry : RegistryKeeps registry (later ++ websocket_protocol env :: earlier)) {fuel : Nat}
    (hfuel : 10 ≤ fuel) (hunused : Unused response) (hasks : AsksWebSocket request ws_key)
    (hlater : ∀ upgrade_header, uvhttp_request_get_header request (bytes "Upgrade") = some upgrade_header →
      Refused upgrade_header (uvhttp_request_get_header request (bytes "Connection")) later
        (upgrade_new request response) (upgrade_new request response)) :
    ∃ c, upgrade_message env fuel registry (upgrade_new request response) = some (false, c) ∧
      Upgraded env request ws_key c := by
  obtain ⟨upgrade_header, hupgrade, -⟩ := hasks.upgrade
  have hrequest : (upgrade_new request response).request = request := rfl
  generalize hnamed : { upgrade_new request response with protocol_name := bytes "websocket" } = named
  have huntouched : Untouched named := by
    rw [← hnamed]
    exact ⟨rfl, rfl, rfl, rfl, rfl, rfl⟩
  obtain ⟨code, c, hhandler, hupgraded, htable⟩ := @upgrade_handler_spec env request ws_key halloc hd hasks.ws_key
    named huntouched (by rw [← hnamed]; rfl) (by rw [← hnamed]; exact hunused) (by rw [← hnamed]; rfl)
  have hdetects := @detector_accepts env _ _ hasks _ hupgrade (upgrade_new request response) hrequest
  rw [hnamed] at hdetects
  have hcalled : (websocket_protocol env).handler (websocket_protocol env).user_data named = (code, c) := hhandler
  rw [upgrade_message, hrequest, hupgrade]
  dsimp only
  rw [dispatch_eq hregistry hfuel (hlater _ hupgrade), forward_list.seek, hdetects]
  simp only [Option.elim_some, upgrade_to, hcalled, Option.bind_eq_bind, Option.bind_some, List.foldl_cons,
    dispatch_event]
  by_cases hok : code = .OK
  · rw [if_pos hok]
    exact ⟨c, rfl, hupgraded⟩
  · rw [if_neg hok]
    exact ⟨_, rfl, hupgraded.answer htable _⟩

omit halloc hd in
/-- A request that does not, and that no other protocol takes. -/
theorem upgrade_message_routes {later earlier : List (ProtocolInfo UpgradeConn)}
    {registry : Option (ProtocolRegistry UpgradeConn)}
    (hregistry : RegistryKeeps registry (later ++ websocket_protocol env :: earlier)) {fuel : Nat}
    (hfuel : 10 ≤ fuel) (hasks : ¬∃ ws_key, AsksWebSocket request ws_key)
    (hothers : ∀ upgrade_header, uvhttp_request_get_header request (bytes "Upgrade") = some upgrade_header →
      ∀ infos ∈ [later, earlier], Refused upgrade_header (uvhttp_request_get_header request (bytes "Connection")) infos
        (upgrade_new request response) (upgrade_new request response)) :
    upgrade_message env fuel registry (upgrade_new request response) = some (true, upgrade_new request response) := by
  have hrequest : (upgrade_new request response).request = request := rfl
  rw [upgrade_message, hrequest]
  cases hupgrade : uvhttp_request_get_header request (bytes "Upgrade") with
  | none => rfl
  | some upgrade_header =>
    have hdetects := @detector_refuses env _ hasks _ hupgrade (upgrade_new request response) hrequest
    have hrest := seek_refused (hothers upgrade_header hupgrade earlier (by simp)) []
    rw [List.append_nil] at hrest
    dsimp only
    rw [dispatch_eq hregistry hfuel (hothers upgrade_header hupgrade later (by simp)), forward_list.seek, hdetects]
    dsimp only
    rw [hrest]
    rfl

end upgrade

section client

/-- Text that the parser delivers in one piece. -/
def one_span (text : List UInt8) : Spans := ⟨[text], List.cons_ne_nil _ _⟩

/-- The text of a request on the wire. -/
def request_text (method : List UInt8) (r : SpannedRequest) : List UInt8 :=
  method ++ bytes " " ++ r.url.whole ++ bytes " HTTP/1.1\r\n" ++
    (r.headers.flatMap fun h => h.field.whole ++ bytes ": " ++ h.value.whole ++ bytes "\r\n") ++ bytes "\r\n" ++
    r.body.flatten

/-- The request of `uvhttp_ws_handshake_client` as llhttp delivers it when it comes in one
read: for a path and a host without spaces and control characters, which it takes as
they stand. -/
def client_message (path host key : List UInt8) : SpannedRequest where
  method := .HTTP_GET
  url := one_span path
  headers := [
    ⟨one_span (bytes "Host"), one_span host⟩,
    ⟨one_span (bytes "Upgrade"), one_span (bytes "websocket")⟩,
    ⟨one_span (bytes "Connection"), one_span (bytes "Upgrade")⟩,
    ⟨one_span HEADER_WEBSOCKET_KEY, one_span key⟩,
    ⟨one_span (bytes "Sec-WebSocket-Version"), one_span (bytes "13")⟩]
  body := []

theorem client_message_text (path host key : List UInt8) :
    request_text (bytes "GET") (client_message path host key) = handshake_request path host key := by
  have hget : bytes "GET " = bytes "GET" ++ bytes " " := by decide
  have hhost : bytes "Host: " = bytes "Host" ++ bytes ": " := by decide
  have hupgrade : bytes "Upgrade: websocket\r\n" =
      bytes "Upgrade" ++ bytes ": " ++ bytes "websocket" ++ bytes "\r\n" := by decide
  have hconnection : bytes "Connection: Upgrade\r\n" =
      bytes "Connection" ++ bytes ": " ++ bytes "Upgrade" ++ bytes "\r\n" := by decide
  have hkey : bytes "Sec-WebSocket-Key: " = HEADER_WEBSOCKET_KEY ++ bytes ": " := by decide
  have hversion : bytes "Sec-WebSocket-Version: 13\r\n" =
      bytes "Sec-WebSocket-Version" ++ bytes ": " ++ bytes "13" ++ bytes "\r\n" := by decide +kernel
  rw [handshake_request, hget, hhost, hupgrade, hconnection, hkey, hversion]
  simp only [request_text, client_message, one_span, Spans.whole, List.flatten_cons, List.flatten_nil,
    List.append_nil, List.flatMap_cons, List.flatMap_nil, List.append_assoc]

/-- Callbacks before the end of the message dispatch nothing. -/
theorem execute_quiet {alloc : Nat → Bool} {callbacks : List ParserCallback}
    (hquiet : ∀ cb ∈ callbacks, ∀ method, cb ≠ .message_complete method) (c : HttpParsing) :
    (execute alloc c callbacks).2 = [] := by
  induction callbacks generalizing c with
  | nil => rfl
  | cons cb callbacks ih =>
    have hfirst : (callback alloc c cb).2 = [] := by
      cases cb with
      | message_complete method => exact absurd rfl (hquiet _ List.mem_cons_self method)
      | _ => rfl
    have hlater := fun c => ih (fun cb hcb => hquiet cb (List.mem_cons_of_mem _ hcb)) c
    rcases hcb : callback alloc c cb with ⟨next, seen⟩
    rw [hcb] at hfirst
    obtain rfl : seen = [] := hfirst
    cases next with
    | none => rw [execute_cons_none hcb]
    | some next => rw [execute_cons hcb, hlater next, List.nil_append]

/-- The request that has been dispatched is the one that the connection holds. -/
theorem execute_seen {alloc : Nat → Bool} {c c' : HttpParsing} {r : SpannedRequest} {seen : Seen}
    (h : execute alloc c r.callbacks = (some c', [seen])) : c'.request.seen = seen := by
  have hsplit : r.callbacks = (.message_begin :: (r.url.list.map .url ++ (r.headers.flatMap SpannedHeader.callbacks ++
      r.body.map .body))) ++ [.message_complete r.method] := by
    simp only [SpannedRequest.callbacks, List.cons_append, List.append_assoc]
  have hquiet : ∀ cb ∈ (ParserCallback.message_begin :: (r.url.list.map .url ++
      (r.headers.flatMap SpannedHeader.callbacks ++ r.body.map .body))), ∀ method, cb ≠ .message_complete method := by
    rintro cb hcb method rfl
    simp [SpannedHeader.callbacks] at hcb
  have hnothing := @execute_quiet alloc _ hquiet c
  rw [hsplit] at h
  rcases hfront : execute alloc c (.message_begin :: (r.url.list.map .url ++
      (r.headers.flatMap SpannedHeader.callbacks ++ r.body.map .body))) with ⟨mid, first⟩
  rw [hfront] at hnothing
  obtain rfl : first = [] := hnothing
  cases mid with
  | none =>
    rw [execute_append_none hfront] at h
    cases h
  | some mid =>
    rw [execute_append hfront, execute, callback, on_message_complete] at h
    split_ifs at h with hcomplete
    · cases h
    · cases h
      rfl

/-- A visible character of ASCII. -/
def Visible (c : UInt8) : Prop := 33 ≤ c ∧ c ≤ 126

instance (c : UInt8) : Decidable (Visible c) := inferInstanceAs (Decidable (_ ∧ _))

/-- What the client gives for path and host: a path from the root on and a host, both of visible
characters and within the limits of the server. -/
structure ClientArguments (path host : List UInt8) : Prop where
  path_head : path.head? = some 47
  path_visible : ∀ c ∈ path, Visible c
  path_length : path.length < MAX_URL_LEN
  host_ne_nil : host ≠ []
  host_visible : ∀ c ∈ host, Visible c
  host_length : host.length < UVHTTP_MAX_HEADER_VALUE_SIZE

theorem ClientArguments.path_ne_nil {path host : List UInt8} (h : ClientArguments path host) : path ≠ [] := by
  rintro rfl
  cases h.path_head

theorem ClientArguments.path_nul_free {path host : List UInt8} (h : ClientArguments path host) : 0 ∉ path := by
  intro hzero
  exact absurd (h.path_visible 0 hzero) (by decide)

theorem base64_nul_free {key : List UInt8} (hchars : key.all base64_char = true) : cstr key = key := by
  refine header_store.cstr_of_nul_free fun hzero => ?_
  exact absurd (List.all_eq_true.mp hchars 0 hzero) (by decide)

variable {path host key : List UInt8}

/-- The server accepts every part of the request. -/
theorem client_message_accepted (h : ClientArguments path host) (hkey : key.length < UVHTTP_MAX_HEADER_VALUE_SIZE)
    (body_capacity : Nat) : (client_message path host key).SpansWithinLimits 0 body_capacity 0 where
  url := by
    intro span hspan
    obtain rfl := List.mem_singleton.mp hspan
    exact h.path_length
  headers := show 0 + 5 ≤ UVHTTP_MAX_HEADERS by decide
  header := by
    intro header hheader
    simp only [client_message, List.mem_cons, List.not_mem_nil, or_false] at hheader
    rcases hheader with rfl | rfl | rfl | rfl | rfl
    · exact ⟨by simp [one_span]; decide, show bytes "Host" ≠ [] by decide, host, rfl, h.host_length⟩
    · exact ⟨by simp [one_span]; decide, by decide, bytes "websocket", rfl, by decide⟩
    · exact ⟨by simp [one_span]; decide, by decide, bytes "Upgrade", rfl, by decide⟩
    · exact ⟨by simp [one_span]; decide, show HEADER_WEBSOCKET_KEY ≠ [] by decide, key, rfl, hkey⟩
    · exact ⟨by simp [one_span]; decide, by decide, bytes "13", rfl, by decide⟩
  body := rfl

/-- The request that the server holds then asks for a WebSocket connection. -/
theorem client_message_asks {request : Request} (hchars : key.all base64_char = true) (hkey : key.length ≤ 63)
    (hheaders : request.headers = (client_message path host key).stored_headers) : AsksWebSocket request key := by
  have hstored : stored_header HEADER_WEBSOCKET_KEY key = ⟨HEADER_WEBSOCKET_KEY, key⟩ := by
    have hwhole : key.length ≤ UVHTTP_HEADER_VALUE_BUFFER_SIZE - 1 := Nat.le_trans hkey (by decide)
    rw [stored_header, base64_nul_free hchars, List.take_of_length_le hwhole]
    rfl
  have hlist : request.headers = [stored_header (bytes "Host") host,
      ⟨bytes "Upgrade", bytes "websocket"⟩, ⟨bytes "Connection", bytes "Upgrade"⟩, ⟨HEADER_WEBSOCKET_KEY, key⟩,
      ⟨bytes "Sec-WebSocket-Version", bytes "13"⟩] := by
    rw [hheaders, ← hstored]
    rfl
  have hname : (stored_header (bytes "Host") host).name = bytes "Host" := rfl
  refine ⟨⟨bytes "websocket", ?_, by decide⟩, ⟨bytes "Upgrade", ?_, by decide⟩, ?_⟩
  · rw [uvhttp_request_get_header, hlist]
    rfl
  · rw [uvhttp_request_get_header, hlist]
    rfl
  · rw [uvhttp_request_get_header, hlist]
    rfl

/-- The client finds the accept value in the response to an upgrade. -/
theorem extract_upgrade {accept behind : List UInt8} (hchars : accept.all base64_char = true)
    (hlength : accept.length ≤ 63) :
    extract_value (upgrade_response accept) behind HEADER_WEBSOCKET_ACCEPT = some accept := by
  have hname : HEADER_WEBSOCKET_ACCEPT ≠ [] := by decide
  have hfront : bytes "HTTP/1.1 101 Switching Protocols\r\nUpgrade: websocket\r\nConnection: Upgrade\r\n" =
      bytes "HTTP/1.1 101 Switching Protocols\r\nUpgrade: websocket\r\nConnection: Upgrade\r" ++ [10] := by
    decide +kernel
  have hback : bytes "\r\nContent-Type: text/plain\r\nContent-Length: 0\r\n\r\n" =
      13 :: bytes "\nContent-Type: text/plain\r\nContent-Length: 0\r\n\r\n" := by decide +kernel
  have hcolon : bytes ": " = [58, 32] := by decide
  have hsplit : upgrade_response accept =
      bytes "HTTP/1.1 101 Switching Protocols\r\nUpgrade: websocket\r\nConnection: Upgrade\r" ++ 10 ::
        (HEADER_WEBSOCKET_ACCEPT ++ 58 :: 32 :: (accept ++ 13 ::
          bytes "\nContent-Type: text/plain\r\nContent-Length: 0\r\n\r\n")) := by
    rw [upgrade_response, hfront, hback, hcolon]
    simp only [List.append_assoc, List.cons_append, List.nil_append]
  apply extract_line hname ?_ hchars hlength
  · exact bytes "\nContent-Type: text/plain\r\nContent-Length: 0\r\n\r\n"
  · rw [hsplit, find_skip (by decide) hname (by decide +kernel)]
    exact find_here rfl hname _

/-- The client accepts the response to its own key. -/
theorem verify_upgrade {d : Digest} (hd : d.Documented) {raw_key : List UInt8} (hraw : raw_key.length = 16)
    {client : HandshakeConnection} (hclient : client.client_key = (d.base64_encode raw_key).take 63)
    (behind : List UInt8) {response_len : Nat} (hpresent : response_len ≠ 0) :
    uvhttp_ws_verify_handshake_response d client
      (upgrade_response (uvhttp_ws_generate_accept d (d.base64_encode raw_key))) behind response_len =
        (.OK, { client with state := .OPEN }) := by
  have haccept := generate_accept_key hd hraw
  have hstatus : ∀ rest, (bytes "HTTP/1.1 101 Switching Protocols\r\nUpgrade: websocket\r\nConnection: Upgrade\r\n" ++
      rest).take 12 = bytes "HTTP/1.1 101" := fun _ => rfl
  have hupgrade : ∀ accept, (uvhttp_ws_strcasestr (upgrade_response accept) (bytes "Upgrade: websocket")).isNone =
      false := by
    intro accept
    have hname : bytes "Upgrade: websocket" ≠ [] := by decide
    have hfront : bytes "HTTP/1.1 101 Switching Protocols\r\nUpgrade: websocket\r\nConnection: Upgrade\r\n" =
        bytes "HTTP/1.1 101 Switching Protocols\r" ++ 10 :: (bytes "Upgrade: websocket" ++
          bytes "\r\nConnection: Upgrade\r\n") := by decide +kernel
    rw [uvhttp_ws_strcasestr, if_neg hname, upgrade_response, hfront]
    simp only [List.append_assoc, List.cons_append]
    rw [find_skip (by decide) hname (by decide +kernel), find_here rfl hname]
    rfl
  have hextract := @extract_upgrade _ behind (hd.base64_chars (d.sha1 ((d.base64_encode raw_key ++ WS_GUID).take 255)))
    (Nat.le_trans (Nat.le_of_eq (generate_accept_length hd (d.base64_encode raw_key))) (by decide))
  change extract_value (upgrade_response (uvhttp_ws_generate_accept d (d.base64_encode raw_key))) _ _ =
    some (uvhttp_ws_generate_accept d (d.base64_encode raw_key)) at hextract
  rw [uvhttp_ws_verify_handshake_response, if_neg hpresent, if_neg, if_neg (by rw [hupgrade]; simp), hextract]
  · dsimp only
    rw [hclient, expected_eq hd hraw, haccept, if_neg (fun h => h.2 rfl)]
  · rw [upgrade_response]
    simp only [List.append_assoc]
    rw [hstatus]
    exact not_not_intro rfl

end client

/-- A protocol with another token refuses. -/
theorem refused_of_tokens {σ : Type} {upgrade_header : List UInt8} {connection_header : Option (List UInt8)}
    {infos : List (ProtocolInfo σ)} (h : ∀ info ∈ infos, ¬info.TokenFits upgrade_header) (s : σ) :
    Refused upgrade_header connection_header infos s s := by
  induction infos with
  | nil => rfl
  | cons info infos ih =>
    exact .inl ⟨h info List.mem_cons_self, ih fun info hinfo => h info (List.mem_cons_of_mem _ hinfo)⟩

/-- On a new server, the registration of the WebSocket protocol is its registry. -/
theorem register_websocket (env : UpgradeEnv) {fuel : Nat} {info_alloc : Allocator (ProtocolInfo UpgradeConn)} {p : Nat}
    (halloc : info_alloc.alloc (fun _ => none) = some p) :
    ∃ registry, uvhttp_server_register_protocol_upgrade fuel none (websocket_upgrade env true info_alloc) =
        some (.OK, registry) ∧
      RegistryKeeps registry [websocket_protocol env] := by
  refine ⟨some ⟨registry_new.protocols.push p (websocket_protocol env), 1⟩, ?_, ⟨?_, rfl⟩, List.pairwise_singleton _ _,
    Nat.le_of_ble_eq_true rfl⟩
  · have hfind : ∀ found : ProtocolInfo UpgradeConn → Bool,
        (registry_new : ProtocolRegistry UpgradeConn).protocols.find found fuel registry_new.protocols.head =
          some none := fun found => empty_represents.find found (Nat.zero_le _)
    have hgranted : info_alloc.alloc (registry_new : ProtocolRegistry UpgradeConn).protocols.cells = some p := halloc
    unfold uvhttp_server_register_protocol_upgrade
    rw [websocket_upgrade]
    dsimp only
    rw [if_neg (by decide), if_neg (by decide), if_neg (by decide), register_in]
    simp only [Option.getD_none, hfind, Option.bind_eq_bind, Option.bind_some, hgranted]
    rfl
  · exact empty_represents.push rfl _

/-- A server with a chat room that is full, on a system where nothing fails. -/
def sample_env : UpgradeEnv where
  alloc := fun _ => true
  uv_write := fun _ => true
  uv_fileno := true
  uv_read_start := true
  digest := sample_digest
  ws_conn_alloc := true
  wrapper_alloc := true
  stale := fun _ => 0
  context := true
  max_frame_size := 65536
  max_message_size := 1048576
  ws_routes := uvhttp_server_register_ws_handler
    (uvhttp_server_register_ws_handler [] (bytes "/chat") ⟨⟨true, true⟩, some true⟩) (bytes "/full")
    ⟨⟨true, true⟩, some false⟩

/-- A request for the chat room. -/
def sample_request : Request :=
  { uvhttp_request_init with
    url := bytes "/chat"
    headers := [⟨bytes "upgrade", bytes "WebSocket"⟩, ⟨bytes "Connection", bytes "keep-alive, Upgrade"⟩,
      ⟨HEADER_WEBSOCKET_KEY, base64 (bytes "the sample nonce")⟩] }

end uvhttp.ws_upgrade
