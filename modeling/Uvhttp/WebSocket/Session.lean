import Uvhttp.Lib.Machine
import Uvhttp.WebSocket.FrameLog
import Uvhttp.WebSocket.Sending

open incremental machine

namespace uvhttp.websocket

/-- The callbacks of a `uvhttp_ws_handler_t` that an open connection makes. -/
structure WsHandler where
  on_message : Bool
  on_close : Bool
  deriving DecidableEq, Repr

/-- A call made by `on_websocket_message` or `on_websocket_close`:
`uvhttp_server_ws_update_activity`, or a callback of the registered handler. -/
inductive RelayCall where
  | update_activity
  | on_message (opcode : UInt8) (data : List UInt8)
  | on_close
  deriving DecidableEq, Repr

/-- A return value of `mbedtls_ssl_read`. -/
inductive SslRead where
  | chunk (data : List UInt8)
  | empty
  | want
  | close_notify
  | failed
  deriving DecidableEq, Repr

/-- The parts of an upgraded connection that decide about its callbacks: the
WebSocket object, and whether its `user_data` still points to the wrapper. -/
structure Session where
  ws_connection : Option WsConnection
  wrapper : Bool

/-- What happens to an upgraded connection: a read that fails, reports the end of
the stream, or brings nothing, data on a plain connection, data on a TLS
connection with what `mbedtls_ssl_read` makes of it, and a call of
`uvhttp_connection_websocket_close`. -/
inductive SessionInput where
  | read_error
  | read_eof
  | read_nothing
  | read (data : List UInt8)
  | read_tls (results : List SslRead)
  | close
  deriving DecidableEq, Repr

/-- What a step shows: the frames it processes, and the calls of the internal callbacks. -/
structure SessionTrace where
  log : List LogEntry
  calls : List RelayCall
  deriving DecidableEq, Repr

/-- The callbacks that the handshake installs. What the handler does to the
connection is up to `env`, but for the fields that the server owns;
`on_websocket_close` clears `user_data`. -/
def server_env (env : WsEnv) : WsEnv :=
  { env with
    message_callback := fun ws_conn opcode data =>
      { env.message_callback ws_conn opcode data with
        on_message := ws_conn.on_message
        on_close := ws_conn.on_close
        user_data := ws_conn.user_data }
    close_callback := fun ws_conn code reason =>
      { env.close_callback ws_conn code reason with
        on_message := ws_conn.on_message
        on_close := ws_conn.on_close
        user_data := false } }

section session

variable (handler : Option WsHandler) (env : WsEnv)

/-- `on_websocket_message`. -/
def on_websocket_message (wrapper : Bool) (opcode : UInt8) (data : List UInt8) : List RelayCall :=
  if !wrapper then []
  else
    .update_activity :: match handler with
      | none => []
      | some handler => if handler.on_message then [.on_message opcode data] else []

/-- `on_websocket_close`. It releases the wrapper. -/
def on_websocket_close (wrapper : Bool) : Bool × List RelayCall :=
  if !wrapper then (wrapper, [])
  else
    (false, match handler with
      | none => []
      | some handler => if handler.on_close then [.on_close] else [])

/-- The internal callbacks that the receive loop makes, one after the other. -/
def relay (wrapper : Bool) : List WsEvent → Bool × List RelayCall
  | [] => (wrapper, [])
  | .on_message opcode data :: events =>
    let (left, calls) := relay wrapper events
    (left, on_websocket_message handler wrapper opcode data ++ calls)
  | .on_close _ _ :: events =>
    let (closed, first) := on_websocket_close handler wrapper
    let (left, calls) := relay closed events
    (left, first ++ calls)
  | .frame_sent _ :: events => relay wrapper events

/-- `uvhttp_connection_websocket_close`, without the manager and the handles. -/
def uvhttp_connection_websocket_close (s : Session) : Session × List RelayCall :=
  match s.ws_connection with
  | none => (s, [])
  | some ws_conn =>
    let (wrapper, calls) := if ws_conn.on_close then on_websocket_close handler s.wrapper else (s.wrapper, [])
    ({ ws_connection := none, wrapper }, calls)

/-- The end of `on_websocket_read`: a failed result closes the connection with code
1002. -/
def finish_read (result : UvhttpError) (ws_conn : WsConnection) (wrapper : Bool) : Session × List RelayCall :=
  if result ≠ .OK then
    let ws_conn := (uvhttp_ws_close (server_env env) ws_conn 1002 (some (bytes "protocol error"))).2.1
    uvhttp_connection_websocket_close handler { ws_connection := some ws_conn, wrapper }
  else ({ ws_connection := some ws_conn, wrapper }, [])

/-- The `mbedtls_ssl_read` loop of `on_websocket_read`, with what follows it. -/
def read_tls (ws_conn : WsConnection) (wrapper : Bool) : List SslRead → Session × SessionTrace
  | [] | .want :: _ | .empty :: _ => ({ ws_connection := some ws_conn, wrapper }, ⟨[], []⟩)
  | .close_notify :: _ =>
    let (s, calls) := uvhttp_connection_websocket_close handler { ws_connection := some ws_conn, wrapper }
    (s, ⟨[], calls⟩)
  | .failed :: _ =>
    let (s, calls) := uvhttp_connection_websocket_close handler { ws_connection := some ws_conn, wrapper }
    (s, ⟨[], calls⟩)
  | .chunk data :: results =>
    let (result, after, events) := uvhttp_ws_process_data (server_env env) ws_conn data
    let (left, first) := relay handler wrapper events
    let log := process_data_log (server_env env) ws_conn data
    if result ≠ .OK then
      let (s, calls) := finish_read handler env result after left
      (s, ⟨log, first ++ calls⟩)
    else
      let (s, later) := read_tls after left results
      (s, ⟨log ++ later.log, first ++ later.calls⟩)

/-- `on_websocket_read`, and the explicit close. -/
def session_step (s : Session) (input : SessionInput) : Session × SessionTrace :=
  match s.ws_connection with
  | none => (s, ⟨[], []⟩)
  | some ws_conn =>
    match input with
    | .read_error =>
      let (s, calls) := uvhttp_connection_websocket_close handler s
      (s, ⟨[], calls⟩)
    | .read_eof =>
      let (s, calls) := uvhttp_connection_websocket_close handler s
      (s, ⟨[], calls⟩)
    | .read_nothing => (s, ⟨[], []⟩)
    | .read data =>
      let (result, after, events) := uvhttp_ws_process_data (server_env env) ws_conn data
      let (left, first) := relay handler s.wrapper events
      let (s, calls) := finish_read handler env result after left
      (s, ⟨process_data_log (server_env env) ws_conn data, first ++ calls⟩)
    | .read_tls results => read_tls handler env ws_conn s.wrapper results
    | .close =>
      let (s, calls) := uvhttp_connection_websocket_close handler s
      (s, ⟨[], calls⟩)

end session

/-- The WebSocket object of a new session: `context` says whether the server has a
context. -/
def upgraded_connection (ssl context : Bool) (max_frame_size max_message_size : Int) (stale : Nat → UInt8) :
    WsConnection :=
  { uvhttp_ws_connection_create ssl true max_frame_size max_message_size stale with
    state := .OPEN
    on_message := true
    on_close := true
    user_data := context }

/-- A session as `uvhttp_connection_handle_websocket_handshake` leaves it. -/
def session_new (ssl context : Bool) (max_frame_size max_message_size : Int) (stale : Nat → UInt8) : Session where
  ws_connection := some (upgraded_connection ssl context max_frame_size max_message_size stale)
  wrapper := true

end uvhttp.websocket
