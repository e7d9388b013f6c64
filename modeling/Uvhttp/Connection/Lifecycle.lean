import Uvhttp.Basic

namespace uvhttp.connection

/-- `uvhttp_connection_state_t`. -/
inductive ConnState where
  | NEW
  | TLS_HANDSHAKE
  | HTTP_READING
  | HTTP_PROCESSING
  | HTTP_WRITING
  | PROTOCOL_UPGRADED
  | CLOSING
  deriving DecidableEq, Repr

/-- The libuv handles of a connection. -/
inductive Handle where
  | idle_handle
  | timeout_timer
  | tcp_handle
  deriving DecidableEq, Repr

/-- All of them, in the order in which they are closed. -/
def all_handles : List Handle := [.idle_handle, .timeout_timer, .tcp_handle]

/-- A handle as libuv sees it: `uv_close` makes an active one closing, and it is
closed when its close callback runs. `uv_is_closing` holds of the last two. -/
inductive HandleStatus where
  | active
  | closing
  | closed
  deriving DecidableEq, Repr

/-- What `mbedtls_ssl_handshake` answers. -/
inductive Handshake where
  | completed
  | in_progress
  | failed
  deriving DecidableEq, Repr

/-- What can happen to a connection between two close callbacks, with the
answers of libuv and of the TLS library that decide its course. `on_read_error`
stands for all the branches of `on_read` that end in a close. -/
inductive Call where
  | uvhttp_connection_close
  | uvhttp_connection_free
  | uvhttp_connection_websocket_close
  | uvhttp_connection_start (uv_read_start : Bool) (tls : Option Handshake)
  | uvhttp_connection_restart_read (uv_read_start : Bool)
  | uvhttp_connection_schedule_restart_read (uv_idle_start : Bool)
  | uvhttp_connection_switch_to_websocket (uv_read_start : Bool)
  | uvhttp_connection_transfer_ownership (uv_fileno : Bool)
  | connection_timeout_cb
  | on_idle_restart_read (uv_read_start : Bool)
  | on_read_error
  | on_read_handshake (handshake : Handshake)
  deriving DecidableEq, Repr

/-- `uvhttp_connection_t`, as far as its life and death go, with libuv's view of
its handles. `on_destroy` are the calls that the embedder's hook makes on the
connection, `none` for a NULL pointer. -/
structure Conn where
  state : ConnState
  close_pending : Int
  freed : Bool
  on_destroy : Option (List Call)
  handles : Handle → HandleStatus

/-- A connection as `uvhttp_connection_new` returns it. -/
def connection_new : Conn where
  state := .NEW
  close_pending := 0
  freed := false
  on_destroy := none
  handles := fun _ => .active

/-- What a call does outside the connection: it passes a handle to `uv_close`,
runs the body of `uvhttp_connection_free_resources`, or counts the connection
off in `active_connections`. -/
inductive Effect where
  | uv_close (handle : Handle)
  | free_resources
  | decrement_active
  deriving DecidableEq, Repr

/-- `uv_is_closing`. -/
def uv_is_closing (c : Conn) (handle : Handle) : Bool := c.handles handle ≠ .active

/-- Whether `uv_read_start` succeeds, which it never does on a closing stream. -/
def read_starts (c : Conn) (uv_read_start : Bool) : Bool := uv_read_start && !uv_is_closing c .tcp_handle

/-- Pass a handle to `uv_close`, unless it is closing, and count it. -/
def close_handle (c : Conn) (handle : Handle) : Conn × List Effect :=
  if uv_is_closing c handle then (c, [])
  else ({ c with
    handles := Function.update c.handles handle .closing
    close_pending := c.close_pending + 1 }, [.uv_close handle])

/-- The body of `uvhttp_connection_free_resources`, after the embedder's hook. -/
def free_body (c : Conn) : Conn × List Effect := ({ c with freed := true }, [.free_resources])

section calls

variable (free_resources : Conn → Conn × List Effect)

/-- `uvhttp_connection_close`. -/
def uvhttp_connection_close (c : Conn) : Conn × List Effect :=
  if c.state = .CLOSING ∧ c.close_pending > 0 then (c, [])
  else
    let start : Conn := { c with state := .CLOSING, close_pending := 0 }
    let idle := close_handle start .idle_handle
    let timer := close_handle idle.1 .timeout_timer
    let tcp := close_handle timer.1 .tcp_handle
    let already_closing := all_handles.countP (uv_is_closing c)
    if tcp.1.close_pending = 0 ∧ already_closing = 0 then
      let freed := free_resources tcp.1
      (freed.1, idle.2 ++ timer.2 ++ tcp.2 ++ freed.2)
    else (tcp.1, idle.2 ++ timer.2 ++ tcp.2)

/-- `uvhttp_connection_free`. -/
def uvhttp_connection_free (c : Conn) : Conn × List Effect :=
  if c.freed then (c, [])
  else if c.close_pending > 0 then (c, [])
  else uvhttp_connection_close free_resources c

/-- `uvhttp_connection_start`: whether it succeeds, and what it does. -/
def uvhttp_connection_start (c : Conn) (uv_read_start : Bool) (tls : Option Handshake) :
    Bool × Conn × List Effect :=
  if !read_starts c uv_read_start then (false, uvhttp_connection_close free_resources c)
  else
    match tls with
    | none => (true, { c with state := .HTTP_READING }, [])
    | some .in_progress => (true, { c with state := .TLS_HANDSHAKE }, [])
    | some .failed => (false, uvhttp_connection_close free_resources { c with state := .TLS_HANDSHAKE })
    | some .completed => (true, { c with state := .HTTP_READING }, [])

/-- `uvhttp_connection_restart_read`, whose effect on the request and the
response is not repeated here. -/
def uvhttp_connection_restart_read (c : Conn) (uv_read_start : Bool) : Bool × Conn :=
  if c.state = .CLOSING then (false, c)
  else (read_starts c uv_read_start, { c with state := .HTTP_READING })

def on_idle_restart_read (c : Conn) (uv_read_start : Bool) : Conn × List Effect :=
  if c.state = .CLOSING then (c, [])
  else
    let restarted := uvhttp_connection_restart_read c uv_read_start
    if !restarted.1 then uvhttp_connection_close free_resources restarted.2 else (restarted.2, [])

def uvhttp_connection_switch_to_websocket (c : Conn) (uv_read_start : Bool) : Conn × List Effect :=
  if c.state = .CLOSING then (c, [])
  else
    let processing : Conn := { c with state := .HTTP_PROCESSING }
    if !read_starts c uv_read_start then uvhttp_connection_close free_resources processing else (processing, [])

def uvhttp_connection_transfer_ownership (c : Conn) (uv_fileno : Bool) : Conn :=
  if c.state ≠ .HTTP_PROCESSING then c
  else if !uv_fileno then c
  else { c with state := .PROTOCOL_UPGRADED }

/-- The part of `on_read` that goes on with a TLS handshake. -/
def on_read_handshake (c : Conn) (handshake : Handshake) : Conn × List Effect :=
  if c.state ≠ .TLS_HANDSHAKE then (c, [])
  else
    match handshake with
    | .in_progress => (c, [])
    | .failed => uvhttp_connection_close free_resources c
    | .completed => ({ c with state := .HTTP_READING }, [])

/-- One call. `uvhttp_connection_schedule_restart_read` only arms the idle
handle. -/
def perform (c : Conn) : Call → Conn × List Effect
  | .uvhttp_connection_close => uvhttp_connection_close free_resources c
  | .uvhttp_connection_free => uvhttp_connection_free free_resources c
  | .uvhttp_connection_websocket_close => uvhttp_connection_close free_resources c
  | .uvhttp_connection_start uv_read_start tls => (uvhttp_connection_start free_resources c uv_read_start tls).2
  | .uvhttp_connection_restart_read uv_read_start => ((uvhttp_connection_restart_read c uv_read_start).2, [])
  | .uvhttp_connection_schedule_restart_read _ => (c, [])
  | .uvhttp_connection_switch_to_websocket uv_read_start =>
    uvhttp_connection_switch_to_websocket free_resources c uv_read_start
  | .uvhttp_connection_transfer_ownership uv_fileno => (uvhttp_connection_transfer_ownership c uv_fileno, [])
  | .connection_timeout_cb => uvhttp_connection_close free_resources c
  | .on_idle_restart_read uv_read_start => on_idle_restart_read free_resources c uv_read_start
  | .on_read_error => uvhttp_connection_close free_resources c
  | .on_read_handshake handshake => on_read_handshake free_resources c handshake

/-- Several calls in a row. -/
def perform_all (c : Conn) : List Call → Conn × List Effect
  | [] => (c, [])
  | call :: calls =>
    let first := perform free_resources c call
    let rest := perform_all first.1 calls
    (rest.1, first.2 ++ rest.2)

end calls

/-- `uvhttp_connection_free_resources` when no hook is set, which is how the
calls of a running hook find it. -/
def free_resources_unhooked (c : Conn) : Conn × List Effect :=
  if c.freed then (c, []) else free_body c

/-- `uvhttp_connection_free_resources`. The hook runs first, once. -/
def uvhttp_connection_free_resources (c : Conn) : Conn × List Effect :=
  if c.freed then (c, [])
  else
    match c.on_destroy with
    | none => free_body c
    | some calls =>
      let hook := perform_all free_resources_unhooked { c with on_destroy := none } calls
      let body := free_body hook.1
      (body.1, hook.2 ++ body.2)

/-- `on_handle_close`. -/
def on_handle_close (c : Conn) : Conn × List Effect :=
  let counted : Conn := { c with close_pending := c.close_pending - 1 }
  if counted.close_pending = 0 then
    let freed := uvhttp_connection_free_resources counted
    (freed.1, .decrement_active :: freed.2)
  else (counted, [])

/-- Something happens to a connection: a call, the embedder setting its hook, or
libuv running the close callback of a handle. -/
inductive Event where
  | call (call : Call)
  | set_on_destroy (calls : List Call)
  | handle_closed (handle : Handle)
  deriving DecidableEq, Repr

/-- Calls are made on a connection that has not been freed, and libuv runs the
close callback of a handle once, after `uv_close`. -/
def Event.Possible (c : Conn) : Event → Prop
  | .handle_closed handle => c.handles handle = .closing
  | _ => c.freed = false

instance Event.decidablePossible (c : Conn) : (event : Event) → Decidable (event.Possible c)
  | .handle_closed handle => inferInstanceAs (Decidable (c.handles handle = .closing))
  | .call _ => inferInstanceAs (Decidable (c.freed = false))
  | .set_on_destroy _ => inferInstanceAs (Decidable (c.freed = false))

/-- One event. -/
def step (c : Conn) : Event → Conn × List Effect
  | .call call => perform uvhttp_connection_free_resources c call
  | .set_on_destroy calls => ({ c with on_destroy := some calls }, [])
  | .handle_closed handle => on_handle_close { c with handles := Function.update c.handles handle .closed }

end uvhttp.connection
