import Uvhttp.Basic
import Uvhttp.Lib.Machine

namespace uvhttp.sendfile

def UVHTTP_SENDFILE_MIN_FILE_SIZE : Nat := 64 * 1024
def UVHTTP_FILE_SIZE_SMALL : Nat := 1024 * 1024
def UVHTTP_FILE_SIZE_MEDIUM : Nat := 10 * 1024 * 1024
def UVHTTP_CHUNK_SIZE_SMALL : Nat := 64 * 1024
def UVHTTP_CHUNK_SIZE_LARGE : Nat := 1024 * 1024
def SENDFILE_DEFAULT_CHUNK_SIZE : Nat := 256 * 1024
def SENDFILE_DEFAULT_MAX_RETRY : Nat := 2

/-- A `uv_timer_t`: zeroed memory, initialised (and possibly running), given to
`uv_close`, or taken off the loop by its closing phase. -/
inductive TimerHandle where
  | zeroed
  | open (active : Bool)
  | closing
  | closed
  deriving DecidableEq, Repr

def uv_is_closing : TimerHandle → Bool
  | .closing | .closed => true
  | .zeroed | .open _ => false

/-- The `result` of a `uv_fs_sendfile` request. -/
inductive SendfileResult where
  | sent (count : Nat)
  | UV_EAGAIN
  | UV_EINTR
  | failed
  deriving DecidableEq, Repr

/-- `sendfile_context_t`, the fields that its callbacks read. -/
structure SendfileContext where
  file_size : Nat
  chunk_size : Nat
  max_retry : Nat
  bytes_sent : Nat
  offset : Nat
  retry_count : Nat
  completed : Bool
  cork_enabled : Bool
  timeout_timer : TimerHandle
  deriving DecidableEq, Repr

/-- The parameters of a configuration that `init_sendfile_config` reads. -/
structure SendfileConfig where
  max_retry : Int
  chunk_size : Nat
  deriving DecidableEq, Repr

/-- `init_sendfile_config`, on a context of which only the size is set. The
configuration may be NULL. -/
def init_sendfile_config (file_size : Nat) (config : Option SendfileConfig) : SendfileContext where
  file_size
  chunk_size :=
    match config with
    | some config => if config.chunk_size > 0 then config.chunk_size else default_chunk_size
    | none => default_chunk_size
  max_retry :=
    match config with
    | some config => if config.max_retry > 0 then config.max_retry.toNat else SENDFILE_DEFAULT_MAX_RETRY
    | none => SENDFILE_DEFAULT_MAX_RETRY
  bytes_sent := 0
  offset := 0
  retry_count := 0
  completed := false
  cork_enabled := false
  timeout_timer := .zeroed
where
  default_chunk_size : Nat :=
    if file_size < UVHTTP_FILE_SIZE_SMALL then UVHTTP_CHUNK_SIZE_SMALL
    else if file_size < UVHTTP_FILE_SIZE_MEDIUM then SENDFILE_DEFAULT_CHUNK_SIZE
    else UVHTTP_CHUNK_SIZE_LARGE

/-- A part of the file that a `uv_fs_sendfile` request asks for. -/
structure SendfileRequest where
  offset : Nat
  length : Nat
  deriving DecidableEq, Repr

/-- A context with the requests that libuv holds for it: the sendfile request that
has not completed yet, the close requests, how often the input file was given to
`uv_fs_close`, and how often the context was freed. `dangling` is set when a
callback reads the context after that. -/
structure Transfer where
  context : SendfileContext
  sendfile_req : Option SendfileRequest
  close_reqs : Nat
  fd_closes : Nat
  frees : Nat
  dangling : Bool
  deriving DecidableEq, Repr

section callbacks

/-- `uv_timer_stop` and `uv_close`, unless the handle is closing already. -/
def close_timer (c : SendfileContext) : SendfileContext :=
  if uv_is_closing c.timeout_timer then c else { c with timeout_timer := .closing }

/-- `uv_fs_close` with `on_file_close`. -/
def uv_fs_close (t : Transfer) : Transfer :=
  { t with close_reqs := t.close_reqs + 1, fd_closes := t.fd_closes + 1 }

/-- The request for what remains, at most a chunk. -/
def next_request (c : SendfileContext) : SendfileRequest where
  offset := c.offset
  length :=
    let remaining := c.file_size - c.offset
    if remaining > c.chunk_size then c.chunk_size else remaining

/-- `uv_fs_sendfile` for what remains. When libuv refuses it, the file is closed. -/
def resend (accepted : Bool) (t : Transfer) : Transfer :=
  if accepted then { t with sendfile_req := some (next_request t.context) } else uv_fs_close t

/-- `uv_timer_start`, unless the handle is closing. -/
def restart_timer (c : SendfileContext) : SendfileContext :=
  if uv_is_closing c.timeout_timer then c else { c with timeout_timer := .open true }

/-- The error branch of `on_sendfile_complete`. -/
def sendfile_error (retriable accepted : Bool) (t : Transfer) : Transfer :=
  if t.context.retry_count < t.context.max_retry ∧ retriable then
    resend accepted { t with context := { t.context with retry_count := t.context.retry_count + 1 } }
  else uv_fs_close t

/-- The branch of `on_sendfile_complete` for bytes that were sent. -/
def sendfile_progress (count : Nat) (accepted : Bool) (t : Transfer) : Transfer :=
  let c := { t.context with
    bytes_sent := t.context.bytes_sent + count
    offset := t.context.offset + count }
  if c.offset ≥ c.file_size then
    uv_fs_close { t with context := { close_timer c with completed := true, cork_enabled := false } }
  else
    let t := resend accepted { t with context := c }
    if accepted then { t with context := restart_timer t.context } else t

/-- `on_sendfile_complete`, of a request that is not outstanding any more.
`accepted` is the answer to the next `uv_fs_sendfile`, if there is one. -/
def on_sendfile_complete (result : SendfileResult) (accepted : Bool) (t : Transfer) : Transfer :=
  let t := { t with sendfile_req := none }
  if 0 < t.frees then { t with dangling := true }
  else if t.context.completed then t
  else
    let t := { t with context := close_timer t.context }
    match result with
    | .sent count => sendfile_progress count accepted t
    | .UV_EAGAIN | .UV_EINTR => sendfile_error true accepted t
    | .failed => sendfile_error false accepted t

/-- `on_sendfile_timeout`. The timer does not repeat. -/
def on_sendfile_timeout (t : Transfer) : Transfer :=
  if 0 < t.frees then { t with dangling := true }
  else if t.context.completed then { t with context := { t.context with timeout_timer := .open false } }
  else uv_fs_close { t with context := { t.context with completed := true, timeout_timer := .closing } }

/-- `on_file_close`. -/
def on_file_close (t : Transfer) : Transfer :=
  { t with close_reqs := t.close_reqs - 1, frees := t.frees + 1 }

end callbacks

/-- How far `uvhttp_static_sendfile_with_config` comes once the file is open: the
headers could not be built or sent, `uv_timer_init` failed, `uv_fs_sendfile` refused
the first request, or it took it. -/
inductive Opening where
  | headers_failed
  | timer_failed
  | sendfile_failed
  | accepted
  deriving DecidableEq, Repr

/-- The context and the requests that `uvhttp_static_sendfile_with_config` leaves. -/
def start (file_size : Nat) (config : Option SendfileConfig) (opening : Opening) : Transfer :=
  let c := init_sendfile_config file_size config
  let idle := fun c : SendfileContext => (⟨c, none, 0, 0, 0, false⟩ : Transfer)
  match opening with
  | .headers_failed => uv_fs_close (idle c)
  | .timer_failed => { idle { c with cork_enabled := true } with frees := 1 }
  | .sendfile_failed => uv_fs_close (idle { c with cork_enabled := true, timeout_timer := .closing })
  | .accepted =>
    { idle { c with cork_enabled := true, timeout_timer := .open true } with
      sendfile_req := some ⟨0, c.chunk_size⟩ }

section events

/-- What the loop can do next for a transfer. -/
inductive Event where
  | sendfile_complete (result : SendfileResult) (accepted : Bool)
  | sendfile_timeout
  | file_close
  | closing_phase
  deriving DecidableEq, Repr

/-- libuv completes what is outstanding, fires a timer that runs, and closes a
handle that is closing. -/
def Event.Possible (t : Transfer) : Event → Prop
  | .sendfile_complete _ _ => t.sendfile_req.isSome
  | .sendfile_timeout => t.context.timeout_timer = .open true
  | .file_close => 0 < t.close_reqs
  | .closing_phase => t.context.timeout_timer = .closing

instance (t : Transfer) : (event : Event) → Decidable (event.Possible t)
  | .sendfile_complete _ _ => inferInstanceAs (Decidable (t.sendfile_req.isSome = true))
  | .sendfile_timeout => inferInstanceAs (Decidable (t.context.timeout_timer = .open true))
  | .file_close => inferInstanceAs (Decidable (0 < t.close_reqs))
  | .closing_phase => inferInstanceAs (Decidable (t.context.timeout_timer = .closing))

def step (t : Transfer) : Event → Transfer × Unit
  | .sendfile_complete result accepted => (on_sendfile_complete result accepted t, ())
  | .sendfile_timeout => (on_sendfile_timeout t, ())
  | .file_close => (on_file_close t, ())
  | .closing_phase => ({ t with context := { t.context with timeout_timer := .closed } }, ())

/-- Every event of a sequence is possible when it comes. -/
def Possible (t : Transfer) (events : List Event) : Prop := machine.Enabled step (fun t e => e.Possible t) t events

instance (t : Transfer) (events : List Event) : Decidable (Possible t events) :=
  inferInstanceAs (Decidable (machine.Enabled step (fun t e => Event.Possible t e) t events))

end events

end uvhttp.sendfile
