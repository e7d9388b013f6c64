import Uvhttp.WebSocket.Frame

namespace uvhttp.websocket

/-- `uvhttp_ws_state_t`. -/
inductive WsState where
  | CONNECTING
  | OPEN
  | CLOSING
  | CLOSED
  deriving DecidableEq, Repr

/-- `uvhttp_ws_connection_t`, with the limits of its configuration.
`recv_buffer` holds the `recv_buffer_pos` received bytes and `recv_stale` what
the allocation holds at the positions behind them. `fragmented_message` is
`none` for a NULL pointer and otherwise the `fragmented_size` bytes collected
so far. `user_data` says whether the connection is wired to a server context,
`on_message` and `on_close` whether the callbacks are set. `calls` counts the
calls made to allocator, transport and random generator. -/
structure WsConnection where
  state : WsState
  max_frame_size : Int
  max_message_size : Int
  ssl : Bool
  is_server : Bool
  recv_buffer : List UInt8
  recv_stale : Nat → UInt8
  recv_buffer_size : Nat
  fragmented_message : Option (List UInt8)
  fragmented_size : Nat
  fragmented_capacity : Nat
  fragmented_opcode : UInt8
  on_message : Bool
  on_close : Bool
  user_data : Bool
  bytes_sent : Nat
  frames_sent : Nat
  calls : Nat

/-- Callbacks made and frames handed to the transport. The reason of a close
callback is a C string: `none` when no NUL follows it inside the buffer. -/
inductive WsEvent where
  | on_message (opcode : UInt8) (data : List UInt8)
  | on_close (code : Nat) (reason : Option (List UInt8))
  | frame_sent (frame : List UInt8)
  deriving DecidableEq, Repr

/-- A return value of `mbedtls_ssl_write`. -/
inductive SslWrite where
  | wrote (count : Nat)
  | want
  | failed
  deriving DecidableEq, Repr

/-- The code outside the module: the allocator and what new memory holds, the
random generator, the two transports, each asked at the current call count,
and the effect of the registered callbacks on the connection. -/
structure WsEnv where
  alloc : Nat → Nat → Bool
  fresh : Nat → Nat → UInt8
  random : Nat → Option (List UInt8)
  ssl_write : Nat → Nat → SslWrite
  send : Nat → Nat → Option Nat
  message_callback : WsConnection → UInt8 → List UInt8 → WsConnection
  close_callback : WsConnection → Nat → Option (List UInt8) → WsConnection

/-- `uvhttp_ws_connection_create`, when its two allocations succeed. -/
def uvhttp_ws_connection_create (ssl is_server : Bool) (max_frame_size max_message_size : Int)
    (stale : Nat → UInt8) : WsConnection where
  state := .CONNECTING
  max_frame_size
  max_message_size
  ssl
  is_server
  recv_buffer := []
  recv_stale := stale
  recv_buffer_size := 64 * 1024
  fragmented_message := none
  fragmented_size := 0
  fragmented_capacity := 0
  fragmented_opcode := 0
  on_message := false
  on_close := false
  user_data := false
  bytes_sent := 0
  frames_sent := 0
  calls := 0

/-- The `mbedtls_ssl_write` loop of `uvhttp_ws_send_frame`: bytes sent and the
call count afterwards. -/
def ssl_write_loop (env : WsEnv) (frame_len sent want_retries calls : Nat) : Nat × Nat :=
  if sent < frame_len then
    match env.ssl_write calls (frame_len - sent) with
    | .wrote count =>
      if 0 < count then ssl_write_loop env frame_len (sent + count) 0 (calls + 1) else (sent, calls + 1)
    | .want =>
      if want_retries + 1 > 100 then (sent, calls + 1)
      else ssl_write_loop env frame_len sent (want_retries + 1) (calls + 1)
    | .failed => (sent, calls + 1)
  else (sent, calls)
termination_by (frame_len - sent, 101 - want_retries)

/-- Conversion of a byte count to `int`: it keeps the low 32 bits, as a signed
number. -/
def int (count : Nat) : Int := ((count + 2 ^ 31) % 2 ^ 32 : Nat) - 2 ^ 31

/-- `conn->bytes_sent += ret`. -/
def count_sent (bytes_sent : Nat) (ret : Int) : Nat := ((bytes_sent + ret) % 2 ^ 64).toNat

/-- `uvhttp_ws_send_frame`. A frame size that does not fit a `long` comes back
negative from `uvhttp_ws_build_frame`, and a byte count that does not fit an
`int` from `send` can. -/
def uvhttp_ws_send_frame (env : WsEnv) (conn : WsConnection) (data : List UInt8) (opcode : UInt8) :
    UvhttpError × WsConnection × List WsEvent :=
  if conn.state ≠ .OPEN then (.INVALID_PARAM, conn, [])
  else if data.length > SIZE_MAX - 14 then (.INVALID_PARAM, conn, [])
  else
    let buffer_size := 10 + data.length + 4
    let allocated := env.alloc conn.calls buffer_size
    let conn := { conn with calls := conn.calls + 1 }
    if !allocated then (.INVALID_PARAM, conn, [])
    else
      let random := env.random conn.calls
      let conn := { conn with calls := conn.calls + 1 }
      match uvhttp_ws_build_frame random buffer_size data opcode (!conn.is_server) true with
      | .error _ => (.INVALID_PARAM, conn, [])
      | .ok frame =>
        if frame.length ≥ 2 ^ 63 then (.INVALID_PARAM, conn, [])
        else if conn.ssl then
          let (sent, calls) := ssl_write_loop env frame.length 0 0 conn.calls
          let conn := { conn with calls }
          if sent = 0 then (.INVALID_PARAM, conn, [])
          else
            (.OK, { conn with
              bytes_sent := count_sent conn.bytes_sent (int sent)
              frames_sent := conn.frames_sent + 1 }, [.frame_sent (frame.take sent)])
        else
          match env.send conn.calls frame.length with
          | none => (.CONNECTION_BROKEN, { conn with calls := conn.calls + 1 }, [])
          | some sent =>
            if int sent < 0 then
              (.CONNECTION_BROKEN, { conn with calls := conn.calls + 1 }, [.frame_sent (frame.take sent)])
            else
              (.OK, { conn with
                calls := conn.calls + 1
                bytes_sent := count_sent conn.bytes_sent (int sent)
                frames_sent := conn.frames_sent + 1 }, [.frame_sent (frame.take sent)])

/-- `uvhttp_ws_send_pong`. -/
def uvhttp_ws_send_pong (env : WsEnv) (conn : WsConnection) (data : List UInt8) :
    UvhttpError × WsConnection × List WsEvent :=
  uvhttp_ws_send_frame env conn data OPCODE_PONG

/-- The loop that doubles a capacity until it holds `required` bytes; `none`
when the next doubling would overflow. The loop does not end for capacity 0,
which neither caller passes. -/
def double_until (required capacity : Nat) : Option Nat :=
  if capacity < required then
    if capacity > SIZE_MAX / 2 then none
    else if 0 < capacity then double_until required (capacity * 2)
    else none
  else some capacity
termination_by required - capacity

/-- The capacity `uvhttp_ws_fragment_append` grows to: exactly what the first
fragment needs, later the next doubling. -/
def fragment_capacity (required capacity : Nat) : Option Nat :=
  if capacity = 0 then some required else double_until required capacity

/-- `uvhttp_ws_fragment_append`. -/
def uvhttp_ws_fragment_append (env : WsEnv) (conn : WsConnection) (payload : List UInt8) :
    UvhttpError × WsConnection :=
  let max_message_size := size_t conn.max_message_size
  if max_message_size > 0 ∧ (conn.fragmented_size > max_message_size ∨
      payload.length > max_message_size - conn.fragmented_size) then (.INVALID_PARAM, conn)
  else if payload.length > conn.fragmented_capacity - conn.fragmented_size then
    match fragment_capacity (conn.fragmented_size + payload.length) conn.fragmented_capacity with
    | none => (.INVALID_PARAM, conn)
    | some new_capacity =>
      let allocated := env.alloc conn.calls new_capacity
      let conn := { conn with calls := conn.calls + 1 }
      if !allocated then (.INVALID_PARAM, conn)
      else (.OK, { conn with
        fragmented_message := some (conn.fragmented_message.getD [] ++ payload)
        fragmented_size := conn.fragmented_size + payload.length
        fragmented_capacity := new_capacity })
  else (.OK, { conn with
    fragmented_message := conn.fragmented_message.map (· ++ payload)
    fragmented_size := conn.fragmented_size + payload.length })

/-- The call of `on_message`, if one is set. -/
def deliver_message (env : WsEnv) (conn : WsConnection) (opcode : UInt8) (data : List UInt8) :
    WsConnection × List WsEvent :=
  if conn.on_message then (env.message_callback conn opcode data, [.on_message opcode data])
  else (conn, [])

/-- What one turn of the receive loop does: leave the loop, return
`UVHTTP_ERROR_INVALID_PARAM`, or go on with the next frame. -/
inductive FrameStep where
  | stop
  | fail (conn : WsConnection) (events : List WsEvent)
  | next (conn : WsConnection) (events : List WsEvent)

/-- The data-frame branch of the receive loop: the fragment state machine. -/
def process_data_frame (env : WsEnv) (conn : WsConnection) (header : FrameHeader)
    (payload : List UInt8) : FrameStep :=
  match conn.fragmented_message with
  | none =>
    if header.opcode = OPCODE_CONTINUATION then .fail conn []
    else if !header.fin then
      let conn := { conn with
        fragmented_opcode := header.opcode
        fragmented_size := 0
        fragmented_capacity := 0
        fragmented_message := none }
      match uvhttp_ws_fragment_append env conn payload with
      | (.OK, conn) => .next conn []
      | (_, conn) => .fail conn []
    else
      let (conn, events) := deliver_message env conn header.opcode payload
      .next conn events
  | some _ =>
    if header.opcode ≠ OPCODE_CONTINUATION then .fail conn []
    else
      match uvhttp_ws_fragment_append env conn payload with
      | (.OK, conn) =>
        if header.fin then
          let (conn, events) :=
            deliver_message env conn conn.fragmented_opcode (conn.fragmented_message.getD [])
          .next { conn with
            fragmented_message := none
            fragmented_size := 0
            fragmented_capacity := 0 } events
        else .next conn []
      | (_, conn) => .fail conn []

/-- The NUL-terminated string in the stale part of the buffer from `index`,
`count` bytes before the end of the allocation. -/
def stale_string (stale : Nat → UInt8) (index : Nat) : Nat → Option (List UInt8)
  | 0 => none
  | count + 1 =>
    if stale index = 0 then some []
    else (stale_string stale (index + 1) count).map (stale index :: ·)

/-- The NUL-terminated string that starts with the given received bytes and
runs on into the stale part of the buffer. -/
def read_string (conn : WsConnection) : List UInt8 → Option (List UInt8)
  | [] => stale_string conn.recv_stale conn.recv_buffer.length (conn.recv_buffer_size - conn.recv_buffer.length)
  | c :: rest => if c = 0 then some [] else (read_string conn rest).map (c :: ·)

/-- The call of `on_close`, if one is set. `following` are the received bytes
behind the frame, into which the reason string may run. -/
def deliver_close (env : WsEnv) (conn : WsConnection) (payload following : List UInt8) :
    WsConnection × List WsEvent :=
  let close_code := if 2 ≤ payload.length then be_value (payload.take 2) else 1000
  let close_reason := if 2 < payload.length then read_string conn (payload.drop 2 ++ following) else some []
  if conn.on_close then
    (env.close_callback conn close_code close_reason, [.on_close close_code close_reason])
  else (conn, [])

/-- The close frame sent back when the connection had a server context. -/
def echo_close (env : WsEnv) (srv_ctx : Bool) (conn : WsConnection) (payload : List UInt8) :
    WsConnection × List WsEvent :=
  if srv_ctx then
    let close_payload := if 2 ≤ payload.length then payload.take 2 ++ (payload.drop 2).take 125 else []
    (uvhttp_ws_send_frame env conn close_payload OPCODE_CLOSE).2
  else (conn, [])

/-- The close branch of the receive loop. The server context is looked up
before the callback runs. -/
def process_close_frame (env : WsEnv) (conn : WsConnection) (payload following : List UInt8) :
    FrameStep :=
  let delivered := deliver_close env conn payload following
  let echoed := echo_close env conn.user_data delivered.1 payload
  .next { echoed.1 with state := .CLOSED } (delivered.2 ++ echoed.2)

/-- The branch of the receive loop that a complete frame takes. -/
def process_frame (env : WsEnv) (conn : WsConnection) (header : FrameHeader)
    (payload following : List UInt8) : FrameStep :=
  if header.opcode = OPCODE_TEXT ∨ header.opcode = OPCODE_BINARY ∨ header.opcode = OPCODE_CONTINUATION then
    process_data_frame env conn header payload
  else if header.opcode = OPCODE_CLOSE then process_close_frame env conn payload following
  else if header.opcode = OPCODE_PING then
    if conn.user_data then
      let (_, conn, frames) := uvhttp_ws_send_pong env conn payload
      .next conn frames
    else .next conn []
  else .next conn []

/-- The bytes a header takes, as its length code tells. -/
def header_need (buffer : List UInt8) : Nat :=
  let len_code := buffer.getD 1 0 &&& 0x7F
  if len_code = 126 then 4 else if len_code = 127 then 10 else 2

/-- Header size, masking key and payload of a frame together. -/
def total_frame_size (header : FrameHeader) (header_size : Nat) : Nat :=
  header_size + header.payload_length + if header.mask then 4 else 0

/-- The unmasked payload of the frame at the front of the buffer. -/
def frame_payload (buffer : List UInt8) (header : FrameHeader) (header_size : Nat) : List UInt8 :=
  if header.mask then
    uvhttp_ws_apply_mask ((buffer.drop (header_size + 4)).take header.payload_length)
      ((buffer.drop header_size).take 4)
  else (buffer.drop header_size).take header.payload_length

/-- Remove the processed frame: the rest moves to the front and what it leaves
behind becomes stale. -/
def remove_frame (conn : WsConnection) (total : Nat) : WsConnection :=
  { conn with
    recv_buffer := conn.recv_buffer.drop total
    recv_stale := fun i => conn.recv_buffer.getD i (conn.recv_stale i) }

/-- Unmasking happens in place: the buffer holds the payload in the clear. -/
def unmask_frame (conn : WsConnection) (payload : List UInt8) (total : Nat) : WsConnection :=
  { conn with
    recv_buffer := conn.recv_buffer.take (total - payload.length) ++ payload ++ conn.recv_buffer.drop total }

/-- A processed frame leaves the buffer. -/
def FrameStep.consume (total : Nat) : FrameStep → FrameStep
  | .next conn events => .next (remove_frame conn total) events
  | other => other

/-- One turn of the receive loop of `uvhttp_ws_process_data`. -/
def process_step (env : WsEnv) (conn : WsConnection) : FrameStep :=
  match uvhttp_ws_parse_frame_header conn.recv_buffer with
  | .error _ =>
    if conn.recv_buffer.length < header_need conn.recv_buffer then .stop else .fail conn []
  | .ok (header, header_size) =>
    if header.rsv1 || header.rsv2 || header.rsv3 then .fail conn []
    else if header.opcode ≥ OPCODE_CLOSE ∧ (header.payload_length > 125 ∨ !header.fin) then .fail conn []
    else if conn.is_server && !header.mask then .fail conn []
    else if header.payload_length > size_t conn.max_frame_size then .fail conn []
    else
      let total := total_frame_size header header_size
      if conn.recv_buffer.length < total then .stop
      else
        let payload := frame_payload conn.recv_buffer header header_size
        (process_frame env (unmask_frame conn payload total) header payload
          (conn.recv_buffer.drop total)).consume total

/-- The receive loop, for at most `fuel` frames. -/
def process_frames (env : WsEnv) : Nat → WsConnection → UvhttpError × WsConnection × List WsEvent
  | 0, conn => (.OK, conn, [])
  | fuel + 1, conn =>
    if conn.recv_buffer.length < 2 then (.OK, conn, [])
    else
      match process_step env conn with
      | .stop => (.OK, conn, [])
      | .fail conn events => (.INVALID_PARAM, conn, events)
      | .next conn events =>
        let (error, conn, later) := process_frames env fuel conn
        (error, conn, events ++ later)

/-- Make room in the receive buffer for `len` more bytes: doubling, cut off at
`max_frame_size`. -/
def grow_recv_buffer (env : WsEnv) (conn : WsConnection) (len : Nat) : UvhttpError × WsConnection :=
  if conn.recv_buffer.length + len > conn.recv_buffer_size then
    if conn.recv_buffer_size > SIZE_MAX / 2 then (.INVALID_PARAM, conn)
    else
      match double_until (conn.recv_buffer.length + len) (conn.recv_buffer_size * 2) with
      | none => (.INVALID_PARAM, conn)
      | some doubled =>
        let capped := doubled > size_t conn.max_frame_size
        let new_size := if capped then size_t conn.max_frame_size else doubled
        if capped ∧ conn.recv_buffer.length + len > new_size then (.INVALID_PARAM, conn)
        else
          let allocated := env.alloc conn.calls new_size
          let fresh := env.fresh conn.calls
          let conn := { conn with calls := conn.calls + 1 }
          if !allocated then (.INVALID_PARAM, conn)
          else (.OK, { conn with
            recv_stale := fun i => if i < conn.recv_buffer_size then conn.recv_stale i else fresh i
            recv_buffer_size := new_size })
  else (.OK, conn)

/-- `uvhttp_ws_process_data`. Every frame takes at least two bytes, so the
number of received bytes bounds the turns of the loop. -/
def uvhttp_ws_process_data (env : WsEnv) (conn : WsConnection) (data : List UInt8) :
    UvhttpError × WsConnection × List WsEvent :=
  match grow_recv_buffer env conn data.length with
  | (.OK, conn) =>
    let received := { conn with recv_buffer := conn.recv_buffer ++ data }
    process_frames env received.recv_buffer.length received
  | (error, conn) => (error, conn, [])

end uvhttp.websocket
