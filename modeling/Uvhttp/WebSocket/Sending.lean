import Uvhttp.WebSocket.Verdict

open incremental

namespace uvhttp.websocket

/-- `uvhttp_ws_send_text`. -/
def uvhttp_ws_send_text (env : WsEnv) (conn : WsConnection) (text : List UInt8) :
    UvhttpError × WsConnection × List WsEvent :=
  uvhttp_ws_send_frame env conn text OPCODE_TEXT

/-- `uvhttp_ws_send_binary`. -/
def uvhttp_ws_send_binary (env : WsEnv) (conn : WsConnection) (data : List UInt8) :
    UvhttpError × WsConnection × List WsEvent :=
  uvhttp_ws_send_frame env conn data OPCODE_BINARY

/-- `uvhttp_ws_send_ping`. -/
def uvhttp_ws_send_ping (env : WsEnv) (conn : WsConnection) (data : List UInt8) :
    UvhttpError × WsConnection × List WsEvent :=
  uvhttp_ws_send_frame env conn data OPCODE_PING

/-- The payload that `uvhttp_ws_close` builds: the low 16 bits of the code and
at most 125 bytes of the reason. -/
def close_payload (code : Int) (reason : Option (List UInt8)) : List UInt8 :=
  UInt8.ofNat (code / 256 % 256).toNat :: UInt8.ofNat (code % 256).toNat ::
    match reason with
    | none => []
    | some reason => (cstr reason).take 125

/-- `uvhttp_ws_close`. Once the payload is allocated the connection is closing,
whatever becomes of the frame. -/
def uvhttp_ws_close (env : WsEnv) (conn : WsConnection) (code : Int) (reason : Option (List UInt8)) :
    UvhttpError × WsConnection × List WsEvent :=
  let allocated := env.alloc conn.calls 128
  let conn := { conn with calls := conn.calls + 1 }
  if !allocated then (.OUT_OF_MEMORY, conn, [])
  else
    let (ret, conn, events) := uvhttp_ws_send_frame env conn (close_payload code reason) OPCODE_CLOSE
    (ret, { conn with state := .CLOSING }, events)

/-- A call that sends a frame. -/
inductive WsSend where
  | text (data : List UInt8)
  | binary (data : List UInt8)
  | ping (data : List UInt8)
  | pong (data : List UInt8)
  | close (code : Int) (reason : Option (List UInt8))
  deriving DecidableEq, Repr

namespace WsSend

def perform (env : WsEnv) (conn : WsConnection) : WsSend → UvhttpError × WsConnection × List WsEvent
  | text data => uvhttp_ws_send_text env conn data
  | binary data => uvhttp_ws_send_binary env conn data
  | ping data => uvhttp_ws_send_ping env conn data
  | pong data => uvhttp_ws_send_pong env conn data
  | close code reason => uvhttp_ws_close env conn code reason

def opcode : WsSend → UInt8
  | text _ => OPCODE_TEXT
  | binary _ => OPCODE_BINARY
  | ping _ => OPCODE_PING
  | pong _ => OPCODE_PONG
  | close _ _ => OPCODE_CLOSE

def payload : WsSend → List UInt8
  | text data => data
  | binary data => data
  | ping data => data
  | pong data => data
  | close code reason => close_payload code reason

/-- The connection on which the frame is sent: `uvhttp_ws_close` allocates
first. -/
def sender (conn : WsConnection) : WsSend → WsConnection
  | close _ _ => { conn with calls := conn.calls + 1 }
  | _ => conn

end WsSend

/-- The bytes handed to the transport. -/
def emitted (events : List WsEvent) : List UInt8 :=
  (events.map fun
    | .frame_sent frame => frame
    | _ => []).flatten

/-- How many of `len` bytes the transport takes. -/
def taken (env : WsEnv) (ssl : Bool) (calls len : Nat) : Nat :=
  if ssl then (ssl_write_loop env len 0 0 calls).1 else (env.send calls len).getD 0

/-- A successful build is the frame on the wire. -/
theorem build_frame_ok {random : Option (List UInt8)} {buffer_size : Nat} {payload frame : List UInt8}
    {opcode : UInt8} {mask : Bool} (hrandom : ∀ key, random = some key → key.length = 4)
    (h : uvhttp_ws_build_frame random buffer_size payload opcode mask true = .ok frame) :
    ∃ wire : WireFrame, wire.fin = true ∧ wire.opcode = opcode ∧ wire.mask = mask ∧ wire.payload = payload ∧
      frame = wire.bytes := by
  unfold uvhttp_ws_build_frame at h
  cases mask with
  | false =>
    simp only [Bool.false_eq_true, if_false] at h
    split at h
    · cases h
    · split at h
      · cases h
      · cases h
        exact ⟨⟨true, opcode, false, [0, 0, 0, 0], payload, rfl⟩, rfl, rfl, rfl, rfl, rfl⟩
  | true =>
    simp only [if_true] at h
    split at h
    · cases h
    · split at h
      · cases h
      · cases hkey : random with
        | none =>
          rw [hkey] at h
          cases h
        | some key =>
          rw [hkey] at h
          cases h
          refine ⟨⟨true, opcode, true, key, payload, hrandom key hkey⟩, rfl, rfl, rfl, rfl, ?_⟩
          rw [WireFrame.bytes]
          simp only [if_true, List.append_assoc]

/-- What a successful `uvhttp_ws_send_frame` has put on the wire: as much of the
frame as the transport took. -/
theorem send_frame_ok {env : WsEnv} (hrandom : ∀ calls key, env.random calls = some key → key.length = 4)
    {conn : WsConnection} {data : List UInt8} {opcode : UInt8}
    (h : (uvhttp_ws_send_frame env conn data opcode).1 = .OK) :
    ∃ wire : WireFrame, wire.fin = true ∧ wire.opcode = opcode ∧ wire.mask = !conn.is_server ∧
      wire.payload = data ∧ emitted (uvhttp_ws_send_frame env conn data opcode).2.2 =
        wire.bytes.take (taken env conn.ssl (conn.calls + 2) wire.bytes.length) := by
  unfold uvhttp_ws_send_frame at h ⊢
  split at h
  · cases h
  · rename_i hopen
    rw [if_neg hopen]
    split at h
    · cases h
    · rename_i hsize
      rw [if_neg hsize]
      dsimp only at h ⊢
      split at h
      · cases h
      · rename_i hallocated
        rw [if_neg hallocated]
        cases hbuilt : uvhttp_ws_build_frame (env.random (conn.calls + 1)) (10 + data.length + 4) data opcode
            (!conn.is_server) true with
        | error code =>
          rw [hbuilt] at h
          cases h
        | ok frame =>
          obtain ⟨wire, hfin, hopcode, hmask, hpayload, rfl⟩ := build_frame_ok (hrandom _) hbuilt
          refine ⟨wire, hfin, hopcode, hmask, hpayload, ?_⟩
          rw [hbuilt] at h
          dsimp only at h ⊢
          split at h
          · cases h
          · rename_i hlong
            rw [if_neg hlong]
            unfold taken
            cases hssl : conn.ssl with
            | true =>
              simp only [hssl, if_true] at h ⊢
              split at h
              · cases h
              · rename_i hsent
                rw [if_neg hsent]
                simp [emitted]
            | false =>
              simp only [hssl, Bool.false_eq_true, if_false] at h ⊢
              cases hsend : env.send (conn.calls + 1 + 1) wire.bytes.length with
              | none =>
                rw [hsend] at h
                cases h
              | some sent =>
                rw [hsend] at h
                dsimp only at h ⊢
                split at h
                · cases h
                · rename_i hcount
                  rw [if_neg hcount]
                  simp [emitted]

/-- What a successful call has put on the wire. -/
theorem WsSend.perform_ok {env : WsEnv} (hrandom : ∀ calls key, env.random calls = some key → key.length = 4)
    {conn : WsConnection} {op : WsSend} (h : (op.perform env conn).1 = .OK) :
    ∃ wire : WireFrame, wire.fin = true ∧ wire.opcode = op.opcode ∧ wire.mask = !conn.is_server ∧
      wire.payload = op.payload ∧ emitted (op.perform env conn).2.2 =
        wire.bytes.take (taken env conn.ssl ((op.sender conn).calls + 2) wire.bytes.length) := by
  cases op with
  | text data => exact send_frame_ok hrandom h
  | binary data => exact send_frame_ok hrandom h
  | ping data => exact send_frame_ok hrandom h
  | pong data => exact send_frame_ok hrandom h
  | close code reason =>
    simp only [perform, uvhttp_ws_close] at h ⊢
    split at h
    · cases h
    · rename_i hallocated
      rw [if_neg hallocated]
      exact send_frame_ok hrandom h

end uvhttp.websocket
