import Uvhttp.Http.Response
import Uvhttp.WebSocket.Connection

namespace uvhttp.output

open uvhttp.http hiding uvhttp_response_send uvhttp_response_send_raw
open uvhttp.websocket

/-- A write to the socket of a connection: of mbedtls through `mbedtls_bio_send`, or
of the application itself. -/
inductive SocketWrite where
  | mbedtls_bio_send (records : List UInt8)
  | uv_write (data : List UInt8)
  | send (data : List UInt8)
  | uv_fs_sendfile (file_path : List UInt8) (offset length : Nat)
  deriving DecidableEq, Repr

/-- Whether mbedtls has produced what is written. -/
def SocketWrite.encrypted : SocketWrite → Bool
  | .mbedtls_bio_send _ => true
  | .uv_write _ | .send _ | .uv_fs_sendfile _ _ _ => false

/-- The fields of `uvhttp_connection_t` that choose the way out. -/
structure Connection where
  tls_enabled : Bool
  ssl : Bool
  deriving DecidableEq, Repr

/-- What the calls of one send are answered: the allocator, `uv_write`, and mbedtls,
which is asked again and again until it has taken all data. `records` is what it
writes meanwhile. -/
structure Transport where
  alloc : Nat → Bool
  uv_write : Bool
  ssl_write : Nat → List UInt8 → SslWrite
  records : Nat → List UInt8 → List UInt8

/-- A transport that takes everything at once. -/
def Transport.willing : Transport := ⟨fun _ => true, true, fun _ data => .wrote data.length, fun _ data => data⟩

/-- What a send leaves behind: its return code, the application bytes that libuv or
mbedtls took, and the writes to the socket. -/
structure Sent where
  code : UvhttpError
  taken : List UInt8
  socket : List SocketWrite
  deriving DecidableEq, Repr

def Sent.refused (code : UvhttpError) : Sent := ⟨code, [], []⟩

section send

/-- The loop of `uvhttp_connection_tls_write`. -/
def tls_write_loop (t : Transport) (calls retries : Nat) (data : List UInt8) : Sent :=
  if data.length = 0 then ⟨.OK, [], []⟩
  else
    let write := SocketWrite.mbedtls_bio_send (t.records calls data)
    match t.ssl_write calls data with
    | .wrote count =>
      if 0 < count then
        let rest := tls_write_loop t (calls + 1) 0 (data.drop count)
        ⟨rest.code, data.take count ++ rest.taken, write :: rest.socket⟩
      else ⟨.TLS_WRITE, [], [write]⟩
    | .want =>
      if retries + 1 > 200 then ⟨.TLS_WANT_WRITE, [], [write]⟩
      else
        let rest := tls_write_loop t (calls + 1) (retries + 1) data
        { rest with socket := write :: rest.socket }
    | .failed => ⟨.TLS_WRITE, [], [write]⟩
termination_by (data.length, 201 - retries)
decreasing_by
  · simp_wf
    left
    omega
  · simp_wf
    right
    omega

/-- `uvhttp_connection_tls_write`. -/
def uvhttp_connection_tls_write (conn : Connection) (t : Transport) (data : List UInt8) : Sent :=
  if !conn.ssl then .refused .INVALID_PARAM else tls_write_loop t 0 0 data

/-- `uvhttp_response_send_raw`, to a client that is a TCP handle on a loop. What it
does to the connection afterwards is not output. -/
def uvhttp_response_send_raw (conn : Connection) (t : Transport) (data : List UInt8) : Sent :=
  if data.length = 0 then .refused .INVALID_PARAM
  else if !t.alloc (SIZEOF_WRITE_DATA + data.length - 1) then .refused .OUT_OF_MEMORY
  else if conn.tls_enabled && conn.ssl then uvhttp_connection_tls_write conn t data
  else if !t.uv_write then .refused .RESPONSE_SEND
  else ⟨.OK, data, [.uv_write data]⟩

/-- `uvhttp_response_send`. -/
def uvhttp_response_send (conn : Connection) (t : Transport) (r : Response) : Sent × Response :=
  if r.sent then (⟨.OK, [], []⟩, r)
  else
    match uvhttp_response_build_data t.alloc r with
    | .error e => (.refused e, r)
    | .ok response_data =>
      let sent := uvhttp_response_send_raw conn t response_data
      (sent, { r with sent := true, finished := r.finished || sent.code = .OK })

/-- `uvhttp_send_response_data`, which asks for no TLS. -/
def uvhttp_send_response_data (t : Transport) (data : List UInt8) : Sent :=
  if data.length = 0 then .refused .INVALID_PARAM
  else if !t.alloc (SIZEOF_WRITE_DATA + data.length) then .refused .OUT_OF_MEMORY
  else if !t.uv_write then .refused .RESPONSE_SEND
  else ⟨.OK, data, [.uv_write data]⟩

/-- The writes of `uvhttp_ws_send_frame` to the socket. -/
def ws_socket_writes (ssl : Bool) (records : List UInt8 → List UInt8) : List WsEvent → List SocketWrite
  | [] => []
  | .frame_sent frame :: events =>
    (if ssl then .mbedtls_bio_send (records frame) else .send frame) :: ws_socket_writes ssl records events
  | _ :: events => ws_socket_writes ssl records events

end send

section spec

/-- A TLS write takes all data when it succeeds, and mbedtls does all its writes. -/
theorem tls_write_loop_spec (t : Transport) (calls retries : Nat) (data : List UInt8) :
    ((tls_write_loop t calls retries data).code = .OK → (tls_write_loop t calls retries data).taken = data) ∧
      ∀ w ∈ (tls_write_loop t calls retries data).socket, w.encrypted = true := by
  fun_induction tls_write_loop t calls retries data with
  | case1 calls retries data hdata =>
    exact ⟨fun _ => (List.length_eq_zero_iff.mp hdata).symm, by simp⟩
  | case2 calls retries data hdata write count hwrote hcount rest ih =>
    refine ⟨fun hok => ?_, ?_⟩
    · show data.take count ++ rest.taken = data
      rw [ih.1 hok, List.take_append_drop]
    · intro w hw
      obtain rfl | hw := List.mem_cons.mp hw
      · rfl
      · exact ih.2 w hw
  | case3 calls retries data hdata write count hwrote hcount => exact ⟨by simp, by simp [write, SocketWrite.encrypted]⟩
  | case4 calls retries data hdata write hwant hretries => exact ⟨by simp, by simp [write, SocketWrite.encrypted]⟩
  | case5 calls retries data hdata write hwant hretries rest ih =>
    refine ⟨ih.1, ?_⟩
    intro w hw
    obtain rfl | hw := List.mem_cons.mp hw
    · rfl
    · exact ih.2 w hw
  | case6 calls retries data hdata write hfailed => exact ⟨by simp, by simp [write, SocketWrite.encrypted]⟩

/-- A send that succeeds has handed all data over. -/
theorem send_raw_taken {conn : Connection} {t : Transport} {data : List UInt8}
    (h : (uvhttp_response_send_raw conn t data).code = .OK) :
    (uvhttp_response_send_raw conn t data).taken = data ∧ data ≠ [] := by
  simp only [uvhttp_response_send_raw, uvhttp_connection_tls_write, Sent.refused] at h ⊢
  split at h
  · exact absurd h (by simp)
  · rename_i hdata
    refine ⟨?_, fun hnil => hdata (by rw [hnil]; rfl)⟩
    rw [if_neg hdata]
    split at h
    · exact absurd h (by simp)
    · rename_i halloc
      rw [if_neg halloc]
      split at h
      · rename_i htls
        rw [if_pos htls]
        split at h
        · exact absurd h (by simp)
        · rename_i hssl
          rw [if_neg hssl]
          exact (tls_write_loop_spec t 0 0 data).1 h
      · rename_i htls
        rw [if_neg htls]
        split at h
        · exact absurd h (by simp)
        · rename_i hwrite
          rw [if_neg hwrite]

/-- Building the data of a response fails for want of memory only. -/
theorem build_data_error {alloc : Nat → Bool} {r : Response} {e : UvhttpError}
    (h : uvhttp_response_build_data alloc r = .error e) : e = .OUT_OF_MEMORY := by
  simp only [uvhttp_response_build_data] at h
  split at h
  · exact (Except.error.inj h).symm
  split at h
  · exact (Except.error.inj h).symm
  split at h
  · exact (Except.error.inj h).symm
  · exact absurd h (by simp)

/-- A response that is sent with success is handed over. -/
theorem response_send_taken {conn : Connection} {t : Transport} {r : Response} (hsent : r.sent = false)
    (h : (uvhttp_response_send conn t r).1.code = .OK) : (uvhttp_response_send conn t r).1.taken ≠ [] := by
  simp only [uvhttp_response_send, hsent, Bool.false_eq_true, if_false] at h ⊢
  cases hbuild : uvhttp_response_build_data t.alloc r with
  | error e =>
    rw [hbuild] at h
    have he : e = .OK := h
    exact absurd (build_data_error hbuild) (by rw [he]; simp)
  | ok data =>
    rw [hbuild] at h
    obtain ⟨htaken, hdata⟩ := send_raw_taken h
    show (uvhttp_response_send_raw conn t data).taken ≠ []
    rw [htaken]
    exact hdata

/-- On a connection with TLS, a send writes to the socket through mbedtls only. -/
theorem send_raw_encrypted {conn : Connection} (htls : conn.tls_enabled = true) (hssl : conn.ssl = true)
    (t : Transport) (data : List UInt8) :
    ∀ w ∈ (uvhttp_response_send_raw conn t data).socket, w.encrypted = true := by
  simp only [uvhttp_response_send_raw, uvhttp_connection_tls_write, htls, hssl, Bool.and_self, if_true, Bool.not_true,
    Bool.false_eq_true, if_false, Sent.refused]
  split
  · simp
  · split
    · simp
    · exact (tls_write_loop_spec t 0 0 data).2

end spec

end uvhttp.output
