import Uvhttp.Basic
import Uvhttp.Lib.Memory
import Uvhttp.Lib.Fifo

namespace uvhttp.tls_cipher

open memory fifo

/-- The read callbacks of a connection. -/
inductive ReadCallback where
  | on_read
  | on_websocket_read
  deriving DecidableEq, Repr

/-- `uvhttp_connection_t` of a TLS server from `uvhttp_connection_start` on, when
`tls_enabled`, `ssl` and `tls_cipher_buf` are set until it is freed. `closing` is the state
`UVHTTP_CONN_STATE_CLOSING`, `read_cb` the callback that libuv reads for. -/
structure TlsConnection where
  closing : Bool
  read_cb : Option ReadCallback
  ws_connection : Bool
  tls_cipher_buf : List UInt8
  tls_cipher_used : UInt64
  tls_cipher_cap : UInt64
  deriving DecidableEq, Repr

/-- A connection that has started to read. `fresh` is what its new buffer holds. -/
def uvhttp_connection_start (read_buffer_size : UInt64) (fresh : Nat → UInt8) : TlsConnection where
  closing := false
  read_cb := some .on_read
  ws_connection := false
  tls_cipher_buf := (List.range read_buffer_size.toNat).map fresh
  tls_cipher_used := 0
  tls_cipher_cap := read_buffer_size

def uvhttp_connection_close (conn : TlsConnection) : TlsConnection :=
  { conn with closing := true, read_cb := none }

def uvhttp_connection_websocket_close (conn : TlsConnection) : TlsConnection :=
  uvhttp_connection_close { conn with ws_connection := false }

/-- `on_alloc_buffer`: where libuv may write, and how much. -/
def on_alloc_buffer (conn : TlsConnection) : UInt64 × UInt64 :=
  (conn.tls_cipher_used, conn.tls_cipher_cap - conn.tls_cipher_used)

/-- `uvhttp_validate_buffer_capacity`. -/
def uvhttp_validate_buffer_capacity (conn : TlsConnection) (additional_size : UInt64) : Bool :=
  !(conn.tls_cipher_used + additional_size > conn.tls_cipher_cap)

/-- `on_read` up to the TLS library: `none` is a negative `nread`, and the answer `none` an
access outside the buffer. -/
def on_read (conn : TlsConnection) (base : UInt64) : Option UInt64 → Option TlsConnection
  | none => some (uvhttp_connection_close conn)
  | some nread =>
    if nread = 0 then some conn
    else if !uvhttp_validate_buffer_capacity conn nread then some (uvhttp_connection_close conn)
    else if conn.tls_cipher_used + nread > conn.tls_cipher_cap then some (uvhttp_connection_close conn)
    else
      (move conn.tls_cipher_buf.length conn.tls_cipher_buf conn.tls_cipher_used.toNat base.toNat nread.toNat).map
        fun tls_cipher_buf => { conn with tls_cipher_buf, tls_cipher_used := conn.tls_cipher_used + nread }

/-- `on_websocket_read` up to the TLS library. -/
def on_websocket_read (conn : TlsConnection) : Option UInt64 → TlsConnection
  | none => if !conn.ws_connection then conn else uvhttp_connection_websocket_close conn
  | some nread =>
    if !conn.ws_connection then conn
    else if nread = 0 then conn
    else { conn with tls_cipher_used := conn.tls_cipher_used + nread }

def ReadCallback.call (conn : TlsConnection) (base : UInt64) (nread : Option UInt64) :
    ReadCallback → Option TlsConnection
  | .on_read => tls_cipher.on_read conn base nread
  | .on_websocket_read => some (tls_cipher.on_websocket_read conn nread)

/-- A read of libuv from a socket where these bytes have arrived: the buffer from
`on_alloc_buffer`, what the system writes to it, and the callback. A buffer of no bytes
is an error. -/
def socket_read (conn : TlsConnection) (arrived : List UInt8) : Option (TlsConnection × Exchange UInt8) :=
  match conn.read_cb with
  | none => some (conn, ⟨[], []⟩)
  | some read_cb =>
    let (base, len) := on_alloc_buffer conn
    if len = 0 then (read_cb.call conn base none).map fun conn => (conn, ⟨[], []⟩)
    else
      let received := arrived.take len.toNat
      (store conn.tls_cipher_buf.length conn.tls_cipher_buf base.toNat received).bind fun tls_cipher_buf =>
        (read_cb.call { conn with tls_cipher_buf } base (some (UInt64.ofNat received.length))).map fun conn =>
          (conn, ⟨received, []⟩)

/-- `mbedtls_bio_recv`: the bytes that it copies out, none for `MBEDTLS_ERR_SSL_WANT_READ`. -/
def mbedtls_bio_recv (conn : TlsConnection) (len : UInt64) : Option (TlsConnection × Exchange UInt8) :=
  if conn.tls_cipher_used = 0 then some (conn, ⟨[], []⟩)
  else
    let copy_len := if len < conn.tls_cipher_used then len else conn.tls_cipher_used
    (load conn.tls_cipher_buf.length conn.tls_cipher_buf 0 copy_len.toNat).bind fun copied =>
      (if copy_len < conn.tls_cipher_used then
        move conn.tls_cipher_buf.length conn.tls_cipher_buf 0 copy_len.toNat
          (conn.tls_cipher_used - copy_len).toNat
      else some conn.tls_cipher_buf).map fun tls_cipher_buf =>
        ({ conn with tls_cipher_buf, tls_cipher_used := conn.tls_cipher_used - copy_len }, ⟨[], copied⟩)

/-- What can happen to the buffer: reads of any bytes, calls of the TLS library with any
length, and the changes of the callback between them. -/
inductive TlsEvent where
  | socket_read (arrived : List UInt8)
  | socket_error
  | mbedtls_bio_recv (len : UInt64)
  | uv_read_stop
  | uvhttp_connection_restart_read
  | uvhttp_connection_handle_websocket_handshake
  | uvhttp_connection_websocket_close
  | uvhttp_connection_close
  deriving DecidableEq, Repr

def tls_step (conn : TlsConnection) : TlsEvent → Option (TlsConnection × Exchange UInt8)
  | .socket_read arrived => tls_cipher.socket_read conn arrived
  | .socket_error =>
    (conn.read_cb.elim (some conn) fun read_cb => read_cb.call conn 0 none).map fun conn => (conn, ⟨[], []⟩)
  | .mbedtls_bio_recv len => tls_cipher.mbedtls_bio_recv conn len
  | .uv_read_stop => some ({ conn with read_cb := none }, ⟨[], []⟩)
  | .uvhttp_connection_restart_read =>
    some (if conn.closing then conn else { conn with read_cb := some .on_read }, ⟨[], []⟩)
  | .uvhttp_connection_handle_websocket_handshake =>
    some ({ conn with
      ws_connection := true
      read_cb := if conn.closing then conn.read_cb else some .on_websocket_read }, ⟨[], []⟩)
  | .uvhttp_connection_websocket_close => some (tls_cipher.uvhttp_connection_websocket_close conn, ⟨[], []⟩)
  | .uvhttp_connection_close => some (tls_cipher.uvhttp_connection_close conn, ⟨[], []⟩)

/-- The bytes that wait in the buffer. -/
def TlsConnection.pending (conn : TlsConnection) : List UInt8 := conn.tls_cipher_buf.take conn.tls_cipher_used.toNat

structure TlsConnection.Valid (conn : TlsConnection) : Prop where
  used_le : conn.tls_cipher_used ≤ conn.tls_cipher_cap
  length : conn.tls_cipher_buf.length = conn.tls_cipher_cap.toNat
  handler : conn.read_cb = some .on_websocket_read → conn.ws_connection = true

variable {conn : TlsConnection}

theorem TlsConnection.Valid.close (h : conn.Valid) : (uvhttp_connection_close conn).Valid :=
  ⟨h.used_le, h.length, fun hcb => by cases hcb⟩

theorem TlsConnection.Valid.websocket_close (h : conn.Valid) : (uvhttp_connection_websocket_close conn).Valid :=
  ⟨h.used_le, h.length, fun hcb => by cases hcb⟩

/-- A failed read leaves the buffer as it is. -/
theorem read_cb_failed (h : conn.Valid) (read_cb : ReadCallback) (base : UInt64) :
    ∃ conn', read_cb.call conn base none = some conn' ∧ conn'.Valid ∧ conn'.pending = conn.pending := by
  cases read_cb with
  | on_read => exact ⟨_, rfl, h.close, rfl⟩
  | on_websocket_read =>
    cases hws : conn.ws_connection with
    | false =>
      refine ⟨conn, ?_, h, rfl⟩
      simp only [ReadCallback.call, on_websocket_read, hws, Bool.not_false, if_true]
    | true =>
      refine ⟨uvhttp_connection_websocket_close conn, ?_, h.websocket_close, rfl⟩
      simp only [ReadCallback.call, on_websocket_read, hws, Bool.not_true, Bool.false_eq_true, if_false]

/-- Either callback counts the bytes that stand behind those in use. -/
theorem read_cb_read (h : conn.Valid) {read_cb : ReadCallback} (hcb : conn.read_cb = some read_cb)
    {nread : UInt64} (hroom : conn.tls_cipher_used.toNat + nread.toNat ≤ conn.tls_cipher_cap.toNat) :
    read_cb.call conn conn.tls_cipher_used (some nread) =
      some { conn with tls_cipher_used := conn.tls_cipher_used + nread } := by
  by_cases hzero : nread = 0
  · rw [hzero, UInt64.add_zero]
    cases read_cb with
    | on_read => rfl
    | on_websocket_read =>
      simp only [ReadCallback.call, on_websocket_read, if_true, ite_self]
  · cases read_cb with
    | on_read =>
      have hle : ¬ conn.tls_cipher_used + nread > conn.tls_cipher_cap := by
        rw [gt_iff_lt, UInt64.lt_iff_toNat_lt, UInt64.toNat_add]
        have hcap := conn.tls_cipher_cap.toNat_lt
        omega
      have hmove := move_self (Nat.le_refl conn.tls_cipher_buf.length) (h.length ▸ hroom)
      simp only [ReadCallback.call, on_read, if_neg hzero, uvhttp_validate_buffer_capacity, hle, decide_false,
        Bool.not_false, Bool.not_true, Bool.false_eq_true, if_false, hmove, Option.map_some]
    | on_websocket_read =>
      simp only [ReadCallback.call, on_websocket_read, h.handler hcb, Bool.not_true, Bool.false_eq_true, if_false,
        if_neg hzero]

/-- What a read brings stands behind what waited. -/
theorem socket_read_conserves (h : conn.Valid) (arrived : List UInt8) :
    ∃ next, socket_read conn arrived = some next ∧ next.1.Valid ∧ Conserves TlsConnection.pending conn next := by
  have hused := UInt64.le_iff_toNat_le.mp h.used_le
  have hlen : (conn.tls_cipher_cap - conn.tls_cipher_used).toNat =
      conn.tls_cipher_cap.toNat - conn.tls_cipher_used.toNat := UInt64.toNat_sub_of_le _ _ h.used_le
  cases hcb : conn.read_cb with
  | none =>
    refine ⟨(conn, ⟨[], []⟩), ?_, h, List.append_nil _⟩
    simp only [socket_read, hcb]
  | some read_cb =>
    by_cases hfull : conn.tls_cipher_cap - conn.tls_cipher_used = 0
    · obtain ⟨conn', hcall, hvalid, hpending⟩ := read_cb_failed h read_cb conn.tls_cipher_used
      refine ⟨(conn', ⟨[], []⟩), ?_, hvalid, ?_⟩
      · simp only [socket_read, hcb, on_alloc_buffer, hfull, if_true, hcall, Option.map_some]
      · rw [Conserves, List.append_nil, List.nil_append, hpending]
    · generalize hreceived : arrived.take (conn.tls_cipher_cap - conn.tls_cipher_used).toNat = received
      have hcount : received.length ≤ conn.tls_cipher_cap.toNat - conn.tls_cipher_used.toNat := by
        rw [← hreceived, List.length_take, hlen]
        exact Nat.min_le_left _ _
      have hnread : (UInt64.ofNat received.length).toNat = received.length := by
        apply UInt64.toNat_ofNat_of_lt
        exact (hcount.trans (Nat.sub_le _ _)).trans_lt conn.tls_cipher_cap.toNat_lt
      obtain ⟨buf, hstore⟩ : ∃ buf, store conn.tls_cipher_buf.length conn.tls_cipher_buf conn.tls_cipher_used.toNat
          received = some buf := ⟨_, store_eq (by rw [h.length]; omega)⟩
      have hwritten : ({ conn with tls_cipher_buf := buf } : TlsConnection).Valid :=
        ⟨h.used_le, (length_store (Nat.le_refl _) hstore).trans h.length, h.handler⟩
      have hcall := read_cb_read hwritten hcb (show _ + (UInt64.ofNat received.length).toNat ≤ _ by
        rw [hnread]
        dsimp only
        omega)
      dsimp only at hcall
      rw [hcb] at hcall
      have hsum : (conn.tls_cipher_used + UInt64.ofNat received.length).toNat =
          conn.tls_cipher_used.toNat + received.length := by
        rw [UInt64.toNat_add, hnread]
        apply Nat.mod_eq_of_lt
        have hcap := conn.tls_cipher_cap.toNat_lt
        omega
      refine ⟨({ conn with
        tls_cipher_buf := buf
        tls_cipher_used := conn.tls_cipher_used + UInt64.ofNat received.length }, ⟨received, []⟩), ?_,
        ⟨?_, hwritten.length, h.handler⟩, ?_⟩
      · simp only [socket_read, hcb, on_alloc_buffer, if_neg hfull, hreceived, hstore, Option.bind_some, hcall,
          Option.map_some]
      · rw [UInt64.le_iff_toNat_le, hsum]
        dsimp only
        omega
      · rw [Conserves, TlsConnection.pending, TlsConnection.pending]
        dsimp only
        rw [hsum]
        exact (take_store (Nat.le_refl _) hstore).symm

/-- What the TLS library gets stood at the front of what waited. -/
theorem bio_recv_conserves (h : conn.Valid) (len : UInt64) :
    ∃ next, mbedtls_bio_recv conn len = some next ∧ next.1.Valid ∧ Conserves TlsConnection.pending conn next := by
  have hused := UInt64.le_iff_toNat_le.mp h.used_le
  rw [← h.length] at hused
  by_cases hzero : conn.tls_cipher_used = 0
  · exact ⟨_, if_pos hzero, h, List.append_nil _⟩
  · generalize hcopy : (if len < conn.tls_cipher_used then len else conn.tls_cipher_used) = copy_len
    have hle : copy_len ≤ conn.tls_cipher_used := by
      rw [← hcopy]
      split
      · rename_i hlt
        exact UInt64.le_of_lt hlt
      · exact UInt64.le_refl _
    have hle' := UInt64.le_iff_toNat_le.mp hle
    have hrest : (conn.tls_cipher_used - copy_len).toNat = conn.tls_cipher_used.toNat - copy_len.toNat :=
      UInt64.toNat_sub_of_le _ _ hle
    have hload : load conn.tls_cipher_buf.length conn.tls_cipher_buf 0 copy_len.toNat =
        some (conn.tls_cipher_buf.take copy_len.toNat) := load_eq (by omega)
    obtain ⟨buf, hbuf, hlength, hmoved⟩ : ∃ buf, (if copy_len < conn.tls_cipher_used then
        move conn.tls_cipher_buf.length conn.tls_cipher_buf 0 copy_len.toNat
          (conn.tls_cipher_used - copy_len).toNat
        else some conn.tls_cipher_buf) = some buf ∧ buf.length = conn.tls_cipher_buf.length ∧
          buf.take (conn.tls_cipher_used - copy_len).toNat =
            (conn.tls_cipher_buf.drop copy_len.toNat).take (conn.tls_cipher_used - copy_len).toNat := by
      by_cases hlt : copy_len < conn.tls_cipher_used
      · rw [if_pos hlt]
        apply move_front (Nat.le_refl _)
        omega
      · have hall : copy_len = conn.tls_cipher_used := UInt64.le_antisymm hle (UInt64.not_lt.mp hlt)
        refine ⟨conn.tls_cipher_buf, if_neg hlt, rfl, ?_⟩
        rw [hall, UInt64.sub_self]
        rfl
    refine ⟨({ conn with tls_cipher_buf := buf, tls_cipher_used := conn.tls_cipher_used - copy_len },
      ⟨[], conn.tls_cipher_buf.take copy_len.toNat⟩), ?_, ⟨?_, hlength.trans h.length, h.handler⟩, ?_⟩
    · simp only [mbedtls_bio_recv, if_neg hzero, hcopy, hload, hbuf, Option.bind_some, Option.map_some]
    · rw [UInt64.le_iff_toNat_le, hrest]
      exact (Nat.sub_le _ _).trans (UInt64.le_iff_toNat_le.mp h.used_le)
    · rw [Conserves, TlsConnection.pending, TlsConnection.pending, List.append_nil]
      dsimp only
      rw [hmoved, hrest, ← List.take_add, Nat.add_sub_cancel' hle']

/-- Every event keeps the order of the bytes. -/
theorem tls_step_conserves (h : conn.Valid) (event : TlsEvent) :
    ∃ next, tls_step conn event = some next ∧ next.1.Valid ∧ Conserves TlsConnection.pending conn next := by
  cases event with
  | socket_read arrived => exact socket_read_conserves h arrived
  | mbedtls_bio_recv len => exact bio_recv_conserves h len
  | socket_error =>
    cases hcb : conn.read_cb with
    | none =>
      refine ⟨(conn, ⟨[], []⟩), ?_, h, List.append_nil _⟩
      simp only [tls_step, hcb, Option.elim_none, Option.map_some]
    | some read_cb =>
      obtain ⟨conn', hcall, hvalid, hpending⟩ := read_cb_failed h read_cb 0
      refine ⟨(conn', ⟨[], []⟩), ?_, hvalid, ?_⟩
      · simp only [tls_step, hcb, Option.elim_some, hcall, Option.map_some]
      · rw [Conserves, List.append_nil, List.nil_append, hpending]
  | uv_read_stop => exact ⟨_, rfl, ⟨h.used_le, h.length, fun hcb => by cases hcb⟩, List.append_nil _⟩
  | uvhttp_connection_restart_read =>
    cases hclosing : conn.closing with
    | false =>
      refine ⟨({ conn with read_cb := some .on_read }, ⟨[], []⟩), ?_,
        ⟨h.used_le, h.length, fun hcb => by cases hcb⟩, List.append_nil _⟩
      simp only [tls_step, hclosing, Bool.false_eq_true, if_false]
    | true =>
      refine ⟨(conn, ⟨[], []⟩), ?_, h, List.append_nil _⟩
      simp only [tls_step, hclosing, if_true]
  | uvhttp_connection_handle_websocket_handshake =>
    exact ⟨_, rfl, ⟨h.used_le, h.length, fun _ => rfl⟩, List.append_nil _⟩
  | uvhttp_connection_websocket_close => exact ⟨_, rfl, h.websocket_close, List.append_nil _⟩
  | uvhttp_connection_close => exact ⟨_, rfl, h.close, List.append_nil _⟩

theorem valid_start (read_buffer_size : UInt64) (fresh : Nat → UInt8) :
    (uvhttp_connection_start read_buffer_size fresh).Valid := by
  refine ⟨UInt64.zero_le, ?_, fun hcb => by cases hcb⟩
  rw [uvhttp_connection_start, List.length_map, List.length_range]

/-- The ciphertext buffer is a FIFO over every run of its connection, and stays in its
capacity; and the next event, whatever it is, keeps all that waits in it. -/
theorem tls_cipher_fifo (read_buffer_size : UInt64) (fresh : Nat → UInt8) (events : List TlsEvent) :
    ∃ last, fifo.run tls_step (uvhttp_connection_start read_buffer_size fresh) events = some last ∧
      last.1.tls_cipher_used ≤ last.1.tls_cipher_cap ∧
      last.2.output ++ last.1.pending = last.2.input ∧
      ∀ event, ∃ next, tls_step last.1 event = some next ∧
        last.1.pending ++ next.2.input = next.2.output ++ next.1.pending := by
  have hstep : ∀ conn event, TlsConnection.Valid conn → ∃ next, tls_step conn event = some next ∧ next.1.Valid ∧
      Conserves TlsConnection.pending conn next := fun _ event h => tls_step_conserves h event
  obtain ⟨last, hrun, hvalid, hconserved⟩ := run_conserves hstep (valid_start read_buffer_size fresh) events
  refine ⟨last, hrun, hvalid.used_le, hconserved.symm, fun event => ?_⟩
  obtain ⟨next, hnext, -, hkept⟩ := tls_step_conserves hvalid event
  exact ⟨next, hnext, hkept⟩

end uvhttp.tls_cipher
