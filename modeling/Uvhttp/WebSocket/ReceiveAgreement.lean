import Uvhttp.WebSocket.FrameLog
import Uvhttp.WebSocket.RecvFrame

open incremental

namespace uvhttp.websocket

/-- The frame that one turn of the receive loop accepts. -/
def accepted_frame (env : WsEnv) (conn : WsConnection) : Option Frame :=
  match next_frame conn.is_server conn.max_frame_size conn.recv_buffer, process_step env conn with
  | .frame frame _, .next _ _ => some frame
  | _, _ => none

/-- The first frame that `uvhttp_ws_process_data` accepts from the received
data. -/
def first_frame (env : WsEnv) (conn : WsConnection) (data : List UInt8) : Option Frame :=
  match grow_recv_buffer env conn data.length with
  | (.OK, conn) => accepted_frame env { conn with recv_buffer := conn.recv_buffer ++ data }
  | _ => none

theorem accepted_frame_header (env : WsEnv) (conn : WsConnection) :
    (accepted_frame env conn).map Prod.fst = (process_log env conn.recv_buffer.length conn).head?.map Prod.fst := by
  unfold accepted_frame
  by_cases hshort : conn.recv_buffer.length < 2
  · have hmore : next_frame conn.is_server conn.max_frame_size conn.recv_buffer = .more := by
      rw [next_frame, if_pos hshort]
    rw [hmore]
    cases conn.recv_buffer.length with
    | zero => rfl
    | succ fuel =>
      rw [process_log, if_pos hshort]
      rfl
  · obtain ⟨fuel, hfuel⟩ := Nat.exists_eq_add_of_le' (show 1 ≤ conn.recv_buffer.length by omega)
    rw [hfuel, process_log, if_neg hshort]
    cases next_frame conn.is_server conn.max_frame_size conn.recv_buffer with
    | more => rfl
    | bad => rfl
    | frame frame total => cases process_step env conn <;> rfl

/-- The log of a call starts with that frame. -/
theorem first_frame_header (env : WsEnv) (conn : WsConnection) (data : List UInt8) :
    (first_frame env conn data).map Prod.fst = (process_data_log env conn data).head?.map Prod.fst := by
  unfold first_frame process_data_log
  rcases grow_recv_buffer env conn data.length with ⟨error, grown⟩
  cases error <;> first | rfl | exact accepted_frame_header env _

/-- The receive buffer takes so many bytes at once: it is large enough, or they
are within `max_frame_size` and the allocator has memory for the larger buffer. -/
def has_room (env : WsEnv) (conn : WsConnection) (len : Nat) : Prop :=
  len ≤ conn.recv_buffer_size ∨
    (len ≤ size_t conn.max_frame_size ∧ ∃ doubled, double_until len (conn.recv_buffer_size * 2) = some doubled ∧
      env.alloc conn.calls (min doubled (size_t conn.max_frame_size)) = true)

/-- The calls made to the allocator for it. -/
def room_calls (conn : WsConnection) (len : Nat) : Nat := if len ≤ conn.recv_buffer_size then 0 else 1

theorem le_double_until {required capacity doubled : Nat} (h : double_until required capacity = some doubled) :
    required ≤ doubled := by
  fun_induction double_until required capacity with
  | case1 capacity hshort hlarge => cases h
  | case2 capacity hshort hsmall hpos ih => exact ih h
  | case3 capacity hshort hsmall hzero => cases h
  | case4 capacity henough =>
    cases h
    omega

section empty_buffer

variable {env : WsEnv} {conn : WsConnection} (hempty : conn.recv_buffer = [])
  (hsmall : conn.recv_buffer_size ≤ SIZE_MAX / 2) {len : Nat}

include hempty hsmall

/-- An empty receive buffer that has room is grown by at most one allocation. -/
theorem grow_recv_buffer_room (h : has_room env conn len) :
    ∃ recv_stale recv_buffer_size, grow_recv_buffer env conn len = (.OK, { conn with
      recv_stale, recv_buffer_size, calls := conn.calls + room_calls conn len }) := by
  have hlen : conn.recv_buffer.length + len = len := by rw [hempty, List.length_nil, Nat.zero_add]
  unfold grow_recv_buffer room_calls
  rw [hlen]
  by_cases hfits : len ≤ conn.recv_buffer_size
  · rw [if_neg (Nat.not_lt.mpr hfits), if_pos hfits]
    exact ⟨_, _, rfl⟩
  · obtain ⟨hlimit, doubled, hdoubled, halloc⟩ := h.resolve_left hfits
    have hsize : (if doubled > size_t conn.max_frame_size then size_t conn.max_frame_size else doubled) =
        min doubled (size_t conn.max_frame_size) := by
      split <;> omega
    rw [if_pos (Nat.not_le.mp hfits), if_neg (Nat.not_lt.mpr hsmall), hdoubled, if_neg hfits]
    dsimp only
    rw [hsize, halloc, if_neg (by omega)]
    exact ⟨_, _, rfl⟩

theorem grow_recv_buffer_no_room (h : ¬ has_room env conn len) :
    ∃ conn', grow_recv_buffer env conn len = (.INVALID_PARAM, conn') := by
  have hlen : conn.recv_buffer.length + len = len := by rw [hempty, List.length_nil, Nat.zero_add]
  have hfull : len > conn.recv_buffer_size := Nat.not_le.mp fun hfits => h (.inl hfits)
  unfold grow_recv_buffer
  rw [hlen, if_pos hfull, if_neg (Nat.not_lt.mpr hsmall)]
  cases hdoubled : double_until len (conn.recv_buffer_size * 2) with
  | none => exact ⟨conn, rfl⟩
  | some doubled =>
    have hreached := le_double_until hdoubled
    have hsize : (if doubled > size_t conn.max_frame_size then size_t conn.max_frame_size else doubled) =
        min doubled (size_t conn.max_frame_size) := by
      split <;> omega
    dsimp only
    rw [hsize]
    by_cases hlimit : len ≤ size_t conn.max_frame_size
    · have hrefused : env.alloc conn.calls (min doubled (size_t conn.max_frame_size)) = false := by
        rw [← Bool.not_eq_true]
        exact fun hgranted => h (.inr ⟨hlimit, doubled, hdoubled, hgranted⟩)
      rw [if_neg (by omega), hrefused]
      exact ⟨_, rfl⟩
    · rw [if_pos (by omega)]
      exact ⟨conn, rfl⟩

end empty_buffer

/-- The turn went on to the next frame. -/
def FrameStep.accepts : FrameStep → Bool
  | .next _ _ => true
  | _ => false

@[simp] theorem FrameStep.accepts_consume (step : FrameStep) (total : Nat) :
    (step.consume total).accepts = step.accepts := by
  cases step <;> rfl

/-- The first fragment of a message is kept when it is within the limit and there
is memory for it. -/
theorem fragment_append_first {env : WsEnv} {conn : WsConnection} (hsize : conn.fragmented_size = 0)
    (hcapacity : conn.fragmented_capacity = 0) (payload : List UInt8) :
    (uvhttp_ws_fragment_append env conn payload).1 = .OK ↔
      ¬ over_limit conn.max_message_size payload.length ∧ has_memory env conn.calls payload.length := by
  unfold uvhttp_ws_fragment_append has_memory
  dsimp only
  rw [hsize, hcapacity]
  by_cases hover : over_limit conn.max_message_size payload.length
  · rw [if_pos ⟨hover.1, .inr hover.2⟩]
    simp [hover]
  · have hwithin : ¬ (size_t conn.max_message_size > 0 ∧
        (0 > size_t conn.max_message_size ∨ payload.length > size_t conn.max_message_size - 0)) := by
      rintro ⟨hsome, hnone | hlong⟩
      · omega
      · exact hover ⟨hsome, hlong⟩
    rw [if_neg hwithin]
    by_cases hpayload : payload.length = 0
    · rw [if_neg (by omega)]
      simp only [hpayload, true_or, and_true, true_iff]
      rw [← hpayload]
      exact hover
    · rw [if_pos (by omega)]
      simp only [fragment_capacity, if_true, Nat.zero_add]
      cases halloc : env.alloc conn.calls payload.length with
      | true => simp [hover]
      | false => simp [hpayload]

/-- What the fragment state machine of an idle connection asks of a frame. -/
structure Sequenced (env : WsEnv) (max_message_size : Int) (calls : Nat) (header : FrameHeader) : Prop where
  starts : header.opcode ≠ OPCODE_CONTINUATION
  within : is_data header.opcode → header.fin = false → ¬ over_limit max_message_size header.payload_length
  memory : is_data header.opcode → header.fin = false → has_memory env calls header.payload_length

/-- A frame on a connection with no message begun is accepted when the fragment
state machine can take it. -/
theorem process_frame_accepts {env : WsEnv} {conn : WsConnection} (hidle : conn.fragmented_message = none)
    {header : FrameHeader} {payload : List UInt8} (hlen : payload.length = header.payload_length)
    (following : List UInt8) :
    (process_frame env conn header payload following).accepts = true ↔
      Sequenced env conn.max_message_size conn.calls header := by
  unfold process_frame
  by_cases hdata : is_data header.opcode
  · rw [if_pos hdata]
    unfold process_data_frame
    rw [hidle]
    dsimp only
    by_cases hcont : header.opcode = OPCODE_CONTINUATION
    · rw [if_pos hcont]
      refine ⟨fun h => ?_, fun h => absurd hcont h.starts⟩
      cases h
    · rw [if_neg hcont]
      cases hfin : header.fin with
      | true =>
        refine ⟨fun _ => ⟨hcont, fun _ h => ?_, fun _ h => ?_⟩, fun _ => rfl⟩
        · rw [hfin] at h
          cases h
        · rw [hfin] at h
          cases h
      | false =>
        simp only [Bool.not_false, if_true]
        have happend := @fragment_append_first env
          { conn with fragmented_opcode := header.opcode, fragmented_size := 0, fragmented_capacity := 0,
                      fragmented_message := none } rfl rfl payload
        rw [hlen] at happend
        generalize uvhttp_ws_fragment_append env _ payload = result at happend ⊢
        obtain ⟨error, after⟩ := result
        have hsequenced : error = .OK ↔ Sequenced env conn.max_message_size conn.calls header :=
          ⟨fun h => ⟨hcont, fun _ _ => (happend.mp h).1, fun _ _ => (happend.mp h).2⟩,
            fun h => happend.mpr ⟨h.within hdata hfin, h.memory hdata hfin⟩⟩
        rw [← hsequenced]
        cases error <;> simp [FrameStep.accepts]
  · rw [if_neg hdata]
    have hsequenced : Sequenced env conn.max_message_size conn.calls header :=
      ⟨fun h => hdata (.inr (.inr h)), fun h => absurd h hdata, fun h => absurd h hdata⟩
    refine ⟨fun _ => hsequenced, fun _ => ?_⟩
    split
    · rfl
    · split
      · split <;> rfl
      · rfl

/-- A server connection just after its handshake. -/
structure WsConnection.JustOpened (conn : WsConnection) : Prop where
  state : conn.state = .OPEN
  server : conn.is_server = true
  buffer : conn.recv_buffer = []
  buffer_size : conn.recv_buffer_size = 64 * 1024
  idle : conn.fragmented_message = none

/-- What the buffered parser asks of the first frame of a server connection and
the blocking path does not: no reserved bit, control frames short and whole, a
mask, a place in the sequence of fragments, and room for all that was received. -/
structure Buffered (env : WsEnv) (conn : WsConnection) (len : Nat) (header : FrameHeader) : Prop where
  reserved : (header.rsv1 || header.rsv2 || header.rsv3) = false
  control : header.opcode ≥ OPCODE_CLOSE → header.payload_length ≤ 125 ∧ header.fin = true
  masked : header.mask = true
  room : has_room env conn len
  sequenced : Sequenced env conn.max_message_size (conn.calls + room_calls conn len) header

/-- The header checks of a server, told apart from the length limit. -/
theorem header_accepted_iff (max_frame_size : Int) (header : FrameHeader) :
    ¬ header_refused true max_frame_size header ↔
      (header.rsv1 || header.rsv2 || header.rsv3) = false ∧
        (header.opcode ≥ OPCODE_CLOSE → header.payload_length ≤ 125 ∧ header.fin = true) ∧
        header.mask = true ∧ header.payload_length ≤ size_t max_frame_size := by
  unfold header_refused
  simp only [not_or, not_and, Bool.not_eq_true, Bool.true_and, gt_iff_lt, Nat.not_lt, Bool.not_eq_eq_eq_not,
    Bool.not_true, Bool.not_eq_false]

/-- What a turn of the receive loop makes of a complete frame. -/
theorem accepted_frame_iff {env : WsEnv} {conn : WsConnection} (hserver : conn.is_server = true)
    (hidle : conn.fragmented_message = none) {header : FrameHeader} {header_size : Nat}
    (hparse : uvhttp_ws_parse_frame_header conn.recv_buffer = .ok (header, header_size))
    (htotal : total_frame_size header header_size ≤ conn.recv_buffer.length) (frame : Frame) :
    accepted_frame env conn = some frame ↔
      (¬ header_refused true conn.max_frame_size header ∧
          Sequenced env conn.max_message_size conn.calls header) ∧
        frame = (header, frame_payload conn.recv_buffer header header_size) := by
  obtain ⟨htwo, hsize, -⟩ := parse_frame_header_ok hparse
  have hlen : 2 ≤ conn.recv_buffer.length := by omega
  have hstep := process_step_eq env hlen
  have hdecoder : conn.profile.decoder.next conn.recv_buffer =
      next_frame conn.is_server conn.max_frame_size conn.recv_buffer := rfl
  have hnext : next_frame conn.is_server conn.max_frame_size conn.recv_buffer =
      if header_refused true conn.max_frame_size header then .bad
      else .frame (header, frame_payload conn.recv_buffer header header_size)
        (total_frame_size header header_size) := by
    unfold next_frame
    rw [if_neg (by omega), hparse, hserver]
    dsimp only
    rw [if_neg (Nat.not_lt.mpr htotal)]
  rw [hdecoder, hnext] at hstep
  unfold accepted_frame
  rw [hnext]
  by_cases hrefused : header_refused true conn.max_frame_size header
  · rw [if_pos hrefused]
    refine ⟨fun h => ?_, fun h => absurd hrefused h.1.1⟩
    cases h
  · rw [if_neg hrefused] at hstep ⊢
    dsimp only at hstep
    have haccepts := @process_frame_accepts env
      (unmask_frame conn (frame_payload conn.recv_buffer header header_size) (total_frame_size header header_size))
      hidle header _ (length_frame_payload htotal) (conn.recv_buffer.drop (total_frame_size header header_size))
    rw [← FrameStep.accepts_consume _ (total_frame_size header header_size), ← hstep] at haccepts
    cases hresult : process_step env conn with
    | stop =>
      rw [hresult] at haccepts
      refine ⟨fun h => ?_, fun h => ?_⟩
      · cases h
      · cases haccepts.mpr h.1.2
    | fail failed events =>
      rw [hresult] at haccepts
      refine ⟨fun h => ?_, fun h => ?_⟩
      · cases h
      · cases haccepts.mpr h.1.2
    | next after events =>
      rw [hresult] at haccepts
      refine ⟨fun h => ⟨⟨hrefused, haccepts.mp rfl⟩, ?_⟩, fun h => congrArg some h.2.symm⟩
      exact (Option.some.inj h).symm

/-- What the buffered path makes of a complete frame. -/
theorem first_frame_iff {env : WsEnv} {conn : WsConnection} (hconn : conn.JustOpened) {stream : List UInt8}
    {header : FrameHeader} {header_size : Nat}
    (hparse : uvhttp_ws_parse_frame_header stream = .ok (header, header_size))
    (htotal : total_frame_size header header_size ≤ stream.length) (frame : Frame) :
    first_frame env conn stream = some frame ↔
      (header.payload_length ≤ size_t conn.max_frame_size ∧ Buffered env conn stream.length header) ∧
        frame = (header, frame_payload stream header header_size) := by
  have hsmall : conn.recv_buffer_size ≤ SIZE_MAX / 2 := by
    rw [hconn.buffer_size]
    decide
  unfold first_frame
  by_cases hroom : has_room env conn stream.length
  · obtain ⟨recv_stale, recv_buffer_size, hgrow⟩ := grow_recv_buffer_room hconn.buffer hsmall hroom
    have haccepted := @accepted_frame_iff env { conn with
      recv_stale, recv_buffer_size, calls := conn.calls + room_calls conn stream.length
      recv_buffer := stream } hconn.server hconn.idle header header_size hparse htotal frame
    rw [header_accepted_iff] at haccepted
    rw [hgrow]
    dsimp only
    rw [hconn.buffer, List.nil_append, haccepted]
    constructor
    · rintro ⟨⟨⟨hreserved, hcontrol, hmasked, hlimit⟩, hsequenced⟩, rfl⟩
      exact ⟨⟨hlimit, hreserved, hcontrol, hmasked, hroom, hsequenced⟩, rfl⟩
    · rintro ⟨⟨hlimit, hbuffered⟩, rfl⟩
      exact ⟨⟨⟨hbuffered.reserved, hbuffered.control, hbuffered.masked, hlimit⟩, hbuffered.sequenced⟩, rfl⟩
  · obtain ⟨conn', hgrow⟩ := grow_recv_buffer_no_room hconn.buffer hsmall hroom
    rw [hgrow]
    refine ⟨fun h => ?_, fun h => absurd h.1.2.room hroom⟩
    cases h

theorem accepted_frame_malformed {env : WsEnv} {conn : WsConnection} {error : UvhttpError}
    (hparse : uvhttp_ws_parse_frame_header conn.recv_buffer = .error error) : accepted_frame env conn = none := by
  unfold accepted_frame next_frame
  rw [hparse]
  by_cases hshort : conn.recv_buffer.length < 2
  · rw [if_pos hshort]
  · rw [if_neg hshort]
    dsimp only
    by_cases hneed : conn.recv_buffer.length < header_need conn.recv_buffer
    · rw [if_pos hneed]
    · rw [if_neg hneed]

/-- A header that does not parse is refused by the buffered path too. -/
theorem first_frame_malformed {env : WsEnv} {conn : WsConnection} (hconn : conn.JustOpened) {stream : List UInt8}
    {error : UvhttpError} (hparse : uvhttp_ws_parse_frame_header stream = .error error) :
    first_frame env conn stream = none := by
  obtain ⟨recv_stale, recv_buffer_size, calls, hwrites⟩ := grow_recv_buffer_writes env conn stream.length
  unfold first_frame
  generalize grow_recv_buffer env conn stream.length = result at hwrites ⊢
  obtain ⟨error', grown⟩ := result
  have hbuffer : grown.recv_buffer ++ stream = stream := by
    change grown = _ at hwrites
    rw [hwrites]
    change conn.recv_buffer ++ stream = stream
    rw [hconn.buffer, List.nil_append]
  cases error' <;> first | rfl | exact accepted_frame_malformed (by rw [hbuffer]; exact hparse)

/-- The stream starts with one complete frame: its header is there and, when it is
one, all the bytes it announces. -/
structure StartsWithFrame (stream : List UInt8) : Prop where
  header : header_need stream ≤ stream.length
  body : ∀ header header_size, uvhttp_ws_parse_frame_header stream = .ok (header, header_size) →
    total_frame_size header header_size ≤ stream.length

/-- A complete frame is processed or refused: the receive loop does not wait for
more of it. -/
theorem process_frame_ne_stop (env : WsEnv) (conn : WsConnection) (header : FrameHeader)
    (payload following : List UInt8) : process_frame env conn header payload following ≠ .stop := by
  unfold process_frame
  split
  · unfold process_data_frame
    split
    · split
      · exact FrameStep.noConfusion
      · split
        · dsimp only
          split <;> exact FrameStep.noConfusion
        · exact FrameStep.noConfusion
    · split
      · exact FrameStep.noConfusion
      · split
        · split <;> exact FrameStep.noConfusion
        · exact FrameStep.noConfusion
  · split
    · exact FrameStep.noConfusion
    · split
      · split <;> exact FrameStep.noConfusion
      · exact FrameStep.noConfusion

theorem StartsWithFrame.next_ne_more {stream : List UInt8} (h : StartsWithFrame stream) (is_server : Bool)
    (max_frame_size : Int) : next_frame is_server max_frame_size stream ≠ .more := by
  have htwo := two_le_header_need stream
  have hheader := h.header
  unfold next_frame
  rw [if_neg (by omega)]
  cases hparse : uvhttp_ws_parse_frame_header stream with
  | error error =>
    dsimp only
    rw [if_neg (by omega)]
    simp
  | ok parsed =>
    obtain ⟨header, header_size⟩ := parsed
    dsimp only
    rw [if_neg (Nat.not_lt.mpr (h.body header header_size hparse))]
    split <;> simp

/-- The receive loop does not go past a complete frame that it does not accept. -/
theorem process_frames_refused {env : WsEnv} {conn : WsConnection} (hframe : StartsWithFrame conn.recv_buffer)
    (h : accepted_frame env conn = none) :
    (process_frames env conn.recv_buffer.length conn).1 = .INVALID_PARAM := by
  have hlen : 2 ≤ conn.recv_buffer.length := Nat.le_trans (two_le_header_need _) hframe.header
  obtain ⟨fuel, hfuel⟩ := Nat.exists_eq_add_of_le' (show 1 ≤ conn.recv_buffer.length by omega)
  rw [hfuel, process_frames, if_neg (by omega)]
  cases hstep : process_step env conn with
  | stop =>
    have hmore := hframe.next_ne_more conn.is_server conn.max_frame_size
    rw [process_step_eq env hlen] at hstep
    cases hnext : conn.profile.decoder.next conn.recv_buffer with
    | more => exact absurd hnext hmore
    | bad =>
      rw [hnext] at hstep
      cases hstep
    | frame frame total =>
      rw [hnext] at hstep
      cases hprocessed : process_frame env (unmask_frame conn frame.2 total) frame.1 frame.2
          (conn.recv_buffer.drop total) with
      | stop => exact absurd hprocessed (process_frame_ne_stop _ _ _ _ _)
      | fail failed events =>
        dsimp only at hstep
        rw [hprocessed] at hstep
        cases hstep
      | next after events =>
        dsimp only at hstep
        rw [hprocessed] at hstep
        cases hstep
  | fail conn' events => rfl
  | next conn' events =>
    obtain ⟨header, payload, total, after, hnext, -, -⟩ := process_step_next hlen hstep
    have hframe : next_frame conn.is_server conn.max_frame_size conn.recv_buffer =
        .frame (header, payload) total := hnext
    rw [accepted_frame, hframe, hstep] at h
    cases h

/-- A complete first frame that is not accepted ends the connection. -/
theorem process_data_refused {env : WsEnv} {conn : WsConnection} (hconn : conn.JustOpened) {stream : List UInt8}
    (hframe : StartsWithFrame stream) (h : first_frame env conn stream = none) :
    (uvhttp_ws_process_data env conn stream).1 = .INVALID_PARAM := by
  have hsmall : conn.recv_buffer_size ≤ SIZE_MAX / 2 := by
    rw [hconn.buffer_size]
    decide
  unfold first_frame at h
  unfold uvhttp_ws_process_data
  by_cases hroom : has_room env conn stream.length
  · obtain ⟨recv_stale, recv_buffer_size, hgrow⟩ := grow_recv_buffer_room hconn.buffer hsmall hroom
    rw [hgrow] at h ⊢
    dsimp only at h ⊢
    rw [hconn.buffer, List.nil_append] at h ⊢
    exact process_frames_refused hframe h
  · obtain ⟨conn', hgrow⟩ := grow_recv_buffer_no_room hconn.buffer hsmall hroom
    rw [hgrow]

/-- The two receive paths agree on the first frame of a stream: both take it, and
as the same frame, or neither does. -/
structure PathsAgree (env : WsEnv) (reader : WsReader) (s : RecvState) : Prop where
  accepted : (frame_received (uvhttp_ws_recv_frame env reader s)).isSome = true ↔
    (first_frame env s.conn s.incoming).isSome = true
  same : ∀ received buffered, frame_received (uvhttp_ws_recv_frame env reader s) = some received →
    first_frame env s.conn s.incoming = some buffered →
      received.1.opcode = buffered.1.opcode ∧ received.1.fin = buffered.1.fin ∧ received.2 = buffered.2

/-- On a server connection just opened and a transport that returns all bytes
asked for, `uvhttp_ws_recv_frame` and `uvhttp_ws_process_data` take the same first
frames exactly when the frame is refused by a check that both make (its header
does not parse, or its payload is above `max_frame_size`), or the blocking path
finds memory for the payload exactly when the frame passes what only the buffered
parser asks. -/
theorem receive_paths_agree_iff {env : WsEnv} {reader : WsReader} (hfull : reader.Full) {s : RecvState}
    (hconn : s.conn.JustOpened) (hframe : StartsWithFrame s.incoming) :
    PathsAgree env reader s ↔
      ∀ header header_size, uvhttp_ws_parse_frame_header s.incoming = .ok (header, header_size) →
        header.payload_length ≤ size_t s.conn.max_frame_size →
        (has_memory env (payload_call s.conn header header_size) header.payload_length ↔
          Buffered env s.conn s.incoming.length header) := by
  cases hparse : uvhttp_ws_parse_frame_header s.incoming with
  | error error =>
    have hreceived : frame_received (uvhttp_ws_recv_frame env reader s) = none :=
      recv_frame_malformed hfull hparse hframe.header
    have hbuffered : first_frame env s.conn s.incoming = none := first_frame_malformed hconn hparse
    refine ⟨fun _ header header_size h => ?_, fun _ => ⟨?_, fun received buffered h => ?_⟩⟩
    · cases h
    · rw [hreceived, hbuffered]
    · rw [hreceived] at h
      cases h
  | ok parsed =>
    obtain ⟨header, header_size⟩ := parsed
    have htotal := hframe.body header header_size hparse
    have hreceived := @recv_frame_received env reader hfull s header header_size hparse htotal
    have hbuffered := @first_frame_iff env s.conn hconn s.incoming header header_size hparse htotal
    have hsome : ∀ {found : Option Frame} {taken : Prop},
        (∀ frame, found = some frame ↔ taken ∧ frame = (header, frame_payload s.incoming header header_size)) →
        (found.isSome = true ↔ taken) := by
      intro found taken h
      rw [Option.isSome_iff_exists]
      exact ⟨fun ⟨frame, hfound⟩ => ((h frame).mp hfound).1, fun htaken => ⟨_, (h _).mpr ⟨htaken, rfl⟩⟩⟩
    constructor
    · rintro hagree header' header_size' h hlimit
      cases h
      have hboth := hagree.accepted
      rw [hsome hreceived, hsome hbuffered] at hboth
      exact ⟨fun hmemory => (hboth.mp ⟨hlimit, hmemory⟩).2, fun hpasses => (hboth.mpr ⟨hlimit, hpasses⟩).2⟩
    · intro hcond
      refine ⟨?_, fun received buffered hr hb => ?_⟩
      · rw [hsome hreceived, hsome hbuffered]
        exact and_congr_right fun hlimit => hcond header header_size rfl hlimit
      · rw [((hreceived received).mp hr).2, ((hbuffered buffered).mp hb).2]
        exact ⟨rfl, rfl, rfl⟩

/-- A transport that returns what it is asked for. -/
def WsReader.whole : WsReader where
  recv := fun _ size => size
  ssl_read := fun _ size => size

theorem WsReader.whole_full : WsReader.whole.Full := ⟨fun _ _ => rfl, fun _ _ => rfl⟩

theorem opened_justOpened (max_frame_size max_message_size : Int) :
    (opened max_frame_size max_message_size).JustOpened :=
  ⟨rfl, rfl, rfl, rfl, rfl⟩

/-- A masked text frame of one byte, with a byte of the next frame behind it: the buffered
path takes that frame first. -/
theorem receive_paths_agree_text :
    PathsAgree .obliging .whole ⟨opened 1024 1024, [0x81, 0x81, 1, 2, 3, 4, 0x61, 0x81], 0, 0⟩ ∧
      (process_data_log .obliging (opened 1024 1024) [0x81, 0x81, 1, 2, 3, 4, 0x61, 0x81]).head?.map Prod.fst =
        some (parse_first_bytes 0x81 0x81) := by
  have hparse : uvhttp_ws_parse_frame_header [0x81, 0x81, 1, 2, 3, 4, 0x61, 0x81] =
      .ok (parse_first_bytes 0x81 0x81, 2) := rfl
  refine ⟨?_, by rw [← first_frame_header]; decide⟩
  apply (receive_paths_agree_iff WsReader.whole_full (opened_justOpened 1024 1024) ⟨by decide, ?_⟩).mpr
  · intro header header_size h _
    cases hparse.symm.trans h
    have hsequenced : Sequenced .obliging 1024 0 (parse_first_bytes 0x81 0x81) :=
      ⟨by decide, fun _ => by decide, fun _ => by decide⟩
    exact ⟨fun _ => ⟨by decide, by decide, by decide, .inl (by decide), hsequenced⟩, fun _ => .inr rfl⟩
  · intro header header_size h
    cases hparse.symm.trans h
    decide

/-- A text frame that is not masked: a server must refuse it, and only the
buffered path does. -/
theorem receive_paths_disagree_unmasked :
    WsReader.whole.Full ∧ (opened 1024 1024).JustOpened ∧ StartsWithFrame [0x81, 0x01, 0x61] ∧
      (uvhttp_ws_process_data .obliging (opened 1024 1024) [0x81, 0x01, 0x61]).1 = .INVALID_PARAM ∧
      ¬ PathsAgree .obliging .whole ⟨opened 1024 1024, [0x81, 0x01, 0x61], 0, 0⟩ := by
  have hparse : uvhttp_ws_parse_frame_header [0x81, 0x01, 0x61] = .ok (parse_first_bytes 0x81 0x01, 2) := rfl
  have hframe : StartsWithFrame [0x81, 0x01, 0x61] := by
    refine ⟨by decide, fun header header_size h => ?_⟩
    cases hparse.symm.trans h
    decide
  have hbuffered : first_frame .obliging (opened 1024 1024) [0x81, 0x01, 0x61] = none := by decide
  refine ⟨WsReader.whole_full, opened_justOpened 1024 1024, hframe,
    process_data_refused (opened_justOpened 1024 1024) hframe hbuffered, fun hagree => ?_⟩
  have hboth := hagree.accepted.mp (by decide)
  rw [hbuffered] at hboth
  cases hboth

end uvhttp.websocket
