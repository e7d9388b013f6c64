import Uvhttp.WebSocket.Sending

open incremental

namespace uvhttp.websocket

/-- A frame that is alone in the receive buffer is handled, and nothing else. -/
theorem process_frames_one {env : WsEnv} {conn conn' : WsConnection} {payload : List UInt8} {header : FrameHeader}
    {events : List WsEvent}
    (hnext : (decoder conn.is_server conn.max_frame_size).next conn.recv_buffer =
      .frame (header, payload) conn.recv_buffer.length)
    (hstep : process_frame env (unmask_frame conn payload conn.recv_buffer.length) header payload [] =
      .next conn' events)
    (hkept : Kept (unmask_frame conn payload conn.recv_buffer.length) conn') {fuel : Nat} (hfuel : 0 < fuel) :
    process_frames env fuel conn = (.OK, remove_frame conn' conn.recv_buffer.length, events) := by
  have htwo : ¬ conn.recv_buffer.length < 2 := by
    intro hshort
    simp only [decoder, next_frame] at hnext
    rw [if_pos hshort] at hnext
    cases hnext
  have hleft : (remove_frame conn' conn.recv_buffer.length).recv_buffer = [] := by
    rw [remove_frame_kept hkept (decoder_payload_le hnext) (Nat.le_refl _)]
    exact List.drop_length
  have hdone : ∀ fuel, process_frames env fuel (remove_frame conn' conn.recv_buffer.length) =
      (.OK, remove_frame conn' conn.recv_buffer.length, []) := by
    intro fuel
    cases fuel with
    | zero => rfl
    | succ fuel => rw [process_frames, hleft, if_pos (by decide)]
  have hturn : process_step env conn = .next (remove_frame conn' conn.recv_buffer.length) events := by
    rw [process_step_eq env (by omega), show conn.profile.decoder = decoder conn.is_server conn.max_frame_size from rfl,
      hnext]
    dsimp only
    rw [List.drop_length, hstep]
    rfl
  cases fuel with
  | zero => cases hfuel
  | succ fuel =>
    rw [process_frames, if_neg htwo, hturn]
    dsimp only
    rw [hdone, List.append_nil]

/-- What is registered on the other end of a connection, which has received
nothing yet. -/
structure Peer (conn peer : WsConnection) : Prop where
  state : peer.state = .OPEN
  role : peer.is_server = !conn.is_server
  recv_buffer : peer.recv_buffer = []
  fragmented_message : peer.fragmented_message = none
  recv_buffer_size : 64 * 1024 ≤ peer.recv_buffer_size
  on_message : peer.on_message = true
  on_close : peer.on_close = true

/-- The reason given to `uvhttp_ws_close`, as a C string. -/
def reason_string (reason : Option (List UInt8)) : List UInt8 := (reason.map cstr).getD []

/-- The callbacks that tell of a frame: its message, or its close code and
reason, cut to what fits into a control frame. -/
def WsSend.Reported : WsSend → List WsEvent → Prop
  | .text data, events => events = [.on_message OPCODE_TEXT data]
  | .binary data, events => events = [.on_message OPCODE_BINARY data]
  | .ping _, events => events = []
  | .pong _, events => events = []
  | .close code reason, events =>
    ∃ reported : Nat, (reported : Int) = code ∧ events = [.on_close reported (some ((reason_string reason).take 123))]

/-- The peer takes the bytes for the frame that was sent, and reports it. -/
structure Agrees (op : WsSend) (env : WsEnv) (peer : WsConnection) (bytes : List UInt8) : Prop where
  accepted : (uvhttp_ws_process_data env peer bytes).1 = .OK
  frame : ∃ header, next_frame peer.is_server peer.max_frame_size bytes = .frame (header, op.payload) bytes.length ∧
    header.opcode = op.opcode
  report : op.Reported (callbacks (uvhttp_ws_process_data env peer bytes).2.2)

/-- The bytes that the frame of a call takes. -/
def WsSend.frame_length (conn : WsConnection) (op : WsSend) : Nat :=
  frame_header_size op.payload.length + op.payload.length + if conn.is_server then 0 else 4

/-- The callbacks that the frame of a call makes on a connection that holds it. -/
def WsSend.made (received : WsConnection) : WsSend → List WsEvent
  | .text data => [.on_message OPCODE_TEXT data]
  | .binary data => [.on_message OPCODE_BINARY data]
  | .ping _ => []
  | .pong _ => []
  | .close code reason =>
    [.on_close (be_value ((close_payload code reason).take 2))
      (if 2 < (close_payload code reason).length then read_string received ((close_payload code reason).drop 2)
      else some [])]

/-- What the receiver can make of the contents: control frames carry at most 125
bytes, close codes have 16 bits, and the byte behind a reason in the receive
buffer ends it. -/
def WsSend.Sound (conn peer : WsConnection) : WsSend → Prop
  | .text _ => True
  | .binary _ => True
  | .ping data => data.length ≤ 125
  | .pong data => data.length ≤ 125
  | .close code reason => 0 ≤ code ∧ code < 2 ^ 16 ∧ (reason_string reason).length ≤ 123 ∧
      (reason_string reason = [] ∨ peer.recv_stale (WsSend.frame_length conn (.close code reason)) = 0)

/-- The frame of a call reaches the peer: the transport takes it whole, it fits
the receive buffer, and its contents are sound. -/
structure WsSend.Carried (env : WsEnv) (conn peer : WsConnection) (op : WsSend) : Prop where
  whole : op.frame_length conn ≤ taken env conn.ssl ((op.sender conn).calls + 2) (op.frame_length conn)
  room : op.frame_length conn ≤ peer.recv_limit
  sound : op.Sound conn peer

theorem length_close_payload (code : Int) (reason : Option (List UInt8)) :
    (close_payload code reason).length = 2 + min 125 (reason_string reason).length := by
  cases reason with
  | none => rfl
  | some reason =>
    simp only [close_payload, reason_string, List.length_cons, List.length_take, Option.map_some, Option.getD_some]
    omega

theorem process_data_frame_whole {env : WsEnv} (henv : env.Tame) {received : WsConnection} {header : FrameHeader}
    {payload : List UInt8} (hnone : received.fragmented_message = none) (hcallback : received.on_message = true)
    (hfin : header.fin = true) (hopcode : header.opcode ≠ OPCODE_CONTINUATION) :
    ∃ conn' events, process_data_frame env received header payload = .next conn' events ∧ Kept received conn' ∧
      callbacks events = [.on_message header.opcode payload] := by
  refine ⟨_, (deliver_message env received header.opcode payload).2, ?_,
    (deliver_message_undisturbed henv.discreet received header.opcode payload).toKept, ?_⟩
  · rw [process_data_frame, hnone]
    simp [hopcode, hfin]
  · rw [deliver_message, if_pos hcallback]
    rfl

/-- The frame of a call makes the callbacks that belong to it. -/
theorem WsSend.process_frame_made {env : WsEnv} (henv : env.Tame) {received : WsConnection} {header : FrameHeader}
    {op : WsSend} (hnone : received.fragmented_message = none) (hmessage : received.on_message = true)
    (hclose : received.on_close = true) (hfin : header.fin = true) (hopcode : header.opcode = op.opcode) :
    ∃ conn' events, process_frame env received header op.payload [] = .next conn' events ∧ Kept received conn' ∧
      callbacks events = op.made received := by
  unfold process_frame
  cases op with
  | text data =>
    change header.opcode = OPCODE_TEXT at hopcode
    have hdata := @process_data_frame_whole env henv received header data hnone hmessage hfin (by rw [hopcode]; decide)
    rw [if_pos (.inl hopcode)]
    rw [hopcode] at hdata
    exact hdata
  | binary data =>
    change header.opcode = OPCODE_BINARY at hopcode
    have hdata := @process_data_frame_whole env henv received header data hnone hmessage hfin (by rw [hopcode]; decide)
    rw [if_pos (.inr (.inl hopcode))]
    rw [hopcode] at hdata
    exact hdata
  | ping data =>
    change header.opcode = OPCODE_PING at hopcode
    rw [if_neg (by rw [hopcode]; decide), if_neg (by rw [hopcode]; decide), if_pos hopcode]
    split
    · have hpong := send_frame_moves env received data OPCODE_PONG
      exact ⟨_, _, rfl, hpong.1.kept, hpong.2⟩
    · exact ⟨_, _, rfl, (Undisturbed.refl received).toKept, rfl⟩
  | pong data =>
    change header.opcode = OPCODE_PONG at hopcode
    rw [if_neg (by rw [hopcode]; decide), if_neg (by rw [hopcode]; decide), if_neg (by rw [hopcode]; decide)]
    exact ⟨_, _, rfl, (Undisturbed.refl received).toKept, rfl⟩
  | close code reason =>
    change header.opcode = OPCODE_CLOSE at hopcode
    rw [if_neg (by rw [hopcode]; decide), if_pos hopcode]
    change ∃ conn' events, process_close_frame env received (close_payload code reason) [] = .next conn' events ∧ _
    have hecho := echo_close_moves env received.user_data
      (deliver_close env received (close_payload code reason) []).1 (close_payload code reason)
    have hclosed := ((deliver_close_undisturbed henv.discreet received (close_payload code reason) []).trans
      hecho.1.undisturbed).trans (.with_state _ .CLOSED)
    refine ⟨_, _, rfl, hclosed.toKept, ?_⟩
    have htwo : 2 ≤ (close_payload code reason).length := by
      rw [length_close_payload]
      omega
    rw [callbacks_append, hecho.2, List.append_nil, deliver_close]
    simp only [hclose, if_true, if_pos htwo, List.append_nil]
    rfl

section receiving

variable {conn peer : WsConnection} (h : Peer conn peer) {op : WsSend} {wire : WireFrame}

/-- The frame on the wire is the one of the call. -/
structure WsSend.Wired (conn : WsConnection) (op : WsSend) (wire : WireFrame) : Prop where
  fin : wire.fin = true
  opcode : wire.opcode = op.opcode
  mask : wire.mask = !conn.is_server
  payload : wire.payload = op.payload

theorem WsSend.Wired.length_bytes (hwired : op.Wired conn wire) : wire.bytes.length = op.frame_length conn := by
  rw [wire.length_bytes, total_frame_size, hwired.payload, WsSend.frame_length]
  simp only [built_header, hwired.mask]
  cases conn.is_server with
  | true => rfl
  | false => rfl

theorem WsSend.opcode_and (op : WsSend) : op.opcode &&& 0x0F = op.opcode := by
  cases op with
  | text data => exact (by decide : OPCODE_TEXT &&& 0x0F = OPCODE_TEXT)
  | binary data => exact (by decide : OPCODE_BINARY &&& 0x0F = OPCODE_BINARY)
  | ping data => exact (by decide : OPCODE_PING &&& 0x0F = OPCODE_PING)
  | pong data => exact (by decide : OPCODE_PONG &&& 0x0F = OPCODE_PONG)
  | close code reason => exact (by decide : OPCODE_CLOSE &&& 0x0F = OPCODE_CLOSE)

include h in
/-- The receiver refuses only control frames that are too long. -/
theorem WsSend.Wired.refused_iff (hwired : op.Wired conn wire)
    (hlimit : op.payload.length ≤ size_t peer.max_frame_size) :
    header_refused peer.is_server peer.max_frame_size wire.frame.1 ↔
      op.opcode ≥ OPCODE_CLOSE ∧ 125 < op.payload.length := by
  have hmask : (peer.is_server && !wire.mask) = false := by
    rw [hwired.mask, h.role]
    cases conn.is_server with
    | true => rfl
    | false => rfl
  simp only [header_refused, WireFrame.frame, built_header, hwired.payload, hwired.opcode, op.opcode_and, hwired.fin,
    hmask, Bool.or_self, Bool.false_eq_true, false_or, Bool.not_true, or_false, gt_iff_lt]
  constructor
  · rintro (hlong | hlarge)
    · exact hlong
    · omega
  · exact .inl

/-- What the peer holds when the whole frame has arrived. -/
structure Arrived (peer received : WsConnection) (bytes : List UInt8) : Prop where
  room : SameRoom peer received
  recv_buffer : received.recv_buffer = bytes
  fragmented_message : received.fragmented_message = peer.fragmented_message
  on_message : received.on_message = peer.on_message
  on_close : received.on_close = peer.on_close
  stale : bytes.length ≤ peer.recv_buffer_size →
    received.recv_stale = peer.recv_stale ∧ received.recv_buffer_size = peer.recv_buffer_size

include h in
theorem Peer.arrives {env : WsEnv} (henv : env.Tame) {bytes : List UInt8} (hroom : bytes.length ≤ peer.recv_limit) :
    ∃ received, Arrived peer received bytes ∧
      uvhttp_ws_process_data env peer bytes = process_frames env bytes.length received := by
  have hpos : 0 < peer.recv_buffer_size := Nat.lt_of_lt_of_le (by decide) h.recv_buffer_size
  have hgrow := grow_recv_buffer_spec henv.alloc hpos bytes.length
  rw [h.recv_buffer, List.length_nil, Nat.zero_add, if_pos hroom] at hgrow
  obtain ⟨grown, heq, hreceiver, hprofile, hbuffer, -, hgrown, hlimit⟩ := hgrow
  refine ⟨{ grown with recv_buffer := bytes }, ⟨?_, rfl, ?_, ?_, ?_, ?_⟩, ?_⟩
  · exact ⟨congrArg Profile.is_server hprofile, congrArg Profile.max_frame_size hprofile,
      congrArg Profile.max_message_size hprofile, hlimit, fun _ => hgrown⟩
  · exact congrArg Receiver.message hreceiver
  · exact congrArg Profile.on_message hprofile
  · exact congrArg Profile.on_close hprofile
  · intro hsmall
    rw [grow_recv_buffer, h.recv_buffer, List.length_nil, Nat.zero_add, if_neg (by omega)] at heq
    cases heq
    exact ⟨rfl, rfl⟩
  · rw [uvhttp_ws_process_data, heq]
    dsimp only
    rw [hbuffer, List.nil_append]

include h in
theorem Peer.overflows {env : WsEnv} (henv : env.Tame) {bytes : List UInt8} (hroom : ¬ bytes.length ≤ peer.recv_limit) :
    (uvhttp_ws_process_data env peer bytes).1 = .INVALID_PARAM := by
  have hpos : 0 < peer.recv_buffer_size := Nat.lt_of_lt_of_le (by decide) h.recv_buffer_size
  have hgrow := grow_recv_buffer_spec henv.alloc hpos bytes.length
  rw [h.recv_buffer, List.length_nil, Nat.zero_add, if_neg hroom] at hgrow
  rw [uvhttp_ws_process_data, hgrow]

/-- The string that starts in the receive buffer depends on nothing else. -/
theorem read_string_congr {received other : WsConnection} (hstale : received.recv_stale = other.recv_stale)
    (hsize : received.recv_buffer_size = other.recv_buffer_size)
    (hlen : received.recv_buffer.length = other.recv_buffer.length) (text : List UInt8) :
    read_string received text = read_string other text := by
  induction text with
  | nil => rw [read_string, read_string, hstale, hsize, hlen]
  | cons c text ih => rw [read_string, read_string, ih]

include h in
/-- The callbacks can be told from the peer and the frame. -/
theorem WsSend.Wired.made_arrived (hwired : op.Wired conn wire) {received : WsConnection}
    (harrived : Arrived peer received wire.bytes) :
    op.made (unmask_frame received op.payload wire.bytes.length) = op.made { peer with recv_buffer := wire.bytes } := by
  cases op with
  | text data => rfl
  | binary data => rfl
  | ping data => rfl
  | pong data => rfl
  | close code reason =>
    have hlen : wire.payload.length ≤ 127 := by
      rw [hwired.payload, WsSend.payload, length_close_payload]
      omega
    have hbytes : wire.bytes.length = frame_header_size wire.payload.length + wire.payload.length +
        if wire.mask then 4 else 0 := wire.length_bytes
    have hheader : frame_header_size wire.payload.length ≤ 4 := by
      rw [frame_header_size]
      split
      · omega
      · rw [if_pos (by omega)]
    have hpeer := h.recv_buffer_size
    have hsmall : wire.bytes.length ≤ peer.recv_buffer_size := by
      split at hbytes
      · omega
      · omega
    have hpayload : wire.payload.length ≤ wire.bytes.length := by omega
    rw [hwired.payload] at hpayload
    obtain ⟨hstale, hsize⟩ := harrived.stale hsmall
    have hlength : (unmask_frame received (close_payload code reason) wire.bytes.length).recv_buffer.length =
        wire.bytes.length := by
      rw [unmask_frame]
      dsimp only
      rw [harrived.recv_buffer, List.drop_length, List.append_nil, List.length_append, List.length_take]
      change (close_payload code reason).length ≤ _ at hpayload
      omega
    have hstring := @read_string_congr (unmask_frame received (close_payload code reason) wire.bytes.length)
      { peer with recv_buffer := wire.bytes } hstale hsize hlength ((close_payload code reason).drop 2)
    rw [WsSend.made, WsSend.made, WsSend.payload, hstring]

include h in
/-- The whole frame of a call arrives. -/
theorem WsSend.Wired.agrees_iff {env : WsEnv} (henv : env.Tame) (hwired : op.Wired conn wire)
    (hobject : op.payload.length < 2 ^ 63) (hlimit : op.payload.length ≤ size_t peer.max_frame_size) :
    Agrees op env peer wire.bytes ↔ wire.bytes.length ≤ peer.recv_limit ∧
      ¬ (op.opcode ≥ OPCODE_CLOSE ∧ 125 < op.payload.length) ∧
      op.Reported (op.made { peer with recv_buffer := wire.bytes }) := by
  have hnext := wire.next_bytes peer.is_server peer.max_frame_size (by rw [hwired.payload]; exact hobject) []
  rw [List.append_nil] at hnext
  rw [← hwired.refused_iff h hlimit]
  by_cases hroom : wire.bytes.length ≤ peer.recv_limit
  · by_cases hrefused : header_refused peer.is_server peer.max_frame_size wire.frame.1
    · rw [if_pos hrefused] at hnext
      refine iff_of_false (fun hagrees => ?_) (fun hall => hall.2.1 hrefused)
      obtain ⟨header, hframe, -⟩ := hagrees.frame
      have hsame : (decoder peer.is_server peer.max_frame_size).next wire.bytes = _ := hframe
      rw [hnext] at hsame
      cases hsame
    · rw [if_neg hrefused] at hnext
      have hframe : wire.frame = (wire.frame.1, op.payload) := by
        rw [← hwired.payload]
        rfl
      have hopcode : wire.frame.1.opcode = op.opcode := by
        rw [WireFrame.frame_opcode, hwired.opcode, op.opcode_and]
      obtain ⟨received, harrived, hprocess⟩ := h.arrives henv hroom
      obtain ⟨conn', events, hstep, hkept, hmade⟩ := @WsSend.process_frame_made env henv
        (unmask_frame received op.payload received.recv_buffer.length) wire.frame.1 op
        (harrived.fragmented_message.trans h.fragmented_message) (harrived.on_message.trans h.on_message)
        (harrived.on_close.trans h.on_close) hwired.fin hopcode
      have htaken : (decoder received.is_server received.max_frame_size).next received.recv_buffer =
          .frame (wire.frame.1, op.payload) received.recv_buffer.length := by
        rw [harrived.room.is_server, harrived.room.max_frame_size, harrived.recv_buffer, hnext, ← hframe]
      have hresult := process_frames_one htaken hstep hkept (Decoder.size_pos _ hnext)
      rw [harrived.recv_buffer, hwired.made_arrived h harrived] at hmade
      constructor
      · intro hagrees
        have hreport := hagrees.report
        rw [hprocess, hresult, hmade] at hreport
        exact ⟨hroom, hrefused, hreport⟩
      · rintro ⟨-, -, hreport⟩
        refine ⟨by rw [hprocess, hresult], ⟨wire.frame.1, ?_, hopcode⟩, ?_⟩
        · rw [← hframe]
          exact hnext
        · rw [hprocess, hresult, hmade]
          exact hreport
  · refine iff_of_false (fun hagrees => ?_) (fun hall => hroom hall.1)
    have haccepted := hagrees.accepted
    rw [h.overflows henv hroom] at haccepted
    cases haccepted

end receiving

theorem zero_notMem_reason_string (reason : Option (List UInt8)) : 0 ∉ reason_string reason := by
  intro hmem
  cases reason with
  | none => cases hmem
  | some reason =>
    have hnonzero := List.mem_takeWhile_imp hmem
    simp at hnonzero

theorem drop_close_payload (code : Int) (reason : Option (List UInt8)) :
    (close_payload code reason).drop 2 = (reason_string reason).take 125 := by
  cases reason with
  | none => rfl
  | some reason => rfl

/-- The code arrives when it has 16 bits. -/
theorem close_code_iff (code : Int) (reason : Option (List UInt8)) :
    (be_value ((close_payload code reason).take 2) : Int) = code ↔ 0 ≤ code ∧ code < 2 ^ 16 := by
  have hvalue : be_value ((close_payload code reason).take 2) =
      (code / 256 % 256).toNat * 256 + (code % 256).toNat := by
    simp only [close_payload, List.take_succ_cons, List.take_zero, be_value, List.foldl_cons, List.foldl_nil,
      UInt8.toNat_ofNat']
    omega
  rw [hvalue]
  omega

/-- A string without NUL runs on into the stale part of the buffer. -/
theorem read_string_unterminated (conn : WsConnection) {text : List UInt8} (h : 0 ∉ text) :
    read_string conn text = (read_string conn []).map (text ++ ·) := by
  induction text with
  | nil => simp
  | cons c text ih =>
    rw [List.mem_cons, not_or] at h
    have hread : read_string conn (c :: text) = (read_string conn text).map (c :: ·) := if_neg (Ne.symm h.1)
    rw [hread, ih h.2, Option.map_map]
    rfl

/-- The reason arrives when the byte behind the frame ends it. -/
theorem read_string_iff {conn : WsConnection} {text : List UInt8} (h : 0 ∉ text)
    (hroom : conn.recv_buffer.length < conn.recv_buffer_size) :
    read_string conn text = some text ↔ conn.recv_stale conn.recv_buffer.length = 0 := by
  obtain ⟨count, hcount⟩ : ∃ count, conn.recv_buffer_size - conn.recv_buffer.length = count + 1 :=
    ⟨conn.recv_buffer_size - conn.recv_buffer.length - 1, by omega⟩
  rw [read_string_unterminated conn h, read_string, hcount, stale_string]
  by_cases hzero : conn.recv_stale conn.recv_buffer.length = 0
  · simp [hzero]
  · rw [if_neg hzero]
    refine iff_of_false ?_ hzero
    cases stale_string conn.recv_stale (conn.recv_buffer.length + 1) count with
    | none => simp
    | some rest => simp

/-- The contents that reach the callbacks. -/
theorem WsSend.sound_iff {conn peer : WsConnection} (h : Peer conn peer) {op : WsSend} {wire : WireFrame}
    (hwired : op.Wired conn wire) :
    (¬ (op.opcode ≥ OPCODE_CLOSE ∧ 125 < op.payload.length) ∧
        op.Reported (op.made { peer with recv_buffer := wire.bytes })) ↔ op.Sound conn peer := by
  cases op with
  | text data => exact iff_of_true ⟨fun hlong => absurd hlong.1 (by decide : ¬ OPCODE_TEXT ≥ OPCODE_CLOSE), rfl⟩ trivial
  | binary data =>
    exact iff_of_true ⟨fun hlong => absurd hlong.1 (by decide : ¬ OPCODE_BINARY ≥ OPCODE_CLOSE), rfl⟩ trivial
  | ping data =>
    have hcontrol : OPCODE_PING ≥ OPCODE_CLOSE := by decide
    simp only [opcode, payload, Reported, made, Sound, hcontrol, true_and, and_true, Nat.not_lt]
  | pong data =>
    have hcontrol : OPCODE_PONG ≥ OPCODE_CLOSE := by decide
    simp only [opcode, payload, Reported, made, Sound, hcontrol, true_and, and_true, Nat.not_lt]
  | close code reason =>
    have hcontrol : OPCODE_CLOSE ≥ OPCODE_CLOSE := by decide
    simp only [opcode, payload, Reported, made, Sound, hcontrol, true_and, Nat.not_lt, length_close_payload,
      drop_close_payload]
    by_cases hshort : (reason_string reason).length ≤ 123
    · rw [List.take_of_length_le (show (reason_string reason).length ≤ 125 by omega),
        List.take_of_length_le hshort, ← hwired.length_bytes]
      have hlen : wire.bytes.length < peer.recv_buffer_size := by
        have hsize := h.recv_buffer_size
        have hpayload : wire.payload.length ≤ 125 := by
          rw [hwired.payload, payload, length_close_payload]
          omega
        have hbytes : wire.bytes.length = frame_header_size wire.payload.length + wire.payload.length +
            if wire.mask then 4 else 0 := wire.length_bytes
        rw [frame_header_size, if_pos (by omega)] at hbytes
        split at hbytes
        · omega
        · omega
      have hstring : (if 2 < 2 + min 125 (reason_string reason).length then
            read_string { peer with recv_buffer := wire.bytes } (reason_string reason) else some []) =
            some (reason_string reason) ↔
          reason_string reason = [] ∨ peer.recv_stale wire.bytes.length = 0 := by
        by_cases hempty : reason_string reason = []
        · simp [hempty]
        · have hpos := List.length_pos_iff.mpr hempty
          rw [if_pos (by omega)]
          have hread := @read_string_iff { peer with recv_buffer := wire.bytes } _ (zero_notMem_reason_string reason)
            hlen
          simp only [hempty, false_or]
          exact hread
      have hcode := close_code_iff code reason
      constructor
      · rintro ⟨-, reported, hreported, hevents⟩
        simp only [List.cons.injEq, WsEvent.on_close.injEq, and_true] at hevents
        rw [← hevents.1, hcode] at hreported
        exact ⟨hreported.1, hreported.2, hshort, hstring.mp hevents.2⟩
      · rintro ⟨hlow, hhigh, -, hended⟩
        refine ⟨by omega, _, hcode.mpr ⟨hlow, hhigh⟩, ?_⟩
        rw [hstring.mpr hended]
    · refine iff_of_false ?_ ?_
      · rintro ⟨hlong, -⟩
        omega
      · rintro ⟨-, -, hlen, -⟩
        exact hshort hlen

/-- A frame that a send call reports as sent is taken by the peer for what it is,
and reported with its contents, exactly when the transport has taken all of it,
it fits the peer's receive buffer, and its contents are sound. -/
theorem sent_agrees_iff {env penv : WsEnv} (hrandom : ∀ calls key, env.random calls = some key → key.length = 4)
    (henv : penv.Tame) {conn peer : WsConnection} (h : Peer conn peer) {op : WsSend}
    (hobject : op.payload.length < 2 ^ 63) (hlimit : op.payload.length ≤ size_t peer.max_frame_size)
    (hok : (op.perform env conn).1 = .OK) :
    Agrees op penv peer (emitted (op.perform env conn).2.2) ↔ op.Carried env conn peer := by
  obtain ⟨wire, hfin, hopcode, hmask, hpayload, hemitted⟩ := WsSend.perform_ok hrandom hok
  have hwired : op.Wired conn wire := ⟨hfin, hopcode, hmask, hpayload⟩
  have hlen := hwired.length_bytes
  rw [hemitted, hlen]
  by_cases hwhole : op.frame_length conn ≤ taken env conn.ssl ((op.sender conn).calls + 2) (op.frame_length conn)
  · rw [List.take_of_length_le (by omega), hwired.agrees_iff h henv hobject hlimit, WsSend.sound_iff h hwired, hlen]
    constructor
    · rintro ⟨hroom, hsound⟩
      exact ⟨hwhole, hroom, hsound⟩
    · intro hcarried
      exact ⟨hcarried.room, hcarried.sound⟩
  · refine iff_of_false (fun hagrees => ?_) (fun hcarried => hwhole hcarried.whole)
    obtain ⟨header, hframe, -⟩ := hagrees.frame
    have hnext : (decoder peer.is_server peer.max_frame_size).next _ = _ := hframe
    have happend := Decoder.frame_append _ (wire.bytes.drop
      (taken env conn.ssl ((op.sender conn).calls + 2) (op.frame_length conn))) hnext
    have hwire := wire.next_bytes peer.is_server peer.max_frame_size (by rw [hpayload]; exact hobject) []
    rw [List.take_append_drop] at happend
    rw [List.append_nil, happend] at hwire
    split at hwire
    · cases hwire
    · simp only [Next.frame.injEq] at hwire
      have hshort := hwire.2
      rw [List.length_take] at hshort
      omega

/-- The client's end of `opened`, with both callbacks registered. -/
def opened_client (max_frame_size max_message_size : Int) : WsConnection :=
  { uvhttp_ws_connection_create false false max_frame_size max_message_size (fun _ => 0) with
    state := .OPEN
    on_message := true
    on_close := true }

theorem opened_client_peer (max_frame_size max_message_size : Int) :
    Peer (opened max_frame_size max_message_size) (opened_client max_frame_size max_message_size) :=
  ⟨rfl, rfl, rfl, rfl, Nat.le_refl _, rfl, rfl⟩

/-- A server says goodbye. -/
theorem sent_agrees_close :
    Agrees (.close 1000 (some (bytes "bye"))) .obliging (opened_client 1024 1024)
      (emitted ((WsSend.close 1000 (some (bytes "bye"))).perform .obliging (opened 1024 1024)).2.2) := by
  have hrandom : ∀ calls key, WsEnv.obliging.random calls = some key → key.length = 4 := by
    intro calls key hkey
    cases hkey
    rfl
  refine (sent_agrees_iff hrandom WsEnv.obliging_quiet.tame (opened_client_peer 1024 1024) (by decide) (by decide)
    (by decide)).mpr ⟨by decide, ?_, by decide, by decide, by decide, .inr rfl⟩
  exact Nat.le_trans (by decide) (Nat.le_max_left _ _)

/-- A reason of 124 characters makes a close frame of 126 bytes, which the peer
refuses. -/
theorem sent_close_refused :
    ((WsSend.close 1000 (some (List.replicate 124 0x61))).perform .obliging (opened 1024 1024)).1 = .OK ∧
      ¬ Agrees (.close 1000 (some (List.replicate 124 0x61))) .obliging (opened_client 1024 1024)
        (emitted ((WsSend.close 1000 (some (List.replicate 124 0x61))).perform .obliging (opened 1024 1024)).2.2) := by
  refine ⟨by decide +kernel, fun hagrees => ?_⟩
  have haccepted := hagrees.accepted
  revert haccepted
  decide +kernel

end uvhttp.websocket
