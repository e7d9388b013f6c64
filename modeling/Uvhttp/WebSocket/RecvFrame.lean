import Uvhttp.WebSocket.Chunking

namespace uvhttp.websocket

/-- The receiving side of the transports: what `recv` and `mbedtls_ssl_read`
return at a call when they are asked for so many bytes, negative for an error. -/
structure WsReader where
  recv : Nat → Nat → Int
  ssl_read : Nat → Nat → Int

/-- A connection with the bytes that its transport has still to deliver, and its
counters of what `uvhttp_ws_recv_frame` has received. -/
structure RecvState where
  conn : WsConnection
  incoming : List UInt8
  bytes_received : Nat
  frames_received : Nat

/-- `uvhttp_ws_frame_t`. -/
structure WsFrame where
  header : FrameHeader
  masking_key : List UInt8
  payload : Option (List UInt8)
  payload_size : Nat
  deriving DecidableEq, Repr

/-- A function of the blocking receive path. -/
abbrev Receive := EStateM UvhttpError RecvState

/-- The state after some more calls that have read so many bytes. -/
def RecvState.after (s : RecvState) (calls count : Nat) : RecvState :=
  { s with
    conn := { s.conn with calls := s.conn.calls + calls }
    incoming := s.incoming.drop count }

/-- Ask the transport for `size` bytes. The result is what was stored; it is an
error when the returned count, as an `int`, is not the `int` of `size`. -/
def read_bytes (reader : WsReader) (size : Nat) : Receive (List UInt8) := do
  let s ← get
  let answer := (if s.conn.ssl then reader.ssl_read else reader.recv) s.conn.calls size
  let stored := s.incoming.take (min answer.toNat size)
  let ret := if answer < 0 then answer else int stored.length
  set (s.after 1 stored.length)
  if ret ≠ int size then throw .INVALID_PARAM
  return stored

/-- A part of the frame that is read only when it is there. -/
def read_part (reader : WsReader) (present : Bool) (size : Nat) (absent : List UInt8) : Receive (List UInt8) :=
  if present then read_bytes reader size else pure absent

/-- The header: two bytes tell how long it is, then the rest of it is read. -/
def recv_header (reader : WsReader) : Receive FrameHeader := do
  let first ← read_bytes reader 2
  let header_size := header_need first
  let extended ← read_part reader (header_size > 2) (header_size - 2) []
  match uvhttp_ws_parse_frame_header (first ++ extended) with
  | .error _ => throw .INVALID_PARAM
  | .ok (header, _) => return header

/-- The payload: an allocation of the announced length, filled by the transport
as far as it goes and then unmasked. -/
def recv_payload (env : WsEnv) (reader : WsReader) (header : FrameHeader) (masking_key : List UInt8) :
    Receive (Option (List UInt8)) := do
  if header.payload_length = 0 then return none
  let s ← get
  if header.payload_length > size_t s.conn.max_frame_size then throw .INVALID_PARAM
  set (s.after 1 0)
  if !env.alloc s.conn.calls header.payload_length then throw .INVALID_PARAM
  let stored ← read_bytes reader header.payload_length
  let payload := (List.range header.payload_length).map fun i => stored.getD i (env.fresh s.conn.calls i)
  return some (if header.mask then uvhttp_ws_apply_mask payload masking_key else payload)

/-- `conn->bytes_received` and `conn->frames_received` after a frame. -/
def RecvState.counted (s : RecvState) (payload_length : Nat) : RecvState :=
  { s with
    bytes_received := (s.bytes_received + payload_length) % 2 ^ 64
    frames_received := (s.frames_received + 1) % 2 ^ 64 }

/-- `uvhttp_ws_recv_frame`. The frame is filled in only when the result is `OK`. -/
def uvhttp_ws_recv_frame (env : WsEnv) (reader : WsReader) : Receive WsFrame := do
  let header ← recv_header reader
  let masking_key ← read_part reader header.mask 4 [0, 0, 0, 0]
  let payload ← recv_payload env reader header masking_key
  modify fun s => s.counted header.payload_length
  return { header, masking_key, payload, payload_size := header.payload_length }

/-- The frame that a call of `uvhttp_ws_recv_frame` hands to its caller. -/
def frame_received : EStateM.Result UvhttpError RecvState WsFrame → Option Frame
  | .ok frame _ => some (frame.header, frame.payload.getD [])
  | .error _ _ => none

section steps

variable {α β : Type} {step : Receive α} {next : α → Receive β} {s s' : RecvState}

/-- A step that returns hands on its result and its state. -/
theorem bind_returned {a : α} (h : step s = .ok a s') : (step >>= next) s = next a s' := by
  change EStateM.bind step next s = next a s'
  rw [EStateM.bind, h]

/-- A step that fails ends the function. -/
theorem bind_failed {error : UvhttpError} (h : step s = .error error s') : (step >>= next) s = .error error s' := by
  change EStateM.bind step next s = .error error s'
  rw [EStateM.bind, h]

theorem get_state (s : RecvState) : (get : Receive RecvState) s = .ok s s := rfl

theorem set_state (s s' : RecvState) : (set s' : Receive PUnit) s = .ok ⟨⟩ s' := rfl

end steps

/-- The transport returns all the bytes that it is asked for. -/
structure WsReader.Full (reader : WsReader) : Prop where
  recv : ∀ calls size, reader.recv calls size = size
  ssl_read : ∀ calls size, reader.ssl_read calls size = size

theorem read_bytes_full {reader : WsReader} (hfull : reader.Full) {s : RecvState} {size : Nat}
    (hlen : size ≤ s.incoming.length) : read_bytes reader size s = .ok (s.incoming.take size) (s.after 1 size) := by
  have hanswer : (if s.conn.ssl then reader.ssl_read else reader.recv) s.conn.calls size = size := by
    split
    · exact hfull.ssl_read _ _
    · exact hfull.recv _ _
  have hstored : (s.incoming.take size).length = size := by
    rw [List.length_take]
    omega
  unfold read_bytes
  rw [bind_returned (get_state s)]
  simp only [hanswer, Int.toNat_natCast, Nat.min_self, hstored]
  rw [bind_returned (set_state s _), if_neg (show ¬ (size : Int) < 0 by omega), if_neg (not_not_intro rfl)]
  rfl

/-- A read payload that is complete does not show what the allocation held. -/
theorem filled_eq {stored : List UInt8} {size : Nat} (hlen : stored.length = size) (fresh : Nat → UInt8) :
    ((List.range size).map fun i => stored.getD i (fresh i)) = stored := by
  apply List.ext_getElem
  · rw [List.length_map, List.length_range, hlen]
  · intro i hi hi'
    rw [List.getElem_map, List.getElem_range, List.getD_eq_getElem?_getD, List.getElem?_eq_getElem hi',
      Option.getD_some]

/-- The length code is in the second byte. -/
theorem header_need_take {stream : List UInt8} {count : Nat} (hcount : 2 ≤ count) :
    header_need (stream.take count) = header_need stream := by
  unfold header_need
  rw [List.getD_eq_getElem?_getD, List.getD_eq_getElem?_getD, List.getElem?_take_of_lt (by omega)]

theorem two_le_header_need (stream : List UInt8) : 2 ≤ header_need stream := by
  unfold header_need
  dsimp only
  split
  · decide
  · split <;> decide

/-- The parsed header is as long as its length code tells. -/
theorem parse_frame_header_size {stream : List UInt8} {header : FrameHeader} {header_size : Nat}
    (h : uvhttp_ws_parse_frame_header stream = .ok (header, header_size)) : header_size = header_need stream := by
  match stream with
  | [] => cases h
  | [b0] => cases h
  | b0 :: b1 :: rest =>
    have hcode : (parse_first_bytes b0 b1).payload_len = b1 &&& 0x7F := rfl
    simp only [uvhttp_ws_parse_frame_header, hcode] at h
    simp only [header_need, List.getD_cons_succ, List.getD_cons_zero]
    split at h
    · rename_i h126
      split at h
      · cases h
      · cases h
        rw [if_pos h126]
    · rename_i h126
      rw [if_neg h126]
      split at h
      · rename_i h127
        rw [if_pos h127]
        split at h
        · cases h
        · split at h
          · cases h
          · cases h
            rfl
      · rename_i h127
        rw [if_neg h127]
        cases h
        rfl

/-- The header is parsed from its own bytes alone. -/
theorem parse_header_alone {stream : List UInt8} (hlen : header_need stream ≤ stream.length) :
    uvhttp_ws_parse_frame_header (stream.take (header_need stream)) = uvhttp_ws_parse_frame_header stream := by
  have htwo := two_le_header_need stream
  have hwhole := List.take_append_drop (header_need stream) stream
  have hneed := @header_need_take stream _ htwo
  have htaken : (stream.take (header_need stream)).length = header_need stream := by
    rw [List.length_take]
    omega
  cases hparse : uvhttp_ws_parse_frame_header (stream.take (header_need stream)) with
  | ok parsed =>
    have hmore := (parse_frame_header_ok hparse).2.2 (stream.drop (header_need stream))
    rw [hwhole] at hmore
    exact hmore.symm
  | error error =>
    have hmore := parse_frame_header_error hparse (by omega) (by omega) (stream.drop (header_need stream))
    rw [hwhole] at hmore
    exact hmore.symm

@[simp] theorem RecvState.after_after (s : RecvState) (calls count calls' count' : Nat) :
    (s.after calls count).after calls' count' = s.after (calls + calls') (count + count') := by
  simp only [RecvState.after, List.drop_drop, Nat.add_assoc]

theorem read_part_full {reader : WsReader} (hfull : reader.Full) {s : RecvState} (present : Bool) {size : Nat}
    (hlen : present = true → size ≤ s.incoming.length) (absent : List UInt8) :
    read_part reader present size absent s =
      .ok (if present then s.incoming.take size else absent)
        (s.after (if present then 1 else 0) (if present then size else 0)) := by
  cases present with
  | true => exact read_bytes_full hfull (hlen rfl)
  | false => rfl

/-- What is left after a header, and the calls that have been made for it. -/
def RecvState.behind_header (s : RecvState) : RecvState :=
  s.after (if header_need s.incoming > 2 then 2 else 1) (header_need s.incoming)

/-- A header is read with its own bytes. -/
theorem recv_header_full {reader : WsReader} (hfull : reader.Full) {s : RecvState}
    (hlen : header_need s.incoming ≤ s.incoming.length) :
    recv_header reader s =
      match uvhttp_ws_parse_frame_header s.incoming with
      | .error _ => .error .INVALID_PARAM s.behind_header
      | .ok (header, _) => .ok header s.behind_header := by
  have htwo := two_le_header_need s.incoming
  have hfirst := read_bytes_full hfull (show 2 ≤ s.incoming.length by omega)
  have hneed : header_need (s.incoming.take 2) = header_need s.incoming := header_need_take (Nat.le_refl 2)
  have hrest := read_part_full hfull (header_need s.incoming > 2)
    (show _ → header_need s.incoming - 2 ≤ (s.after 1 2).incoming.length by
      simp only [RecvState.after, List.length_drop]
      omega) []
  have hparse := parse_header_alone hlen
  have hstate : (s.after 1 2).after (if decide (header_need s.incoming > 2) = true then 1 else 0)
      (if decide (header_need s.incoming > 2) = true then header_need s.incoming - 2 else 0) = s.behind_header := by
    rw [RecvState.after_after, RecvState.behind_header]
    simp only [decide_eq_true_eq]
    split
    · congr 1
      omega
    · congr 1
      omega
  have hbytes : s.incoming.take 2 ++ (if decide (header_need s.incoming > 2) = true then
      (s.after 1 2).incoming.take (header_need s.incoming - 2) else []) =
        s.incoming.take (header_need s.incoming) := by
    simp only [decide_eq_true_eq, RecvState.after]
    split
    · rw [show header_need s.incoming = 2 + (header_need s.incoming - 2) by omega, List.take_add]
      congr 2
      omega
    · rw [List.append_nil]
      congr 1
      omega
  unfold recv_header
  rw [bind_returned hfirst, hneed, bind_returned hrest, hbytes, hparse, hstate]
  cases uvhttp_ws_parse_frame_header s.incoming with
  | error error => rfl
  | ok parsed => rfl

/-- The allocator, asked at that call, has memory for so many bytes. Nobody asks
for none. -/
def has_memory (env : WsEnv) (calls size : Nat) : Prop := size = 0 ∨ env.alloc calls size = true

instance (env : WsEnv) (calls size : Nat) : Decidable (has_memory env calls size) :=
  inferInstanceAs (Decidable (_ ∨ _))

theorem recv_payload_ok {env : WsEnv} {reader : WsReader} (hfull : reader.Full) {s : RecvState}
    {header : FrameHeader} (masking_key : List UInt8) (hlen : header.payload_length ≤ s.incoming.length)
    (hlimit : header.payload_length ≤ size_t s.conn.max_frame_size)
    (hmemory : has_memory env s.conn.calls header.payload_length) :
    ∃ payload s', recv_payload env reader header masking_key s = .ok payload s' ∧
      payload.getD [] =
        if header.mask then uvhttp_ws_apply_mask (s.incoming.take header.payload_length) masking_key
        else s.incoming.take header.payload_length := by
  unfold recv_payload
  by_cases hzero : header.payload_length = 0
  · refine ⟨none, s, ?_, ?_⟩
    · rw [if_pos hzero]
      rfl
    · rw [hzero, List.take_zero, uvhttp_ws_apply_mask, List.mapIdx_nil, ite_self]
      rfl
  · have halloc : env.alloc s.conn.calls header.payload_length = true := hmemory.resolve_left hzero
    have hread := read_bytes_full hfull (show header.payload_length ≤ (s.after 1 0).incoming.length from hlen)
    have hfilled := filled_eq (show (s.incoming.take header.payload_length).length = header.payload_length by
      rw [List.length_take]
      omega) (env.fresh s.conn.calls)
    refine ⟨_, (s.after 1 0).after 1 header.payload_length, ?_, Option.getD_some⟩
    rw [if_neg hzero, bind_returned (get_state s), if_neg (Nat.not_lt.mpr hlimit)]
    refine (bind_returned (set_state s (s.after 1 0))).trans ?_
    rw [halloc]
    refine (bind_returned hread).trans ?_
    rw [show (s.after 1 0).incoming = s.incoming from rfl, hfilled]
    rfl

theorem recv_payload_error {env : WsEnv} {reader : WsReader} {s : RecvState} {header : FrameHeader}
    (masking_key : List UInt8) (h : ¬ (header.payload_length ≤ size_t s.conn.max_frame_size ∧
      has_memory env s.conn.calls header.payload_length)) :
    ∃ s', recv_payload env reader header masking_key s = .error .INVALID_PARAM s' := by
  have hzero : header.payload_length ≠ 0 := by
    intro hzero
    rw [hzero] at h
    exact h ⟨Nat.zero_le _, .inl rfl⟩
  unfold recv_payload
  rw [if_neg hzero]
  by_cases hlimit : header.payload_length ≤ size_t s.conn.max_frame_size
  · have halloc : env.alloc s.conn.calls header.payload_length = false := by
      rw [← Bool.not_eq_true]
      exact fun hgranted => h ⟨hlimit, .inr hgranted⟩
    refine ⟨s.after 1 0, ?_⟩
    rw [bind_returned (get_state s), if_neg (Nat.not_lt.mpr hlimit)]
    refine (bind_returned (set_state s (s.after 1 0))).trans ?_
    rw [halloc]
    rfl
  · refine ⟨s, ?_⟩
    rw [bind_returned (get_state s), if_pos (Nat.not_le.mp hlimit)]
    rfl

/-- The call at which `uvhttp_ws_recv_frame` asks for the memory of the payload. -/
def payload_call (conn : WsConnection) (header : FrameHeader) (header_size : Nat) : Nat :=
  conn.calls + (if header_size > 2 then 2 else 1) + if header.mask then 1 else 0

/-- What the blocking receive path makes of a complete frame: it asks for nothing
but the length limit and memory. -/
theorem recv_frame_received {env : WsEnv} {reader : WsReader} (hfull : reader.Full) {s : RecvState}
    {header : FrameHeader} {header_size : Nat}
    (hparse : uvhttp_ws_parse_frame_header s.incoming = .ok (header, header_size))
    (htotal : total_frame_size header header_size ≤ s.incoming.length) (frame : Frame) :
    frame_received (uvhttp_ws_recv_frame env reader s) = some frame ↔
      (header.payload_length ≤ size_t s.conn.max_frame_size ∧
          has_memory env (payload_call s.conn header header_size) header.payload_length) ∧
        frame = (header, frame_payload s.incoming header header_size) := by
  have hsize := parse_frame_header_size hparse
  unfold total_frame_size at htotal
  have hheader := recv_header_full hfull (show header_need s.incoming ≤ s.incoming.length by omega)
  rw [hparse] at hheader
  have hkey := read_part_full hfull header.mask (show _ → 4 ≤ s.behind_header.incoming.length from fun hmask => by
    rw [hmask, if_pos rfl] at htotal
    simp only [RecvState.behind_header, RecvState.after, List.length_drop]
    omega) [0, 0, 0, 0]
  generalize hbehind : s.behind_header.after (if header.mask then 1 else 0) (if header.mask then 4 else 0) =
    behind at hkey
  have hcalls : behind.conn.calls = payload_call s.conn header header_size := by
    rw [← hbehind, payload_call, hsize]
    rfl
  have hlimit : behind.conn.max_frame_size = s.conn.max_frame_size := by
    rw [← hbehind]
    rfl
  have hincoming : behind.incoming = s.incoming.drop (header_size + if header.mask then 4 else 0) := by
    rw [← hbehind, hsize, ← List.drop_drop]
    rfl
  have hlen : header.payload_length ≤ behind.incoming.length := by
    rw [hincoming, List.length_drop]
    omega
  rw [← hcalls, ← hlimit]
  unfold uvhttp_ws_recv_frame
  rw [bind_returned hheader, bind_returned hkey]
  by_cases hgranted : header.payload_length ≤ size_t behind.conn.max_frame_size ∧
      has_memory env behind.conn.calls header.payload_length
  · obtain ⟨payload, s', hpayload, hbytes⟩ := recv_payload_ok hfull
      (if header.mask then s.behind_header.incoming.take 4 else [0, 0, 0, 0]) hlen hgranted.1 hgranted.2
    have hunmasked : payload.getD [] = frame_payload s.incoming header header_size := by
      rw [hbytes, hincoming, frame_payload, hsize]
      cases header.mask with
      | true => rfl
      | false => rfl
    rw [bind_returned hpayload, ← hunmasked]
    exact ⟨fun h => ⟨hgranted, (Option.some.inj h).symm⟩, fun h => congrArg some h.2.symm⟩
  · obtain ⟨s', hpayload⟩ := @recv_payload_error env reader behind header
      (if header.mask then s.behind_header.incoming.take 4 else [0, 0, 0, 0]) hgranted
    rw [bind_failed hpayload]
    refine ⟨fun h => ?_, fun h => absurd h.1 hgranted⟩
    cases h

/-- A header that does not parse is refused. -/
theorem recv_frame_malformed {env : WsEnv} {reader : WsReader} (hfull : reader.Full) {s : RecvState}
    {error : UvhttpError} (hparse : uvhttp_ws_parse_frame_header s.incoming = .error error)
    (hneed : header_need s.incoming ≤ s.incoming.length) :
    frame_received (uvhttp_ws_recv_frame env reader s) = none := by
  have hheader := recv_header_full hfull hneed
  rw [hparse] at hheader
  unfold uvhttp_ws_recv_frame
  rw [bind_failed hheader]
  rfl

end uvhttp.websocket
