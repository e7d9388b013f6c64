import Uvhttp.WebSocket.ReceiveAgreement
import Uvhttp.Lib.Memory
import Uvhttp.Lib.Loop

namespace uvhttp.websocket

/-- The allocation behind `recv_buffer`, of `recv_buffer_size` bytes. -/
structure RecvMemory where
  recv_buffer : List UInt8
  recv_buffer_pos : Nat
  deriving DecidableEq, Repr

abbrev RecvMemory.recv_buffer_size (m : RecvMemory) : Nat := m.recv_buffer.length

/-- A read of received bytes, which stand below `recv_buffer_pos`. -/
def RecvMemory.load (m : RecvMemory) (offset count : Nat) : Option (List UInt8) :=
  memory.load m.recv_buffer_pos m.recv_buffer offset count

/-- A write over received bytes. -/
def RecvMemory.store (m : RecvMemory) (offset : Nat) (data : List UInt8) : Option RecvMemory :=
  (memory.store m.recv_buffer_pos m.recv_buffer offset data).map fun recv_buffer => { m with recv_buffer }

/-- The received bytes. -/
def RecvMemory.received (m : RecvMemory) : List UInt8 := m.recv_buffer.take m.recv_buffer_pos

/-- A connection with its received bytes in this memory. -/
def RecvMemory.view (m : RecvMemory) (conn : WsConnection) : WsConnection :=
  { conn with
    recv_buffer := m.received
    recv_stale := fun i => if i < m.recv_buffer_pos then 0 else m.recv_buffer.getD i 0
    recv_buffer_size := m.recv_buffer_size }

/-- `uvhttp_ws_parse_frame_header` on the received bytes. -/
def parse_frame_header_at (m : RecvMemory) : Option (Except UvhttpError (FrameHeader × Nat)) :=
  if m.recv_buffer_pos < 2 then some (.error .INVALID_PARAM)
  else
    (m.load 0 2).bind fun first =>
      let header := parse_first_bytes (first.getD 0 0) (first.getD 1 0)
      if header.payload_len = 126 then
        if m.recv_buffer_pos < 4 then some (.error .INVALID_PARAM)
        else (m.load 2 2).map fun extended => .ok ({ header with payload_length := be_value extended }, 4)
      else if header.payload_len = 127 then
        if m.recv_buffer_pos < 10 then some (.error .INVALID_PARAM)
        else
          (m.load 2 8).map fun extended =>
            if 2 ^ 63 ≤ be_value extended then .error .INVALID_PARAM
            else .ok ({ header with payload_length := be_value extended }, 10)
      else some (.ok (header, 2))

/-- `total_frame_size`, as `size_t` computes it. -/
def total_frame_size_t (header : FrameHeader) (header_size : Nat) : Nat :=
  let total := (header_size + header.payload_length) % 2 ^ 64
  if header.mask then (total + 4) % 2 ^ 64 else total

/-- The payload of the frame at the front, unmasked in place. -/
def extract_payload (m : RecvMemory) (header : FrameHeader) (header_size : Nat) :
    Option (List UInt8 × RecvMemory) :=
  if header.payload_length = 0 then some ([], m)
  else if header.mask then
    (m.load header_size 4).bind fun masking_key =>
      (m.load (header_size + 4) header.payload_length).bind fun masked =>
        let payload := uvhttp_ws_apply_mask masked masking_key
        (m.store (header_size + 4) payload).map fun m => (payload, m)
  else (m.load header_size header.payload_length).map fun payload => (payload, m)

/-- The rest moves to the front. -/
def remove_frame_at (m : RecvMemory) (total : Nat) : Option RecvMemory :=
  let remaining := m.recv_buffer_pos - total
  if 0 < remaining then
    (memory.move m.recv_buffer_pos m.recv_buffer 0 total remaining).map fun recv_buffer => ⟨recv_buffer, remaining⟩
  else some ⟨m.recv_buffer, remaining⟩

/-- What one turn of the receive loop does to the connection and to the memory. -/
inductive RecvTurn where
  | stop
  | fail (conn : WsConnection) (m : RecvMemory) (events : List WsEvent)
  | next (conn : WsConnection) (m : RecvMemory) (events : List WsEvent)

/-- What is left of a turn when its frame has been processed. -/
def FrameStep.remove (m : RecvMemory) (total : Nat) : FrameStep → Option RecvTurn
  | .stop => some .stop
  | .fail conn events => some (.fail conn m events)
  | .next conn events => (remove_frame_at m total).map fun m => .next conn m events

/-- One turn of the receive loop of `uvhttp_ws_process_data` on the memory of the buffer:
`none` is an access to other than received bytes. Callbacks do not reach the memory. -/
def receive_turn (env : WsEnv) (conn : WsConnection) (m : RecvMemory) : Option RecvTurn :=
  let conn := m.view conn
  (parse_frame_header_at m).bind fun
    | .error _ =>
      (m.load 1 1).map fun second =>
        let len_code := second.getD 0 0 &&& 0x7F
        let need := if len_code = 126 then 4 else if len_code = 127 then 10 else 2
        if m.recv_buffer_pos < need then .stop else .fail conn m []
    | .ok (header, header_size) =>
      if header.rsv1 || header.rsv2 || header.rsv3 then some (.fail conn m [])
      else if header.opcode ≥ OPCODE_CLOSE ∧ (header.payload_length > 125 ∨ !header.fin) then some (.fail conn m [])
      else if conn.is_server && !header.mask then some (.fail conn m [])
      else if header.payload_length > size_t conn.max_frame_size then some (.fail conn m [])
      else
        let total := total_frame_size_t header header_size
        if m.recv_buffer_pos < total then some .stop
        else
          (extract_payload m header header_size).bind fun (payload, m) =>
            (process_frame env (m.view conn) header payload (m.received.drop total)).remove m total

/-- A connection in the receive loop, with the events so far. -/
structure Receiving where
  conn : WsConnection
  memory : RecvMemory
  events : List WsEvent

/-- A turn of the receive loop with its condition. -/
def receive_loop_turn (env : WsEnv) (s : Receiving) : Option ((UvhttpError × Receiving) ⊕ Receiving) :=
  if s.memory.recv_buffer_pos < 2 then some (.inl (.OK, s))
  else
    (receive_turn env s.conn s.memory).map fun
      | .stop => .inl (.OK, s)
      | .fail conn memory events => .inl (.INVALID_PARAM, ⟨conn, memory, s.events ++ events⟩)
      | .next conn memory events => .inr ⟨conn, memory, s.events ++ events⟩

/-- A turn of the growth loop, for a buffer that is to hold `required` bytes. -/
def grow_turn (required : Nat) (new_size : Nat) : Option (Option Nat ⊕ Nat) :=
  if required > new_size then
    if new_size > SIZE_MAX / 2 then some (.inl none) else some (.inr (new_size * 2))
  else some (.inl (some new_size))

/-- The new allocation, of `doubled` bytes or of `max_frame_size`. -/
def realloc_recv_memory (env : WsEnv) (conn : WsConnection) (m : RecvMemory) (required doubled : Nat) :
    UvhttpError × WsConnection × RecvMemory :=
  let capped := doubled > size_t conn.max_frame_size
  let new_size := if capped then size_t conn.max_frame_size else doubled
  if capped ∧ required > new_size then (.INVALID_PARAM, conn, m)
  else
    let allocated := env.alloc conn.calls new_size
    let fresh := env.fresh conn.calls
    let conn := { conn with calls := conn.calls + 1 }
    if !allocated then (.INVALID_PARAM, conn, m)
    else (.OK, conn, { m with
      recv_buffer := (List.range new_size).map fun i => m.recv_buffer.getD i (fresh i) })

/-- Room for `len` more bytes. The growth loop gets at most `fuel` turns. -/
def grow_recv_memory (env : WsEnv) (fuel : Nat) (conn : WsConnection) (m : RecvMemory) (len : Nat) :
    loop.Outcome Unit (UvhttpError × WsConnection × RecvMemory) :=
  let required := (m.recv_buffer_pos + len) % 2 ^ 64
  if required > m.recv_buffer_size then
    if m.recv_buffer_size > SIZE_MAX / 2 then .returned (.INVALID_PARAM, conn, m)
    else
      match loop.run (grow_turn required) fuel (m.recv_buffer_size * 2) with
      | .fault => .fault
      | .running _ => .running ()
      | .returned none => .returned (.INVALID_PARAM, conn, m)
      | .returned (some doubled) => .returned (realloc_recv_memory env conn m required doubled)
  else .returned (.OK, conn, m)

/-- `uvhttp_ws_process_data` on the memory of the buffer, with at most `fuel` turns for each
of its loops. -/
def process_data_at (env : WsEnv) (fuel : Nat) (conn : WsConnection) (m : RecvMemory) (data : List UInt8) :
    loop.Outcome Unit (UvhttpError × Receiving) :=
  match grow_recv_memory env fuel conn m data.length with
  | .fault => .fault
  | .running _ => .running ()
  | .returned (.OK, conn, m) =>
    match memory.store m.recv_buffer_size m.recv_buffer m.recv_buffer_pos data with
    | none => .fault
    | some recv_buffer =>
      match loop.run (receive_loop_turn env) fuel ⟨conn, ⟨recv_buffer, m.recv_buffer_pos + data.length⟩, []⟩ with
      | .fault => .fault
      | .running _ => .running ()
      | .returned result => .returned result
  | .returned (error, conn, m) => .returned (error, ⟨conn, m, []⟩)

section turns

variable {m m' : RecvMemory} {header : FrameHeader} {header_size : Nat}

theorem length_received (h : m.recv_buffer_pos ≤ m.recv_buffer_size) : m.received.length = m.recv_buffer_pos := by
  rw [RecvMemory.received, List.length_take]
  exact Nat.min_eq_left h

/-- A read of received bytes gives them. -/
theorem load_received {offset count : Nat} (h : offset + count ≤ m.recv_buffer_pos) :
    m.load offset count = some ((m.received.drop offset).take count) := by
  rw [RecvMemory.load, memory.load_eq h, RecvMemory.received, List.drop_take, List.take_take, Nat.min_eq_left]
  omega

/-- The header is read from received bytes only. -/
theorem parse_frame_header_at_eq (h : m.recv_buffer_pos ≤ m.recv_buffer_size) :
    parse_frame_header_at m = some (uvhttp_ws_parse_frame_header m.received) := by
  have hlength := length_received h
  unfold parse_frame_header_at
  rcases hreceived : m.received with _ | ⟨b0, _ | ⟨b1, rest⟩⟩
  · rw [hreceived, List.length_nil] at hlength
    rw [if_pos (by omega)]
    rfl
  · rw [hreceived, List.length_singleton] at hlength
    rw [if_pos (by omega)]
    rfl
  · rw [hreceived, List.length_cons, List.length_cons] at hlength
    have hfirst : m.load 0 2 = some [b0, b1] := by
      rw [load_received (by omega), hreceived]
      rfl
    have hextended : ∀ count, count ≤ rest.length → m.load 2 count = some (rest.take count) := by
      intro count hcount
      rw [load_received (by omega), hreceived]
      rfl
    rw [if_neg (by omega), hfirst, Option.bind_some]
    simp only [List.getD_cons_zero, List.getD_cons_succ, uvhttp_ws_parse_frame_header]
    by_cases h126 : (parse_first_bytes b0 b1).payload_len = 126
    · simp only [h126, if_true]
      by_cases hshort : rest.length < 2
      · rw [if_pos (by omega), if_pos hshort]
      · rw [if_neg (by omega), if_neg hshort, hextended 2 (by omega)]
        rfl
    · simp only [h126, if_false]
      by_cases h127 : (parse_first_bytes b0 b1).payload_len = 127
      · simp only [h127, if_true]
        by_cases hshort : rest.length < 8
        · rw [if_pos (by omega), if_pos hshort]
        · rw [if_neg (by omega), if_neg hshort, hextended 8 (by omega), Option.map_some, apply_ite some]
      · simp only [h127, if_false]

theorem be_value_lt (digits : List UInt8) : be_value digits < 256 ^ digits.length := by
  induction digits using List.reverseRecOn with
  | nil => exact Nat.one_pos
  | append_singleton digits b ih =>
    have hb := b.toNat_lt
    rw [be_value, List.foldl_append, List.foldl_cons, List.foldl_nil, List.length_append, List.length_singleton,
      Nat.pow_succ]
    rw [be_value] at ih
    omega

/-- The header of a frame is short, and its length has no top bit. -/
theorem parse_frame_header_bounds {data : List UInt8}
    (h : uvhttp_ws_parse_frame_header data = .ok (header, header_size)) :
    header_size ≤ 10 ∧ header.payload_length < 2 ^ 63 := by
  rcases data with _ | ⟨b0, _ | ⟨b1, rest⟩⟩
  · cases h
  · cases h
  · simp only [uvhttp_ws_parse_frame_header] at h
    split at h
    · split at h
      · cases h
      · cases h
        have hvalue := be_value_lt (rest.take 2)
        have hpow := Nat.pow_le_pow_right (by decide : 0 < 256) (List.length_take_le 2 rest)
        exact ⟨by decide, (hvalue.trans_le hpow).trans (by decide)⟩
    · split at h
      · split at h
        · cases h
        · split at h
          · cases h
          · rename_i hhigh
            cases h
            exact ⟨by decide, Nat.not_le.mp hhigh⟩
      · cases h
        exact ⟨by decide, (UInt8.toNat_lt _).trans (by decide)⟩

/-- The sum of a frame's parts does not wrap around. -/
theorem total_frame_size_t_eq {data : List UInt8} (h : uvhttp_ws_parse_frame_header data = .ok (header, header_size)) :
    total_frame_size_t header header_size = total_frame_size header header_size := by
  obtain ⟨hsize, hpayload⟩ := parse_frame_header_bounds h
  unfold total_frame_size_t total_frame_size
  rw [Nat.mod_eq_of_lt (by omega)]
  dsimp only
  split
  · exact Nat.mod_eq_of_lt (by omega)
  · rfl

theorem view_recv_buffer (m : RecvMemory) (conn : WsConnection) : (m.view conn).recv_buffer = m.received := rfl

/-- A write over received bytes leaves the rest of the memory alone. -/
theorem store_received (h : m.recv_buffer_pos ≤ m.recv_buffer_size) {offset : Nat} {data : List UInt8}
    (hfits : offset + data.length ≤ m.recv_buffer_pos) :
    ∃ m', m.store offset data = some m' ∧ m'.recv_buffer_pos = m.recv_buffer_pos ∧
      m'.recv_buffer_size = m.recv_buffer_size ∧
      m'.received = m.received.take offset ++ data ++ m.received.drop (offset + data.length) ∧
      m'.recv_buffer.drop m.recv_buffer_pos = m.recv_buffer.drop m.recv_buffer_pos := by
  obtain ⟨recv_buffer, hstore⟩ : ∃ recv_buffer,
      memory.store m.recv_buffer_pos m.recv_buffer offset data = some recv_buffer := ⟨_, memory.store_eq hfits⟩
  obtain ⟨hbelow, habove⟩ := memory.store_below h hstore
  refine ⟨{ m with recv_buffer }, ?_, rfl, memory.length_store h hstore, hbelow, habove⟩
  rw [RecvMemory.store, hstore]
  rfl

/-- The same view, with other received bytes. -/
theorem view_of_store (hpos : m'.recv_buffer_pos = m.recv_buffer_pos)
    (hsize : m'.recv_buffer_size = m.recv_buffer_size)
    (habove : m'.recv_buffer.drop m.recv_buffer_pos = m.recv_buffer.drop m.recv_buffer_pos) (conn : WsConnection) :
    m'.view conn = { m.view conn with recv_buffer := m'.received } := by
  have hstale : (fun i => if i < m'.recv_buffer_pos then 0 else m'.recv_buffer.getD i 0) =
      fun i => if i < m.recv_buffer_pos then 0 else m.recv_buffer.getD i 0 := by
    funext i
    rw [hpos]
    split
    · rfl
    · have hget := congrArg (·[i - m.recv_buffer_pos]?) habove
      rw [List.getElem?_drop, List.getElem?_drop, Nat.add_sub_cancel' (by omega)] at hget
      rw [List.getD_eq_getElem?_getD, List.getD_eq_getElem?_getD, hget]
  rw [RecvMemory.view, RecvMemory.view, hstale, hsize]

/-- A payload that stands in the buffer as it was received changes nothing. -/
theorem unmask_frame_received (h : m.recv_buffer_pos ≤ m.recv_buffer_size) {total offset count : Nat}
    (hsum : total = offset + count) (htotal : total ≤ m.recv_buffer_pos) (conn : WsConnection) :
    unmask_frame (m.view conn) ((m.received.drop offset).take count) total = m.view conn := by
  have hlength := length_received h
  have hcount : ((m.received.drop offset).take count).length = count := by
    rw [List.length_take, List.length_drop]
    omega
  rw [unmask_frame, view_recv_buffer, hcount, hsum, Nat.add_sub_cancel, ← List.take_add, List.take_append_drop]
  rfl

/-- The payload of a complete frame is read, and unmasked, within the received bytes. -/
theorem extract_payload_spec (h : m.recv_buffer_pos ≤ m.recv_buffer_size)
    (htotal : total_frame_size header header_size ≤ m.recv_buffer_pos) (conn : WsConnection) :
    ∃ m', extract_payload m header header_size = some (frame_payload m.received header header_size, m') ∧
      m'.recv_buffer_pos = m.recv_buffer_pos ∧ m'.recv_buffer_size = m.recv_buffer_size ∧
      m'.received.drop (total_frame_size header header_size) =
        m.received.drop (total_frame_size header header_size) ∧
      m'.view conn = unmask_frame (m.view conn) (frame_payload m.received header header_size)
        (total_frame_size header header_size) := by
  have hlength := length_received h
  have hpayload : (frame_payload m.received header header_size).length = header.payload_length :=
    length_frame_payload (by rw [hlength]; exact htotal)
  by_cases hempty : header.payload_length = 0
  · have hnone : frame_payload m.received header header_size = [] :=
      List.eq_nil_of_length_eq_zero (hpayload.trans hempty)
    rw [hnone]
    refine ⟨m, if_pos hempty, rfl, rfl, rfl, ?_⟩
    exact (unmask_frame_received h (Nat.add_zero (total_frame_size header header_size)).symm htotal conn).symm
  · cases hmask : header.mask with
    | false =>
      have hsum : total_frame_size header header_size = header_size + header.payload_length := by
        simp only [total_frame_size, hmask, Bool.false_eq_true, if_false, Nat.add_zero]
      have hframe : frame_payload m.received header header_size =
          (m.received.drop header_size).take header.payload_length := by
        simp only [frame_payload, hmask, Bool.false_eq_true, if_false]
      have hload : m.load header_size header.payload_length = _ := load_received (by omega)
      rw [hframe]
      refine ⟨m, ?_, rfl, rfl, rfl, (unmask_frame_received h hsum htotal conn).symm⟩
      rw [extract_payload, if_neg hempty, hmask, if_neg Bool.false_ne_true, hload]
      rfl
    | true =>
      have hsum : total_frame_size header header_size = header_size + 4 + header.payload_length := by
        simp only [total_frame_size, hmask, if_true]
        omega
      have hframe : frame_payload m.received header header_size =
          uvhttp_ws_apply_mask ((m.received.drop (header_size + 4)).take header.payload_length)
            ((m.received.drop header_size).take 4) := by
        simp only [frame_payload, hmask, if_true]
      have hkey : m.load header_size 4 = _ := load_received (by omega)
      have hmasked : m.load (header_size + 4) header.payload_length = _ := load_received (by omega)
      obtain ⟨m', hstore, hpos, hsize, hreceived, habove⟩ :=
        store_received h (show header_size + 4 + (frame_payload m.received header header_size).length ≤ _ by omega)
      rw [hpayload, ← hsum] at hreceived
      refine ⟨m', ?_, hpos, hsize, ?_, ?_⟩
      · rw [extract_payload, if_neg hempty, hmask, if_pos rfl, hkey, Option.bind_some, hmasked, Option.bind_some,
          ← hframe]
        dsimp only
        rw [hstore, Option.map_some]
      · have hfront : (m.received.take (header_size + 4) ++ frame_payload m.received header header_size).length =
            total_frame_size header header_size := by
          rw [List.length_append, List.length_take, hpayload]
          omega
        rw [hreceived]
        exact List.drop_left' hfront
      · have hoffset : total_frame_size header header_size - header.payload_length = header_size + 4 := by omega
        rw [view_of_store hpos hsize habove, hreceived, unmask_frame, view_recv_buffer, hpayload, hoffset]

/-- Removing a frame moves received bytes over received bytes. -/
theorem remove_frame_at_spec (h : m.recv_buffer_pos ≤ m.recv_buffer_size) {total : Nat}
    (htotal : total ≤ m.recv_buffer_pos) :
    ∃ m', remove_frame_at m total = some m' ∧ m'.recv_buffer_pos + total = m.recv_buffer_pos ∧
      m'.recv_buffer_size = m.recv_buffer_size ∧ m'.received = m.received.drop total := by
  have hrest : m.received.drop total = (m.recv_buffer.drop total).take (m.recv_buffer_pos - total) := by
    rw [RecvMemory.received, List.drop_take]
  by_cases hremaining : 0 < m.recv_buffer_pos - total
  · obtain ⟨recv_buffer, hmove, hlength, hfront⟩ := memory.move_front h
      (show total + (m.recv_buffer_pos - total) ≤ m.recv_buffer_pos by omega)
    refine ⟨⟨recv_buffer, m.recv_buffer_pos - total⟩, ?_, Nat.sub_add_cancel htotal, hlength, ?_⟩
    · simp only [remove_frame_at, if_pos hremaining, hmove, Option.map_some]
    · rw [hrest]
      exact hfront
  · refine ⟨⟨m.recv_buffer, m.recv_buffer_pos - total⟩, if_neg hremaining, Nat.sub_add_cancel htotal, rfl, ?_⟩
    have hzero : m.recv_buffer_pos - total = 0 := by omega
    rw [hrest, RecvMemory.received, hzero]
    rfl

/-- How a turn on the memory goes with a turn on the received bytes alone. -/
inductive TurnRefines (m : RecvMemory) : RecvTurn → FrameStep → Prop where
  | stop : TurnRefines m .stop .stop
  | fail {conn : WsConnection} {m' : RecvMemory} {events : List WsEvent} :
      m'.recv_buffer_size = m.recv_buffer_size → m'.recv_buffer_pos = m.recv_buffer_pos →
      TurnRefines m (.fail conn m' events) (.fail conn events)
  | next {conn : WsConnection} {m' : RecvMemory} {events : List WsEvent} {total : Nat} :
      m'.recv_buffer_size = m.recv_buffer_size → 2 ≤ total → m'.recv_buffer_pos + total = m.recv_buffer_pos →
      m'.received = m.received.drop total →
      TurnRefines m (.next conn m' events) (.next (remove_frame conn total) events)

/-- A processed frame is removed from the memory as from the received bytes. -/
theorem FrameStep.remove_refines (hpos : m'.recv_buffer_pos = m.recv_buffer_pos)
    (hsize : m'.recv_buffer_size = m.recv_buffer_size) {total : Nat} (htwo : 2 ≤ total)
    (h : m'.recv_buffer_pos ≤ m'.recv_buffer_size) (htotal : total ≤ m'.recv_buffer_pos)
    (hdrop : m'.received.drop total = m.received.drop total) (step : FrameStep) :
    ∃ turn, step.remove m' total = some turn ∧ TurnRefines m turn (step.consume total) := by
  cases step with
  | stop => exact ⟨.stop, rfl, .stop⟩
  | fail conn events => exact ⟨_, rfl, .fail hsize hpos⟩
  | next conn events =>
    obtain ⟨m'', hremove, hpos', hsize', hreceived⟩ := remove_frame_at_spec h htotal
    refine ⟨.next conn m'' events, ?_, ?_⟩
    · rw [FrameStep.remove, hremove, Option.map_some]
    · exact .next (hsize'.trans hsize) htwo (hpos'.trans hpos) (hreceived.trans hdrop)

/-- A turn of the receive loop accesses received bytes only, and does on the memory what the
turn on the received bytes does. -/
theorem receive_turn_refines (env : WsEnv) (conn : WsConnection) (h : m.recv_buffer_pos ≤ m.recv_buffer_size)
    (htwo : 2 ≤ m.recv_buffer_pos) :
    ∃ turn, receive_turn env conn m = some turn ∧ TurnRefines m turn (process_step env (m.view conn)) := by
  have hlength := length_received h
  have hfail : ∀ conn, TurnRefines m (.fail conn m []) (.fail conn []) := fun conn => .fail rfl rfl
  unfold receive_turn process_step
  rw [parse_frame_header_at_eq h, view_recv_buffer, hlength, Option.bind_some]
  cases hparse : uvhttp_ws_parse_frame_header m.received with
  | error error =>
    have hsecond : m.load 1 1 = some ((m.received.drop 1).take 1) := load_received (by omega)
    have hcode : ((m.received.drop 1).take 1).getD 0 0 = m.received.getD 1 0 := by
      rw [List.getD_eq_getElem?_getD, List.getElem?_take_of_lt Nat.one_pos, List.getElem?_drop]
      rfl
    dsimp only
    have hneed : (if ((m.received.drop 1).take 1).getD 0 0 &&& 0x7F = 126 then 4
        else if ((m.received.drop 1).take 1).getD 0 0 &&& 0x7F = 127 then 10 else 2) = header_need m.received := by
      rw [hcode, header_need]
    rw [hsecond, Option.map_some, hneed]
    refine ⟨_, rfl, ?_⟩
    by_cases hshort : m.recv_buffer_pos < header_need m.received
    · rw [if_pos hshort, if_pos hshort]
      exact .stop
    · rw [if_neg hshort, if_neg hshort]
      exact hfail _
  | ok parsed =>
    obtain ⟨header, header_size⟩ := parsed
    obtain ⟨hheader, -⟩ := parse_frame_header_ok hparse
    dsimp only
    rw [total_frame_size_t_eq hparse]
    split
    · exact ⟨_, rfl, hfail _⟩
    · split
      · exact ⟨_, rfl, hfail _⟩
      · split
        · exact ⟨_, rfl, hfail _⟩
        · split
          · exact ⟨_, rfl, hfail _⟩
          · split
            · exact ⟨_, rfl, .stop⟩
            · rename_i hcomplete
              obtain ⟨m', hextract, hpos, hsize, hdrop, hview⟩ := extract_payload_spec h (Nat.not_lt.mp hcomplete) conn
              rw [hextract, Option.bind_some]
              dsimp only
              have hview' : m'.view (m.view conn) = _ := hview
              rw [hview', hdrop]
              refine FrameStep.remove_refines hpos hsize ?_ (by rw [hpos, hsize]; exact h)
                (by rw [hpos]; exact Nat.not_lt.mp hcomplete) hdrop _
              exact hheader.trans (by rw [total_frame_size, Nat.add_assoc]; exact Nat.le_add_right _ _)

/-- What a turn leaves of the memory. -/
inductive TurnBounded (m : RecvMemory) : RecvTurn → Prop where
  | stop : TurnBounded m .stop
  | fail {conn : WsConnection} {m' : RecvMemory} {events : List WsEvent} :
      m'.recv_buffer_size = m.recv_buffer_size → m'.recv_buffer_pos = m.recv_buffer_pos →
      TurnBounded m (.fail conn m' events)
  | next {conn : WsConnection} {m' : RecvMemory} {events : List WsEvent} :
      m'.recv_buffer_size = m.recv_buffer_size → m'.recv_buffer_pos + 2 ≤ m.recv_buffer_pos →
      TurnBounded m (.next conn m' events)

theorem TurnRefines.bounded {turn : RecvTurn} {step : FrameStep} (h : TurnRefines m turn step) :
    TurnBounded m turn := by
  cases h with
  | stop => exact .stop
  | fail hsize hpos => exact .fail hsize hpos
  | next hsize htwo hpos hreceived => exact .next hsize (by omega)

/-- A turn stays in the received bytes, and takes two of them or ends the loop. -/
theorem receive_turn_bounded (env : WsEnv) (conn : WsConnection) (h : m.recv_buffer_pos ≤ m.recv_buffer_size)
    (htwo : 2 ≤ m.recv_buffer_pos) : ∃ turn, receive_turn env conn m = some turn ∧ TurnBounded m turn := by
  obtain ⟨turn, hturn, hrefines⟩ := receive_turn_refines env conn h htwo
  exact ⟨turn, hturn, hrefines.bounded⟩

end turns

section loops

variable {m : RecvMemory}

/-- The receive loop ends. -/
theorem receive_loop_returns (env : WsEnv) {s : Receiving} (h : s.memory.recv_buffer_pos ≤ s.memory.recv_buffer_size)
    {fuel : Nat} (hfuel : s.memory.recv_buffer_pos < 2 * fuel) :
    ∃ result, loop.run (receive_loop_turn env) fuel s = .returned result ∧
      result.2.memory.recv_buffer_pos ≤ result.2.memory.recv_buffer_size ∧
      result.2.memory.recv_buffer_size = s.memory.recv_buffer_size := by
  have hturn : ∀ s' : Receiving, s'.memory.recv_buffer_pos ≤ s'.memory.recv_buffer_size ∧
      s'.memory.recv_buffer_size = s.memory.recv_buffer_size →
      (∃ result, receive_loop_turn env s' = some (.inl result) ∧
        result.2.memory.recv_buffer_pos ≤ result.2.memory.recv_buffer_size ∧
        result.2.memory.recv_buffer_size = s.memory.recv_buffer_size) ∨
      ∃ s'', receive_loop_turn env s' = some (.inr s'') ∧
        (s''.memory.recv_buffer_pos ≤ s''.memory.recv_buffer_size ∧
          s''.memory.recv_buffer_size = s.memory.recv_buffer_size) ∧
        s''.memory.recv_buffer_pos + 2 ≤ s'.memory.recv_buffer_pos := by
    rintro s' ⟨hpos, hsize⟩
    by_cases hshort : s'.memory.recv_buffer_pos < 2
    · exact .inl ⟨_, if_pos hshort, hpos, hsize⟩
    · obtain ⟨turn, hturn, hbounded⟩ := receive_turn_bounded env s'.conn hpos (Nat.not_lt.mp hshort)
      rw [receive_loop_turn, if_neg hshort, hturn, Option.map_some]
      cases hbounded with
      | stop => exact .inl ⟨_, rfl, hpos, hsize⟩
      | fail hsize' hpos' => exact .inl ⟨_, rfl, by rw [hpos', hsize']; exact hpos, hsize'.trans hsize⟩
      | next hsize' hpos' => exact .inr ⟨_, rfl, ⟨by rw [hsize']; dsimp only; omega, hsize'.trans hsize⟩, hpos'⟩
  exact loop.returns_of_measure (fun s' => s'.memory.recv_buffer_pos) hturn ⟨h, rfl⟩ hfuel

/-- From a size above zero, the growth loop ends with the size that doubling reaches. -/
theorem grow_loop_returns (required : Nat) {new_size fuel : Nat} (hpos : 0 < new_size) (hfuel : 65 ≤ fuel) :
    loop.run (grow_turn required) fuel new_size = .returned (double_until required new_size) := by
  have hturn : ∀ size, 0 < size ∧ double_until required size = double_until required new_size →
      (∃ result, grow_turn required size = some (.inl result) ∧ result = double_until required new_size) ∨
      ∃ size', grow_turn required size = some (.inr size') ∧
        (0 < size' ∧ double_until required size' = double_until required new_size) ∧
        (64 - Nat.log 2 size') + 1 ≤ 64 - Nat.log 2 size := by
    rintro size ⟨hsize, hsame⟩
    rw [← hsame, double_until, grow_turn]
    by_cases hshort : size < required
    · rw [if_pos hshort, if_pos hshort]
      by_cases hlarge : size > SIZE_MAX / 2
      · exact .inl ⟨none, if_pos hlarge, (if_pos hlarge).symm⟩
      · rw [if_neg hlarge, if_neg hlarge, if_pos hsize]
        have hdouble := Nat.log_mul_base (by decide : 1 < 2) hsize.ne'
        have hlog : Nat.log 2 size < 63 := by
          apply Nat.log_lt_of_lt_pow hsize.ne'
          rw [SIZE_MAX] at hlarge
          omega
        exact .inr ⟨size * 2, rfl, ⟨by omega, rfl⟩, by omega⟩
    · rw [if_neg hshort, if_neg hshort]
      exact .inl ⟨some size, rfl, rfl⟩
  obtain ⟨result, hrun, rfl⟩ := loop.returns_of_measure (fun size => 64 - Nat.log 2 size) hturn ⟨hpos, rfl⟩
    (show 64 - Nat.log 2 new_size < 1 * fuel by omega)
  exact hrun

theorem length_realloc (env : WsEnv) (conn : WsConnection) {required doubled : Nat} (h : required ≤ doubled) :
    ∃ error conn' m', realloc_recv_memory env conn m required doubled = (error, conn', m') ∧
      m'.recv_buffer_pos = m.recv_buffer_pos ∧
      (m'.recv_buffer_size = m.recv_buffer_size ∨ required ≤ m'.recv_buffer_size) ∧
      (error = .OK → required ≤ m'.recv_buffer_size) := by
  unfold realloc_recv_memory
  dsimp only
  generalize hnew : (if doubled > size_t conn.max_frame_size then size_t conn.max_frame_size else doubled) = new_size
  by_cases hover : doubled > size_t conn.max_frame_size ∧ required > new_size
  · rw [if_pos hover]
    exact ⟨_, _, _, rfl, rfl, .inl rfl, fun herror => by cases herror⟩
  · rw [if_neg hover]
    have hroom : required ≤ new_size := by
      by_cases hcapped : doubled > size_t conn.max_frame_size
      · exact Nat.not_lt.mp fun hless => hover ⟨hcapped, hless⟩
      · rw [← hnew, if_neg hcapped]
        exact h
    cases env.alloc conn.calls new_size with
    | false => exact ⟨_, _, _, rfl, rfl, .inl rfl, fun herror => by cases herror⟩
    | true =>
      have hlength : ((List.range new_size).map fun i => m.recv_buffer.getD i (env.fresh conn.calls i)).length =
          new_size := by
        rw [List.length_map, List.length_range]
      exact ⟨_, _, _, rfl, rfl, .inr (hroom.trans_eq hlength.symm), fun _ => hroom.trans_eq hlength.symm⟩

/-- Making room ends, with a buffer that has it unless there is an error. -/
theorem grow_recv_memory_returns (env : WsEnv) (conn : WsConnection) (h : m.recv_buffer_pos ≤ m.recv_buffer_size)
    (hsize : 0 < m.recv_buffer_size) {len fuel : Nat} (hlen : m.recv_buffer_pos + len ≤ SIZE_MAX)
    (hfuel : 65 ≤ fuel) :
    ∃ error conn' m', grow_recv_memory env fuel conn m len = .returned (error, conn', m') ∧
      m'.recv_buffer_pos = m.recv_buffer_pos ∧ m'.recv_buffer_pos ≤ m'.recv_buffer_size ∧
      0 < m'.recv_buffer_size ∧ (error = .OK → m.recv_buffer_pos + len ≤ m'.recv_buffer_size) := by
  have hrequired : (m.recv_buffer_pos + len) % 2 ^ 64 = m.recv_buffer_pos + len := by
    apply Nat.mod_eq_of_lt
    rw [SIZE_MAX] at hlen
    omega
  unfold grow_recv_memory
  rw [hrequired]
  by_cases hfull : m.recv_buffer_pos + len > m.recv_buffer_size
  · dsimp only
    rw [if_pos hfull]
    by_cases hlarge : m.recv_buffer_size > SIZE_MAX / 2
    · rw [if_pos hlarge]
      exact ⟨_, _, _, rfl, rfl, h, hsize, fun herror => by cases herror⟩
    · rw [if_neg hlarge, grow_loop_returns _ (Nat.mul_pos hsize Nat.two_pos) hfuel]
      cases hdoubled : double_until (m.recv_buffer_pos + len) (m.recv_buffer_size * 2) with
      | none => exact ⟨_, _, _, rfl, rfl, h, hsize, fun herror => by cases herror⟩
      | some doubled =>
        obtain ⟨error, conn', m', hrealloc, hpos, hroom, hok⟩ :=
          length_realloc (m := m) env conn (le_double_until hdoubled)
        refine ⟨error, conn', m', ?_, hpos, ?_, ?_, hok⟩
        · dsimp only
          rw [hrealloc]
        · omega
        · omega
  · dsimp only
    rw [if_neg hfull]
    exact ⟨_, _, _, rfl, rfl, h, hsize, fun _ => Nat.not_lt.mp hfull⟩

end loops

/-- Receiving keeps to its buffer and ends, for every configuration and all data: the
buffer has a size above zero, as it is created with one and no call makes it smaller. -/
theorem receive_bounds_safe (env : WsEnv) (conn : WsConnection) {m : RecvMemory}
    (h : m.recv_buffer_pos ≤ m.recv_buffer_size) (hsize : 0 < m.recv_buffer_size) (data : List UInt8)
    (hlen : m.recv_buffer_pos + data.length ≤ SIZE_MAX) :
    (∀ fuel, 65 + m.recv_buffer_pos + data.length ≤ fuel →
      ∃ error s, process_data_at env fuel conn m data = .returned (error, s) ∧
        s.memory.recv_buffer_pos ≤ s.memory.recv_buffer_size ∧ 0 < s.memory.recv_buffer_size) ∧
    (∀ conn' m', m'.recv_buffer_pos ≤ m'.recv_buffer_size → 2 ≤ m'.recv_buffer_pos →
      ∃ turn, receive_turn env conn' m' = some turn ∧ TurnBounded m' turn) ∧
    ∀ m' header header_size, m'.recv_buffer_pos ≤ m'.recv_buffer_size →
      parse_frame_header_at m' = some (.ok (header, header_size)) →
      header_size + header.payload_length + 4 ≤ SIZE_MAX := by
  refine ⟨fun fuel hfuel => ?_, fun conn' m' => receive_turn_bounded env conn', ?_⟩
  · obtain ⟨error, conn', grown, hgrow, hpos, hle, hsize', hroom⟩ :=
      grow_recv_memory_returns env conn h hsize hlen (show 65 ≤ fuel by omega)
    unfold process_data_at
    rw [hgrow]
    by_cases hok : error = .OK
    · rw [hok]
      obtain ⟨recv_buffer, hstore⟩ : ∃ recv_buffer,
          memory.store grown.recv_buffer_size grown.recv_buffer grown.recv_buffer_pos data = some recv_buffer := by
        refine ⟨_, memory.store_eq ?_⟩
        rw [hpos]
        exact hroom hok
      have hlength := memory.length_store (Nat.le_refl _) hstore
      obtain ⟨result, hloop, hbounded, hkept⟩ := receive_loop_returns env
        (s := ⟨conn', ⟨recv_buffer, grown.recv_buffer_pos + data.length⟩, []⟩)
        (show grown.recv_buffer_pos + data.length ≤ recv_buffer.length by rw [hlength, hpos]; exact hroom hok)
        (show grown.recv_buffer_pos + data.length < 2 * fuel by omega)
      refine ⟨result.1, result.2, ?_, hbounded, ?_⟩
      · dsimp only
        rw [hstore]
        dsimp only
        rw [hloop]
      · rw [hkept]
        exact hsize'.trans_eq hlength.symm
    · refine ⟨error, ⟨conn', grown, []⟩, ?_, hle, hsize'⟩
      cases error <;> first | exact absurd rfl hok | rfl
  · intro m' header header_size hle hparse
    rw [parse_frame_header_at_eq hle] at hparse
    obtain ⟨hheader, hpayload⟩ := parse_frame_header_bounds (Option.some.inj hparse)
    rw [SIZE_MAX]
    omega

/-- A server connection with frames of up to 16 bytes. -/
def small_frames : WsConnection := uvhttp_ws_connection_create false true 16 0 fun _ => 0

/-- The first byte of a frame has come, the next two bring its length and the start of its key. -/
theorem receive_bounds_safe_three :
    ∃ error s, process_data_at .obliging 68 small_frames ⟨[0x82, 0, 0, 0], 1⟩ [0x81, 0x05] = .returned (error, s) ∧
      s.memory.recv_buffer_pos ≤ s.memory.recv_buffer_size ∧ 0 < s.memory.recv_buffer_size :=
  (receive_bounds_safe .obliging small_frames (m := ⟨[0x82, 0, 0, 0], 1⟩) (by decide) (by decide) [0x81, 0x05]
    (by decide)).1 68 (by decide)

/-- The growth loop of a buffer of no bytes does not end. -/
theorem receive_growth_stuck :
    ¬ ∃ fuel result, process_data_at .obliging fuel small_frames ⟨[], 0⟩ [0x82] = .returned result := by
  rintro ⟨fuel, result, h⟩
  have hstuck : ¬ loop.Terminates (grow_turn 1) 0 := loop.not_terminates_of_same rfl
  rw [process_data_at, grow_recv_memory] at h
  have hfull : (0 + [(0x82 : UInt8)].length) % 2 ^ 64 > ([] : List UInt8).length := by decide
  have hsmall : ¬ ([] : List UInt8).length > SIZE_MAX / 2 := by decide
  dsimp only at h
  rw [if_pos hfull, if_neg hsmall] at h
  cases hrun : loop.run (grow_turn ((0 + [(0x82 : UInt8)].length) % 2 ^ 64)) fuel (([] : List UInt8).length * 2) with
  | fault =>
    rw [hrun] at h
    cases h
  | running size =>
    rw [hrun] at h
    cases h
  | returned new_size => exact hstuck ⟨fuel, new_size, hrun⟩

end uvhttp.websocket
