import Uvhttp.WebSocket.Decode

open incremental

namespace uvhttp.websocket

/-- What a connection remembers of the message it is receiving. -/
structure Receiver where
  state : WsState
  message : Option (List UInt8)
  size : Nat
  capacity : Nat
  opcode : UInt8
  deriving DecidableEq

/-- What receiving depends on and never changes. -/
structure Profile where
  is_server : Bool
  max_frame_size : Int
  max_message_size : Int
  on_message : Bool
  on_close : Bool
  deriving DecidableEq

/-- Collect a fragment, within the message limit. -/
def append_fragment (max_message_size : Int) (r : Receiver) (payload : List UInt8) : Option Receiver :=
  let limit := size_t max_message_size
  if limit > 0 ∧ (r.size > limit ∨ payload.length > limit - r.size) then none
  else if payload.length > r.capacity - r.size then
    (fragment_capacity (r.size + payload.length) r.capacity).map fun capacity =>
      { r with message := some (r.message.getD [] ++ payload), size := r.size + payload.length, capacity }
  else some { r with message := r.message.map (· ++ payload), size := r.size + payload.length }

/-- The callback for a complete message. -/
def message_events (p : Profile) (opcode : UInt8) (data : List UInt8) : List WsEvent :=
  if p.on_message then [.on_message opcode data] else []

/-- The fragment state machine on its own. -/
def handle_data (p : Profile) (r : Receiver) (header : FrameHeader) (payload : List UInt8) :
    Option (Receiver × List WsEvent) :=
  match r.message with
  | none =>
    if header.opcode = OPCODE_CONTINUATION then none
    else if !header.fin then
      (append_fragment p.max_message_size
        { r with message := none, size := 0, capacity := 0, opcode := header.opcode } payload).map fun r => (r, [])
    else some (r, message_events p header.opcode payload)
  | some _ =>
    if header.opcode ≠ OPCODE_CONTINUATION then none
    else
      (append_fragment p.max_message_size r payload).map fun r =>
        if header.fin then
          ({ r with message := none, size := 0, capacity := 0 }, message_events p r.opcode (r.message.getD []))
        else (r, [])

/-- The callback for a close frame whose reason ends inside its payload. -/
def close_events (p : Profile) (payload : List UInt8) : List WsEvent :=
  if p.on_close then
    [.on_close (if 2 ≤ payload.length then be_value (payload.take 2) else 1000) (some (cstr (payload.drop 2)))]
  else []

/-- What a frame does to the receiver, and the callbacks it makes. -/
def handle_frame (p : Profile) (r : Receiver) (frame : Frame) : Option (Receiver × List WsEvent) :=
  if frame.1.opcode = OPCODE_TEXT ∨ frame.1.opcode = OPCODE_BINARY ∨ frame.1.opcode = OPCODE_CONTINUATION then
    handle_data p r frame.1 frame.2
  else if frame.1.opcode = OPCODE_CLOSE then some ({ r with state := .CLOSED }, close_events p frame.2)
  else some (r, [])

/-- The reason of a close frame is a C string inside its payload, or there is
nobody to read it. -/
def CloseTerminated (p : Profile) (frame : Frame) : Prop :=
  p.on_close = true → frame.1.opcode = OPCODE_CLOSE → frame.2.length ≤ 2 ∨ 0 ∈ frame.2.drop 2

/-- Allocations succeed and callbacks leave the connection alone. -/
structure WsEnv.Quiet (env : WsEnv) : Prop where
  alloc : ∀ calls size, env.alloc calls size = true
  message_callback : ∀ conn opcode data, env.message_callback conn opcode data = conn
  close_callback : ∀ conn code reason, env.close_callback conn code reason = conn

/-- An environment in which every request is granted and nothing interferes. -/
def WsEnv.obliging : WsEnv where
  alloc := fun _ _ => true
  fresh := fun _ _ => 0
  random := fun _ => some [0, 0, 0, 0]
  ssl_write := fun _ len => .wrote len
  send := fun _ len => some len
  message_callback := fun conn _ _ => conn
  close_callback := fun conn _ _ => conn

theorem WsEnv.obliging_quiet : WsEnv.obliging.Quiet :=
  ⟨fun _ _ => rfl, fun _ _ _ => rfl, fun _ _ _ => rfl⟩

/-- The receiver state of a connection. -/
abbrev WsConnection.receiver (conn : WsConnection) : Receiver where
  state := conn.state
  message := conn.fragmented_message
  size := conn.fragmented_size
  capacity := conn.fragmented_capacity
  opcode := conn.fragmented_opcode

abbrev WsConnection.profile (conn : WsConnection) : Profile where
  is_server := conn.is_server
  max_frame_size := conn.max_frame_size
  max_message_size := conn.max_message_size
  on_message := conn.on_message
  on_close := conn.on_close

/-- The connection with another receiver state and other transport counters. -/
def WsConnection.moved (conn : WsConnection) (r : Receiver) (calls bytes_sent frames_sent : Nat) :
    WsConnection :=
  { conn with
    state := r.state
    fragmented_message := r.message
    fragmented_size := r.size
    fragmented_capacity := r.capacity
    fragmented_opcode := r.opcode
    calls, bytes_sent, frames_sent }

/-- Only the receiver state and the transport counters differ. -/
def Moves (conn : WsConnection) (r : Receiver) (conn' : WsConnection) : Prop :=
  ∃ calls bytes_sent frames_sent, conn' = conn.moved r calls bytes_sent frames_sent

theorem Moves.refl (conn : WsConnection) : Moves conn conn.receiver conn :=
  ⟨conn.calls, conn.bytes_sent, conn.frames_sent, rfl⟩

theorem Moves.receiver {conn conn' : WsConnection} {r : Receiver} (h : Moves conn r conn') :
    conn'.receiver = r := by
  obtain ⟨_, _, _, rfl⟩ := h
  rfl

/-- The callbacks among the events. -/
def callbacks (events : List WsEvent) : List WsEvent :=
  events.filter fun
    | .frame_sent _ => false
    | _ => true

@[simp] theorem callbacks_append (events later : List WsEvent) :
    callbacks (events ++ later) = callbacks events ++ callbacks later := List.filter_append ..

theorem send_frame_moves (env : WsEnv) (conn : WsConnection) (data : List UInt8) (opcode : UInt8) :
    Moves conn conn.receiver (uvhttp_ws_send_frame env conn data opcode).2.1 ∧
      callbacks (uvhttp_ws_send_frame env conn data opcode).2.2 = [] := by
  unfold uvhttp_ws_send_frame
  split
  · exact ⟨.refl conn, rfl⟩
  · split
    · exact ⟨.refl conn, rfl⟩
    · simp only
      split
      · exact ⟨⟨_, _, _, rfl⟩, rfl⟩
      · split
        · exact ⟨⟨_, _, _, rfl⟩, rfl⟩
        · split
          · exact ⟨⟨_, _, _, rfl⟩, rfl⟩
          · split
            · split
              · exact ⟨⟨_, _, _, rfl⟩, rfl⟩
              · exact ⟨⟨_, _, _, rfl⟩, rfl⟩
            · split
              · exact ⟨⟨_, _, _, rfl⟩, rfl⟩
              · split
                · exact ⟨⟨_, _, _, rfl⟩, rfl⟩
                · exact ⟨⟨_, _, _, rfl⟩, rfl⟩

/-- How the result of an append on a connection matches that of the receiver. -/
inductive AppendRefines (conn : WsConnection) : Option Receiver → UvhttpError × WsConnection → Prop where
  | refused (conn' : WsConnection) : AppendRefines conn none (.INVALID_PARAM, conn')
  | moved {conn' : WsConnection} {r : Receiver} :
      Moves conn r conn' → AppendRefines conn (some r) (.OK, conn')

/-- How a turn of the receive loop matches the receiver's. -/
inductive StepRefines (conn : WsConnection) : Option (Receiver × List WsEvent) → FrameStep → Prop where
  | refused (conn' : WsConnection) : StepRefines conn none (.fail conn' [])
  | moved {conn' : WsConnection} {r : Receiver} {events made : List WsEvent} :
      Moves conn r conn' → callbacks events = made → StepRefines conn (some (r, made)) (.next conn' events)

/-- With an allocator that answers, `uvhttp_ws_fragment_append` collects the
fragment or refuses it as the receiver does. -/
theorem fragment_append_refines {env : WsEnv} (halloc : ∀ calls size, env.alloc calls size = true)
    (conn : WsConnection) (payload : List UInt8) :
    AppendRefines conn (append_fragment conn.max_message_size conn.receiver payload)
      (uvhttp_ws_fragment_append env conn payload) := by
  unfold append_fragment uvhttp_ws_fragment_append
  by_cases hlimit : size_t conn.max_message_size > 0 ∧ (conn.fragmented_size > size_t conn.max_message_size ∨
      payload.length > size_t conn.max_message_size - conn.fragmented_size)
  · rw [if_pos hlimit, if_pos hlimit]
    exact .refused conn
  · rw [if_neg hlimit, if_neg hlimit]
    by_cases hgrow : payload.length > conn.fragmented_capacity - conn.fragmented_size
    · rw [if_pos hgrow, if_pos hgrow]
      cases fragment_capacity (conn.fragmented_size + payload.length) conn.fragmented_capacity with
      | none => exact .refused conn
      | some capacity =>
        simp only [Option.map_some, halloc, Bool.not_true, Bool.false_eq_true, if_false]
        exact .moved ⟨_, _, _, rfl⟩
    · rw [if_neg hgrow, if_neg hgrow]
      exact .moved ⟨conn.calls, conn.bytes_sent, conn.frames_sent, rfl⟩

theorem deliver_message_eq {env : WsEnv} (henv : env.Quiet) (conn : WsConnection) (opcode : UInt8)
    (data : List UInt8) :
    deliver_message env conn opcode data = (conn, message_events conn.profile opcode data) := by
  unfold deliver_message message_events
  simp only [henv.message_callback]
  split <;> rfl

theorem callbacks_message_events (p : Profile) (opcode : UInt8) (data : List UInt8) :
    callbacks (message_events p opcode data) = message_events p opcode data := by
  unfold message_events
  split <;> rfl

/-- The data branch of the receive loop is the receiver's state machine. -/
theorem process_data_frame_refines {env : WsEnv} (henv : env.Quiet) (conn : WsConnection)
    (header : FrameHeader) (payload : List UInt8) :
    StepRefines conn (handle_data conn.profile conn.receiver header payload)
      (process_data_frame env conn header payload) := by
  unfold handle_data process_data_frame
  cases hmessage : conn.fragmented_message with
  | none =>
    simp only [WsConnection.receiver, hmessage]
    by_cases hcont : header.opcode = OPCODE_CONTINUATION
    · rw [if_pos hcont, if_pos hcont]
      exact .refused conn
    · rw [if_neg hcont, if_neg hcont]
      cases hfin : header.fin with
      | false =>
        simp only [Bool.not_false, if_true]
        have happend := fragment_append_refines henv.alloc
          { conn with fragmented_opcode := header.opcode, fragmented_size := 0, fragmented_capacity := 0,
                      fragmented_message := none } payload
        simp only [WsConnection.receiver] at happend
        generalize append_fragment _ _ _ = expected at happend
        generalize uvhttp_ws_fragment_append _ _ _ = result at happend
        cases happend with
        | refused conn' => exact .refused conn'
        | moved hmoves =>
          obtain ⟨calls, bytes_sent, frames_sent, rfl⟩ := hmoves
          exact .moved ⟨calls, bytes_sent, frames_sent, rfl⟩ rfl
      | true =>
        simp only [Bool.not_true, Bool.false_eq_true, if_false, deliver_message_eq henv]
        have hrefl := Moves.refl conn
        simp only [WsConnection.receiver, hmessage] at hrefl
        exact .moved hrefl (callbacks_message_events ..)
  | some message =>
    simp only [WsConnection.receiver, hmessage]
    by_cases hcont : header.opcode = OPCODE_CONTINUATION
    · rw [if_neg (not_not_intro hcont), if_neg (not_not_intro hcont)]
      have happend := fragment_append_refines henv.alloc conn payload
      simp only [WsConnection.receiver, hmessage] at happend
      generalize append_fragment _ _ _ = expected at happend
      generalize uvhttp_ws_fragment_append _ _ _ = result at happend
      cases happend with
      | refused conn' => exact .refused conn'
      | moved hmoves =>
        obtain ⟨calls, bytes_sent, frames_sent, rfl⟩ := hmoves
        simp only [Option.map_some]
        cases hfin : header.fin with
        | false =>
          simp only [Bool.false_eq_true, if_false]
          exact .moved ⟨calls, bytes_sent, frames_sent, rfl⟩ rfl
        | true =>
          simp only [if_true, deliver_message_eq henv]
          exact .moved ⟨calls, bytes_sent, frames_sent, rfl⟩ (callbacks_message_events ..)
    · rw [if_pos hcont, if_pos hcont]
      exact .refused conn

/-- A reason that ends inside the payload is read without looking further. -/
theorem read_string_terminated (conn : WsConnection) {reason : List UInt8} (h : 0 ∈ reason)
    (following : List UInt8) : read_string conn (reason ++ following) = some (cstr reason) := by
  induction reason with
  | nil => cases h
  | cons c reason ih =>
    rw [List.cons_append, read_string, cstr_cons]
    by_cases hc : c = 0
    · rw [if_pos hc, if_pos hc]
    · have hmem : 0 ∈ reason := (List.mem_cons.mp h).resolve_left (Ne.symm hc)
      rw [if_neg hc, if_neg hc, ih hmem, Option.map_some]

theorem deliver_close_eq {env : WsEnv} (henv : env.Quiet) (conn : WsConnection) {payload : List UInt8}
    (following : List UInt8) (hreason : conn.on_close = true → payload.length ≤ 2 ∨ 0 ∈ payload.drop 2) :
    deliver_close env conn payload following = (conn, close_events conn.profile payload) := by
  unfold deliver_close close_events
  simp only [henv.close_callback]
  split
  · rename_i hcallback
    have hstring : (if 2 < payload.length then read_string conn (payload.drop 2 ++ following) else some []) =
        some (cstr (payload.drop 2)) := by
      by_cases hlong : 2 < payload.length
      · rw [if_pos hlong, read_string_terminated conn ((hreason hcallback).resolve_left (by omega))]
      · rw [if_neg hlong, List.drop_eq_nil_of_le (by omega), cstr_nil]
    rw [hstring]
  · rfl

theorem echo_close_moves (env : WsEnv) (srv_ctx : Bool) (conn : WsConnection) (payload : List UInt8) :
    Moves conn conn.receiver (echo_close env srv_ctx conn payload).1 ∧
      callbacks (echo_close env srv_ctx conn payload).2 = [] := by
  unfold echo_close
  split
  · exact send_frame_moves env conn _ OPCODE_CLOSE
  · exact ⟨.refl conn, rfl⟩

theorem callbacks_close_events (p : Profile) (payload : List UInt8) :
    callbacks (close_events p payload) = close_events p payload := by
  unfold close_events
  split <;> rfl

theorem process_close_frame_refines {env : WsEnv} (henv : env.Quiet) (conn : WsConnection)
    {payload : List UInt8} (following : List UInt8)
    (hreason : conn.on_close = true → payload.length ≤ 2 ∨ 0 ∈ payload.drop 2) :
    StepRefines conn (some ({ conn.receiver with state := .CLOSED }, close_events conn.profile payload))
      (process_close_frame env conn payload following) := by
  unfold process_close_frame
  rw [deliver_close_eq henv conn following hreason]
  obtain ⟨hmoves, hsilent⟩ := echo_close_moves env conn.user_data conn payload
  refine .moved ?_ ?_
  · obtain ⟨calls, bytes_sent, frames_sent, heq⟩ := hmoves
    refine ⟨calls, bytes_sent, frames_sent, ?_⟩
    rw [heq]
    rfl
  · rw [callbacks_append, hsilent, callbacks_close_events, List.append_nil]

/-- A complete frame does to the connection what it does to the receiver. -/
theorem process_frame_refines {env : WsEnv} (henv : env.Quiet) (conn : WsConnection)
    {header : FrameHeader} {payload : List UInt8} (following : List UInt8)
    (hclose : CloseTerminated conn.profile (header, payload)) :
    StepRefines conn (handle_frame conn.profile conn.receiver (header, payload))
      (process_frame env conn header payload following) := by
  unfold handle_frame process_frame
  split
  · exact process_data_frame_refines henv conn header payload
  · split
    · rename_i hopcode
      exact process_close_frame_refines henv conn following fun hcallback => hclose hcallback hopcode
    · split
      · split
        · obtain ⟨hmoves, hsilent⟩ := send_frame_moves env conn payload OPCODE_PONG
          exact .moved hmoves hsilent
        · exact .moved (.refl conn) rfl
      · exact .moved (.refl conn) rfl

end uvhttp.websocket
