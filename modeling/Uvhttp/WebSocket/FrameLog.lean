import Uvhttp.WebSocket.Verdict

open incremental

namespace uvhttp.websocket

/-- A frame that the receive loop has processed, with what happened then. -/
abbrev LogEntry := FrameHeader × List WsEvent

/-- A frame for which a callback can be made: the last one of a message, or a
close frame. -/
def speaks (header : FrameHeader) : Prop :=
  (is_data header.opcode ∧ header.fin = true) ∨ header.opcode = OPCODE_CLOSE

instance (header : FrameHeader) : Decidable (speaks header) := inferInstanceAs (Decidable (_ ∨ _))

/-- The frames that the receive loop processes, for at most `fuel` of them. -/
def process_log (env : WsEnv) : Nat → WsConnection → List LogEntry
  | 0, _ => []
  | fuel + 1, conn =>
    if conn.recv_buffer.length < 2 then []
    else
      match next_frame conn.is_server conn.max_frame_size conn.recv_buffer, process_step env conn with
      | .frame (header, _) _, .next conn' events => (header, events) :: process_log env fuel conn'
      | _, _ => []

/-- The frames that a call of `uvhttp_ws_process_data` processes. -/
def process_data_log (env : WsEnv) (conn : WsConnection) (data : List UInt8) : List LogEntry :=
  match grow_recv_buffer env conn data.length with
  | (.OK, conn) =>
    let received := { conn with recv_buffer := conn.recv_buffer ++ data }
    process_log env received.recv_buffer.length received
  | _ => []

/-- The complete frames in a buffer, up to the first that the header checks
refuse. -/
def complete_frames (is_server : Bool) (max_frame_size : Int) (buffer : List UInt8) : List Frame :=
  handled (decoder is_server max_frame_size) (fun (_ : Unit) _ => some ((), ([] : List WsEvent))) () buffer

theorem complete_frames_cons {is_server : Bool} {max_frame_size : Int} {buffer : List UInt8} {frame : Frame}
    {total : Nat} (h : (decoder is_server max_frame_size).next buffer = .frame frame total) :
    complete_frames is_server max_frame_size buffer =
      frame :: complete_frames is_server max_frame_size (buffer.drop total) :=
  handled_frame h rfl

/-- One turn of the receive loop that goes on to the next frame. -/
theorem process_step_next {env : WsEnv} {conn conn' : WsConnection} {events : List WsEvent}
    (hlen : 2 ≤ conn.recv_buffer.length) (h : process_step env conn = .next conn' events) :
    ∃ header payload total after, (decoder conn.is_server conn.max_frame_size).next conn.recv_buffer =
        .frame (header, payload) total ∧
      process_frame env (unmask_frame conn payload total) header payload (conn.recv_buffer.drop total) =
        .next after events ∧ conn' = remove_frame after total := by
  rw [process_step_eq env hlen, show conn.profile.decoder = decoder conn.is_server conn.max_frame_size from rfl] at h
  cases hnext : (decoder conn.is_server conn.max_frame_size).next conn.recv_buffer with
  | more =>
    rw [hnext] at h
    cases h
  | bad =>
    rw [hnext] at h
    cases h
  | frame frame total =>
    obtain ⟨header, payload⟩ := frame
    rw [hnext] at h
    dsimp only at h
    cases hstep : process_frame env (unmask_frame conn payload total) header payload
        (conn.recv_buffer.drop total) with
    | stop =>
      rw [hstep] at h
      cases h
    | fail failed made =>
      rw [hstep] at h
      cases h
    | next after made =>
      rw [hstep] at h
      cases h
      exact ⟨header, payload, total, after, rfl, hstep, rfl⟩

/-- Making room changes the receive buffer's size and what lies behind its bytes. -/
theorem grow_recv_buffer_writes (env : WsEnv) (conn : WsConnection) (len : Nat) :
    ∃ recv_stale recv_buffer_size calls, (grow_recv_buffer env conn len).2 =
      { conn with recv_stale, recv_buffer_size, calls } := by
  have hsame : ∃ recv_stale recv_buffer_size calls, conn = { conn with recv_stale, recv_buffer_size, calls } :=
    ⟨_, _, _, rfl⟩
  unfold grow_recv_buffer
  split
  · split
    · exact hsame
    · split
      · exact hsame
      · rename_i doubled hdoubled
        dsimp only
        generalize (if doubled > size_t conn.max_frame_size then size_t conn.max_frame_size else doubled) = new_size
        split
        · exact hsame
        · split
          · exact ⟨_, _, _, rfl⟩
          · exact ⟨_, _, _, rfl⟩
  · exact hsame

/-- Collecting a fragment changes the collected message and its sizes. -/
theorem fragment_append_writes (env : WsEnv) (conn : WsConnection) (payload : List UInt8) :
    ∃ fragmented_message fragmented_size fragmented_capacity calls,
      (uvhttp_ws_fragment_append env conn payload).2 =
        { conn with fragmented_message, fragmented_size, fragmented_capacity, calls } := by
  unfold uvhttp_ws_fragment_append
  dsimp only
  split
  · exact ⟨_, _, _, _, rfl⟩
  · split
    · split
      · exact ⟨_, _, _, _, rfl⟩
      · split
        · exact ⟨_, _, _, _, rfl⟩
        · exact ⟨_, _, _, _, rfl⟩
    · exact ⟨_, _, _, _, rfl⟩

theorem fragment_append_kept (env : WsEnv) (conn : WsConnection) (payload : List UInt8) :
    Kept conn (uvhttp_ws_fragment_append env conn payload).2 ∧
      (uvhttp_ws_fragment_append env conn payload).2.state = conn.state := by
  obtain ⟨message, size, capacity, calls, heq⟩ := fragment_append_writes env conn payload
  rw [heq]
  exact ⟨⟨rfl, rfl, rfl, rfl, rfl⟩, rfl⟩

/-- A turn that fails has made no callback, sent nothing and left the state. -/
theorem process_data_frame_fail {env : WsEnv} {conn conn' : WsConnection} {header : FrameHeader}
    {payload : List UInt8} {events : List WsEvent}
    (h : process_data_frame env conn header payload = .fail conn' events) :
    events = [] ∧ conn'.state = conn.state := by
  unfold process_data_frame at h
  split at h
  · split at h
    · cases h
      exact ⟨rfl, rfl⟩
    · split at h
      · dsimp only at h
        generalize hfresh : ({ conn with fragmented_opcode := header.opcode, fragmented_size := 0,
                                         fragmented_capacity := 0, fragmented_message := none } : WsConnection) =
          fresh at h
        have happend := (fragment_append_kept env fresh payload).2
        have hstate : fresh.state = conn.state := by rw [← hfresh]
        split at h
        · cases h
        · rename_i failed heq
          cases h
          rw [heq] at happend
          exact ⟨rfl, happend.trans hstate⟩
      · cases h
  · split at h
    · cases h
      exact ⟨rfl, rfl⟩
    · have happend := (fragment_append_kept env conn payload).2
      split at h
      · split at h
        · cases h
        · cases h
      · rename_i failed heq
        cases h
        rw [heq] at happend
        exact ⟨rfl, happend⟩

theorem process_frame_fail {env : WsEnv} {conn conn' : WsConnection} {header : FrameHeader}
    {payload following : List UInt8} {events : List WsEvent}
    (h : process_frame env conn header payload following = .fail conn' events) :
    events = [] ∧ conn'.state = conn.state := by
  unfold process_frame at h
  split at h
  · exact process_data_frame_fail h
  · split at h
    · cases h
    · split at h
      · split at h
        · cases h
        · cases h
      · cases h

/-- One turn of the receive loop that fails: on a header, or on a complete frame. -/
theorem process_step_fail_cases {env : WsEnv} {conn conn' : WsConnection} {events : List WsEvent}
    (hlen : 2 ≤ conn.recv_buffer.length) (h : process_step env conn = .fail conn' events) :
    (conn' = conn ∧ events = []) ∨ ∃ header payload total,
      process_frame env (unmask_frame conn payload total) header payload (conn.recv_buffer.drop total) =
        .fail conn' events := by
  rw [process_step_eq env hlen] at h
  cases hnext : conn.profile.decoder.next conn.recv_buffer with
  | more =>
    rw [hnext] at h
    cases h
  | bad =>
    rw [hnext] at h
    cases h
    exact .inl ⟨rfl, rfl⟩
  | frame frame total =>
    obtain ⟨header, payload⟩ := frame
    rw [hnext] at h
    dsimp only at h
    cases hstep : process_frame env (unmask_frame conn payload total) header payload
        (conn.recv_buffer.drop total) with
    | stop =>
      rw [hstep] at h
      cases h
    | fail failed made =>
      rw [hstep] at h
      cases h
      exact .inr ⟨header, payload, total, hstep⟩
    | next after made =>
      rw [hstep] at h
      cases h

theorem process_step_fail {env : WsEnv} {conn conn' : WsConnection} {events : List WsEvent}
    (hlen : 2 ≤ conn.recv_buffer.length) (h : process_step env conn = .fail conn' events) :
    events = [] ∧ conn'.state = conn.state := by
  rcases process_step_fail_cases hlen h with ⟨rfl, rfl⟩ | ⟨header, payload, total, hframe⟩
  · exact ⟨rfl, rfl⟩
  · have hfailed := process_frame_fail hframe
    exact ⟨hfailed.1, hfailed.2⟩

/-- The log has the events of the loop. -/
theorem process_frames_events (env : WsEnv) (fuel : Nat) (conn : WsConnection) :
    (process_frames env fuel conn).2.2 = (process_log env fuel conn).flatMap Prod.snd := by
  induction fuel generalizing conn with
  | zero => rfl
  | succ fuel ih =>
    rw [process_frames, process_log]
    by_cases hshort : conn.recv_buffer.length < 2
    · rw [if_pos hshort, if_pos hshort]
      rfl
    · rw [if_neg hshort, if_neg hshort]
      cases hstep : process_step env conn with
      | stop =>
        cases next_frame conn.is_server conn.max_frame_size conn.recv_buffer with
        | more => rfl
        | bad => rfl
        | frame frame total => rfl
      | fail conn' events =>
        rw [(process_step_fail (by omega) hstep).1]
        cases next_frame conn.is_server conn.max_frame_size conn.recv_buffer with
        | more => rfl
        | bad => rfl
        | frame frame total => rfl
      | next conn' events =>
        obtain ⟨header, payload, total, after, hnext, -, -⟩ := process_step_next (by omega) hstep
        have hframe : next_frame conn.is_server conn.max_frame_size conn.recv_buffer =
            .frame (header, payload) total := hnext
        rw [hframe]
        dsimp only
        rw [ih, List.flatMap_cons]

theorem process_data_events (env : WsEnv) (conn : WsConnection) (data : List UInt8) :
    (uvhttp_ws_process_data env conn data).2.2 = (process_data_log env conn data).flatMap Prod.snd := by
  unfold uvhttp_ws_process_data process_data_log
  rcases grow_recv_buffer env conn data.length with ⟨error, grown⟩
  cases error <;> first | rfl | exact process_frames_events env _ _

end uvhttp.websocket
