import Uvhttp.Lib.Machine
import Uvhttp.WebSocket.FrameLog
import Uvhttp.WebSocket.HandshakeAgreement
import Uvhttp.WebSocket.Sending

open incremental machine

namespace uvhttp.websocket

/-- How far a connection is in its life. -/
def WsState.rank : WsState → Nat
  | CONNECTING => 0
  | OPEN => 1
  | CLOSING => 2
  | CLOSED => 3

/-- Callbacks leave the limits and the receive buffer alone. They may send frames
and close a connection that is not closed. -/
structure WsEnv.Forward (env : WsEnv) : Prop where
  message_kept : ∀ conn opcode data, Kept conn (env.message_callback conn opcode data)
  message_state : ∀ conn opcode data, conn.state ≠ .CLOSED →
    conn.state.rank ≤ (env.message_callback conn opcode data).state.rank ∧
      (env.message_callback conn opcode data).state ≠ .CLOSED
  close_kept : ∀ conn code reason, Kept conn (env.close_callback conn code reason)

/-- What a processed frame does to the connection: what it cannot change, and how
the state moves. -/
structure FrameEffect (conn conn' : WsConnection) (header : FrameHeader) (events : List WsEvent) : Prop where
  kept : Kept conn conn'
  silent : ¬ speaks header → callbacks events = [] ∧ conn'.state = conn.state
  close : header.opcode = OPCODE_CLOSE → conn'.state = .CLOSED
  forward : header.opcode ≠ OPCODE_CLOSE → conn.state ≠ .CLOSED →
    conn.state.rank ≤ conn'.state.rank ∧ conn'.state ≠ .CLOSED

theorem deliver_message_forward {env : WsEnv} (henv : env.Forward) (conn : WsConnection) (opcode : UInt8)
    (data : List UInt8) :
    Kept conn (deliver_message env conn opcode data).1 ∧ (conn.state ≠ .CLOSED →
      conn.state.rank ≤ (deliver_message env conn opcode data).1.state.rank ∧
        (deliver_message env conn opcode data).1.state ≠ .CLOSED) := by
  unfold deliver_message
  split
  · exact ⟨henv.message_kept conn opcode data, henv.message_state conn opcode data⟩
  · exact ⟨⟨rfl, rfl, rfl, rfl, rfl⟩, fun h => ⟨Nat.le_refl _, h⟩⟩

/-- A frame that makes no callback and leaves the state. -/
theorem FrameEffect.of_silent {conn conn' : WsConnection} {header : FrameHeader} {events : List WsEvent}
    (hkept : Kept conn conn') (hstate : conn'.state = conn.state) (hevents : callbacks events = [])
    (hopcode : header.opcode ≠ OPCODE_CLOSE) : FrameEffect conn conn' header events := by
  refine ⟨hkept, fun _ => ⟨hevents, hstate⟩, fun h => absurd h hopcode, fun _ hopen => ?_⟩
  rw [hstate]
  exact ⟨Nat.le_refl _, hopen⟩

theorem process_data_frame_effect {env : WsEnv} (henv : env.Forward) {conn conn' : WsConnection}
    {header : FrameHeader} {payload : List UInt8} {events : List WsEvent} (hdata : is_data header.opcode)
    (h : process_data_frame env conn header payload = .next conn' events) :
    FrameEffect conn conn' header events := by
  have hopcode : header.opcode ≠ OPCODE_CLOSE := by
    rcases hdata with hdata | hdata | hdata
    all_goals
      rw [hdata]
      decide
  have hspeaks : header.fin = true → ¬ ¬ speaks header := fun hfin h => h (.inl ⟨hdata, hfin⟩)
  unfold process_data_frame at h
  split at h
  · split at h
    · cases h
    · split at h
      · dsimp only at h
        generalize hfresh : ({ conn with fragmented_opcode := header.opcode, fragmented_size := 0,
                                         fragmented_capacity := 0, fragmented_message := none } : WsConnection) =
          fresh at h
        have happend := fragment_append_kept env fresh payload
        have hkept : Kept conn fresh ∧ fresh.state = conn.state := by
          rw [← hfresh]
          exact ⟨⟨rfl, rfl, rfl, rfl, rfl⟩, rfl⟩
        split at h
        · rename_i appended heq
          cases h
          rw [heq] at happend
          exact .of_silent (hkept.1.trans happend.1) (happend.2.trans hkept.2) rfl hopcode
        · cases h
      · rename_i hfin
        rw [Bool.not_eq_true, Bool.not_eq_eq_eq_not, Bool.not_false] at hfin
        cases h
        obtain ⟨hkept, hforward⟩ := deliver_message_forward henv conn header.opcode payload
        exact ⟨hkept, fun hsilent => absurd hsilent (hspeaks hfin), fun hclose => absurd hclose hopcode,
          fun _ => hforward⟩
  · split at h
    · cases h
    · have happend := fragment_append_kept env conn payload
      split at h
      · rename_i appended heq
        rw [heq] at happend
        split at h
        · rename_i hfin
          cases h
          obtain ⟨hkept, hforward⟩ := deliver_message_forward henv appended appended.fragmented_opcode
            (appended.fragmented_message.getD [])
          have hall := happend.1.trans hkept
          rw [happend.2] at hforward
          exact ⟨⟨hall.is_server, hall.max_frame_size, hall.max_message_size, hall.recv_buffer,
            hall.recv_buffer_size⟩, fun hsilent => absurd hsilent (hspeaks hfin), fun hclose => absurd hclose hopcode,
            fun _ => hforward⟩
        · cases h
          exact .of_silent happend.1 happend.2 rfl hopcode
      · cases h

/-- Every processed frame moves the state forward, but for what comes after a
close frame. -/
theorem process_frame_effect {env : WsEnv} (henv : env.Forward) {conn conn' : WsConnection}
    {header : FrameHeader} {payload following : List UInt8} {events : List WsEvent}
    (h : process_frame env conn header payload following = .next conn' events) :
    FrameEffect conn conn' header events := by
  have hrefl : Kept conn conn := ⟨rfl, rfl, rfl, rfl, rfl⟩
  unfold process_frame at h
  split at h
  · rename_i hdata
    exact process_data_frame_effect henv hdata h
  · split at h
    · rename_i hclose
      have hdelivered : Kept conn (deliver_close env conn payload following).1 := by
        unfold deliver_close
        dsimp only
        split
        · exact henv.close_kept conn _ _
        · exact hrefl
      have hecho := (echo_close_moves env conn.user_data (deliver_close env conn payload following).1 payload).1.kept
      have hall := hdelivered.trans hecho
      cases h
      exact ⟨⟨hall.is_server, hall.max_frame_size, hall.max_message_size, hall.recv_buffer, hall.recv_buffer_size⟩,
        fun hsilent => absurd (.inr hclose) hsilent, fun _ => rfl, fun hother => absurd hclose hother⟩
    · rename_i hother
      split at h
      · split at h
        · cases h
          have hpong := send_frame_moves env conn payload OPCODE_PONG
          exact .of_silent hpong.1.kept (congrArg Receiver.state hpong.1.receiver) hpong.2 hother
        · cases h
          exact .of_silent hrefl rfl rfl hother
      · cases h
        exact .of_silent hrefl rfl rfl hother

/-- After a close frame comes no frame that could make a callback. -/
def SilentAfterClose : Bool → List Frame → Prop
  | _, [] => True
  | closed, frame :: frames => (closed = true → ¬ speaks frame.1) ∧
      SilentAfterClose (closed || frame.1.opcode == OPCODE_CLOSE) frames

instance SilentAfterClose.decidable :
    (closed : Bool) → (frames : List Frame) → Decidable (SilentAfterClose closed frames)
  | _, [] => inferInstanceAs (Decidable True)
  | closed, frame :: frames =>
    have := SilentAfterClose.decidable (closed || frame.1.opcode == OPCODE_CLOSE) frames
    inferInstanceAs (Decidable (_ ∧ _))

/-- Once a close frame has been processed, no callback is made. -/
def NoneAfterClose (log : List LogEntry) : Prop :=
  log.Pairwise fun earlier later => earlier.1.opcode = OPCODE_CLOSE → callbacks later.2 = []

/-- What a call does to the state of a connection, and which frames it processes. -/
structure CallEffect (before after : WsState) (log : List LogEntry) : Prop where
  rank : before.rank ≤ after.rank
  ordered : NoneAfterClose log
  quiet : before = .CLOSED → ∀ entry ∈ log, callbacks entry.2 = []
  closed : ∀ entry ∈ log, entry.1.opcode = OPCODE_CLOSE → after = .CLOSED

theorem WsState.eq_closed {state : WsState} (h : WsState.CLOSED.rank ≤ state.rank) : state = .CLOSED := by
  cases state with
  | CLOSED => rfl
  | CONNECTING => exact absurd h (by decide)
  | OPEN => exact absurd h (by decide)
  | CLOSING => exact absurd h (by decide)

theorem WsState.rank_le_closed (state : WsState) : state.rank ≤ WsState.CLOSED.rank := by
  cases state <;> decide

theorem CallEffect.nothing {before after : WsState} (h : before.rank ≤ after.rank) : CallEffect before after [] :=
  ⟨h, .nil, fun _ _ hentry => (List.not_mem_nil hentry).elim, fun _ hentry => (List.not_mem_nil hentry).elim⟩

/-- A processed frame, and then the rest of the buffer. -/
theorem CallEffect.cons {conn conn' : WsConnection} {header : FrameHeader} {events : List WsEvent} {after : WsState}
    {log : List LogEntry} (hframe : FrameEffect conn conn' header events)
    (hsilent : conn.state = .CLOSED → ¬ speaks header) (hrest : CallEffect conn'.state after log) :
    CallEffect conn.state after ((header, events) :: log) := by
  have hkeeps : conn.state = .CLOSED → conn'.state = .CLOSED := by
    intro hclosed
    exact (hframe.silent (hsilent hclosed)).2.trans hclosed
  have hends : conn'.state = .CLOSED → after = .CLOSED := by
    intro hclosed
    apply WsState.eq_closed
    rw [← hclosed]
    exact hrest.rank
  refine ⟨Nat.le_trans ?_ hrest.rank, List.pairwise_cons.mpr ⟨?_, hrest.ordered⟩, ?_, ?_⟩
  · by_cases hclose : header.opcode = OPCODE_CLOSE
    · rw [hframe.close hclose]
      exact WsState.rank_le_closed _
    · by_cases hclosed : conn.state = .CLOSED
      · rw [hclosed, hkeeps hclosed]
      · exact (hframe.forward hclose hclosed).1
  · intro entry hentry hclose
    exact hrest.quiet (hframe.close hclose) entry hentry
  · intro hclosed entry hentry
    rcases List.mem_cons.mp hentry with rfl | hmem
    · exact (hframe.silent (hsilent hclosed)).1
    · exact hrest.quiet (hkeeps hclosed) entry hmem
  · intro entry hentry hclose
    rcases List.mem_cons.mp hentry with rfl | hmem
    · exact hends (hframe.close hclose)
    · exact hrest.closed entry hmem hclose

/-- A call, and then a later one. -/
theorem CallEffect.append {before between after : WsState} {log later : List LogEntry}
    (hfirst : CallEffect before between log) (hrest : CallEffect between after later) :
    CallEffect before after (log ++ later) := by
  have hcloses : between = .CLOSED → after = .CLOSED := by
    rintro rfl
    exact WsState.eq_closed hrest.rank
  refine ⟨Nat.le_trans hfirst.rank hrest.rank, List.pairwise_append.mpr ⟨hfirst.ordered, hrest.ordered, ?_⟩, ?_, ?_⟩
  · intro earlier hearlier entry hentry hclose
    exact hrest.quiet (hfirst.closed earlier hearlier hclose) entry hentry
  · rintro rfl entry hentry
    rcases List.mem_append.mp hentry with hmem | hmem
    · exact hfirst.quiet rfl entry hmem
    · exact hrest.quiet (WsState.eq_closed hfirst.rank) entry hmem
  · intro entry hentry hclose
    rcases List.mem_append.mp hentry with hmem | hmem
    · exact hcloses (hfirst.closed entry hmem hclose)
    · exact hrest.closed entry hmem hclose

/-- The receive loop moves the state forward when nothing that speaks follows a
close frame in its buffer. -/
theorem process_frames_effect {env : WsEnv} (henv : env.Forward) (fuel : Nat) {conn : WsConnection}
    (hsilent : SilentAfterClose (conn.state == .CLOSED)
      (complete_frames conn.is_server conn.max_frame_size conn.recv_buffer)) :
    CallEffect conn.state (process_frames env fuel conn).2.1.state (process_log env fuel conn) := by
  induction fuel generalizing conn with
  | zero => exact .nothing (Nat.le_refl _)
  | succ fuel ih =>
    rw [process_frames, process_log]
    by_cases hshort : conn.recv_buffer.length < 2
    · rw [if_pos hshort, if_pos hshort]
      exact .nothing (Nat.le_refl _)
    · rw [if_neg hshort, if_neg hshort]
      cases hstep : process_step env conn with
      | stop =>
        cases next_frame conn.is_server conn.max_frame_size conn.recv_buffer with
        | more => exact .nothing (Nat.le_refl _)
        | bad => exact .nothing (Nat.le_refl _)
        | frame frame total => exact .nothing (Nat.le_refl _)
      | fail conn' events =>
        have hstate := (process_step_fail (by omega) hstep).2
        have hsame : conn.state.rank ≤ conn'.state.rank := by rw [hstate]
        cases next_frame conn.is_server conn.max_frame_size conn.recv_buffer with
        | more => exact .nothing hsame
        | bad => exact .nothing hsame
        | frame frame total => exact .nothing hsame
      | next conn' events =>
        obtain ⟨header, payload, total, after, hnext, hframe, rfl⟩ := process_step_next (by omega) hstep
        have heffect := process_frame_effect henv hframe
        have hframe' : next_frame conn.is_server conn.max_frame_size conn.recv_buffer =
            .frame (header, payload) total := hnext
        have hle := (decoder conn.is_server conn.max_frame_size).size_le hnext
        have hbuffer := remove_frame_kept heffect.kept (decoder_payload_le hnext) hle
        rw [complete_frames_cons hnext] at hsilent
        obtain ⟨hhead, htail⟩ := hsilent
        have hspeaks : conn.state = .CLOSED → ¬ speaks header := fun hclosed => hhead (by rw [hclosed]; rfl)
        have hflag : (conn.state == .CLOSED || header.opcode == OPCODE_CLOSE) =
            ((remove_frame after total).state == .CLOSED) := by
          change _ = (after.state == .CLOSED)
          by_cases hclosed : conn.state = .CLOSED
          · have hkeeps : after.state = .CLOSED := (heffect.silent (hspeaks hclosed)).2.trans hclosed
            rw [hclosed, hkeeps]
            rfl
          · by_cases hclose : header.opcode = OPCODE_CLOSE
            · rw [heffect.close hclose, beq_iff_eq.mpr hclose, Bool.or_true]
              rfl
            · have hopen := (heffect.forward hclose hclosed).2
              rw [beq_eq_false_iff_ne.mpr hclosed, beq_eq_false_iff_ne.mpr hclose, beq_eq_false_iff_ne.mpr hopen]
              rfl
        have hroom := heffect.kept.remove_frame_same_room
        have hlater := @ih (remove_frame after total) (by
          rw [hroom.is_server, hroom.max_frame_size, hbuffer, ← hflag]
          exact htail)
        rw [hframe']
        exact @CallEffect.cons (unmask_frame conn payload total) after header events _ _ heffect hspeaks hlater

theorem grow_recv_buffer_kept (env : WsEnv) (conn : WsConnection) (len : Nat) :
    (grow_recv_buffer env conn len).2.state = conn.state ∧
      (grow_recv_buffer env conn len).2.is_server = conn.is_server ∧
      (grow_recv_buffer env conn len).2.max_frame_size = conn.max_frame_size ∧
      (grow_recv_buffer env conn len).2.recv_buffer = conn.recv_buffer := by
  obtain ⟨stale, size, calls, heq⟩ := grow_recv_buffer_writes env conn len
  rw [heq]
  exact ⟨rfl, rfl, rfl, rfl⟩

theorem process_data_effect {env : WsEnv} (henv : env.Forward) {conn : WsConnection} {data : List UInt8}
    (hsilent : SilentAfterClose (conn.state == .CLOSED)
      (complete_frames conn.is_server conn.max_frame_size (conn.recv_buffer ++ data))) :
    CallEffect conn.state (uvhttp_ws_process_data env conn data).2.1.state (process_data_log env conn data) := by
  have hgrow := grow_recv_buffer_kept env conn data.length
  unfold uvhttp_ws_process_data process_data_log
  generalize grow_recv_buffer env conn data.length = result at hgrow ⊢
  obtain ⟨error, grown⟩ := result
  obtain ⟨hstate, hserver, hmax, hbuffer⟩ := hgrow
  dsimp only at hstate hserver hmax hbuffer
  by_cases hok : error = .OK
  · subst hok
    dsimp only
    have hframes := @process_frames_effect env henv (grown.recv_buffer ++ data).length
      { grown with recv_buffer := grown.recv_buffer ++ data } (by
        dsimp only
        rw [hstate, hserver, hmax, hbuffer]
        exact hsilent)
    rw [← hstate]
    exact hframes
  · have hsame : conn.state.rank ≤ grown.state.rank := by rw [hstate]
    cases error <;> first | exact .nothing hsame | exact absurd rfl hok

/-- A call on a connection. -/
inductive WsCall where
  | handshake_server (request behind : List UInt8) (response_len : Nat)
  | verify_handshake_response (response behind : List UInt8) (response_len : Nat)
  | send (op : WsSend)
  | process_data (data : List UInt8)
  deriving DecidableEq, Repr

/-- What a call shows: the state it leaves, and the frames it has processed. -/
structure CallTrace where
  state : WsState
  log : List LogEntry
  deriving DecidableEq, Repr

section calls

variable (d : Digest) (env : WsEnv)

/-- One call. -/
def call_step (conn : HandshakeConnection) : WsCall → HandshakeConnection × CallTrace
  | .handshake_server request behind response_len =>
    let conn := (uvhttp_ws_handshake_server d conn request behind response_len).2.1
    (conn, ⟨conn.state, []⟩)
  | .verify_handshake_response response behind response_len =>
    let conn := (uvhttp_ws_verify_handshake_response d conn response behind response_len).2
    (conn, ⟨conn.state, []⟩)
  | .send op =>
    let conn := { conn with toWsConnection := (op.perform env conn.toWsConnection).2.1 }
    (conn, ⟨conn.state, []⟩)
  | .process_data data =>
    let log := process_data_log env conn.toWsConnection data
    let conn := { conn with toWsConnection := (uvhttp_ws_process_data env conn.toWsConnection data).2.1 }
    (conn, ⟨conn.state, log⟩)

/-- The request has a key, and the response to it fits its buffer. -/
def answerable (request behind : List UInt8) (response_len : Nat) : Prop :=
  ∃ key ∈ extract_value request behind HEADER_WEBSOCKET_KEY,
    (handshake_response (uvhttp_ws_generate_accept d key)).length < response_len

instance (request behind : List UInt8) (response_len : Nat) : Decidable (answerable d request behind response_len) :=
  inferInstanceAs (Decidable (∃ key ∈ extract_value request behind HEADER_WEBSOCKET_KEY, _))

/-- The response passes every check of the client. -/
def acceptable (conn : HandshakeConnection) (response behind : List UInt8) (response_len : Nat) : Prop :=
  response_len ≠ 0 ∧ response.take 12 = bytes "HTTP/1.1 101" ∧
    (uvhttp_ws_strcasestr response (bytes "Upgrade: websocket")).isSome = true ∧
    ∃ accept ∈ extract_value response behind HEADER_WEBSOCKET_ACCEPT, conn.client_key = [] ∨
      accept = d.base64_encode (d.sha1 ((conn.client_key ++ WS_GUID).take 127))

/-- A call that keeps the order of states: no handshake succeeds on a connection
that is closing or closed, a closed connection is not closed again, and no frame
that could make a callback follows a close frame. -/
def WsCall.Orderly (conn : HandshakeConnection) : WsCall → Prop
  | .handshake_server request behind response_len =>
    conn.state.rank ≤ WsState.OPEN.rank ∨ ¬ answerable d request behind response_len
  | .verify_handshake_response response behind response_len =>
    conn.state.rank ≤ WsState.OPEN.rank ∨ ¬ acceptable d conn response behind response_len
  | .send (.close _ _) => conn.state ≠ .CLOSED ∨ env.alloc conn.calls 128 = false
  | .send _ => True
  | .process_data data => SilentAfterClose (conn.state == .CLOSED)
      (complete_frames conn.is_server conn.max_frame_size (conn.recv_buffer ++ data))

/-- The states that a run of calls goes through. -/
def states (conn : HandshakeConnection) (calls : List WsCall) : List WsState :=
  conn.state :: (answers (call_step d env) conn calls).map CallTrace.state

/-- The frames that a run of calls processes. -/
def run_log (conn : HandshakeConnection) (calls : List WsCall) : List LogEntry :=
  (answers (call_step d env) conn calls).flatMap CallTrace.log

variable {d env}

theorem handshake_server_effect {conn : HandshakeConnection} {request behind : List UInt8} {response_len : Nat}
    (h : conn.state.rank ≤ WsState.OPEN.rank ∨ ¬ answerable d request behind response_len) :
    conn.state.rank ≤ (uvhttp_ws_handshake_server d conn request behind response_len).2.1.state.rank := by
  unfold uvhttp_ws_handshake_server
  cases hkey : extract_value request behind HEADER_WEBSOCKET_KEY with
  | none => exact Nat.le_refl _
  | some key =>
    dsimp only
    split
    · exact Nat.le_refl _
    · rename_i hroom
      rcases h with hopen | hunanswered
      · exact hopen
      · exact absurd ⟨key, hkey, by omega⟩ hunanswered

theorem verify_handshake_response_effect {conn : HandshakeConnection} {response behind : List UInt8}
    {response_len : Nat} (h : conn.state.rank ≤ WsState.OPEN.rank ∨ ¬ acceptable d conn response behind response_len) :
    conn.state.rank ≤ (uvhttp_ws_verify_handshake_response d conn response behind response_len).2.state.rank := by
  unfold uvhttp_ws_verify_handshake_response
  split
  · exact Nat.le_refl _
  · rename_i hlen
    split
    · exact Nat.le_refl _
    · rename_i hstatus
      split
      · exact Nat.le_refl _
      · rename_i hupgrade
        cases haccept : extract_value response behind HEADER_WEBSOCKET_ACCEPT with
        | none => exact Nat.le_refl _
        | some accept =>
          dsimp only
          split
          · exact Nat.le_refl _
          · rename_i hverified
            rcases h with hopen | hrefused
            · exact hopen
            · refine absurd ⟨hlen, not_not.mp hstatus, ?_, accept, haccept, ?_⟩ hrefused
              · cases hfound : uvhttp_ws_strcasestr response (bytes "Upgrade: websocket") with
                | none =>
                  rw [hfound] at hupgrade
                  exact absurd rfl hupgrade
                | some found => rfl
              · by_contra hneither
                rw [not_or] at hneither
                exact hverified hneither

theorem send_effect {conn : WsConnection} {op : WsSend}
    (h : ∀ code reason, op = .close code reason → conn.state ≠ .CLOSED ∨ env.alloc conn.calls 128 = false) :
    conn.state.rank ≤ (op.perform env conn).2.1.state.rank := by
  have hframe : ∀ (conn : WsConnection) data opcode,
      (uvhttp_ws_send_frame env conn data opcode).2.1.state = conn.state := by
    intro conn data opcode
    exact congrArg Receiver.state (send_frame_moves env conn data opcode).1.receiver
  cases op with
  | text data => exact Nat.le_of_eq (congrArg WsState.rank (hframe conn data OPCODE_TEXT).symm)
  | binary data => exact Nat.le_of_eq (congrArg WsState.rank (hframe conn data OPCODE_BINARY).symm)
  | ping data => exact Nat.le_of_eq (congrArg WsState.rank (hframe conn data OPCODE_PING).symm)
  | pong data => exact Nat.le_of_eq (congrArg WsState.rank (hframe conn data OPCODE_PONG).symm)
  | close code reason =>
    rw [WsSend.perform, uvhttp_ws_close]
    dsimp only
    split
    · exact Nat.le_refl _
    · rename_i hallocated
      rcases h code reason rfl with hopen | hrefused
      · cases hstate : conn.state with
        | CONNECTING => exact Nat.zero_le _
        | OPEN => exact (by decide : WsState.OPEN.rank ≤ WsState.CLOSING.rank)
        | CLOSING => exact Nat.le_refl _
        | CLOSED => exact absurd hstate hopen
      · rw [hrefused] at hallocated
        exact absurd rfl hallocated

/-- An orderly call moves the state forward. -/
theorem call_effect (henv : env.Forward) {conn : HandshakeConnection} {call : WsCall}
    (h : call.Orderly d env conn) :
    CallEffect conn.state (call_step d env conn call).1.state (call_step d env conn call).2.log := by
  cases call with
  | handshake_server request behind response_len => exact .nothing (handshake_server_effect h)
  | verify_handshake_response response behind response_len => exact .nothing (verify_handshake_response_effect h)
  | send op =>
    refine .nothing (send_effect ?_)
    rintro code reason rfl
    exact h
  | process_data data => exact process_data_effect henv h

theorem call_step_state (conn : HandshakeConnection) (call : WsCall) :
    (call_step d env conn call).2.state = (call_step d env conn call).1.state := by
  cases call <;> rfl

theorem states_cons (conn : HandshakeConnection) (call : WsCall) (calls : List WsCall) :
    states d env conn (call :: calls) = conn.state :: states d env (call_step d env conn call).1 calls := by
  rw [states, states, answers, List.map_cons, call_step_state]

/-- A run of orderly calls moves the state forward. -/
theorem run_effect (henv : env.Forward) {conn : HandshakeConnection} {calls : List WsCall}
    (h : Enabled (call_step d env) (WsCall.Orderly d env) conn calls) :
    CallEffect conn.state (run (call_step d env) conn calls).state (run_log d env conn calls) := by
  induction calls generalizing conn with
  | nil => exact .nothing (Nat.le_refl _)
  | cons call calls ih => exact (call_effect henv h.1).append (ih h.2)

theorem run_states (henv : env.Forward) {conn : HandshakeConnection} {calls : List WsCall}
    (h : Enabled (call_step d env) (WsCall.Orderly d env) conn calls) :
    (∀ state ∈ states d env conn calls, conn.state.rank ≤ state.rank) ∧
      (states d env conn calls).Pairwise fun earlier later => earlier.rank ≤ later.rank := by
  induction calls generalizing conn with
  | nil =>
    refine ⟨fun state hstate => ?_, List.pairwise_singleton _ _⟩
    rw [List.mem_singleton.mp hstate]
  | cons call calls ih =>
    obtain ⟨hlater, hordered⟩ := ih h.2
    have hbefore : ∀ state ∈ states d env (call_step d env conn call).1 calls, conn.state.rank ≤ state.rank := by
      intro state hstate
      exact Nat.le_trans (call_effect henv h.1).rank (hlater state hstate)
    rw [states_cons]
    refine ⟨fun state hstate => ?_, List.pairwise_cons.mpr ⟨hbefore, hordered⟩⟩
    rcases List.mem_cons.mp hstate with rfl | hmem
    · exact Nat.le_refl _
    · exact hbefore state hmem

/-- In a run of orderly calls the states come in order, and no callback is made
once a close frame has been processed. -/
theorem lifetime_ordered (henv : env.Forward) (conn : HandshakeConnection) (calls : List WsCall)
    (h : Enabled (call_step d env) (WsCall.Orderly d env) conn calls) :
    ((states d env conn calls).Pairwise fun earlier later => earlier.rank ≤ later.rank) ∧
      NoneAfterClose (run_log d env conn calls) :=
  ⟨(run_states henv h).2, (run_effect henv h).ordered⟩

end calls

theorem WsEnv.obliging_forward : WsEnv.obliging.Forward where
  message_kept := fun _ _ _ => ⟨rfl, rfl, rfl, rfl, rfl⟩
  message_state := fun _ _ _ h => ⟨Nat.le_refl _, h⟩
  close_kept := fun _ _ _ => ⟨rfl, rfl, rfl, rfl, rfl⟩

/-- The request with the key of the sample. -/
def sample_request : List UInt8 :=
  bytes "GET / HTTP/1.1\r\nSec-WebSocket-Key: dGhlIHNhbXBsZSBub25jZQ==\r\n\r\n"

/-- A connection that answers the handshake, sends a message and is closed by its
client. -/
def sample_calls : List WsCall :=
  [.handshake_server sample_request [] 512, .send (.text (bytes "hi")),
    .process_data [0x88, 0x82, 0, 0, 0, 0, 0x03, 0xe8]]

theorem lifetime_ordered_sample :
    states sample_digest .obliging (new_end true) sample_calls = [.CONNECTING, .OPEN, .OPEN, .CLOSED] ∧
      ((states sample_digest .obliging (new_end true) sample_calls).Pairwise fun earlier later =>
        earlier.rank ≤ later.rank) ∧ NoneAfterClose (run_log sample_digest .obliging (new_end true) sample_calls) := by
  refine ⟨by decide +kernel, lifetime_ordered WsEnv.obliging_forward (new_end true) sample_calls ?_⟩
  refine ⟨.inl (by decide), trivial, ?_, trivial⟩
  rw [WsCall.Orderly]
  decide +kernel

/-- A server connection that is open and tells of its callbacks. -/
def open_end : HandshakeConnection :=
  { new_end true with state := .OPEN, on_message := true, on_close := true, user_data := true }

/-- Closing a closed connection sets it back to closing, and a message behind a close
frame is still delivered. -/
theorem lifetime_disordered :
    ¬ ((states sample_digest .obliging open_end
        [.process_data [0x88, 0x80, 0, 0, 0, 0], .send (.close 1000 none)]).Pairwise fun earlier later =>
          earlier.rank ≤ later.rank) ∧
      ¬ NoneAfterClose (run_log sample_digest .obliging open_end
        [.process_data [0x88, 0x80, 0, 0, 0, 0, 0x81, 0x81, 0, 0, 0, 0, 104]]) := by
  constructor
  · decide +kernel
  · unfold NoneAfterClose
    decide +kernel


end uvhttp.websocket
