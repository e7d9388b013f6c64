import Uvhttp.WebSocket.Session

open incremental machine

namespace uvhttp.websocket

/-- The internal callbacks are set. -/
structure Installed (conn : WsConnection) : Prop where
  on_message : conn.on_message = true
  on_close : conn.on_close = true

/-- The callbacks that a processed frame makes. -/
inductive Told (header : FrameHeader) : List WsEvent → Prop where
  | message (opcode : UInt8) (data : List UInt8) : is_data header.opcode → header.fin = true →
      Told header [.on_message opcode data]
  | close (code : Nat) (reason : Option (List UInt8)) : header.opcode = OPCODE_CLOSE →
      Told header [.on_close code reason]
  | nothing : ¬ speaks header → Told header []

/-- A turn of the receive loop leaves the callbacks set, and makes those of its
frame. -/
def FrameStep.Tells (header : FrameHeader) : FrameStep → Prop
  | .stop => True
  | .fail conn _ => Installed conn
  | .next conn events => Installed conn ∧ Told header (callbacks events)

/-- A close frame makes the close callback. -/
theorem Told.on_close_mem {header : FrameHeader} {events : List WsEvent} (h : Told header (callbacks events))
    (hclose : header.opcode = OPCODE_CLOSE) : ∃ code reason, .on_close code reason ∈ events := by
  generalize htold : callbacks events = told at h
  cases h with
  | message opcode data hdata hfin =>
    rw [hclose] at hdata
    exact absurd hdata (by decide)
  | close code reason hframe =>
    have hmem : WsEvent.on_close code reason ∈ callbacks events := by
      rw [htold]
      exact List.mem_singleton_self _
    exact ⟨code, reason, (List.mem_filter.mp hmem).1⟩
  | nothing hsilent => exact absurd (.inr hclose) hsilent

theorem Moves.installed {conn conn' : WsConnection} {r : Receiver} (h : Moves conn r conn')
    (hinstalled : Installed conn) : Installed conn' := by
  obtain ⟨calls, bytes_sent, frames_sent, rfl⟩ := h
  exact ⟨hinstalled.on_message, hinstalled.on_close⟩

theorem fragment_append_installed (env : WsEnv) {conn : WsConnection} (h : Installed conn)
    (payload : List UInt8) : Installed (uvhttp_ws_fragment_append env conn payload).2 := by
  obtain ⟨message, size, capacity, calls, heq⟩ := fragment_append_writes env conn payload
  rw [heq]
  exact ⟨h.on_message, h.on_close⟩

theorem deliver_message_tells (env : WsEnv) {conn : WsConnection} (h : Installed conn) (opcode : UInt8)
    (data : List UInt8) :
    Installed (deliver_message (server_env env) conn opcode data).1 ∧
      (deliver_message (server_env env) conn opcode data).2 = [.on_message opcode data] := by
  unfold deliver_message
  rw [if_pos h.on_message]
  exact ⟨⟨h.on_message, h.on_close⟩, rfl⟩

theorem process_data_frame_tells (env : WsEnv) {conn : WsConnection} (h : Installed conn) {header : FrameHeader}
    (hdata : is_data header.opcode) (payload : List UInt8) :
    (process_data_frame (server_env env) conn header payload).Tells header := by
  have hopcode : header.opcode ≠ OPCODE_CLOSE := by
    rcases hdata with hdata | hdata | hdata
    all_goals
      rw [hdata]
      decide
  have hsilent : header.fin ≠ true → ¬ speaks header := by
    rintro hfin (⟨-, hlast⟩ | hclose)
    · exact hfin hlast
    · exact hopcode hclose
  unfold process_data_frame
  split
  · split
    · exact h
    · split
      · rename_i hmore
        dsimp only
        have happend := @fragment_append_installed (server_env env) { conn with
          fragmented_opcode := header.opcode, fragmented_size := 0, fragmented_capacity := 0,
          fragmented_message := none } ⟨h.on_message, h.on_close⟩ payload
        split
        · rename_i appended heq
          rw [heq] at happend
          refine ⟨happend, .nothing (hsilent fun hfin => ?_)⟩
          rw [hfin] at hmore
          exact absurd hmore (by decide)
        · rename_i failed hfailed heq
          rw [heq] at happend
          exact happend
      · rename_i hfin
        rw [Bool.not_eq_true, Bool.not_eq_eq_eq_not, Bool.not_false] at hfin
        obtain ⟨hinstalled, hevents⟩ := deliver_message_tells env h header.opcode payload
        dsimp only
        refine ⟨hinstalled, ?_⟩
        rw [hevents]
        exact .message _ _ hdata hfin
  · split
    · exact h
    · have happend := fragment_append_installed (server_env env) h payload
      split
      · rename_i appended heq
        rw [heq] at happend
        split
        · rename_i hfin
          obtain ⟨hinstalled, hevents⟩ := deliver_message_tells env happend appended.fragmented_opcode
            (appended.fragmented_message.getD [])
          dsimp only
          refine ⟨⟨hinstalled.on_message, hinstalled.on_close⟩, ?_⟩
          rw [hevents]
          exact .message _ _ hdata hfin
        · rename_i hmore
          exact ⟨happend, .nothing (hsilent hmore)⟩
      · rename_i failed hfailed heq
        rw [heq] at happend
        exact happend

theorem process_frame_tells (env : WsEnv) {conn : WsConnection} (h : Installed conn) (header : FrameHeader)
    (payload following : List UInt8) :
    (process_frame (server_env env) conn header payload following).Tells header := by
  unfold process_frame
  split
  · rename_i hdata
    exact process_data_frame_tells env h hdata payload
  · rename_i hdata
    split
    · rename_i hclose
      have hdelivered : Installed (deliver_close (server_env env) conn payload following).1 ∧
          ∃ code reason, (deliver_close (server_env env) conn payload following).2 = [.on_close code reason] := by
        unfold deliver_close
        dsimp only
        rw [if_pos h.on_close]
        exact ⟨⟨h.on_message, h.on_close⟩, _, _, rfl⟩
      obtain ⟨hinstalled, code, reason, hevents⟩ := hdelivered
      obtain ⟨hmoves, hsilent⟩ := echo_close_moves (server_env env) conn.user_data
        (deliver_close (server_env env) conn payload following).1 payload
      have hechoed := hmoves.installed hinstalled
      refine ⟨⟨hechoed.on_message, hechoed.on_close⟩, ?_⟩
      rw [callbacks_append, hsilent, List.append_nil, hevents]
      exact .close code reason hclose
    · rename_i hother
      have hsilent : ¬ speaks header := by
        rintro (⟨hframe, -⟩ | hframe)
        · exact hdata hframe
        · exact hother hframe
      split
      · split
        · obtain ⟨hmoves, hcallbacks⟩ := send_frame_moves (server_env env) conn payload OPCODE_PONG
          refine ⟨hmoves.installed h, ?_⟩
          change Told header (callbacks (uvhttp_ws_send_frame (server_env env) conn payload OPCODE_PONG).2.2)
          rw [hcallbacks]
          exact .nothing hsilent
        · exact ⟨h, .nothing hsilent⟩
      · exact ⟨h, .nothing hsilent⟩

/-- The receive loop leaves the callbacks set, and makes those of its frames. -/
theorem process_frames_tell (env : WsEnv) (fuel : Nat) {conn : WsConnection} (h : Installed conn) :
    Installed (process_frames (server_env env) fuel conn).2.1 ∧
      ∀ entry ∈ process_log (server_env env) fuel conn, Told entry.1 (callbacks entry.2) := by
  have hnone : ∀ entry ∈ ([] : List LogEntry), Told entry.1 (callbacks entry.2) :=
    fun _ hentry => (List.not_mem_nil hentry).elim
  induction fuel generalizing conn with
  | zero => exact ⟨h, hnone⟩
  | succ fuel ih =>
    rw [process_frames, process_log]
    by_cases hshort : conn.recv_buffer.length < 2
    · rw [if_pos hshort, if_pos hshort]
      exact ⟨h, hnone⟩
    · rw [if_neg hshort, if_neg hshort]
      cases hstep : process_step (server_env env) conn with
      | stop =>
        cases next_frame conn.is_server conn.max_frame_size conn.recv_buffer with
        | more => exact ⟨h, hnone⟩
        | bad => exact ⟨h, hnone⟩
        | frame frame total => exact ⟨h, hnone⟩
      | fail conn' events =>
        have hkept : Installed conn' := by
          rcases process_step_fail_cases (by omega) hstep with ⟨rfl, -⟩ | ⟨header, payload, total, hframe⟩
          · exact h
          · have htells := @process_frame_tells env (unmask_frame conn payload total) ⟨h.on_message, h.on_close⟩
              header payload (conn.recv_buffer.drop total)
            rw [hframe] at htells
            exact htells
        cases next_frame conn.is_server conn.max_frame_size conn.recv_buffer with
        | more => exact ⟨hkept, hnone⟩
        | bad => exact ⟨hkept, hnone⟩
        | frame frame total => exact ⟨hkept, hnone⟩
      | next conn' events =>
        obtain ⟨header, payload, total, after, hnext, hframe, rfl⟩ := process_step_next (by omega) hstep
        have htells := @process_frame_tells env (unmask_frame conn payload total) ⟨h.on_message, h.on_close⟩ header
          payload (conn.recv_buffer.drop total)
        rw [hframe] at htells
        have hframe' : next_frame conn.is_server conn.max_frame_size conn.recv_buffer =
            .frame (header, payload) total := hnext
        rw [hframe']
        obtain ⟨hrest, hlater⟩ := @ih (remove_frame after total) ⟨htells.1.on_message, htells.1.on_close⟩
        refine ⟨hrest, fun entry hentry => ?_⟩
        rcases List.mem_cons.mp hentry with rfl | hmem
        · exact htells.2
        · exact hlater entry hmem

theorem grow_recv_buffer_installed (env : WsEnv) {conn : WsConnection} (h : Installed conn) (len : Nat) :
    Installed (grow_recv_buffer env conn len).2 := by
  obtain ⟨stale, size, calls, heq⟩ := grow_recv_buffer_writes env conn len
  rw [heq]
  exact ⟨h.on_message, h.on_close⟩

theorem process_data_tells (env : WsEnv) {conn : WsConnection} (h : Installed conn) (data : List UInt8) :
    Installed (uvhttp_ws_process_data (server_env env) conn data).2.1 ∧
      ∀ entry ∈ process_data_log (server_env env) conn data, Told entry.1 (callbacks entry.2) := by
  have hgrow := grow_recv_buffer_installed (server_env env) h data.length
  unfold uvhttp_ws_process_data process_data_log
  generalize grow_recv_buffer (server_env env) conn data.length = result at hgrow ⊢
  obtain ⟨error, grown⟩ := result
  by_cases hok : error = .OK
  · subst hok
    exact @process_frames_tell env _ { grown with recv_buffer := grown.recv_buffer ++ data }
      ⟨hgrow.on_message, hgrow.on_close⟩
  · cases error <;> first
      | exact ⟨hgrow, fun _ hentry => (List.not_mem_nil hentry).elim⟩
      | exact absurd rfl hok

theorem ws_close_installed (env : WsEnv) {conn : WsConnection} (h : Installed conn) (code : Int)
    (reason : Option (List UInt8)) : Installed (uvhttp_ws_close env conn code reason).2.1 := by
  unfold uvhttp_ws_close
  dsimp only
  split
  · exact ⟨h.on_message, h.on_close⟩
  · have hsent := (send_frame_moves env { conn with calls := conn.calls + 1 } (close_payload code reason)
      OPCODE_CLOSE).1.installed ⟨h.on_message, h.on_close⟩
    exact ⟨hsent.on_message, hsent.on_close⟩

section relays

variable (handler : Option WsHandler)

/-- What has been called, while the wrapper is there and after its release. -/
structure Ordered (wrapper : Bool) (calls : List RelayCall) : Prop where
  attached : wrapper = true → .on_close ∉ calls
  once : calls.count .on_close ≤ 1
  closed : wrapper = false → ∀ h ∈ handler, h.on_close = true → calls.count .on_close = 1
  ordered : calls.Pairwise fun earlier later => earlier = .on_close → ∀ opcode data, later ≠ .on_message opcode data

variable {handler}

theorem Ordered.start : Ordered handler true [] :=
  ⟨fun _ => List.not_mem_nil, Nat.zero_le _, nofun, .nil⟩

/-- Calls other than `on_close`, with the wrapper there. -/
theorem Ordered.append {calls later : List RelayCall} (h : Ordered handler true calls)
    (hlater : .on_close ∉ later) : Ordered handler true (calls ++ later) := by
  have hcalls := h.attached rfl
  have hnone : .on_close ∉ calls ++ later := by
    rw [List.mem_append, not_or]
    exact ⟨hcalls, hlater⟩
  refine ⟨fun _ => hnone, ?_, nofun, ?_⟩
  · rw [List.count_eq_zero_of_not_mem hnone]
    exact Nat.zero_le _
  · apply List.pairwise_of_forall_mem_list
    intro earlier hearlier _ _ hclose
    rw [hclose] at hearlier
    exact absurd hearlier hnone

theorem Ordered.message {wrapper : Bool} {calls : List RelayCall} (h : Ordered handler wrapper calls)
    (opcode : UInt8) (data : List UInt8) :
    Ordered handler wrapper (calls ++ on_websocket_message handler wrapper opcode data) := by
  unfold on_websocket_message
  cases wrapper with
  | false =>
    rw [if_pos (by decide), List.append_nil]
    exact h
  | true =>
    rw [if_neg (by decide)]
    apply h.append
    rw [List.mem_cons, not_or]
    refine ⟨nofun, ?_⟩
    cases handler with
    | none => exact List.not_mem_nil
    | some handler =>
      dsimp only
      split
      · rw [List.mem_singleton]
        exact nofun
      · exact List.not_mem_nil

/-- The release of the wrapper. -/
theorem Ordered.close {wrapper : Bool} {calls : List RelayCall} (h : Ordered handler wrapper calls) :
    Ordered handler (on_websocket_close handler wrapper).1 (calls ++ (on_websocket_close handler wrapper).2) := by
  unfold on_websocket_close
  cases wrapper with
  | false =>
    rw [if_pos (by decide), List.append_nil]
    exact h
  | true =>
    rw [if_neg (by decide)]
    have hcalls := h.attached rfl
    have hsilent : calls.count .on_close = 0 := List.count_eq_zero_of_not_mem hcalls
    have hwithout : ∀ h' ∈ handler, h'.on_close ≠ true → Ordered handler false (calls ++ []) := by
      intro h' hmem hnone
      rw [List.append_nil]
      refine ⟨nofun, by omega, fun _ h'' hmem' hset => ?_, h.ordered⟩
      rw [Option.mem_unique hmem' hmem] at hset
      exact absurd hset hnone
    cases handler with
    | none =>
      dsimp only
      rw [List.append_nil]
      exact ⟨nofun, by omega, fun _ _ hnone => absurd hnone (Option.not_mem_none _), h.ordered⟩
    | some handler =>
      dsimp only
      split
      · have hcount : (calls ++ [RelayCall.on_close]).count .on_close = 1 := by
          rw [List.count_append, hsilent, List.count_singleton_self]
        refine ⟨nofun, by omega, fun _ _ _ _ => hcount, ?_⟩
        refine List.pairwise_append.mpr ⟨h.ordered, List.pairwise_singleton _ _, ?_⟩
        intro earlier hearlier later hlater hclose
        rw [hclose] at hearlier
        exact absurd hearlier hcalls
      · rename_i hnone
        exact hwithout handler rfl hnone

theorem Ordered.relay {wrapper : Bool} {calls : List RelayCall} (h : Ordered handler wrapper calls)
    (events : List WsEvent) :
    Ordered handler (relay handler wrapper events).1 (calls ++ (relay handler wrapper events).2) := by
  induction events generalizing wrapper calls with
  | nil =>
    rw [uvhttp.websocket.relay, List.append_nil]
    exact h
  | cons event events ih =>
    cases event with
    | on_message opcode data =>
      have hlater := ih (h.message opcode data)
      rw [List.append_assoc] at hlater
      exact hlater
    | on_close code reason =>
      have hlater := ih h.close
      rw [List.append_assoc] at hlater
      exact hlater
    | frame_sent frame => exact ih h

theorem on_websocket_close_released (wrapper : Bool) : (on_websocket_close handler wrapper).1 = false := by
  unfold on_websocket_close
  cases wrapper with
  | false => rfl
  | true => rfl

theorem relay_released (events : List WsEvent) : (relay handler false events).1 = false := by
  induction events with
  | nil => rfl
  | cons event events ih =>
    cases event with
    | on_message opcode data => exact ih
    | on_close code reason =>
      rw [relay]
      dsimp only
      rw [on_websocket_close_released]
      exact ih
    | frame_sent frame => exact ih

/-- A call of `on_close` releases the wrapper. -/
theorem relay_close {code : Nat} {reason : Option (List UInt8)} (wrapper : Bool) {events : List WsEvent}
    (h : .on_close code reason ∈ events) : (relay handler wrapper events).1 = false := by
  induction events generalizing wrapper with
  | nil => exact absurd h List.not_mem_nil
  | cons event events ih =>
    cases event with
    | on_message opcode data =>
      rcases List.mem_cons.mp h with heq | hmem
      · cases heq
      · exact ih wrapper hmem
    | on_close code' reason' =>
      rw [relay]
      dsimp only
      rw [on_websocket_close_released]
      exact relay_released events
    | frame_sent frame =>
      rcases List.mem_cons.mp h with heq | hmem
      · cases heq
      · exact ih wrapper hmem

end relays

/-- Why a connection ends. -/
inductive EndCause where
  | close_frame
  | error
  | eof
  | close_call
  deriving DecidableEq, Repr

section causes

variable (env : WsEnv)

/-- What a chunk of data brings to end a connection: a close frame that is received, or
an error. -/
def data_causes (ws_conn : WsConnection) (data : List UInt8) : List EndCause :=
  (if (process_data_log (server_env env) ws_conn data).any (·.1.opcode = OPCODE_CLOSE) then [.close_frame] else []) ++
    if (uvhttp_ws_process_data (server_env env) ws_conn data).1 = .OK then [] else [.error]

/-- What the records of a TLS read bring, up to the first one that cannot be used. -/
def tls_causes (ws_conn : WsConnection) : List SslRead → List EndCause
  | [] | .want :: _ | .empty :: _ => []
  | .close_notify :: _ => [.eof]
  | .failed :: _ => [.error]
  | .chunk data :: results =>
    data_causes env ws_conn data ++
      if (uvhttp_ws_process_data (server_env env) ws_conn data).1 = .OK then
        tls_causes (uvhttp_ws_process_data (server_env env) ws_conn data).2.1 results
      else []

/-- What an input brings to end a connection. -/
def SessionInput.causes (ws_conn : WsConnection) : SessionInput → List EndCause
  | .read_error => [.error]
  | .read_eof => [.eof]
  | .read_nothing => []
  | .read data => data_causes env ws_conn data
  | .read_tls results => tls_causes env ws_conn results
  | .close => [.close_call]

/-- An input that finds no connection ends none. -/
def Session.causes (s : Session) (input : SessionInput) : List EndCause :=
  match s.ws_connection with
  | none => []
  | some ws_conn => input.causes env ws_conn

/-- What ends the connection in a run. -/
def session_causes (handler : Option WsHandler) : Session → List SessionInput → List EndCause
  | _, [] => []
  | s, input :: inputs =>
    s.causes env input ++ session_causes handler (session_step handler env s input).1 inputs

end causes

section sessions

variable (handler : Option WsHandler)

/-- What holds of a session after the calls it has made and the causes to end that
it has met. -/
structure Session.Sound (s : Session) (calls : List RelayCall) (causes : List EndCause) : Prop where
  ordered : Ordered handler s.wrapper calls
  installed : ∀ ws_conn ∈ s.ws_connection, Installed ws_conn
  gone : s.ws_connection = none → s.wrapper = false
  ended : causes ≠ [] → s.wrapper = false

variable {handler} {env : WsEnv}

theorem websocket_close_sound {ws_conn : WsConnection} (hinstalled : Installed ws_conn) {wrapper : Bool}
    {calls : List RelayCall} (h : Ordered handler wrapper calls) (causes : List EndCause) :
    Session.Sound handler
      (uvhttp_connection_websocket_close handler { ws_connection := some ws_conn, wrapper }).1
      (calls ++ (uvhttp_connection_websocket_close handler { ws_connection := some ws_conn, wrapper }).2) causes := by
  unfold uvhttp_connection_websocket_close
  dsimp only
  rw [if_pos hinstalled.on_close]
  have hreleased := @on_websocket_close_released handler wrapper
  exact ⟨h.close, fun _ hnone => absurd hnone (Option.not_mem_none _), fun _ => hreleased, fun _ => hreleased⟩

theorem finish_read_sound {ws_conn : WsConnection} (hinstalled : Installed ws_conn) {wrapper : Bool}
    {calls : List RelayCall} (h : Ordered handler wrapper calls) {causes : List EndCause} {result : UvhttpError}
    (hcauses : result = .OK → causes ≠ [] → wrapper = false) :
    Session.Sound handler (finish_read handler env result ws_conn wrapper).1
      (calls ++ (finish_read handler env result ws_conn wrapper).2) causes := by
  unfold finish_read
  split
  · exact websocket_close_sound (ws_close_installed _ hinstalled _ _) h causes
  · rename_i hok
    rw [not_not] at hok
    rw [List.append_nil]
    refine ⟨h, ?_, nofun, hcauses hok⟩
    intro ws_conn' hmem
    rw [← Option.mem_some_iff.mp hmem]
    exact hinstalled

/-- What a call of `uvhttp_ws_process_data` leaves behind. -/
theorem process_data_sound {ws_conn : WsConnection} (hinstalled : Installed ws_conn) {wrapper : Bool}
    {calls : List RelayCall} (h : Ordered handler wrapper calls) {causes : List EndCause}
    (hended : causes ≠ [] → wrapper = false) (data : List UInt8) :
    let processed := uvhttp_ws_process_data (server_env env) ws_conn data
    let relayed := relay handler wrapper processed.2.2
    Installed processed.2.1 ∧ Ordered handler relayed.1 (calls ++ relayed.2) ∧
      (processed.1 = .OK → causes ++ data_causes env ws_conn data ≠ [] → relayed.1 = false) := by
  intro processed relayed
  obtain ⟨hkept, htold⟩ := process_data_tells env hinstalled data
  refine ⟨hkept, h.relay _, fun hok hcauses => ?_⟩
  by_cases hclose : (process_data_log (server_env env) ws_conn data).any (·.1.opcode = OPCODE_CLOSE) = true
  · obtain ⟨entry, hentry, hopcode⟩ := List.any_eq_true.mp hclose
    obtain ⟨code, reason, hmem⟩ := (htold entry hentry).on_close_mem (of_decide_eq_true hopcode)
    apply @relay_close handler code reason wrapper _
    rw [process_data_events]
    exact List.mem_flatMap.mpr ⟨entry, hentry, hmem⟩
  · have hnone : data_causes env ws_conn data = [] := by
      rw [data_causes, if_neg hclose, if_pos hok]
      rfl
    rw [hnone, List.append_nil] at hcauses
    have hreleased := hended hcauses
    change (relay handler wrapper _).1 = false
    rw [hreleased]
    exact relay_released _

/-- The loop over the decrypted chunks. -/
theorem read_tls_sound {ws_conn : WsConnection} (hinstalled : Installed ws_conn) {wrapper : Bool}
    {calls : List RelayCall} (h : Ordered handler wrapper calls) {causes : List EndCause}
    (hended : causes ≠ [] → wrapper = false) (results : List SslRead) :
    Session.Sound handler (read_tls handler env ws_conn wrapper results).1
      (calls ++ (read_tls handler env ws_conn wrapper results).2.calls)
      (causes ++ tls_causes env ws_conn results) := by
  have hdrained : Session.Sound handler { ws_connection := some ws_conn, wrapper } (calls ++ []) (causes ++ []) := by
    rw [List.append_nil, List.append_nil]
    refine ⟨h, ?_, nofun, hended⟩
    intro ws_conn' hmem
    rw [← Option.mem_some_iff.mp hmem]
    exact hinstalled
  induction results generalizing ws_conn wrapper calls causes with
  | nil => exact hdrained
  | cons result results ih =>
    cases result with
    | want => exact hdrained
    | empty => exact hdrained
    | close_notify => exact websocket_close_sound hinstalled h _
    | failed => exact websocket_close_sound hinstalled h _
    | chunk data =>
      obtain ⟨hkept, hordered, hreleased⟩ := @process_data_sound handler env _ hinstalled _ _ h _ hended data
      rw [read_tls, tls_causes]
      dsimp only
      split
      · rw [List.append_nil]
        have hfinish := @finish_read_sound handler env _ hkept _ _ hordered _
          (uvhttp_ws_process_data (server_env env) ws_conn data).1 hreleased
        rw [List.append_assoc] at hfinish
        exact hfinish
      · rename_i hok
        rw [not_not] at hok
        rw [if_pos hok]
        have hlater := ih hkept hordered (hreleased hok) ?_
        · rw [List.append_assoc, List.append_assoc] at hlater
          exact hlater
        · rw [List.append_nil, List.append_nil]
          refine ⟨hordered, ?_, nofun, hreleased hok⟩
          intro ws_conn' hmem
          rw [← Option.mem_some_iff.mp hmem]
          exact hkept

theorem session_step_sound {s : Session} {calls : List RelayCall} {causes : List EndCause}
    (h : s.Sound handler calls causes) (input : SessionInput) :
    (session_step handler env s input).1.Sound handler (calls ++ (session_step handler env s input).2.calls)
      (causes ++ s.causes env input) := by
  obtain ⟨ws_connection, wrapper⟩ := s
  cases ws_connection with
  | none =>
    change Session.Sound handler _ (calls ++ []) (causes ++ [])
    rw [List.append_nil, List.append_nil]
    exact h
  | some ws_conn =>
    have hinstalled := h.installed ws_conn rfl
    cases input with
    | read_error => exact websocket_close_sound hinstalled h.ordered _
    | read_eof => exact websocket_close_sound hinstalled h.ordered _
    | close => exact websocket_close_sound hinstalled h.ordered _
    | read_nothing =>
      change Session.Sound handler _ (calls ++ []) (causes ++ [])
      rw [List.append_nil, List.append_nil]
      exact h
    | read data =>
      obtain ⟨hkept, hordered, hreleased⟩ := @process_data_sound handler env _ hinstalled _ _ h.ordered _ h.ended data
      have hfinish := @finish_read_sound handler env _ hkept _ _ hordered _
        (uvhttp_ws_process_data (server_env env) ws_conn data).1 hreleased
      rw [List.append_assoc] at hfinish
      exact hfinish
    | read_tls results => exact read_tls_sound hinstalled h.ordered h.ended results

/-- What the internal callbacks call in a run. -/
def session_calls (handler : Option WsHandler) (env : WsEnv) (s : Session) (inputs : List SessionInput) :
    List RelayCall :=
  (answers (session_step handler env) s inputs).flatMap SessionTrace.calls

theorem session_run_sound {s : Session} {calls : List RelayCall} {causes : List EndCause}
    (h : s.Sound handler calls causes) (inputs : List SessionInput) :
    (run (session_step handler env) s inputs).Sound handler (calls ++ session_calls handler env s inputs)
      (causes ++ session_causes env handler s inputs) := by
  induction inputs generalizing s calls causes with
  | nil =>
    rw [session_calls, session_causes, answers, List.flatMap_nil, List.append_nil, List.append_nil]
    exact h
  | cons input inputs ih =>
    have hlater := ih (@session_step_sound handler env s calls causes h input)
    rw [List.append_assoc, List.append_assoc] at hlater
    exact hlater

theorem session_new_sound (handler : Option WsHandler) (ssl context : Bool) (max_frame_size max_message_size : Int)
    (stale : Nat → UInt8) : (session_new ssl context max_frame_size max_message_size stale).Sound handler [] [] := by
  refine ⟨.start, ?_, nofun, fun hnone => absurd rfl hnone⟩
  intro ws_conn hmem
  rw [← Option.mem_some_iff.mp hmem]
  exact ⟨rfl, rfl⟩

/-- In every run of an upgraded connection the handler's `on_close` is called at most
once, exactly once when the connection ends, and `on_message` never after it. -/
theorem callbacks_well_ordered (handler : Option WsHandler) (env : WsEnv) (ssl context : Bool)
    (max_frame_size max_message_size : Int) (stale : Nat → UInt8) (inputs : List SessionInput) :
    let s := session_new ssl context max_frame_size max_message_size stale
    (session_calls handler env s inputs).count .on_close ≤ 1 ∧
      (session_causes env handler s inputs ≠ [] → ∀ h ∈ handler, h.on_close = true →
        (session_calls handler env s inputs).count .on_close = 1) ∧
      (session_calls handler env s inputs).Pairwise fun earlier later =>
        earlier = .on_close → ∀ opcode data, later ≠ .on_message opcode data := by
  intro s
  have hstart := session_new_sound handler ssl context max_frame_size max_message_size stale
  have hrun := @session_run_sound handler env s [] [] hstart inputs
  rw [List.nil_append, List.nil_append] at hrun
  exact ⟨hrun.ordered.once, fun hended => hrun.ordered.closed (hrun.ended hended), hrun.ordered.ordered⟩

/-- A message, two close frames with a message between them, and the end of the
stream. -/
def two_closes : List SessionInput :=
  [.read [0x81, 0x81, 0, 0, 0, 0, 104, 0x88, 0x80, 0, 0, 0, 0, 0x81, 0x81, 0, 0, 0, 0, 105, 0x88, 0x80, 0, 0, 0, 0],
    .read_eof]

/-- The close frame and the end of the stream end the connection, and its handler is
told once. -/
theorem callbacks_well_ordered_two_closes :
    let s := session_new false true 1024 1024 fun _ => 0
    session_causes .obliging (some ⟨true, true⟩) s two_closes = [.close_frame, .eof] ∧
      session_calls (some ⟨true, true⟩) .obliging s two_closes = [.update_activity, .on_message 1 [104], .on_close] ∧
      (session_calls (some ⟨true, true⟩) .obliging s two_closes).count .on_close = 1 := by
  intro s
  have hcauses : session_causes .obliging (some ⟨true, true⟩) s two_closes = [.close_frame, .eof] := by decide +kernel
  refine ⟨hcauses, by decide +kernel, ?_⟩
  have hordered := callbacks_well_ordered (some ⟨true, true⟩) .obliging false true 1024 1024 (fun _ => 0) two_closes
  refine hordered.2.1 ?_ _ rfl rfl
  rw [hcauses]
  exact List.cons_ne_nil _ _

end sessions

end uvhttp.websocket
