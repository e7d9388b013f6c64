import Uvhttp.WebSocket.CallbackOrder

open incremental machine

namespace uvhttp.websocket

/-- A `ws_connection_node_t`; times are in milliseconds. -/
structure WsNode where
  last_activity : UInt64
  last_ping_sent : UInt64
  ping_pending : Bool
  deriving DecidableEq, Repr

/-- A connection with its node in the list of the manager. -/
structure Managed where
  session : Session
  node : Option WsNode

/-- What happens to a managed connection: the heartbeat timer fires, or its reader
runs. -/
inductive BeatInput where
  | tick (now : UInt64)
  | session (now : UInt64) (input : SessionInput)
  deriving DecidableEq, Repr

/-- What a step shows: its time, whether the timer finds the connection open, sends a
Ping, closes it for its timeout, whether the wrapper was there, and the frames
processed. -/
structure BeatTrace where
  now : UInt64
  watched : Bool
  pinged : Bool
  timed_out : Bool
  attached : Bool
  log : List LogEntry
  deriving DecidableEq, Repr

section heartbeat

variable (handler : Option WsHandler) (env : WsEnv) (ping_timeout_ms : UInt64)

/-- The body of the loop of `ws_heartbeat_timer_callback`: the connection and the node
it leaves, whether a Ping is sent and whether the connection is closed. -/
def ws_heartbeat_timer_callback (now : UInt64) (ws_conn : WsConnection) (node : WsNode) :
    WsConnection × WsNode × Bool × Bool :=
  if ws_conn.state = .OPEN then
    if !node.ping_pending then
      let (result, ws_conn, _) := uvhttp_ws_send_ping (server_env env) ws_conn []
      if result = .OK then (ws_conn, { node with last_ping_sent := now, ping_pending := true }, true, false)
      else (ws_conn, node, false, false)
    else if now - node.last_ping_sent > ping_timeout_ms then
      let (_, ws_conn, _) := uvhttp_ws_close (server_env env) ws_conn 1000 (some (bytes "Ping timeout"))
      (ws_conn, node, false, true)
    else (ws_conn, node, false, false)
  else (ws_conn, node, false, false)

/-- `uvhttp_server_ws_update_activity`. -/
def uvhttp_server_ws_update_activity (now : UInt64) (node : WsNode) : WsNode :=
  { node with last_activity := now, ping_pending := false }

/-- One step of a managed connection. Closing removes the node. -/
def beat_step (m : Managed) : BeatInput → Managed × BeatTrace
  | .tick now =>
    match m.session.ws_connection, m.node with
    | some ws_conn, some node =>
      let (after, node, pinged, timed_out) := ws_heartbeat_timer_callback env ping_timeout_ms now ws_conn node
      ({ session := { m.session with ws_connection := some after }, node := some node },
        ⟨now, ws_conn.state = .OPEN, pinged, timed_out, m.session.wrapper, []⟩)
    | _, _ => (m, ⟨now, false, false, false, m.session.wrapper, []⟩)
  | .session now input =>
    let (session, trace) := session_step handler env m.session input
    let node := if trace.calls.contains .update_activity then m.node.map (uvhttp_server_ws_update_activity now)
      else m.node
    ({ session, node := if session.ws_connection.isNone then none else node },
      ⟨now, false, false, false, m.session.wrapper, trace.log⟩)

end heartbeat

/-- A frame for a Pong has been processed. -/
def BeatTrace.answers_ping (trace : BeatTrace) : Prop := ∃ entry ∈ trace.log, entry.1.opcode = OPCODE_PONG

/-- The last frame of a message comes before any close frame. -/
def completes : List LogEntry → Bool
  | [] => false
  | (header, _) :: log =>
    if header.opcode = OPCODE_CLOSE then false else is_data header.opcode && header.fin || completes log

/-- A message is completed while the wrapper is there. -/
def BeatTrace.brings_message (trace : BeatTrace) : Prop := trace.attached = true ∧ completes trace.log = true

instance (trace : BeatTrace) : Decidable trace.answers_ping := inferInstanceAs (Decidable (∃ entry ∈ trace.log, _))

instance (trace : BeatTrace) : Decidable trace.brings_message := inferInstanceAs (Decidable (_ ∧ _))

/-- The timer finds the connection open more than the timeout after a Ping. -/
def BeatTrace.overdue (ping_timeout_ms sent : UInt64) (trace : BeatTrace) : Prop :=
  trace.watched = true ∧ trace.now - sent > ping_timeout_ms

section traces

variable (ping_timeout_ms : UInt64) (traces : List BeatTrace)

/-- The clock does not go back, and every Ping is answered by a Pong that is processed
before the timeout has passed. -/
structure Responsive : Prop where
  clock : traces.Pairwise fun earlier later => earlier.now ≤ later.now
  answered : Throughout (fun ping later => ping.pinged = true →
    Unless (fun trace => trace.answers_ping ∧ trace.now - ping.now < ping_timeout_ms)
      (fun trace => trace.now - ping.now ≥ ping_timeout_ms) later) traces

/-- The connection is never closed for its Ping timeout. -/
def NeverTimedOut : Prop := ∀ trace ∈ traces, trace.timed_out = false

/-- Every Ping is followed by a message before the timer finds the connection open
more than the timeout later. -/
def Refreshed : Prop :=
  Throughout (fun ping later => ping.pinged = true →
    Unless BeatTrace.brings_message (BeatTrace.overdue ping_timeout_ms ping.now) later) traces

end traces

section activity

variable {handler : Option WsHandler}

theorem relay_append (wrapper : Bool) (events later : List WsEvent) :
    relay handler wrapper (events ++ later) =
      ((relay handler (relay handler wrapper events).1 later).1,
        (relay handler wrapper events).2 ++ (relay handler (relay handler wrapper events).1 later).2) := by
  induction events generalizing wrapper with
  | nil => rfl
  | cons event events ih =>
    cases event with
    | on_message opcode data =>
      rw [List.cons_append, relay, relay, ih]
      simp only [List.append_assoc]
    | on_close code reason =>
      rw [List.cons_append, relay, relay]
      dsimp only
      rw [ih]
      simp only [List.append_assoc]
    | frame_sent frame => exact ih wrapper

theorem relay_callbacks (wrapper : Bool) (events : List WsEvent) :
    relay handler wrapper (callbacks events) = relay handler wrapper events := by
  induction events generalizing wrapper with
  | nil => rfl
  | cons event events ih =>
    cases event with
    | on_message opcode data =>
      change relay handler wrapper (.on_message opcode data :: callbacks events) = _
      rw [relay, relay, ih]
    | on_close code reason =>
      change relay handler wrapper (.on_close code reason :: callbacks events) = _
      rw [relay, relay]
      dsimp only
      rw [ih]
    | frame_sent frame => exact ih wrapper

theorem on_websocket_close_calls (wrapper : Bool) :
    RelayCall.update_activity ∉ (on_websocket_close handler wrapper).2 := by
  unfold on_websocket_close
  split
  · exact List.not_mem_nil
  · cases handler with
    | none => exact List.not_mem_nil
    | some handler =>
      dsimp only
      split
      · rw [List.mem_singleton]
        exact nofun
      · exact List.not_mem_nil

theorem on_websocket_message_calls (wrapper : Bool) (opcode : UInt8) (data : List UInt8) :
    RelayCall.update_activity ∈ on_websocket_message handler wrapper opcode data ↔ wrapper = true := by
  unfold on_websocket_message
  cases wrapper with
  | false => exact iff_of_false List.not_mem_nil nofun
  | true => exact iff_of_true List.mem_cons_self rfl

/-- No close frame among the processed ones. -/
def unclosed (log : List LogEntry) : Bool := log.all (·.1.opcode ≠ OPCODE_CLOSE)

theorem completes_append (log later : List LogEntry) :
    completes (log ++ later) = (completes log || unclosed log && completes later) := by
  induction log with
  | nil => rfl
  | cons entry log ih =>
    obtain ⟨header, events⟩ := entry
    rw [List.cons_append, completes, completes, unclosed, List.all_cons, ← unclosed]
    by_cases hclose : header.opcode = OPCODE_CLOSE
    · rw [if_pos hclose, if_pos hclose, decide_eq_false (not_not.mpr hclose)]
      rfl
    · rw [if_neg hclose, if_neg hclose, ih, decide_eq_true hclose, Bool.true_and, Bool.or_assoc]

/-- What is relayed for one processed frame. -/
theorem relay_told {header : FrameHeader} {events : List WsEvent} (h : Told header (callbacks events))
    (wrapper : Bool) :
    (relay handler wrapper events).1 = (wrapper && header.opcode ≠ OPCODE_CLOSE) ∧
      (.update_activity ∈ (relay handler wrapper events).2 ↔
        wrapper = true ∧ is_data header.opcode ∧ header.fin = true) := by
  rw [← relay_callbacks]
  generalize callbacks events = told at h
  cases h with
  | message opcode data hdata hfin =>
    have hclose : header.opcode ≠ OPCODE_CLOSE := by
      rcases hdata with hdata | hdata | hdata
      all_goals
        rw [hdata]
        decide
    change (wrapper, on_websocket_message handler wrapper opcode data ++ []).1 = _ ∧
      (_ ∈ (wrapper, on_websocket_message handler wrapper opcode data ++ []).2 ↔ _)
    rw [List.append_nil, decide_eq_true hclose, Bool.and_true, on_websocket_message_calls]
    exact ⟨rfl, fun hwrapper => ⟨hwrapper, hdata, hfin⟩, And.left⟩
  | close code reason hclose =>
    change (on_websocket_close handler wrapper).1 = _ ∧ (_ ∈ (on_websocket_close handler wrapper).2 ++ [] ↔ _)
    rw [on_websocket_close_released, decide_eq_false (not_not.mpr hclose), Bool.and_false, List.append_nil]
    refine ⟨rfl, iff_of_false (on_websocket_close_calls wrapper) ?_⟩
    rintro ⟨-, hdata, -⟩
    rw [hclose] at hdata
    exact absurd hdata (by decide)
  | nothing hsilent =>
    have hclose : header.opcode ≠ OPCODE_CLOSE := fun h => hsilent (.inr h)
    rw [relay, decide_eq_true hclose, Bool.and_true]
    exact ⟨rfl, iff_of_false List.not_mem_nil fun h => hsilent (.inl h.2)⟩

/-- The wrapper stays until a close frame, and the manager is told of the messages
before it. -/
theorem relay_log {log : List LogEntry} (htold : ∀ entry ∈ log, Told entry.1 (callbacks entry.2)) (wrapper : Bool) :
    (relay handler wrapper (log.flatMap Prod.snd)).1 = (wrapper && unclosed log) ∧
      (.update_activity ∈ (relay handler wrapper (log.flatMap Prod.snd)).2 ↔
        wrapper = true ∧ completes log = true) := by
  induction log generalizing wrapper with
  | nil => exact ⟨(Bool.and_true wrapper).symm, iff_of_false List.not_mem_nil fun h => nomatch h.2⟩
  | cons entry log ih =>
    obtain ⟨header, events⟩ := entry
    obtain ⟨hleft, hactivity⟩ := @relay_told handler header events (htold _ List.mem_cons_self) wrapper
    obtain ⟨hlater, hrest⟩ := ih (fun entry hentry => htold entry (List.mem_cons_of_mem _ hentry))
      (wrapper && header.opcode ≠ OPCODE_CLOSE)
    rw [List.flatMap_cons, relay_append, hleft]
    refine ⟨?_, ?_⟩
    · rw [hlater, Bool.and_assoc]
      rfl
    · rw [List.mem_append, hactivity, hrest, completes]
      by_cases hclose : header.opcode = OPCODE_CLOSE
      · have hother : ¬ is_data header.opcode := by
          rw [hclose]
          decide
        rw [if_pos hclose, decide_eq_false (not_not.mpr hclose), Bool.and_false]
        refine iff_of_false ?_ fun h => nomatch h.2
        rintro (⟨-, hdata, -⟩ | ⟨hfalse, -⟩)
        · exact hother hdata
        · cases hfalse
      · rw [if_neg hclose, decide_eq_true hclose, Bool.and_true, Bool.or_eq_true, Bool.and_eq_true, decide_eq_true_iff,
          and_or_left]

end activity

section sessions

variable {handler : Option WsHandler} {env : WsEnv}

theorem websocket_close_calls (s : Session) :
    RelayCall.update_activity ∉ (uvhttp_connection_websocket_close handler s).2 := by
  unfold uvhttp_connection_websocket_close
  split
  · exact List.not_mem_nil
  · dsimp only
    split
    · exact on_websocket_close_calls s.wrapper
    · exact List.not_mem_nil

theorem finish_read_calls (result : UvhttpError) (ws_conn : WsConnection) (wrapper : Bool) :
    RelayCall.update_activity ∉ (finish_read handler env result ws_conn wrapper).2 := by
  unfold finish_read
  split
  · exact websocket_close_calls _
  · exact List.not_mem_nil

theorem process_data_activity {ws_conn : WsConnection} (h : Installed ws_conn) (wrapper : Bool)
    (data : List UInt8) :
    let relayed := relay handler wrapper (uvhttp_ws_process_data (server_env env) ws_conn data).2.2
    let log := process_data_log (server_env env) ws_conn data
    relayed.1 = (wrapper && unclosed log) ∧
      (.update_activity ∈ relayed.2 ↔ wrapper = true ∧ completes log = true) := by
  intro relayed log
  have hrelay := @relay_log handler log (process_data_tells env h data).2 wrapper
  rw [← process_data_events] at hrelay
  exact hrelay

theorem no_activity_iff {calls : List RelayCall} (h : .update_activity ∉ calls) (wrapper : Bool) :
    .update_activity ∈ calls ↔ wrapper = true ∧ completes [] = true :=
  iff_of_false h fun hnone => nomatch hnone.2

/-- The manager is told of exactly the messages that complete while the wrapper is
there. -/
theorem read_tls_activity {ws_conn : WsConnection} (h : Installed ws_conn) (wrapper : Bool)
    (results : List SslRead) :
    .update_activity ∈ (read_tls handler env ws_conn wrapper results).2.calls ↔
      wrapper = true ∧ completes (read_tls handler env ws_conn wrapper results).2.log = true := by
  induction results generalizing ws_conn wrapper with
  | nil => exact no_activity_iff List.not_mem_nil wrapper
  | cons result results ih =>
    cases result with
    | want => exact no_activity_iff List.not_mem_nil wrapper
    | empty => exact no_activity_iff List.not_mem_nil wrapper
    | close_notify => exact no_activity_iff (websocket_close_calls { ws_connection := some ws_conn, wrapper }) wrapper
    | failed => exact no_activity_iff (websocket_close_calls { ws_connection := some ws_conn, wrapper }) wrapper
    | chunk data =>
      obtain ⟨hleft, hactivity⟩ := @process_data_activity handler env ws_conn h wrapper data
      rw [read_tls]
      dsimp only
      split
      · dsimp only
        rw [List.mem_append, or_iff_left (finish_read_calls _ _ _), hactivity]
      · dsimp only
        rw [List.mem_append, hactivity, completes_append, hleft, ih (process_data_tells env h data).1]
        simp only [Bool.or_eq_true, Bool.and_eq_true]
        tauto

theorem session_step_activity {s : Session} (h : ∀ ws_conn ∈ s.ws_connection, Installed ws_conn)
    (input : SessionInput) :
    .update_activity ∈ (session_step handler env s input).2.calls ↔
      s.wrapper = true ∧ completes (session_step handler env s input).2.log = true := by
  obtain ⟨ws_connection, wrapper⟩ := s
  cases ws_connection with
  | none => exact no_activity_iff List.not_mem_nil wrapper
  | some ws_conn =>
    have hinstalled := h ws_conn rfl
    cases input with
    | read_error => exact no_activity_iff (websocket_close_calls { ws_connection := some ws_conn, wrapper }) wrapper
    | read_eof => exact no_activity_iff (websocket_close_calls { ws_connection := some ws_conn, wrapper }) wrapper
    | close => exact no_activity_iff (websocket_close_calls { ws_connection := some ws_conn, wrapper }) wrapper
    | read_nothing => exact no_activity_iff List.not_mem_nil wrapper
    | read data =>
      obtain ⟨-, hactivity⟩ := @process_data_activity handler env ws_conn hinstalled wrapper data
      rw [session_step]
      dsimp only
      rw [List.mem_append, or_iff_left (finish_read_calls _ _ _), hactivity]
    | read_tls results => exact read_tls_activity hinstalled wrapper results

end sessions

section beats

variable {handler : Option WsHandler} {env : WsEnv} {ping_timeout_ms : UInt64}

/-- The time of the Ping that is pending. -/
def Managed.waiting (m : Managed) : Option UInt64 :=
  m.node.bind fun node => if node.ping_pending then some node.last_ping_sent else none

/-- The callbacks are set, as long as there is a connection. -/
def Managed.Sound (handler : Option WsHandler) (m : Managed) : Prop :=
  ∃ calls causes, m.session.Sound handler calls causes

/-- What a step can do about the Ping that is pending. -/
inductive Beat (ping_timeout_ms : UInt64) (m m' : Managed) (trace : BeatTrace) : Prop where
  | idle : trace.timed_out = false → trace.pinged = false → m'.waiting = m.waiting → ¬ trace.brings_message →
      (∀ sent, m.waiting = some sent → ¬ trace.overdue ping_timeout_ms sent) → Beat ping_timeout_ms m m' trace
  | ping : trace.timed_out = false → trace.pinged = true → m.waiting = none → m'.waiting = some trace.now →
      Beat ping_timeout_ms m m' trace
  | timeout (sent : UInt64) : trace.timed_out = true → m.waiting = some sent → ¬ trace.brings_message →
      trace.overdue ping_timeout_ms sent → Beat ping_timeout_ms m m' trace
  | message : trace.timed_out = false → trace.pinged = false → trace.brings_message → m'.waiting = none →
      Beat ping_timeout_ms m m' trace
  | gone : trace.timed_out = false → trace.pinged = false → trace.watched = false → m'.node = none →
      Beat ping_timeout_ms m m' trace

theorem tick_beat (m : Managed) (now : UInt64) :
    Beat ping_timeout_ms m (beat_step handler env ping_timeout_ms m (.tick now)).1
      (beat_step handler env ping_timeout_ms m (.tick now)).2 := by
  have hquiet : ∀ (watched pinged timed_out attached : Bool),
      ¬ (⟨now, watched, pinged, timed_out, attached, []⟩ : BeatTrace).brings_message := fun _ _ _ _ h => nomatch h.2
  obtain ⟨⟨ws_connection, wrapper⟩, node⟩ := m
  cases ws_connection with
  | none => exact .idle rfl rfl rfl (hquiet _ _ _ _) fun _ _ h => nomatch h.1
  | some ws_conn =>
    cases node with
    | none => exact .idle rfl rfl rfl (hquiet _ _ _ _) fun _ _ h => nomatch h.1
    | some node =>
      rw [beat_step]
      dsimp only
      unfold ws_heartbeat_timer_callback
      by_cases hopen : ws_conn.state = .OPEN
      · rw [if_pos hopen]
        cases hpending : node.ping_pending with
        | false =>
          have hwaiting : (⟨⟨some ws_conn, wrapper⟩, some node⟩ : Managed).waiting = none := by
            simp [Managed.waiting, hpending]
          rw [if_pos (by decide)]
          dsimp only
          split
          · exact .ping rfl rfl hwaiting rfl
          · refine .idle rfl rfl ?_ (hquiet _ _ _ _) fun sent hsent => ?_
            · rfl
            · rw [hwaiting] at hsent
              cases hsent
        | true =>
          have hwaiting : (⟨⟨some ws_conn, wrapper⟩, some node⟩ : Managed).waiting = some node.last_ping_sent := by
            simp [Managed.waiting, hpending]
          rw [if_neg (by decide)]
          split
          · rename_i hlate
            exact .timeout node.last_ping_sent rfl hwaiting (hquiet _ _ _ _) ⟨decide_eq_true hopen, hlate⟩
          · rename_i hsoon
            refine .idle rfl rfl rfl (hquiet _ _ _ _) fun sent hsent hoverdue => ?_
            rw [hwaiting] at hsent
            cases hsent
            exact hsoon hoverdue.2
      · rw [if_neg hopen]
        refine .idle rfl rfl rfl (hquiet _ _ _ _) fun sent _ hoverdue => ?_
        exact hopen (of_decide_eq_true hoverdue.1)

theorem session_beat {m : Managed} (h : m.Sound handler) (now : UInt64) (input : SessionInput) :
    Beat ping_timeout_ms m (beat_step handler env ping_timeout_ms m (.session now input)).1
      (beat_step handler env ping_timeout_ms m (.session now input)).2 := by
  obtain ⟨calls, causes, hsound⟩ := h
  have hactivity := @session_step_activity handler env m.session hsound.installed input
  rw [beat_step]
  dsimp only
  by_cases hgone : (session_step handler env m.session input).1.ws_connection.isNone = true
  · rw [if_pos hgone]
    exact .gone rfl rfl rfl rfl
  · rw [if_neg hgone]
    by_cases hcall : .update_activity ∈ (session_step handler env m.session input).2.calls
    · rw [if_pos (List.contains_iff_mem.mpr hcall)]
      refine .message rfl rfl (hactivity.mp hcall) ?_
      cases hnode : m.node with
      | none => simp [Managed.waiting]
      | some node => simp [Managed.waiting, uvhttp_server_ws_update_activity]
    · rw [if_neg fun h => hcall (List.contains_iff_mem.mp h)]
      exact .idle rfl rfl rfl (fun hmessage => hcall (hactivity.mpr hmessage)) fun _ _ h => nomatch h.1

theorem heartbeat_installed {ws_conn : WsConnection} (h : Installed ws_conn) (now : UInt64) (node : WsNode) :
    Installed (ws_heartbeat_timer_callback env ping_timeout_ms now ws_conn node).1 := by
  unfold ws_heartbeat_timer_callback
  split
  · split
    · have hsent := (send_frame_moves (server_env env) ws_conn [] OPCODE_PING).1.installed h
      dsimp only
      split
      · exact hsent
      · exact hsent
    · split
      · exact ws_close_installed (server_env env) h 1000 _
      · exact h
  · exact h

theorem beat_step_sound {m : Managed} (h : m.Sound handler) (input : BeatInput) :
    (beat_step handler env ping_timeout_ms m input).1.Sound handler := by
  obtain ⟨calls, causes, hsound⟩ := h
  cases input with
  | session now input => exact ⟨_, _, session_step_sound hsound input⟩
  | tick now =>
    obtain ⟨⟨ws_connection, wrapper⟩, node⟩ := m
    cases ws_connection with
    | none => exact ⟨calls, causes, hsound⟩
    | some ws_conn =>
      cases node with
      | none => exact ⟨calls, causes, hsound⟩
      | some node =>
        refine ⟨calls, causes, hsound.ordered, fun after hafter => ?_, nofun, hsound.ended⟩
        rw [← Option.mem_some_iff.mp hafter]
        exact heartbeat_installed (hsound.installed ws_conn rfl) now node

theorem beat_step_beat {m : Managed} (h : m.Sound handler) (input : BeatInput) :
    Beat ping_timeout_ms m (beat_step handler env ping_timeout_ms m input).1
      (beat_step handler env ping_timeout_ms m input).2 := by
  cases input with
  | tick now => exact tick_beat m now
  | session now input => exact session_beat h now input

/-- Without its node a connection is not looked at any more. -/
theorem gone_unwatched {m : Managed} (h : m.node = none) (inputs : List BeatInput) :
    ∀ trace ∈ answers (beat_step handler env ping_timeout_ms) m inputs, trace.watched = false := by
  induction inputs generalizing m with
  | nil => exact fun _ htrace => absurd htrace List.not_mem_nil
  | cons input inputs ih =>
    have hstep : (beat_step handler env ping_timeout_ms m input).2.watched = false ∧
        (beat_step handler env ping_timeout_ms m input).1.node = none := by
      obtain ⟨⟨ws_connection, wrapper⟩, node⟩ := m
      subst h
      cases input with
      | tick now => cases ws_connection <;> exact ⟨rfl, rfl⟩
      | session now input =>
        refine ⟨rfl, ?_⟩
        simp [beat_step]
    intro trace htrace
    rcases List.mem_cons.mp htrace with rfl | hmem
    · exact hstep.1
    · exact ih hstep.2 trace hmem

theorem refreshed_cons (trace : BeatTrace) (later : List BeatTrace) :
    Refreshed ping_timeout_ms (trace :: later) ↔
      (trace.pinged = true → Unless BeatTrace.brings_message (BeatTrace.overdue ping_timeout_ms trace.now) later) ∧
        Refreshed ping_timeout_ms later :=
  Iff.rfl

/-- From a state with a Ping pending or not: no timeout exactly when that Ping and every
later one is followed by a message in time. -/
theorem never_timed_out_iff {m : Managed} (h : m.Sound handler) (inputs : List BeatInput) :
    NeverTimedOut (answers (beat_step handler env ping_timeout_ms) m inputs) ↔
      (∀ sent, m.waiting = some sent → Unless BeatTrace.brings_message (BeatTrace.overdue ping_timeout_ms sent)
        (answers (beat_step handler env ping_timeout_ms) m inputs)) ∧
      Refreshed ping_timeout_ms (answers (beat_step handler env ping_timeout_ms) m inputs) := by
  induction inputs generalizing m with
  | nil => exact iff_of_true (fun _ htrace => absurd htrace List.not_mem_nil) ⟨fun _ _ => trivial, trivial⟩
  | cons input inputs ih =>
    have htail := ih (@beat_step_sound handler env ping_timeout_ms m h input)
    have hbeat := @beat_step_beat handler env ping_timeout_ms m h input
    have hgone := fun hnode => @gone_unwatched handler env ping_timeout_ms
      (beat_step handler env ping_timeout_ms m input).1 hnode inputs
    rw [answers]
    generalize beat_step handler env ping_timeout_ms m input = step at htail hbeat hgone ⊢
    obtain ⟨m', trace⟩ := step
    dsimp only at htail hbeat hgone ⊢
    generalize answers (beat_step handler env ping_timeout_ms) m' inputs = later at htail hgone ⊢
    rw [NeverTimedOut, List.forall_mem_cons, ← NeverTimedOut, htail, refreshed_cons]
    have hfalse : ∀ {P : Prop}, false = true → P := by
      intro P habsurd
      cases habsurd
    have hwaits : ∀ {P : UInt64 → Prop} (sent : UInt64), none = some sent → P sent := by
      intro P sent habsurd
      cases habsurd
    cases hbeat with
    | idle hsafe hunpinged hwaiting hquiet hsoon =>
      rw [hsafe, hunpinged, hwaiting]
      constructor
      · rintro ⟨-, hpending, hrefreshed⟩
        refine ⟨?_, hfalse, hrefreshed⟩
        intro sent hsent
        exact (unless_cons_skip hquiet (hsoon sent hsent)).mpr (hpending sent hsent)
      · rintro ⟨hpending, -, hrefreshed⟩
        refine ⟨rfl, ?_, hrefreshed⟩
        intro sent hsent
        exact (unless_cons_skip hquiet (hsoon sent hsent)).mp (hpending sent hsent)
    | ping hsafe hpinged hnone hwaiting =>
      rw [hsafe, hpinged, hnone, hwaiting]
      constructor
      · rintro ⟨-, hpending, hrefreshed⟩
        exact ⟨hwaits, fun _ => hpending _ rfl, hrefreshed⟩
      · rintro ⟨-, hping, hrefreshed⟩
        refine ⟨rfl, ?_, hrefreshed⟩
        intro sent hsent
        cases hsent
        exact hping rfl
    | timeout sent htimeout hwaiting hquiet hoverdue =>
      rw [htimeout]
      apply iff_of_false
      · rintro ⟨hsafe, -⟩
        cases hsafe
      · rintro ⟨hpending, -⟩
        rcases hpending sent hwaiting with hmessage | ⟨hsoon, -⟩
        · exact hquiet hmessage
        · exact hsoon hoverdue
    | message hsafe hunpinged hmessage hnone =>
      rw [hsafe, hunpinged, hnone]
      constructor
      · rintro ⟨-, -, hrefreshed⟩
        exact ⟨fun _ _ => .inl hmessage, hfalse, hrefreshed⟩
      · rintro ⟨-, -, hrefreshed⟩
        exact ⟨rfl, hwaits, hrefreshed⟩
    | gone hsafe hunpinged hunwatched hnode =>
      have hnone : m'.waiting = none := by
        rw [Managed.waiting, hnode]
        rfl
      have hnever : ∀ sent, ∀ trace' ∈ trace :: later, ¬ trace'.overdue ping_timeout_ms sent := by
        rintro sent trace' htrace ⟨hwatched, -⟩
        have hunseen : trace'.watched = false := by
          rcases List.mem_cons.mp htrace with rfl | hmem
          · exact hunwatched
          · exact hgone hnode trace' hmem
        rw [hunseen] at hwatched
        cases hwatched
      rw [hsafe, hunpinged, hnone]
      constructor
      · rintro ⟨-, -, hrefreshed⟩
        exact ⟨fun sent _ => unless_of_none (hnever sent), hfalse, hrefreshed⟩
      · rintro ⟨-, -, hrefreshed⟩
        exact ⟨rfl, hwaits, hrefreshed⟩

end beats

/-- A managed connection as the handshake leaves it, at time `now`. -/
def managed_new (ssl context : Bool) (max_frame_size max_message_size : Int) (stale : Nat → UInt8) (now : UInt64) :
    Managed where
  session := session_new ssl context max_frame_size max_message_size stale
  node := some { last_activity := now, last_ping_sent := 0, ping_pending := false }

/-- The heartbeat spares a responsive client exactly when every Ping is also followed by
a message in time. -/
theorem heartbeat_spares_iff (handler : Option WsHandler) (env : WsEnv) (ping_timeout_ms : UInt64)
    (ssl context : Bool) (max_frame_size max_message_size : Int) (stale : Nat → UInt8) (start : UInt64)
    (inputs : List BeatInput) :
    let traces := answers (beat_step handler env ping_timeout_ms)
      (managed_new ssl context max_frame_size max_message_size stale start) inputs
    (Responsive ping_timeout_ms traces → NeverTimedOut traces) ↔
      (Responsive ping_timeout_ms traces → Refreshed ping_timeout_ms traces) := by
  intro traces
  refine imp_congr_right fun _ => ?_
  have hsound : (managed_new ssl context max_frame_size max_message_size stale start).Sound handler :=
    ⟨[], [], session_new_sound handler ssl context max_frame_size max_message_size stale⟩
  have hiff := @never_timed_out_iff handler env ping_timeout_ms _ hsound inputs
  exact hiff.trans ⟨And.right, fun hrefreshed => ⟨nofun, hrefreshed⟩⟩

/-- A Ping at 0 that is answered at 5 by a Pong, and the next tick of the timer. -/
def answered_ping : List BeatInput :=
  [.tick 0, .session 5 (.read [0x8A, 0x80, 0, 0, 0, 0]), .tick 30000]

/-- The Pong does not count: the next tick closes the connection. -/
theorem heartbeat_closes_responsive :
    let traces := answers (beat_step none .obliging 10000) (managed_new false true 1024 1024 (fun _ => 0) 0)
      answered_ping
    Responsive 10000 traces ∧ ¬ NeverTimedOut traces := by
  refine ⟨⟨by decide +kernel, by decide +kernel⟩, ?_⟩
  unfold NeverTimedOut
  decide +kernel

end uvhttp.websocket
