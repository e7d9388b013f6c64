import Uvhttp.Connection.Upgrade

namespace uvhttp.upgrade

open connection machine

/-- What `uvhttp_connection_transfer_ownership` leaves behind: its return code,
the descriptors passed to the callback, and the connection. -/
structure Transfer where
  code : UvhttpError
  callbacks : List Int
  link : Link

/-- `uvhttp_connection_transfer_ownership`, with what `uv_fileno` answers. The
callback is not NULL. -/
def uvhttp_connection_transfer_ownership (l : Link) (uv_fileno : Option Int) : Transfer :=
  if l.conn.state ≠ .HTTP_PROCESSING then ⟨.CONNECTION_INIT, [], l⟩
  else
    match uv_fileno with
    | none => ⟨.IO_ERROR, [], { l with read_cb := none }⟩
    | some fd =>
      if fd < 0 then ⟨.CONNECTION_INIT, [], { l with read_cb := none }⟩
      else ⟨.OK, [fd], { l with read_cb := none, conn := { l.conn with state := .PROTOCOL_UPGRADED } }⟩

/-- The state check passes, the callback is called once, and the connection is
upgraded. -/
def TakesOver (t : Transfer) : Prop :=
  t.code = .OK ∧ t.callbacks.length = 1 ∧ t.link.conn.state = .PROTOCOL_UPGRADED

instance (t : Transfer) : Decidable (TakesOver t) := inferInstanceAs (Decidable (_ ∧ _ ∧ _))

theorem takes_over_iff (l : Link) {fd : Int} (hfd : 0 ≤ fd) :
    TakesOver (uvhttp_connection_transfer_ownership l (some fd)) ↔ l.conn.state = .HTTP_PROCESSING := by
  unfold uvhttp_connection_transfer_ownership TakesOver
  by_cases hstate : l.conn.state = .HTTP_PROCESSING
  · simp [hstate, Int.not_lt.mpr hfd]
  · simp [hstate]

/-- `on_message_complete` can run after these steps of a connection: the last
read brought data to `llhttp_execute`, which has not returned. -/
structure MessageComplete (before : List LinkEvent) (handshake : Handshake) (during : List LinkEvent) : Prop where
  possible : Enabled step (fun l e => e.Possible l) link_new (before ++ .read handshake :: during)
  parsing : (run step link_new (before ++ [.read handshake])).parsing = true
  same_read : ∀ error, LinkEvent.parsed error ∉ during

/-- Data reaches `llhttp_execute` only on a connection that reads HTTP. -/
theorem read_reading {l : Link} (h : Steady l) {handshake : Handshake}
    (hpossible : (LinkEvent.read handshake).Possible l) (hparsing : (step l (.read handshake)).1.parsing = true) :
    (step l (.read handshake)).1.conn.state = .HTTP_READING := by
  obtain ⟨hfreed, hread, -⟩ := hpossible
  rcases h.reading hread with hreading | htls
  · simp [step, LinkEvent.resolve, hreading]
  · have hlive : Live l.conn := by
      cases h.sound with
      | live hlive => exact hlive
      | tearing pending htearing =>
        rw [htearing.state] at htls
        cases htls
      | gone hgone =>
        rw [hgone.freed] at hfreed
        cases hfreed
    have hcompleted : handshake = .completed := by
      simpa [step, LinkEvent.resolve, htls, move] using hparsing
    have hmove := (move_live (l := { l with parsing := true }) hlive (.on_read_handshake .completed)).1
    subst hcompleted
    simp only [step, LinkEvent.resolve, htls, if_true, decide_true]
    rw [hmove]
    simp [state_after, htls]

/-- A handler that `on_message_complete` invokes, on the first or a later
request, with or without TLS, gets the connection exactly when a handler of an
earlier message of the same read has switched it to WebSocket reading and no step
since has changed its state. -/
theorem handler_takes_over_iff {before during : List LinkEvent} {handshake : Handshake}
    (h : MessageComplete before handshake during) {fd : Int} (hfd : 0 ≤ fd) :
    TakesOver (uvhttp_connection_transfer_ownership
        (run step link_new (before ++ .read handshake :: during)) (some fd)) ↔
      Switched (run step link_new (before ++ [.read handshake])) during := by
  have hes := h.possible
  rw [List.append_cons] at hes
  obtain ⟨hread, hduring⟩ := enabled_append.mp hes
  obtain ⟨hbefore, hlast, -⟩ := enabled_append.mp hread
  have hrun : run step link_new (before ++ [.read handshake]) =
      (step (run step link_new before) (.read handshake)).1 := by
    rw [run_append]
    rfl
  have hparsing := h.parsing
  rw [hrun] at hparsing
  have hreading := read_reading (steady_run steady_new hbefore) hlast hparsing
  rw [takes_over_iff _ hfd, List.append_cons, run_append]
  refine processing_iff_switched (steady_run steady_new hread) ?_ hduring
  rw [hrun, hreading]
  decide

/-- A second message of a read, after the first has been answered with a switch
to WebSocket reading. -/
theorem handler_takes_over_after_switch :
    TakesOver (uvhttp_connection_transfer_ownership (run step link_new ([.life (.call
      (.uvhttp_connection_start true none))] ++ .read .completed :: [.life (.call
      (.uvhttp_connection_switch_to_websocket true))])) (some 7)) := by
  refine (@handler_takes_over_iff [.life (.call (.uvhttp_connection_start true none))] _ .completed
    ⟨by decide, by decide, ?_⟩ 7 (by decide)).mpr ?_
  · intro error hmem
    simp at hmem
  · exact ⟨[], _, [], rfl, rfl, by decide, trivial⟩

/-- The first request on a plain connection: its upgrade handler is refused. -/
theorem handler_refused_first_request :
    MessageComplete [.life (.call (.uvhttp_connection_start true none))] .completed [] ∧
      ¬ TakesOver (uvhttp_connection_transfer_ownership (run step link_new
        ([.life (.call (.uvhttp_connection_start true none))] ++ [.read .completed])) (some 7)) := by
  refine ⟨⟨by decide, by decide, fun error hmem => ?_⟩, by decide⟩
  cases hmem

/-- What happens to a connection after its transfer: write completions, idle
callbacks, timeouts and closes, the return of `llhttp_execute` and the close
callbacks of the handles. -/
def LinkEvent.Later : LinkEvent → Prop
  | .life (.call .uvhttp_connection_close) => True
  | .life (.call .uvhttp_connection_free) => True
  | .life (.call .uvhttp_connection_websocket_close) => True
  | .life (.call .connection_timeout_cb) => True
  | .life (.call (.on_idle_restart_read _)) => True
  | .life (.set_on_destroy _) => True
  | .life (.handle_closed _) => True
  | .write_completed _ _ => True
  | .tls_sent _ _ _ => True
  | .parsed _ => True
  | _ => False

/-- The step starts the idle handle that restarts HTTP reading: it completes the
write of a keep-alive response (over TLS, of one that is no 101) on a connection
that is neither closing nor marked as a WebSocket. -/
def arms_restart (l : Link) (e : LinkEvent) : Prop :=
  (e.resolve l).2 = some (.call (.uvhttp_connection_schedule_restart_read true)) ∧ l.conn.state ≠ .CLOSING

instance (l : Link) (e : LinkEvent) : Decidable (arms_restart l e) := inferInstanceAs (Decidable (_ ∧ _))

/-- The connection stayed upgraded until it was closing, and its HTTP read
callback was not started. -/
def Kept (seen : List Seen) : Prop :=
  (∃ upgraded closing, seen.map Seen.state =
      List.replicate upgraded .PROTOCOL_UPGRADED ++ List.replicate closing .CLOSING) ∧
    ∀ s ∈ seen, s.http_read = false

theorem Kept.cons_upgraded {s : Seen} {seen : List Seen} (h : Kept seen) (hstate : s.state = .PROTOCOL_UPGRADED)
    (hread : s.http_read = false) : Kept (s :: seen) := by
  obtain ⟨⟨upgraded, closing, hstates⟩, hreads⟩ := h
  refine ⟨⟨upgraded + 1, closing, ?_⟩, ?_⟩
  · rw [List.map_cons, hstate, hstates, List.replicate_succ, List.cons_append]
  · intro other hother
    rcases List.mem_cons.mp hother with rfl | hmem
    · exact hread
    · exact hreads other hmem

/-- A step that comes after the transfer is a close, a scheduled restart, an idle
callback, a hook or a close callback, or nothing. -/
theorem later_cases {l : Link} {e : LinkEvent} (h : e.Later) {event : Event}
    (hevent : (e.resolve l).2 = some event) :
    (∃ call, event = .call call ∧ (∀ c, state_after c call = .CLOSING) ∧
        starts_http_read (e.resolve l).1 event = false) ∨
      (∃ uv_idle_start, event = .call (.uvhttp_connection_schedule_restart_read uv_idle_start)) ∨
      (∃ uv_read_start, e = .life (.call (.on_idle_restart_read uv_read_start))) ∨
      (∃ calls, event = .set_on_destroy calls) ∨ ∃ handle, event = .handle_closed handle := by
  cases e with
  | life happening =>
    cases hevent
    cases event with
    | call call =>
      cases call with
      | uvhttp_connection_close => exact .inl ⟨_, rfl, fun _ => rfl, rfl⟩
      | uvhttp_connection_free => exact .inl ⟨_, rfl, fun _ => rfl, rfl⟩
      | uvhttp_connection_websocket_close => exact .inl ⟨_, rfl, fun _ => rfl, rfl⟩
      | connection_timeout_cb => exact .inl ⟨_, rfl, fun _ => rfl, rfl⟩
      | on_idle_restart_read uv_read_start => exact .inr (.inr (.inl ⟨uv_read_start, rfl⟩))
      | _ => cases h
    | set_on_destroy calls => exact .inr (.inr (.inr (.inl ⟨calls, rfl⟩)))
    | handle_closed handle => exact .inr (.inr (.inr (.inr ⟨handle, rfl⟩)))
  | write_completed keepalive uv_idle_start =>
    simp only [LinkEvent.resolve] at hevent
    split at hevent
    · cases hevent
      exact .inl ⟨_, rfl, fun _ => rfl, rfl⟩
    · split at hevent
      · cases hevent
        exact .inr (.inl ⟨uv_idle_start, rfl⟩)
      · cases hevent
  | tls_sent keepalive status_code uv_idle_start =>
    simp only [LinkEvent.resolve] at hevent
    split at hevent
    · cases hevent
      exact .inl ⟨_, rfl, fun _ => rfl, rfl⟩
    · split at hevent
      · cases hevent
        exact .inr (.inl ⟨uv_idle_start, rfl⟩)
      · cases hevent
  | parsed error =>
    simp only [LinkEvent.resolve] at hevent
    split at hevent
    · cases hevent
      exact .inl ⟨_, rfl, fun _ => rfl, rfl⟩
    · cases hevent
  | websocket_handshake on_connect uv_read_start => cases h
  | read handshake => cases h

/-- A closed connection stays closed. -/
theorem closing_step {l : Link} (h : Steady l) (hstate : l.conn.state = .CLOSING) {e : LinkEvent}
    (hpossible : e.Possible l) (hlater : e.Later) :
    (step l e).1.conn.state = .CLOSING ∧ (step l e).2 = ⟨.CLOSING, false⟩ := by
  obtain ⟨hconn, -, -⟩ := resolve_keeps l e
  rcases step_cases l e with ⟨-, hstep⟩ | ⟨event, hevent, hstep⟩
  · rw [hstep, hconn, hstate]
    exact ⟨rfl, rfl⟩
  · have hlife := resolve_possible hpossible hevent
    have hafter : (move (e.resolve l).1 event).conn.state = .CLOSING := by
      cases h.sound with
      | live hlive => exact absurd hstate hlive.state
      | gone hgone => exact absurd hlife (not_possible_of_gone hgone)
      | tearing pending htearing =>
        rw [← hconn] at htearing hlife hstate
        cases event with
        | call call =>
          rw [(move_tearing htearing call).1]
          exact hstate
        | set_on_destroy calls => exact hstate
        | handle_closed handle => exact (move_handle_closed htearing hlife).1
    have hread : starts_http_read (e.resolve l).1 event = false := by
      rcases later_cases hlater hevent with ⟨call, -, -, hread⟩ | ⟨_, rfl⟩ | ⟨_, rfl⟩ | ⟨_, rfl⟩ | ⟨_, rfl⟩
      · exact hread
      · rfl
      · cases hevent
        simp [starts_http_read, LinkEvent.resolve, hstate]
      · rfl
      · rfl
    rw [hstep, hafter, hread]
    exact ⟨rfl, rfl⟩

theorem kept_closing {l : Link} (h : Steady l) (hstate : l.conn.state = .CLOSING) {es : List LinkEvent}
    (hes : Enabled step (fun l e => e.Possible l) l es) (hlater : ∀ e ∈ es, e.Later) :
    answers step l es = List.replicate es.length ⟨.CLOSING, false⟩ := by
  induction es generalizing l with
  | nil => rfl
  | cons e es ih =>
    obtain ⟨hafter, hseen⟩ := closing_step h hstate hes.1 (hlater e List.mem_cons_self)
    rw [answers, hseen, List.length_cons, List.replicate_succ,
      ih (step_steady h hes.1) hafter hes.2 fun other hother => hlater other (List.mem_cons_of_mem e hother)]

/-- A step that does not schedule a restart leaves an upgraded connection as it
is, or closes it. -/
theorem upgraded_step {l : Link} (hlive : Live l.conn) (hstate : l.conn.state = .PROTOCOL_UPGRADED)
    (hidle : l.idle_active = false) {e : LinkEvent} (hpossible : e.Possible l) (hlater : e.Later)
    (hsafe : ¬ arms_restart l e) :
    (Live (step l e).1.conn ∧ (step l e).1.conn.state = .PROTOCOL_UPGRADED ∧ (step l e).1.idle_active = false ∧
        (step l e).2 = ⟨.PROTOCOL_UPGRADED, false⟩) ∨
      ((step l e).1.conn.state = .CLOSING ∧ (step l e).2 = ⟨.CLOSING, false⟩) := by
  obtain ⟨hconn, -, hidlesame⟩ := resolve_keeps l e
  rcases step_cases l e with ⟨-, hstep⟩ | ⟨event, hevent, hstep⟩
  · rw [hstep, hconn, hidlesame, hstate]
    exact .inl ⟨hlive, rfl, hidle, rfl⟩
  · have hlife := resolve_possible hpossible hevent
    have hfound : Live (e.resolve l).1.conn := by
      rw [hconn]
      exact hlive
    rcases later_cases hlater hevent with ⟨call, rfl, hcall, hread⟩ | ⟨uv_idle_start, rfl⟩ | ⟨_, rfl⟩ |
      ⟨calls, rfl⟩ | ⟨handle, rfl⟩
    · right
      have hafter := (move_live hfound call).1.trans (hcall _)
      rw [hstep, hafter, hread]
      exact ⟨rfl, rfl⟩
    · left
      have hnever : uv_idle_start = false := by
        cases uv_idle_start with
        | false => rfl
        | true => exact absurd ⟨hevent, by rw [hstate]; decide⟩ hsafe
      obtain ⟨hafter, -, hquiet⟩ := move_live hfound (.uvhttp_connection_schedule_restart_read uv_idle_start)
      have hkept : (move (e.resolve l).1 (.call (.uvhttp_connection_schedule_restart_read uv_idle_start))).conn.state =
          .PROTOCOL_UPGRADED := by
        rw [hafter, state_after, hconn, hstate]
      have hsound : Live (move (e.resolve l).1
          (.call (.uvhttp_connection_schedule_restart_read uv_idle_start))).conn := by
        cases perform_live uvhttp_connection_free_resources hfound
            (.uvhttp_connection_schedule_restart_read uv_idle_start) with
        | live hafter => exact hafter
        | tearing hafter => exact absurd (hkept.symm.trans hafter.state) (by decide)
      rw [hstep, hkept]
      refine ⟨hsound, rfl, ?_, rfl⟩
      rw [hquiet, idle_after, hidlesame, hidle, hnever]
      simp
    · have hactive := hpossible.2.1
      rw [hidle] at hactive
      cases hactive
    · left
      have hhandles := fun handle => hfound.handles handle
      rw [hstep]
      refine ⟨⟨⟨hfound.handles, hfound.close_pending, hfound.freed⟩, hfound.state⟩, ?_, ?_, ?_⟩
      · change (e.resolve l).1.conn.state = .PROTOCOL_UPGRADED
        rw [hconn, hstate]
      · simp [move, connection.step, uv_is_closing, hhandles, idle_after, hidlesame, hidle]
      · change Seen.mk (e.resolve l).1.conn.state false = _
        rw [hconn, hstate]
    · have hactive := hlive.handles handle
      rw [show l.conn.handles handle = .closing from hlife] at hactive
      cases hactive

theorem kept_upgraded {l : Link} (h : Steady l) (hlive : Live l.conn) (hstate : l.conn.state = .PROTOCOL_UPGRADED)
    (hidle : l.idle_active = false) {es : List LinkEvent} (hes : Enabled step (fun l e => e.Possible l) l es)
    (hlater : ∀ e ∈ es, e.Later) (hsafe : Enabled step (fun l e => ¬ arms_restart l e) l es) :
    Kept (answers step l es) := by
  induction es generalizing l with
  | nil => exact ⟨⟨0, 0, rfl⟩, fun s hs => by cases hs⟩
  | cons e es ih =>
    have hrest : ∀ other ∈ es, other.Later := fun other hother => hlater other (List.mem_cons_of_mem e hother)
    have hnext := step_steady h hes.1
    rcases upgraded_step hlive hstate hidle hes.1 (hlater e List.mem_cons_self) hsafe.1 with
      ⟨hlive', hstate', hidle', hseen⟩ | ⟨hclosed, hseen⟩
    · rw [answers, hseen]
      exact (ih hnext hlive' hstate' hidle' hes.2 hrest hsafe.2).cons_upgraded rfl rfl
    · rw [answers, hseen, kept_closing hnext hclosed hes.2 hrest]
      refine ⟨⟨0, es.length + 1, ?_⟩, ?_⟩
      · rw [List.map_cons, List.map_replicate, List.replicate_succ]
        rfl
      · intro s hs
        rcases List.mem_cons.mp hs with rfl | hmem
        · rfl
        · rw [List.eq_of_mem_replicate hmem]

/-- An upgraded connection stays with its new owner in every run in which no
restart of reading is scheduled when the ownership is transferred, and no write
completion schedules one afterwards: whatever write completions, idle callbacks,
timeouts and closes follow, the connection is upgraded until it is closing, and
HTTP reading does not start again. -/
theorem upgraded_kept {before after : List LinkEvent}
    (hes : Enabled step (fun l e => e.Possible l) link_new
      (before ++ .life (.call (.uvhttp_connection_transfer_ownership true)) :: after))
    (hprocessing : (run step link_new before).conn.state = .HTTP_PROCESSING)
    (hlater : ∀ e ∈ after, e.Later) (hidle : (run step link_new before).idle_active = false)
    (hsafe : Enabled step (fun l e => ¬ arms_restart l e)
      (run step link_new (before ++ [.life (.call (.uvhttp_connection_transfer_ownership true))])) after) :
    Kept (answers step
      (run step link_new (before ++ [.life (.call (.uvhttp_connection_transfer_ownership true))])) after) := by
  rw [List.append_cons] at hes
  obtain ⟨htransfer, hafter⟩ := enabled_append.mp hes
  obtain ⟨hbefore, hcall, -⟩ := enabled_append.mp htransfer
  have hsteady := steady_run steady_new hbefore
  have hlive : Live (run step link_new before).conn := by
    cases hsteady.sound with
    | live hlive => exact hlive
    | tearing pending htearing =>
      rw [htearing.state] at hprocessing
      cases hprocessing
    | gone hgone =>
      have hfreed : (run step link_new before).conn.freed = false := hcall.1
      rw [hgone.freed] at hfreed
      cases hfreed
  have hrun : run step link_new (before ++ [.life (.call (.uvhttp_connection_transfer_ownership true))]) =
      move (run step link_new before) (.call (.uvhttp_connection_transfer_ownership true)) := by
    rw [run_append]
    rfl
  obtain ⟨hstate, -, hquiet⟩ := move_live hlive (.uvhttp_connection_transfer_ownership true)
  have hupgraded : state_after (run step link_new before).conn (.uvhttp_connection_transfer_ownership true) =
      .PROTOCOL_UPGRADED := by
    rw [state_after, if_pos ⟨hprocessing, rfl⟩]
  rw [hupgraded] at hstate
  have hunarmed : idle_after (run step link_new before) (.call (.uvhttp_connection_transfer_ownership true)) = false :=
    hidle
  rw [hupgraded, hunarmed, Bool.and_false] at hquiet
  refine kept_upgraded (steady_run steady_new htransfer) ?_ (by rw [hrun]; exact hstate)
    (by rw [hrun]; exact hquiet) hafter hlater hsafe
  rw [hrun]
  cases perform_live uvhttp_connection_free_resources hlive (.uvhttp_connection_transfer_ownership true) with
  | live hlive => exact hlive
  | tearing htearing => exact absurd (hstate.symm.trans htearing.state) (by decide)

/-- A connection switched to WebSocket reading and handed over inside one read:
the return of the parser, a completed write that keeps no connection alive and
the close callbacks of the handles follow. -/
theorem upgraded_kept_until_closed :
    Kept (answers step (run step link_new ([.life (.call (.uvhttp_connection_start true none)), .read .completed,
        .life (.call (.uvhttp_connection_switch_to_websocket true))] ++
        [.life (.call (.uvhttp_connection_transfer_ownership true))]))
      [.parsed false, .write_completed false true, .life (.handle_closed .tcp_handle)]) := by
  refine upgraded_kept (by decide) (by decide) ?_ (by decide) (by decide)
  intro e he
  simp only [List.mem_cons, List.not_mem_nil, or_false] at he
  rcases he with rfl | rfl | rfl
  · trivial
  · trivial
  · trivial

/-- The events that give a connection to its new owner and take it back: the
completed write of the keep-alive 101 response schedules a restart of reading,
and the idle callback performs it. -/
def stolen_back : List LinkEvent :=
  [.parsed false, .write_completed true true, .life (.call (.on_idle_restart_read true))]

/-- A connection that returns to HTTP after its transfer. -/
theorem upgraded_returns_to_http :
    Enabled step (fun l e => e.Possible l) link_new ([.life (.call (.uvhttp_connection_start true none)),
        .read .completed, .life (.call (.uvhttp_connection_switch_to_websocket true))] ++
        .life (.call (.uvhttp_connection_transfer_ownership true)) :: stolen_back) ∧
      (∀ e ∈ stolen_back, e.Later) ∧
      answers step (run step link_new [.life (.call (.uvhttp_connection_start true none)), .read .completed,
          .life (.call (.uvhttp_connection_switch_to_websocket true))])
        (.life (.call (.uvhttp_connection_transfer_ownership true)) :: stolen_back) =
        [⟨.PROTOCOL_UPGRADED, false⟩, ⟨.PROTOCOL_UPGRADED, false⟩, ⟨.PROTOCOL_UPGRADED, false⟩,
          ⟨.HTTP_READING, true⟩] ∧
      ¬ Kept (answers step (run step link_new ([.life (.call (.uvhttp_connection_start true none)), .read .completed,
          .life (.call (.uvhttp_connection_switch_to_websocket true))] ++
          [.life (.call (.uvhttp_connection_transfer_ownership true))])) stolen_back) := by
  refine ⟨by decide, ?_, by decide, ?_⟩
  · intro e he
    simp only [stolen_back, List.mem_cons, List.not_mem_nil, or_false] at he
    rcases he with rfl | rfl | rfl
    · trivial
    · trivial
    · trivial
  · intro hkept
    have hread := hkept.2 ⟨.HTTP_READING, true⟩ (by decide)
    cases hread

end uvhttp.upgrade
