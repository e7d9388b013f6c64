import Uvhttp.Connection.Teardown

namespace uvhttp.upgrade

open connection machine

/-- The read callbacks of a connection. -/
inductive ReadCallback where
  | on_read
  | on_websocket_read
  deriving DecidableEq, Repr

/-- A connection with what libuv will call for it: the callback its reads go to
and whether the idle handle is started. `parsing` says that `on_read` is inside
`llhttp_execute`. -/
structure Link where
  conn : Conn
  read_cb : Option ReadCallback
  idle_active : Bool
  is_websocket : Bool
  parsing : Bool

/-- A connection as `uvhttp_connection_new` returns it. -/
def link_new : Link where
  conn := connection_new
  read_cb := none
  idle_active := false
  is_websocket := false
  parsing := false

/-- Whether an event starts the HTTP read callback. -/
def starts_http_read (l : Link) : Event → Bool
  | .call (.uvhttp_connection_start uv_read_start _) => read_starts l.conn uv_read_start
  | .call (.uvhttp_connection_restart_read uv_read_start) =>
    l.conn.state ≠ .CLOSING && read_starts l.conn uv_read_start
  | .call (.on_idle_restart_read uv_read_start) =>
    l.conn.state ≠ .CLOSING && read_starts l.conn uv_read_start
  | _ => false

/-- The callback that reads go to after an event, unless it closes the stream.
A restart, a switch and a transfer stop reading first. -/
def read_cb_after (l : Link) : Event → Option ReadCallback
  | .call (.uvhttp_connection_start uv_read_start tls) =>
    if starts_http_read l (.call (.uvhttp_connection_start uv_read_start tls)) then some .on_read else l.read_cb
  | .call (.uvhttp_connection_restart_read uv_read_start) =>
    if l.conn.state = .CLOSING then l.read_cb else if read_starts l.conn uv_read_start then some .on_read else none
  | .call (.on_idle_restart_read uv_read_start) =>
    if l.conn.state = .CLOSING then l.read_cb else if read_starts l.conn uv_read_start then some .on_read else none
  | .call (.uvhttp_connection_switch_to_websocket uv_read_start) =>
    if l.conn.state = .CLOSING then l.read_cb
    else if read_starts l.conn uv_read_start then some .on_websocket_read else none
  | .call (.uvhttp_connection_transfer_ownership _) => if l.conn.state ≠ .HTTP_PROCESSING then l.read_cb else none
  | _ => l.read_cb

/-- Whether the idle handle is started after an event, unless it is closed. -/
def idle_after (l : Link) : Event → Bool
  | .call (.uvhttp_connection_schedule_restart_read uv_idle_start) =>
    l.idle_active || (l.conn.state ≠ .CLOSING && uv_idle_start)
  | .call (.on_idle_restart_read _) => false
  | _ => l.idle_active

/-- An event in the life of the connection. -/
def move (l : Link) (event : Event) : Link :=
  let conn := (connection.step l.conn event).1
  { l with
    conn
    read_cb := if uv_is_closing conn .tcp_handle then none else read_cb_after l event
    idle_active := !uv_is_closing conn .idle_handle && idle_after l event
    is_websocket := l.is_websocket && event ≠ .call .uvhttp_connection_websocket_close }

/-- What happens to a connection: an event of its life;
`uvhttp_connection_handle_websocket_handshake`; a completed write
(`uvhttp_free_write_data`) or a synchronous TLS write
(`uvhttp_response_send_raw`) of a response; `on_read` with data, up to
`llhttp_execute`; and the return of `llhttp_execute`. -/
inductive LinkEvent where
  | life (event : Event)
  | websocket_handshake (on_connect uv_read_start : Bool)
  | write_completed (keepalive uv_idle_start : Bool)
  | tls_sent (keepalive : Bool) (status_code : Int) (uv_idle_start : Bool)
  | read (handshake : Handshake)
  | parsed (error : Bool)
  deriving DecidableEq, Repr

/-- What a step shows: the state it leaves, and whether it starts the HTTP read
callback. -/
structure Seen where
  state : ConnState
  http_read : Bool
  deriving DecidableEq, Repr

/-- The event that a step comes down to, if any, on the connection it finds. -/
def LinkEvent.resolve (l : Link) : LinkEvent → Link × Option Event
  | .life event => (l, some event)
  | .websocket_handshake on_connect uv_read_start =>
    ({ l with is_websocket := true }, some (.call (
      if on_connect then .uvhttp_connection_switch_to_websocket uv_read_start
      else .uvhttp_connection_websocket_close)))
  | .write_completed keepalive uv_idle_start =>
    (l, if !keepalive then some (.call .uvhttp_connection_close)
      else if !l.is_websocket then some (.call (.uvhttp_connection_schedule_restart_read uv_idle_start))
      else none)
  | .tls_sent keepalive status_code uv_idle_start =>
    (l, if !keepalive then some (.call .uvhttp_connection_close)
      else if !l.is_websocket && status_code ≠ 101 then
        some (.call (.uvhttp_connection_schedule_restart_read uv_idle_start))
      else none)
  | .read handshake =>
    if l.conn.state = .TLS_HANDSHAKE then
      ({ l with parsing := handshake = .completed }, some (.call (.on_read_handshake handshake)))
    else ({ l with parsing := true }, none)
  | .parsed error =>
    ({ l with parsing := false }, if error then some (.call .uvhttp_connection_close) else none)

/-- One step. -/
def step (l : Link) (e : LinkEvent) : Link × Seen :=
  match e.resolve l with
  | (found, none) => (found, ⟨found.conn.state, false⟩)
  | (found, some event) => (move found event, ⟨(move found event).conn.state, starts_http_read found event⟩)

/-- The calls that libuv makes itself, and when: between two other callbacks,
the idle callback while its handle is started, a read error while reads go to
`on_read`. The TLS handshake goes on inside `on_read`. -/
def CallPossible (l : Link) : Call → Prop
  | .on_idle_restart_read _ => l.idle_active = true ∧ l.parsing = false
  | .connection_timeout_cb => l.parsing = false
  | .on_read_error => l.read_cb = some .on_read ∧ l.parsing = false
  | .on_read_handshake _ => False
  | _ => True

instance (l : Link) : (call : Call) → Decidable (CallPossible l call)
  | .on_idle_restart_read _ => inferInstanceAs (Decidable (_ ∧ _))
  | .connection_timeout_cb => inferInstanceAs (Decidable (_ = _))
  | .on_read_error => inferInstanceAs (Decidable (_ ∧ _))
  | .on_read_handshake _ => inferInstanceAs (Decidable False)
  | .uvhttp_connection_close => inferInstanceAs (Decidable True)
  | .uvhttp_connection_free => inferInstanceAs (Decidable True)
  | .uvhttp_connection_websocket_close => inferInstanceAs (Decidable True)
  | .uvhttp_connection_start _ _ => inferInstanceAs (Decidable True)
  | .uvhttp_connection_restart_read _ => inferInstanceAs (Decidable True)
  | .uvhttp_connection_schedule_restart_read _ => inferInstanceAs (Decidable True)
  | .uvhttp_connection_switch_to_websocket _ => inferInstanceAs (Decidable True)
  | .uvhttp_connection_transfer_ownership _ => inferInstanceAs (Decidable True)

/-- What can happen to a connection in a state. -/
def LinkEvent.Possible (l : Link) : LinkEvent → Prop
  | .life (.call call) => l.conn.freed = false ∧ CallPossible l call
  | .life (.set_on_destroy calls) => (Event.set_on_destroy calls).Possible l.conn
  | .life (.handle_closed handle) => (Event.handle_closed handle).Possible l.conn ∧ l.parsing = false
  | .websocket_handshake _ _ => l.conn.freed = false
  | .write_completed _ _ => l.conn.freed = false ∧ l.parsing = false
  | .tls_sent _ _ _ => l.conn.freed = false
  | .read _ => l.conn.freed = false ∧ l.read_cb = some .on_read ∧ l.parsing = false
  | .parsed _ => l.conn.freed = false ∧ l.parsing = true

instance LinkEvent.decidablePossible (l : Link) : (e : LinkEvent) → Decidable (e.Possible l)
  | .life (.call _) => inferInstanceAs (Decidable (_ ∧ _))
  | .life (.set_on_destroy calls) => inferInstanceAs (Decidable ((Event.set_on_destroy calls).Possible l.conn))
  | .life (.handle_closed handle) => inferInstanceAs (Decidable ((Event.handle_closed handle).Possible l.conn ∧ _))
  | .websocket_handshake _ _ => inferInstanceAs (Decidable (_ = _))
  | .write_completed _ _ => inferInstanceAs (Decidable (_ ∧ _))
  | .tls_sent _ _ _ => inferInstanceAs (Decidable (_ = _))
  | .read _ => inferInstanceAs (Decidable (_ ∧ _ ∧ _))
  | .parsed _ => inferInstanceAs (Decidable (_ ∧ _))

/-- The state that a call leaves a connection in that has not been closed. -/
def state_after (c : Conn) : Call → ConnState
  | .uvhttp_connection_start uv_read_start tls =>
    if !read_starts c uv_read_start then .CLOSING
    else
      match tls with
      | none => .HTTP_READING
      | some .completed => .HTTP_READING
      | some .in_progress => .TLS_HANDSHAKE
      | some .failed => .CLOSING
  | .uvhttp_connection_restart_read _ => .HTTP_READING
  | .uvhttp_connection_schedule_restart_read _ => c.state
  | .uvhttp_connection_switch_to_websocket uv_read_start =>
    if !read_starts c uv_read_start then .CLOSING else .HTTP_PROCESSING
  | .uvhttp_connection_transfer_ownership uv_fileno =>
    if c.state = .HTTP_PROCESSING ∧ uv_fileno = true then .PROTOCOL_UPGRADED else c.state
  | .on_idle_restart_read uv_read_start => if !read_starts c uv_read_start then .CLOSING else .HTTP_READING
  | .on_read_handshake handshake =>
    if c.state ≠ .TLS_HANDSHAKE then c.state
    else
      match handshake with
      | .in_progress => c.state
      | .failed => .CLOSING
      | .completed => .HTTP_READING
  | _ => .CLOSING

section live

variable {c : Conn} (h : Live c)

include h in
theorem close_state (free_resources : Conn → Conn × List Effect) (state : ConnState) :
    (uvhttp_connection_close free_resources { c with state }).1.state = .CLOSING := by
  rw [close_untouched free_resources (h.with_state state)]

include h in
theorem perform_state (call : Call) :
    (perform uvhttp_connection_free_resources c call).1.state = state_after c call := by
  have hclose := close_state h uvhttp_connection_free_resources
  cases call with
  | uvhttp_connection_close => exact hclose c.state
  | uvhttp_connection_free =>
    rw [perform, uvhttp_connection_free, if_neg (by simp [h.freed]), if_neg (by simp [h.close_pending])]
    exact hclose c.state
  | uvhttp_connection_websocket_close => exact hclose c.state
  | uvhttp_connection_start uv_read_start tls =>
    simp only [perform, uvhttp_connection_start, state_after]
    split
    · exact hclose c.state
    · cases tls with
      | none => rfl
      | some handshake =>
        cases handshake with
        | completed => rfl
        | in_progress => rfl
        | failed => exact hclose .TLS_HANDSHAKE
  | uvhttp_connection_restart_read uv_read_start =>
    rw [perform, uvhttp_connection_restart_read, if_neg h.state]
    rfl
  | uvhttp_connection_schedule_restart_read uv_idle_start => rfl
  | uvhttp_connection_switch_to_websocket uv_read_start =>
    simp only [perform, uvhttp_connection_switch_to_websocket, if_neg h.state, state_after]
    split
    · exact hclose .HTTP_PROCESSING
    · rfl
  | uvhttp_connection_transfer_ownership uv_fileno =>
    simp only [perform, connection.uvhttp_connection_transfer_ownership, state_after]
    by_cases hstate : c.state = .HTTP_PROCESSING
    · cases uv_fileno with
      | false => simp [hstate]
      | true => simp [hstate]
    · simp [hstate]
  | connection_timeout_cb => exact hclose c.state
  | on_idle_restart_read uv_read_start =>
    simp only [perform, connection.on_idle_restart_read, if_neg h.state, uvhttp_connection_restart_read,
      state_after]
    split
    · exact hclose .HTTP_READING
    · rfl
  | on_read_error => exact hclose c.state
  | on_read_handshake handshake =>
    simp only [perform, connection.on_read_handshake, state_after]
    split
    · rfl
    · cases handshake with
      | completed => rfl
      | in_progress => rfl
      | failed => exact hclose c.state

end live

/-- What a call on a connection that is not closed does to its link. -/
theorem move_live {l : Link} (h : Live l.conn) (call : Call) :
    (move l (.call call)).conn.state = state_after l.conn call ∧
      (move l (.call call)).read_cb =
        (if state_after l.conn call = .CLOSING then none else read_cb_after l (.call call)) ∧
      (move l (.call call)).idle_active = (state_after l.conn call ≠ .CLOSING && idle_after l (.call call)) := by
  have hstate := perform_state h call
  have hclosing : ∀ handle, uv_is_closing (perform uvhttp_connection_free_resources l.conn call).1 handle =
      decide (state_after l.conn call = .CLOSING) := by
    intro handle
    rw [uv_is_closing, decide_eq_decide, ← hstate]
    cases perform_live uvhttp_connection_free_resources h call with
    | live hafter => exact iff_of_false (by rw [hafter.handles handle]; simp) hafter.state
    | tearing hafter => exact iff_of_true (hafter.handles handle) hafter.state
  refine ⟨hstate, ?_, ?_⟩
  · simp only [move, connection.step, hclosing, decide_eq_true_eq]
  · simp only [move, connection.step, hclosing]
    by_cases hclosed : state_after l.conn call = .CLOSING
    · simp [hclosed]
    · simp [hclosed]

/-- What a call on a connection that is being torn down does to its link: no
handle is left that could call back. -/
theorem move_tearing {l : Link} {pending : Nat} (h : Tearing l.conn pending) (call : Call) :
    (move l (.call call)).conn = l.conn ∧ (move l (.call call)).read_cb = none ∧
      (move l (.call call)).idle_active = false := by
  have hclosing : ∀ handle, uv_is_closing l.conn handle = true := fun handle => by
    simp [uv_is_closing, h.handles handle]
  have hsame := perform_tearing uvhttp_connection_free_resources h call
  simp [move, connection.step, hsame, hclosing]

theorem handle_closed_state {c : Conn} {pending : Nat} (h : Tearing c (pending + 1)) {handle : Handle}
    (hclosing : c.handles handle = .closing) :
    (connection.step c (.handle_closed handle)).1.state = .CLOSING ∧
      ∀ other, uv_is_closing (connection.step c (.handle_closed handle)).1 other = true := by
  have hhandles : ∀ other, (Function.update c.handles handle .closed) other ≠ .active := by
    intro other
    by_cases hother : other = handle
    · simp [hother]
    · simpa [hother] using h.handles other
  have hafter : Tearing { c with
      handles := Function.update c.handles handle .closed
      close_pending := c.close_pending - 1 } pending := by
    have hcount := closing_handles_closed hclosing
    rw [h.closing] at hcount
    refine ⟨h.state, hhandles, (Nat.succ.inj hcount).symm, ?_, h.freed⟩
    dsimp only
    rw [h.close_pending]
    push_cast
    ring
  have hfreed : ∀ {d : Conn}, Tearing d 0 → (uvhttp_connection_free_resources d).1.state = d.state ∧
      (uvhttp_connection_free_resources d).1.handles = d.handles := by
    intro d hd
    unfold uvhttp_connection_free_resources
    rw [if_neg (by simp [hd.freed])]
    cases d.on_destroy with
    | none => exact ⟨rfl, rfl⟩
    | some calls =>
      have hhook : Tearing { d with on_destroy := none } 0 :=
        ⟨hd.state, hd.handles, hd.closing, hd.close_pending, hd.freed⟩
      dsimp only
      rw [perform_all_tearing free_resources_unhooked hhook calls]
      exact ⟨rfl, rfl⟩
  unfold connection.step on_handle_close
  dsimp only
  cases pending with
  | zero =>
    rw [if_pos (by rw [h.close_pending]; rfl)]
    obtain ⟨hstate, hsame⟩ := hfreed hafter
    refine ⟨hstate.trans h.state, fun other => ?_⟩
    rw [uv_is_closing, hsame]
    simpa using hhandles other
  | succ pending =>
    rw [if_neg (by rw [h.close_pending]; push_cast; omega)]
    refine ⟨h.state, fun other => ?_⟩
    rw [uv_is_closing]
    simpa using hhandles other

theorem move_handle_closed {l : Link} {pending : Nat} (h : Tearing l.conn (pending + 1)) {handle : Handle}
    (hclosing : l.conn.handles handle = .closing) :
    (move l (.handle_closed handle)).conn.state = .CLOSING ∧ (move l (.handle_closed handle)).read_cb = none ∧
      (move l (.handle_closed handle)).idle_active = false := by
  obtain ⟨hstate, hhandles⟩ := handle_closed_state h hclosing
  simp only [move, hhandles, hstate]
  simp

/-- Nothing happens to a connection that has been freed. -/
theorem not_possible_of_gone {c : Conn} (h : Gone c) {event : Event} : ¬ event.Possible c := by
  intro hpossible
  cases event with
  | call call => exact absurd h.freed (by rw [show c.freed = false from hpossible]; simp)
  | set_on_destroy calls => exact absurd h.freed (by rw [show c.freed = false from hpossible]; simp)
  | handle_closed handle =>
    have hcount := closing_handles_closed hpossible
    rw [h.closing] at hcount
    cases hcount

/-- What holds of every link: its connection is sound, and reads go to `on_read`
only while it reads HTTP or shakes hands. -/
structure Steady (l : Link) : Prop where
  sound : Sound l.conn
  reading : l.read_cb = some .on_read → l.conn.state = .HTTP_READING ∨ l.conn.state = .TLS_HANDSHAKE

theorem steady_new : Steady link_new := ⟨.live live_new, fun h => by cases h⟩

/-- An event that can happen to the connection of a link. -/
theorem move_steady {l : Link} (h : Steady l) {event : Event} (hpossible : event.Possible l.conn) :
    Steady (move l event) := by
  have hsound : Sound (move l event).conn := (step_moves h.sound hpossible).sound
  refine ⟨hsound, ?_⟩
  cases h.sound with
  | live hlive =>
    cases event with
    | call call =>
      obtain ⟨hstate, hread, -⟩ := move_live hlive call
      rw [hstate, hread]
      have hkept := h.reading
      have hactive := hlive.state
      cases call with
      | uvhttp_connection_start uv_read_start tls =>
        by_cases hstart : read_starts l.conn uv_read_start = true
        · cases tls with
          | none => simp [state_after, hstart]
          | some handshake => cases handshake <;> simp [state_after, hstart]
        · simp [state_after, hstart]
      | uvhttp_connection_restart_read uv_read_start => simp [state_after]
      | uvhttp_connection_schedule_restart_read uv_idle_start =>
        simpa [state_after, read_cb_after, hactive] using hkept
      | uvhttp_connection_switch_to_websocket uv_read_start =>
        by_cases hstart : read_starts l.conn uv_read_start = true
        · simp [state_after, read_cb_after, hactive, hstart]
        · simp [state_after, hstart]
      | uvhttp_connection_transfer_ownership uv_fileno =>
        simp only [state_after, read_cb_after]
        by_cases hprocessing : l.conn.state = .HTTP_PROCESSING
        · cases uv_fileno <;> simp [hprocessing]
        · simp [hprocessing, hactive]
          exact hkept
      | on_idle_restart_read uv_read_start =>
        by_cases hstart : read_starts l.conn uv_read_start = true
        · simp [state_after, hstart]
        · simp [state_after, hstart]
      | on_read_handshake handshake =>
        simp only [state_after, read_cb_after]
        by_cases htls : l.conn.state = .TLS_HANDSHAKE
        · cases handshake <;> simp [htls]
        · simp [htls, hactive]
          intro hcb
          exact (hkept hcb).resolve_right htls
      | uvhttp_connection_close => simp [state_after]
      | uvhttp_connection_free => simp [state_after]
      | uvhttp_connection_websocket_close => simp [state_after]
      | connection_timeout_cb => simp [state_after]
      | on_read_error => simp [state_after]
    | set_on_destroy calls =>
      intro hcb
      simp only [move, connection.step, uv_is_closing, hlive.handles .tcp_handle, read_cb_after] at hcb
      exact h.reading (by simpa using hcb)
    | handle_closed handle =>
      have hactive := hlive.handles handle
      rw [show l.conn.handles handle = .closing from hpossible] at hactive
      cases hactive
  | tearing pending htearing =>
    cases event with
    | call call =>
      rw [(move_tearing htearing call).2.1]
      intro hcb
      cases hcb
    | set_on_destroy calls =>
      intro hcb
      simp [move, connection.step, uv_is_closing, htearing.handles .tcp_handle] at hcb
    | handle_closed handle =>
      rw [(move_handle_closed htearing hpossible).2.1]
      intro hcb
      cases hcb
  | gone hgone => exact absurd hpossible (not_possible_of_gone hgone)

theorem resolve_keeps (l : Link) (e : LinkEvent) :
    (e.resolve l).1.conn = l.conn ∧ (e.resolve l).1.read_cb = l.read_cb ∧
      (e.resolve l).1.idle_active = l.idle_active := by
  cases e with
  | read handshake =>
    simp only [LinkEvent.resolve]
    split <;> exact ⟨rfl, rfl, rfl⟩
  | _ => exact ⟨rfl, rfl, rfl⟩

theorem resolve_possible {l : Link} {e : LinkEvent} (h : e.Possible l) {event : Event}
    (hevent : (e.resolve l).2 = some event) : event.Possible l.conn := by
  cases e with
  | life happening =>
    cases hevent
    cases event with
    | call call => exact h.1
    | set_on_destroy calls => exact h
    | handle_closed handle => exact h.1
  | websocket_handshake on_connect uv_read_start =>
    cases hevent
    exact h
  | write_completed keepalive uv_idle_start =>
    simp only [LinkEvent.resolve] at hevent
    split at hevent
    · cases hevent
      exact h.1
    · split at hevent
      · cases hevent
        exact h.1
      · cases hevent
  | tls_sent keepalive status_code uv_idle_start =>
    simp only [LinkEvent.resolve] at hevent
    split at hevent
    · cases hevent
      exact h
    · split at hevent
      · cases hevent
        exact h
      · cases hevent
  | read handshake =>
    simp only [LinkEvent.resolve] at hevent
    split at hevent
    · cases hevent
      exact h.1
    · cases hevent
  | parsed error =>
    simp only [LinkEvent.resolve] at hevent
    split at hevent
    · cases hevent
      exact h.1
    · cases hevent

/-- A step is an event on the connection, or leaves it alone. -/
theorem step_cases (l : Link) (e : LinkEvent) :
    ((e.resolve l).2 = none ∧ step l e = ((e.resolve l).1, ⟨l.conn.state, false⟩)) ∨
      ∃ event, (e.resolve l).2 = some event ∧ step l e = (move (e.resolve l).1 event,
        ⟨(move (e.resolve l).1 event).conn.state, starts_http_read (e.resolve l).1 event⟩) := by
  have hconn := (resolve_keeps l e).1
  unfold step
  generalize e.resolve l = resolved at hconn ⊢
  obtain ⟨found, event⟩ := resolved
  cases event with
  | none => exact .inl ⟨rfl, by rw [← hconn]⟩
  | some event => exact .inr ⟨event, rfl, rfl⟩

theorem step_steady {l : Link} (h : Steady l) {e : LinkEvent} (hpossible : e.Possible l) :
    Steady (step l e).1 := by
  obtain ⟨hconn, hread, -⟩ := resolve_keeps l e
  have hfound : Steady (e.resolve l).1 := ⟨by rw [hconn]; exact h.sound, by rw [hconn, hread]; exact h.reading⟩
  rcases step_cases l e with ⟨-, hstep⟩ | ⟨event, hevent, hstep⟩
  · rw [hstep]
    exact hfound
  · rw [hstep]
    exact move_steady hfound (by rw [hconn]; exact resolve_possible hpossible hevent)

theorem steady_run {l : Link} (h : Steady l) {es : List LinkEvent}
    (hes : Enabled step (fun l e => e.Possible l) l es) : Steady (run step l es) :=
  history_invariant (fun l _ _ => Steady l) h (fun _ _ _ _ hsteady hpossible => step_steady hsteady hpossible) hes

/-- The steps that call `uvhttp_connection_switch_to_websocket`. -/
def LinkEvent.switches : LinkEvent → Bool
  | .life (.call (.uvhttp_connection_switch_to_websocket _)) => true
  | .websocket_handshake _ _ => true
  | _ => false

theorem state_after_processing {c : Conn} {call : Call} (h : state_after c call = .HTTP_PROCESSING) :
    c.state = .HTTP_PROCESSING ∨ ∃ uv_read_start, call = .uvhttp_connection_switch_to_websocket uv_read_start := by
  cases call with
  | uvhttp_connection_switch_to_websocket uv_read_start => exact .inr ⟨uv_read_start, rfl⟩
  | uvhttp_connection_schedule_restart_read uv_idle_start => exact .inl h
  | uvhttp_connection_start uv_read_start tls =>
    simp only [state_after] at h
    split at h
    · cases h
    · split at h <;> cases h
  | uvhttp_connection_transfer_ownership uv_fileno =>
    simp only [state_after] at h
    split at h
    · cases h
    · exact .inl h
  | on_idle_restart_read uv_read_start =>
    simp only [state_after] at h
    split at h <;> cases h
  | on_read_handshake handshake =>
    simp only [state_after] at h
    split at h
    · exact .inl h
    · split at h
      · exact .inl h
      · cases h
      · cases h
  | _ => cases h

theorem resolve_switch {l : Link} {e : LinkEvent} {uv_read_start : Bool}
    (h : (e.resolve l).2 = some (.call (.uvhttp_connection_switch_to_websocket uv_read_start))) :
    e.switches = true := by
  cases e with
  | life event =>
    cases h
    rfl
  | websocket_handshake on_connect uv_read_start => rfl
  | write_completed keepalive uv_idle_start =>
    simp only [LinkEvent.resolve] at h
    split at h
    · cases h
    · split at h <;> cases h
  | tls_sent keepalive status_code uv_idle_start =>
    simp only [LinkEvent.resolve] at h
    split at h
    · cases h
    · split at h <;> cases h
  | read handshake =>
    simp only [LinkEvent.resolve] at h
    split at h <;> cases h
  | parsed error =>
    simp only [LinkEvent.resolve] at h
    split at h <;> cases h

/-- Only a switch to WebSocket reading makes a connection one that processes. -/
theorem step_processing {l : Link} (h : Steady l) {e : LinkEvent} (hpossible : e.Possible l)
    (hafter : (step l e).1.conn.state = .HTTP_PROCESSING) :
    l.conn.state = .HTTP_PROCESSING ∨ e.switches = true := by
  obtain ⟨hconn, -, -⟩ := resolve_keeps l e
  rcases step_cases l e with ⟨-, hstep⟩ | ⟨event, hevent, hstep⟩
  · rw [hstep] at hafter
    exact .inl (hconn ▸ hafter)
  · rw [hstep] at hafter
    dsimp only at hafter
    have hlife := resolve_possible hpossible hevent
    cases h.sound with
    | live hlive =>
      cases event with
      | call call =>
        rw [(move_live (by rw [hconn]; exact hlive) call).1, hconn] at hafter
        rcases state_after_processing hafter with hbefore | ⟨uv_read_start, rfl⟩
        · exact .inl hbefore
        · exact .inr (resolve_switch hevent)
      | set_on_destroy calls => exact .inl (by rw [← hconn]; exact hafter)
      | handle_closed handle =>
        have hactive := hlive.handles handle
        rw [show l.conn.handles handle = .closing from hlife] at hactive
        cases hactive
    | tearing pending htearing =>
      cases event with
      | call call =>
        rw [(move_tearing (by rw [hconn]; exact htearing) call).1, hconn, htearing.state] at hafter
        cases hafter
      | set_on_destroy calls => exact .inl (by rw [← hconn]; exact hafter)
      | handle_closed handle =>
        rw [(move_handle_closed (by rw [hconn]; exact htearing) (by rw [hconn]; exact hlife)).1] at hafter
        cases hafter
    | gone hgone => exact absurd hlife (not_possible_of_gone hgone)

/-- A switch to WebSocket reading was made among these steps, and no step since
has changed the state of the connection. -/
def Switched (l : Link) (es : List LinkEvent) : Prop :=
  ∃ before e since, es = before ++ e :: since ∧ e.switches = true ∧
    (run step l (before ++ [e])).conn.state = .HTTP_PROCESSING ∧
    Enabled step (fun l e => (step l e).1.conn.state = l.conn.state) (run step l (before ++ [e])) since

theorem run_state_unchanged {l : Link} {es : List LinkEvent}
    (h : Enabled step (fun l e => (step l e).1.conn.state = l.conn.state) l es) :
    (run step l es).conn.state = l.conn.state := by
  induction es generalizing l with
  | nil => rfl
  | cons e es ih => exact (ih h.2).trans h.1

theorem Switched.append {l : Link} {es : List LinkEvent} (h : Switched l es) {e : LinkEvent}
    (hsame : (step (run step l es) e).1.conn.state = (run step l es).conn.state) : Switched l (es ++ [e]) := by
  obtain ⟨before, switch, since, rfl, hswitch, hstate, hsince⟩ := h
  refine ⟨before, switch, since ++ [e], by simp, hswitch, hstate, ?_⟩
  rw [enabled_append]
  refine ⟨hsince, ?_, trivial⟩
  rw [← run_append, List.append_assoc]
  exact hsame

/-- From a state in which no request is processed, a connection comes to process
exactly by a switch to WebSocket reading that still stands. -/
theorem processing_iff_switched {l : Link} (h : Steady l) (hstart : l.conn.state ≠ .HTTP_PROCESSING)
    {es : List LinkEvent} (hes : Enabled step (fun l e => e.Possible l) l es) :
    (run step l es).conn.state = .HTTP_PROCESSING ↔ Switched l es := by
  refine ⟨?_, ?_⟩
  · intro hprocessing
    induction es using List.reverseRecOn with
    | nil => exact absurd hprocessing hstart
    | append_singleton es e ih =>
      obtain ⟨hbefore, hlast⟩ := enabled_append.mp hes
      have hrun : run step l (es ++ [e]) = (step (run step l es) e).1 := by
        rw [run_append]
        rfl
      by_cases hsame : (step (run step l es) e).1.conn.state = (run step l es).conn.state
      · refine (ih hbefore ?_).append hsame
        rw [← hsame, ← hrun]
        exact hprocessing
      · have hafter : (step (run step l es) e).1.conn.state = .HTTP_PROCESSING := by
          rw [← hrun]
          exact hprocessing
        have hswitch := (step_processing (steady_run h hbefore) hlast.1 hafter).resolve_left fun heq =>
          hsame (hafter.trans heq.symm)
        exact ⟨es, e, [], rfl, hswitch, hprocessing, trivial⟩
  · rintro ⟨before, e, since, rfl, -, hstate, hsince⟩
    rw [List.append_cons, run_append, run_state_unchanged hsince]
    exact hstate

end uvhttp.upgrade
