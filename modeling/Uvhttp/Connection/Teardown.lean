import Uvhttp.Lib.Machine
import Uvhttp.Connection.Lifecycle

namespace uvhttp.connection

/-- The handles passed to `uv_close` whose close callback has not run. -/
def closing_handles (c : Conn) : Nat := all_handles.countP fun handle => c.handles handle = .closing

/-- No handle has been passed to `uv_close`. -/
structure Untouched (c : Conn) : Prop where
  handles : ∀ handle, c.handles handle = .active
  close_pending : c.close_pending = 0
  freed : c.freed = false

/-- The connection has not been closed. -/
structure Live (c : Conn) : Prop extends Untouched c where
  state : c.state ≠ .CLOSING

/-- The teardown is under way, and `pending` close callbacks are to come. -/
structure Tearing (c : Conn) (pending : Nat) : Prop where
  state : c.state = .CLOSING
  handles : ∀ handle, c.handles handle ≠ .active
  closing : closing_handles c = pending
  close_pending : c.close_pending = pending
  freed : c.freed = false

/-- The connection has been freed. -/
structure Gone (c : Conn) : Prop where
  closing : closing_handles c = 0
  close_pending : c.close_pending = 0
  freed : c.freed = true

/-- The three calls of `uv_close` that start a teardown. -/
def closes : List Effect := all_handles.map .uv_close

theorem live_new : Live connection_new := ⟨⟨fun _ => rfl, rfl, rfl⟩, by decide⟩

section calls

variable (free_resources : Conn → Conn × List Effect)

theorem close_untouched {c : Conn} (h : Untouched c) :
    uvhttp_connection_close free_resources c =
      ({ c with state := .CLOSING, close_pending := 3, handles := fun _ => .closing }, closes) := by
  have hguard : ¬ (c.state = .CLOSING ∧ c.close_pending > 0) := by
    rw [h.close_pending]
    exact fun hguard => absurd hguard.2 (by decide)
  have hclosing : Function.update (Function.update (Function.update c.handles .idle_handle .closing)
      .timeout_timer .closing) .tcp_handle .closing = fun _ => HandleStatus.closing := by
    funext handle
    cases handle with
    | idle_handle => rfl
    | timeout_timer => rfl
    | tcp_handle => rfl
  rw [uvhttp_connection_close, if_neg hguard]
  simp [close_handle, uv_is_closing, h.handles, closes, all_handles, hclosing]

theorem tearing_of_untouched {c : Conn} (h : Untouched c) :
    Tearing (uvhttp_connection_close free_resources c).1 3 := by
  rw [close_untouched free_resources h]
  exact ⟨rfl, fun _ => by simp, rfl, rfl, h.freed⟩

/-- A second close does nothing. -/
theorem close_tearing {c : Conn} {pending : Nat} (h : Tearing c pending) :
    uvhttp_connection_close free_resources c = (c, []) := by
  have hclosing : ∀ handle, uv_is_closing c handle = true := fun handle => by simp [uv_is_closing, h.handles handle]
  by_cases hpending : 0 < pending
  · rw [uvhttp_connection_close, if_pos]
    refine ⟨h.state, ?_⟩
    rw [h.close_pending]
    exact_mod_cast hpending
  · have hzero : c.close_pending = 0 := by
      rw [h.close_pending, Nat.eq_zero_of_not_pos hpending]
      rfl
    have hsame : { c with state := .CLOSING, close_pending := 0 } = c := by
      rw [← h.state, ← hzero]
    rw [uvhttp_connection_close, if_neg (by rw [hzero]; simp)]
    dsimp only
    rw [hsame]
    have hhandle : ∀ handle, close_handle c handle = (c, []) := fun handle => by
      rw [close_handle, if_pos (hclosing handle)]
    have hcount : all_handles.countP (uv_is_closing c) ≠ 0 := by simp [all_handles, hclosing]
    simp only [hhandle]
    rw [if_neg fun hnone => hcount hnone.2]
    rfl

theorem read_starts_tearing {c : Conn} {pending : Nat} (h : Tearing c pending) (uv_read_start : Bool) :
    read_starts c uv_read_start = false := by
  simp [read_starts, uv_is_closing, h.handles .tcp_handle]

/-- Nothing but a close callback touches a connection that is being torn down. -/
theorem perform_tearing {c : Conn} {pending : Nat} (h : Tearing c pending) (call : Call) :
    perform free_resources c call = (c, []) := by
  have hclose := close_tearing free_resources h
  cases call with
  | uvhttp_connection_close => exact hclose
  | uvhttp_connection_free =>
    rw [perform, uvhttp_connection_free, if_neg (by simp [h.freed])]
    split
    · rfl
    · exact hclose
  | uvhttp_connection_websocket_close => exact hclose
  | uvhttp_connection_start uv_read_start tls =>
    rw [perform]
    unfold uvhttp_connection_start
    rw [read_starts_tearing h]
    exact hclose
  | uvhttp_connection_restart_read uv_read_start =>
    rw [perform, uvhttp_connection_restart_read, if_pos h.state]
  | uvhttp_connection_schedule_restart_read uv_idle_start => rfl
  | uvhttp_connection_switch_to_websocket uv_read_start =>
    rw [perform, uvhttp_connection_switch_to_websocket, if_pos h.state]
  | uvhttp_connection_transfer_ownership uv_fileno =>
    rw [perform, uvhttp_connection_transfer_ownership, if_pos (by simp [h.state])]
  | connection_timeout_cb => exact hclose
  | on_idle_restart_read uv_read_start => rw [perform, connection.on_idle_restart_read, if_pos h.state]
  | on_read_error => exact hclose
  | on_read_handshake handshake =>
    rw [perform]
    unfold connection.on_read_handshake
    rw [if_pos (by simp [h.state])]

theorem perform_all_tearing {c : Conn} {pending : Nat} (h : Tearing c pending) (calls : List Call) :
    perform_all free_resources c calls = (c, []) := by
  induction calls with
  | nil => rfl
  | cons call calls ih =>
    rw [perform_all, perform_tearing free_resources h call]
    dsimp only
    rw [ih]
    rfl

/-- How a call can leave a connection that has not been closed: still so, or at
the start of its teardown. -/
inductive Leaves (result : Conn × List Effect) : Prop where
  | live (h : Live result.1) (heffects : result.2 = [])
  | tearing (h : Tearing result.1 3) (heffects : result.2 = closes)

theorem leaves_close {c : Conn} (h : Untouched c) : Leaves (uvhttp_connection_close free_resources c) :=
  .tearing (tearing_of_untouched free_resources h) (by rw [close_untouched free_resources h])

theorem Untouched.with_state {c : Conn} (h : Untouched c) (state : ConnState) : Untouched { c with state } :=
  ⟨h.handles, h.close_pending, h.freed⟩

theorem leaves_state {c : Conn} (h : Untouched c) (state : ConnState) (hstate : state ≠ .CLOSING) :
    Leaves ({ c with state }, []) := .live ⟨h.with_state state, hstate⟩ rfl

theorem perform_live {c : Conn} (h : Live c) (call : Call) : Leaves (perform free_resources c call) := by
  have hclose := leaves_close free_resources h.toUntouched
  have hreading := leaves_state h.toUntouched .HTTP_READING (by decide)
  cases call with
  | uvhttp_connection_close => exact hclose
  | uvhttp_connection_free =>
    rw [perform, uvhttp_connection_free, if_neg (by simp [h.freed]), if_neg (by simp [h.close_pending])]
    exact hclose
  | uvhttp_connection_websocket_close => exact hclose
  | uvhttp_connection_start uv_read_start tls =>
    rw [perform]
    unfold uvhttp_connection_start
    split
    · exact hclose
    · cases tls with
      | none => exact hreading
      | some handshake =>
        cases handshake with
        | completed => exact hreading
        | in_progress => exact leaves_state h.toUntouched .TLS_HANDSHAKE (by decide)
        | failed => exact leaves_close free_resources (h.with_state .TLS_HANDSHAKE)
  | uvhttp_connection_restart_read uv_read_start =>
    rw [perform, uvhttp_connection_restart_read, if_neg h.state]
    exact hreading
  | uvhttp_connection_schedule_restart_read uv_idle_start => exact .live h rfl
  | uvhttp_connection_switch_to_websocket uv_read_start =>
    rw [perform, uvhttp_connection_switch_to_websocket, if_neg h.state]
    dsimp only
    split
    · exact leaves_close free_resources (h.with_state .HTTP_PROCESSING)
    · exact leaves_state h.toUntouched .HTTP_PROCESSING (by decide)
  | uvhttp_connection_transfer_ownership uv_fileno =>
    rw [perform, uvhttp_connection_transfer_ownership]
    split
    · exact .live h rfl
    · split
      · exact .live h rfl
      · exact leaves_state h.toUntouched .PROTOCOL_UPGRADED (by decide)
  | connection_timeout_cb => exact hclose
  | on_idle_restart_read uv_read_start =>
    rw [perform, connection.on_idle_restart_read, if_neg h.state, uvhttp_connection_restart_read, if_neg h.state]
    dsimp only
    split
    · exact leaves_close free_resources (h.with_state .HTTP_READING)
    · exact hreading
  | on_read_error => exact hclose
  | on_read_handshake handshake =>
    rw [perform]
    unfold connection.on_read_handshake
    split
    · exact .live h rfl
    · cases handshake with
      | completed => exact hreading
      | in_progress => exact .live h rfl
      | failed => exact hclose

end calls

/-- Once all handles are closed the resources are freed, whatever the hook
does. -/
theorem free_resources_tearing {c : Conn} (h : Tearing c 0) :
    (uvhttp_connection_free_resources c).2 = [.free_resources] ∧ Gone (uvhttp_connection_free_resources c).1 := by
  have hclosing : closing_handles c = 0 := h.closing
  have hpending : c.close_pending = 0 := by
    rw [h.close_pending]
    rfl
  unfold uvhttp_connection_free_resources
  rw [if_neg (by simp [h.freed])]
  cases c.on_destroy with
  | none => exact ⟨rfl, hclosing, hpending, rfl⟩
  | some calls =>
    have hhook : Tearing { c with on_destroy := none } 0 := ⟨h.state, h.handles, h.closing, h.close_pending, h.freed⟩
    dsimp only
    rw [perform_all_tearing free_resources_unhooked hhook calls]
    exact ⟨rfl, hclosing, hpending, rfl⟩

/-- A close callback takes its handle off those that are closing. -/
theorem closing_handles_closed {c : Conn} {handle : Handle} (h : c.handles handle = .closing) :
    closing_handles c =
      closing_handles { c with handles := Function.update c.handles handle .closed } + 1 := by
  cases handle with
  | idle_handle => simp [closing_handles, all_handles, List.countP_cons, h]
  | timeout_timer =>
    simp [closing_handles, all_handles, List.countP_cons, h]
    omega
  | tcp_handle =>
    simp [closing_handles, all_handles, List.countP_cons, h]
    omega

/-- How an event moves a connection on. -/
inductive Moves (c : Conn) (event : Event) : Conn × List Effect → Prop where
  | stays {result} (hbefore : Live c) (hafter : Live result.1) (heffects : result.2 = [])
      (hevent : ∀ handle, event ≠ .handle_closed handle) : Moves c event result
  | closes {result} (hbefore : Live c) (hafter : Tearing result.1 3) (heffects : result.2 = closes)
      (hevent : ∀ handle, event ≠ .handle_closed handle) : Moves c event result
  | waits {result pending} (hbefore : Tearing c (pending + 1)) (hafter : Tearing result.1 (pending + 1))
      (heffects : result.2 = []) (hevent : ∀ handle, event ≠ .handle_closed handle) : Moves c event result
  | called_back {result pending} (hbefore : Tearing c (pending + 2)) (hafter : Tearing result.1 (pending + 1))
      (heffects : result.2 = []) (hevent : ∃ handle, event = .handle_closed handle) : Moves c event result
  | freed {result} (hbefore : Tearing c 1) (hafter : Gone result.1)
      (heffects : result.2 = [.decrement_active, .free_resources])
      (hevent : ∃ handle, event = .handle_closed handle) : Moves c event result

/-- The life of a connection: not closed, being torn down, or freed. -/
inductive Sound (c : Conn) : Prop where
  | live (h : Live c)
  | tearing (pending : Nat) (h : Tearing c (pending + 1))
  | gone (h : Gone c)

theorem moves_handle_closed {c : Conn} {pending : Nat} (h : Tearing c (pending + 1)) {handle : Handle}
    (hclosing : c.handles handle = .closing) :
    Moves c (.handle_closed handle) (step c (.handle_closed handle)) := by
  have hcount := closing_handles_closed hclosing
  rw [h.closing] at hcount
  have hafter : Tearing { c with
      handles := Function.update c.handles handle .closed
      close_pending := c.close_pending - 1 } pending := by
    refine ⟨h.state, ?_, (Nat.succ.inj hcount).symm, ?_, h.freed⟩
    · intro other
      by_cases hother : other = handle
      · simp [hother]
      · simpa [hother] using h.handles other
    · dsimp only
      rw [h.close_pending]
      push_cast
      ring
  unfold step on_handle_close
  dsimp only
  cases pending with
  | zero =>
    obtain ⟨heffects, hgone⟩ := free_resources_tearing hafter
    rw [if_pos (by rw [h.close_pending]; rfl)]
    exact .freed h hgone (congrArg (.decrement_active :: ·) heffects) ⟨handle, rfl⟩
  | succ pending =>
    have hmore : ¬ c.close_pending - 1 = 0 := by
      rw [h.close_pending]
      push_cast
      omega
    rw [if_neg hmore]
    exact .called_back h hafter rfl ⟨handle, rfl⟩

theorem Tearing.with_on_destroy {c : Conn} {pending : Nat} (h : Tearing c pending) (calls : List Call) :
    Tearing { c with on_destroy := some calls } pending :=
  ⟨h.state, h.handles, h.closing, h.close_pending, h.freed⟩

/-- Each event takes a sound connection one step on in its life. -/
theorem step_moves {c : Conn} (h : Sound c) {event : Event} (hpossible : event.Possible c) :
    Moves c event (step c event) := by
  cases h with
  | live h =>
    cases event with
    | call call =>
      cases perform_live uvhttp_connection_free_resources h call with
      | live hafter heffects => exact .stays h hafter heffects fun _ => nofun
      | tearing hafter heffects => exact .closes h hafter heffects fun _ => nofun
    | set_on_destroy calls =>
      exact .stays h ⟨⟨h.handles, h.close_pending, h.freed⟩, h.state⟩ rfl fun _ => nofun
    | handle_closed handle =>
      have hactive := h.handles handle
      rw [show c.handles handle = .closing from hpossible] at hactive
      cases hactive
  | tearing pending h =>
    cases event with
    | call call =>
      refine .waits h ?_ ?_ fun _ => nofun
      · rw [step, perform_tearing uvhttp_connection_free_resources h]
        exact h
      · rw [step, perform_tearing uvhttp_connection_free_resources h]
    | set_on_destroy calls => exact .waits h (h.with_on_destroy calls) rfl fun _ => nofun
    | handle_closed handle => exact moves_handle_closed h hpossible
  | gone h =>
    have hfreed := h.freed
    cases event with
    | call call =>
      rw [show c.freed = false from hpossible] at hfreed
      cases hfreed
    | set_on_destroy calls =>
      rw [show c.freed = false from hpossible] at hfreed
      cases hfreed
    | handle_closed handle =>
      have hcount := closing_handles_closed hpossible
      rw [h.closing] at hcount
      cases hcount

theorem Moves.sound {c : Conn} {event : Event} {result : Conn × List Effect} (h : Moves c event result) :
    Sound result.1 := by
  cases h with
  | stays _ hafter => exact .live hafter
  | closes _ hafter => exact .tearing 2 hafter
  | waits _ hafter => exact .tearing _ hafter
  | called_back _ hafter => exact .tearing _ hafter
  | freed _ hafter => exact .gone hafter

/-- Whether libuv runs a close callback. -/
def Event.is_callback : Event → Bool
  | .handle_closed _ => true
  | _ => false

/-- The close callbacks that have run. -/
def callbacks (events : List Event) : Nat := events.countP Event.is_callback

/-- A connection with what happened to it: the calls of `uv_close`, of
`uvhttp_connection_free_resources` and the close callbacks so far. -/
inductive Told (c : Conn) (events : List Event) (effects : List (List Effect)) : Prop where
  | live (h : Live c) (heffects : effects.flatten = []) (hcallbacks : callbacks events = 0)
  | tearing (pending : Nat) (h : Tearing c (pending + 1)) (heffects : effects.flatten = closes)
      (hcallbacks : callbacks events + (pending + 1) = 3)
  | gone (h : Gone c) (heffects : effects.flatten = closes ++ [.decrement_active, .free_resources])
      (hcallbacks : callbacks events = 3)

theorem Told.sound {c : Conn} {events : List Event} {effects : List (List Effect)} (h : Told c events effects) :
    Sound c := by
  cases h with
  | live h => exact .live h
  | tearing pending h => exact .tearing pending h
  | gone h => exact .gone h

theorem Live.not_tearing {c : Conn} (h : Live c) {pending : Nat} : ¬ Tearing c pending :=
  fun htearing => h.state htearing.state

theorem Gone.not_tearing {c : Conn} (h : Gone c) {pending : Nat} : ¬ Tearing c pending := fun htearing => by
  have hfreed := h.freed
  rw [htearing.freed] at hfreed
  cases hfreed

theorem Told.live_effects {c : Conn} {events : List Event} {effects : List (List Effect)}
    (h : Told c events effects) (hlive : Live c) : effects.flatten = [] ∧ callbacks events = 0 := by
  cases h with
  | live _ heffects hcallbacks => exact ⟨heffects, hcallbacks⟩
  | tearing pending h => exact absurd h hlive.not_tearing
  | gone h =>
    have hfreed := h.freed
    rw [hlive.freed] at hfreed
    cases hfreed

theorem Told.tearing_effects {c : Conn} {events : List Event} {effects : List (List Effect)}
    (h : Told c events effects) {pending : Nat} (htearing : Tearing c pending) :
    effects.flatten = closes ∧ callbacks events + pending = 3 := by
  cases h with
  | live h => exact absurd htearing h.not_tearing
  | tearing n h heffects hcallbacks =>
    have hpending : n + 1 = pending := h.closing.symm.trans htearing.closing
    exact ⟨heffects, hpending ▸ hcallbacks⟩
  | gone h => exact absurd htearing h.not_tearing

theorem callbacks_append_other {events : List Event} {event : Event}
    (hevent : ∀ handle, event ≠ .handle_closed handle) : callbacks (events ++ [event]) = callbacks events := by
  cases event with
  | call call => simp [callbacks, Event.is_callback]
  | set_on_destroy calls => simp [callbacks, Event.is_callback]
  | handle_closed handle => exact absurd rfl (hevent handle)

theorem callbacks_append_closed {events : List Event} {event : Event}
    (hevent : ∃ handle, event = .handle_closed handle) : callbacks (events ++ [event]) = callbacks events + 1 := by
  obtain ⟨handle, rfl⟩ := hevent
  simp [callbacks, Event.is_callback]

theorem Told.step {c : Conn} {events : List Event} {effects : List (List Effect)} {event : Event}
    (h : Told c events effects) (hpossible : event.Possible c) :
    Told (step c event).1 (events ++ [event]) (effects ++ [(step c event).2]) := by
  have hflatten : (effects ++ [(connection.step c event).2]).flatten =
      effects.flatten ++ (connection.step c event).2 := by simp
  cases step_moves h.sound hpossible with
  | stays hbefore hafter heffects hevent =>
    obtain ⟨hnone, hcallbacks⟩ := h.live_effects hbefore
    refine .live hafter ?_ ?_
    · rw [hflatten, heffects, hnone, List.nil_append]
    · rw [callbacks_append_other hevent, hcallbacks]
  | closes hbefore hafter heffects hevent =>
    obtain ⟨hnone, hcallbacks⟩ := h.live_effects hbefore
    refine .tearing 2 hafter ?_ ?_
    · rw [hflatten, heffects, hnone, List.nil_append]
    · rw [callbacks_append_other hevent, hcallbacks]
  | waits hbefore hafter heffects hevent =>
    obtain ⟨hcloses, hcallbacks⟩ := h.tearing_effects hbefore
    refine .tearing _ hafter ?_ ?_
    · rw [hflatten, heffects, hcloses, List.append_nil]
    · rw [callbacks_append_other hevent, hcallbacks]
  | called_back hbefore hafter heffects hevent =>
    obtain ⟨hcloses, hcallbacks⟩ := h.tearing_effects hbefore
    refine .tearing _ hafter ?_ ?_
    · rw [hflatten, heffects, hcloses, List.append_nil]
    · rw [callbacks_append_closed hevent]
      omega
  | freed hbefore hafter heffects hevent =>
    obtain ⟨hcloses, hcallbacks⟩ := h.tearing_effects hbefore
    refine .gone hafter ?_ ?_
    · rw [hflatten, heffects, hcloses]
    · rw [callbacks_append_closed hevent]
      omega

/-- The possible sequences of events on a new connection. -/
def Possible (events : List Event) : Prop :=
  machine.Enabled step (fun c event => event.Possible c) connection_new events

instance (events : List Event) : Decidable (Possible events) :=
  inferInstanceAs (Decidable (machine.Enabled step (fun c event => event.Possible c) connection_new events))

theorem told_run {events : List Event} (h : Possible events) :
    Told (machine.run step connection_new events) events (machine.answers step connection_new events) :=
  machine.history_invariant Told (.live live_new rfl rfl) (fun _ _ _ _ htold hpossible => htold.step hpossible) h

theorem Told.count_uv_close {c : Conn} {events : List Event} {effects : List (List Effect)}
    (h : Told c events effects) (handle : Handle) : effects.flatten.count (.uv_close handle) ≤ 1 := by
  have hcloses : closes.count (.uv_close handle) = 1 := by
    cases handle with
    | idle_handle => rfl
    | timeout_timer => rfl
    | tcp_handle => rfl
  cases h with
  | live _ heffects => simp [heffects]
  | tearing _ _ heffects => rw [heffects, hcloses]
  | gone _ heffects => rw [heffects, List.count_append, hcloses]; simp

theorem Told.count_free_resources {c : Conn} {events : List Event} {effects : List (List Effect)}
    (h : Told c events effects) : effects.flatten.count .free_resources ≤ 1 := by
  cases h with
  | live _ heffects => simp [heffects]
  | tearing _ _ heffects => rw [heffects]; decide
  | gone _ heffects => rw [heffects]; decide

theorem Told.close_pending {c : Conn} {events : List Event} {effects : List (List Effect)}
    (h : Told c events effects) : c.close_pending = closing_handles c := by
  cases h with
  | live h => simp [h.close_pending, closing_handles, h.handles]
  | tearing pending h => rw [h.close_pending, h.closing]
  | gone h => rw [h.close_pending, h.closing]; rfl

/-- The resources are freed in the third close callback and in no other step. -/
theorem Told.free_resources_iff {c : Conn} {events : List Event} {effects : List (List Effect)} {event : Event}
    (h : Told c events effects) (hpossible : event.Possible c) :
    .free_resources ∈ (connection.step c event).2 ↔ event.is_callback = true ∧ callbacks events = 2 := by
  have hother : (∀ handle, event ≠ .handle_closed handle) → event.is_callback ≠ true := by
    intro hevent
    cases event with
    | call call => exact Bool.false_ne_true
    | set_on_destroy calls => exact Bool.false_ne_true
    | handle_closed handle => exact absurd rfl (hevent handle)
  cases step_moves h.sound hpossible with
  | stays _ _ heffects hevent =>
    rw [heffects]
    exact iff_of_false (by simp) fun hcallback => hother hevent hcallback.1
  | closes _ _ heffects hevent =>
    rw [heffects]
    exact iff_of_false (by decide) fun hcallback => hother hevent hcallback.1
  | waits _ _ heffects hevent =>
    rw [heffects]
    exact iff_of_false (by simp) fun hcallback => hother hevent hcallback.1
  | called_back hbefore _ heffects _ =>
    obtain ⟨-, hcallbacks⟩ := h.tearing_effects hbefore
    rw [heffects]
    refine iff_of_false (by simp) fun hcallback => ?_
    omega
  | freed hbefore _ heffects hevent =>
    obtain ⟨-, hcallbacks⟩ := h.tearing_effects hbefore
    obtain ⟨handle, rfl⟩ := hevent
    rw [heffects]
    exact iff_of_true (by simp) ⟨rfl, by omega⟩

/-- However calls, timeouts, read errors, restarts and close callbacks follow
one another: no handle is passed to `uv_close` twice, `close_pending` is the
number of handles whose close callback is still to run, and the body of
`uvhttp_connection_free_resources` runs once at most, in the third close
callback. -/
theorem teardown_once {events : List Event} (h : Possible events) :
    (∀ handle, (machine.answers step connection_new events).flatten.count (.uv_close handle) ≤ 1) ∧
    (machine.run step connection_new events).close_pending =
      closing_handles (machine.run step connection_new events) ∧
    0 ≤ (machine.run step connection_new events).close_pending ∧
    (machine.answers step connection_new events).flatten.count .free_resources ≤ 1 ∧
    ∀ before event after, events = before ++ event :: after →
      (.free_resources ∈ (step (machine.run step connection_new before) event).2 ↔
        event.is_callback = true ∧ callbacks before = 2) := by
  have htold := told_run h
  refine ⟨htold.count_uv_close, htold.close_pending, ?_, htold.count_free_resources, ?_⟩
  · rw [htold.close_pending]
    exact Int.natCast_nonneg _
  · rintro before event after rfl
    obtain ⟨hbefore, hevent⟩ := machine.enabled_append.mp h
    exact (told_run hbefore).free_resources_iff hevent.1

/-- A timeout during a close that a failed restart began: the third callback
frees the connection, although its hook asks for another close. -/
theorem teardown_once_timeout_while_closing :
    let events : List Event :=
      [.call (.uvhttp_connection_start true none), .set_on_destroy [.uvhttp_connection_close],
        .call (.on_idle_restart_read false), .handle_closed .timeout_timer, .call .connection_timeout_cb,
        .handle_closed .idle_handle, .call .uvhttp_connection_free]
    Possible (events ++ [.handle_closed .tcp_handle]) ∧
      .free_resources ∈ (step (machine.run step connection_new events) (.handle_closed .tcp_handle)).2 := by
  intro events
  have hpossible : Possible (events ++ [.handle_closed .tcp_handle]) := by decide
  refine ⟨hpossible, ?_⟩
  obtain ⟨-, -, -, -, hfreed⟩ := teardown_once hpossible
  exact (hfreed events _ [] rfl).mpr ⟨rfl, rfl⟩

end uvhttp.connection
