import Uvhttp.Server.Accounting
import Uvhttp.Lib.Timers
import Uvhttp.Lib.Machine

namespace uvhttp.deadline

open connection server timers machine

def UVHTTP_CONNECTION_TIMEOUT_DEFAULT : Int := 60
def UVHTTP_CONNECTION_TIMEOUT_MIN : Int := 5
def UVHTTP_CONNECTION_TIMEOUT_MAX : Int := 300
def INT_MAX : Int := 2147483647

/-- The server with the clock and the timers of its loop. The timeout timer of a connection goes by the
index of the connection, and `connection_timeout` is `none` where the server has no configuration. -/
structure TimedServer where
  server : Server
  clock : Clock Nat
  connection_timeout : Option Int
  timeout_callback : Bool

/-- A server as `uvhttp_server_new` returns it. -/
def timed_new (now : Nat) : TimedServer where
  server := server_new
  clock := Clock.idle now
  connection_timeout := none
  timeout_callback := false

inductive TimeoutError where
  | INVALID_PARAM
  | CONNECTION_TIMEOUT
  deriving DecidableEq, Repr

/-- The time at which libuv runs a timer that is started now with a `uint64_t` timeout. -/
def uv_due (now : Nat) (timeout : Int) : Nat := min (now + (timeout % 2 ^ 64).toNat) (2 ^ 64 - 1)

section calls

variable (s : TimedServer)

/-- The `timeout_ms` of the configuration. -/
def timeout_ms : Int := s.connection_timeout.getD UVHTTP_CONNECTION_TIMEOUT_DEFAULT * 1000

/-- Stop the timeout timer of a connection and start it, which fails on a closing handle. -/
def restart_timer (i : Nat) (timeout : Int) : Option TimeoutError × TimedServer :=
  match s.server.clients[i]? with
  | none => (some .INVALID_PARAM, s)
  | some client =>
    if uv_is_closing client.conn .timeout_timer then (some .CONNECTION_TIMEOUT, s)
    else (none, { s with clock := s.clock.start i (uv_due s.clock.now timeout) })

def uvhttp_connection_start_timeout (i : Nat) : Option TimeoutError × TimedServer := restart_timer s i (timeout_ms s)

def uvhttp_connection_start_timeout_custom (i : Nat) (timeout_seconds : Int) : Option TimeoutError × TimedServer :=
  if timeout_seconds < UVHTTP_CONNECTION_TIMEOUT_MIN ∨ timeout_seconds > UVHTTP_CONNECTION_TIMEOUT_MAX then
    (some .INVALID_PARAM, s)
  else if timeout_seconds > INT_MAX / 1000 then (some .INVALID_PARAM, s)
  else restart_timer s i (timeout_seconds * 1000)

/-- Whether an event is a transfer that gets past the state check, which stops the timer before the
transfer can fail. -/
def transfers (c : Conn) : Event → Bool
  | .call (.uvhttp_connection_transfer_ownership _) => c.state = .HTTP_PROCESSING
  | _ => false

/-- An event of a connection. Closing its timer stops it. -/
def client_step (i : Nat) (event : Event) : TimedServer :=
  match s.server.clients[i]? with
  | none => s
  | some client =>
    { s with
      server := (server_step s.server (.client i event)).1
      clock :=
        if uv_is_closing (connection.step client.conn event).1 .timeout_timer || transfers client.conn event then
          s.clock.stop i
        else s.clock }

/-- Whether `on_connection` gets as far as starting the connection. -/
def admits (a : Attempt) : Bool := a.status && !limit_reached s.server a && a.connection_new && a.uv_accept

/-- Whether a new connection starts. -/
def starts (a : Attempt) : Bool :=
  (uvhttp_connection_start uvhttp_connection_free_resources connection_new a.uv_read_start a.tls).1

/-- `on_connection`. Only here does the library start a timeout. -/
def on_connection (a : Attempt) : TimedServer :=
  let arrived : TimedServer := { s with server := server.on_connection s.server a }
  if admits s a && starts a then (uvhttp_connection_start_timeout arrived s.server.clients.length).2 else arrived

end calls

/-- What the embedder, or a callback of the library, does between two turns of the loop. -/
inductive ApiCall where
  | call (i : Nat) (call : Call)
  | set_on_destroy (i : Nat) (calls : List Call)
  | uvhttp_connection_start_timeout (i : Nat)
  | uvhttp_connection_start_timeout_custom (i : Nat) (timeout_seconds : Int)
  | set_connection_timeout (connection_timeout : Option Int)
  | uvhttp_server_set_timeout_callback (callback : Bool)
  deriving DecidableEq

/-- One such call. -/
def ApiCall.perform (s : TimedServer) : ApiCall → TimedServer
  | .call i made => client_step s i (.call made)
  | .set_on_destroy i calls => client_step s i (.set_on_destroy calls)
  | .uvhttp_connection_start_timeout i => (deadline.uvhttp_connection_start_timeout s i).2
  | .uvhttp_connection_start_timeout_custom i timeout_seconds =>
    (deadline.uvhttp_connection_start_timeout_custom s i timeout_seconds).2
  | .set_connection_timeout connection_timeout => { s with connection_timeout }
  | .uvhttp_server_set_timeout_callback callback => { s with timeout_callback := callback }

def perform_all (s : TimedServer) (calls : List ApiCall) : TimedServer := calls.foldl ApiCall.perform s

/-- `connection_timeout_cb`. The embedder's callback, if one is set, makes the calls `during`. -/
def connection_timeout_cb (s : TimedServer) (i : Nat) (during : List ApiCall) : TimedServer :=
  client_step (if s.timeout_callback then perform_all s during else s) i (.call .connection_timeout_cb)

/-- What happens to the server: a call, a client, the close callback of a handle, the loop reading the
clock, and the loop running the next timer whose time has come. -/
inductive TimedEvent where
  | api (call : ApiCall)
  | on_connection (a : Attempt)
  | handle_closed (i : Nat) (handle : Handle)
  | update_time (now : Nat)
  | run_timer (during : List ApiCall)
  deriving DecidableEq

/-- A timeout: of which connection, when, and the `timeout_ms` that the embedder's callback is told. -/
structure Fired where
  client : Nat
  now : Nat
  told : Option Int
  deriving DecidableEq

/-- One event. A timer that runs is no longer armed. -/
def step (s : TimedServer) : TimedEvent → TimedServer × Option Fired
  | .api call => (call.perform s, none)
  | .on_connection a => (on_connection s a, none)
  | .handle_closed i handle => (client_step s i (.handle_closed handle), none)
  | .update_time now => ({ s with clock := s.clock.advance now }, none)
  | .run_timer during =>
    match s.clock.ready with
    | none => (s, none)
    | some timer =>
      (connection_timeout_cb { s with clock := s.clock.stop timer.1 } timer.1 during,
        some ⟨timer.1, s.clock.now, if s.timeout_callback then some (timeout_ms s) else none⟩)

/-- Whether a connection object exists. -/
def TimedServer.has (s : TimedServer) (i : Nat) : Prop :=
  PossibleFor (.call .uvhttp_connection_close) s.server.clients[i]?

instance (s : TimedServer) (i : Nat) : Decidable (s.has i) :=
  inferInstanceAs (Decidable (PossibleFor _ s.server.clients[i]?))

/-- Calls are made on connections that have not been freed. The timer callback is the loop's alone, and
a configured timeout does not overflow an `int` of milliseconds. -/
def ApiCall.Possible (s : TimedServer) : ApiCall → Prop
  | .call i made => s.has i ∧ made ≠ .connection_timeout_cb
  | .set_on_destroy i _ => s.has i
  | .uvhttp_connection_start_timeout i => s.has i
  | .uvhttp_connection_start_timeout_custom i _ => s.has i
  | .set_connection_timeout connection_timeout =>
    ∀ seconds ∈ connection_timeout, -INT_MAX ≤ seconds * 1000 ∧ seconds * 1000 ≤ INT_MAX
  | .uvhttp_server_set_timeout_callback _ => True

instance ApiCall.decidablePossible (s : TimedServer) : (call : ApiCall) → Decidable (call.Possible s)
  | .call i made => inferInstanceAs (Decidable (s.has i ∧ made ≠ .connection_timeout_cb))
  | .set_on_destroy i _ => inferInstanceAs (Decidable (s.has i))
  | .uvhttp_connection_start_timeout i => inferInstanceAs (Decidable (s.has i))
  | .uvhttp_connection_start_timeout_custom i _ => inferInstanceAs (Decidable (s.has i))
  | .set_connection_timeout connection_timeout => inferInstanceAs (Decidable
      (∀ seconds ∈ connection_timeout, -INT_MAX ≤ seconds * 1000 ∧ seconds * 1000 ≤ INT_MAX))
  | .uvhttp_server_set_timeout_callback _ => inferInstanceAs (Decidable True)

/-- Calls made one after the other are each possible when they come. -/
def AllPossible (s : TimedServer) : List ApiCall → Prop
  | [] => True
  | call :: calls => call.Possible s ∧ AllPossible (call.perform s) calls

instance AllPossible.decidable (s : TimedServer) : (calls : List ApiCall) → Decidable (AllPossible s calls)
  | [] => inferInstanceAs (Decidable True)
  | call :: calls =>
    have := AllPossible.decidable (call.perform s) calls
    inferInstanceAs (Decidable (call.Possible s ∧ AllPossible (call.perform s) calls))

/-- The clock does not go back, and does not reach the end of its range. -/
def TimedEvent.Possible (s : TimedServer) : TimedEvent → Prop
  | .api call => call.Possible s
  | .on_connection _ => True
  | .handle_closed i handle => PossibleFor (.handle_closed handle) s.server.clients[i]?
  | .update_time now => s.clock.now ≤ now ∧ now < 2 ^ 64 - 1
  | .run_timer during => ∀ timer ∈ s.clock.ready, AllPossible { s with clock := s.clock.stop timer.1 } during

instance TimedEvent.decidablePossible (s : TimedServer) : (event : TimedEvent) → Decidable (event.Possible s)
  | .api call => inferInstanceAs (Decidable (call.Possible s))
  | .on_connection _ => inferInstanceAs (Decidable True)
  | .handle_closed i handle => inferInstanceAs (Decidable (PossibleFor (.handle_closed handle) s.server.clients[i]?))
  | .update_time now => inferInstanceAs (Decidable (s.clock.now ≤ now ∧ now < 2 ^ 64 - 1))
  | .run_timer during => inferInstanceAs (Decidable
      (∀ timer ∈ s.clock.ready, AllPossible { s with clock := s.clock.stop timer.1 } during))

/-- The connection has not been closed. -/
def TimedServer.is_open (s : TimedServer) (i : Nat) : Bool :=
  s.server.clients[i]?.any fun client => client.conn.state ≠ .CLOSING && !client.conn.freed

/-- The connection whose timeout an event starts, and with what timeout. -/
def arms (s : TimedServer) : TimedEvent → Option (Nat × Int)
  | .on_connection a => if admits s a && starts a then some (s.server.clients.length, timeout_ms s) else none
  | .api (.uvhttp_connection_start_timeout i) => if s.is_open i then some (i, timeout_ms s) else none
  | .api (.uvhttp_connection_start_timeout_custom i timeout_seconds) =>
    if s.is_open i && decide (UVHTTP_CONNECTION_TIMEOUT_MIN ≤ timeout_seconds) &&
        decide (timeout_seconds ≤ UVHTTP_CONNECTION_TIMEOUT_MAX) then
      some (i, timeout_seconds * 1000)
    else none
  | _ => none

/-- A call that neither starts the timeout of a connection anew nor hands the connection over. -/
def ApiCall.Leaves (i : Nat) : ApiCall → Bool
  | .call j (.uvhttp_connection_transfer_ownership _) => j ≠ i
  | .uvhttp_connection_start_timeout j => j ≠ i
  | .uvhttp_connection_start_timeout_custom j _ => j ≠ i
  | _ => true

def TimedEvent.Leaves (i : Nat) : TimedEvent → Bool
  | .api call => call.Leaves i
  | .run_timer during => during.all (ApiCall.Leaves i)
  | _ => true

/-- The connection exists and has not been closed. -/
def TimedServer.Alive (s : TimedServer) (i : Nat) : Prop :=
  ∃ client, s.server.clients[i]? = some client ∧ Live client.conn

/-- Every connection is somewhere on its way from its creation to its end, and only open connections
have their timers armed. -/
structure Timely (s : TimedServer) : Prop where
  sound : ∀ client ∈ s.server.clients, Sound client.conn
  armed : ∀ i t, s.clock.due i = some t → s.Alive i

theorem timely_new (now : Nat) : Timely (timed_new now) where
  sound client hclient := by cases hclient
  armed i t hdue := by cases hdue

variable {s : TimedServer} {i : Nat}

theorem Timely.sound_at (h : Timely s) {client : Client} (hclient : s.server.clients[i]? = some client) :
    Sound client.conn :=
  h.sound client (List.mem_of_getElem? hclient)

theorem is_open_iff (h : Timely s) : s.is_open i = true ↔ s.Alive i := by
  rw [TimedServer.is_open, TimedServer.Alive]
  cases hclient : s.server.clients[i]? with
  | none => simp
  | some client =>
    have hsound := h.sound_at hclient
    constructor
    · intro hopen
      have hstate : client.conn.state ≠ .CLOSING ∧ client.conn.freed = false := by simpa using hopen
      refine ⟨client, rfl, ?_⟩
      cases hsound with
      | live hlive => exact hlive
      | tearing pending htearing => exact absurd htearing.state hstate.1
      | gone hgone => simp [hgone.freed] at hstate
    · rintro ⟨same, hsame, hlive⟩
      cases hsame
      simp [hlive.state, hlive.freed]

section events

variable {event : Event} {client : Client}

theorem client_step_clients (hclient : s.server.clients[i]? = some client) :
    (client_step s i event).server.clients =
      s.server.clients.set i { client with conn := (connection.step client.conn event).1 } := by
  simp [client_step, server_step, hclient]

theorem client_step_self (hclient : s.server.clients[i]? = some client) :
    (client_step s i event).server.clients[i]? =
      some { client with conn := (connection.step client.conn event).1 } := by
  obtain ⟨hindex, -⟩ := List.getElem?_eq_some_iff.mp hclient
  rw [client_step_clients hclient, List.getElem?_set_self hindex]

theorem client_step_length (s : TimedServer) (i : Nat) (event : Event) :
    (client_step s i event).server.clients.length = s.server.clients.length := by
  cases hclient : s.server.clients[i]? with
  | none => simp [client_step, hclient]
  | some client => rw [client_step_clients hclient, List.length_set]

theorem client_step_other (hclient : s.server.clients[i]? = some client) {j : Nat} (hne : j ≠ i) :
    (client_step s i event).server.clients[j]? = s.server.clients[j]? := by
  rw [client_step_clients hclient, List.getElem?_set_ne hne.symm]

theorem client_step_due (hclient : s.server.clients[i]? = some client) :
    (client_step s i event).clock.due i =
      if uv_is_closing (connection.step client.conn event).1 .timeout_timer || transfers client.conn event then none
      else s.clock.due i := by
  rw [client_step, hclient]
  dsimp only
  split_ifs with hstops
  · exact due_stop_self
  · rfl

theorem client_step_due_other {j : Nat} (hne : j ≠ i) :
    (client_step s i event).clock.due j = s.clock.due j := by
  rw [client_step]
  split
  · rfl
  · dsimp only
    split_ifs
    · exact due_stop_of_ne hne
    · rfl

/-- An event takes an open connection to an open one or begins its teardown, and it opens no other. -/
theorem client_step_alive (h : Timely s) (hclient : s.server.clients[i]? = some client)
    (hpossible : event.Possible client.conn) (halive : (client_step s i event).Alive i) :
    Live client.conn ∧ uv_is_closing (connection.step client.conn event).1 .timeout_timer = false := by
  obtain ⟨moved, hmoved, hlive⟩ := halive
  rw [client_step_self hclient] at hmoved
  cases hmoved
  have hactive := hlive.handles .timeout_timer
  have hresult : Live (connection.step client.conn event).1 := hlive
  refine ⟨?_, by simpa [uv_is_closing] using hactive⟩
  cases step_moves (h.sound_at hclient) hpossible with
  | stays hbefore => exact hbefore
  | closes hbefore => exact hbefore
  | waits _ hafter => exact absurd hafter hresult.not_tearing
  | called_back _ hafter => exact absurd hafter hresult.not_tearing
  | freed _ hafter =>
    have hfreed := hresult.freed
    rw [hafter.freed] at hfreed
    cases hfreed

theorem client_step_timely (h : Timely s) (hclient : s.server.clients[i]? = some client)
    (hpossible : event.Possible client.conn) : Timely (client_step s i event) where
  sound other hother := by
    rw [client_step_clients hclient] at hother
    rcases List.mem_or_eq_of_mem_set hother with hold | rfl
    · exact h.sound other hold
    · exact (step_moves (h.sound_at hclient) hpossible).sound
  armed j t hdue := by
    by_cases hne : j = i
    · subst hne
      rw [client_step_due hclient] at hdue
      split_ifs at hdue with hstops
      obtain ⟨before, hbefore, hlive⟩ := h.armed j t hdue
      rw [hclient] at hbefore
      cases hbefore
      have hactive : uv_is_closing (connection.step client.conn event).1 .timeout_timer = false := by
        simp at hstops
        exact hstops.1
      refine ⟨_, client_step_self hclient, ?_⟩
      cases step_moves (.live hlive) hpossible with
      | stays _ hafter => exact hafter
      | closes _ hafter => simp [uv_is_closing, hafter.handles .timeout_timer] at hactive
      | waits hbefore => exact absurd hbefore hlive.not_tearing
      | called_back hbefore => exact absurd hbefore hlive.not_tearing
      | freed hbefore => exact absurd hbefore hlive.not_tearing
    · rw [client_step_due_other hne] at hdue
      obtain ⟨other, hother, hlive⟩ := h.armed j t hdue
      exact ⟨other, by rw [client_step_other hclient hne, hother], hlive⟩

end events

theorem has_client (h : s.has i) : ∃ client, s.server.clients[i]? = some client ∧ client.conn.freed = false := by
  rw [TimedServer.has] at h
  cases hclient : s.server.clients[i]? with
  | none =>
    rw [hclient] at h
    exact h.elim
  | some client =>
    rw [hclient] at h
    exact ⟨client, rfl, h⟩

theorem restart_timer_clients (timeout : Int) : (restart_timer s i timeout).2.server = s.server := by
  rw [restart_timer]
  split
  · rfl
  · split_ifs <;> rfl

theorem restart_timer_due_other {timeout : Int} {j : Nat} (hne : j ≠ i) :
    (restart_timer s i timeout).2.clock.due j = s.clock.due j := by
  rw [restart_timer]
  split
  · rfl
  · split_ifs
    · rfl
    · exact due_start_of_ne hne

theorem restart_timer_alive (halive : s.Alive i) (timeout : Int) :
    (restart_timer s i timeout).2.clock.due i = some (uv_due s.clock.now timeout) := by
  obtain ⟨client, hclient, hlive⟩ := halive
  have hactive := hlive.handles .timeout_timer
  simp [restart_timer, hclient, uv_is_closing, hactive]

/-- A timer that has been started belongs to an open connection. -/
theorem restart_timer_timely (h : Timely s) (hhas : s.has i) (timeout : Int) :
    Timely (restart_timer s i timeout).2 where
  sound client hclient := by
    rw [restart_timer_clients] at hclient
    exact h.sound client hclient
  armed j t hdue := by
    rw [TimedServer.Alive, restart_timer_clients]
    by_cases hne : j = i
    · subst hne
      obtain ⟨client, hclient, hfreed⟩ := has_client hhas
      cases hclosing : uv_is_closing client.conn .timeout_timer with
      | true =>
        rw [restart_timer, hclient] at hdue
        simp only [hclosing, if_true] at hdue
        exact h.armed j t hdue
      | false =>
        refine ⟨client, hclient, ?_⟩
        cases h.sound_at hclient with
        | live hlive => exact hlive
        | tearing pending htearing => simp [uv_is_closing, htearing.handles .timeout_timer] at hclosing
        | gone hgone => simp [hgone.freed] at hfreed
    · rw [restart_timer_due_other hne] at hdue
      exact h.armed j t hdue

/-- A step that opens no connection again and moves the deadline of none that is still open. -/
structure Keeps (i : Nat) (s s' : TimedServer) : Prop where
  timely : Timely s'
  alive : s'.Alive i → s.Alive i ∧ s'.clock.due i = s.clock.due i

theorem Keeps.trans {s' s'' : TimedServer} (h : Keeps i s s') (h' : Keeps i s' s'') : Keeps i s s'' where
  timely := h'.timely
  alive halive := by
    obtain ⟨hbetween, hdue⟩ := h'.alive halive
    obtain ⟨hbefore, hfirst⟩ := h.alive hbetween
    exact ⟨hbefore, hdue.trans hfirst⟩

/-- A step that leaves the connections and the timers alone. -/
theorem Timely.keeps_same (h : Timely s) {s' : TimedServer} (hserver : s'.server = s.server)
    (hclock : ∀ j, s'.clock.due j = s.clock.due j) : Keeps i s s' where
  timely :=
    { sound := by
        rw [hserver]
        exact h.sound
      armed := fun j t hdue => by
        rw [hclock] at hdue
        rw [TimedServer.Alive, hserver]
        exact h.armed j t hdue }
  alive halive := by
    rw [TimedServer.Alive, hserver] at halive
    exact ⟨halive, hclock i⟩

theorem client_step_keeps (h : Timely s) {j : Nat} {event : Event} (hpossible : PossibleFor event s.server.clients[j]?)
    (hleaves : j = i → ∀ c, transfers c event = false) : Keeps i s (client_step s j event) := by
  cases hclient : s.server.clients[j]? with
  | none =>
    rw [hclient] at hpossible
    exact hpossible.elim
  | some client =>
    rw [hclient] at hpossible
    refine ⟨client_step_timely h hclient hpossible, fun halive => ?_⟩
    by_cases hne : i = j
    · subst hne
      obtain ⟨hlive, hactive⟩ := client_step_alive h hclient hpossible halive
      refine ⟨⟨client, hclient, hlive⟩, ?_⟩
      rw [client_step_due hclient, hactive, hleaves rfl]
      rfl
    · rw [TimedServer.Alive, client_step_other hclient hne] at halive
      exact ⟨halive, client_step_due_other hne⟩

theorem restart_timer_keeps (h : Timely s) {j : Nat} (hhas : s.has j) (hne : i ≠ j) (timeout : Int) :
    Keeps i s (restart_timer s j timeout).2 where
  timely := restart_timer_timely h hhas timeout
  alive halive := by
    rw [TimedServer.Alive, restart_timer_clients] at halive
    exact ⟨halive, restart_timer_due_other hne⟩

theorem start_timeout_custom_cases (s : TimedServer) (j : Nat) (timeout_seconds : Int) :
    uvhttp_connection_start_timeout_custom s j timeout_seconds = (some .INVALID_PARAM, s) ∨
      uvhttp_connection_start_timeout_custom s j timeout_seconds = restart_timer s j (timeout_seconds * 1000) := by
  rw [uvhttp_connection_start_timeout_custom]
  split_ifs
  · exact .inl rfl
  · exact .inl rfl
  · exact .inr rfl

theorem possible_for (hhas : s.has i) {event : Event} (hevent : ∀ c, c.freed = false → event.Possible c) :
    PossibleFor event s.server.clients[i]? := by
  obtain ⟨client, hclient, hfreed⟩ := has_client hhas
  rw [hclient]
  exact hevent client.conn hfreed

theorem perform_keeps (h : Timely s) {call : ApiCall} (hpossible : call.Possible s) (hleaves : call.Leaves i = true) :
    Keeps i s (call.perform s) := by
  cases call with
  | call j made =>
    refine client_step_keeps h (possible_for hpossible.1 fun _ hfreed => hfreed) fun hsame c => ?_
    cases made with
    | uvhttp_connection_transfer_ownership uv_fileno => simp [ApiCall.Leaves, hsame] at hleaves
    | _ => rfl
  | set_on_destroy j calls =>
    exact client_step_keeps h (possible_for hpossible fun _ hfreed => hfreed) fun _ _ => rfl
  | uvhttp_connection_start_timeout j =>
    have hne : j ≠ i := by simpa [ApiCall.Leaves] using hleaves
    exact restart_timer_keeps h hpossible hne.symm _
  | uvhttp_connection_start_timeout_custom j timeout_seconds =>
    have hne : j ≠ i := by simpa [ApiCall.Leaves] using hleaves
    rw [ApiCall.perform]
    rcases start_timeout_custom_cases s j timeout_seconds with hcase | hcase
    · rw [hcase]
      exact h.keeps_same rfl fun _ => rfl
    · rw [hcase]
      exact restart_timer_keeps h hpossible hne.symm _
  | set_connection_timeout connection_timeout => exact h.keeps_same rfl fun _ => rfl
  | uvhttp_server_set_timeout_callback callback => exact h.keeps_same rfl fun _ => rfl

/-- Each call leaves some index alone. -/
theorem exists_leaves (call : ApiCall) : ∃ i, call.Leaves i = true := by
  cases call with
  | call j made =>
    refine ⟨j + 1, ?_⟩
    cases made <;> simp [ApiCall.Leaves]
  | set_on_destroy j calls => exact ⟨0, rfl⟩
  | uvhttp_connection_start_timeout j => exact ⟨j + 1, by simp [ApiCall.Leaves]⟩
  | uvhttp_connection_start_timeout_custom j timeout_seconds => exact ⟨j + 1, by simp [ApiCall.Leaves]⟩
  | set_connection_timeout connection_timeout => exact ⟨0, rfl⟩
  | uvhttp_server_set_timeout_callback callback => exact ⟨0, rfl⟩

theorem perform_timely (h : Timely s) {call : ApiCall} (hpossible : call.Possible s) : Timely (call.perform s) := by
  obtain ⟨i, hleaves⟩ := exists_leaves call
  exact (perform_keeps h hpossible hleaves).timely

theorem perform_all_timely (h : Timely s) {calls : List ApiCall} (hpossible : AllPossible s calls) :
    Timely (perform_all s calls) := by
  induction calls generalizing s with
  | nil => exact h
  | cons call calls ih => exact ih (perform_timely h hpossible.1) hpossible.2

theorem perform_all_keeps (h : Timely s) {calls : List ApiCall} (hpossible : AllPossible s calls)
    (hleaves : calls.all (ApiCall.Leaves i) = true) : Keeps i s (perform_all s calls) := by
  induction calls generalizing s with
  | nil => exact h.keeps_same rfl fun _ => rfl
  | cons call calls ih =>
    rw [List.all_cons, Bool.and_eq_true] at hleaves
    have hfirst := perform_keeps h hpossible.1 hleaves.1
    exact hfirst.trans (ih hfirst.timely hpossible.2 hleaves.2)

/-- No connection comes into being, or goes, through a call. -/
theorem perform_length (s : TimedServer) (call : ApiCall) :
    (call.perform s).server.clients.length = s.server.clients.length := by
  cases call with
  | call j made => exact client_step_length s j _
  | set_on_destroy j calls => exact client_step_length s j _
  | uvhttp_connection_start_timeout j => exact congrArg (·.clients.length) (restart_timer_clients _)
  | uvhttp_connection_start_timeout_custom j timeout_seconds =>
    rw [ApiCall.perform]
    rcases start_timeout_custom_cases s j timeout_seconds with hcase | hcase
    · rw [hcase]
    · rw [hcase, restart_timer_clients]
  | set_connection_timeout connection_timeout => rfl
  | uvhttp_server_set_timeout_callback callback => rfl

theorem perform_all_length (s : TimedServer) (calls : List ApiCall) :
    (perform_all s calls).server.clients.length = s.server.clients.length := by
  induction calls generalizing s with
  | nil => rfl
  | cons call calls ih => exact (ih (call.perform s)).trans (perform_length s call)

/-- A call frees no connection. -/
theorem client_step_has (h : Timely s) {j : Nat} {event : Event} (hpossible : PossibleFor event s.server.clients[j]?)
    (hevent : ∀ handle, event ≠ .handle_closed handle) (hhas : s.has i) : (client_step s j event).has i := by
  obtain ⟨client, hclient, hfreed⟩ := has_client hhas
  rw [TimedServer.has]
  by_cases hne : i = j
  · subst hne
    rw [hclient] at hpossible
    rw [client_step_self hclient]
    change (connection.step client.conn event).1.freed = false
    cases step_moves (h.sound_at hclient) hpossible with
    | stays _ hafter => exact hafter.freed
    | closes _ hafter => exact hafter.freed
    | waits _ hafter => exact hafter.freed
    | called_back _ hafter => exact hafter.freed
    | freed _ _ _ hclosed =>
      obtain ⟨handle, hhandle⟩ := hclosed
      exact absurd hhandle (hevent handle)
  · cases hother : s.server.clients[j]? with
    | none =>
      rw [hother] at hpossible
      exact hpossible.elim
    | some other =>
      rw [client_step_other hother hne, hclient]
      exact hfreed

theorem perform_has (h : Timely s) {call : ApiCall} (hpossible : call.Possible s) (hhas : s.has i) :
    (call.perform s).has i := by
  have hrestart (j : Nat) (timeout : Int) : (restart_timer s j timeout).2.has i := by
    rw [TimedServer.has, restart_timer_clients]
    exact hhas
  cases call with
  | call j made =>
    exact client_step_has h (possible_for hpossible.1 fun _ hfreed => hfreed) (fun _ => by simp) hhas
  | set_on_destroy j calls =>
    exact client_step_has h (possible_for hpossible fun _ hfreed => hfreed) (fun _ => by simp) hhas
  | uvhttp_connection_start_timeout j => exact hrestart j _
  | uvhttp_connection_start_timeout_custom j timeout_seconds =>
    rw [ApiCall.perform]
    rcases start_timeout_custom_cases s j timeout_seconds with hcase | hcase
    · rw [hcase]
      exact hhas
    · rw [hcase]
      exact hrestart j _
  | set_connection_timeout connection_timeout => exact hhas
  | uvhttp_server_set_timeout_callback callback => exact hhas

theorem perform_all_has (h : Timely s) {calls : List ApiCall} (hpossible : AllPossible s calls) (hhas : s.has i) :
    (perform_all s calls).has i := by
  induction calls generalizing s with
  | nil => exact hhas
  | cons call calls ih =>
    exact ih (perform_timely h hpossible.1) hpossible.2 (perform_has h hpossible.1 hhas)

theorem Timely.stop (h : Timely s) (j : Nat) : Timely { s with clock := s.clock.stop j } where
  sound := h.sound
  armed k t hdue := by
    by_cases hne : k = j
    · subst hne
      rw [due_stop_self] at hdue
      cases hdue
    · exact h.armed k t ((due_stop_of_ne hne).symm.trans hdue)

theorem Timely.keeps_stop (h : Timely s) {j : Nat} (hne : i ≠ j) : Keeps i s { s with clock := s.clock.stop j } where
  timely := h.stop j
  alive halive := ⟨halive, due_stop_of_ne hne⟩

theorem TimedServer.Alive.has (halive : s.Alive i) : s.has i := by
  obtain ⟨client, hclient, hlive⟩ := halive
  rw [TimedServer.has, hclient]
  exact hlive.freed

section timeouts

variable {j : Nat} {during : List ApiCall}

/-- What the embedder's callback leaves for the close. -/
theorem timeout_callback_timely (h : Timely s) (hhas : s.has j) (hpossible : AllPossible s during) :
    Timely (if s.timeout_callback then perform_all s during else s) ∧
      PossibleFor (.call .connection_timeout_cb)
        (if s.timeout_callback then perform_all s during else s).server.clients[j]? := by
  split_ifs
  · exact ⟨perform_all_timely h hpossible, possible_for (perform_all_has h hpossible hhas) fun _ hfreed => hfreed⟩
  · exact ⟨h, possible_for hhas fun _ hfreed => hfreed⟩

/-- A timeout closes its connection, whatever the embedder's callback did. -/
theorem connection_timeout_cb_closes (h : Timely s) (hhas : s.has j) (hpossible : AllPossible s during) :
    ¬ (connection_timeout_cb s j during).Alive j := by
  obtain ⟨htimely, hfor⟩ := timeout_callback_timely h hhas hpossible
  rw [connection_timeout_cb]
  generalize (if s.timeout_callback then perform_all s during else s) = told at htimely hfor
  cases hclient : told.server.clients[j]? with
  | none =>
    rw [hclient] at hfor
    exact hfor.elim
  | some client =>
    rw [hclient] at hfor
    have hnow : (Event.call .connection_timeout_cb).Possible client.conn := hfor
    intro halive
    obtain ⟨hlive, hactive⟩ := client_step_alive htimely hclient hnow halive
    have htearing := tearing_of_untouched uvhttp_connection_free_resources hlive.toUntouched
    have hclosing := htearing.handles .timeout_timer
    rw [uv_is_closing, decide_eq_false_iff_not, not_not] at hactive
    exact hclosing hactive

theorem connection_timeout_cb_timely (h : Timely s) (hhas : s.has j) (hpossible : AllPossible s during) :
    Timely (connection_timeout_cb s j during) := by
  obtain ⟨htimely, hfor⟩ := timeout_callback_timely h hhas hpossible
  exact (client_step_keeps (i := j) htimely hfor fun _ _ => rfl).timely

theorem connection_timeout_cb_keeps (h : Timely s) (hhas : s.has j) (hpossible : AllPossible s during)
    (hleaves : during.all (ApiCall.Leaves i) = true) : Keeps i s (connection_timeout_cb s j during) := by
  obtain ⟨htimely, hfor⟩ := timeout_callback_timely h hhas hpossible
  refine Keeps.trans ?_ (client_step_keeps htimely hfor fun _ _ => rfl)
  split_ifs
  · exact perform_all_keeps h hpossible hleaves
  · exact h.keeps_same rfl fun _ => rfl

end timeouts

section arrivals

variable {a : Attempt}

/-- A client that is let in and starts is open. -/
theorem starts_live (h : starts a = true) :
    Live (uvhttp_connection_start uvhttp_connection_free_resources connection_new a.uv_read_start a.tls).2.1 := by
  simp only [starts, uvhttp_connection_start] at h ⊢
  cases hread : read_starts connection_new a.uv_read_start with
  | false => simp [hread] at h
  | true =>
    simp only [hread, Bool.not_true, Bool.false_eq_true, if_false] at h ⊢
    cases htls : a.tls with
    | none => exact ⟨⟨fun _ => rfl, rfl, rfl⟩, fun hstate => by cases hstate⟩
    | some handshake =>
      cases handshake with
      | completed => exact ⟨⟨fun _ => rfl, rfl, rfl⟩, fun hstate => by cases hstate⟩
      | in_progress => exact ⟨⟨fun _ => rfl, rfl, rfl⟩, fun hstate => by cases hstate⟩
      | failed => simp [htls] at h

theorem arrival_admitted (s : TimedServer) (hadmits : admits s a = true) (hstarts : starts a = true) :
    ∃ client, (server.on_connection s.server a).clients = s.server.clients ++ [client] ∧ Live client.conn := by
  have hlive := starts_live hstarts
  simp only [admits, Bool.and_eq_true, Bool.not_eq_true'] at hadmits
  obtain ⟨⟨⟨hstatus, hlimit⟩, hnew⟩, haccept⟩ := hadmits
  rw [starts] at hstarts
  refine ⟨⟨true, _⟩, ?_, hlive⟩
  simp [server.on_connection, hstatus, hlimit, hnew, haccept, hstarts]

theorem arrival_cases (s : Server) (a : Attempt) :
    (server.on_connection s a).clients = s.clients ∨
      ∃ client, (server.on_connection s a).clients = s.clients ++ [client] ∧ Sound client.conn := by
  unfold server.on_connection
  split_ifs
  · exact .inl rfl
  · exact .inl rfl
  · exact .inl rfl
  · refine .inr ⟨_, rfl, ?_⟩
    cases perform_live uvhttp_connection_free_resources live_new .uvhttp_connection_free with
    | live hlive => exact .live hlive
    | tearing htearing => exact .tearing 2 htearing
  · exact .inr ⟨_, rfl, (started_alive a.uv_read_start a.tls).1⟩

theorem arrival_timely (h : Timely s) (a : Attempt) :
    Timely { s with server := server.on_connection s.server a } := by
  have hkept {i : Nat} (halive : s.Alive i) {client : Client} :
      ∃ same, (s.server.clients ++ [client])[i]? = some same ∧ Live same.conn := by
    obtain ⟨same, hsame, hlive⟩ := halive
    obtain ⟨hi, -⟩ := List.getElem?_eq_some_iff.mp hsame
    exact ⟨same, by rw [List.getElem?_append_left hi, hsame], hlive⟩
  rcases arrival_cases s.server a with hsame | ⟨client, hadded, hsound⟩
  · refine ⟨?_, fun i t hdue => ?_⟩
    · rw [hsame]
      exact h.sound
    · rw [TimedServer.Alive, hsame]
      exact h.armed i t hdue
  · refine ⟨?_, fun i t hdue => ?_⟩
    · intro other hother
      rw [hadded, List.mem_append, List.mem_singleton] at hother
      rcases hother with hold | rfl
      · exact h.sound other hold
      · exact hsound
    · rw [TimedServer.Alive, hadded]
      exact hkept (h.armed i t hdue)

theorem arrival_length (s : Server) (a : Attempt) :
    s.clients.length ≤ (server.on_connection s a).clients.length := by
  rcases arrival_cases s a with hsame | ⟨client, hadded, -⟩
  · rw [hsame]
  · rw [hadded, List.length_append]
    exact Nat.le_add_right _ _

theorem arrival_keeps (h : Timely s) (a : Attempt) (hi : i < s.server.clients.length) :
    Keeps i s { s with server := server.on_connection s.server a } where
  timely := arrival_timely h a
  alive halive := by
    refine ⟨?_, rfl⟩
    rw [TimedServer.Alive] at halive
    rcases arrival_cases s.server a with hsame | ⟨client, hadded, -⟩
    · rwa [hsame] at halive
    · rwa [hadded, List.getElem?_append_left hi] at halive

/-- The connection that `on_connection` starts. -/
theorem arrival_alive (s : TimedServer) (hadmits : admits s a = true) (hstarts : starts a = true) :
    TimedServer.Alive { s with server := server.on_connection s.server a } s.server.clients.length := by
  obtain ⟨client, hadded, hlive⟩ := arrival_admitted s hadmits hstarts
  refine ⟨client, ?_, hlive⟩
  rw [hadded, List.getElem?_append_right (Nat.le_refl _), Nat.sub_self]
  rfl

theorem on_connection_timely (h : Timely s) (a : Attempt) : Timely (on_connection s a) := by
  rw [on_connection]
  split_ifs with hstarted
  · rw [Bool.and_eq_true] at hstarted
    exact restart_timer_timely (arrival_timely h a) (arrival_alive s hstarted.1 hstarted.2).has _
  · exact arrival_timely h a

theorem on_connection_keeps (h : Timely s) (a : Attempt) (hi : i < s.server.clients.length) :
    Keeps i s (on_connection s a) := by
  have hfirst : Keeps i s { s with server := server.on_connection s.server a } := arrival_keeps h a hi
  rw [on_connection]
  split_ifs with hstarted
  · rw [Bool.and_eq_true] at hstarted
    have hhas := (arrival_alive s hstarted.1 hstarted.2).has
    exact hfirst.trans (restart_timer_keeps hfirst.timely hhas (Nat.ne_of_lt hi) (timeout_ms s))
  · exact hfirst

theorem on_connection_length (s : TimedServer) (a : Attempt) :
    s.server.clients.length ≤ (on_connection s a).server.clients.length := by
  rw [on_connection]
  split_ifs
  · rw [uvhttp_connection_start_timeout, restart_timer_clients]
    exact arrival_length s.server a
  · exact arrival_length s.server a

end arrivals

section steps

variable {e : TimedEvent}

/-- A timer that runs belongs to an open connection. -/
theorem ready_has (h : Timely s) {timer : Nat × Nat} (hready : s.clock.ready = some timer) :
    TimedServer.has { s with clock := s.clock.stop timer.1 } timer.1 :=
  (h.armed timer.1 timer.2 (ready_spec hready).1).has

theorem step_timely (h : Timely s) (hpossible : e.Possible s) : Timely (step s e).1 := by
  cases e with
  | api call => exact perform_timely h hpossible
  | on_connection a => exact on_connection_timely h a
  | handle_closed j handle => exact (client_step_keeps (i := j) h hpossible fun _ _ => rfl).timely
  | update_time now => exact ⟨h.sound, h.armed⟩
  | run_timer during =>
    cases hready : s.clock.ready with
    | none =>
      rw [step, hready]
      exact h
    | some timer =>
      rw [step, hready]
      exact connection_timeout_cb_timely (h.stop timer.1) (ready_has h hready) (hpossible timer hready)

/-- Whether a timeout is one of the connection. -/
def times_out (i : Nat) (fired : Option Fired) : Bool := fired.any fun f => f.client = i

/-- An event other than its own timeout keeps the deadline of a connection, unless it closes it. -/
theorem step_keeps (h : Timely s) (hpossible : e.Possible s) (hleaves : e.Leaves i = true)
    (hi : i < s.server.clients.length) (hother : times_out i (step s e).2 = false) : Keeps i s (step s e).1 := by
  cases e with
  | api call => exact perform_keeps h hpossible hleaves
  | on_connection a => exact on_connection_keeps h a hi
  | handle_closed j handle => exact client_step_keeps h hpossible fun _ _ => rfl
  | update_time now => exact h.keeps_same rfl fun _ => rfl
  | run_timer during =>
    cases hready : s.clock.ready with
    | none =>
      rw [step, hready]
      exact h.keeps_same rfl fun _ => rfl
    | some timer =>
      rw [step, hready] at hother ⊢
      have hne : timer.1 ≠ i := by simpa [times_out] using hother
      exact (h.keeps_stop hne.symm).trans
        (connection_timeout_cb_keeps (h.stop timer.1) (ready_has h hready) (hpossible timer hready) hleaves)

theorem step_length (s : TimedServer) (e : TimedEvent) :
    s.server.clients.length ≤ (step s e).1.server.clients.length := by
  cases e with
  | api call => exact (perform_length s call).ge
  | on_connection a => exact on_connection_length s a
  | handle_closed j handle => exact (client_step_length s j _).ge
  | update_time now => exact Nat.le_refl _
  | run_timer during =>
    rw [step]
    split
    · exact Nat.le_refl _
    · rw [connection_timeout_cb, client_step_length]
      split_ifs
      · rw [perform_all_length]
      · exact Nat.le_refl _

/-- A timeout of a connection comes when its time has come, and closes it. -/
theorem step_times_out (h : Timely s) (hpossible : e.Possible s) {f : Fired} (hfired : (step s e).2 = some f) :
    (∃ at_time, s.clock.due f.client = some at_time ∧ at_time ≤ f.now) ∧ ¬ (step s e).1.Alive f.client := by
  cases e with
  | run_timer during =>
    cases hready : s.clock.ready with
    | none =>
      rw [step, hready] at hfired
      cases hfired
    | some timer =>
      rw [step, hready] at hfired ⊢
      cases hfired
      obtain ⟨hdue, hnow, -⟩ := ready_spec hready
      refine ⟨⟨timer.2, hdue, hnow⟩, ?_⟩
      exact connection_timeout_cb_closes (h.stop timer.1) (ready_has h hready) (hpossible timer hready)
  | _ => cases hfired

/-- An event that starts a timeout leaves an open connection with that deadline. -/
theorem arms_spec (h : Timely s) {timeout : Int} (harms : arms s e = some (i, timeout)) :
    (step s e).1.clock.due i = some (uv_due s.clock.now timeout) ∧ i < (step s e).1.server.clients.length := by
  have hrestart {s : TimedServer} (halive : s.Alive i) (timeout : Int) :
      (restart_timer s i timeout).2.clock.due i = some (uv_due s.clock.now timeout) ∧
        i < (restart_timer s i timeout).2.server.clients.length := by
    refine ⟨restart_timer_alive halive timeout, ?_⟩
    obtain ⟨client, hclient, -⟩ := halive
    rw [restart_timer_clients]
    exact (List.getElem?_eq_some_iff.mp hclient).1
  cases e with
  | on_connection a =>
    rw [arms] at harms
    split_ifs at harms with hstarted
    cases harms
    have halive := hstarted
    rw [Bool.and_eq_true] at halive
    rw [step, on_connection, if_pos hstarted]
    exact hrestart (arrival_alive s halive.1 halive.2) (timeout_ms s)
  | api call =>
    cases call with
    | uvhttp_connection_start_timeout j =>
      rw [arms] at harms
      split_ifs at harms with hopen
      cases harms
      exact hrestart ((is_open_iff h).mp hopen) (timeout_ms s)
    | uvhttp_connection_start_timeout_custom j timeout_seconds =>
      rw [arms] at harms
      split_ifs at harms with hopen
      cases harms
      simp only [Bool.and_eq_true, decide_eq_true_eq] at hopen
      obtain ⟨⟨hopen, hleast⟩, hmost⟩ := hopen
      have hsmall : ¬ timeout_seconds > INT_MAX / 1000 := by
        rw [UVHTTP_CONNECTION_TIMEOUT_MAX] at hmost
        rw [INT_MAX]
        omega
      have hcall : uvhttp_connection_start_timeout_custom s i timeout_seconds =
          restart_timer s i (timeout_seconds * 1000) := by
        rw [uvhttp_connection_start_timeout_custom, if_neg (by omega), if_neg hsmall]
      rw [step, ApiCall.perform, hcall]
      exact hrestart ((is_open_iff h).mp hopen) _
    | _ => cases harms
  | _ => cases harms

end steps

/-- The timeouts of a connection among what a run answers. -/
def timeouts_of (i : Nat) (fired : List (Option Fired)) : List Fired :=
  fired.filterMap fun answer => answer.filter fun f => f.client = i

theorem timeouts_of_append (fired : List (Option Fired)) (answer : Option Fired) :
    timeouts_of i (fired ++ [answer]) = timeouts_of i fired ++ (answer.filter fun f => f.client = i).toList := by
  rw [timeouts_of, List.filterMap_append, timeouts_of, List.filterMap_cons]
  cases answer.filter fun f => f.client = i with
  | none => rfl
  | some f => rfl

theorem timeouts_of_other {fired : List (Option Fired)} {answer : Option Fired} (hother : times_out i answer = false) :
    timeouts_of i (fired ++ [answer]) = timeouts_of i fired := by
  have hnone : (answer.filter fun f => f.client = i) = none := by
    cases answer with
    | none => rfl
    | some f => simpa [times_out] using hother
  rw [timeouts_of_append, hnone]
  exact List.append_nil _

/-- A connection since its timeout was started: as long as it is open its deadline stands, and it times
out once, not before. -/
structure Watched (i deadline : Nat) (s : TimedServer) (fired : List (Option Fired)) : Prop where
  timely : Timely s
  found : i < s.server.clients.length
  waits : s.Alive i → s.clock.due i = some deadline ∧ timeouts_of i fired = []
  once : (timeouts_of i fired).length ≤ 1
  late : ∀ f ∈ timeouts_of i fired, deadline ≤ f.now

theorem watched_step {deadline : Nat} {fired : List (Option Fired)} (h : Watched i deadline s fired) {e : TimedEvent}
    (hpossible : e.Possible s) (hleaves : e.Leaves i = true) :
    Watched i deadline (step s e).1 (fired ++ [(step s e).2]) := by
  have htimely := step_timely h.timely hpossible
  have hfound := h.found.trans_le (step_length s e)
  cases hother : times_out i (step s e).2 with
  | false =>
    have hkeeps := step_keeps h.timely hpossible hleaves h.found hother
    have hsame := @timeouts_of_other i fired _ hother
    refine ⟨htimely, hfound, fun halive => ?_, ?_, ?_⟩
    · obtain ⟨hbefore, hdue⟩ := hkeeps.alive halive
      rw [hsame, hdue]
      exact h.waits hbefore
    · rw [hsame]
      exact h.once
    · rw [hsame]
      exact h.late
  | true =>
    obtain ⟨f, hfired, hclient⟩ := Option.any_eq_true _ _ |>.mp hother
    rw [decide_eq_true_eq] at hclient
    obtain ⟨⟨at_time, hdue, hnow⟩, hdead⟩ := step_times_out h.timely hpossible hfired
    rw [hclient] at hdue hdead
    obtain ⟨hdeadline, hquiet⟩ := h.waits (h.timely.armed i at_time hdue)
    have honly : timeouts_of i (fired ++ [(step s e).2]) = [f] := by
      rw [timeouts_of_append, hquiet, hfired]
      simp [hclient]
    rw [hdue] at hdeadline
    cases hdeadline
    refine ⟨htimely, hfound, fun halive => absurd halive hdead, ?_, ?_⟩
    · rw [honly]
      exact Nat.le_refl 1
    · intro g hg
      rw [honly, List.mem_singleton] at hg
      rw [hg]
      exact hnow

/-- Once a connection's timeout has been started, by `on_connection` or by the embedder, and for as long
as it is neither started anew nor the connection handed over, its deadline stands: nothing that is read
or written, no restart and no switch to WebSocket moves it. While the connection is open it has not
timed out, and whenever the loop has run the timers whose time has come, the deadline lies ahead. It
times out at most once, and not before the deadline. -/
theorem connection_deadline {now : Nat} {before after : List TimedEvent} {e : TimedEvent} {i : Nat} {timeout : Int}
    (hpossible : Enabled step (fun s e => e.Possible s) (timed_new now) (before ++ e :: after))
    (harms : arms (run step (timed_new now) before) e = some (i, timeout))
    (hleaves : after.all (TimedEvent.Leaves i) = true) :
    let armed := run step (timed_new now) before
    let deadline := uv_due armed.clock.now timeout
    let s := run step (timed_new now) (before ++ e :: after)
    let timeouts := timeouts_of i (answers step (step armed e).1 after)
    (s.is_open i = true → s.clock.due i = some deadline ∧ timeouts = []) ∧
    (s.is_open i = true → s.clock.ready = none → s.clock.now < deadline) ∧
    timeouts.length ≤ 1 ∧ ∀ f ∈ timeouts, deadline ≤ f.now := by
  intro armed deadline s timeouts
  obtain ⟨hbefore, hfirst, hafter⟩ := enabled_append.mp hpossible
  have harmed : Timely armed := prefix_invariant (fun _ _ => step_timely) (timely_new now) hbefore before
    (List.prefix_refl before)
  obtain ⟨hdue, hfound⟩ := arms_spec harmed harms
  have hstart : Watched i deadline (step armed e).1 [] :=
    ⟨step_timely harmed hfirst, hfound, fun _ => ⟨hdue, rfl⟩, Nat.zero_le 1, fun f hf => by cases hf⟩
  have hquiet : Enabled step (fun _ e => e.Leaves i = true) (step armed e).1 after :=
    enabled_of_mem (List.all_eq_true.mp hleaves) (step armed e).1
  have hwatched := history_invariant (fun s _ fired => Watched i deadline s fired) hstart
    (fun _ _ _ _ h hevent => watched_step h hevent.1 hevent.2) (enabled_and hafter hquiet)
  have hrun : s = run step (step armed e).1 after := run_append (timed_new now) before (e :: after)
  rw [← hrun] at hwatched
  refine ⟨fun hopen => ?_, fun hopen hready => ?_, hwatched.once, hwatched.late⟩
  · exact hwatched.waits ((is_open_iff hwatched.timely).mp hopen)
  · obtain ⟨hstands, -⟩ := hwatched.waits ((is_open_iff hwatched.timely).mp hopen)
    exact ready_eq_none_iff.mp hready i deadline hstands

/-- A client that becomes a WebSocket and goes on sending, under a timeout of 30 seconds. -/
def websocket_client : List TimedEvent :=
  [.api (.call 0 (.uvhttp_connection_switch_to_websocket true)), .update_time 30999, .run_timer [],
    .api (.call 0 (.uvhttp_connection_schedule_restart_read true)), .update_time 31000,
    .run_timer [.uvhttp_server_set_timeout_callback false]]

/-- It is closed 30 seconds after it was accepted. -/
theorem connection_deadline_websocket :
    let before : List TimedEvent := [.api (.set_connection_timeout (some 30)),
      .api (.uvhttp_server_set_timeout_callback true), .update_time 1000]
    let arrival : TimedEvent := .on_connection ⟨true, 1, true, true, true, none⟩
    let armed := run step (timed_new 0) before
    answers step (step armed arrival).1 websocket_client =
      [none, none, none, none, none, some ⟨0, 31000, some 30000⟩] ∧
    ∀ f ∈ timeouts_of 0 (answers step (step armed arrival).1 websocket_client), 31000 ≤ f.now := by
  intro before arrival armed
  have hpossible : Enabled step (fun s e => e.Possible s) (timed_new 0) (before ++ arrival :: websocket_client) := by
    decide
  have harms : arms armed arrival = some (0, 30000) := by decide
  have hdeadline : uv_due armed.clock.now 30000 = 31000 := by decide
  refine ⟨by decide, ?_⟩
  rw [← hdeadline]
  exact (connection_deadline hpossible harms (by decide)).2.2.2

end uvhttp.deadline
