import Uvhttp.Connection.Teardown

namespace uvhttp.server

open connection

/-- A connection object of the server, and whether `uv_accept` gave it a client. -/
structure Client where
  accepted : Bool
  conn : Conn

/-- `uvhttp_server_t`: its connection count, a `size_t`, and all connection
objects it has created. -/
structure Server where
  active_connections : UInt64
  clients : List Client

def server_new : Server := ⟨0, []⟩

/-- One call of `on_connection`: the limit in force and how its steps go. -/
structure Attempt where
  status : Bool
  max_connections : UInt64
  connection_new : Bool
  uv_accept : Bool
  uv_read_start : Bool
  tls : Option Handshake
  deriving DecidableEq

/-- The count after the effects of a call on a connection. -/
def count_off (active_connections : UInt64) (effects : List Effect) : UInt64 :=
  active_connections - UInt64.ofNat (effects.count .decrement_active)

/-- Whether `on_connection` turns the client away with a 503. -/
def limit_reached (s : Server) (a : Attempt) : Bool := s.active_connections ≥ a.max_connections

/-- `on_connection`. -/
def on_connection (s : Server) (a : Attempt) : Server :=
  if !a.status then s
  else if limit_reached s a then s
  else if !a.connection_new then s
  else if !a.uv_accept then
    let freed := uvhttp_connection_free uvhttp_connection_free_resources connection_new
    { active_connections := count_off s.active_connections freed.2
      clients := s.clients ++ [⟨false, freed.1⟩] }
  else
    let started := uvhttp_connection_start uvhttp_connection_free_resources connection_new a.uv_read_start a.tls
    let closed :=
      if !started.1 then uvhttp_connection_close uvhttp_connection_free_resources started.2.1 else (started.2.1, [])
    { active_connections := count_off (s.active_connections + 1) (started.2.2 ++ closed.2)
      clients := s.clients ++ [⟨true, closed.1⟩] }

/-- A client arrives, or something happens to one of the connections. -/
inductive ServerEvent where
  | attempt (a : Attempt)
  | client (index : Nat) (event : Event)
  deriving DecidableEq

/-- One event. -/
def server_step (s : Server) : ServerEvent → Server × Unit
  | .attempt a => (on_connection s a, ())
  | .client index event =>
    match s.clients[index]? with
    | none => (s, ())
    | some client =>
      let moved := step client.conn event
      ({ active_connections := count_off s.active_connections moved.2
         clients := s.clients.set index { client with conn := moved.1 } }, ())

/-- Events happen to connections that exist, as libuv lets them. -/
def PossibleFor (event : Event) : Option Client → Prop
  | none => False
  | some client => event.Possible client.conn

instance (event : Event) : (client : Option Client) → Decidable (PossibleFor event client)
  | none => inferInstanceAs (Decidable False)
  | some client => inferInstanceAs (Decidable (event.Possible client.conn))

def ServerEvent.Possible (s : Server) : ServerEvent → Prop
  | .attempt _ => True
  | .client index event => PossibleFor event s.clients[index]?

instance ServerEvent.decidablePossible (s : Server) : (event : ServerEvent) → Decidable (event.Possible s)
  | .attempt _ => inferInstanceAs (Decidable True)
  | .client index event => inferInstanceAs (Decidable (PossibleFor event s.clients[index]?))

/-- An accept attempt does not fail in `uv_accept` after its connection object
has been created. -/
def ServerEvent.Accepts (s : Server) : ServerEvent → Prop
  | .attempt a => a.status = true → limit_reached s a = false → a.connection_new = true → a.uv_accept = true
  | .client _ _ => True

instance ServerEvent.decidableAccepts (s : Server) : (event : ServerEvent) → Decidable (event.Accepts s)
  | .attempt a => inferInstanceAs (Decidable
      (a.status = true → limit_reached s a = false → a.connection_new = true → a.uv_accept = true))
  | .client _ _ => inferInstanceAs (Decidable True)

/-- Whether a connection was accepted and its resources are not yet freed. -/
def Client.counts (client : Client) : Bool := client.accepted && !client.conn.freed

/-- The connections that were accepted and whose resources are not yet freed. -/
def accepted_connections (s : Server) : Nat := s.clients.countP Client.counts

/-- A connection is counted off in the step that frees it. -/
theorem moves_counts {c : Conn} {event : Event} {result : Conn × List Effect} (h : Moves c event result) :
    (!c.freed).toNat = (!result.1.freed).toNat + result.2.count .decrement_active := by
  cases h with
  | stays hbefore hafter heffects => rw [hbefore.freed, hafter.freed, heffects]; rfl
  | closes hbefore hafter heffects => rw [hbefore.freed, hafter.freed, heffects]; rfl
  | waits hbefore hafter heffects => rw [hbefore.freed, hafter.freed, heffects]; rfl
  | called_back hbefore hafter heffects => rw [hbefore.freed, hafter.freed, heffects]; rfl
  | freed hbefore hafter heffects => rw [hbefore.freed, hafter.freed, heffects]; rfl

theorem count_off_toNat {active_connections : UInt64} {effects : List Effect}
    (h : effects.count .decrement_active ≤ active_connections.toNat) :
    (count_off active_connections effects).toNat =
      active_connections.toNat - effects.count .decrement_active := by
  have hsize : effects.count .decrement_active < UInt64.size :=
    lt_of_le_of_lt h active_connections.toNat_lt_size
  have htoNat : (UInt64.ofNat (effects.count .decrement_active)).toNat = effects.count .decrement_active :=
    UInt64.toNat_ofNat_of_lt hsize
  have hle : UInt64.ofNat (effects.count .decrement_active) ≤ active_connections := by
    rw [UInt64.le_iff_toNat_le, htoNat]
    exact h
  rw [count_off, UInt64.toNat_sub_of_le _ _ hle, htoNat]

/-- An accepted connection that has just been started is alive, whether it reads
or is closed again, and has not been counted off. -/
theorem started_alive (uv_read_start : Bool) (tls : Option Handshake) :
    let started := uvhttp_connection_start uvhttp_connection_free_resources connection_new uv_read_start tls
    let closed :=
      if !started.1 then uvhttp_connection_close uvhttp_connection_free_resources started.2.1 else (started.2.1, [])
    Sound closed.1 ∧ closed.1.freed = false ∧ (started.2.2 ++ closed.2).count .decrement_active = 0 := by
  intro started
  have hleaves : Leaves started.2 :=
    perform_live uvhttp_connection_free_resources live_new (.uvhttp_connection_start uv_read_start tls)
  cases hleaves with
  | live hlive heffects =>
    rw [heffects]
    cases started.1 with
    | true => exact ⟨.live hlive, hlive.freed, rfl⟩
    | false =>
      have hclosed := close_untouched uvhttp_connection_free_resources hlive.toUntouched
      have htearing := tearing_of_untouched uvhttp_connection_free_resources hlive.toUntouched
      refine ⟨.tearing 2 htearing, htearing.freed, ?_⟩
      simp only [Bool.not_false, if_true]
      rw [hclosed]
      rfl
  | tearing htearing heffects =>
    rw [heffects]
    cases started.1 with
    | true => exact ⟨.tearing 2 htearing, htearing.freed, rfl⟩
    | false =>
      simp only [Bool.not_false, if_true]
      rw [close_tearing uvhttp_connection_free_resources htearing]
      exact ⟨.tearing 2 htearing, htearing.freed, rfl⟩

/-- The books of the server are right: every connection object was accepted, and
the count is the number of those not yet freed. -/
structure Balanced (s : Server) : Prop where
  accepted : ∀ client ∈ s.clients, client.accepted = true
  sound : ∀ client ∈ s.clients, Sound client.conn
  active : s.active_connections.toNat = accepted_connections s

theorem limit_reached_iff {s : Server} (h : Balanced s) (a : Attempt) :
    limit_reached s a = true ↔ a.max_connections.toNat ≤ accepted_connections s := by
  rw [limit_reached, decide_eq_true_eq, ge_iff_le, UInt64.le_iff_toNat_le, h.active]

theorem accepted_connections_append (s : Server) (client : Client) (active_connections : UInt64) :
    accepted_connections ⟨active_connections, s.clients ++ [client]⟩ =
      accepted_connections s + client.counts.toNat := by
  rw [accepted_connections, List.countP_append, List.countP_singleton]
  cases client.counts with
  | true => rfl
  | false => rfl

/-- An attempt whose `uv_accept` does not fail keeps the books right, and adds a
connection only below the limit. -/
theorem on_connection_balanced {s : Server} (h : Balanced s) {a : Attempt}
    (haccepts : ServerEvent.Accepts s (.attempt a)) :
    Balanced (on_connection s a) ∧
      (accepted_connections (on_connection s a) = accepted_connections s ∨
        accepted_connections (on_connection s a) = accepted_connections s + 1 ∧
          accepted_connections s < a.max_connections.toNat) := by
  unfold on_connection
  cases hstatus : a.status with
  | false => exact ⟨h, .inl rfl⟩
  | true =>
  cases hlimit : limit_reached s a with
  | true => exact ⟨h, .inl rfl⟩
  | false =>
  cases hnew : a.connection_new with
  | false => exact ⟨h, .inl rfl⟩
  | true =>
  rw [haccepts hstatus hlimit hnew]
  simp only [Bool.not_true, Bool.false_eq_true, if_false]
  obtain ⟨hsound, hfreed, hcount⟩ := started_alive a.uv_read_start a.tls
  have hroom : accepted_connections s < a.max_connections.toNat := by
    rw [← Nat.not_le, ← limit_reached_iff h a, hlimit]
    exact Bool.false_ne_true
  have hincrement : (s.active_connections + 1).toNat = accepted_connections s + 1 := by
    have hmax := a.max_connections.toNat_lt_size
    rw [UInt64.toNat_add, h.active]
    exact Nat.mod_eq_of_lt (by
      change accepted_connections s + 1 < UInt64.size
      omega)
  refine ⟨⟨?_, ?_, ?_⟩, .inr ⟨?_, hroom⟩⟩
  · intro client hclient
    rcases List.mem_append.mp hclient with hold | hadded
    · exact h.accepted client hold
    · rw [List.mem_singleton.mp hadded]
  · intro client hclient
    rcases List.mem_append.mp hclient with hold | hadded
    · exact h.sound client hold
    · rw [List.mem_singleton.mp hadded]
      exact hsound
  · rw [accepted_connections_append, count_off_toNat (by rw [hcount]; exact Nat.zero_le _), hcount, hincrement,
      Client.counts, hfreed]
    rfl
  · rw [accepted_connections_append, Client.counts, hfreed]
    rfl

theorem accepted_connections_set {s : Server} {index : Nat} {client : Client}
    (hclient : s.clients[index]? = some client) (client' : Client) (active_connections : UInt64) :
    accepted_connections ⟨active_connections, s.clients.set index client'⟩ + client.counts.toNat =
      accepted_connections s + client'.counts.toNat := by
  obtain ⟨hindex, hget⟩ := List.getElem?_eq_some_iff.mp hclient
  have hcounted : client.counts.toNat ≤ accepted_connections s := by
    cases hcounts : client.counts with
    | false => exact Nat.zero_le _
    | true => exact List.countP_pos_iff.mpr ⟨client, hget ▸ List.getElem_mem hindex, hcounts⟩
  have hset : accepted_connections ⟨active_connections, s.clients.set index client'⟩ =
      accepted_connections s - client.counts.toNat + client'.counts.toNat := by
    rw [accepted_connections, List.countP_set hindex, hget, Bool.toNat, Bool.toNat, Bool.cond_eq_ite,
      Bool.cond_eq_ite]
    rfl
  omega

/-- Events on a connection keep the books right. -/
theorem client_step_balanced {s : Server} (h : Balanced s) {index : Nat} {event : Event} {client : Client}
    (hclient : s.clients[index]? = some client) (hpossible : event.Possible client.conn) :
    Balanced (server_step s (.client index event)).1 ∧
      accepted_connections (server_step s (.client index event)).1 ≤ accepted_connections s := by
  obtain ⟨hindex, hget⟩ := List.getElem?_eq_some_iff.mp hclient
  have hmem : client ∈ s.clients := hget ▸ List.getElem_mem hindex
  have hmoves := step_moves (h.sound client hmem) hpossible
  have hconserved := moves_counts hmoves
  have hset := accepted_connections_set hclient { client with conn := (step client.conn event).1 }
    (count_off s.active_connections (step client.conn event).2)
  have hcounts : ∀ conn, ({ client with conn } : Client).counts = !conn.freed := fun conn => by
    rw [Client.counts, h.accepted client hmem, Bool.true_and]
  rw [hcounts, hcounts] at hset
  have hafter : accepted_connections s = accepted_connections
      ⟨count_off s.active_connections (step client.conn event).2,
        s.clients.set index { client with conn := (step client.conn event).1 }⟩ +
      (step client.conn event).2.count .decrement_active := by omega
  rw [server_step, hclient]
  refine ⟨⟨?_, ?_, ?_⟩, Nat.le.intro hafter.symm⟩
  · intro other hother
    rcases List.mem_or_eq_of_mem_set hother with hold | rfl
    · exact h.accepted other hold
    · exact h.accepted client hmem
  · intro other hother
    rcases List.mem_or_eq_of_mem_set hother with hold | rfl
    · exact h.sound other hold
    · exact hmoves.sound
  · rw [count_off_toNat (by rw [h.active, hafter]; exact Nat.le_add_left _ _), h.active, hafter,
      Nat.add_sub_cancel]

/-- The runs of a server: possible events, and no `uv_accept` that fails on a
connection object. -/
def Accepting (events : List ServerEvent) : Prop :=
  machine.Enabled server_step (fun s event => event.Possible s ∧ event.Accepts s) server_new events

instance (events : List ServerEvent) : Decidable (Accepting events) :=
  inferInstanceAs (Decidable (machine.Enabled server_step (fun s event => event.Possible s ∧ event.Accepts s)
    server_new events))

/-- The books are right, and no more connections are open than the largest limit
so far. -/
structure Accounted (s : Server) (events : List ServerEvent) : Prop where
  balanced : Balanced s
  limit : ∀ limit, (∀ a, .attempt a ∈ events → a.max_connections.toNat ≤ limit) → accepted_connections s ≤ limit

theorem accounted_step {s : Server} {events : List ServerEvent} (h : Accounted s events) {event : ServerEvent}
    (hpossible : event.Possible s) (haccepts : event.Accepts s) :
    Accounted (server_step s event).1 (events ++ [event]) := by
  cases event with
  | attempt a =>
    obtain ⟨hbalanced, hcount⟩ := on_connection_balanced h.balanced haccepts
    refine ⟨hbalanced, fun limit hlimit => ?_⟩
    have hbefore := h.limit limit fun a ha => hlimit a (List.mem_append_left _ ha)
    have hthis := hlimit a (List.mem_append_right _ (List.mem_singleton.mpr rfl))
    change accepted_connections (on_connection s a) ≤ limit
    omega
  | client index event =>
    change PossibleFor event s.clients[index]? at hpossible
    cases hclient : s.clients[index]? with
    | none =>
      rw [hclient] at hpossible
      exact hpossible.elim
    | some client =>
      rw [hclient] at hpossible
      obtain ⟨hbalanced, hcount⟩ := client_step_balanced h.balanced hclient hpossible
      refine ⟨hbalanced, fun limit hlimit => hcount.trans ?_⟩
      exact h.limit limit fun a ha => hlimit a (List.mem_append_left _ ha)

/-- In every run in which no `uv_accept` fails on a connection object that has
been created, `active_connections` is the number of accepted connections whose
resources are not yet freed; `on_connection` turns clients away exactly when
that number has reached the limit, so that it never exceeds a limit that was
in force all along. -/
theorem active_connections_accounted {events : List ServerEvent} (h : Accepting events) :
    (machine.run server_step server_new events).active_connections.toNat =
      accepted_connections (machine.run server_step server_new events) ∧
    (∀ a, limit_reached (machine.run server_step server_new events) a = true ↔
      a.max_connections.toNat ≤ accepted_connections (machine.run server_step server_new events)) ∧
    ∀ limit, (∀ a, .attempt a ∈ events → a.max_connections.toNat ≤ limit) →
      accepted_connections (machine.run server_step server_new events) ≤ limit := by
  have hnew : Accounted server_new [] := ⟨⟨nofun, nofun, rfl⟩, fun _ _ => Nat.zero_le _⟩
  have haccounted : Accounted (machine.run server_step server_new events) events :=
    machine.history_invariant (fun s events _ => Accounted s events) hnew
      (fun _ _ _ _ h hevent => accounted_step h hevent.1 hevent.2) h
  exact ⟨haccounted.balanced.active, limit_reached_iff haccounted.balanced, haccounted.limit⟩

/-- One client is served and one refused, and the first one leaves. -/
theorem active_connections_accounted_limit_one :
    let a : Attempt := ⟨true, 1, true, true, true, none⟩
    let events : List ServerEvent :=
      [.attempt a, .attempt a, .client 0 (.call .on_read_error), .client 0 (.handle_closed .tcp_handle),
        .client 0 (.handle_closed .idle_handle)]
    (machine.run server_step server_new events).active_connections = 1 ∧
      (machine.run server_step server_new events).active_connections.toNat =
        accepted_connections (machine.run server_step server_new events) := by
  intro a events
  have haccepting : Accepting events := by decide
  exact ⟨by decide, (active_connections_accounted haccepting).1⟩

/-- A client whose `uv_accept` fails: its connection object is never counted and
yet counted off, and the count wraps around. -/
theorem active_connections_wrap :
    let a : Attempt := ⟨true, 1, true, false, true, none⟩
    let events : List ServerEvent :=
      [.attempt a, .client 0 (.handle_closed .idle_handle), .client 0 (.handle_closed .timeout_timer),
        .client 0 (.handle_closed .tcp_handle)]
    machine.Enabled server_step (fun s event => event.Possible s) server_new events ∧
      (machine.run server_step server_new events).active_connections.toNat ≠
        accepted_connections (machine.run server_step server_new events) := by
  intro a events
  exact ⟨by decide, by decide⟩

end uvhttp.server
