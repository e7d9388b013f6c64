import Uvhttp.Connection.Upgrade

namespace uvhttp.server

open connection machine

/-- A connection of the server and its WebSocket. -/
structure Socket where
  conn : Conn
  ws_connection : Option Nat

/-- A `uvhttp_ws_connection_t`: the connection its wrapper was made for, whether the
wrapper is still there, and whether the object has been freed. -/
structure WsObject where
  owner : Nat
  wrapper : Bool
  freed : Bool
  deriving DecidableEq, Repr

/-- The connections and WebSocket objects by their addresses, and the WebSockets in the
list of the manager, if there is one. What its operations do to the list is shown of
the manager itself. -/
structure WsServer where
  sockets : Nat → Option Socket
  objects : Nat → Option WsObject
  manager : Option (List Nat)

def ws_server_new : WsServer := ⟨fun _ => none, fun _ => none, none⟩

/-- The WebSockets the manager refers to. -/
def WsServer.listed (w : WsServer) : List Nat := w.manager.getD []

/-- How a handshake goes: the WebSocket object and its wrapper are created, the
callback of the user accepts, reading starts, and there is memory for the node. -/
structure Upgrading where
  created : Bool
  on_connect : Bool
  uv_read_start : Bool
  node_alloc : Bool
  deriving DecidableEq, Repr

/-- What `on_websocket_read` gets: frames, with a Close among them or with a failure of
their processing, or an error or the end of the stream. -/
inductive WsRead where
  | frames (close failed : Bool)
  | ended
  deriving DecidableEq, Repr

/-- What happens on a server with WebSockets. `conn` are the events in the life of a
connection, `sweep` stands for the timeout timer of the manager and for
`uvhttp_server_ws_close_all`. -/
inductive WsServerEvent where
  | accept (i : Nat)
  | conn (i : Nat) (event : Event)
  | websocket_handshake (i id : Nat) (upgrading : Upgrading)
  | websocket_read (i : Nat) (read : WsRead)
  | enable_connection_management
  | disable_connection_management
  | sweep (goes : Nat → Bool)

section steps

variable (w : WsServer)

def WsServer.set_socket (i : Nat) (s : Socket) : WsServer := { w with sockets := Function.update w.sockets i (some s) }

def WsServer.set_object (id : Nat) (object : Option WsObject) : WsServer :=
  { w with objects := Function.update w.objects id object }

/-- The node is removed and the WebSocket of a connection freed. -/
def release_websocket (i : Nat) (s : Socket) : WsServer :=
  match s.ws_connection with
  | none => w.set_socket i s
  | some id =>
    let removed := { w with manager := w.manager.map (List.erase · id) }
    (removed.set_socket i { s with ws_connection := none }).set_object id
      ((w.objects id).map fun o => { o with wrapper := false, freed := true })

def uvhttp_connection_websocket_close (i : Nat) (s : Socket) : WsServer :=
  release_websocket w i { s with conn := (connection.step s.conn (.call .uvhttp_connection_websocket_close)).1 }

/-- Whether an event closes the WebSocket of the connection: a call of
`uvhttp_connection_websocket_close`, also by the hook that runs when the connection is
freed. -/
def closes_websocket (c : Conn) (event : Event) : Bool :=
  event = .call .uvhttp_connection_websocket_close ||
    (!c.freed && (connection.step c event).1.freed &&
      c.on_destroy.any fun calls => calls.contains .uvhttp_connection_websocket_close)

/-- `uvhttp_connection_handle_websocket_handshake`. -/
def uvhttp_connection_handle_websocket_handshake (i : Nat) (s : Socket) (id : Nat) (u : Upgrading) : WsServer :=
  if !u.created then w
  else
    let created := w.set_object id (some ⟨i, true, false⟩)
    let s := { s with ws_connection := some id }
    if !u.on_connect then uvhttp_connection_websocket_close created i s
    else
      let switched := connection.step s.conn (.call (.uvhttp_connection_switch_to_websocket u.uv_read_start))
      { created.set_socket i { s with conn := switched.1 } with
        manager := if u.node_alloc then w.manager.map (id :: ·) else w.manager }

/-- `on_websocket_read`. A Close frame ends in `on_websocket_close`, which frees the
wrapper. -/
def on_websocket_read (i : Nat) (s : Socket) (read : WsRead) : WsServer :=
  match s.ws_connection with
  | none => w
  | some id =>
    match read with
    | .ended => uvhttp_connection_websocket_close w i s
    | .frames close failed =>
      let w := if close then w.set_object id ((w.objects id).map fun o => { o with wrapper := false }) else w
      if failed then uvhttp_connection_websocket_close w i s else w

/-- One event on a connection. -/
def conn_step (i : Nat) (s : Socket) (event : Event) : WsServer :=
  let s' := { s with conn := (connection.step s.conn event).1 }
  if closes_websocket s.conn event then release_websocket w i s' else w.set_socket i s'

/-- One event. -/
def ws_server_step : WsServerEvent → WsServer × Unit
  | .accept i => (w.set_socket i ⟨connection_new, none⟩, ())
  | .conn i event => ((w.sockets i).elim w fun s => conn_step w i s event, ())
  | .websocket_handshake i id u =>
    ((w.sockets i).elim w fun s => uvhttp_connection_handle_websocket_handshake w i s id u, ())
  | .websocket_read i read => ((w.sockets i).elim w fun s => on_websocket_read w i s read, ())
  | .enable_connection_management => ({ w with manager := some [] }, ())
  | .disable_connection_management => ({ w with manager := none }, ())
  | .sweep goes => ({ w with manager := w.manager.map (List.filter fun id => !goes id) }, ())

/-- Objects are created at free addresses, and what happens to a connection happens
before it is freed. -/
def WsServerEvent.Possible : WsServerEvent → Prop
  | .accept i => w.sockets i = none
  | .conn i event => ∃ s ∈ w.sockets i, event.Possible s.conn
  | .websocket_handshake i id _ => w.objects id = none ∧ ∃ s ∈ w.sockets i, s.conn.freed = false
  | .websocket_read i _ => ∃ s ∈ w.sockets i, s.conn.freed = false
  | _ => True

/-- Every WebSocket in the list is an object that has not been freed, its connection has
not been freed either, and no freed connection has one in the list. -/
structure WsServer.Attended : Prop where
  alive : ∀ id ∈ w.listed, ∃ o ∈ w.objects id, o.freed = false ∧ ∃ s ∈ w.sockets o.owner, s.conn.freed = false
  released : ∀ i, ∀ s ∈ w.sockets i, s.conn.freed = true → ∀ id ∈ w.listed, ∀ o ∈ w.objects id, o.owner ≠ i

/-- Whether a WebSocket of the connection is in the list. -/
def WsServer.lists (i : Nat) : Bool := w.listed.any fun id => (w.objects id).any fun o => o.owner = i

end steps

/-- Whether an event closes a connection by itself: the calls of
`uvhttp_connection_close` and `uvhttp_connection_free`, the connection timeout, an HTTP
read error, a failed start of reading, and a failed TLS handshake. -/
def closes_plainly (c : Conn) : Event → Bool
  | .call .uvhttp_connection_close => true
  | .call .uvhttp_connection_free => true
  | .call .connection_timeout_cb => true
  | .call .on_read_error => true
  | .call (.uvhttp_connection_start uv_read_start tls) => !read_starts c uv_read_start || tls = some .failed
  | .call (.uvhttp_connection_switch_to_websocket uv_read_start) => !read_starts c uv_read_start
  | .call (.on_idle_restart_read uv_read_start) => !read_starts c uv_read_start
  | .call (.on_read_handshake handshake) => c.state = .TLS_HANDSHAKE && handshake = .failed
  | _ => false

/-- A connection with a WebSocket in the list is closed only by
`uvhttp_connection_websocket_close`; no second handshake is made on it; and a handshake
that puts a WebSocket into the list is made on a connection that is not closing and
starts to read. -/
def WsServerEvent.Orderly (w : WsServer) : WsServerEvent → Prop
  | .conn i event => ∀ s ∈ w.sockets i, w.lists i = true → closes_plainly s.conn event = false
  | .websocket_handshake i _ u => ∀ s ∈ w.sockets i, u.created = true →
      w.lists i = false ∧
        (u.on_connect = true → u.node_alloc = true → w.manager.isSome = true →
          s.conn.state ≠ .CLOSING ∧ read_starts s.conn u.uv_read_start = true)
  | _ => True

/-- The invariant of orderly runs: a WebSocket in the list is that of a connection that
has not been closed. -/
structure WsServer.Healthy (w : WsServer) : Prop where
  sound : ∀ i, ∀ s ∈ w.sockets i, Sound s.conn
  owned : ∀ i, ∀ s ∈ w.sockets i, ∀ id ∈ s.ws_connection, ∃ o ∈ w.objects id, o.owner = i ∧ o.freed = false
  nodup : w.listed.Nodup
  known : ∀ id ∈ w.listed, ∃ o ∈ w.objects id, ∃ s ∈ w.sockets o.owner, Live s.conn ∧ id ∈ s.ws_connection

theorem healthy_new : ws_server_new.Healthy := by
  refine ⟨?_, ?_, List.nodup_nil, ?_⟩
  · rintro i s ⟨⟩
  · rintro i s ⟨⟩
  · intro id hid
    cases hid

section healthy

variable {w : WsServer} {i : Nat} {s s' : Socket}

theorem set_socket_self : (w.set_socket i s).sockets i = some s := Function.update_self ..

theorem set_socket_of_ne {j : Nat} (h : j ≠ i) : (w.set_socket i s).sockets j = w.sockets j :=
  Function.update_of_ne h ..

theorem set_socket_twice : (w.set_socket i s).set_socket i s' = w.set_socket i s' := by
  rw [WsServer.set_socket, WsServer.set_socket, Function.update_idem]
  rfl

theorem set_object_self {object : Option WsObject} : (w.set_object i object).objects i = object :=
  Function.update_self ..

theorem set_object_of_ne {j : Nat} {object : Option WsObject} (h : j ≠ i) :
    (w.set_object i object).objects j = w.objects j :=
  Function.update_of_ne h ..

theorem WsServer.Healthy.attended (h : w.Healthy) : w.Attended := by
  constructor
  · intro id hid
    obtain ⟨o, ho, s, hs, hlive, hcarries⟩ := h.known id hid
    obtain ⟨o', ho', -, hunfreed⟩ := h.owned o.owner s hs id hcarries
    obtain rfl := Option.mem_unique ho ho'
    exact ⟨o, ho, hunfreed, s, hs, hlive.freed⟩
  · rintro i s hs hfreed id hid o ho rfl
    obtain ⟨o', ho', s', hs', hlive, -⟩ := h.known id hid
    obtain rfl := Option.mem_unique ho ho'
    obtain rfl := Option.mem_unique hs hs'
    rw [hlive.freed] at hfreed
    cases hfreed

/-- Only the connection of a listed WebSocket carries it. -/
theorem WsServer.Healthy.carries (h : w.Healthy) (hs : s ∈ w.sockets i) {id : Nat} (hid : id ∈ w.listed)
    {o : WsObject} (ho : o ∈ w.objects id) (howner : o.owner = i) : Live s.conn ∧ id ∈ s.ws_connection := by
  obtain ⟨o', ho', s', hs', hlive⟩ := h.known id hid
  obtain rfl := Option.mem_unique ho ho'
  rw [howner] at hs'
  obtain rfl := Option.mem_unique hs hs'
  exact hlive

/-- A connection is put in its place. -/
theorem WsServer.Healthy.set_socket (h : w.Healthy) (hsound : Sound s'.conn)
    (howned : ∀ id ∈ s'.ws_connection, ∃ o ∈ w.objects id, o.owner = i ∧ o.freed = false)
    (hlisted : ∀ id ∈ w.listed, ∀ o ∈ w.objects id, o.owner = i → Live s'.conn ∧ id ∈ s'.ws_connection) :
    (w.set_socket i s').Healthy := by
  refine ⟨?_, ?_, h.nodup, ?_⟩
  · intro j t ht
    by_cases hj : j = i
    · subst hj
      rw [set_socket_self] at ht
      obtain rfl := Option.some.inj ht
      exact hsound
    · rw [set_socket_of_ne hj] at ht
      exact h.sound j t ht
  · intro j t ht
    by_cases hj : j = i
    · subst hj
      rw [set_socket_self] at ht
      obtain rfl := Option.some.inj ht
      exact howned
    · rw [set_socket_of_ne hj] at ht
      exact h.owned j t ht
  · intro id hid
    obtain ⟨o, ho, t, ht, hlive⟩ := h.known id hid
    by_cases hj : o.owner = i
    · refine ⟨o, ho, s', ?_, hlisted id hid o ho hj⟩
      rw [hj]
      exact set_socket_self
    · refine ⟨o, ho, t, ?_, hlive⟩
      rw [set_socket_of_ne hj]
      exact ht

/-- A connection whose WebSocket stays goes a step on in its life. -/
theorem WsServer.Healthy.set_conn (h : w.Healthy) (hs : s ∈ w.sockets i) {c : Conn} (hsound : Sound c)
    (hlive : Live s.conn → ∀ id ∈ w.listed, ∀ o ∈ w.objects id, o.owner = i → Live c) :
    (w.set_socket i { s with conn := c }).Healthy := by
  have howned : ∀ id ∈ ({ s with conn := c } : Socket).ws_connection,
      ∃ o ∈ w.objects id, o.owner = i ∧ o.freed = false := h.owned i s hs
  apply h.set_socket hsound howned
  intro id hid o ho howner
  obtain ⟨hbefore, hcarries⟩ := h.carries hs hid ho howner
  exact ⟨hlive hbefore id hid o ho howner, hcarries⟩

/-- The wrapper of an object goes. -/
theorem WsServer.Healthy.set_wrapper (h : w.Healthy) (id : Nat) :
    (w.set_object id ((w.objects id).map fun o => { o with wrapper := false })).Healthy := by
  have hkept : ∀ other, ∀ o ∈ w.objects other,
      ∃ o' ∈ (w.set_object id ((w.objects id).map fun o => { o with wrapper := false })).objects other,
        o'.owner = o.owner ∧ o'.freed = o.freed := by
    intro other o ho
    by_cases hother : other = id
    · subst hother
      refine ⟨{ o with wrapper := false }, ?_, rfl, rfl⟩
      rw [set_object_self, Option.mem_def.mp ho]
      rfl
    · refine ⟨o, ?_, rfl, rfl⟩
      rw [set_object_of_ne hother]
      exact ho
  refine ⟨h.sound, ?_, h.nodup, ?_⟩
  · intro j t ht other hcarries
    obtain ⟨o, ho, howner, hunfreed⟩ := h.owned j t ht other hcarries
    obtain ⟨o', ho', howner', hfreed'⟩ := hkept other o ho
    exact ⟨o', ho', howner'.trans howner, hfreed'.trans hunfreed⟩
  · intro other hid
    obtain ⟨o, ho, t, ht, hlive⟩ := h.known other hid
    obtain ⟨o', ho', howner', -⟩ := hkept other o ho
    refine ⟨o', ho', t, ?_, hlive⟩
    rw [howner']
    exact ht

/-- An object that no connection carries may change. -/
theorem WsServer.Healthy.set_object (h : w.Healthy) {id : Nat}
    (huncarried : ∀ j, ∀ t ∈ w.sockets j, id ∉ t.ws_connection) (object : Option WsObject) :
    (w.set_object id object).Healthy := by
  have hkept : ∀ {j t other}, t ∈ w.sockets j → other ∈ t.ws_connection →
      (w.set_object id object).objects other = w.objects other := by
    intro j t other ht hcarries
    apply set_object_of_ne
    rintro rfl
    exact huncarried j t ht hcarries
  refine ⟨h.sound, ?_, h.nodup, ?_⟩
  · intro j t ht other hcarries
    obtain ⟨o, ho, hrest⟩ := h.owned j t ht other hcarries
    refine ⟨o, ?_, hrest⟩
    rw [hkept ht hcarries]
    exact ho
  · intro other hother
    obtain ⟨o, ho, t, ht, hlive, hcarries⟩ := h.known other hother
    refine ⟨o, ?_, t, ht, hlive, hcarries⟩
    rw [hkept ht hcarries]
    exact ho

/-- What leaves the list leaves the rest in order. -/
theorem WsServer.Healthy.drop (h : w.Healthy) {manager : Option (List Nat)}
    (hsub : (manager.getD []).Sublist w.listed) : WsServer.Healthy { w with manager } :=
  ⟨h.sound, h.owned, h.nodup.sublist hsub, fun id hid => h.known id (hsub.subset hid)⟩

/-- Closing a WebSocket removes the only node that refers to it. -/
theorem WsServer.Healthy.release (h : w.Healthy) (hs : s ∈ w.sockets i) {c : Conn} (hsound : Sound c) :
    (release_websocket w i { s with conn := c }).Healthy := by
  rw [release_websocket]
  cases hws : s.ws_connection with
  | none =>
    apply h.set_socket hsound
    · rintro id ⟨⟩
    · intro id hid o ho howner
      have hcarries := (h.carries hs hid ho howner).2
      rw [hws] at hcarries
      cases hcarries
  | some id =>
    have hlisted : (w.manager.map (List.erase · id)).getD [] = w.listed.erase id := by
      rw [WsServer.listed]
      cases w.manager with
      | none => rfl
      | some nodes => rfl
    have hremoved : WsServer.Healthy { w with manager := w.manager.map (List.erase · id) } := by
      apply h.drop
      rw [hlisted]
      exact List.erase_sublist
    have hcleared : (WsServer.set_socket { w with manager := w.manager.map (List.erase · id) } i
        ⟨c, none⟩).Healthy := by
      apply hremoved.set_socket hsound
      · rintro other ⟨⟩
      · intro other hother o ho howner
        change other ∈ (w.manager.map (List.erase · id)).getD [] at hother
        rw [hlisted, h.nodup.mem_erase_iff] at hother
        have hcarries := (h.carries hs hother.2 ho howner).2
        rw [hws] at hcarries
        exact absurd (Option.some.inj hcarries).symm hother.1
    refine hcleared.set_object ?_ _
    intro j t ht hcarries
    by_cases hj : j = i
    · subst hj
      rw [set_socket_self] at ht
      obtain rfl := Option.some.inj ht
      cases hcarries
    · rw [set_socket_of_ne hj] at ht
      obtain ⟨o, ho, howner, -⟩ := h.owned j t ht id hcarries
      obtain ⟨o', ho', howner', -⟩ := h.owned i s hs id hws
      obtain rfl := Option.mem_unique ho ho'
      exact hj (howner.symm.trans howner')

theorem release_websocket_set_socket {t : Socket} :
    release_websocket (w.set_socket i t) i s = release_websocket w i s := by
  rw [release_websocket, release_websocket]
  cases s.ws_connection with
  | none => exact set_socket_twice
  | some id =>
    dsimp only
    congr 1
    exact @set_socket_twice { w with manager := w.manager.map (List.erase · id) } i t _

/-- A connection without a node gets a new WebSocket. -/
theorem WsServer.Healthy.adopt (h : w.Healthy) (hs : s ∈ w.sockets i) {id : Nat} (hnew : w.objects id = none)
    (hnone : ∀ other ∈ w.listed, ∀ o ∈ w.objects other, o.owner ≠ i) :
    ((w.set_object id (some ⟨i, true, false⟩)).set_socket i { s with ws_connection := some id }).Healthy := by
  have huncarried : ∀ j, ∀ t ∈ w.sockets j, id ∉ t.ws_connection := by
    intro j t ht hcarries
    obtain ⟨o, ho, -⟩ := h.owned j t ht id hcarries
    rw [hnew] at ho
    cases ho
  have hsound : Sound ({ s with ws_connection := some id } : Socket).conn := h.sound i s hs
  apply (h.set_object huncarried _).set_socket hsound
  · rintro other ⟨⟩
    refine ⟨⟨i, true, false⟩, ?_, rfl, rfl⟩
    rw [set_object_self]
    rfl
  · intro other hother o ho howner
    obtain ⟨o', ho', -⟩ := h.known other hother
    have hne : other ≠ id := by
      rintro rfl
      rw [hnew] at ho'
      cases ho'
    rw [set_object_of_ne hne] at ho
    exact absurd howner (hnone other hother o ho)

/-- The WebSocket of a connection that has not been closed gets a node. -/
theorem WsServer.Healthy.add_connection (h : w.Healthy) (hs : s ∈ w.sockets i) {id : Nat}
    (hcarries : id ∈ s.ws_connection) (hlive : w.manager.isSome = true → Live s.conn) (hunlisted : id ∉ w.listed) :
    WsServer.Healthy { w with manager := w.manager.map (id :: ·) } := by
  cases hmanager : w.manager with
  | none =>
    have hsame : { w with manager := (none : Option (List Nat)).map (id :: ·) } = w := by
      rw [Option.map_none, ← hmanager]
    rw [hsame]
    exact h
  | some nodes =>
    have hnodes : w.listed = nodes := by
      rw [WsServer.listed, hmanager]
      rfl
    obtain ⟨hsound, howned, hnodup, hknown⟩ := h
    rw [hnodes] at hnodup hknown hunlisted
    refine ⟨hsound, howned, List.nodup_cons.mpr ⟨hunlisted, hnodup⟩, ?_⟩
    intro other hother
    rcases List.mem_cons.mp hother with rfl | hold
    · obtain ⟨o, ho, howner, -⟩ := howned i s hs other hcarries
      refine ⟨o, ho, s, ?_, hlive (by rw [hmanager]; rfl), hcarries⟩
      rw [howner]
      exact hs
    · exact hknown other hold

end healthy

section running

variable {w : WsServer} {i : Nat} {s : Socket}

/-- An event that does not close a connection leaves it as one that is not closed. -/
theorem step_live {c : Conn} (h : Live c) {event : Event} (hpossible : event.Possible c)
    (hplain : closes_plainly c event = false) (hwebsocket : event ≠ .call .uvhttp_connection_websocket_close) :
    Live (connection.step c event).1 := by
  cases event with
  | set_on_destroy calls => exact ⟨⟨h.handles, h.close_pending, h.freed⟩, h.state⟩
  | handle_closed handle =>
    have hactive := h.handles handle
    rw [show c.handles handle = .closing from hpossible] at hactive
    cases hactive
  | call call =>
    have hstate := upgrade.perform_state h call
    have hopen : upgrade.state_after c call ≠ .CLOSING := by
      have hstay := h.state
      cases call with
      | uvhttp_connection_close => cases hplain
      | uvhttp_connection_free => cases hplain
      | uvhttp_connection_websocket_close => exact absurd rfl hwebsocket
      | connection_timeout_cb => cases hplain
      | on_read_error => cases hplain
      | uvhttp_connection_start uv_read_start tls =>
        simp only [closes_plainly, Bool.or_eq_false_iff, decide_eq_false_iff_not] at hplain
        simp only [upgrade.state_after, hplain.1, Bool.false_eq_true, if_false]
        cases tls with
        | none =>
          intro hclosing
          cases hclosing
        | some handshake =>
          cases handshake with
          | completed =>
            intro hclosing
            cases hclosing
          | in_progress =>
            intro hclosing
            cases hclosing
          | failed => exact absurd rfl hplain.2
      | uvhttp_connection_restart_read uv_read_start =>
        intro hclosing
        cases hclosing
      | uvhttp_connection_schedule_restart_read uv_idle_start => exact hstay
      | uvhttp_connection_switch_to_websocket uv_read_start =>
        rw [closes_plainly] at hplain
        rw [upgrade.state_after, hplain]
        intro hclosing
        cases hclosing
      | uvhttp_connection_transfer_ownership uv_fileno =>
        rw [upgrade.state_after]
        split_ifs with htransfer
        · intro hclosing
          cases hclosing
        · exact hstay
      | on_idle_restart_read uv_read_start =>
        rw [closes_plainly] at hplain
        rw [upgrade.state_after, hplain]
        intro hclosing
        cases hclosing
      | on_read_handshake handshake =>
        simp only [upgrade.state_after]
        split_ifs with hother
        · exact hstay
        · rw [not_not] at hother
          cases handshake with
          | completed =>
            intro hclosing
            cases hclosing
          | in_progress => exact hstay
          | failed => simp [closes_plainly, hother] at hplain
    cases perform_live uvhttp_connection_free_resources h call with
    | live hafter => exact hafter
    | tearing hafter => exact absurd (hstate.symm.trans hafter.state) hopen

theorem lists_iff : w.lists i = true ↔ ∃ id ∈ w.listed, ∃ o ∈ w.objects id, o.owner = i := by
  simp only [WsServer.lists, List.any_eq_true, Option.any_eq_true, decide_eq_true_eq, Option.mem_def]

theorem conn_step_healthy (h : w.Healthy) (hs : s ∈ w.sockets i) {event : Event} (hpossible : event.Possible s.conn)
    (horderly : w.lists i = true → closes_plainly s.conn event = false) : (conn_step w i s event).Healthy := by
  have hsound := (step_moves (h.sound i s hs) hpossible).sound
  rw [conn_step]
  split_ifs with hcloses
  · exact h.release hs hsound
  · apply h.set_conn hs hsound
    intro hlive id hid o ho howner
    apply step_live hlive hpossible (horderly (lists_iff.mpr ⟨id, hid, o, ho, howner⟩))
    rintro rfl
    exact hcloses rfl

theorem websocket_close_healthy (h : w.Healthy) (hs : s ∈ w.sockets i) (hfreed : s.conn.freed = false) :
    (uvhttp_connection_websocket_close w i s).Healthy := by
  have hpossible : (Event.call .uvhttp_connection_websocket_close).Possible s.conn := hfreed
  exact h.release hs (step_moves (h.sound i s hs) hpossible).sound

theorem websocket_read_healthy (h : w.Healthy) (hs : s ∈ w.sockets i) (hfreed : s.conn.freed = false)
    (read : WsRead) : (on_websocket_read w i s read).Healthy := by
  rw [on_websocket_read]
  cases s.ws_connection with
  | none => exact h
  | some id =>
    cases read with
    | ended => exact websocket_close_healthy h hs hfreed
    | frames close failed =>
      dsimp only
      cases close with
      | false =>
        cases failed with
        | false => exact h
        | true => exact websocket_close_healthy h hs hfreed
      | true =>
        cases failed with
        | false => exact h.set_wrapper id
        | true => exact websocket_close_healthy (h.set_wrapper id) hs hfreed

/-- A connection that is neither closing nor freed. -/
theorem live_of_sound {c : Conn} (h : Sound c) (hstate : c.state ≠ .CLOSING) (hfreed : c.freed = false) : Live c := by
  cases h with
  | live h => exact h
  | tearing pending h => exact absurd h.state hstate
  | gone h =>
    rw [h.freed] at hfreed
    cases hfreed

theorem handshake_healthy (h : w.Healthy) (hs : s ∈ w.sockets i) (hfreed : s.conn.freed = false) {id : Nat}
    (hnew : w.objects id = none) {u : Upgrading}
    (horderly : u.created = true → w.lists i = false ∧
      (u.on_connect = true → u.node_alloc = true → w.manager.isSome = true →
        s.conn.state ≠ .CLOSING ∧ read_starts s.conn u.uv_read_start = true)) :
    (uvhttp_connection_handle_websocket_handshake w i s id u).Healthy := by
  obtain ⟨created, on_connect, uv_read_start, node_alloc⟩ := u
  cases created with
  | false => exact h
  | true =>
    obtain ⟨hunlisted, hopen⟩ := horderly rfl
    have hnone : ∀ other ∈ w.listed, ∀ o ∈ w.objects other, o.owner ≠ i := by
      intro other hother o ho howner
      rw [lists_iff.mpr ⟨other, hother, o, ho, howner⟩] at hunlisted
      cases hunlisted
    have hadopted := h.adopt hs hnew hnone
    have hcarried : ({ s with ws_connection := some id } : Socket) ∈
        ((w.set_object id (some ⟨i, true, false⟩)).set_socket i { s with ws_connection := some id }).sockets i :=
      set_socket_self
    rw [uvhttp_connection_handle_websocket_handshake]
    cases on_connect with
    | false =>
      have hclosed := websocket_close_healthy hadopted hcarried hfreed
      rw [uvhttp_connection_websocket_close, release_websocket_set_socket] at hclosed
      exact hclosed
    | true =>
      have hpossible : (Event.call (.uvhttp_connection_switch_to_websocket uv_read_start)).Possible s.conn := hfreed
      have hsound := (step_moves (h.sound i s hs) hpossible).sound
      have hunlisted' : ∀ other ∈ w.listed, other ≠ id := by
        rintro other hother rfl
        obtain ⟨o, ho, -⟩ := h.known other hother
        rw [hnew] at ho
        cases ho
      have hswitched := hadopted.set_conn hcarried hsound (by
        intro _ other hother o ho howner
        change o ∈ (w.set_object id (some ⟨i, true, false⟩)).objects other at ho
        rw [set_object_of_ne (hunlisted' other hother)] at ho
        exact absurd howner (hnone other hother o ho))
      rw [set_socket_twice] at hswitched
      cases node_alloc with
      | false => exact hswitched
      | true =>
        have hlive : w.manager.isSome = true →
            Live (connection.step s.conn (.call (.uvhttp_connection_switch_to_websocket uv_read_start))).1 := by
          intro hmanager
          obtain ⟨hstate, hread⟩ := hopen rfl rfl hmanager
          apply step_live (live_of_sound (h.sound i s hs) hstate hfreed) hpossible
          · rw [closes_plainly, hread]
            rfl
          · nofun
        exact hswitched.add_connection set_socket_self rfl hlive fun hid => hunlisted' id hid rfl

theorem ws_server_step_healthy (h : w.Healthy) {event : WsServerEvent} (hpossible : event.Possible w)
    (horderly : event.Orderly w) : (ws_server_step w event).1.Healthy := by
  cases event with
  | accept i =>
    have hnew : w.sockets i = none := hpossible
    apply h.set_socket (.live live_new)
    · rintro id ⟨⟩
    · intro id hid o ho howner
      obtain ⟨o', ho', s, hs, -⟩ := h.known id hid
      obtain rfl := Option.mem_unique ho ho'
      rw [howner, hnew] at hs
      cases hs
  | conn i event =>
    obtain ⟨s, hs, hpossible⟩ := hpossible
    rw [ws_server_step, Option.mem_def.mp hs]
    exact conn_step_healthy h hs hpossible (horderly s hs)
  | websocket_handshake i id u =>
    obtain ⟨hnew, s, hs, hfreed⟩ := hpossible
    rw [ws_server_step, Option.mem_def.mp hs]
    exact handshake_healthy h hs hfreed hnew (horderly s hs)
  | websocket_read i read =>
    obtain ⟨s, hs, hfreed⟩ := hpossible
    rw [ws_server_step, Option.mem_def.mp hs]
    exact websocket_read_healthy h hs hfreed read
  | enable_connection_management => exact h.drop (List.nil_sublist _)
  | disable_connection_management => exact h.drop (List.nil_sublist _)
  | sweep goes =>
    apply h.drop
    rw [WsServer.listed]
    cases w.manager with
    | none => exact List.nil_sublist _
    | some nodes => exact List.filter_sublist

end running

/-- The manager refers to no dead connection in a run of orderly events. -/
theorem ws_manager_attended {events : List WsServerEvent}
    (hpossible : Enabled ws_server_step (fun w event => event.Possible w) ws_server_new events)
    (horderly : Enabled ws_server_step (fun w event => event.Orderly w) ws_server_new events) :
    (run ws_server_step ws_server_new events).Attended := by
  have hhealthy := history_invariant (fun w _ _ => w.Healthy) healthy_new
    (fun _ _ _ _ h hevent => ws_server_step_healthy h hevent.1 hevent.2) (enabled_and hpossible horderly)
  exact hhealthy.attended

/-- A connection with a WebSocket in the list of the manager. -/
def upgraded_client : List WsServerEvent :=
  [.enable_connection_management, .accept 0, .conn 0 (.call (.uvhttp_connection_start true none)),
    .websocket_handshake 0 7 ⟨true, true, true, true⟩]

/-- The end of the stream closes the connection, and its handles call back. -/
def ended_client : List WsServerEvent :=
  upgraded_client ++ [.websocket_read 0 .ended, .conn 0 (.handle_closed .idle_handle),
    .conn 0 (.handle_closed .timeout_timer), .conn 0 (.handle_closed .tcp_handle)]

/-- The timer that was armed before the handshake closes the connection instead. -/
def timed_out_client : List WsServerEvent :=
  upgraded_client ++ [.conn 0 (.call .connection_timeout_cb), .conn 0 (.handle_closed .idle_handle),
    .conn 0 (.handle_closed .timeout_timer), .conn 0 (.handle_closed .tcp_handle)]

instance (w : WsServer) : (event : WsServerEvent) → Decidable (event.Possible w)
  | .accept i => decidable_of_iff ((w.sockets i).isNone = true) Option.isNone_iff_eq_none
  | .conn i event => inferInstanceAs (Decidable (∃ s ∈ w.sockets i, event.Possible s.conn))
  | .websocket_handshake i id _ =>
    inferInstanceAs (Decidable (w.objects id = none ∧ ∃ s ∈ w.sockets i, s.conn.freed = false))
  | .websocket_read i _ => inferInstanceAs (Decidable (∃ s ∈ w.sockets i, s.conn.freed = false))
  | .enable_connection_management => inferInstanceAs (Decidable True)
  | .disable_connection_management => inferInstanceAs (Decidable True)
  | .sweep _ => inferInstanceAs (Decidable True)

instance (w : WsServer) : (event : WsServerEvent) → Decidable (event.Orderly w)
  | .conn i event =>
    inferInstanceAs (Decidable (∀ s ∈ w.sockets i, w.lists i = true → closes_plainly s.conn event = false))
  | .websocket_handshake i _ u =>
    inferInstanceAs (Decidable (∀ s ∈ w.sockets i, u.created = true →
      w.lists i = false ∧
        (u.on_connect = true → u.node_alloc = true → w.manager.isSome = true →
          s.conn.state ≠ .CLOSING ∧ read_starts s.conn u.uv_read_start = true)))
  | .accept _ => inferInstanceAs (Decidable True)
  | .websocket_read _ _ => inferInstanceAs (Decidable True)
  | .enable_connection_management => inferInstanceAs (Decidable True)
  | .disable_connection_management => inferInstanceAs (Decidable True)
  | .sweep _ => inferInstanceAs (Decidable True)

theorem ws_manager_attended_ended : (run ws_server_step ws_server_new ended_client).Attended :=
  ws_manager_attended (by decide) (by decide)

/-- The node of a connection that has timed out refers to it after it has been freed. -/
theorem ws_manager_unattended :
    Enabled ws_server_step (fun w event => event.Possible w) ws_server_new timed_out_client ∧
      ¬(run ws_server_step ws_server_new timed_out_client).Attended := by
  refine ⟨by decide, ?_⟩
  intro hattended
  have halive := hattended.alive 7 (by decide)
  revert halive
  decide

end uvhttp.server
