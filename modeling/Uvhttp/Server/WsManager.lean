import Uvhttp.Lib.ForwardList
import Uvhttp.WebSocket.Heartbeat

open forward_list

namespace uvhttp.server

/-- A `ws_connection_node_t` with the connection it is for and the path. -/
structure WsConnectionNode extends websocket.WsNode where
  ws_conn : Nat
  path : List UInt8
  deriving DecidableEq, Repr

/-- `ws_connection_manager_t`. -/
structure WsManager where
  connections : Chain WsConnectionNode
  connection_count : Int
  timeout_seconds : Int
  heartbeat_interval : Int
  ping_timeout_ms : UInt64
  enabled : Bool

/-- The manager `uvhttp_server_ws_enable_connection_management` creates, its
allocation and its timers being there. -/
def uvhttp_server_ws_enable_connection_management (timeout_seconds heartbeat_interval : Int) : Option WsManager :=
  if timeout_seconds < 10 || timeout_seconds > 3600 then none
  else if heartbeat_interval < 5 || heartbeat_interval > 300 then none
  else some {
    connections := ⟨fun _ => none, none⟩
    connection_count := 0
    timeout_seconds, heartbeat_interval
    ping_timeout_ms := 10000
    enabled := true }

/-- The node for a new connection. -/
def new_node (now : UInt64) (ws_conn : Nat) (path : List UInt8) : WsConnectionNode where
  ws_conn
  path := uvhttp_safe_strncpy 4096 path
  last_activity := now
  last_ping_sent := 0
  ping_pending := false

section manager

variable (fuel : Nat) (now : UInt64) (manager : WsManager)

def uvhttp_server_ws_add_connection (alloc : Allocator WsConnectionNode) (ws_conn : Option Nat)
    (path : Option (List UInt8)) : WsManager :=
  match ws_conn, path with
  | some ws_conn, some path =>
    if !manager.enabled then manager
    else
      match alloc.alloc manager.connections.cells with
      | none => manager
      | some p =>
        { manager with
          connections := manager.connections.push p (new_node now ws_conn path)
          connection_count := manager.connection_count + 1 }
  | _, _ => manager

def uvhttp_server_ws_remove_connection (ws_conn : Option Nat) : Option WsManager :=
  match ws_conn with
  | none => some manager
  | some ws_conn =>
    if !manager.enabled then some manager
    else do
      let (connections, gone) ←
        manager.connections.take_out (fun node => node.ws_conn = ws_conn) fuel none manager.connections.head
      some { manager with connections, connection_count := manager.connection_count - gone.toList.length }

/-- The loop of the timeout timer and of `uvhttp_server_ws_close_all`: the nodes that
go are closed, taken out and counted off. The connections closed, in order. -/
def close_nodes (goes : WsConnectionNode → Bool) : Option (WsManager × List Nat) := do
  let (connections, gone) ← manager.connections.sweep goes fuel none manager.connections.head
  some ({ manager with connections, connection_count := manager.connection_count - gone.length },
    gone.map WsConnectionNode.ws_conn)

def ws_timeout_timer_callback : Option (WsManager × List Nat) :=
  let timeout_ms := UInt64.ofInt (manager.timeout_seconds * 1000)
  close_nodes fuel manager fun node => now - node.last_activity > timeout_ms

/-- Without a path every connection is closed. -/
def uvhttp_server_ws_close_all (path : Option (List UInt8)) : Option (WsManager × List Nat) :=
  close_nodes fuel manager fun node =>
    match path with
    | none => true
    | some path => node.path = path

def uvhttp_server_ws_update_activity (ws_conn : Option Nat) : Option WsManager :=
  match ws_conn with
  | none => some manager
  | some ws_conn =>
    if !manager.enabled then some manager
    else do
      let connections ← manager.connections.alter (fun node => node.ws_conn = ws_conn)
        (fun node => { node with toWsNode := websocket.uvhttp_server_ws_update_activity now node.toWsNode })
        fuel manager.connections.head
      some { manager with connections }

/-- What a round of the heartbeat does to a node, given which connections are open and
for which the Ping can be sent. Closing after a Ping timeout leaves the node as it is. -/
def beat_node (is_open sent : Nat → Bool) (node : WsConnectionNode) : WsConnectionNode :=
  if is_open node.ws_conn && !node.ping_pending && sent node.ws_conn then
    { node with last_ping_sent := now, ping_pending := true }
  else node

def ws_heartbeat_timer_callback (is_open sent : Nat → Bool) : Option WsManager := do
  let connections ← manager.connections.rewrite (beat_node now is_open sent) fuel manager.connections.head
  some { manager with connections }

def uvhttp_server_ws_get_connection_count_by_path (path : Option (List UInt8)) : Option Nat :=
  match path with
  | none => some 0
  | some path => manager.connections.count (fun node => node.path = path) fuel manager.connections.head

end manager

/-- A call that works on the list of the manager. -/
inductive WsCall where
  | add_connection (alloc : Allocator WsConnectionNode) (ws_conn : Option Nat) (path : Option (List UInt8))
  | remove_connection (ws_conn : Option Nat)
  | timeout_timer
  | heartbeat_timer (is_open sent : Nat → Bool)
  | close_all (path : Option (List UInt8))
  | update_activity (ws_conn : Option Nat)

/-- One call at a time of the clock: the manager it leaves and the connections it
closes and takes out. -/
def ws_step (fuel : Nat) (now : UInt64) (manager : WsManager) : WsCall → Option (WsManager × List Nat)
  | .add_connection alloc ws_conn path => some (uvhttp_server_ws_add_connection now manager alloc ws_conn path, [])
  | .remove_connection ws_conn => (uvhttp_server_ws_remove_connection fuel manager ws_conn).map (·, [])
  | .timeout_timer => ws_timeout_timer_callback fuel now manager
  | .heartbeat_timer is_open sent => (ws_heartbeat_timer_callback fuel now manager is_open sent).map (·, [])
  | .close_all path => uvhttp_server_ws_close_all fuel manager path
  | .update_activity ws_conn => (uvhttp_server_ws_update_activity fuel now manager ws_conn).map (·, [])

section exactness

variable (timeout_seconds : Int) (now : UInt64)

/-- The node has been idle for longer than the timeout. -/
def Idle (node : WsConnectionNode) : Prop :=
  (now.toNat : Int) - node.last_activity.toNat > timeout_seconds * 1000

instance (node : WsConnectionNode) : Decidable (Idle timeout_seconds now node) := inferInstanceAs (Decidable (_ < _))

/-- The node is on the path, if one is given. -/
def OnPath (path : Option (List UInt8)) (node : WsConnectionNode) : Prop := path = none ∨ path = some node.path

instance (path : Option (List UInt8)) (node : WsConnectionNode) : Decidable (OnPath path node) :=
  inferInstanceAs (Decidable (_ ∨ _))

/-- The node of a connection with its activity at hand, and no Ping under way. -/
def refreshed (node : WsConnectionNode) : WsConnectionNode :=
  { node with last_activity := now, ping_pending := false }

/-- The nodes a call makes of the list, and the connections it closes. Where no
connection is listed twice, removal and activity concern its only node. -/
def WsCall.Exact (cells : Nat → Option (Cell WsConnectionNode)) (nodes nodes' : List WsConnectionNode)
    (closed : List Nat) : WsCall → Prop
  | .add_connection alloc ws_conn path =>
    closed = [] ∧
      nodes' = match ws_conn, path, alloc.alloc cells with
        | some ws_conn, some path, some _ => new_node now ws_conn path :: nodes
        | _, _, _ => nodes
  | .remove_connection ws_conn =>
    closed = [] ∧ nodes' = nodes.eraseP (fun node => some node.ws_conn = ws_conn) ∧
      ((nodes.map WsConnectionNode.ws_conn).Nodup → nodes' = nodes.filter fun node => some node.ws_conn ≠ ws_conn)
  | .timeout_timer =>
    closed = (nodes.filter fun node => Idle timeout_seconds now node).map WsConnectionNode.ws_conn ∧
      nodes' = nodes.filter fun node => ¬Idle timeout_seconds now node
  | .heartbeat_timer is_open sent => closed = [] ∧ nodes' = nodes.map (beat_node now is_open sent)
  | .close_all path =>
    closed = (nodes.filter fun node => OnPath path node).map WsConnectionNode.ws_conn ∧
      nodes' = nodes.filter fun node => ¬OnPath path node
  | .update_activity ws_conn =>
    closed = [] ∧ nodes' = alter_first (fun node => some node.ws_conn = ws_conn) (refreshed now) nodes ∧
      ((nodes.map WsConnectionNode.ws_conn).Nodup →
        nodes' = nodes.map fun node => if some node.ws_conn = ws_conn then refreshed now node else node)

end exactness

/-- The list of the manager is made of these nodes, its counter is their number, and so
is the sum of the counts of their paths. -/
structure WsManager.Lists (fuel : Nat) (manager : WsManager) (nodes : List WsConnectionNode) : Prop where
  represents : manager.connections.Represents nodes
  counted : manager.connection_count = nodes.length
  by_path : ∃ counts : List Nat,
    ((nodes.map WsConnectionNode.path).dedup.mapM fun path =>
      uvhttp_server_ws_get_connection_count_by_path fuel manager (some path)) = some counts ∧
    (counts.sum : Int) = manager.connection_count

/-- Every call returns, does to the list exactly what it is for and leaves a list the
counters agree with. -/
def WsManager.ExactRun (fuel : Nat) (timeout_seconds : Int) :
    WsManager → List WsConnectionNode → List (UInt64 × WsCall) → Prop
  | _, _, [] => True
  | manager, nodes, (now, call) :: calls =>
    ∃ manager' nodes' closed, ws_step fuel now manager call = some (manager', closed) ∧
      call.Exact timeout_seconds now manager.connections.cells nodes nodes' closed ∧ manager'.Lists fuel nodes' ∧
      ExactRun fuel timeout_seconds manager' nodes' calls

/-- What holds of the manager at a time of the clock. -/
structure WsManager.Keeps (timeout_seconds : Int) (now : UInt64) (manager : WsManager)
    (nodes : List WsConnectionNode) : Prop where
  represents : manager.connections.Represents nodes
  counted : manager.connection_count = nodes.length
  enabled : manager.enabled = true
  timeout : manager.timeout_seconds = timeout_seconds
  past : ∀ node ∈ nodes, node.last_activity ≤ now

section steps

variable {timeout_seconds : Int} {now : UInt64} {manager : WsManager} {nodes : List WsConnectionNode} {fuel : Nat}

theorem enabled_manager {heartbeat_interval : Int}
    (h : uvhttp_server_ws_enable_connection_management timeout_seconds heartbeat_interval = some manager) :
    (10 ≤ timeout_seconds ∧ timeout_seconds ≤ 3600) ∧ manager.Keeps timeout_seconds now [] := by
  rw [uvhttp_server_ws_enable_connection_management] at h
  split_ifs at h with htimeout hinterval
  simp only [Bool.or_eq_true, decide_eq_true_eq, not_or, not_lt, gt_iff_lt] at htimeout
  obtain rfl := Option.some.inj h
  exact ⟨htimeout, empty_represents, rfl, rfl, rfl, fun node hnode => absurd hnode List.not_mem_nil⟩

/-- The test of the timer on machine integers, the clock not having gone back. -/
theorem idle_iff (hlow : 10 ≤ timeout_seconds) (hhigh : timeout_seconds ≤ 3600) {node : WsConnectionNode}
    (hpast : node.last_activity ≤ now) :
    now - node.last_activity > UInt64.ofInt (timeout_seconds * 1000) ↔ Idle timeout_seconds now node := by
  have htimeout : (UInt64.ofInt (timeout_seconds * 1000)).toNat = (timeout_seconds * 1000).toNat :=
    toNat_ofInt (by omega) (by omega)
  rw [gt_iff_lt, UInt64.lt_iff_toNat_lt, htimeout, UInt64.toNat_sub_of_le _ _ hpast, Idle]
  rw [UInt64.le_iff_toNat_le] at hpast
  omega

/-- Calling off nodes takes them off the list and off the counter. -/
theorem close_nodes_spec (hkeeps : manager.Keeps timeout_seconds now nodes) (hfuel : nodes.length ≤ fuel)
    (goes : WsConnectionNode → Bool) :
    ∃ manager', close_nodes fuel manager goes =
        some (manager', (nodes.filter goes).map WsConnectionNode.ws_conn) ∧
      manager'.Keeps timeout_seconds now (nodes.filter fun node => !goes node) := by
  obtain ⟨hrepresents, hcounted, henabled, htimeout, hpast⟩ := hkeeps
  obtain ⟨connections, heq, hleft⟩ := hrepresents.sweep goes hfuel
  simp only [close_nodes, heq, Option.bind_eq_bind, Option.bind_some]
  refine ⟨_, rfl, hleft, ?_, henabled, htimeout, ?_⟩
  · have hlength := nodes.length_eq_length_filter_add goes
    simp only [hcounted]
    omega
  · intro node hnode
    exact hpast node (List.mem_filter.mp hnode).1

/-- A call does to the nodes what it is for, and the manager stays in order. -/
structure StepExact (fuel : Nat) (timeout_seconds : Int) (now : UInt64) (manager : WsManager)
    (nodes : List WsConnectionNode) (call : WsCall) (manager' : WsManager) (nodes' : List WsConnectionNode)
    (closed : List Nat) : Prop where
  returns : ws_step fuel now manager call = some (manager', closed)
  exact : call.Exact timeout_seconds now manager.connections.cells nodes nodes' closed
  keeps : manager'.Keeps timeout_seconds now nodes'
  grows : nodes'.length ≤ nodes.length + 1

theorem add_connection_exact (hkeeps : manager.Keeps timeout_seconds now nodes) (alloc : Allocator WsConnectionNode)
    (ws_conn : Option Nat) (path : Option (List UInt8)) :
    ∃ manager' nodes' closed, StepExact fuel timeout_seconds now manager nodes
      (.add_connection alloc ws_conn path) manager' nodes' closed := by
  cases ws_conn with
  | none => exact ⟨manager, nodes, [], rfl, ⟨rfl, rfl⟩, hkeeps, by omega⟩
  | some ws_conn =>
    cases path with
    | none => exact ⟨manager, nodes, [], rfl, ⟨rfl, rfl⟩, hkeeps, by omega⟩
    | some path =>
      cases halloc : alloc.alloc manager.connections.cells with
      | none =>
        refine ⟨manager, nodes, [], ?_, ⟨rfl, ?_⟩, hkeeps, by omega⟩
        · simp only [ws_step, uvhttp_server_ws_add_connection, hkeeps.enabled, halloc, Bool.not_true,
            Bool.false_eq_true, if_false]
        · simp only [halloc]
      | some p =>
        obtain ⟨hrepresents, hcounted, henabled, htimeout, hpast⟩ := hkeeps
        have hpushed := hrepresents.push (alloc.unused halloc) (new_node now ws_conn path)
        refine ⟨_, new_node now ws_conn path :: nodes, [], rfl, ⟨rfl, ?_⟩, ?_, ?_⟩
        · simp only [halloc]
        · simp only [uvhttp_server_ws_add_connection, henabled, halloc, Bool.not_true, Bool.false_eq_true, if_false]
          refine ⟨hpushed, ?_, rfl, htimeout, ?_⟩
          · simp only [hcounted, List.length_cons, Nat.cast_add, Nat.cast_one]
          · intro node hnode
            rcases List.mem_cons.mp hnode with rfl | hold
            · exact UInt64.le_refl now
            · exact hpast node hold
        · exact Nat.le_refl _

/-- Where no connection is listed twice, at most one node is that of a connection. -/
theorem nodes_unique (hnodup : (nodes.map WsConnectionNode.ws_conn).Nodup) (ws_conn : Option Nat) :
    nodes.Pairwise fun a b =>
      ¬(decide (some a.ws_conn = ws_conn) = true ∧ decide (some b.ws_conn = ws_conn) = true) := by
  apply pairwise_key
  have hsome := hnodup.map (Option.some_injective _)
  rw [List.map_map] at hsome
  exact hsome

theorem remove_connection_exact (hkeeps : manager.Keeps timeout_seconds now nodes) (hfuel : nodes.length ≤ fuel)
    (ws_conn : Option Nat) :
    ∃ manager' nodes' closed, StepExact fuel timeout_seconds now manager nodes
      (.remove_connection ws_conn) manager' nodes' closed := by
  have hunique : (nodes.map WsConnectionNode.ws_conn).Nodup →
      nodes.eraseP (fun node => some node.ws_conn = ws_conn) =
        nodes.filter fun node => some node.ws_conn ≠ ws_conn := by
    intro hnodup
    rw [eraseP_eq_filter (nodes_unique hnodup ws_conn)]
    simp only [decide_not]
  refine (?_ : ∃ manager', ws_step fuel now manager (.remove_connection ws_conn) = some (manager', []) ∧
    manager'.Keeps timeout_seconds now (nodes.eraseP fun node => some node.ws_conn = ws_conn)).elim ?_
  · cases ws_conn with
    | none =>
      refine ⟨manager, rfl, ?_⟩
      rw [List.eraseP_of_forall_not (by simp)]
      exact hkeeps
    | some ws_conn =>
      obtain ⟨hrepresents, hcounted, henabled, htimeout, hpast⟩ := hkeeps
      obtain ⟨connections, heq, hleft⟩ := hrepresents.take_out (fun node => node.ws_conn = ws_conn) hfuel
      simp only [ws_step, uvhttp_server_ws_remove_connection, henabled, heq, Bool.not_true, Bool.false_eq_true,
        if_false, Option.bind_eq_bind, Option.bind_some, Option.map_some, Option.some.injEq]
      refine ⟨_, rfl, hleft, ?_, rfl, htimeout, ?_⟩
      · have hlength := @length_eraseP_add_find? _ (fun node => decide (node.ws_conn = ws_conn)) nodes
        simp only [hcounted]
        omega
      · intro node hnode
        exact hpast node (List.mem_of_mem_eraseP hnode)
  · rintro manager' ⟨hreturns, hleft⟩
    refine ⟨manager', _, [], hreturns, ⟨rfl, rfl, hunique⟩, hleft, ?_⟩
    exact Nat.le_succ_of_le List.length_eraseP_le

theorem timeout_timer_exact (hkeeps : manager.Keeps timeout_seconds now nodes) (hfuel : nodes.length ≤ fuel)
    (hlow : 10 ≤ timeout_seconds) (hhigh : timeout_seconds ≤ 3600) :
    ∃ manager' nodes' closed, StepExact fuel timeout_seconds now manager nodes
      .timeout_timer manager' nodes' closed := by
  obtain ⟨manager', hreturns, hleft⟩ := close_nodes_spec hkeeps hfuel
    fun node => now - node.last_activity > UInt64.ofInt (manager.timeout_seconds * 1000)
  rw [hkeeps.timeout] at hreturns hleft
  have hidle : ∀ node ∈ nodes, decide (now - node.last_activity > UInt64.ofInt (timeout_seconds * 1000)) =
      decide (Idle timeout_seconds now node) := by
    intro node hnode
    exact decide_eq_decide.mpr (idle_iff hlow hhigh (hkeeps.past node hnode))
  rw [List.filter_congr hidle] at hreturns
  have hstep : ws_step fuel now manager .timeout_timer = close_nodes fuel manager fun node =>
      now - node.last_activity > UInt64.ofInt (timeout_seconds * 1000) := by
    rw [ws_step, ws_timeout_timer_callback, hkeeps.timeout]
  refine ⟨manager', _, _, hstep.trans hreturns, ⟨rfl, ?_⟩, hleft, ?_⟩
  · apply List.filter_congr
    intro node hnode
    rw [hidle node hnode, decide_not]
  · exact Nat.le_succ_of_le (List.length_filter_le _ _)

theorem close_all_exact (hkeeps : manager.Keeps timeout_seconds now nodes) (hfuel : nodes.length ≤ fuel)
    (path : Option (List UInt8)) :
    ∃ manager' nodes' closed, StepExact fuel timeout_seconds now manager nodes
      (.close_all path) manager' nodes' closed := by
  have htest : (fun node : WsConnectionNode =>
      match path with
      | none => true
      | some path => decide (node.path = path)) = fun node => decide (OnPath path node) := by
    funext node
    cases path with
    | none => simp [OnPath]
    | some path => simp [OnPath, eq_comm]
  obtain ⟨manager', hreturns, hleft⟩ := close_nodes_spec hkeeps hfuel fun node => OnPath path node
  have hstep : ws_step fuel now manager (.close_all path) = close_nodes fuel manager fun node => OnPath path node := by
    rw [ws_step, uvhttp_server_ws_close_all, htest]
  refine ⟨manager', _, _, hstep.trans hreturns, ⟨rfl, ?_⟩, hleft, ?_⟩
  · simp only [decide_not]
  · exact Nat.le_succ_of_le (List.length_filter_le _ _)

theorem update_activity_exact (hkeeps : manager.Keeps timeout_seconds now nodes) (hfuel : nodes.length ≤ fuel)
    (ws_conn : Option Nat) :
    ∃ manager' nodes' closed, StepExact fuel timeout_seconds now manager nodes
      (.update_activity ws_conn) manager' nodes' closed := by
  have hunique : (nodes.map WsConnectionNode.ws_conn).Nodup →
      alter_first (fun node => some node.ws_conn = ws_conn) (refreshed now) nodes =
        nodes.map fun node => if some node.ws_conn = ws_conn then refreshed now node else node := by
    intro hnodup
    rw [alter_first_eq_map (refreshed now) (nodes_unique hnodup ws_conn)]
    simp only [decide_eq_true_eq]
  refine (?_ : ∃ manager', ws_step fuel now manager (.update_activity ws_conn) = some (manager', []) ∧
    manager'.Keeps timeout_seconds now
      (alter_first (fun node => some node.ws_conn = ws_conn) (refreshed now) nodes)).elim ?_
  · cases ws_conn with
    | none =>
      refine ⟨manager, rfl, ?_⟩
      rw [alter_first_of_forall_not (refreshed now) (by simp)]
      exact hkeeps
    | some ws_conn =>
      obtain ⟨hrepresents, hcounted, henabled, htimeout, hpast⟩ := hkeeps
      obtain ⟨connections, heq, hleft⟩ := hrepresents.alter (fun node => node.ws_conn = ws_conn) (refreshed now) hfuel
      have hchange : (fun node : WsConnectionNode =>
          { node with toWsNode := websocket.uvhttp_server_ws_update_activity now node.toWsNode }) = refreshed now := rfl
      simp only [ws_step, uvhttp_server_ws_update_activity, henabled, hchange, heq, Bool.not_true, Bool.false_eq_true,
        if_false, Option.bind_eq_bind, Option.bind_some, Option.map_some, Option.some.injEq]
      refine ⟨_, rfl, hleft, ?_, rfl, htimeout, ?_⟩
      · rw [length_alter_first (refreshed now)]
        exact hcounted
      · intro node hnode
        rcases mem_alter_first hnode with hold | ⟨old, rfl⟩
        · exact hpast node hold
        · exact UInt64.le_refl now
  · rintro manager' ⟨hreturns, hleft⟩
    refine ⟨manager', _, [], hreturns, ⟨rfl, rfl, hunique⟩, hleft, ?_⟩
    rw [length_alter_first (refreshed now)]
    exact Nat.le_succ _

theorem heartbeat_timer_exact (hkeeps : manager.Keeps timeout_seconds now nodes) (hfuel : nodes.length ≤ fuel)
    (is_open sent : Nat → Bool) :
    ∃ manager' nodes' closed, StepExact fuel timeout_seconds now manager nodes
      (.heartbeat_timer is_open sent) manager' nodes' closed := by
  obtain ⟨hrepresents, hcounted, henabled, htimeout, hpast⟩ := hkeeps
  obtain ⟨connections, heq, hleft⟩ := hrepresents.rewrite (beat_node now is_open sent) hfuel
  refine ⟨{ manager with connections }, _, [], ?_, ⟨rfl, rfl⟩, ⟨hleft, ?_, henabled, htimeout, ?_⟩, ?_⟩
  · simp only [ws_step, ws_heartbeat_timer_callback, heq, Option.bind_eq_bind, Option.bind_some, Option.map_some]
  · rw [List.length_map]
    exact hcounted
  · intro node hnode
    obtain ⟨old, hold, rfl⟩ := List.mem_map.mp hnode
    rw [beat_node]
    split_ifs with hping
    · exact hpast old hold
    · exact hpast old hold
  · rw [List.length_map]
    exact Nat.le_succ _

theorem ws_step_exact (hkeeps : manager.Keeps timeout_seconds now nodes) (hfuel : nodes.length ≤ fuel)
    (hlow : 10 ≤ timeout_seconds) (hhigh : timeout_seconds ≤ 3600) (call : WsCall) :
    ∃ manager' nodes' closed, StepExact fuel timeout_seconds now manager nodes call manager' nodes' closed := by
  cases call with
  | add_connection alloc ws_conn path => exact add_connection_exact hkeeps alloc ws_conn path
  | remove_connection ws_conn => exact remove_connection_exact hkeeps hfuel ws_conn
  | timeout_timer => exact timeout_timer_exact hkeeps hfuel hlow hhigh
  | heartbeat_timer is_open sent => exact heartbeat_timer_exact hkeeps hfuel is_open sent
  | close_all path => exact close_all_exact hkeeps hfuel path
  | update_activity ws_conn => exact update_activity_exact hkeeps hfuel ws_conn

/-- The connections counted path by path are all connections. -/
theorem WsManager.Keeps.lists (hkeeps : manager.Keeps timeout_seconds now nodes) (hfuel : nodes.length ≤ fuel) :
    manager.Lists fuel nodes := by
  refine ⟨hkeeps.represents, hkeeps.counted, ?_⟩
  have hcount : ∀ path, uvhttp_server_ws_get_connection_count_by_path fuel manager (some path) =
      some ((nodes.map WsConnectionNode.path).countP fun p => instBEqOfDecidableEq.beq p path) := by
    intro path
    rw [uvhttp_server_ws_get_connection_count_by_path, hkeeps.represents.count _ hfuel, List.countP_map]
    rfl
  simp only [hcount]
  refine ⟨_, List.mapM_pure, ?_⟩
  have hsum := List.sum_map_count_dedup_eq_length (nodes.map WsConnectionNode.path)
  rw [List.length_map] at hsum
  rw [hkeeps.counted, Nat.cast_inj]
  exact hsum

theorem WsManager.Keeps.later {later : UInt64} (hkeeps : manager.Keeps timeout_seconds now nodes)
    (hlater : now ≤ later) : manager.Keeps timeout_seconds later nodes := by
  refine { hkeeps with past := ?_ }
  intro node hnode
  exact UInt64.le_trans (hkeeps.past node hnode) hlater

theorem exact_run (hlow : 10 ≤ timeout_seconds) (hhigh : timeout_seconds ≤ 3600) {calls : List (UInt64 × WsCall)}
    (hkeeps : manager.Keeps timeout_seconds now nodes) (hfuel : nodes.length + calls.length ≤ fuel)
    (hclock : (now :: calls.map Prod.fst).Pairwise (· ≤ ·)) :
    manager.ExactRun fuel timeout_seconds nodes calls := by
  induction calls generalizing now manager nodes with
  | nil => trivial
  | cons call calls ih =>
    obtain ⟨later, call⟩ := call
    rw [List.length_cons] at hfuel
    rw [List.map_cons, List.pairwise_cons] at hclock
    have hlater : now ≤ later := hclock.1 later List.mem_cons_self
    obtain ⟨manager', nodes', closed, hreturns, hexact, hkept, hgrows⟩ :=
      @ws_step_exact timeout_seconds later manager nodes fuel (hkeeps.later hlater) (by omega) hlow hhigh call
    refine ⟨manager', nodes', closed, hreturns, hexact, hkept.lists (by omega), ?_⟩
    exact ih hkept (by omega) hclock.2

end steps

/-- The list operations of the connection manager, for any calls at times that do not
go back. -/
theorem manager_list_exact {timeout_seconds heartbeat_interval : Int} {manager : WsManager}
    (hcreated : uvhttp_server_ws_enable_connection_management timeout_seconds heartbeat_interval = some manager)
    {calls : List (UInt64 × WsCall)} (hclock : (calls.map Prod.fst).Pairwise (· ≤ ·)) {fuel : Nat}
    (hfuel : calls.length ≤ fuel) : manager.ExactRun fuel timeout_seconds [] calls := by
  obtain ⟨⟨hlow, hhigh⟩, hkeeps⟩ := @enabled_manager timeout_seconds 0 manager heartbeat_interval hcreated
  apply exact_run hlow hhigh hkeeps
  · rw [List.length_nil, Nat.zero_add]
    exact hfuel
  · rw [List.pairwise_cons]
    refine ⟨?_, hclock⟩
    intro now _
    rw [UInt64.le_iff_toNat_le]
    exact Nat.zero_le _

/-- Two connections of which the first to come stays active, the timer, and the closing
of a path. -/
def two_connections : List (UInt64 × WsCall) :=
  [(5, .add_connection Allocator.two (some 7) (some [47])), (6, .add_connection Allocator.two (some 8) (some [47, 97])),
    (9000, .update_activity (some 7)), (10007, .timeout_timer), (10008, .close_all (some [47])),
    (10009, .remove_connection (some 7))]

theorem manager_list_exact_two : ∃ manager, uvhttp_server_ws_enable_connection_management 10 5 = some manager ∧
    manager.ExactRun 6 10 [] two_connections :=
  ⟨_, rfl, @manager_list_exact 10 5 _ rfl two_connections (by decide) 6 (by decide)⟩

end uvhttp.server
