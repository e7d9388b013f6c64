import Uvhttp.Lib.Addressed
import Uvhttp.Server.WsManager
import Uvhttp.WebSocket.Delivery
import Uvhttp.WebSocket.Reassembly
import Uvhttp.WebSocket.Transport

open addressed forward_list incremental
open uvhttp.websocket

namespace uvhttp.server

/-- A WebSocket object, and the bytes that have been handed to its transport. -/
structure Line where
  conn : WsConnection
  wire : List UInt8

/-- A server with connection management, and the WebSocket objects at their addresses. -/
structure Hub where
  manager : WsManager
  lines : Nat → Line

/-- The error codes of the calls on one connection. -/
inductive WsCallResult where
  | OK
  | INVALID_PARAM
  | WEBSOCKET_FRAME
  deriving DecidableEq, Repr

section hub

variable (env : Nat → WsEnv)

/-- One call that sends on a WebSocket object. -/
def Line.send (p : Nat) (line : Line) (op : WsSend) : Line :=
  let sent := op.perform (env p) line.conn
  ⟨sent.2.1, line.wire ++ emitted sent.2.2⟩

def Hub.send (h : Hub) (p : Nat) (op : WsSend) : Hub := { h with lines := apply (Line.send env) h.lines (p, op) }

def uvhttp_server_ws_send (h : Hub) (p : Nat) (data : List UInt8) : WsCallResult × Hub :=
  if data = [] then (.INVALID_PARAM, h)
  else
    let result := ((WsSend.text data).perform (env p) (h.lines p).conn).1
    (if result ≠ .OK then .WEBSOCKET_FRAME else .OK, h.send env p (.text data))

def uvhttp_server_ws_close (h : Hub) (p : Nat) (code : Int) (reason : Option (List UInt8)) : WsCallResult × Hub :=
  let result := ((WsSend.close code reason).perform (env p) (h.lines p).conn).1
  (if result ≠ .OK then .WEBSOCKET_FRAME else .OK, h.send env p (.close code reason))

/-- The body of the loop of `uvhttp_server_ws_broadcast`: it never ends the walk. -/
def broadcast_node (path : Option (List UInt8)) (data : List UInt8) (node : WsConnectionNode) (h : Hub) : Bool × Hub :=
  (false,
    if OnPath path node then
      if (h.lines node.ws_conn).conn.state = .OPEN then h.send env node.ws_conn (.text data) else h
    else h)

def uvhttp_server_ws_broadcast (fuel : Nat) (h : Hub) (path : Option (List UInt8)) (data : List UInt8) :
    Option (UvhttpError × Hub) :=
  if data = [] then some (.INVALID_PARAM, h)
  else do
    let (_, h) ← h.manager.connections.seek (broadcast_node env path data) fuel h.manager.connections.head h
    some (.OK, h)

/-- The body of the loop of `ws_heartbeat_timer_callback`, on the node and the connections. -/
def beat_line (ping_timeout_ms now : UInt64) (node : WsConnectionNode) (lines : Nat → Line) :
    WsConnectionNode × (Nat → Line) :=
  let p := node.ws_conn
  if (lines p).conn.state = .OPEN then
    if !node.ping_pending then
      let result := ((WsSend.ping []).perform (env p) (lines p).conn).1
      (if result = .OK then { node with last_ping_sent := now, ping_pending := true } else node,
        apply (Line.send env) lines (p, .ping []))
    else if now - node.last_ping_sent > ping_timeout_ms then
      (node, apply (Line.send env) lines (p, .close 1000 (some (bytes "Ping timeout"))))
    else (node, lines)
  else (node, lines)

def Hub.ws_heartbeat_timer_callback (fuel : Nat) (now : UInt64) (h : Hub) : Option Hub := do
  let (connections, lines) ←
    h.manager.connections.rewrite_with (beat_line env h.manager.ping_timeout_ms now) fuel h.manager.connections.head
      h.lines
  some ⟨{ h.manager with connections }, lines⟩

/-- The round of the heartbeat, which sends frames while it walks along the list. -/
def WsCall.is_heartbeat : WsCall → Bool
  | .heartbeat_timer _ _ => true
  | _ => false

/-- What a server does to its WebSocket connections: a call that works on the list of the manager, a
round of the heartbeat, a broadcast, a call on one connection, and a Ping of the application or a Pong
of the receive loop. -/
inductive HubCall where
  | manage (call : WsCall) (hother : call.is_heartbeat = false)
  | heartbeat
  | broadcast (path : Option (List UInt8)) (data : List UInt8)
  | ws_send (ws_conn : Nat) (data : List UInt8)
  | ws_close (ws_conn : Nat) (code : Int) (reason : Option (List UInt8))
  | ping (ws_conn : Nat) (data : List UInt8)
  | pong (ws_conn : Nat) (data : List UInt8)

/-- The reason given to the connections that a call closes. -/
def close_reason : WsCall → List UInt8
  | .timeout_timer => bytes "Connection timeout"
  | _ => bytes "Server closed connection"

/-- One call at a time of the clock. -/
def hub_step (fuel : Nat) (now : UInt64) (h : Hub) : HubCall → Option Hub
  | .manage call _ => do
    let (manager, closed) ← ws_step fuel now h.manager call
    some (closed.foldl (fun h p => h.send env p (.close 1000 (some (close_reason call)))) { h with manager })
  | .heartbeat => h.ws_heartbeat_timer_callback env fuel now
  | .broadcast path data => (uvhttp_server_ws_broadcast env fuel h path data).map Prod.snd
  | .ws_send p data => some (uvhttp_server_ws_send env h p data).2
  | .ws_close p code reason => some (uvhttp_server_ws_close env h p code reason).2
  | .ping p data => some (h.send env p (.ping data))
  | .pong p data => some (h.send env p (.pong data))

/-- What the heartbeat sends on the connection of a node, if that is open: a Ping, or a Close if the last
Ping is overdue. -/
def beat_send (ping_timeout_ms now : UInt64) (lines : Nat → Line) (node : WsConnectionNode) : List (Nat × WsSend) :=
  if (lines node.ws_conn).conn.state = .OPEN then
    if node.ping_pending = false then [(node.ws_conn, .ping [])]
    else if now - node.last_ping_sent > ping_timeout_ms then
      [(node.ws_conn, .close 1000 (some (bytes "Ping timeout")))]
    else []
  else []

/-- What a round of the heartbeat sends, one node after the other. -/
def beat_sends (ping_timeout_ms now : UInt64) : (Nat → Line) → List WsConnectionNode → List (Nat × WsSend)
  | _, [] => []
  | lines, node :: nodes =>
    let sends := beat_send ping_timeout_ms now lines node
    sends ++ beat_sends ping_timeout_ms now (run (Line.send env) lines sends) nodes

/-- What a call does to the nodes of the manager, and the frames it sends to which connections: of a
broadcast, one for each node on the path; of a call that closes connections, a Close for each. Where no
connection is listed twice, the heartbeat sends each what its state before the round asks for. -/
def HubCall.Exact (timeout_seconds : Int) (now : UInt64) (h : Hub) (nodes nodes' : List WsConnectionNode)
    (sends : List (Nat × WsSend)) : HubCall → Prop
  | .manage call _ => ∃ closed, call.Exact timeout_seconds now h.manager.connections.cells nodes nodes' closed ∧
      sends = closed.map fun p => (p, .close 1000 (some (close_reason call)))
  | .heartbeat =>
    nodes' = (map_with (beat_line env h.manager.ping_timeout_ms now) nodes h.lines).1 ∧
      sends = beat_sends env h.manager.ping_timeout_ms now h.lines nodes ∧
      ((nodes.map WsConnectionNode.ws_conn).Nodup →
        nodes' = nodes.map (fun node => (beat_line env h.manager.ping_timeout_ms now node h.lines).1) ∧
          sends = nodes.flatMap (beat_send h.manager.ping_timeout_ms now h.lines))
  | .broadcast path data => nodes' = nodes ∧
      sends = if data = [] then [] else (nodes.filter fun node => OnPath path node).map fun node =>
        (node.ws_conn, .text data)
  | .ws_send p data => nodes' = nodes ∧ sends = if data = [] then [] else [(p, .text data)]
  | .ws_close p code reason => nodes' = nodes ∧ sends = [(p, .close code reason)]
  | .ping p data => nodes' = nodes ∧ sends = [(p, .ping data)]
  | .pong p data => nodes' = nodes ∧ sends = [(p, .pong data)]

end hub

/-- A run of calls with the log of all frames it sends: every call returns and does what it is for, and
each WebSocket object is changed by the frames sent on it and by nothing else. -/
def Hub.Run (env : Nat → WsEnv) (fuel : Nat) (timeout_seconds : Int) :
    Hub → List WsConnectionNode → List (UInt64 × HubCall) → List (Nat × WsSend) → Hub → Prop
  | h, _, [], log, last => log = [] ∧ last = h
  | h, nodes, (now, call) :: calls, log, last =>
    ∃ next nodes' sends later, hub_step env fuel now h call = some next ∧
      call.Exact env timeout_seconds now h nodes nodes' sends ∧
      next.lines = run (Line.send env) h.lines sends ∧ log = sends ++ later ∧
      Hub.Run env fuel timeout_seconds next nodes' calls later last

section steps

variable {env : Nat → WsEnv} {fuel : Nat} {timeout_seconds : Int} {now : UInt64} {h : Hub}
  {nodes : List WsConnectionNode}

/-- Text is not sent on a connection that is not open. -/
theorem send_text_closed {p : Nat} {line : Line} (hclosed : line.conn.state ≠ .OPEN) (data : List UInt8) :
    line.send env p (.text data) = line := by
  have hrefused : (WsSend.text data).perform (env p) line.conn = (.INVALID_PARAM, line.conn, []) := if_pos hclosed
  rw [Line.send, hrefused]
  exact congrArg (Line.mk line.conn) (List.append_nil line.wire)

/-- The walk of a broadcast sends the text to the nodes on the path. -/
theorem broadcast_walk (path : Option (List UInt8)) (data : List UInt8) (nodes : List WsConnectionNode) (h : Hub) :
    seek (broadcast_node env path data) nodes h =
      (none, ⟨h.manager, run (Line.send env) h.lines
        ((nodes.filter fun node => OnPath path node).map fun node => (node.ws_conn, .text data))⟩) := by
  induction nodes generalizing h with
  | nil => rfl
  | cons node nodes ih =>
    rw [seek, broadcast_node]
    dsimp only
    rw [ih]
    by_cases hpath : OnPath path node
    · rw [if_pos hpath, List.filter_cons_of_pos (by simpa using hpath), List.map_cons]
      by_cases hopen : (h.lines node.ws_conn).conn.state = .OPEN
      · rw [if_pos hopen]
        rfl
      · have hsame : apply (Line.send env) h.lines (node.ws_conn, .text data) = h.lines := by
          rw [apply, send_text_closed hopen]
          exact Function.update_eq_self _ _
        rw [if_neg hopen]
        change _ = (none, Hub.mk h.manager (run (Line.send env) (apply (Line.send env) h.lines _) _))
        rw [hsame]
    · rw [if_neg hpath, List.filter_cons_of_neg (by simpa using hpath)]

theorem close_walk (reason : List UInt8) (closed : List Nat) (h : Hub) :
    closed.foldl (fun h p => h.send env p (.close 1000 (some reason))) h =
      ⟨h.manager, run (Line.send env) h.lines (closed.map fun p => (p, .close 1000 (some reason)))⟩ := by
  induction closed generalizing h with
  | nil => rfl
  | cons p closed ih =>
    rw [List.foldl_cons, ih]
    rfl

section heartbeat

variable {ping_timeout_ms : UInt64} {lines lines' : Nat → Line} {node : WsConnectionNode}

/-- What a round does for a node depends on its own connection only. -/
theorem beat_congr (hsame : lines' node.ws_conn = lines node.ws_conn) :
    (beat_line env ping_timeout_ms now node lines').1 = (beat_line env ping_timeout_ms now node lines).1 ∧
      beat_send ping_timeout_ms now lines' node = beat_send ping_timeout_ms now lines node := by
  refine ⟨?_, by rw [beat_send, hsame, beat_send]⟩
  unfold beat_line
  dsimp only
  rw [hsame]
  by_cases hopen : (lines node.ws_conn).conn.state = .OPEN
  · rw [if_pos hopen, if_pos hopen]
    split
    · rfl
    · split
      · rfl
      · rfl
  · rw [if_neg hopen, if_neg hopen]

theorem beat_line_lines (lines : Nat → Line) (node : WsConnectionNode) :
    (beat_line env ping_timeout_ms now node lines).2 =
      run (Line.send env) lines (beat_send ping_timeout_ms now lines node) := by
  unfold beat_line beat_send
  dsimp only
  by_cases hopen : (lines node.ws_conn).conn.state = .OPEN
  · rw [if_pos hopen, if_pos hopen]
    by_cases hpending : node.ping_pending = false
    · rw [if_pos (by simp [hpending]), if_pos hpending]
      rfl
    · rw [if_neg (by simp [hpending]), if_neg hpending]
      split
      · rfl
      · rfl
  · rw [if_neg hopen, if_neg hopen]
    rfl

theorem beat_line_node (lines : Nat → Line) (node : WsConnectionNode) :
    (beat_line env ping_timeout_ms now node lines).1.last_activity = node.last_activity := by
  unfold beat_line
  dsimp only
  split
  · split
    · dsimp only
      split
      · rfl
      · rfl
    · split
      · rfl
      · rfl
  · rfl

theorem beat_send_elsewhere {p : Nat} (hother : node.ws_conn ≠ p) (lines : Nat → Line) :
    run (Line.send env) lines (beat_send ping_timeout_ms now lines node) p = lines p := by
  apply run_elsewhere
  intro entry hentry
  unfold beat_send at hentry
  split at hentry
  · split at hentry
    · rw [List.mem_singleton.mp hentry]
      exact hother
    · split at hentry
      · rw [List.mem_singleton.mp hentry]
        exact hother
      · cases hentry
  · cases hentry

/-- A round over the list: the connections are left by the frames it sends. -/
theorem beat_walk (nodes : List WsConnectionNode) (lines : Nat → Line) :
    (map_with (beat_line env ping_timeout_ms now) nodes lines).2 =
        run (Line.send env) lines (beat_sends env ping_timeout_ms now lines nodes) ∧
      (map_with (beat_line env ping_timeout_ms now) nodes lines).1.map (fun node => node.last_activity) =
        nodes.map fun node => node.last_activity := by
  induction nodes generalizing lines with
  | nil => exact ⟨rfl, rfl⟩
  | cons node nodes ih =>
    obtain ⟨hlines, htimes⟩ := ih (beat_line env ping_timeout_ms now node lines).2
    rw [map_with, beat_sends, run_append]
    dsimp only
    rw [List.map_cons, List.map_cons, htimes, hlines, beat_line_node, beat_line_lines]
    exact ⟨rfl, rfl⟩

/-- Where no connection is listed twice, what a round does to one is decided before it. -/
theorem beat_nodup {nodes : List WsConnectionNode} (hnodup : (nodes.map WsConnectionNode.ws_conn).Nodup)
    (lines lines' : Nat → Line) (hsame : ∀ node ∈ nodes, lines' node.ws_conn = lines node.ws_conn) :
    (map_with (beat_line env ping_timeout_ms now) nodes lines').1 =
        nodes.map (fun node => (beat_line env ping_timeout_ms now node lines).1) ∧
      beat_sends env ping_timeout_ms now lines' nodes =
        nodes.flatMap (beat_send ping_timeout_ms now lines) := by
  induction nodes generalizing lines' with
  | nil => exact ⟨rfl, rfl⟩
  | cons node nodes ih =>
    rw [List.map_cons, List.nodup_cons] at hnodup
    obtain ⟨hfirst, hsend⟩ := @beat_congr env now ping_timeout_ms lines lines' node (hsame node List.mem_cons_self)
    have hlater : ∀ other ∈ nodes,
        run (Line.send env) lines' (beat_send ping_timeout_ms now lines' node) other.ws_conn = lines other.ws_conn := by
      intro other hother
      rw [beat_send_elsewhere, hsame other (List.mem_cons_of_mem _ hother)]
      intro heq
      exact hnodup.1 (heq ▸ List.mem_map_of_mem hother)
    obtain ⟨hnodes, hsends⟩ := ih hnodup.2 _ hlater
    rw [map_with, beat_sends]
    dsimp only
    rw [beat_line_lines, hnodes, hfirst, hsends, hsend]
    exact ⟨rfl, rfl⟩

/-- A round of the heartbeat returns, and does what it is for. -/
theorem heartbeat_exact (hkeeps : h.manager.Keeps timeout_seconds now nodes) (hfuel : nodes.length ≤ fuel) :
    ∃ next nodes' sends, hub_step env fuel now h .heartbeat = some next ∧
      HubCall.Exact env timeout_seconds now h nodes nodes' sends .heartbeat ∧
      next.lines = run (Line.send env) h.lines sends ∧ next.manager.Keeps timeout_seconds now nodes' ∧
      nodes'.length = nodes.length := by
  obtain ⟨hrepresents, hcounted, henabled, htimeout, hpast⟩ := hkeeps
  obtain ⟨connections, heq, hleft⟩ :=
    hrepresents.rewrite_with (beat_line env h.manager.ping_timeout_ms now) hfuel h.lines
  obtain ⟨hlines, htimes⟩ := @beat_walk env now h.manager.ping_timeout_ms nodes h.lines
  have hlength : (map_with (beat_line env h.manager.ping_timeout_ms now) nodes h.lines).1.length = nodes.length := by
    have hmapped := congrArg List.length htimes
    rwa [List.length_map, List.length_map] at hmapped
  refine ⟨⟨{ h.manager with connections }, _⟩, _, _, ?_, ⟨rfl, rfl, fun hnodup => ?_⟩, hlines,
    ⟨hleft, ?_, henabled, htimeout, ?_⟩, hlength⟩
  · rw [hub_step, Hub.ws_heartbeat_timer_callback, heq]
    rfl
  · exact beat_nodup hnodup h.lines h.lines fun _ _ => rfl
  · rw [hlength]
    exact hcounted
  · intro node hnode
    have hmem : node.last_activity ∈ nodes.map fun node => node.last_activity := by
      rw [← htimes]
      exact List.mem_map_of_mem hnode
    obtain ⟨old, hold, heq⟩ := List.mem_map.mp hmem
    rw [← heq]
    exact hpast old hold

end heartbeat

/-- A call of a server returns, and does what it is for. -/
theorem hub_step_exact (hkeeps : h.manager.Keeps timeout_seconds now nodes) (hfuel : nodes.length ≤ fuel)
    (hlow : 10 ≤ timeout_seconds) (hhigh : timeout_seconds ≤ 3600) (call : HubCall) :
    ∃ next nodes' sends, hub_step env fuel now h call = some next ∧
      call.Exact env timeout_seconds now h nodes nodes' sends ∧
      next.lines = run (Line.send env) h.lines sends ∧ next.manager.Keeps timeout_seconds now nodes' ∧
      nodes'.length ≤ nodes.length + 1 := by
  cases call with
  | heartbeat =>
    obtain ⟨next, nodes', sends, hreturns, hexact, hlines, hkept, hlength⟩ := @heartbeat_exact env fuel _ now h nodes
      hkeeps hfuel
    exact ⟨next, nodes', sends, hreturns, hexact, hlines, hkept, by omega⟩
  | manage call hother =>
    obtain ⟨manager', nodes', closed, hreturns, hexact, hkept, hgrows⟩ := ws_step_exact hkeeps hfuel hlow hhigh call
    refine ⟨⟨manager', run (Line.send env) h.lines (closed.map fun p =>
      (p, .close 1000 (some (close_reason call))))⟩, nodes', _, ?_, ⟨closed, hexact, rfl⟩, rfl, hkept, hgrows⟩
    rw [hub_step, hreturns]
    exact congrArg some (close_walk (close_reason call) closed { h with manager := manager' })
  | broadcast path data =>
    rw [hub_step, uvhttp_server_ws_broadcast]
    by_cases hdata : data = []
    · rw [if_pos hdata]
      exact ⟨_, nodes, [], rfl, ⟨rfl, (if_pos hdata).symm⟩, rfl, hkeeps, Nat.le_succ _⟩
    · rw [if_neg hdata, hkeeps.represents.seek _ hfuel, broadcast_walk]
      exact ⟨_, nodes, _, rfl, ⟨rfl, (if_neg hdata).symm⟩, rfl, hkeeps, Nat.le_succ _⟩
  | ws_send p data =>
    rw [hub_step, uvhttp_server_ws_send]
    by_cases hdata : data = []
    · rw [if_pos hdata]
      exact ⟨_, nodes, [], rfl, ⟨rfl, (if_pos hdata).symm⟩, rfl, hkeeps, Nat.le_succ _⟩
    · rw [if_neg hdata]
      exact ⟨_, nodes, [(p, .text data)], rfl, ⟨rfl, (if_neg hdata).symm⟩, rfl, hkeeps, Nat.le_succ _⟩
  | ws_close p code reason => exact ⟨_, nodes, _, rfl, ⟨rfl, rfl⟩, rfl, hkeeps, Nat.le_succ _⟩
  | ping p data => exact ⟨_, nodes, _, rfl, ⟨rfl, rfl⟩, rfl, hkeeps, Nat.le_succ _⟩
  | pong p data => exact ⟨_, nodes, _, rfl, ⟨rfl, rfl⟩, rfl, hkeeps, Nat.le_succ _⟩

/-- Calls at times that do not go back: the run returns, with a log. -/
theorem hub_run (hlow : 10 ≤ timeout_seconds) (hhigh : timeout_seconds ≤ 3600) {calls : List (UInt64 × HubCall)}
    (hkeeps : h.manager.Keeps timeout_seconds now nodes) (hfuel : nodes.length + calls.length ≤ fuel)
    (hclock : (now :: calls.map Prod.fst).Pairwise (· ≤ ·)) :
    ∃ log last, Hub.Run env fuel timeout_seconds h nodes calls log last ∧
      last.lines = run (Line.send env) h.lines log := by
  induction calls generalizing now h nodes with
  | nil => exact ⟨[], h, ⟨rfl, rfl⟩, rfl⟩
  | cons call calls ih =>
    obtain ⟨later, call⟩ := call
    rw [List.length_cons] at hfuel
    rw [List.map_cons, List.pairwise_cons] at hclock
    have hlater : now ≤ later := hclock.1 later List.mem_cons_self
    obtain ⟨next, nodes', sends, hreturns, hexact, hlines, hkept, hgrows⟩ :=
      @hub_step_exact env fuel _ later h nodes (hkeeps.later hlater) (by omega) hlow hhigh call
    obtain ⟨log, last, hrun, hlast⟩ := ih hkept (by omega) hclock.2
    refine ⟨sends ++ log, last, ⟨next, nodes', sends, log, hreturns, hexact, hlines, rfl, hrun⟩, ?_⟩
    rw [hlast, hlines, run_append]

end steps

/-- A transport that takes every frame whole, and memory for it. -/
structure Reliable (env : WsEnv) : Prop where
  alloc : ∀ calls size, env.alloc calls size = true
  send : ∀ calls len, env.send calls len = some len

/-- An open connection of the server, without TLS. -/
structure Serving (conn : WsConnection) : Prop where
  state : conn.state = .OPEN
  role : conn.is_server = true
  plain : conn.ssl = false

/-- The frame of a call on a connection of the server: whole, and unmasked. -/
def frame_of (op : WsSend) : WireFrame := ⟨true, op.opcode, false, [0, 0, 0, 0], op.payload, rfl⟩

def is_close : WsSend → Bool
  | .close _ _ => true
  | _ => false

/-- What is sent of the calls on a connection: up to the first Close. -/
def until_close : List WsSend → List WsSend
  | [] => []
  | op :: ops => op :: if is_close op then [] else until_close ops

section wire

variable {env : Nat → WsEnv} {p : Nat} {line : Line}

theorem length_frame_of (op : WsSend) :
    (frame_of op).bytes.length = frame_header_size op.payload.length + op.payload.length := by
  rw [WireFrame.length_bytes, total_frame_size]
  rfl

/-- The frame is built as it is. -/
theorem build_frame_of (random : Option (List UInt8)) {op : WsSend} (hsize : op.payload.length < 2 ^ 31 - 14) :
    uvhttp_ws_build_frame random (10 + op.payload.length + 4) op.payload op.opcode false true =
      .ok (frame_of op).bytes := by
  have hheader : frame_header_size op.payload.length ≤ 10 := by
    rw [frame_header_size]
    split_ifs
    · decide
    · decide
    · exact Nat.le_refl 10
  have hmax : SIZE_MAX = 2 ^ 64 - 1 := rfl
  rw [uvhttp_ws_build_frame]
  simp only [Bool.false_eq_true, if_false]
  rw [if_neg (by omega), if_neg (by omega)]
  rfl

/-- A frame on an open connection goes out whole. -/
theorem send_frame_whole {env : WsEnv} (henv : Reliable env) {conn : WsConnection} (h : Serving conn) {op : WsSend}
    (hsize : op.payload.length < 2 ^ 31 - 14) :
    emitted (uvhttp_ws_send_frame env conn op.payload op.opcode).2.2 = (frame_of op).bytes ∧
      Serving (uvhttp_ws_send_frame env conn op.payload op.opcode).2.1 := by
  have hlength := length_frame_of op
  have hheader : frame_header_size op.payload.length ≤ 10 := by
    rw [frame_header_size]
    split_ifs
    · decide
    · decide
    · exact Nat.le_refl 10
  have hmax : SIZE_MAX = 2 ^ 64 - 1 := rfl
  have hreaches : Reaches env conn op.payload op.opcode (frame_of op).bytes := by
    refine ⟨h.state, by omega, henv.alloc _ _, ?_, by omega⟩
    rw [h.role]
    exact build_frame_of _ hsize
  have hsigned : ¬int (frame_of op).bytes.length < 0 := by
    rw [int, Nat.mod_eq_of_lt (by omega)]
    omega
  rw [send_frame_eq hreaches, h.plain, if_neg (by decide), henv.send]
  dsimp only
  rw [if_neg hsigned, List.take_length]
  exact ⟨by simp [emitted], h.state, h.role, rfl⟩

/-- Nothing goes out on a connection that is not open, which stays so. -/
theorem send_not_open (hclosed : line.conn.state ≠ .OPEN) (op : WsSend) :
    (line.send env p op).wire = line.wire ∧ (line.send env p op).conn.state ≠ .OPEN := by
  have hrefused : ∀ data opcode, uvhttp_ws_send_frame (env p) line.conn data opcode =
      (.INVALID_PARAM, line.conn, []) := fun _ _ => if_pos hclosed
  have hline : ∀ op : WsSend, op.perform (env p) line.conn = (.INVALID_PARAM, line.conn, []) →
      (line.send env p op).wire = line.wire ∧ (line.send env p op).conn.state ≠ .OPEN := by
    intro op hop
    rw [Line.send, hop]
    exact ⟨List.append_nil line.wire, hclosed⟩
  cases op with
  | text data => exact hline _ (hrefused _ _)
  | binary data => exact hline _ (hrefused _ _)
  | ping data => exact hline _ (hrefused _ _)
  | pong data => exact hline _ (hrefused _ _)
  | close code reason =>
    have hagain : ∀ data opcode, uvhttp_ws_send_frame (env p) { line.conn with calls := line.conn.calls + 1 } data
        opcode = (.INVALID_PARAM, { line.conn with calls := line.conn.calls + 1 }, []) := fun _ _ => if_pos hclosed
    rw [Line.send, WsSend.perform, uvhttp_ws_close]
    dsimp only
    split
    · exact ⟨List.append_nil line.wire, hclosed⟩
    · rw [hagain]
      refine ⟨List.append_nil line.wire, fun hstate => ?_⟩
      cases hstate

/-- A call on an open connection: its frame goes out, and a Close ends it. -/
theorem send_open (henv : Reliable (env p)) (h : Serving line.conn) {op : WsSend}
    (hsize : op.payload.length < 2 ^ 31 - 14) :
    (line.send env p op).wire = line.wire ++ (frame_of op).bytes ∧
      if is_close op then (line.send env p op).conn.state ≠ .OPEN else Serving (line.send env p op).conn := by
  obtain ⟨hwire, hserving⟩ := send_frame_whole henv h hsize
  cases op with
  | text data => exact ⟨congrArg (line.wire ++ ·) hwire, hserving⟩
  | binary data => exact ⟨congrArg (line.wire ++ ·) hwire, hserving⟩
  | ping data => exact ⟨congrArg (line.wire ++ ·) hwire, hserving⟩
  | pong data => exact ⟨congrArg (line.wire ++ ·) hwire, hserving⟩
  | close code reason =>
    rw [Line.send, WsSend.perform, uvhttp_ws_close, henv.alloc]
    have hlater : Serving { line.conn with calls := line.conn.calls + 1 } := ⟨h.state, h.role, h.plain⟩
    have hsent := @send_frame_whole (env p) henv _ hlater (.close code reason) hsize
    refine ⟨congrArg (line.wire ++ ·) hsent.1, fun hstate => ?_⟩
    cases hstate

/-- What the calls on a connection put on the wire. -/
theorem sends_wire (henv : Reliable (env p)) (h : Serving line.conn) {ops : List WsSend}
    (hsize : ∀ op ∈ ops, op.payload.length < 2 ^ 31 - 14) :
    (ops.foldl (Line.send env p) line).wire =
      line.wire ++ (until_close ops).flatMap fun op => (frame_of op).bytes := by
  have hclosed : ∀ (ops : List WsSend) {line : Line}, line.conn.state ≠ .OPEN →
      (ops.foldl (Line.send env p) line).wire = line.wire := by
    intro ops
    induction ops with
    | nil => intro line _; rfl
    | cons op ops ih =>
      intro line hclosed
      obtain ⟨hwire, hstate⟩ := @send_not_open env p line hclosed op
      rw [List.foldl_cons, ih hstate, hwire]
  induction ops generalizing line with
  | nil => exact (List.append_nil line.wire).symm
  | cons op ops ih =>
    obtain ⟨hwire, hstate⟩ := send_open henv h (hsize op List.mem_cons_self)
    rw [List.foldl_cons]
    rw [until_close, List.flatMap_cons]
    cases hclose : is_close op with
    | true =>
      rw [if_pos hclose] at hstate
      rw [hclosed ops hstate, hwire, if_pos rfl, List.flatMap_nil, List.append_nil]
    | false =>
      rw [if_neg (by rw [hclose]; decide)] at hstate
      rw [ih hstate fun op hop => hsize op (List.mem_cons_of_mem _ hop), hwire, if_neg (by decide), List.append_assoc]

end wire

/-- What a client is told of a frame. -/
def message_of : WsSend → List WsEvent
  | .text data => [.on_message OPCODE_TEXT data]
  | .binary data => [.on_message OPCODE_BINARY data]
  | _ => []

/-- A client that waits for frames. -/
structure Listening (client : WsConnection) : Prop where
  well_formed : client.WellFormed
  role : client.is_server = false
  recv_buffer : client.recv_buffer = []
  fragmented_message : client.fragmented_message = none
  on_message : client.on_message = true

/-- A frame that the client takes and that does not end the connection. -/
structure Audible (client : WsConnection) (op : WsSend) : Prop where
  open_after : is_close op = false
  payload : op.payload.length ≤ size_t client.max_frame_size
  control : op.opcode ≥ OPCODE_CLOSE → op.payload.length ≤ 125

section client

variable {client : WsConnection}

theorem Audible.accepted {op : WsSend} (h : Audible client op) (hsize : op.payload.length < 2 ^ 31 - 14) :
    (frame_of op).Accepted false client.max_frame_size where
  opcode := op.opcode_and
  control := fun hcontrol => ⟨h.control hcontrol, rfl⟩
  masked := nofun
  payload_le := h.payload
  payload_lt := Nat.lt_trans hsize (by decide)

/-- A frame is told, and the client waits as before. -/
theorem handle_audible (h : Listening client) {op : WsSend} (hop : is_close op = false) :
    handle_frame client.profile client.receiver (frame_of op).frame = some (client.receiver, message_of op) := by
  have htold : ∀ opcode data, message_events client.profile opcode data = [.on_message opcode data] :=
    fun _ _ => if_pos h.on_message
  have hidle : client.receiver.message = none := h.fragmented_message
  cases op with
  | text data =>
    rw [handle_frame_data _ (.inl rfl), handle_data, hidle]
    exact congrArg (fun events => some (client.receiver, events)) (htold OPCODE_TEXT data)
  | binary data =>
    rw [handle_frame_data _ (.inr (.inl rfl)), handle_data, hidle]
    exact congrArg (fun events => some (client.receiver, events)) (htold OPCODE_BINARY data)
  | ping data => exact handle_frame_ping_pong _ (.inl rfl)
  | pong data => exact handle_frame_ping_pong _ (.inr rfl)
  | close code reason => cases hop

theorem handle_all_audible (h : Listening client) {ops : List WsSend} (hops : ∀ op ∈ ops, is_close op = false) :
    handleAll (handle_frame client.profile) client.receiver (ops.map fun op => (frame_of op).frame) =
      some (client.receiver, ops.flatMap message_of) := by
  induction ops with
  | nil => rfl
  | cons op ops ih =>
    rw [List.map_cons, handleAll_cons (handle_audible h (hops op List.mem_cons_self)),
      ih fun op hop => hops op (List.mem_cons_of_mem _ hop)]
    rfl

/-- The frames of the server, delivered in chunks that find room. -/
theorem client_hears {penv : WsEnv} (hquiet : penv.Quiet) (h : Listening client) {ops : List WsSend}
    (hops : ∀ op ∈ ops, Audible client op) (hsize : ∀ op ∈ ops, op.payload.length < 2 ^ 31 - 14)
    {chunks : List (List UInt8)} (hchunks : chunks.flatten = ops.flatMap fun op => (frame_of op).bytes)
    (hfit : ChunksFit client.recv_limit (ops.map fun op => (frame_of op).bytes.length) 0 chunks) :
    (process_chunks penv client chunks).1 = .OK ∧
      callbacks (process_chunks penv client chunks).2.2 = ops.flatMap message_of := by
  have hwire : ∀ q ∈ ops.map fun op => ((frame_of op).bytes, (frame_of op).frame),
      Encodes client.profile.decoder q.1 q.2 := by
    intro q hq
    obtain ⟨op, hop, rfl⟩ := List.mem_map.mp hq
    have haccepted := (hops op hop).accepted (hsize op hop)
    rw [← h.role] at haccepted
    exact haccepted.encodes
  have hbytes : ((ops.map fun op => ((frame_of op).bytes, (frame_of op).frame)).map Prod.fst).flatten =
      chunks.flatten := by
    rw [hchunks, List.map_map, List.flatMap]
    rfl
  have hframes : (ops.map fun op => ((frame_of op).bytes, (frame_of op).frame)).map Prod.snd =
      ops.map fun op => (frame_of op).frame := by
    rw [List.map_map]
    rfl
  have hlengths : (ops.map fun op => ((frame_of op).bytes, (frame_of op).frame)).map (fun q => q.1.length) =
      ops.map fun op => (frame_of op).bytes.length := by
    rw [List.map_map]
    rfl
  have hall := handle_all_audible h fun op hop => (hops op hop).open_after
  rw [← hframes] at hall
  have hempty : client.profile.decoder.next [] = .more := Decoder.next_nil _
  have hfits : Fits client.profile.decoder (handle_frame client.profile) client.recv_limit client.receiver []
      chunks := by
    refine (fits_iff_chunksFit hwire (by rw [hall]; rfl) [] hbytes (by rw [decode_more hempty])).mpr ?_
    rw [hlengths]
    exact hfit
  have hrun : observe (process_chunks penv client chunks) = ⟨some (client.receiver, []), ops.flatMap message_of⟩ := by
    rw [process_chunks_refines hquiet h.well_formed, h.recv_buffer, feedAll_eq_decode hempty hfits, List.nil_append,
      ← hbytes, decode_encoded hwire hall]
    intro frame hframe
    rw [h.recv_buffer, List.nil_append, ← hbytes] at hframe
    have hmem := mem_of_mem_handled hwire hframe
    rw [hframes] at hmem
    obtain ⟨op, hop, rfl⟩ := List.mem_map.mp hmem
    intro _ hclose
    rw [WireFrame.frame_opcode] at hclose
    have hother := (hops op hop).open_after
    cases op with
    | close code reason => cases hother
    | text data => exact absurd hclose (by decide : ¬OPCODE_TEXT &&& 0x0F = OPCODE_CLOSE)
    | binary data => exact absurd hclose (by decide : ¬OPCODE_BINARY &&& 0x0F = OPCODE_CLOSE)
    | ping data => exact absurd hclose (by decide : ¬OPCODE_PING &&& 0x0F = OPCODE_CLOSE)
    | pong data => exact absurd hclose (by decide : ¬OPCODE_PONG &&& 0x0F = OPCODE_CLOSE)
  obtain ⟨hfinal, hevents⟩ := Outcome.ext_iff.mp hrun
  refine ⟨?_, hevents⟩
  by_contra hfailed
  rw [observe, if_neg hfailed] at hfinal
  cases hfinal

end client

/-- In any run of calls, the frames that go out on a
connection are those of the calls that concern it, in their order and up to the first Close: of a
broadcast, one for each of its nodes on the path. A client that gets these bytes, cut in any way that
leaves room in its buffer, is told of every text and binary message, once and in order. -/
theorem hub_delivers {env : Nat → WsEnv} {timeout_seconds heartbeat_interval : Int} {manager : WsManager}
    (hcreated : uvhttp_server_ws_enable_connection_management timeout_seconds heartbeat_interval = some manager)
    (lines : Nat → Line) {calls : List (UInt64 × HubCall)} (hclock : (calls.map Prod.fst).Pairwise (· ≤ ·))
    {fuel : Nat} (hfuel : calls.length ≤ fuel) :
    ∃ log last, Hub.Run env fuel timeout_seconds ⟨manager, lines⟩ [] calls log last ∧
      ∀ p, (at_address p log = [] → last.lines p = lines p) ∧
        (Serving (lines p).conn → Reliable (env p) → (∀ op ∈ at_address p log, op.payload.length < 2 ^ 31 - 14) →
          (last.lines p).wire =
            (lines p).wire ++ (until_close (at_address p log)).flatMap fun op => (frame_of op).bytes) ∧
        ∀ penv client chunks, Serving (lines p).conn → Reliable (env p) → (lines p).wire = [] → penv.Quiet →
          Listening client → (∀ op ∈ at_address p log, op.payload.length < 2 ^ 31 - 14 ∧ Audible client op) →
          chunks.flatten = (last.lines p).wire →
          ChunksFit client.recv_limit ((at_address p log).map fun op => (frame_of op).bytes.length) 0 chunks →
            (process_chunks penv client chunks).1 = .OK ∧
              callbacks (process_chunks penv client chunks).2.2 = (at_address p log).flatMap message_of := by
  obtain ⟨⟨hlow, hhigh⟩, hkeeps⟩ := @enabled_manager timeout_seconds 0 manager heartbeat_interval hcreated
  obtain ⟨log, last, hrun, hlast⟩ := @hub_run env fuel timeout_seconds 0 ⟨manager, lines⟩ [] hlow hhigh calls hkeeps
    (by rw [List.length_nil]; omega) (List.pairwise_cons.mpr ⟨fun now _ => UInt64.le_iff_toNat_le.mpr (Nat.zero_le _),
      hclock⟩)
  have hline : ∀ p, last.lines p = (at_address p log).foldl (Line.send env p) (lines p) := by
    intro p
    rw [hlast, run_apply]
  refine ⟨log, last, hrun, fun p => ⟨fun hnone => ?_, fun hserving hreliable hsize => ?_, ?_⟩⟩
  · rw [hline, hnone, List.foldl_nil]
  · rw [hline]
    exact sends_wire hreliable hserving hsize
  · intro penv client chunks hserving hreliable hnew hquiet hlistening hops hchunks hfit
    have hopen : until_close (at_address p log) = at_address p log := by
      have hall : ∀ ops : List WsSend, (∀ op ∈ ops, is_close op = false) → until_close ops = ops := by
        intro ops
        induction ops with
        | nil => exact fun _ => rfl
        | cons op ops ih =>
          intro hnone
          rw [until_close, hnone op List.mem_cons_self, if_neg (by decide),
            ih fun op hop => hnone op (List.mem_cons_of_mem _ hop)]
      exact hall _ fun op hop => (hops op hop).2.open_after
    have hbytes := sends_wire hreliable hserving fun op hop => (hops op hop).1
    rw [hnew, List.nil_append, hopen, ← hline p] at hbytes
    exact client_hears hquiet hlistening (fun op hop => (hops op hop).2) (fun op hop => (hops op hop).1)
      (hchunks.trans hbytes) hfit

/-- Two connections in a chat room and one elsewhere, and a text for the room. -/
def chat_calls : List (UInt64 × HubCall) :=
  [(1, .manage (.add_connection Allocator.two (some 7) (some (bytes "/chat"))) rfl),
    (2, .manage (.add_connection Allocator.two (some 8) (some (bytes "/news"))) rfl),
    (3, .broadcast (some (bytes "/chat")) (bytes "hello")), (30000, .heartbeat),
    (30001, .manage (.remove_connection (some 8)) rfl), (30002, .broadcast none (bytes "bye")), (60000, .heartbeat)]

theorem hub_delivers_chat : ∃ manager, uvhttp_server_ws_enable_connection_management 60 30 = some manager ∧
    ∃ log last, Hub.Run (fun _ => .obliging) 7 60 ⟨manager, fun _ => ⟨opened 1024 1024, []⟩⟩ [] chat_calls log last ∧
      ∀ p, ((∀ op ∈ at_address p log, op.payload.length < 2 ^ 31 - 14) → (last.lines p).wire =
        (until_close (at_address p log)).flatMap fun op => (frame_of op).bytes) := by
  refine ⟨_, rfl, ?_⟩
  obtain ⟨log, last, hrun, hlines⟩ := @hub_delivers (fun _ => .obliging) 60 30 _ rfl
    (fun _ => ⟨opened 1024 1024, []⟩) chat_calls (by decide) 7 (by decide)
  exact ⟨log, last, hrun, fun p => (hlines p).2.1 ⟨rfl, rfl, rfl⟩ ⟨fun _ _ => rfl, fun _ _ => rfl⟩⟩

end uvhttp.server
