import Uvhttp.Router.Match

namespace uvhttp.router_match

open http (Method)
open ordered_trie
open router (Router Trie add_to_trie node_handler path_segments uvhttp_router_new uvhttp_router_add_route_method)

variable {H : Type}

/-- A node of a trie: the labels on the way to it from the root, and its method and
handler. -/
abbrev TrieNode (H : Type) := List (Label (List UInt8)) × Option (Method × H)

/-- The nodes of a trie, depth first in the order of the child indices. -/
def trie_nodes (trie : Trie H) : List (TrieNode H) := ([], trie.root) :: trie.children.nodes

/-- The parameter nodes on the way to a node. -/
def param_nodes (node : TrieNode H) : Nat := wildcards node.1

/-- The way to the node has one node for each segment, a parameter node or a literal
node equal to the segment, and the node has a handler for the method. -/
def path_matches (method : Method) (segments : List (List UInt8)) (node : TrieNode H) : Bool :=
  accepts_all node.1 segments && (node.2.bind (node_handler method)).isSome

/-- The search comes to a node: the way to it is open to the segments, and no node
before it matches. -/
def Searched (trie : Trie H) (method : Method) (segments : List (List UInt8)) (node : TrieNode H) : Prop :=
  ∃ before after, trie_nodes trie = before ++ node :: after ∧
    (∀ earlier ∈ before, path_matches method segments earlier = false) ∧ opens node.1 segments = true

variable {names : ParamNames} {method : Method} {segments : List (List UInt8)}

/-- The search of a trie, told by its nodes: at the root, or among its children. -/
def root_outcome (trie : Trie H) (method : Method) (segments : List (List UInt8)) (param_count : Nat) : Outcome H :=
  match segments with
  | [] => outcome_of (trie.root.bind (node_handler method)) param_count
  | segment :: segments => trie.children.search MAX_PARAMS (node_handler method) segment segments param_count

theorem scan_root (trie : Trie H) {param_count : Nat} (hcount : param_count ≤ MAX_PARAMS) :
    Forest.scan MAX_PARAMS (node_handler method) segments param_count (trie_nodes trie) =
      root_outcome trie method segments param_count := by
  have hroot : ¬ (opens ([] : List (Label (List UInt8))) segments = true ∧
      MAX_PARAMS < param_count + wildcards ([] : List (Label (List UInt8)))) :=
    fun hover => Nat.not_lt.mpr hcount hover.2
  rw [trie_nodes, Forest.scan, if_neg hroot]
  cases segments with
  | nil =>
    rw [Forest.scan_nil, Outcome.orElse_missing]
    rfl
  | cons segment segments =>
    rw [← Forest.search_eq_scan trie.children segment segments hcount]
    rfl

/-- `match_route_node` at the root, told by the nodes of the trie. -/
theorem refines_trie (trie : Trie H) {m : RouteMatch H} (hcount : m.param_count ≤ MAX_PARAMS) :
    Refines m (match_route_node names trie segments method m)
      (Forest.scan MAX_PARAMS (node_handler method) segments m.param_count (trie_nodes trie)) := by
  rw [scan_root trie hcount]
  cases segments with
  | nil => exact refines_leaf trie.root m
  | cons segment segments => exact refines_children trie.children [] 0 segment segments m

/-- A failed search below a node leaves the count as it was. -/
theorem param_count_restored {f : Forest (List UInt8) (Method × H)} {node : List Nat} {i : Nat}
    {segment : List UInt8} {m m' : RouteMatch H}
    (h : match_children names method f node i segment segments m = some (false, m')) :
    m'.param_count = m.param_count := by
  have hrefines := @refines_children H names method f node i segment segments m
  rw [h] at hrefines
  generalize Forest.search MAX_PARAMS (node_handler method) f segment segments m.param_count = outcome at hrefines
  cases hrefines with
  | missing hcount hhandler => exact hcount

theorem scan_trie {trie : Trie H}
    (hparams : ∀ node, Searched trie method segments node → param_nodes node ≤ MAX_PARAMS) :
    Forest.scan MAX_PARAMS (node_handler method) segments 0 (trie_nodes trie) =
      ((trie_nodes trie).find? (path_matches method segments)).elim .missing fun node =>
        outcome_of (node.2.bind (node_handler method)) (param_nodes node) := by
  have hvisited : ∀ node, Forest.Visited (node_handler method) segments (trie_nodes trie) node →
      0 + wildcards node.1 ≤ MAX_PARAMS := by
    intro node hnode
    rw [Nat.zero_add]
    exact hparams node hnode
  have hscan := Forest.scan_eq_of_visited hvisited
  simp only [Nat.zero_add] at hscan
  exact hscan

theorem path_matches_handler {node : TrieNode H} (h : path_matches method segments node = true) :
    ∃ handler, node.2.bind (node_handler method) = some handler :=
  Option.isSome_iff_exists.mp (Bool.and_eq_true_iff.mp h).2

/-- A search that stays within the parameters ends at the first node that matches. -/
theorem match_route_node_first {trie : Trie H}
    (hparams : ∀ node, Searched trie method segments node → param_nodes node ≤ MAX_PARAMS) {node : TrieNode H}
    (hfirst : (trie_nodes trie).find? (path_matches method segments) = some node) :
    ∃ handler m, node.2.bind (node_handler method) = some handler ∧
      match_route_node names trie segments method .zero = some (true, m) ∧
      m.handler = some (.handler handler) ∧ m.param_count = param_nodes node := by
  obtain ⟨handler, hhandler⟩ := path_matches_handler (List.find?_some hfirst)
  have hscan := @refines_trie H names method segments trie .zero (Nat.zero_le _)
  rw [show (RouteMatch.zero : RouteMatch H).param_count = 0 from rfl, scan_trie hparams, hfirst] at hscan
  dsimp only [Option.elim] at hscan
  rw [hhandler, outcome_of] at hscan
  generalize match_route_node names trie segments method .zero = result at hscan
  generalize param_nodes node = used at hscan ⊢
  cases hscan with
  | @found m _ hfound => exact ⟨handler, m, hhandler, rfl, hfound, rfl⟩

/-- Without a node that matches, it fails and the count is 0 again. -/
theorem match_route_node_none {trie : Trie H}
    (hparams : ∀ node, Searched trie method segments node → param_nodes node ≤ MAX_PARAMS)
    (hnone : (trie_nodes trie).find? (path_matches method segments) = none) :
    ∃ m, match_route_node names trie segments method .zero = some (false, m) ∧ m.param_count = 0 := by
  have hscan := @refines_trie H names method segments trie .zero (Nat.zero_le _)
  rw [show (RouteMatch.zero : RouteMatch H).param_count = 0 from rfl, scan_trie hparams, hnone] at hscan
  dsimp only [Option.elim] at hscan
  generalize match_route_node names trie segments method .zero = result at hscan
  cases hscan with
  | @missing m hcount _ => exact ⟨m, rfl, hcount⟩

/-- `match_route_node` finds the first way through the trie that the segments take, in
the order of the children, counts its parameter nodes, and leaves the count of a search
that fails as it was. -/
theorem match_route_node_finds (names : ParamNames) (trie : Trie H) (method : Method)
    (hparams : ∀ node ∈ trie_nodes trie, param_nodes node ≤ MAX_PARAMS) (segments : List (List UInt8)) :
    ((∃ m, match_route_node names trie segments method .zero = some (true, m)) ↔
      ∃ node ∈ trie_nodes trie, path_matches method segments node = true) ∧
    (∀ m, match_route_node names trie segments method .zero = some (true, m) →
      ∃ node handler, (trie_nodes trie).find? (path_matches method segments) = some node ∧
        node.2.bind (node_handler method) = some handler ∧ m.handler = some (.handler handler) ∧
        m.param_count = param_nodes node) ∧
    ((¬∃ node ∈ trie_nodes trie, path_matches method segments node = true) →
      ∃ m, match_route_node names trie segments method .zero = some (false, m) ∧ m.param_count = 0) ∧
    (∀ f node i segment segments (m m' : RouteMatch H),
      match_children names method f node i segment segments m = some (false, m') →
        m'.param_count = m.param_count) := by
  have hsearched : ∀ node, Searched trie method segments node → param_nodes node ≤ MAX_PARAMS := by
    rintro node ⟨before, after, hnodes, -, -⟩
    apply hparams
    rw [hnodes]
    exact List.mem_append_right _ List.mem_cons_self
  cases hfirst : (trie_nodes trie).find? (path_matches method segments) with
  | none =>
    obtain ⟨m, hmatch, hcount⟩ := @match_route_node_none H names method segments trie hsearched hfirst
    have hno : ¬∃ node ∈ trie_nodes trie, path_matches method segments node = true := by
      rintro ⟨node, hnode, hmatches⟩
      exact List.find?_eq_none.mp hfirst node hnode hmatches
    refine ⟨⟨?_, fun hyes => absurd hyes hno⟩, ?_, fun _ => ⟨m, hmatch, hcount⟩, fun _ _ _ _ _ _ _ => param_count_restored⟩
    · rintro ⟨m', hmatch'⟩
      rw [hmatch] at hmatch'
      cases hmatch'
    · intro m' hmatch'
      rw [hmatch] at hmatch'
      cases hmatch'
  | some node =>
    obtain ⟨handler, m, hhandler, hmatch, hfound, hcount⟩ :=
      @match_route_node_first H names method segments trie hsearched node hfirst
    have hyes : ∃ node ∈ trie_nodes trie, path_matches method segments node = true :=
      ⟨node, List.mem_of_find?_eq_some hfirst, List.find?_some hfirst⟩
    refine ⟨⟨fun _ => hyes, fun _ => ⟨m, hmatch⟩⟩, ?_, fun hno => absurd hyes hno,
      fun _ _ _ _ _ _ _ => param_count_restored⟩
    intro m' hmatch'
    rw [hmatch] at hmatch'
    cases hmatch'
    exact ⟨node, handler, rfl, hhandler, hfound, hcount⟩

/-- A trie with a parameter before a literal node, and two parameters in a row. -/
def branching_trie : Trie Nat :=
  [(bytes "/:a/x", 1), (bytes "/u/y", 2), (bytes "/u/:b/:c", 3)].foldl
    (fun trie route => (add_to_trie (fun _ => true) (.GET, route.2) trie route.1).1)
    (uvhttp_router_new : Router Nat).trie

/-- The search leaves the first parameter again for `/u/y`, takes two of them for `/u/v/w`
and finds nothing for `/u/v`. -/
theorem match_route_node_finds_branching :
    (∃ m, match_route_node (fun _ => []) branching_trie [bytes "u", bytes "y"] .GET .zero = some (true, m) ∧
      m.handler = some (.handler 2) ∧ m.param_count = 0) ∧
    (∃ m, match_route_node (fun _ => []) branching_trie [bytes "u", bytes "v", bytes "w"] .GET .zero = some (true, m) ∧
      m.handler = some (.handler 3) ∧ m.param_count = 2) ∧
    ∃ m, match_route_node (fun _ => []) branching_trie [bytes "u", bytes "v"] .GET .zero = some (false, m) ∧
      m.param_count = 0 := by
  have hparams : ∀ node ∈ trie_nodes branching_trie, param_nodes node ≤ MAX_PARAMS := by decide
  have hfinds := match_route_node_finds (fun _ => []) branching_trie .GET hparams
  have hfound : ∀ {segments : List (List UInt8)} {node : TrieNode Nat} {handler : Nat},
      (trie_nodes branching_trie).find? (path_matches .GET segments) = some node →
      node.2.bind (node_handler .GET) = some handler →
      ∃ m, match_route_node (fun _ => []) branching_trie segments .GET .zero = some (true, m) ∧
        m.handler = some (.handler handler) ∧ m.param_count = param_nodes node := by
    intro segments node handler hfirst hhandler
    obtain ⟨m, hm⟩ := (hfinds segments).1.mpr ⟨node, List.mem_of_find?_eq_some hfirst, List.find?_some hfirst⟩
    obtain ⟨node', handler', hfirst', hhandler', hresult, hcount⟩ := (hfinds segments).2.1 m hm
    obtain rfl := Option.some.inj (hfirst.symm.trans hfirst')
    obtain rfl := Option.some.inj (hhandler.symm.trans hhandler')
    exact ⟨m, hm, hresult, hcount⟩
  refine ⟨?_, ?_, ?_⟩
  · exact @hfound _ ([⟨bytes "u", false⟩, ⟨bytes "y", false⟩], some (.GET, 2)) _ (by decide) rfl
  · exact @hfound _ ([⟨bytes "u", false⟩, ⟨bytes "b", true⟩, ⟨bytes "c", true⟩], some (.GET, 3)) _ (by decide) rfl
  · exact (hfinds _).2.2.1 (by decide)

/-- When `match_route_node` stays within the array of parameters. -/
theorem params_in_bounds_iff (names : ParamNames) (trie : Trie H) (method : Method) (segments : List (List UInt8)) :
    match_route_node names trie segments method .zero ≠ none ↔
      ∀ node, Searched trie method segments node → param_nodes node ≤ MAX_PARAMS := by
  constructor
  · intro hmatch node hsearched
    by_contra hover
    have hbudget : MAX_PARAMS < 0 + wildcards node.1 := by
      rw [Nat.zero_add]
      exact Nat.not_le.mp hover
    have hexhausted := Forest.scan_eq_exhausted hsearched hbudget
    have hscan := @refines_trie H names method segments trie .zero (Nat.zero_le _)
    rw [show (RouteMatch.zero : RouteMatch H).param_count = 0 from rfl, hexhausted] at hscan
    generalize match_route_node names trie segments method .zero = result at hscan hmatch
    cases hscan with
    | exhausted => exact hmatch rfl
  · intro hparams
    cases hfirst : (trie_nodes trie).find? (path_matches method segments) with
    | none =>
      obtain ⟨m, hmatch, -⟩ := @match_route_node_none H names method segments trie hparams hfirst
      rw [hmatch]
      exact Option.some_ne_none _
    | some node =>
      obtain ⟨_, m, -, hmatch, -, -⟩ := @match_route_node_first H names method segments trie hparams node hfirst
      rw [hmatch]
      exact Option.some_ne_none _

/-- A route with 17 parameters, and a request for it. -/
def deep_route : List UInt8 := (List.replicate 17 (bytes "/:a")).flatten

def deep_path : List UInt8 := (List.replicate 17 (bytes "/b")).flatten

/-- The route is registered, and the request for it writes a parameter beyond the
array. -/
theorem params_out_of_bounds :
    ∃ router : Router Unit,
      uvhttp_router_add_route_method (fun _ => true) uvhttp_router_new deep_route .GET (some ()) =
        some (.OK, router) ∧
      match_route_node (fun _ => []) router.trie (path_segments deep_path) .GET .zero = none :=
  ⟨_, rfl, rfl⟩

end uvhttp.router_match
