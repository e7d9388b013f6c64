import Uvhttp.Lib.IndexedTree
import Uvhttp.Router.Match

namespace uvhttp.route_pool

open http (Method)
open ordered_trie (Label Outcome outcome_of)
open indexed_tree
open router (ArrayRoute ArrayTable COLON HYBRID_THRESHOLD MAX_CHILD_INDICES MAX_ROUTE_PATH_LEN QUESTION_MARK
  SEGMENT_DATA_SIZE SIZEOF_ROUTE_NODE node_handler route_labels)
open router_match (MAX_PARAMS)

def UINT32_MAX : Nat := 2 ^ 32 - 1

variable {H : Type}

/-- `uvhttp_route_node_t`, without the parameter name, which no registration sets. -/
structure RouteNode (H : Type) where
  method : Method
  handler : Option H
  child_count : Nat
  is_param : Bool
  segment_len : Nat
  child_indices : List Nat
  segment_data : List UInt8

/-- A node after `memset`. -/
def RouteNode.zero : RouteNode H where
  method := .ANY
  handler := none
  child_count := 0
  is_param := false
  segment_len := 0
  child_indices := List.replicate MAX_CHILD_INDICES 0
  segment_data := List.replicate SEGMENT_DATA_SIZE 0

/-- The children that a node lists. -/
def RouteNode.children (node : RouteNode H) : List Nat := node.child_indices.take node.child_count

/-- The label that a new child gets. -/
def RouteNode.set_segment (node : RouteNode H) (label : Label (List UInt8)) : RouteNode H :=
  let segment_len := if label.name.length < SEGMENT_DATA_SIZE then label.name.length else SEGMENT_DATA_SIZE - 1
  { node with
    segment_len
    segment_data := label.name.take segment_len ++ node.segment_data.drop segment_len
    is_param := label.wildcard }

def RouteNode.add_child (node : RouteNode H) (child_index : Nat) : RouteNode H :=
  { node with
    child_indices := node.child_indices.set node.child_count child_index
    child_count := node.child_count + 1 }

/-- Whether the segment of a node is a whole token: `strncmp` and `strlen`. -/
def RouteNode.has_segment (node : RouteNode H) (segment : List UInt8) : Bool :=
  node.segment_data.take node.segment_len = segment.take node.segment_len && segment.length = node.segment_len

/-- `uvhttp_router_t`, as far as routes go. `node_pool` is the memory of the pool, none of
it once it has been released. -/
structure PoolRouter (H : Type) where
  use_trie : Bool
  array_routes : ArrayTable H
  node_pool : List (RouteNode H)
  root_index : Nat
  node_pool_size : Nat
  node_pool_used : Nat

/-- `uvhttp_router_new`, when its allocations succeed. -/
def uvhttp_router_new : PoolRouter H where
  use_trie := false
  array_routes := .routes []
  node_pool := List.replicate 64 .zero
  root_index := 0
  node_pool_size := 64
  node_pool_used := 1

section insertion

variable (alloc : Nat → Bool)

/-- `create_route_node`: the index of the node. The size is an `uint32_t`, and where no
block of size zero is returned the old one has been released. -/
def create_route_node (r : PoolRouter H) : Nat × PoolRouter H :=
  if r.node_pool_used ≥ r.node_pool_size then
    let new_size := r.node_pool_size * 2 % 2 ^ 32
    if !alloc (new_size * SIZEOF_ROUTE_NODE) then
      (UINT32_MAX, if new_size = 0 then { r with node_pool := [] } else r)
    else
      (r.node_pool_used, { r with
        node_pool := r.node_pool.take new_size ++ List.replicate (new_size - r.node_pool.length) .zero
        node_pool_size := new_size
        node_pool_used := r.node_pool_used + 1 })
  else (r.node_pool_used, { r with node_pool_used := r.node_pool_used + 1 })

/-- The search of `find_or_create_child` through the children of a node. `none` is an access
outside the pool. -/
def find_child (node_pool : List (RouteNode H)) (segment : List UInt8) : List Nat → Option (Option Nat)
  | [] => some none
  | child_index :: rest =>
    (node_pool[child_index]?).bind fun child =>
      if child.has_segment segment then some (some child_index) else find_child node_pool segment rest

/-- The new child of `find_or_create_child`. -/
def create_child (r : PoolRouter H) (parent_index : Nat) (label : Label (List UInt8)) :
    Option (Nat × PoolRouter H) :=
  let created := create_route_node alloc r
  if created.1 = UINT32_MAX then some created
  else
    (created.2.node_pool[created.1]?).bind fun child =>
      let node_pool := created.2.node_pool.set created.1 (child.set_segment label)
      (node_pool[parent_index]?).map fun parent =>
        (created.1, { created.2 with node_pool := node_pool.set parent_index (parent.add_child created.1) })

/-- `find_or_create_child`: the index of the child. `none` is an access outside the pool. -/
def find_or_create_child (r : PoolRouter H) (parent_index : Nat) (label : Label (List UInt8)) :
    Option (Nat × PoolRouter H) :=
  (r.node_pool[parent_index]?).bind fun parent =>
    (find_child r.node_pool label.name parent.children).bind fun
      | some child_index => some (child_index, r)
      | none =>
        if parent.child_count ≥ MAX_CHILD_INDICES then some (UINT32_MAX, r)
        else create_child alloc r parent_index label

/-- The loop over the tokens of a path. -/
def add_path (r : PoolRouter H) (current_index : Nat) : List (Label (List UInt8)) → Option (Nat × PoolRouter H)
  | [] => some (current_index, r)
  | label :: labels =>
    (find_or_create_child alloc r current_index label).bind fun child =>
      if child.1 = UINT32_MAX then some child else add_path child.2 child.1 labels

/-- A route with a method and a handler in the trie: whether there was room. -/
def add_to_trie (value : Method × H) (r : PoolRouter H) (path : List UInt8) : Option (Bool × PoolRouter H) :=
  (add_path alloc r r.root_index (route_labels path)).bind fun (current_index, r) =>
    if current_index = UINT32_MAX then some (false, r)
    else
      (r.node_pool[current_index]?).map fun current =>
        (true, { r with
          node_pool := r.node_pool.set current_index { current with method := value.1, handler := some value.2 } })

/-- The loop of `migrate_to_trie`. -/
def migrate_routes (r : PoolRouter H) : List (ArrayRoute H) → Option (Bool × PoolRouter H)
  | [] => some (true, r)
  | route :: routes =>
    (add_to_trie alloc (route.method, route.handler) r route.path).bind fun added =>
      if !added.1 then some added else migrate_routes added.2 routes

/-- `migrate_to_trie` of a router in array mode. -/
def migrate_to_trie (r : PoolRouter H) (entries : List (ArrayRoute H)) : Option (UvhttpError × PoolRouter H) :=
  (migrate_routes alloc r entries).map fun migrated =>
    if !migrated.1 then (.OUT_OF_MEMORY, { migrated.2 with array_routes := .released })
    else (.OK, { migrated.2 with use_trie := true, array_routes := .routes [] })

def add_trie_route (r : PoolRouter H) (path : List UInt8) (method : Method) (handler : H) :
    Option (UvhttpError × PoolRouter H) :=
  (add_to_trie alloc (method, handler) r path).map fun added => (if added.1 then .OK else .OUT_OF_MEMORY, added.2)

/-- `uvhttp_router_add_route_method`. `none` is an access outside the pool, or to the freed
array. -/
def uvhttp_router_add_route_method (r : PoolRouter H) (path : List UInt8) (method : Method) (handler : Option H) :
    Option (UvhttpError × PoolRouter H) :=
  match handler with
  | none => some (.INVALID_PARAM, r)
  | some handler =>
    if path.length = 0 then some (.INVALID_PARAM, r)
    else if path.length ≥ MAX_ROUTE_PATH_LEN then some (.INVALID_PARAM, r)
    else if QUESTION_MARK ∈ path then some (.INVALID_PARAM, r)
    else if r.use_trie then add_trie_route alloc r path method handler
    else
      match r.array_routes with
      | .released => none
      | .routes entries =>
        if COLON ∈ path ∨ entries.length ≥ HYBRID_THRESHOLD then
          (migrate_to_trie alloc r entries).bind fun migrated =>
            if migrated.1 ≠ .OK then some migrated else add_trie_route alloc migrated.2 path method handler
        else
          let route : ArrayRoute H := ⟨path.take (MAX_ROUTE_PATH_LEN - 1), method, handler⟩
          some (.OK, { r with array_routes := .routes (entries ++ [route]) })

end insertion

section lookup

variable (node_pool : List (RouteNode H)) (method : Method)

/-- The loop goes on where nothing is found below a child. -/
def or_next (outcome next : Option (Outcome H)) : Option (Outcome H) :=
  match outcome with
  | some .missing => next
  | outcome => outcome

/-- One child in the loop of `match_route_node`: a parameter takes every segment, and is
written to the match. -/
def try_child (child : RouteNode H) (segment : List UInt8) (match_child : Nat → Option (Outcome H))
    (param_count : Nat) : Option (Outcome H) :=
  if child.is_param then if param_count < MAX_PARAMS then match_child (param_count + 1) else some .exhausted
  else if child.has_segment segment then match_child param_count
  else some .missing

/-- The loop of `match_route_node` over the children of a node: the result of the first of
them that takes the segment and below which a node is found. -/
def match_children (segment : List UInt8) (match_child : Nat → Nat → Option (Outcome H)) (param_count : Nat) :
    List Nat → Option (Outcome H)
  | [] => some .missing
  | child_index :: rest =>
    (node_pool[child_index]?).bind fun child =>
      or_next (try_child child segment (match_child child_index) param_count)
        (match_children segment match_child param_count rest)

/-- `match_route_node` with the segments from `segment_index` on and the number of the
parameters in the match. A search that writes a parameter beyond the match is exhausted,
and `none` is an access outside the pool. -/
def match_route_node : List (List UInt8) → Nat → Nat → Option (Outcome H)
  | [], node_index, param_count =>
    if node_index = UINT32_MAX then some .missing
    else
      (node_pool[node_index]?).map fun node =>
        outcome_of ((node.handler.map fun handler => (node.method, handler)).bind (node_handler method)) param_count
  | segment :: segments, node_index, param_count =>
    if node_index = UINT32_MAX then some .missing
    else
      (node_pool[node_index]?).bind fun node =>
        match_children node_pool segment (match_route_node segments) param_count node.children

end lookup

section registrations

/-- A call of `uvhttp_router_add_route_method` with the answers of the allocator. -/
structure Registration (H : Type) where
  path : List UInt8
  method : Method
  handler : Option H
  alloc : Nat → Bool

/-- The arguments are not refused. -/
structure Registration.Valid (reg : Registration H) : Prop where
  handler : reg.handler ≠ none
  nonempty : reg.path.length ≠ 0
  short : reg.path.length < MAX_ROUTE_PATH_LEN
  query : QUESTION_MARK ∉ reg.path

def register (r : PoolRouter H) (reg : Registration H) : Option (UvhttpError × PoolRouter H) :=
  uvhttp_router_add_route_method reg.alloc r reg.path reg.method reg.handler

/-- The children of the node with an index. -/
def children (node_pool : List (RouteNode H)) (node_index : Nat) : List Nat :=
  (node_pool[node_index]?).elim [] RouteNode.children

/-- The nodes that a path needs in addition to those of the pool: what is left of it behind
the last node that it finds, unless there is no room for another child. -/
def new_nodes (node_pool : List (RouteNode H)) : Nat → List (Label (List UInt8)) → Nat
  | _, [] => 0
  | current_index, label :: labels =>
    match find_child node_pool label.name (children node_pool current_index) with
    | some (some child_index) => new_nodes node_pool child_index labels
    | _ => if (children node_pool current_index).length ≥ MAX_CHILD_INDICES then 0 else labels.length + 1

/-- The fields of a node are in their bounds. -/
structure RouteNode.Valid (node : RouteNode H) : Prop where
  child_count_le : node.child_count ≤ MAX_CHILD_INDICES
  child_indices : node.child_indices.length = MAX_CHILD_INDICES
  segment_len_le : node.segment_len ≤ 31
  segment_data : node.segment_data.length = SEGMENT_DATA_SIZE

/-- The nodes in use are a tree in the pool, and a search in it stays there. -/
structure PoolTree (r : PoolRouter H) : Prop where
  length : r.node_pool.length = r.node_pool_size
  used_le : r.node_pool_used ≤ r.node_pool_size
  nodes : ∀ node ∈ r.node_pool, node.Valid
  tree : IndexedTree r.node_pool_used r.root_index (children r.node_pool)
  reached : ∀ j < r.node_pool_used, ∃! way, Way r.root_index (children r.node_pool) way j
  searched : ∀ method segments, ∃ outcome, match_route_node r.node_pool method segments r.root_index 0 = some outcome

/-- The pool is a tree after every registration of a run. -/
def RunIsTree : PoolRouter H → List (Registration H) → Prop
  | r, [] => PoolTree r
  | r, reg :: regs => PoolTree r ∧ ∃ err r', register r reg = some (err, r') ∧ RunIsTree r' regs

/-- A registration does not work on the freed array, and needs no node above the largest
number of nodes that a pool can have. -/
structure RegistrationFits (r : PoolRouter H) (reg : Registration H) : Prop where
  live : r.use_trie = false → r.array_routes ≠ .released
  room : r.use_trie = true →
    r.node_pool_used + new_nodes r.node_pool r.root_index (route_labels reg.path) ≤ 2 ^ 31

/-- Every registration of a run that is not refused fits. -/
def RunFits : PoolRouter H → List (Registration H) → Prop
  | _, [] => True
  | r, reg :: regs =>
    (reg.Valid → RegistrationFits r reg) ∧ ∀ err r', register r reg = some (err, r') → RunFits r' regs

end registrations

/-- What registrations keep of the pool. -/
structure PoolValid (r : PoolRouter H) : Prop where
  length : r.node_pool.length = r.node_pool_size
  used_le : r.node_pool_used ≤ r.node_pool_size
  bound : r.node_pool_used ≤ 2 ^ 31
  nodes : ∀ node ∈ r.node_pool, node.Valid
  fresh : ∀ i node, r.node_pool_used ≤ i → r.node_pool[i]? = some node → node = .zero
  tree : IndexedTree r.node_pool_used r.root_index (children r.node_pool)

section nodes

variable {node_pool : List (RouteNode H)} {node : RouteNode H} {i : Nat}

theorem zero_valid : (RouteNode.zero : RouteNode H).Valid :=
  ⟨Nat.zero_le _, List.length_replicate, Nat.zero_le _, List.length_replicate⟩

theorem children_eq (h : node_pool[i]? = some node) : children node_pool i = node.children := by
  rw [children, h]
  rfl

theorem length_children (h : node.Valid) : node.children.length = node.child_count := by
  rw [RouteNode.children, List.length_take, h.child_indices]
  exact Nat.min_eq_left h.child_count_le

theorem set_segment_valid (h : node.Valid) (label : Label (List UInt8)) : (node.set_segment label).Valid := by
  have hlen : (if label.name.length < SEGMENT_DATA_SIZE then label.name.length else SEGMENT_DATA_SIZE - 1) ≤
      SEGMENT_DATA_SIZE - 1 ∧
      (if label.name.length < SEGMENT_DATA_SIZE then label.name.length else SEGMENT_DATA_SIZE - 1) ≤
      label.name.length := by
    split <;> omega
  refine ⟨h.child_count_le, h.child_indices, hlen.1, ?_⟩
  rw [RouteNode.set_segment, List.length_append, List.length_take, List.length_drop, h.segment_data,
    Nat.min_eq_left hlen.2, Nat.add_sub_cancel']
  exact hlen.1.trans (Nat.sub_le _ _)

theorem add_child_valid (h : node.Valid) (hroom : node.child_count < MAX_CHILD_INDICES) (child_index : Nat) :
    (node.add_child child_index).Valid :=
  ⟨hroom, by rw [RouteNode.add_child, List.length_set, h.child_indices], h.segment_len_le, h.segment_data⟩

theorem add_child_children (h : node.Valid) (hroom : node.child_count < MAX_CHILD_INDICES) (child_index : Nat) :
    (node.add_child child_index).children = node.children ++ [child_index] := by
  have hindex : node.child_count < (node.child_indices.set node.child_count child_index).length := by
    rw [List.length_set, h.child_indices]
    exact hroom
  rw [RouteNode.children, RouteNode.add_child, List.take_succ_eq_append_getElem hindex,
    List.take_set_of_le (Nat.le_refl _), List.getElem_set_self]
  rfl

theorem find_child_spec {segment : List UInt8} {indices : List Nat} (h : ∀ j ∈ indices, j < node_pool.length) :
    ∃ found, find_child node_pool segment indices = some found ∧ ∀ j, found = some j → j ∈ indices := by
  induction indices with
  | nil => exact ⟨none, rfl, fun j hj => by cases hj⟩
  | cons i indices ih =>
    obtain ⟨hi, hrest⟩ := List.forall_mem_cons.mp h
    rw [find_child, List.getElem?_eq_getElem hi, Option.bind_some]
    split
    · refine ⟨some i, rfl, fun j hj => ?_⟩
      rw [← Option.some.inj hj]
      exact List.mem_cons_self
    · obtain ⟨found, hfound, hmem⟩ := ih hrest
      exact ⟨found, hfound, fun j hj => List.mem_cons_of_mem _ (hmem j hj)⟩

theorem new_nodes_le (current_index : Nat) (labels : List (Label (List UInt8))) :
    new_nodes node_pool current_index labels ≤ labels.length := by
  induction labels generalizing current_index with
  | nil => exact Nat.le_refl _
  | cons label labels ih =>
    rw [new_nodes, List.length_cons]
    split
    · exact (ih _).trans (Nat.le_succ _)
    · split
      · exact Nat.zero_le _
      · exact Nat.le_refl _

end nodes

section growth

variable {r r' : PoolRouter H} {alloc : Nat → Bool} {parent_index : Nat} {label : Label (List UInt8)}

theorem PoolValid.lookup (h : PoolValid r) {i : Nat} (hi : i < r.node_pool_used) :
    ∃ node, r.node_pool[i]? = some node ∧ node.Valid := by
  have hlt : i < r.node_pool.length := by
    rw [h.length]
    exact hi.trans_le h.used_le
  exact ⟨r.node_pool[i], List.getElem?_eq_getElem hlt, h.nodes _ (List.getElem_mem hlt)⟩

theorem PoolValid.child_lt (h : PoolValid r) {i j : Nat} (hi : i < r.node_pool_used)
    (hj : j ∈ children r.node_pool i) : j < r.node_pool_used := (h.tree.child_lt i hi j hj).2.1

theorem PoolValid.lt_length (h : PoolValid r) {i : Nat} (hi : i < r.node_pool_used) : i < r.node_pool.length := by
  rw [h.length]
  exact hi.trans_le h.used_le

/-- A node is refused, or it is the next one of a pool that may have grown. -/
theorem create_route_node_spec (h : PoolValid r) (hroom : r.node_pool_used < 2 ^ 31) (alloc : Nat → Bool) :
    create_route_node alloc r = (UINT32_MAX, r) ∨
      ∃ extra, create_route_node alloc r = (r.node_pool_used, { r with
        node_pool := r.node_pool ++ List.replicate extra .zero
        node_pool_size := r.node_pool_size + extra
        node_pool_used := r.node_pool_used + 1 }) ∧ r.node_pool_used + 1 ≤ r.node_pool_size + extra := by
  have hpos := h.tree.root_lt
  rw [create_route_node]
  by_cases hfull : r.node_pool_used ≥ r.node_pool_size
  · have hsize : r.node_pool_size * 2 % 2 ^ 32 = r.node_pool_size * 2 := Nat.mod_eq_of_lt (by omega)
    have hused := h.used_le
    rw [if_pos hfull, hsize]
    dsimp only
    by_cases hrefused : (!alloc (r.node_pool_size * 2 * SIZEOF_ROUTE_NODE)) = true
    · left
      rw [if_pos hrefused, if_neg (by omega)]
    · right
      rw [if_neg hrefused]
      refine ⟨r.node_pool_size, ?_, by omega⟩
      have hextra : r.node_pool_size * 2 - r.node_pool.length = r.node_pool_size := by
        rw [h.length]
        omega
      have htake : r.node_pool.take (r.node_pool_size * 2) = r.node_pool := by
        apply List.take_of_length_le
        rw [h.length]
        omega
      rw [hextra, htake, ← Nat.mul_two]
  · rw [if_neg hfull]
    right
    refine ⟨0, ?_, by omega⟩
    rw [List.replicate_zero, List.append_nil]
    rfl

/-- The nodes of a longer pool that are not in use are zero. -/
theorem PoolValid.grown_zero (h : PoolValid r) (extra : Nat) {i : Nat} (hi : r.node_pool_used ≤ i) {node : RouteNode H}
    (hnode : (r.node_pool ++ List.replicate extra RouteNode.zero)[i]? = some node) : node = .zero := by
  rcases Nat.lt_or_ge i r.node_pool.length with hlt | hge
  · rw [List.getElem?_append_left hlt] at hnode
    exact h.fresh i node hi hnode
  · rw [List.getElem?_append_right hge] at hnode
    exact (List.mem_replicate.mp (List.mem_of_getElem? hnode)).2

/-- The next node of a pool with room. -/
theorem PoolValid.grown_next (h : PoolValid r) {extra : Nat} (hsize : r.node_pool_used < r.node_pool_size + extra) :
    (r.node_pool ++ List.replicate extra RouteNode.zero)[r.node_pool_used]? = some .zero := by
  have hlt : r.node_pool_used < (r.node_pool ++ List.replicate extra RouteNode.zero).length := by
    rw [List.length_append, List.length_replicate, h.length]
    exact hsize
  rw [List.getElem?_eq_getElem hlt]
  exact congrArg some (h.grown_zero extra (Nat.le_refl _) (List.getElem?_eq_getElem hlt))

/-- A child has been created at the end of the nodes in use. -/
structure ChildCreated (r : PoolRouter H) (parent_index : Nat) (label : Label (List UInt8)) (r' : PoolRouter H) :
    Prop where
  use_trie : r'.use_trie = r.use_trie
  array_routes : r'.array_routes = r.array_routes
  root_index : r'.root_index = r.root_index
  used : r'.node_pool_used = r.node_pool_used + 1
  used_le : r'.node_pool_used ≤ r'.node_pool_size
  length : r'.node_pool.length = r'.node_pool_size
  child : r'.node_pool[r.node_pool_used]? = some (RouteNode.zero.set_segment label)
  parent : r'.node_pool[parent_index]? = (r.node_pool[parent_index]?).map (RouteNode.add_child · r.node_pool_used)
  others : ∀ i < r.node_pool_used, i ≠ parent_index → r'.node_pool[i]? = r.node_pool[i]?
  fresh : ∀ i node, r.node_pool_used < i → r'.node_pool[i]? = some node → node = .zero

theorem create_child_spec (h : PoolValid r) (hroom : r.node_pool_used < 2 ^ 31)
    (hparent : parent_index < r.node_pool_used) (label : Label (List UInt8)) :
    create_child alloc r parent_index label = some (UINT32_MAX, r) ∨
      ∃ r', create_child alloc r parent_index label = some (r.node_pool_used, r') ∧
        ChildCreated r parent_index label r' := by
  have hmax : r.node_pool_used ≠ UINT32_MAX := by
    rw [UINT32_MAX]
    omega
  rw [create_child]
  rcases create_route_node_spec h hroom alloc with hrefused | ⟨extra, hcreated, hsize⟩
  · left
    rw [hrefused]
    rfl
  · right
    rw [hcreated]
    dsimp only
    rw [if_neg hmax]
    have hlength : (r.node_pool ++ List.replicate extra RouteNode.zero).length = r.node_pool_size + extra := by
      rw [List.length_append, List.length_replicate, h.length]
    have hold : ∀ i < r.node_pool_used, (r.node_pool ++ List.replicate extra RouteNode.zero)[i]? = r.node_pool[i]? :=
      fun i hi => List.getElem?_append_left (h.lt_length hi)
    have hzero : ∀ i node, r.node_pool_used ≤ i →
        (r.node_pool ++ List.replicate extra RouteNode.zero)[i]? = some node → node = .zero :=
      fun i node hi => h.grown_zero extra hi
    have hchild := h.grown_next hsize
    obtain ⟨parent, hlookup, -⟩ := h.lookup hparent
    generalize r.node_pool ++ List.replicate extra RouteNode.zero = grown at hlength hold hzero hchild
    rw [hchild, Option.bind_some]
    have hnew : ∀ i, i ≠ r.node_pool_used →
        (grown.set r.node_pool_used (RouteNode.zero.set_segment label))[i]? = grown[i]? :=
      fun i hi => List.getElem?_set_ne hi.symm
    have hself : (grown.set r.node_pool_used (RouteNode.zero.set_segment label))[r.node_pool_used]? =
        some (RouteNode.zero.set_segment label) := by
      rw [List.getElem?_set_self]
      rw [hlength]
      exact hsize
    rw [hnew _ hparent.ne, hold _ hparent, hlookup, Option.map_some]
    refine ⟨_, rfl, rfl, rfl, rfl, rfl, hsize, ?_, ?_, ?_, ?_, ?_⟩
    · dsimp only
      rw [List.length_set, List.length_set, hlength]
    · dsimp only
      rw [List.getElem?_set_ne hparent.ne, hself]
    · dsimp only
      rw [hlookup, List.getElem?_set_self, Option.map_some]
      rw [List.length_set, hlength]
      omega
    · intro i hi hne
      dsimp only
      rw [List.getElem?_set_ne hne.symm, hnew i hi.ne, hold i hi]
    · intro i node hi hnode
      dsimp only at hnode
      rw [List.getElem?_set_ne (hparent.trans hi).ne, hnew i hi.ne'] at hnode
      exact hzero i node hi.le hnode

/-- With its new child the pool is still a tree. -/
theorem ChildCreated.valid (hcreated : ChildCreated r parent_index label r') (h : PoolValid r)
    (hroom : r.node_pool_used < 2 ^ 31) (hparent : parent_index < r.node_pool_used)
    (hfew : (children r.node_pool parent_index).length < MAX_CHILD_INDICES) : PoolValid r' := by
  obtain ⟨parent, hlookup, hvalid⟩ := h.lookup hparent
  have hcount : parent.child_count < MAX_CHILD_INDICES := by
    rw [children_eq hlookup, length_children hvalid] at hfew
    exact hfew
  have hlinked : r'.node_pool[parent_index]? = some (parent.add_child r.node_pool_used) := by
    rw [hcreated.parent, hlookup]
    rfl
  have hnew : children r'.node_pool r.node_pool_used = [] := by
    rw [children_eq hcreated.child]
    rfl
  refine ⟨hcreated.length, hcreated.used_le, ?_, ?_, ?_, ?_⟩
  · rw [hcreated.used]
    exact hroom
  · intro node hnode
    obtain ⟨i, hi⟩ := List.getElem?_of_mem hnode
    rcases Nat.lt_trichotomy i r.node_pool_used with hlt | rfl | hgt
    · by_cases hsame : i = parent_index
      · rw [hsame, hlinked] at hi
        rw [← Option.some.inj hi]
        exact add_child_valid hvalid hcount _
      · rw [hcreated.others i hlt hsame] at hi
        exact h.nodes node (List.mem_of_getElem? hi)
    · rw [hcreated.child] at hi
      rw [← Option.some.inj hi]
      exact set_segment_valid zero_valid label
    · rw [hcreated.fresh i node hgt hi]
      exact zero_valid
  · intro i node hi hnode
    rw [hcreated.used] at hi
    exact hcreated.fresh i node hi hnode
  · rw [hcreated.used, hcreated.root_index]
    refine h.tree.add hparent ?_ hnew ?_
    · rw [children_eq hlinked, add_child_children hvalid hcount, children_eq hlookup]
    · intro k hk hne
      rw [children, hcreated.others k hk hne]
      rfl

/-- What `find_or_create_child` does: the child that it finds, a refusal, or a new child. -/
inductive ChildResult (r : PoolRouter H) (parent_index : Nat) (label : Label (List UInt8)) : Nat × PoolRouter H → Prop
  | found {j : Nat} : find_child r.node_pool label.name (children r.node_pool parent_index) = some (some j) →
      j ∈ children r.node_pool parent_index → ChildResult r parent_index label (j, r)
  | refused : find_child r.node_pool label.name (children r.node_pool parent_index) = some none →
      ChildResult r parent_index label (UINT32_MAX, r)
  | created {r' : PoolRouter H} :
      find_child r.node_pool label.name (children r.node_pool parent_index) = some none →
      (children r.node_pool parent_index).length < MAX_CHILD_INDICES → ChildCreated r parent_index label r' →
      ChildResult r parent_index label (r.node_pool_used, r')

theorem find_or_create_child_spec (h : PoolValid r) (hparent : parent_index < r.node_pool_used)
    (hroom : find_child r.node_pool label.name (children r.node_pool parent_index) = some none →
      (children r.node_pool parent_index).length < MAX_CHILD_INDICES → r.node_pool_used < 2 ^ 31) :
    ∃ result, find_or_create_child alloc r parent_index label = some result ∧
      ChildResult r parent_index label result := by
  obtain ⟨parent, hlookup, hvalid⟩ := h.lookup hparent
  have hindices : ∀ j ∈ children r.node_pool parent_index, j < r.node_pool.length :=
    fun j hj => h.lt_length (h.child_lt hparent hj)
  obtain ⟨found, hfound, hmem⟩ := @find_child_spec H r.node_pool label.name _ hindices
  have hfind := hfound
  rw [children_eq hlookup] at hfind
  rw [find_or_create_child, hlookup, Option.bind_some, hfind, Option.bind_some]
  cases found with
  | some j => exact ⟨_, rfl, .found hfound (hmem j rfl)⟩
  | none =>
    dsimp only
    by_cases hfull : parent.child_count ≥ MAX_CHILD_INDICES
    · rw [if_pos hfull]
      exact ⟨_, rfl, .refused hfound⟩
    · rw [if_neg hfull]
      have hfew : (children r.node_pool parent_index).length < MAX_CHILD_INDICES := by
        rw [children_eq hlookup, length_children hvalid]
        exact Nat.not_le.mp hfull
      rcases create_child_spec h (hroom hfound hfew) hparent label with hrefused | ⟨r', hcreated, hchild⟩
      · exact ⟨_, hrefused, .refused hfound⟩
      · exact ⟨_, hcreated, .created hfound hfew hchild⟩

/-- The pool has at most `count` nodes more. -/
structure Grown (r : PoolRouter H) (count : Nat) (r' : PoolRouter H) : Prop where
  use_trie : r'.use_trie = r.use_trie
  array_routes : r'.array_routes = r.array_routes
  root_index : r'.root_index = r.root_index
  used_ge : r.node_pool_used ≤ r'.node_pool_used
  used_le : r'.node_pool_used ≤ r.node_pool_used + count

theorem Grown.refl (r : PoolRouter H) (count : Nat) : Grown r count r :=
  ⟨rfl, rfl, rfl, Nat.le_refl _, Nat.le_add_right _ _⟩

theorem Grown.trans {r'' : PoolRouter H} {count count' : Nat} (h : Grown r count r') (h' : Grown r' count' r'') :
    Grown r (count + count') r'' :=
  ⟨h'.use_trie.trans h.use_trie, h'.array_routes.trans h.array_routes, h'.root_index.trans h.root_index,
    h.used_ge.trans h'.used_ge, by have hle := h.used_le; have hle' := h'.used_le; omega⟩

theorem ChildCreated.grown (h : ChildCreated r parent_index label r') : Grown r 1 r' :=
  ⟨h.use_trie, h.array_routes, h.root_index, by rw [h.used]; exact Nat.le_succ _, h.used.le⟩

theorem PoolValid.index_ne (h : PoolValid r) {i : Nat} (hi : i < r.node_pool_used) : i ≠ UINT32_MAX := by
  have hbound := h.bound
  rw [UINT32_MAX]
  omega

/-- Following a path keeps the tree, whether there is room for all of it or not. -/
theorem add_path_spec (h : PoolValid r) {current_index : Nat} (hcurrent : current_index < r.node_pool_used)
    {labels : List (Label (List UInt8))}
    (hroom : r.node_pool_used + new_nodes r.node_pool current_index labels ≤ 2 ^ 31) :
    ∃ i r', add_path alloc r current_index labels = some (i, r') ∧ PoolValid r' ∧ Grown r labels.length r' ∧
      (i = UINT32_MAX ∨ i < r'.node_pool_used) := by
  induction labels generalizing r current_index with
  | nil => exact ⟨_, _, rfl, h, .refl r 0, .inr hcurrent⟩
  | cons label labels ih =>
    have hneeded : find_child r.node_pool label.name (children r.node_pool current_index) = some none →
        (children r.node_pool current_index).length < MAX_CHILD_INDICES →
        r.node_pool_used + labels.length < 2 ^ 31 := by
      intro hnone hfew
      rw [new_nodes, hnone] at hroom
      dsimp only at hroom
      rw [if_neg (Nat.not_le.mpr hfew)] at hroom
      omega
    obtain ⟨result, hresult, hchild⟩ := @find_or_create_child_spec H r alloc current_index label h hcurrent
      fun hnone hfew => (Nat.le_add_right _ _).trans_lt (hneeded hnone hfew)
    rw [add_path, hresult, Option.bind_some]
    cases hchild with
    | @found j hfound hmem =>
      have hj := h.child_lt hcurrent hmem
      rw [new_nodes, hfound] at hroom
      obtain ⟨i, r', hadded, hvalid, hgrown, hindex⟩ := ih h hj hroom
      refine ⟨i, r', ?_, hvalid, ?_, hindex⟩
      · rw [if_neg (h.index_ne hj)]
        exact hadded
      · rw [List.length_cons, Nat.add_comm]
        exact (Grown.refl r 1).trans hgrown
    | refused hnone =>
      rw [if_pos rfl]
      exact ⟨_, _, rfl, h, .refl r _, .inl rfl⟩
    | @created r' hnone hfew hcreated =>
      have hspace := hneeded hnone hfew
      have hvalid := hcreated.valid h (by omega) hcurrent hfew
      have hchild : r.node_pool_used < r'.node_pool_used := by
        rw [hcreated.used]
        exact Nat.lt_succ_self _
      obtain ⟨i, r'', hadded, hvalid', hgrown, hindex⟩ := ih hvalid hchild (by
        have hle := @new_nodes_le H r'.node_pool r.node_pool_used labels
        have hused := hcreated.used
        omega)
      refine ⟨i, r'', ?_, hvalid', ?_, hindex⟩
      · rw [if_neg (hvalid.index_ne hchild)]
        exact hadded
      · rw [List.length_cons, Nat.add_comm]
        exact hcreated.grown.trans hgrown

end growth

section routes

variable {r : PoolRouter H} {alloc : Nat → Bool}

/-- A method and a handler do not change the tree. -/
theorem PoolValid.set_handler (h : PoolValid r) {i : Nat} (hi : i < r.node_pool_used) {node : RouteNode H}
    (hnode : r.node_pool[i]? = some node) (value : Method × H) :
    PoolValid { r with
      node_pool := r.node_pool.set i { node with method := value.1, handler := some value.2 } } := by
  have hvalid := h.nodes node (List.mem_of_getElem? hnode)
  have hself : (r.node_pool.set i { node with method := value.1, handler := some value.2 })[i]? =
      some { node with method := value.1, handler := some value.2 } := List.getElem?_set_self (h.lt_length hi)
  have hchildren : children (r.node_pool.set i { node with method := value.1, handler := some value.2 }) =
      children r.node_pool := by
    funext k
    by_cases hk : k = i
    · rw [hk, children_eq hself, children_eq hnode]
      rfl
    · rw [children, List.getElem?_set_ne (Ne.symm hk)]
      rfl
  refine ⟨?_, h.used_le, h.bound, ?_, ?_, ?_⟩
  · exact List.length_set.trans h.length
  · intro other hother
    rcases List.mem_or_eq_of_mem_set hother with hold | rfl
    · exact h.nodes other hold
    · exact ⟨hvalid.child_count_le, hvalid.child_indices, hvalid.segment_len_le, hvalid.segment_data⟩
  · intro k other hk hother
    dsimp only at hk hother
    rw [List.getElem?_set_ne (hi.trans_le hk).ne] at hother
    exact h.fresh k other hk hother
  · dsimp only
    rw [hchildren]
    exact h.tree

theorem add_to_trie_spec (h : PoolValid r) (value : Method × H) {path : List UInt8}
    (hroom : r.node_pool_used + new_nodes r.node_pool r.root_index (route_labels path) ≤ 2 ^ 31) :
    ∃ ok r', add_to_trie alloc value r path = some (ok, r') ∧ PoolValid r' ∧
      Grown r (route_labels path).length r' := by
  obtain ⟨i, r', hadded, hvalid, hgrown, hindex⟩ := @add_path_spec H r alloc h _ h.tree.root_lt _ hroom
  rw [add_to_trie, hadded, Option.bind_some]
  by_cases hmax : i = UINT32_MAX
  · exact ⟨false, r', if_pos hmax, hvalid, hgrown⟩
  · have hi := hindex.resolve_left hmax
    obtain ⟨node, hnode, -⟩ := hvalid.lookup hi
    refine ⟨true, _, ?_, hvalid.set_handler hi hnode value, ?_⟩
    · dsimp only
      rw [if_neg hmax, hnode]
      rfl
    · exact ⟨hgrown.use_trie, hgrown.array_routes, hgrown.root_index, hgrown.used_ge, hgrown.used_le⟩

theorem length_split_slash (path : List UInt8) : (router.split_slash path).length ≤ path.length + 1 := by
  induction path with
  | nil => exact Nat.le_refl _
  | cons c path ih =>
    rw [router.split_slash]
    split
    · exact Nat.succ_le_succ ih
    · split
      · exact Nat.succ_le_succ (Nat.zero_le _)
      · rename_i piece pieces hsplit
        rw [hsplit] at ih
        exact ih.trans (Nat.le_succ _)

/-- A path has no more tokens than its copy has characters. -/
theorem length_route_labels (path : List UInt8) : (route_labels path).length ≤ MAX_ROUTE_PATH_LEN := by
  rw [route_labels, List.length_map, router.path_segments, router.strtok]
  refine (List.length_filter_le _ _).trans ((length_split_slash _).trans ?_)
  have hcopy : (router.path_copy path).length ≤ MAX_ROUTE_PATH_LEN - 1 := List.length_take_le _ _
  exact (Nat.succ_le_succ hcopy).trans (by decide)

theorem migrate_routes_spec (h : PoolValid r) {entries : List (ArrayRoute H)}
    (hroom : r.node_pool_used + MAX_ROUTE_PATH_LEN * entries.length ≤ 2 ^ 31) :
    ∃ ok r', migrate_routes alloc r entries = some (ok, r') ∧ PoolValid r' ∧
      Grown r (MAX_ROUTE_PATH_LEN * entries.length) r' := by
  induction entries generalizing r with
  | nil => exact ⟨true, r, rfl, h, .refl r 0⟩
  | cons route entries ih =>
    have hlabels := length_route_labels route.path
    have hnew := @new_nodes_le H r.node_pool r.root_index (route_labels route.path)
    rw [List.length_cons, Nat.mul_succ] at hroom
    obtain ⟨ok, r', hadded, hvalid, hgrown⟩ :=
      @add_to_trie_spec H r alloc h (route.method, route.handler) route.path (by omega)
    have hused := hgrown.used_le
    have hgrown' : Grown r MAX_ROUTE_PATH_LEN r' :=
      ⟨hgrown.use_trie, hgrown.array_routes, hgrown.root_index, hgrown.used_ge, by omega⟩
    rw [migrate_routes, hadded, Option.bind_some]
    have hlength : MAX_ROUTE_PATH_LEN * (route :: entries).length =
        MAX_ROUTE_PATH_LEN + MAX_ROUTE_PATH_LEN * entries.length := by
      rw [List.length_cons, Nat.mul_succ, Nat.add_comm]
    rw [hlength]
    cases ok with
    | false => exact ⟨false, r', rfl, hvalid, hgrown'.trans (.refl r' _)⟩
    | true =>
      obtain ⟨ok, r'', hmigrated, hvalid', hrest⟩ := ih hvalid (by omega)
      exact ⟨ok, r'', hmigrated, hvalid', hgrown'.trans hrest⟩

/-- A router between two registrations: with its routes in the array, its trie has no node
but the root. -/
structure PoolReady (r : PoolRouter H) : Prop extends PoolValid r where
  array : r.use_trie = false → ∀ entries, r.array_routes = .routes entries →
    r.node_pool_used = 1 ∧ entries.length ≤ HYBRID_THRESHOLD

theorem ready_of_trie (h : PoolValid r) (htrie : r.use_trie = true) : PoolReady r :=
  ⟨h, fun hmode => by cases hmode.symm.trans htrie⟩

theorem add_trie_route_spec (h : PoolValid r) (htrie : r.use_trie = true) {path : List UInt8} (method : Method)
    (handler : H) (hroom : r.node_pool_used + new_nodes r.node_pool r.root_index (route_labels path) ≤ 2 ^ 31) :
    ∃ err r', add_trie_route alloc r path method handler = some (err, r') ∧ PoolReady r' := by
  obtain ⟨ok, r', hadded, hvalid, hgrown⟩ := @add_to_trie_spec H r alloc h (method, handler) path hroom
  rw [add_trie_route, hadded]
  exact ⟨_, r', rfl, ready_of_trie hvalid (hgrown.use_trie.trans htrie)⟩

/-- The checks of the path refuse what is not valid. -/
theorem checks_refuse {α : Type} {reg : Registration H} {handler : H} (hhandler : reg.handler = some handler)
    (hrefused : ¬ reg.Valid) (refused accepted : α) :
    (if reg.path.length = 0 then refused
      else if reg.path.length ≥ MAX_ROUTE_PATH_LEN then refused
      else if QUESTION_MARK ∈ reg.path then refused
      else accepted) = refused := by
  by_cases hempty : reg.path.length = 0
  · rw [if_pos hempty]
  · rw [if_neg hempty]
    by_cases hlong : reg.path.length ≥ MAX_ROUTE_PATH_LEN
    · rw [if_pos hlong]
    · rw [if_neg hlong]
      by_cases hquery : QUESTION_MARK ∈ reg.path
      · rw [if_pos hquery]
      · refine absurd ⟨?_, hempty, Nat.not_le.mp hlong, hquery⟩ hrefused
        rw [hhandler]
        exact Option.some_ne_none handler

/-- Arguments that are refused leave the router as it is. -/
theorem register_refused (r : PoolRouter H) {reg : Registration H} (hrefused : ¬ reg.Valid) :
    register r reg = some (.INVALID_PARAM, r) := by
  rw [register]
  cases hhandler : reg.handler with
  | none => rfl
  | some handler => exact checks_refuse hhandler hrefused _ _

/-- The move to the trie keeps the tree, also when it fails, and leaves room for another route. -/
theorem migrate_to_trie_spec (h : PoolValid r) (hused : r.node_pool_used = 1) {entries : List (ArrayRoute H)}
    (hlength : entries.length ≤ HYBRID_THRESHOLD) :
    ∃ err r', migrate_to_trie alloc r entries = some (err, r') ∧ PoolReady r' ∧
      (err = .OK → r'.use_trie = true ∧ r'.node_pool_used + MAX_ROUTE_PATH_LEN ≤ 2 ^ 31) := by
  rw [HYBRID_THRESHOLD] at hlength
  obtain ⟨ok, r', hmigrated, hpool, hgrown⟩ := @migrate_routes_spec H r alloc h entries
    (by rw [hused, MAX_ROUTE_PATH_LEN]; omega)
  rw [migrate_to_trie, hmigrated, Option.map_some]
  cases ok with
  | false =>
    refine ⟨.OUT_OF_MEMORY, { r' with array_routes := .released }, rfl, ⟨?_, ?_⟩, fun herr => by cases herr⟩
    · exact ⟨hpool.length, hpool.used_le, hpool.bound, hpool.nodes, hpool.fresh, hpool.tree⟩
    · rintro - entries' hentries
      cases hentries
  | true =>
    have hspace := hgrown.used_le
    rw [hused, MAX_ROUTE_PATH_LEN] at hspace
    refine ⟨.OK, { r' with use_trie := true, array_routes := .routes [] }, rfl, ready_of_trie ?_ rfl,
      fun _ => ⟨rfl, ?_⟩⟩
    · exact ⟨hpool.length, hpool.used_le, hpool.bound, hpool.nodes, hpool.fresh, hpool.tree⟩
    · dsimp only
      rw [MAX_ROUTE_PATH_LEN]
      omega

/-- A registration that fits keeps the tree, also when it fails. -/
theorem register_spec (h : PoolReady r) {reg : Registration H} (hfits : reg.Valid → RegistrationFits r reg) :
    ∃ err r', register r reg = some (err, r') ∧ PoolReady r' := by
  by_cases hvalid : reg.Valid
  · obtain ⟨handler, hhandler⟩ := Option.ne_none_iff_exists'.mp hvalid.handler
    have hfit := hfits hvalid
    rw [register, hhandler, uvhttp_router_add_route_method]
    dsimp only
    rw [if_neg hvalid.nonempty, if_neg (Nat.not_le.mpr hvalid.short), if_neg hvalid.query]
    cases hmode : r.use_trie with
    | true => exact add_trie_route_spec h.toPoolValid hmode reg.method handler (hfit.room hmode)
    | false =>
      rw [if_neg Bool.false_ne_true]
      cases harray : r.array_routes with
      | released => exact absurd harray (hfit.live hmode)
      | routes entries =>
        obtain ⟨hused, hlength⟩ := h.array hmode entries harray
        dsimp only
        by_cases hmigrates : COLON ∈ reg.path ∨ entries.length ≥ HYBRID_THRESHOLD
        · rw [if_pos hmigrates]
          obtain ⟨err, r', hmigrated, hready, hspace⟩ :=
            @migrate_to_trie_spec H r reg.alloc h.toPoolValid hused entries hlength
          rw [hmigrated, Option.bind_some]
          by_cases herr : err = .OK
          · obtain ⟨htrie, hroom⟩ := hspace herr
            have hlabels := length_route_labels reg.path
            have hnew := @new_nodes_le H r'.node_pool r'.root_index (route_labels reg.path)
            rw [if_neg (not_not_intro herr)]
            exact add_trie_route_spec hready.toPoolValid htrie reg.method handler (by omega)
          · rw [if_pos herr]
            exact ⟨err, r', rfl, hready⟩
        · rw [if_neg hmigrates]
          refine ⟨.OK, _, rfl, ⟨?_, ?_⟩⟩
          · exact ⟨h.length, h.used_le, h.bound, h.nodes, h.fresh, h.tree⟩
          · rintro - entries' hentries
            obtain rfl := ArrayTable.routes.inj hentries
            refine ⟨hused, ?_⟩
            rw [List.length_append, List.length_singleton]
            exact Nat.lt_of_not_le fun hfull => hmigrates (.inr hfull)
  · exact ⟨.INVALID_PARAM, r, register_refused r hvalid, h⟩

end routes

section searches

variable {r : PoolRouter H} {method : Method}

theorem try_child_total {child : RouteNode H} {segment : List UInt8} {match_child : Nat → Option (Outcome H)}
    (h : ∀ param_count, ∃ outcome, match_child param_count = some outcome) (param_count : Nat) :
    ∃ outcome, try_child child segment match_child param_count = some outcome := by
  rw [try_child]
  split
  · split
    · exact h _
    · exact ⟨_, rfl⟩
  · split
    · exact h _
    · exact ⟨_, rfl⟩

theorem match_children_total {segment : List UInt8} {match_child : Nat → Nat → Option (Outcome H)}
    {indices : List Nat} (h : ∀ j ∈ indices, j < r.node_pool.length)
    (hbelow : ∀ j ∈ indices, ∀ param_count, ∃ outcome, match_child j param_count = some outcome) (param_count : Nat) :
    ∃ outcome, match_children r.node_pool segment match_child param_count indices = some outcome := by
  induction indices with
  | nil => exact ⟨.missing, rfl⟩
  | cons i indices ih =>
    obtain ⟨hi, hrest⟩ := List.forall_mem_cons.mp h
    obtain ⟨hchild, hlater⟩ := List.forall_mem_cons.mp hbelow
    obtain ⟨outcome, houtcome⟩ := @try_child_total H r.node_pool[i] segment _ hchild param_count
    obtain ⟨later, hnext⟩ := ih hrest hlater
    rw [match_children, List.getElem?_eq_getElem hi, Option.bind_some, houtcome, hnext]
    cases outcome with
    | missing => exact ⟨later, rfl⟩
    | found handler count => exact ⟨_, rfl⟩
    | exhausted => exact ⟨_, rfl⟩

/-- A search from any node ends, within the pool. -/
theorem match_route_node_total (h : PoolValid r) (segments : List (List UInt8)) {i : Nat}
    (hi : i < r.node_pool_used) (param_count : Nat) :
    ∃ outcome, match_route_node r.node_pool method segments i param_count = some outcome := by
  obtain ⟨node, hnode, -⟩ := h.lookup hi
  induction segments generalizing i node param_count with
  | nil =>
    rw [match_route_node, if_neg (h.index_ne hi), hnode]
    exact ⟨_, rfl⟩
  | cons segment segments ih =>
    have hchild : ∀ j ∈ node.children, j < r.node_pool_used := by
      intro j hj
      rw [← children_eq hnode] at hj
      exact h.child_lt hi hj
    rw [match_route_node, if_neg (h.index_ne hi), hnode, Option.bind_some]
    refine match_children_total (fun j hj => h.lt_length (hchild j hj)) (fun j hj param_count => ?_) param_count
    obtain ⟨child, hlookup, -⟩ := h.lookup (hchild j hj)
    exact ih (hchild j hj) param_count child hlookup

theorem PoolValid.pool_tree (h : PoolValid r) : PoolTree r :=
  ⟨h.length, h.used_le, h.nodes, h.tree, fun _ => h.tree.exists_unique_way,
    fun _ segments => match_route_node_total h segments h.tree.root_lt 0⟩

end searches

theorem ready_new : PoolReady (uvhttp_router_new : PoolRouter H) := by
  have hzero : ∀ node ∈ (uvhttp_router_new : PoolRouter H).node_pool, node = .zero :=
    fun node hnode => (List.mem_replicate.mp hnode).2
  refine ⟨⟨List.length_replicate, ?_, ?_, ?_, fun i node _ hnode => hzero node (List.mem_of_getElem? hnode), ?_⟩, ?_⟩
  · exact Nat.one_le_ofNat
  · exact Nat.one_le_two_pow
  · intro node hnode
    rw [hzero node hnode]
    exact zero_valid
  · apply IndexedTree.single Nat.one_pos
    intro i hi
    obtain rfl : i = 0 := by omega
    rfl
  · rintro - entries hentries
    obtain rfl := ArrayTable.routes.inj hentries
    exact ⟨rfl, Nat.zero_le _⟩

theorem run_is_tree {r : PoolRouter H} (h : PoolReady r) {regs : List (Registration H)} (hfits : RunFits r regs) :
    RunIsTree r regs := by
  induction regs generalizing r with
  | nil => exact h.pool_tree
  | cons reg regs ih =>
    obtain ⟨hfirst, hrest⟩ := hfits
    obtain ⟨err, r', hregister, hready⟩ := register_spec h hfirst
    exact ⟨h.pool_tree, err, r', hregister, ih hready (hrest err r' hregister)⟩

/-- The node pool of a router is a tree after every registration of a run, failed ones
included, as long as they fit. -/
theorem node_pool_tree (regs : List (Registration H)) (hfits : RunFits uvhttp_router_new regs) :
    RunIsTree uvhttp_router_new regs :=
  run_is_tree ready_new hfits

/-- A registration with memory for everything. -/
def registration (path : String) (handler : Nat) : Registration Nat := ⟨bytes path, .GET, some handler, fun _ => true⟩

/-- Whether a registration fits. -/
def registration_fits (r : PoolRouter H) (reg : Registration H) : Bool :=
  if r.use_trie then r.node_pool_used + new_nodes r.node_pool r.root_index (route_labels reg.path) ≤ 2 ^ 31
  else
    match r.array_routes with
    | .released => false
    | .routes _ => true

theorem registration_fits_sound {r : PoolRouter H} {reg : Registration H} (h : registration_fits r reg = true) :
    RegistrationFits r reg := by
  rw [registration_fits] at h
  constructor
  · intro hmode hreleased
    rw [hmode, if_neg Bool.false_ne_true, hreleased] at h
    cases h
  · intro hmode
    rw [hmode, if_pos rfl] at h
    exact of_decide_eq_true h

/-- Whether every registration of a run fits. -/
def run_fits : PoolRouter H → List (Registration H) → Bool
  | _, [] => true
  | r, reg :: regs =>
    registration_fits r reg &&
      match register r reg with
      | none => true
      | some (_, r') => run_fits r' regs

theorem run_fits_sound {r : PoolRouter H} {regs : List (Registration H)} (h : run_fits r regs = true) :
    RunFits r regs := by
  induction regs generalizing r with
  | nil => trivial
  | cons reg regs ih =>
    rw [run_fits, Bool.and_eq_true] at h
    refine ⟨fun _ => registration_fits_sound h.1, fun err r' hregister => ih ?_⟩
    rw [hregister] at h
    exact h.2

/-- A path of a hundred segments, more than there are nodes in a new pool. -/
def long_path : List UInt8 := (List.replicate 100 (bytes "/a")).flatten

/-- Routes in the array, a parameter route that moves them to the trie, a branch beside it,
and a long path: first the pool cannot grow for it, then it does. -/
def growing_run : List (Registration Nat) :=
  [registration "/a" 1, registration "/b" 2, registration "/users/:id" 3, registration "/users/new" 4,
    ⟨long_path, .GET, some 5, fun size => size != 128 * SIZEOF_ROUTE_NODE⟩, ⟨long_path, .GET, some 5, fun _ => true⟩]

theorem node_pool_tree_grows :
    RunIsTree uvhttp_router_new growing_run ∧
      ∃ r, growing_run.foldlM (fun r reg => (register r reg).map Prod.snd) uvhttp_router_new = some r ∧
        r.use_trie = true ∧ 64 < r.node_pool_used ∧
        match_route_node r.node_pool .GET [bytes "users", bytes "7"] r.root_index 0 = some (.found 3 1) := by
  refine ⟨node_pool_tree growing_run (run_fits_sound (by decide +kernel)), ?_⟩
  have hrun : (growing_run.foldlM (fun r reg => (register r reg).map Prod.snd) uvhttp_router_new).any (fun r =>
      r.use_trie ∧ 64 < r.node_pool_used ∧
        match_route_node r.node_pool .GET [bytes "users", bytes "7"] r.root_index 0 = some (.found 3 1)) = true := by
    decide +kernel
  simpa only [Option.any_eq_true, decide_eq_true_eq] using hrun

/-- In such a run every registration comes back. -/
theorem RunIsTree.defined {r : PoolRouter H} {regs : List (Registration H)} (h : RunIsTree r regs) :
    (regs.foldlM (fun r reg => (register r reg).map Prod.snd) r).isSome = true := by
  induction regs generalizing r with
  | nil => rfl
  | cons reg regs ih =>
    obtain ⟨-, err, r', hregister, hrest⟩ := h
    rw [List.foldlM_cons, hregister]
    exact ih hrest

/-- Thirteen routes in the array, a parameter route that would move them to the trie, and
another route. -/
def crowded_root : List (Registration Nat) :=
  (["/a", "/b", "/c", "/d", "/e", "/f", "/g", "/h", "/i", "/j", "/k", "/l", "/m"].map (registration · 1)) ++
    [registration "/u/:id" 2, registration "/x" 3]

/-- The root has room for twelve of them, and the route behind the failure works on the
freed array. -/
theorem node_pool_crowded : ¬ RunIsTree uvhttp_router_new crowded_root := by
  intro h
  have hdefined := h.defined
  have hfreed :
      (crowded_root.foldlM (fun r reg => (register r reg).map Prod.snd) uvhttp_router_new).isSome = false := by
    decide +kernel
  cases hfreed.symm.trans hdefined

end uvhttp.route_pool
