import Uvhttp.Lib.StoredTrie
import Uvhttp.Router.MatchNodes
import Uvhttp.Router.NodePool

namespace uvhttp.route_pool

open http (Method)
open indexed_tree
open ordered_trie (Forest Label Outcome outcome_of)
open router (ArrayRoute ArrayTable COLON HYBRID_THRESHOLD MAX_CHILD_INDICES MAX_ROUTE_PATH_LEN QUESTION_MARK
  SEGMENT_DATA_SIZE node_handler route_labels stored_label)
open router_match (MAX_PARAMS ParamNames)
open stored_trie

variable {H : Type}

/-- The label that a node keeps. -/
def RouteNode.label (node : RouteNode H) : Label (List UInt8) :=
  ⟨node.segment_data.take node.segment_len, node.is_param⟩

/-- The method and the handler of a node that has a handler. -/
def RouteNode.value (node : RouteNode H) : Option (Method × H) := node.handler.map fun handler => (node.method, handler)

/-- The nodes of a pool as nodes of a trie. -/
def trie_nodes (node_pool : List (RouteNode H)) (i : Nat) : Option (Node (List UInt8) (Method × H)) :=
  (node_pool[i]?).map fun node => ⟨node.label, node.value, node.children⟩

/-- The fill level of the pool. -/
def PoolRouter.pool (r : PoolRouter H) : router.Pool := ⟨r.node_pool_used, r.node_pool_size⟩

/-- What the rest of a path does to a node of the trie: its value, the forest below it, the
pool, and whether there was room. -/
def insert_at (alloc : Nat → Bool) (value : Method × H) (pool : router.Pool) (old : Option (Method × H))
    (f : Forest (List UInt8) (Method × H)) :
    List (Label (List UInt8)) → Option (Method × H) × Forest (List UInt8) (Method × H) × router.Pool × Bool
  | [] => (some value, f, pool, true)
  | label :: labels => (old, router.insert_path alloc value pool 0 f label labels)

/-- What the rest of a path does to a node of the pool. -/
def insert_node (alloc : Nat → Bool) (value : Method × H) (r : PoolRouter H) (i : Nat)
    (labels : List (Label (List UInt8))) : Option (Bool × PoolRouter H) :=
  (add_path alloc r i labels).bind fun (current_index, r) =>
    if current_index = UINT32_MAX then some (false, r)
    else
      (r.node_pool[current_index]?).map fun current =>
        (true, { r with
          node_pool := r.node_pool.set current_index { current with method := value.1, handler := some value.2 } })

section nodes

variable {node_pool : List (RouteNode H)} {node : RouteNode H} {i : Nat} {segment : List UInt8}

theorem trie_nodes_eq (h : node_pool[i]? = some node) :
    trie_nodes node_pool i = some ⟨node.label, node.value, node.children⟩ := by
  rw [trie_nodes, h]
  rfl

theorem trie_nodes_congr {node_pool' : List (RouteNode H)} (h : node_pool'[i]? = node_pool[i]?) :
    trie_nodes node_pool' i = trie_nodes node_pool i := by
  rw [trie_nodes, trie_nodes, h]

/-- The segment of a node is a token exactly when its label has this name. -/
theorem has_segment_iff (h : node.Valid) : node.has_segment segment = true ↔ node.label.name = segment := by
  have hlength : (node.segment_data.take node.segment_len).length = node.segment_len := by
    rw [List.length_take, h.segment_data]
    exact Nat.min_eq_left (h.segment_len_le.trans (by decide))
  rw [RouteNode.has_segment, RouteNode.label, Bool.and_eq_true, decide_eq_true_iff, decide_eq_true_iff]
  dsimp only
  constructor
  · rintro ⟨hdata, hsegment⟩
    rw [hdata, ← hsegment, List.take_length]
  · rintro rfl
    rw [hlength, List.take_take, Nat.min_self]
    exact ⟨rfl, rfl⟩

/-- A new child keeps as much of a label as there is room for. -/
theorem set_segment_label (label : Label (List UInt8)) :
    ((RouteNode.zero : RouteNode H).set_segment label).label = stored_label label := by
  rw [RouteNode.label, RouteNode.set_segment, stored_label]
  dsimp only
  by_cases hshort : label.name.length < SEGMENT_DATA_SIZE
  · rw [if_pos hshort, if_pos hshort, List.take_length, List.take_left]
  · rw [if_neg hshort, if_neg hshort, List.take_left' (List.length_take_of_le (by omega))]

end nodes

section search

variable {node_pool : List (RouteNode H)} {method : Method}

theorem or_next_some (outcome later : Outcome H) :
    or_next (some outcome) (some later) = some (outcome.orElse later) := by
  cases outcome with
  | missing => rfl
  | found handler count => rfl
  | exhausted => rfl

/-- A child of the pool is entered like its label. -/
theorem try_child_enter {child : RouteNode H} (hvalid : child.Valid) (segment : List UInt8)
    {match_child : Nat → Option (Outcome H)} {under : Nat → Outcome H}
    (h : ∀ param_count, match_child param_count = some (under param_count)) (param_count : Nat) :
    try_child child segment match_child param_count =
      some (Forest.enter MAX_PARAMS child.label segment param_count under) := by
  have hwildcard : child.label.wildcard = child.is_param := rfl
  rw [try_child, Forest.enter, hwildcard, h, h]
  by_cases hparam : child.is_param = true
  · rw [if_pos hparam, if_pos hparam]
    split
    · rfl
    · rfl
  · rw [if_neg hparam, if_neg hparam]
    by_cases hsegment : child.has_segment segment = true
    · rw [if_pos hsegment, if_pos ((has_segment_iff hvalid).mp hsegment)]
    · rw [if_neg hsegment, if_neg (mt (has_segment_iff hvalid).mpr hsegment)]

/-- A search in the pool comes to what the search in the trie comes to. -/
theorem match_children_stored (hvalid : ∀ node ∈ node_pool, node.Valid) {indices footprint : List Nat}
    {f : Forest (List UInt8) (Method × H)} (h : Stores (trie_nodes node_pool) indices f footprint)
    (hmax : ∀ i ∈ footprint, i ≠ UINT32_MAX) (segment : List UInt8) (segments : List (List UInt8))
    (param_count : Nat) :
    match_children node_pool segment (match_route_node node_pool method segments) param_count indices =
      some (f.search MAX_PARAMS (node_handler method) segment segments param_count) := by
  induction h generalizing segment segments param_count with
  | nil => rfl
  | @cons i indices below later stored children siblings hstored hbelow _ ihchildren ihsiblings =>
    obtain ⟨node, hnode, rfl⟩ := Option.map_eq_some_iff.mp hstored
    have hself : i ≠ UINT32_MAX := hmax i List.mem_cons_self
    have hnode_valid := hvalid node (List.mem_of_getElem? hnode)
    have hchildren := ihchildren fun k hk => hmax k (List.mem_append_left _ (List.mem_cons_of_mem _ hk))
    have hsiblings := ihsiblings fun k hk => hmax k (List.mem_append_right _ hk)
    rw [match_children, hnode, Option.bind_some, hsiblings segment segments param_count]
    cases segments with
    | nil =>
      rw [@try_child_enter H node hnode_valid segment _ (outcome_of (node.value.bind (node_handler method))),
        or_next_some, Forest.search_last]
      intro param_count
      rw [match_route_node, if_neg hself, hnode]
      rfl
    | cons next segments =>
      rw [@try_child_enter H node hnode_valid segment _
        (children.search MAX_PARAMS (node_handler method) next segments), or_next_some, Forest.search_more]
      intro param_count
      rw [match_route_node, if_neg hself, hnode, Option.bind_some]
      exact hchildren next segments param_count

end search

section insertion

variable {alloc : Nat → Bool} {value : Method × H} {r r' : PoolRouter H} {i : Nat} {label : Label (List UInt8)}
  {labels : List (Label (List UInt8))} {f : Forest (List UInt8) (Method × H)} {old : Option (Method × H)}
  {footprint : List Nat}

/-- A new branch is a new node and what the rest of the path does to it. -/
theorem create_branch_eq (pool : router.Pool) (label : Label (List UInt8)) (labels : List (Label (List UInt8))) :
    router.create_branch alloc value pool label labels =
      (router.create_route_node alloc pool).elim (.nil, pool, false) fun pool =>
        let below := insert_at alloc value pool none .nil labels
        (.cons (stored_label label) below.1 below.2.1 .nil, below.2.2) := by
  cases labels with
  | nil =>
    rw [router.create_branch]
    cases router.create_route_node alloc pool with
    | none => rfl
    | some pool => rfl
  | cons next labels =>
    rw [router.create_branch]
    cases router.create_route_node alloc pool with
    | none => rfl
    | some pool => rfl

/-- At a branch a path goes into it, or on to the next one. -/
theorem insert_path_cons (pool : router.Pool) (seen : Nat) (first label : Label (List UInt8))
    (children siblings : Forest (List UInt8) (Method × H)) (labels : List (Label (List UInt8))) :
    router.insert_path alloc value pool seen (.cons first old children siblings) label labels =
      if first.name = label.name then
        let below := insert_at alloc value pool old children labels
        (.cons first below.1 below.2.1 siblings, below.2.2)
      else
        let later := router.insert_path alloc value pool (seen + 1) siblings label labels
        (.cons first old children later.1, later.2) := by
  cases labels with
  | nil =>
    rw [router.insert_path]
    rfl
  | cons next labels =>
    rw [router.insert_path]
    rfl

theorem insert_node_nil : insert_node alloc value r i [] =
    if i = UINT32_MAX then some (false, r)
    else
      (r.node_pool[i]?).map fun current =>
        (true, { r with
          node_pool := r.node_pool.set i { current with method := value.1, handler := some value.2 } }) := rfl

theorem insert_node_cons : insert_node alloc value r i (label :: labels) =
    (find_or_create_child alloc r i label).bind fun child =>
      if child.1 = UINT32_MAX then some (false, child.2) else insert_node alloc value child.2 child.1 labels := by
  rw [insert_node, add_path, Option.bind_assoc]
  congr 1
  funext child
  by_cases hmax : child.1 = UINT32_MAX
  · rw [if_pos hmax, if_pos hmax]
    exact if_pos hmax
  · rw [if_neg hmax, if_neg hmax, insert_node]

/-- How a path goes on at a list of children: none of them has its token, and a new one comes
behind them, or it goes into the first child that has it. -/
inductive NextChild (alloc : Nat → Bool) (value : Method × H) (node_pool : List (RouteNode H))
    (label : Label (List UInt8)) (labels : List (Label (List UInt8))) :
    List Nat → Forest (List UInt8) (Method × H) → List Nat → Prop where
  | missing {indices footprint : List Nat} {f : Forest (List UInt8) (Method × H)} :
      find_child node_pool label.name indices = some none →
      (∀ pool seen, router.insert_path alloc value pool seen f label labels =
        if seen + indices.length ≥ MAX_CHILD_INDICES then (f, pool, false)
        else
          let branch := router.create_branch alloc value pool label labels
          (append f branch.1, branch.2)) →
      NextChild alloc value node_pool label labels indices f footprint
  | found {j : Nat} {before children after : Forest (List UInt8) (Method × H)} {first : Label (List UInt8)}
      {old : Option (Method × H)} {earlier below later earlier_indices later_indices : List Nat} :
      find_child node_pool label.name (earlier_indices ++ j :: later_indices) = some (some j) →
      Stores (trie_nodes node_pool) earlier_indices before earlier →
      Holds (trie_nodes node_pool) j first old children below →
      Stores (trie_nodes node_pool) later_indices after later →
      (∀ pool seen, router.insert_path alloc value pool seen (append before (.cons first old children after)) label
          labels =
        let inserted := insert_at alloc value pool old children labels
        (append before (.cons first inserted.1 inserted.2.1 after), inserted.2.2)) →
      NextChild alloc value node_pool label labels (earlier_indices ++ j :: later_indices)
        (append before (.cons first old children after)) (earlier ++ (j :: below ++ later))

theorem next_child {node_pool : List (RouteNode H)} (hvalid : ∀ node ∈ node_pool, node.Valid)
    {indices : List Nat} (h : Stores (trie_nodes node_pool) indices f footprint) (label : Label (List UInt8))
    (labels : List (Label (List UInt8))) : NextChild alloc value node_pool label labels indices f footprint := by
  induction h with
  | nil => exact .missing rfl fun pool seen => rfl
  | @cons i indices below later stored children siblings hstored hbelow hlater _ ihsiblings =>
    obtain ⟨node, hnode, rfl⟩ := Option.map_eq_some_iff.mp hstored
    have hsegment := @has_segment_iff H node label.name (hvalid node (List.mem_of_getElem? hnode))
    by_cases hfirst : node.label.name = label.name
    · refine @NextChild.found H alloc value node_pool label labels i .nil children siblings node.label node.value []
        below later [] indices ?_ .nil ⟨node.children, trie_nodes_eq hnode, hbelow⟩ hlater fun pool seen => ?_
      · rw [List.nil_append, find_child, hnode, Option.bind_some, if_pos (hsegment.mpr hfirst)]
      · rw [append, insert_path_cons, if_pos hfirst]
        rfl
    · have hnext : find_child node_pool label.name (i :: indices) = find_child node_pool label.name indices := by
        rw [find_child, hnode, Option.bind_some, if_neg (mt hsegment.mp hfirst)]
      cases ihsiblings with
      | missing hnone hinsert =>
        refine .missing (hnext.trans hnone) fun pool seen => ?_
        rw [insert_path_cons, if_neg hfirst, hinsert, List.length_cons, Nat.add_right_comm seen, Nat.add_assoc seen]
        split
        · rfl
        · rfl
      | @found j before children' after first old earlier below' later earlier_indices later_indices hfound hearlier
          hholds hafter hinsert =>
        have hstores := Stores.cons hstored hbelow hearlier
        have hresult := @NextChild.found H alloc value node_pool label labels j
          (.cons node.label node.value children before) children' after first old _ below' later _ later_indices
          (hnext.trans hfound) hstores hholds hafter fun pool seen => by
            rw [append, insert_path_cons, if_neg hfirst, hinsert]
            rfl
        rw [List.append_assoc] at hresult
        exact hresult

/-- The pool of the trie has a node exactly when the pool has one. -/
theorem create_route_node_refines (hroom : r.node_pool_used < 2 ^ 31) (alloc : Nat → Bool) :
    router.create_route_node alloc r.pool =
      if (create_route_node alloc r).1 = UINT32_MAX then none else some (create_route_node alloc r).2.pool := by
  have hmax : r.node_pool_used ≠ UINT32_MAX := by
    rw [UINT32_MAX]
    omega
  rw [router.create_route_node, create_route_node, PoolRouter.pool]
  dsimp only
  by_cases hfull : r.node_pool_used ≥ r.node_pool_size
  · have hsize : r.node_pool_size * 2 % 2 ^ 32 = r.node_pool_size * 2 := Nat.mod_eq_of_lt (by omega)
    rw [if_pos hfull, if_pos hfull, hsize]
    split
    · rfl
    · rfl
  · rw [if_neg hfull, if_neg hfull, if_neg hmax]
    rfl

theorem create_child_pool {c : Nat} (h : create_child alloc r i label = some (c, r')) :
    c = (create_route_node alloc r).1 ∧ r'.pool = (create_route_node alloc r).2.pool := by
  rw [create_child] at h
  dsimp only at h
  split at h
  · rw [Option.some.inj h]
    exact ⟨rfl, rfl⟩
  · obtain ⟨child, -, h⟩ := Option.bind_eq_some_iff.mp h
    obtain ⟨parent, -, h⟩ := Option.map_eq_some_iff.mp h
    obtain ⟨rfl, rfl⟩ := Prod.mk.inj h
    exact ⟨rfl, rfl⟩

theorem create_child_refines (hroom : r.node_pool_used < 2 ^ 31) {c : Nat}
    (hcreated : create_child alloc r i label = some (c, r')) :
    router.create_route_node alloc r.pool = if c = UINT32_MAX then none else some r'.pool := by
  obtain ⟨hc, hpool⟩ := create_child_pool hcreated
  rw [create_route_node_refines hroom alloc, hc, hpool]

theorem find_or_create_child_found (h : PoolValid r) (hi : i < r.node_pool_used) {j : Nat}
    (hfound : find_child r.node_pool label.name (children r.node_pool i) = some (some j)) :
    find_or_create_child alloc r i label = some (j, r) := by
  obtain ⟨node, hnode, -⟩ := h.lookup hi
  rw [children_eq hnode] at hfound
  rw [find_or_create_child, hnode, Option.bind_some, hfound, Option.bind_some]

theorem find_or_create_child_missing (h : PoolValid r) (hi : i < r.node_pool_used)
    (hmissing : find_child r.node_pool label.name (children r.node_pool i) = some none) :
    find_or_create_child alloc r i label =
      if (children r.node_pool i).length ≥ MAX_CHILD_INDICES then some (UINT32_MAX, r)
      else create_child alloc r i label := by
  obtain ⟨node, hnode, hvalid⟩ := h.lookup hi
  rw [children_eq hnode] at hmissing
  rw [find_or_create_child, hnode, Option.bind_some, hmissing, Option.bind_some, children_eq hnode,
    length_children hvalid]

/-- What an insertion at a node keeps, and where the forest below it is stored then. -/
structure Inserted (r : PoolRouter H) (i : Nat) (footprint : List Nat) (r' : PoolRouter H) (label : Label (List UInt8))
    (value : Option (Method × H)) (f : Forest (List UInt8) (Method × H)) (footprint' : List Nat) : Prop where
  valid : PoolValid r'
  use_trie : r'.use_trie = r.use_trie
  array_routes : r'.array_routes = r.array_routes
  root_index : r'.root_index = r.root_index
  used_ge : r.node_pool_used ≤ r'.node_pool_used
  holds : Holds (trie_nodes r'.node_pool) i label value f footprint'
  fresh : ∀ k ∈ footprint', k ∈ footprint ∨ r.node_pool_used ≤ k
  below : ∀ k ∈ footprint', k < r'.node_pool_used
  nodup : (i :: footprint').Nodup
  others : ∀ k < r.node_pool_used, k ≠ i → k ∉ footprint → r'.node_pool[k]? = r.node_pool[k]?

theorem trie_node_of_holds {node_pool : List (RouteNode H)} (h : Holds (trie_nodes node_pool) i label old f footprint) :
    ∃ node, node_pool[i]? = some node ∧ node.label = label ∧ node.value = old ∧
      Stores (trie_nodes node_pool) node.children f footprint := by
  obtain ⟨children, hstored, hstores⟩ := h
  obtain ⟨node, hnode, heq⟩ := Option.map_eq_some_iff.mp hstored
  obtain ⟨hlabel, hvalue, hchildren⟩ := Node.mk.inj heq
  exact ⟨node, hnode, hlabel, hvalue, hchildren ▸ hstores⟩

/-- At the end of a path the node gets the value. -/
theorem insert_node_end (h : PoolValid r) (hi : i < r.node_pool_used)
    (hholds : Holds (trie_nodes r.node_pool) i label old f footprint)
    (hbelow : ∀ k ∈ footprint, k < r.node_pool_used) (hnodup : (i :: footprint).Nodup) (value : Method × H) :
    ∃ r', insert_node alloc value r i [] = some (true, r') ∧ r'.pool = r.pool ∧
      Inserted r i footprint r' label (some value) f footprint := by
  obtain ⟨node, hnode, rfl, -, hstores⟩ := trie_node_of_holds hholds
  have hne : ∀ k ∈ footprint, k ≠ i := by
    rintro k hk rfl
    exact (List.nodup_cons.mp hnodup).1 hk
  have hself : (r.node_pool.set i { node with method := value.1, handler := some value.2 })[i]? =
      some { node with method := value.1, handler := some value.2 } := List.getElem?_set_self (h.lt_length hi)
  rw [insert_node_nil, if_neg (h.index_ne hi), hnode, Option.map_some]
  refine ⟨_, rfl, rfl, h.set_handler hi hnode value, rfl, rfl, rfl, Nat.le_refl _, ?_, fun k hk => .inl hk, hbelow,
    hnodup, fun k _ hk _ => List.getElem?_set_ne hk.symm⟩
  refine ⟨node.children, trie_nodes_eq hself, hstores.congr fun k hk => ?_⟩
  exact trie_nodes_congr (List.getElem?_set_ne (hne k hk).symm)

theorem Inserted.refl (h : PoolValid r) (hholds : Holds (trie_nodes r.node_pool) i label old f footprint)
    (hbelow : ∀ k ∈ footprint, k < r.node_pool_used) (hnodup : (i :: footprint).Nodup) :
    Inserted r i footprint r label old f footprint :=
  ⟨h, rfl, rfl, rfl, Nat.le_refl _, hholds, fun _ => .inl, hbelow, hnodup, fun _ _ _ _ => rfl⟩

/-- What an insertion below a child does to its parent. -/
theorem Inserted.parent {j : Nat} {before after : Forest (List UInt8) (Method × H)} {first : Label (List UInt8)}
    {earlier below below' later earlier_indices later_indices : List Nat}
    (h : Inserted r j below r' first old f below') (hi : i < r.node_pool_used) {node : RouteNode H}
    (hnode : r.node_pool[i]? = some node) (hchildren : node.children = earlier_indices ++ j :: later_indices)
    (hearlier : Stores (trie_nodes r.node_pool) earlier_indices before earlier)
    (hlater : Stores (trie_nodes r.node_pool) later_indices after later)
    (hbelow : ∀ k ∈ earlier ++ (j :: below ++ later), k < r.node_pool_used)
    (hnodup : (i :: (earlier ++ (j :: below ++ later))).Nodup) :
    Inserted r i (earlier ++ (j :: below ++ later)) r' node.label node.value
      (append before (.cons first old f after)) (earlier ++ (j :: below' ++ later)) := by
  obtain ⟨hself, hapart⟩ := List.nodup_cons.mp hnodup
  obtain ⟨-, hrest, hearlierApart⟩ := List.nodup_append.mp hapart
  obtain ⟨-, -, hlaterApart⟩ := List.nodup_append.mp hrest
  have hbefore : ∀ k ∈ i :: earlier, k < r.node_pool_used := by
    rintro k (_ | ⟨_, hk⟩)
    · exact hi
    · exact hbelow k (List.mem_append_left _ hk)
  have hafter : ∀ k ∈ later, k < r.node_pool_used :=
    fun k hk => hbelow k (List.mem_append_right _ (List.mem_append_right _ hk))
  have hsame : ∀ k < r.node_pool_used, k ∉ j :: below → r'.node_pool[k]? = r.node_pool[k]? :=
    fun k hk hnew => h.others k hk (List.ne_of_not_mem_cons hnew) (List.not_mem_of_not_mem_cons hnew)
  have hstores : Stores (trie_nodes r'.node_pool) (earlier_indices ++ j :: later_indices)
      (append before (.cons first old f after)) (earlier ++ (j :: below' ++ later)) := by
    have hearlier' : Stores (trie_nodes r'.node_pool) earlier_indices before earlier :=
      hearlier.congr fun k hk => trie_nodes_congr (hsame k (hbefore k (List.mem_cons_of_mem _ hk)) fun hmem =>
        hearlierApart k hk k (List.mem_append_left _ hmem) rfl)
    have hlater' : Stores (trie_nodes r'.node_pool) later_indices after later :=
      hlater.congr fun k hk => trie_nodes_congr (hsame k (hafter k hk) fun hmem => hlaterApart k hmem k hk rfl)
    exact hearlier'.append (h.holds.branch.append hlater')
  have hnode' : r'.node_pool[i]? = some node := by
    rw [hsame i hi fun hmem => hself (List.mem_append_right _ (List.mem_append_left _ hmem)), hnode]
  have hfresh : ∀ k ∈ j :: below', k ∈ j :: below ∨ r.node_pool_used ≤ k := by
    rintro k (_ | ⟨_, hk⟩)
    · exact .inl List.mem_cons_self
    · exact (h.fresh k hk).imp_left (List.mem_cons_of_mem _)
  refine ⟨h.valid, h.use_trie, h.array_routes, h.root_index, h.used_ge, ?_, ?_, ?_, ?_, ?_⟩
  · exact ⟨node.children, trie_nodes_eq hnode', hchildren ▸ hstores⟩
  · intro k hk
    rcases List.mem_append.mp hk with hk | hk
    · exact .inl (List.mem_append_left _ hk)
    rcases List.mem_append.mp hk with hk | hk
    · exact (hfresh k hk).imp_left fun hmem => List.mem_append_right _ (List.mem_append_left _ hmem)
    · exact .inl (List.mem_append_right _ (List.mem_append_right _ hk))
  · intro k hk
    rcases List.mem_append.mp hk with hk | hk
    · exact (hbefore k (List.mem_cons_of_mem _ hk)).trans_le h.used_ge
    rcases List.mem_append.mp hk with hk | hk
    · rcases hk with _ | ⟨_, hk⟩
      · exact (hbelow j (List.mem_append_right _ List.mem_cons_self)).trans_le h.used_ge
      · exact h.below k hk
    · exact (hafter k hk).trans_le h.used_ge
  · exact @nodup_replaced r.node_pool_used (i :: earlier) _ _ later hnodup h.nodup hfresh hbefore hafter
  · exact fun k hk _ hmem => hsame k hk fun hnew => hmem (List.mem_append_right _ (List.mem_append_left _ hnew))

/-- What an insertion below a new child does to its parent. -/
theorem ChildCreated.inserted {grown : PoolRouter H} {token : Label (List UInt8)} {first : Label (List UInt8)}
    {g : Forest (List UInt8) (Method × H)} {below : List Nat} (hcreated : ChildCreated r i token grown)
    (h : Inserted grown r.node_pool_used [] r' first old g below) (hi : i < r.node_pool_used) {node : RouteNode H}
    (hnode : r.node_pool[i]? = some node) (hvalid : node.Valid) (hfew : node.child_count < MAX_CHILD_INDICES)
    (hstores : Stores (trie_nodes r.node_pool) node.children f footprint)
    (hbelow : ∀ k ∈ footprint, k < r.node_pool_used) (hnodup : (i :: footprint).Nodup) :
    Inserted r i footprint r' node.label node.value (append f (.cons first old g .nil))
      (footprint ++ (r.node_pool_used :: below)) := by
  have hused := hcreated.used
  have hge := h.used_ge
  have hsame : ∀ k < r.node_pool_used, r'.node_pool[k]? = grown.node_pool[k]? :=
    fun k hk => h.others k (by omega) hk.ne List.not_mem_nil
  have hkept : ∀ k < r.node_pool_used, k ≠ i → r'.node_pool[k]? = r.node_pool[k]? :=
    fun k hk hne => (hsame k hk).trans (hcreated.others k hk hne)
  have hself : r'.node_pool[i]? = some (node.add_child r.node_pool_used) := by
    rw [hsame i hi, hcreated.parent, hnode]
    rfl
  have hnew : ∀ k ∈ r.node_pool_used :: below, r.node_pool_used ≤ k := by
    rintro k (_ | ⟨_, hk⟩)
    · exact Nat.le_refl _
    · have hfresh := (h.fresh k hk).resolve_left List.not_mem_nil
      omega
  obtain ⟨hout, hfootprint⟩ := List.nodup_cons.mp hnodup
  refine ⟨h.valid, h.use_trie.trans hcreated.use_trie, h.array_routes.trans hcreated.array_routes,
    h.root_index.trans hcreated.root_index, by omega, ?_, ?_, ?_, ?_, ?_⟩
  · refine ⟨node.children ++ [r.node_pool_used], ?_, ?_⟩
    · rw [trie_nodes_eq hself, add_child_children hvalid hfew]
      rfl
    · have hstores' : Stores (trie_nodes r'.node_pool) node.children f footprint :=
        hstores.congr fun k hk => trie_nodes_congr (hkept k (hbelow k hk) fun heq => hout (heq ▸ hk))
      exact hstores'.append h.holds.branch
  · exact fun k hk => (List.mem_append.mp hk).imp_right (hnew k)
  · intro k hk
    rcases List.mem_append.mp hk with hk | hk
    · exact (hbelow k hk).trans_le (by omega)
    · rcases hk with _ | ⟨_, hk⟩
      · omega
      · exact h.below k hk
  · refine List.nodup_cons.mpr ⟨?_, List.nodup_append.mpr ⟨hfootprint, h.nodup, ?_⟩⟩
    · intro hmem
      rcases List.mem_append.mp hmem with hmem | hmem
      · exact hout hmem
      · exact absurd (hnew i hmem) (Nat.not_le.mpr hi)
    · exact fun k hk k' hk' => ((hbelow k hk).trans_le (hnew k' hk')).ne
  · exact fun k hk hne _ => hkept k hk hne

/-- Following a path in the pool does what it does in the trie. -/
theorem insert_node_spec (h : PoolValid r) (hi : i < r.node_pool_used)
    (hholds : Holds (trie_nodes r.node_pool) i label old f footprint)
    (hbelow : ∀ k ∈ footprint, k < r.node_pool_used) (hnodup : (i :: footprint).Nodup) (value : Method × H)
    (hroom : r.node_pool_used + new_nodes r.node_pool i labels ≤ 2 ^ 31) :
    ∃ r' footprint',
      insert_node alloc value r i labels = some ((insert_at alloc value r.pool old f labels).2.2.2, r') ∧
      r'.pool = (insert_at alloc value r.pool old f labels).2.2.1 ∧
      Inserted r i footprint r' label (insert_at alloc value r.pool old f labels).1
        (insert_at alloc value r.pool old f labels).2.1 footprint' := by
  induction labels generalizing r i label old f footprint with
  | nil =>
    obtain ⟨r', hend, hpool, hinserted⟩ :=
      @insert_node_end H alloc r i label f old footprint h hi hholds hbelow hnodup value
    exact ⟨r', footprint, hend, hpool, hinserted⟩
  | cons token labels ih =>
    have hrefl := Inserted.refl h hholds hbelow hnodup
    obtain ⟨node, hnode, rfl, rfl, hstores⟩ := trie_node_of_holds hholds
    have hvalid := h.nodes node (List.mem_of_getElem? hnode)
    have hchildren := children_eq hnode
    have hcount := length_children hvalid
    rw [insert_node_cons, insert_at]
    have hnext := @next_child H alloc value f footprint r.node_pool h.nodes node.children hstores token labels
    generalize hindices : node.children = indices at hnext
    rw [hindices] at hchildren hcount
    cases hnext with
    | missing hmissing hinsert =>
      rw [new_nodes, hchildren, hmissing] at hroom
      dsimp only at hroom
      rw [find_or_create_child_missing h hi (hchildren ▸ hmissing), hchildren, hinsert, Nat.zero_add]
      by_cases hfull : indices.length ≥ MAX_CHILD_INDICES
      · rw [if_pos hfull, if_pos hfull]
        exact ⟨r, footprint, rfl, rfl, hrefl⟩
      · rw [if_neg hfull] at hroom
        rw [if_neg hfull, if_neg hfull, create_branch_eq]
        have hspace : r.node_pool_used < 2 ^ 31 := by omega
        rcases create_child_spec h hspace hi token with hrefused | ⟨grown, hcreated, hchild⟩
        · rw [hrefused, create_child_refines hspace hrefused, if_pos rfl]
          refine ⟨r, footprint, rfl, rfl, ?_⟩
          dsimp only [Option.elim_none]
          rw [append_nil]
          exact hrefl
        · have hgrown := hchild.valid h hspace hi (by rw [hchildren]; exact Nat.not_le.mp hfull)
          have hself : r.node_pool_used < grown.node_pool_used := by
            rw [hchild.used]
            exact Nat.lt_succ_self _
          have hempty : Holds (trie_nodes grown.node_pool) r.node_pool_used (stored_label token) none .nil [] :=
            ⟨[], by rw [trie_nodes_eq hchild.child, set_segment_label]; rfl, .nil⟩
          have hlabels := @new_nodes_le H grown.node_pool r.node_pool_used labels
          obtain ⟨r', below', hrun, hpool, hinserted⟩ := ih hgrown hself hempty (fun k hk => by cases hk)
            (List.nodup_singleton _) (by rw [hchild.used]; omega)
          rw [hcreated, create_child_refines hspace hcreated, if_neg (hgrown.index_ne hself), Option.elim_some,
            Option.bind_some]
          dsimp only
          rw [if_neg (hgrown.index_ne hself)]
          refine ⟨r', footprint ++ (r.node_pool_used :: below'), hrun, hpool, ?_⟩
          exact hchild.inserted hinserted hi hnode hvalid (by omega) (hindices ▸ hstores) hbelow hnodup
    | @found j before below_j after first old_j earlier below later earlier_indices later_indices hfound hearlier
        hholds_j hafter hinsert =>
      have hj : j < r.node_pool_used := hbelow j (List.mem_append_right _ List.mem_cons_self)
      have hlater : ∀ k ∈ below, k < r.node_pool_used := fun k hk =>
        hbelow k (List.mem_append_right _ (List.mem_append_left _ (List.mem_cons_of_mem _ hk)))
      have hapart : (j :: below).Nodup := (List.nodup_append.mp (List.nodup_append.mp hnodup.of_cons).2.1).1
      rw [new_nodes, hchildren, hfound] at hroom
      obtain ⟨r', below', hrun, hpool, hinserted⟩ := ih h hj hholds_j hlater hapart hroom
      refine ⟨r', earlier ++ (j :: below' ++ later), ?_, ?_, ?_⟩
      · rw [find_or_create_child_found h hi (hchildren ▸ hfound), Option.bind_some, if_neg (h.index_ne hj), hrun,
          hinsert]
      · rw [hpool, hinsert]
      · rw [hinsert]
        exact hinserted.parent hi hnode hindices hearlier hafter hbelow hnodup

end insertion

section routers

variable {alloc : Nat → Bool} {r r' : PoolRouter H} {t : router.Router H} {trie : router.Trie H}

/-- The pool stores the trie, with its root in the root node. -/
structure StoresTrie (r : PoolRouter H) (trie : router.Trie H) : Prop where
  pool : trie.pool = r.pool
  stored : ∃ label footprint, Holds (trie_nodes r.node_pool) r.root_index label trie.root trie.children footprint ∧
    (∀ k ∈ footprint, k < r.node_pool_used) ∧ (r.root_index :: footprint).Nodup

/-- The two models of a router hold the same routes. -/
structure Refines (r : PoolRouter H) (t : router.Router H) : Prop where
  ready : PoolReady r
  use_trie : t.use_trie = r.use_trie
  array_routes : t.array_routes = r.array_routes
  trie : StoresTrie r t.trie

theorem add_to_trie_eq (value : Method × H) (trie : router.Trie H) (path : List UInt8) :
    router.add_to_trie alloc value trie path =
      let inserted := insert_at alloc value trie.pool trie.root trie.children (route_labels path)
      (⟨inserted.1, inserted.2.1, inserted.2.2.1⟩, inserted.2.2.2) := by
  rw [router.add_to_trie]
  cases route_labels path with
  | nil => rfl
  | cons label labels => rfl

theorem add_to_trie_refines (h : PoolValid r) (hstores : StoresTrie r trie) (value : Method × H) {path : List UInt8}
    (hroom : r.node_pool_used + new_nodes r.node_pool r.root_index (route_labels path) ≤ 2 ^ 31) :
    ∃ r', add_to_trie alloc value r path = some ((router.add_to_trie alloc value trie path).2, r') ∧
      PoolValid r' ∧ Grown r (route_labels path).length r' ∧
      StoresTrie r' (router.add_to_trie alloc value trie path).1 := by
  obtain ⟨label, footprint, hholds, hbelow, hnodup⟩ := hstores.stored
  obtain ⟨r', footprint', hrun, hpool, hinserted⟩ :=
    @insert_node_spec H alloc r r.root_index label (route_labels path) trie.children trie.root footprint h
      h.tree.root_lt hholds hbelow hnodup value hroom
  obtain ⟨ok, r'', hadded, -, hgrown⟩ := @add_to_trie_spec H r alloc h value path hroom
  rw [add_to_trie_eq, hstores.pool]
  obtain ⟨-, rfl⟩ := Prod.mk.inj (Option.some.inj (hadded.symm.trans hrun))
  refine ⟨r'', hrun, hinserted.valid, hgrown, hpool.symm, label, footprint', ?_, hinserted.below, ?_⟩
  · rw [hinserted.root_index]
    exact hinserted.holds
  · rw [hinserted.root_index]
    exact hinserted.nodup

theorem migrate_routes_refines (h : PoolValid r) (hstores : StoresTrie r trie) {entries : List (ArrayRoute H)}
    (hroom : r.node_pool_used + MAX_ROUTE_PATH_LEN * entries.length ≤ 2 ^ 31) :
    ∃ r', migrate_routes alloc r entries = some ((router.migrate_routes alloc trie entries).2, r') ∧
      StoresTrie r' (router.migrate_routes alloc trie entries).1 := by
  induction entries generalizing r trie with
  | nil => exact ⟨r, rfl, hstores⟩
  | cons route entries ih =>
    have hlabels := length_route_labels route.path
    have hnew := @new_nodes_le H r.node_pool r.root_index (route_labels route.path)
    rw [List.length_cons, Nat.mul_succ] at hroom
    obtain ⟨r', hadded, hvalid, hgrown, hstores'⟩ :=
      @add_to_trie_refines H alloc r trie h hstores (route.method, route.handler) route.path (by omega)
    have hused := hgrown.used_le
    rw [migrate_routes, router.migrate_routes, hadded, Option.bind_some]
    dsimp only
    cases hok : (router.add_to_trie alloc (route.method, route.handler) trie route.path).2 with
    | false => exact ⟨r', rfl, hstores'⟩
    | true => exact ih hvalid hstores' (by omega)

theorem migrate_to_trie_refines (h : Refines r t) (hused : r.node_pool_used = 1) {entries : List (ArrayRoute H)}
    (hlength : entries.length ≤ HYBRID_THRESHOLD) :
    ∃ r', migrate_to_trie alloc r entries = some ((router.migrate_to_trie alloc t entries).1, r') ∧
      Refines r' (router.migrate_to_trie alloc t entries).2 ∧
      ((router.migrate_to_trie alloc t entries).1 = .OK →
        r'.use_trie = true ∧ r'.node_pool_used + MAX_ROUTE_PATH_LEN ≤ 2 ^ 31) := by
  have hroom : r.node_pool_used + MAX_ROUTE_PATH_LEN * entries.length ≤ 2 ^ 31 := by
    rw [HYBRID_THRESHOLD] at hlength
    rw [hused, MAX_ROUTE_PATH_LEN]
    omega
  obtain ⟨r', hmigrated, hstores⟩ := @migrate_routes_refines H alloc r t.trie h.ready.toPoolValid h.trie entries hroom
  obtain ⟨ok, grown, hrun, -, hgrown⟩ := @migrate_routes_spec H r alloc h.ready.toPoolValid entries hroom
  obtain ⟨-, rfl⟩ := Prod.mk.inj (Option.some.inj (hrun.symm.trans hmigrated))
  obtain ⟨err, r'', hspec, hready, hspace⟩ :=
    @migrate_to_trie_spec H r alloc h.ready.toPoolValid hused entries hlength
  rw [migrate_to_trie, hmigrated, Option.map_some] at hspec
  rw [migrate_to_trie, hmigrated, Option.map_some, router.migrate_to_trie]
  dsimp only at hspec ⊢
  cases hok : (router.migrate_routes alloc t.trie entries).2 with
  | false =>
    rw [hok] at hspec
    obtain ⟨rfl, rfl⟩ := Prod.mk.inj (Option.some.inj hspec)
    exact ⟨_, rfl, ⟨hready, h.use_trie.trans hgrown.use_trie.symm, rfl, hstores.pool, hstores.stored⟩, hspace⟩
  | true =>
    rw [hok] at hspec
    obtain ⟨rfl, rfl⟩ := Prod.mk.inj (Option.some.inj hspec)
    exact ⟨_, rfl, ⟨hready, rfl, rfl, hstores.pool, hstores.stored⟩, hspace⟩

theorem add_trie_route_refines (h : Refines r t) (htrie : r.use_trie = true) {path : List UInt8} (method : Method)
    (handler : H) (hroom : r.node_pool_used + new_nodes r.node_pool r.root_index (route_labels path) ≤ 2 ^ 31) :
    ∃ r', add_trie_route alloc r path method handler =
        some ((router.add_trie_route alloc t path method handler).1, r') ∧
      Refines r' (router.add_trie_route alloc t path method handler).2 := by
  obtain ⟨r', hadded, hvalid, hgrown, hstores⟩ :=
    @add_to_trie_refines H alloc r t.trie h.ready.toPoolValid h.trie (method, handler) path hroom
  rw [add_trie_route, hadded]
  refine ⟨r', rfl, ready_of_trie hvalid (hgrown.use_trie.trans htrie), ?_, ?_, hstores⟩
  · exact h.use_trie.trans hgrown.use_trie.symm
  · exact h.array_routes.trans hgrown.array_routes.symm

/-- A registration in the model of the trie. -/
def trie_register (t : router.Router H) (reg : Registration H) : Option (UvhttpError × router.Router H) :=
  router.uvhttp_router_add_route_method reg.alloc t reg.path reg.method reg.handler

theorem trie_register_refused (t : router.Router H) {reg : Registration H} (hrefused : ¬ reg.Valid) :
    trie_register t reg = some (.INVALID_PARAM, t) := by
  rw [trie_register]
  cases hhandler : reg.handler with
  | none => rfl
  | some handler => exact checks_refuse hhandler hrefused _ _

/-- A registration that fits has the same answer in both models. -/
theorem register_refines (h : Refines r t) {reg : Registration H} (hfits : reg.Valid → RegistrationFits r reg) :
    ∃ err r' t', register r reg = some (err, r') ∧ trie_register t reg = some (err, t') ∧ Refines r' t' := by
  by_cases hvalid : reg.Valid
  · obtain ⟨handler, hhandler⟩ := Option.ne_none_iff_exists'.mp hvalid.handler
    have hfit := hfits hvalid
    rw [register, trie_register, hhandler, uvhttp_router_add_route_method, router.uvhttp_router_add_route_method]
    dsimp only
    rw [if_neg hvalid.nonempty, if_neg (Nat.not_le.mpr hvalid.short), if_neg hvalid.query, if_neg hvalid.nonempty,
      if_neg (Nat.not_le.mpr hvalid.short), if_neg hvalid.query, h.use_trie, h.array_routes]
    cases hmode : r.use_trie with
    | true =>
      obtain ⟨r', hadded, hrefines⟩ :=
        @add_trie_route_refines H reg.alloc r t h hmode reg.path reg.method handler (hfit.room hmode)
      exact ⟨_, r', _, hadded, rfl, hrefines⟩
    | false =>
      rw [if_neg Bool.false_ne_true, if_neg Bool.false_ne_true]
      cases harray : r.array_routes with
      | released => exact absurd harray (hfit.live hmode)
      | routes entries =>
        obtain ⟨hused, hlength⟩ := h.ready.array hmode entries harray
        dsimp only
        by_cases hmigrates : COLON ∈ reg.path ∨ entries.length ≥ HYBRID_THRESHOLD
        · rw [if_pos hmigrates, if_pos hmigrates]
          obtain ⟨r', hmigrated, hrefines, hspace⟩ := @migrate_to_trie_refines H reg.alloc r t h hused entries hlength
          rw [hmigrated, Option.bind_some]
          by_cases herr : (router.migrate_to_trie reg.alloc t entries).1 = .OK
          · obtain ⟨htrie, hroom⟩ := hspace herr
            have hlabels := length_route_labels reg.path
            have hnew := @new_nodes_le H r'.node_pool r'.root_index (route_labels reg.path)
            obtain ⟨r'', hadded, hrefines'⟩ :=
              @add_trie_route_refines H reg.alloc r' _ hrefines htrie reg.path reg.method handler (by omega)
            rw [if_neg (not_not_intro herr), if_neg (not_not_intro herr)]
            exact ⟨_, r'', _, hadded, rfl, hrefines'⟩
          · rw [if_pos herr, if_pos herr]
            exact ⟨_, r', _, rfl, rfl, hrefines⟩
        · obtain ⟨err, r', hrun, hready⟩ := register_spec h.ready hfits
          rw [register, hhandler, uvhttp_router_add_route_method] at hrun
          dsimp only at hrun
          rw [if_neg hvalid.nonempty, if_neg (Nat.not_le.mpr hvalid.short), if_neg hvalid.query, hmode,
            if_neg Bool.false_ne_true, harray] at hrun
          dsimp only at hrun
          rw [if_neg hmigrates] at hrun
          obtain ⟨rfl, rfl⟩ := Prod.mk.inj (Option.some.inj hrun)
          rw [if_neg hmigrates, if_neg hmigrates]
          exact ⟨.OK, _, _, rfl, rfl, hready, rfl, rfl, h.trie.pool, h.trie.stored⟩
  · exact ⟨.INVALID_PARAM, r, t, register_refused r hvalid, trie_register_refused t hvalid, h⟩

/-- A lookup in the pool comes to what a lookup in the trie comes to. -/
theorem StoresTrie.lookup (h : StoresTrie r trie) (hvalid : PoolValid r) (method : Method)
    (segments : List (List UInt8)) :
    match_route_node r.node_pool method segments r.root_index 0 =
      some (Forest.scan MAX_PARAMS (node_handler method) segments 0 (router_match.trie_nodes trie)) := by
  obtain ⟨label, footprint, hholds, hbelow, -⟩ := h.stored
  obtain ⟨node, hnode, -, hvalue, hstores⟩ := trie_node_of_holds hholds
  have hroot := hvalid.index_ne hvalid.tree.root_lt
  rw [router_match.scan_root trie (Nat.zero_le MAX_PARAMS)]
  cases segments with
  | nil =>
    rw [match_route_node, if_neg hroot, hnode, Option.map_some, router_match.root_outcome, ← hvalue]
    rfl
  | cons segment segments =>
    rw [match_route_node, if_neg hroot, hnode, Option.bind_some]
    exact match_children_stored hvalid.nodes hstores (fun k hk => hvalid.index_ne (hbelow k hk)) segment segments 0

/-- Both models of a router serve the same routes, from the array or from the trie, with
the same parameters in the match. -/
structure SameRoutes (r : PoolRouter H) (t : router.Router H) : Prop where
  use_trie : t.use_trie = r.use_trie
  array_routes : t.array_routes = r.array_routes
  lookups : ∀ names method segments, ∃ outcome,
    match_route_node r.node_pool method segments r.root_index 0 = some outcome ∧
      router_match.Refines .zero (router_match.match_route_node names t.trie segments method .zero) outcome

theorem Refines.same_routes (h : Refines r t) : SameRoutes r t where
  use_trie := h.use_trie
  array_routes := h.array_routes
  lookups _ method segments :=
    ⟨_, h.trie.lookup h.ready.toPoolValid method segments, router_match.refines_trie t.trie (Nat.zero_le MAX_PARAMS)⟩

/-- Both models serve the same routes in every state of a run, and give every registration
the same answer. -/
def RunAgrees : PoolRouter H → router.Router H → List (Registration H) → Prop
  | r, t, [] => SameRoutes r t
  | r, t, reg :: regs => SameRoutes r t ∧
      ∃ err r' t', register r reg = some (err, r') ∧ trie_register t reg = some (err, t') ∧ RunAgrees r' t' regs

theorem refines_new : Refines (uvhttp_router_new : PoolRouter H) router.uvhttp_router_new :=
  ⟨ready_new, rfl, rfl, rfl, _, [], ⟨[], rfl, .nil⟩, List.forall_mem_nil _, List.nodup_singleton _⟩

theorem Refines.run (h : Refines r t) {regs : List (Registration H)} (hfits : RunFits r regs) :
    RunAgrees r t regs := by
  induction regs generalizing r t with
  | nil => exact h.same_routes
  | cons reg regs ih =>
    obtain ⟨hfirst, hrest⟩ := hfits
    obtain ⟨err, r', t', hregister, htrie, hrefines⟩ := register_refines h hfirst
    exact ⟨h.same_routes, err, r', t', hregister, htrie, ih hrefines (hrest err r' hregister)⟩

/-- The node pool of a new router is the trie, through every run of registrations that fit. -/
theorem pool_refines_trie {regs : List (Registration H)} (hfits : RunFits uvhttp_router_new regs) :
    RunAgrees uvhttp_router_new router.uvhttp_router_new regs :=
  refines_new.run hfits

end routers

/-- In the run whose pool is first refused more nodes and then grows, the trie finds a user
with one parameter, as the pool does. -/
theorem pool_refines_trie_grows :
    RunAgrees uvhttp_router_new router.uvhttp_router_new growing_run ∧
      ∃ t m, growing_run.foldlM (fun t reg => (trie_register t reg).map Prod.snd) router.uvhttp_router_new = some t ∧
        router_match.match_route_node (fun _ => []) t.trie [bytes "users", bytes "7"] .GET .zero = some (true, m) ∧
        m.handler = some (.handler 3) ∧ m.param_count = 1 := by
  refine ⟨pool_refines_trie (run_fits_sound (by decide +kernel)), ?_⟩
  have hrun : (growing_run.foldlM (fun t reg => (trie_register t reg).map Prod.snd) router.uvhttp_router_new).any
      (fun t => (router_match.match_route_node (fun _ => []) t.trie [bytes "users", bytes "7"] .GET .zero).any
        fun result => result.1 && decide (result.2.handler = some (.handler 3) ∧ result.2.param_count = 1)) = true := by
    decide +kernel
  simp only [Option.any_eq_true, Bool.and_eq_true, decide_eq_true_eq, Prod.exists] at hrun
  obtain ⟨t, ht, found, m, hmatch, rfl, hhandler, hcount⟩ := hrun
  exact ⟨t, m, ht, hmatch, hhandler, hcount⟩

end uvhttp.route_pool
