import Uvhttp.Lib.TrieSearch
import Uvhttp.Router.Model

namespace uvhttp.router_match

open http (Method)
open ordered_trie
open router (ArrayRoute ArrayTable Router SLASH COLON Target Trie find_array_route node_handler path_segments
  static_covers uvhttp_method_from_string)

def MAX_PARAMS : Nat := 16
def MAX_PARAM_NAME_LEN : Nat := 64
def MAX_PARAM_VALUE_LEN : Nat := 256
def LEFT_BRACE : UInt8 := 123

variable {H : Type}

/-- `uvhttp_param_t`. -/
structure Param where
  name : List UInt8
  value : List UInt8
  deriving DecidableEq, Repr

/-- `uvhttp_route_match_t`. The entries of `params` from `param_count` on are not part
of the result. -/
structure RouteMatch (H : Type) where
  handler : Option (Target H)
  params : List Param
  param_count : Nat
  deriving DecidableEq, Repr

/-- The record after `memset`. -/
def RouteMatch.zero : RouteMatch H where
  handler := none
  params := List.replicate MAX_PARAMS ⟨[], []⟩
  param_count := 0

def RouteMatch.set_handler (m : RouteMatch H) (target : Target H) : RouteMatch H := { m with handler := some target }

/-- The parameters of the result. -/
def RouteMatch.results (m : RouteMatch H) : List Param := m.params.take m.param_count

/-- The next parameter, `none` when it is written beyond `params`. -/
def RouteMatch.add_param (m : RouteMatch H) (param : Param) : Option (RouteMatch H) :=
  if m.param_count < MAX_PARAMS then
    some { m with params := m.params.set m.param_count param, param_count := m.param_count + 1 }
  else none

/-- The `param_name_data` of the nodes. A node is named by the positions of the child
indices that lead to it. -/
abbrev ParamNames := List Nat → List UInt8

/-- The copies of a node's name and of a segment. -/
def node_param (name segment : List UInt8) : Param :=
  ⟨name.take (MAX_PARAM_NAME_LEN - 1), segment.take (MAX_PARAM_VALUE_LEN - 1)⟩

/-- The end of the segments in `match_route_node`. -/
def match_leaf (method : Method) (value : Option (Method × H)) (m : RouteMatch H) : Bool × RouteMatch H :=
  match value.bind (node_handler method) with
  | some handler => (true, m.set_handler (.handler handler))
  | none => (false, m)

/-- The loop goes on where a child does not match. -/
def or_next (result : Option (Bool × RouteMatch H)) (next : RouteMatch H → Option (Bool × RouteMatch H)) :
    Option (Bool × RouteMatch H) :=
  match result with
  | some (false, m) => next m
  | result => result

/-- One round of the loop in `match_route_node`. -/
def try_child (label : Label (List UInt8)) (param : Param) (segment : List UInt8)
    (match_child : RouteMatch H → Option (Bool × RouteMatch H)) (m : RouteMatch H) : Option (Bool × RouteMatch H) :=
  if label.wildcard then
    match m.add_param param with
    | none => none
    | some m => or_next (match_child m) fun m => some (false, { m with param_count := m.param_count - 1 })
  else if label.name = segment then match_child m
  else some (false, m)

/-- The loop of `match_route_node` over the children of a node from one of them on.
Its result is whether it returns 0, with the match as it leaves it. -/
def match_children (names : ParamNames) (method : Method) :
    Forest (List UInt8) (Method × H) → List Nat → Nat → List UInt8 → List (List UInt8) → RouteMatch H →
      Option (Bool × RouteMatch H)
  | .nil, _, _, _, _, m => some (false, m)
  | .cons label value children siblings, node, i, segment, segments, m =>
    let result := try_child label (node_param (names (node ++ [i])) segment) segment (fun m =>
      match segments with
      | [] => some (match_leaf method value m)
      | next :: segments => match_children names method children (node ++ [i]) 0 next segments m) m
    or_next result fun m => match_children names method siblings node (i + 1) segment segments m

/-- `match_route_node` at the root, `none` when a parameter is written beyond the
array. -/
def match_route_node (names : ParamNames) (trie : Trie H) (segments : List (List UInt8)) (method : Method)
    (m : RouteMatch H) : Option (Bool × RouteMatch H) :=
  match segments with
  | [] => some (match_leaf method trie.root m)
  | segment :: segments => match_children names method trie.children [] 0 segment segments m

section lookup

variable (names : ParamNames) (router : Router H) (path method : List UInt8)

/-- The array lookup of `uvhttp_router_match` in trie mode, for a path without
parameters. -/
def fast_find : Option (Option H) :=
  if COLON ∈ path ∨ LEFT_BRACE ∈ path then some none
  else
    match router.array_routes with
    | .released => none
    | .routes entries => some (find_array_route entries path (uvhttp_method_from_string method))

/-- `uvhttp_router_match`. -/
def uvhttp_router_match : Option (UvhttpError × RouteMatch H) :=
  if !router.use_trie then
    if static_covers router path then
      some (.OK, RouteMatch.zero.set_handler .static_file_handler_wrapper)
    else
      match router.array_routes with
      | .released => none
      | .routes entries =>
        match find_array_route entries path (uvhttp_method_from_string method) with
        | some handler => some (.OK, RouteMatch.zero.set_handler (.handler handler))
        | none => some (.NOT_FOUND, .zero)
  else
    match fast_find router path method with
    | none => none
    | some (some handler) => some (.OK, RouteMatch.zero.set_handler (.handler handler))
    | some none =>
      match match_route_node names router.trie (path_segments path) (uvhttp_method_from_string method) .zero with
      | none => none
      | some (true, m) => some (.OK, m)
      | some (false, m) => some (.NOT_FOUND, m)

/-- The lookup of the routes in `uvhttp_router_find_handler`, with its own match. -/
def find_route : Option (Option (Target H)) :=
  if router.use_trie then
    match match_route_node names router.trie (path_segments path) (uvhttp_method_from_string method) .zero with
    | none => none
    | some (true, m) => some m.handler
    | some (false, _) => some none
  else
    match router.array_routes with
    | .released => none
    | .routes entries =>
      some ((find_array_route entries path (uvhttp_method_from_string method)).map .handler)

/-- `uvhttp_router_find_handler` with the match that it keeps on its stack. -/
def uvhttp_router_find_handler : Option (Option (Target H)) :=
  if static_covers router path then some (some .static_file_handler_wrapper)
  else
    match find_route names router path method with
    | none => none
    | some (some target) => some (some target)
    | some none => some (if router.fallback_context.isSome then some .static_file_handler_wrapper else none)

end lookup

section refinement

variable {names : ParamNames} {method : Method}

/-- The trie search with its record comes to what the search with a budget of
`MAX_PARAMS` comes to; a failed search leaves the count and the parameters below it. -/
inductive Refines (m : RouteMatch H) : Option (Bool × RouteMatch H) → Outcome H → Prop where
  | missing {m' : RouteMatch H} (hcount : m'.param_count = m.param_count) (hhandler : m'.handler = m.handler) :
      Refines m (some (false, m')) .missing
  | found {m' : RouteMatch H} {handler : H} (hhandler : m'.handler = some (.handler handler)) :
      Refines m (some (true, m')) (.found handler m'.param_count)
  | exhausted : Refines m none .exhausted

theorem Refines.orElse {m : RouteMatch H} {first : Option (Bool × RouteMatch H)}
    {rest : RouteMatch H → Option (Bool × RouteMatch H)} {outcome later : Outcome H} (hfirst : Refines m first outcome)
    (hrest : ∀ m' : RouteMatch H, m'.param_count = m.param_count → m'.handler = m.handler →
      Refines m' (rest m') later) :
    Refines m (or_next first rest) (outcome.orElse later) := by
  cases hfirst with
  | found hhandler => exact .found hhandler
  | exhausted => exact .exhausted
  | @missing m' hcount hhandler =>
    have hlater := hrest m' hcount hhandler
    rw [or_next, Outcome.missing_orElse]
    generalize rest m' = result at hlater
    cases hlater with
    | missing hcount' hhandler' => exact .missing (hcount'.trans hcount) (hhandler'.trans hhandler)
    | found hhandler' => exact .found hhandler'
    | exhausted => exact .exhausted

theorem refines_leaf (value : Option (Method × H)) (m : RouteMatch H) :
    Refines m (some (match_leaf method value m)) (outcome_of (value.bind (node_handler method)) m.param_count) := by
  rw [match_leaf]
  cases value.bind (node_handler method) with
  | none => exact .missing rfl rfl
  | some handler => exact .found rfl

/-- A parameter node is paid for, and taken back if the search under it fails. -/
theorem refines_child {label : Label (List UInt8)} {param : Param} {segment : List UInt8}
    {match_child : RouteMatch H → Option (Bool × RouteMatch H)} {under : Nat → Outcome H}
    (hchild : ∀ m, Refines m (match_child m) (under m.param_count)) (m : RouteMatch H) :
    Refines m (try_child label param segment match_child m)
      (Forest.enter MAX_PARAMS label segment m.param_count under) := by
  rw [try_child, Forest.enter]
  cases hwildcard : label.wildcard with
  | true =>
    rw [if_pos rfl, if_pos rfl]
    by_cases hroom : m.param_count < MAX_PARAMS
    · rw [if_pos hroom, RouteMatch.add_param, if_pos hroom]
      dsimp only
      have hbelow := hchild { m with params := m.params.set m.param_count param, param_count := m.param_count + 1 }
      generalize match_child _ = result at hbelow ⊢
      dsimp only at hbelow
      generalize under (m.param_count + 1) = outcome at hbelow ⊢
      cases hbelow with
      | @missing m' hcount hhandler =>
        refine .missing ?_ hhandler
        dsimp only
        rw [hcount]
        rfl
      | found hhandler => exact .found hhandler
      | exhausted => exact .exhausted
    · rw [if_neg hroom, RouteMatch.add_param, if_neg hroom]
      exact .exhausted
  | false =>
    by_cases hname : label.name = segment
    · rw [if_neg Bool.false_ne_true, if_pos hname, if_neg Bool.false_ne_true, if_pos hname]
      exact hchild m
    · rw [if_neg Bool.false_ne_true, if_neg hname, if_neg Bool.false_ne_true, if_neg hname]
      exact .missing rfl rfl

theorem refines_children (f : Forest (List UInt8) (Method × H)) (node : List Nat) (i : Nat) (segment : List UInt8)
    (segments : List (List UInt8)) (m : RouteMatch H) :
    Refines m (match_children names method f node i segment segments m)
      (f.search MAX_PARAMS (node_handler method) segment segments m.param_count) := by
  induction f generalizing node i segment segments m with
  | nil => exact .missing rfl rfl
  | cons label value children siblings ihchildren ihsiblings =>
    have hlater : ∀ m' : RouteMatch H, m'.param_count = m.param_count →
        Refines m' (match_children names method siblings node (i + 1) segment segments m')
          (siblings.search MAX_PARAMS (node_handler method) segment segments m.param_count) :=
      fun m' hcount => hcount ▸ ihsiblings node (i + 1) segment segments m'
    rw [match_children]
    cases segments with
    | nil =>
      rw [Forest.search_last]
      exact (refines_child (fun m => refines_leaf value m) m).orElse fun m' hcount _ => hlater m' hcount
    | cons next segments =>
      rw [Forest.search_more]
      exact (refines_child (fun m => ihchildren (node ++ [i]) 0 next segments m) m).orElse
        fun m' hcount _ => hlater m' hcount

end refinement

end uvhttp.router_match
