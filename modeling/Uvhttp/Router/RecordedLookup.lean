import Uvhttp.Router.MatchNodes

/-! The lookup with the match that it keeps on its stack, and the lookup that only asks which route is
found. -/

namespace uvhttp.router_match

open http (Method)
open ordered_trie
open router (Router Target Trie node_handler path_segments static_covers uvhttp_method_from_string)

variable {H : Type} {names : ParamNames} {router : Router H} {path method : List UInt8}

theorem found_handler {trie : uvhttp.router.Trie H} {segments : List (List UInt8)} {method : Method} {m : RouteMatch H}
    (h : match_route_node names trie segments method .zero = some (true, m)) :
    ∃ handler, m.handler = some (.handler handler) := by
  have hrefines := @refines_trie H names method segments trie .zero (Nat.zero_le _)
  rw [h] at hrefines
  generalize Forest.scan MAX_PARAMS (node_handler method) segments _ (trie_nodes trie) =
    outcome at hrefines
  cases hrefines with
  | found hhandler => exact ⟨_, hhandler⟩

/-- Where its match has room, the trie search finds what the search of the trie
finds. -/
theorem found_eq_match_route_node {trie : uvhttp.router.Trie H} {segments : List (List UInt8)} {method : Method}
    {result : Bool × RouteMatch H} (h : match_route_node names trie segments method .zero = some result) :
    (if result.1 then result.2.handler else none) =
      (uvhttp.router.match_route_node trie segments method).map .handler := by
  cases segments with
  | nil =>
    cases h
    rw [match_leaf, uvhttp.router.match_route_node]
    cases trie.root.bind (node_handler method) with
    | none => rfl
    | some handler => rfl
  | cons segment segments =>
    have hrefines := @refines_children H names method trie.children [] 0 segment segments .zero
    rw [show match_children names method trie.children [] 0 segment segments .zero = some result from h]
      at hrefines
    have hfind := @Forest.find_eq_search _ _ _ _ MAX_PARAMS (node_handler method) trie.children segment
      segments (RouteMatch.zero : RouteMatch H).param_count
    rw [uvhttp.router.match_route_node]
    generalize Forest.search MAX_PARAMS (node_handler method) trie.children segment segments _ = outcome
      at hrefines hfind
    cases hrefines with
    | missing hcount hhandler =>
      rw [hfind (by intro hexhausted; cases hexhausted)]
      rfl
    | found hhandler =>
      rw [hfind (by intro hexhausted; cases hexhausted)]
      exact hhandler

/-- The trie search for a path stays within the parameters of the match. -/
def WithinParams (router : Router H) (method : Method) (path : List UInt8) : Prop :=
  router.use_trie = true →
    ∀ node, Searched router.trie method (path_segments path) node → param_nodes node ≤ MAX_PARAMS

instance (router : Router H) (method : Method) (path : List UInt8) : Decidable (WithinParams router method path) :=
  decidable_of_iff
    (router.use_trie = true → (match_route_node (fun _ => []) router.trie (path_segments path) method .zero).isSome)
    (by rw [WithinParams, ← params_in_bounds_iff (fun _ => []), Option.isSome_iff_ne_none])

/-- In array mode there is no match to fill in. -/
theorem within_params_array {router : Router H} (h : router.use_trie = false) (method : Method) (path : List UInt8) :
    WithinParams router method path := fun htrie => absurd (h.symm.trans htrie) Bool.false_ne_true

/-- The routes with the match find what the routes without it find, where the match has room, and nothing
elsewhere. -/
theorem find_route_iff {target : Option (Target H)} :
    find_route names router path method = some target ↔
      WithinParams router (uvhttp_method_from_string method) path ∧
        (uvhttp.router.find_route router path (uvhttp_method_from_string method)).map (Option.map .handler) =
          some target := by
  rw [find_route, uvhttp.router.find_route, WithinParams, ← params_in_bounds_iff names]
  cases hmode : router.use_trie with
  | true =>
    rw [if_pos rfl, if_pos rfl, Option.map_some]
    rcases hmatch : match_route_node names router.trie (path_segments path) (uvhttp_method_from_string method) .zero
      with _ | ⟨matched, m⟩
    · simp
    · rw [← found_eq_match_route_node hmatch]
      cases matched with
      | false => simp
      | true => simp
  | false =>
    rw [if_neg Bool.false_ne_true, if_neg Bool.false_ne_true]
    cases router.array_routes with
    | released => simp
    | routes entries => simp

/-- What is found among the routes is the handler of one. -/
theorem found_route_handler {target : Target H} (h : find_route names router path method = some (some target)) :
    ∃ handler, target = .handler handler := by
  obtain ⟨-, hfound⟩ := find_route_iff.mp h
  obtain ⟨route, -, hroute⟩ := Option.map_eq_some_iff.mp hfound
  obtain ⟨handler, -, hhandler⟩ := Option.map_eq_some_iff.mp hroute
  exact ⟨handler, hhandler.symm⟩

/-- The lookup with its match returns something exactly where the lookup without it does and the match has
room, and then they return the same. -/
theorem find_handler_iff {found : Option (Target H)} :
    uvhttp_router_find_handler names router path method = some found ↔
      uvhttp.router.uvhttp_router_find_handler router path method = some found ∧
        (static_covers router path = false → WithinParams router (uvhttp_method_from_string method) path) := by
  rw [uvhttp_router_find_handler, uvhttp.router.uvhttp_router_find_handler]
  cases static_covers router path with
  | true => simp
  | false =>
    rw [if_neg Bool.false_ne_true, if_neg Bool.false_ne_true]
    have hroute := fun target => @find_route_iff H names router path method target
    generalize find_route names router path method = recorded at hroute ⊢
    generalize uvhttp.router.find_route router path (uvhttp_method_from_string method) = route at hroute ⊢
    by_cases hwithin : WithinParams router (uvhttp_method_from_string method) path
    · simp only [hwithin, true_and] at hroute
      obtain rfl : recorded = route.map (Option.map .handler) := Option.ext hroute
      rcases route with _ | _ | handler
      · simp
      · simp [hwithin]
      · simp [hwithin]
    · simp only [hwithin, false_and, iff_false] at hroute
      obtain rfl : recorded = none := Option.eq_none_iff_forall_ne_some.mpr hroute
      simp [hwithin]

end uvhttp.router_match
