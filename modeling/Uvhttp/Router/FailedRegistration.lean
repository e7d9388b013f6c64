import Uvhttp.Router.Migration
import Uvhttp.Router.Query
import Uvhttp.Router.StaticContext

namespace uvhttp.router

open http (Method)
open ordered_trie
open router_match (MAX_PARAMS ParamNames Searched TrieNode WithinParams find_handler_iff param_nodes path_matches
  trie_nodes)
open static_context (Setup setup_router RouterSetUp Given)

variable {H : Type} {alloc : Nat → Bool}

section insertion

variable {value : Method × H} {pool : Pool} {labels : List (Label (List UInt8))}

/-- A branch that is not finished carries no value. -/
theorem create_branch_failed {label : Label (List UInt8)}
    (h : (create_branch alloc value pool label labels).2.2 = false) :
    (create_branch alloc value pool label labels).1.entries = [] := by
  induction labels generalizing pool label with
  | nil =>
    rw [create_branch] at h ⊢
    cases hnode : create_route_node alloc pool with
    | none => rfl
    | some next => simp [hnode] at h
  | cons next labels ih =>
    rw [create_branch] at h ⊢
    cases hnode : create_route_node alloc pool with
    | none => rfl
    | some grown =>
      rw [hnode] at h
      have hbelow := ih h
      dsimp only
      rw [Forest.entries, hbelow]
      rfl

/-- A path for which there is no room leaves nodes behind, but no value. -/
theorem insert_path_failed {seen : Nat} {f : Forest (List UInt8) (Method × H)} {label : Label (List UInt8)}
    (h : (insert_path alloc value pool seen f label labels).2.2 = false) :
    (insert_path alloc value pool seen f label labels).1.entries = f.entries := by
  induction f generalizing pool seen label labels with
  | nil =>
    rw [insert_path] at h ⊢
    split
    · rfl
    · rename_i hroom
      rw [if_neg hroom] at h
      exact create_branch_failed h
  | cons first old children siblings ihchildren ihsiblings =>
    rw [insert_path.eq_def] at h ⊢
    dsimp only at h ⊢
    by_cases hsame : first.name = label.name
    · rw [if_pos hsame] at h ⊢
      cases labels with
      | nil => cases h
      | cons next labels =>
        have hbelow := ihchildren h
        dsimp only
        rw [Forest.entries, Forest.entries, hbelow]
    · rw [if_neg hsame] at h ⊢
      have hlater := ihsiblings h
      dsimp only
      rw [Forest.entries, Forest.entries, hlater]

/-- A route that does not fit into the trie is not found, and no other is lost. -/
theorem match_route_node_failed {trie : Trie H} {path : List UInt8}
    (h : (add_to_trie alloc value trie path).2 = false) (segments : List (List UInt8)) (method : Method) :
    match_route_node (add_to_trie alloc value trie path).1 segments method = match_route_node trie segments method := by
  unfold add_to_trie at h ⊢
  cases hlabels : route_labels path with
  | nil =>
    rw [hlabels] at h
    cases h
  | cons label labels =>
    rw [hlabels] at h
    have hentries := insert_path_failed h
    cases segments with
    | nil => rfl
    | cons segment segments =>
      dsimp only [match_route_node]
      rw [Forest.find_eq_findSome, hentries, ← Forest.find_eq_findSome]

/-- The nodes that there is room for on a new branch, each by the labels that lead to it. -/
def room_nodes (alloc : Nat → Bool) (pool : Pool) :
    Label (List UInt8) → List (Label (List UInt8)) → List (List (Label (List UInt8)))
  | label, [] =>
    match create_route_node alloc pool with
    | none => []
    | some _ => [[stored_label label]]
  | label, next :: labels =>
    match create_route_node alloc pool with
    | none => []
    | some pool => [stored_label label] :: (room_nodes alloc pool next labels).map (stored_label label :: ·)

/-- The nodes that there is room for where the way of a route leaves a forest. -/
def new_nodes (alloc : Nat → Bool) (pool : Pool) (seen : Nat) :
    Forest (List UInt8) (Method × H) → Label (List UInt8) → List (Label (List UInt8)) → List (List (Label (List UInt8)))
  | .nil, label, labels => if seen ≥ MAX_CHILD_INDICES then [] else room_nodes alloc pool label labels
  | .cons first _ children siblings, label, labels =>
    if first.name = label.name then
      match labels with
      | [] => []
      | next :: labels => (new_nodes alloc pool 0 children next labels).map (first :: ·)
    else new_nodes alloc pool (seen + 1) siblings label labels

/-- The nodes that a search meets before it comes to where the way of a route leaves a forest. -/
def passed_nodes :
    Forest (List UInt8) (Method × H) → Label (List UInt8) → List (Label (List UInt8)) → List (TrieNode H)
  | .nil, _, _ => []
  | .cons first old children siblings, label, labels =>
    if first.name = label.name then
      match labels with
      | [] => []
      | next :: labels =>
        ([first], old) :: (passed_nodes children next labels).map fun node => (first :: node.1, node.2)
    else
      ([first], old) :: children.nodes.map (fun node => (first :: node.1, node.2)) ++
        passed_nodes siblings label labels

theorem nodes_create_branch_failed {label : Label (List UInt8)}
    (h : (create_branch alloc value pool label labels).2.2 = false) :
    (create_branch alloc value pool label labels).1.nodes =
      (room_nodes alloc pool label labels).map fun labels => (labels, none) := by
  induction labels generalizing pool label with
  | nil =>
    rw [create_branch] at h ⊢
    rw [room_nodes]
    cases hnode : create_route_node alloc pool with
    | none => rfl
    | some next => simp [hnode] at h
  | cons next labels ih =>
    rw [create_branch] at h ⊢
    rw [room_nodes]
    cases hnode : create_route_node alloc pool with
    | none => rfl
    | some grown =>
      rw [hnode] at h
      have hbelow := ih h
      dsimp only
      rw [Forest.nodes, hbelow]
      simp [Forest.nodes, Function.comp_def]

/-- A path for which there is no room leaves its new nodes, without values, where its way leaves the
forest. -/
theorem nodes_insert_path_failed {seen : Nat} {f : Forest (List UInt8) (Method × H)} {label : Label (List UInt8)}
    (h : (insert_path alloc value pool seen f label labels).2.2 = false) :
    ∃ rest, f.nodes = passed_nodes f label labels ++ rest ∧
      (insert_path alloc value pool seen f label labels).1.nodes = passed_nodes f label labels ++
        ((new_nodes alloc pool seen f label labels).map (fun labels => (labels, none)) ++ rest) := by
  induction f generalizing pool seen label labels with
  | nil =>
    refine ⟨[], rfl, ?_⟩
    rw [insert_path] at h ⊢
    rw [new_nodes]
    split
    · rfl
    · rename_i hroom
      rw [if_neg hroom] at h
      rw [passed_nodes, List.nil_append, List.append_nil]
      exact nodes_create_branch_failed h
  | cons first old children siblings ihchildren ihsiblings =>
    rw [insert_path.eq_def] at h ⊢
    rw [new_nodes.eq_def, passed_nodes.eq_def]
    dsimp only at h ⊢
    by_cases hsame : first.name = label.name
    · simp only [if_pos hsame] at h ⊢
      cases labels with
      | nil => cases h
      | cons next labels =>
        obtain ⟨rest, hnodes, hinserted⟩ := ihchildren h
        dsimp only
        refine ⟨rest.map (fun node => (first :: node.1, node.2)) ++ siblings.nodes, ?_, ?_⟩
        · simp [Forest.nodes, hnodes]
        · simp [Forest.nodes, hinserted, Function.comp_def]
    · simp only [if_neg hsame] at h ⊢
      obtain ⟨rest, hnodes, hinserted⟩ := ihsiblings h
      refine ⟨rest, ?_, ?_⟩
      · simp [Forest.nodes, hnodes]
      · simp [Forest.nodes, hinserted]

/-- The nodes of a trie that come before those that a route adds. -/
def passed_by (trie : Trie H) (path : List UInt8) : List (TrieNode H) :=
  match route_labels path with
  | [] => []
  | label :: labels => ([], trie.root) :: passed_nodes trie.children label labels

/-- The nodes that a route adds to a trie as far as there is room. -/
def added_by (alloc : Nat → Bool) (trie : Trie H) (path : List UInt8) : List (List (Label (List UInt8))) :=
  match route_labels path with
  | [] => []
  | label :: labels => new_nodes alloc trie.pool 0 trie.children label labels

theorem trie_nodes_failed {trie : Trie H} {path : List UInt8} (h : (add_to_trie alloc value trie path).2 = false) :
    ∃ rest, trie_nodes trie = passed_by trie path ++ rest ∧
      trie_nodes (add_to_trie alloc value trie path).1 = passed_by trie path ++
        ((added_by alloc trie path).map (fun labels => (labels, none)) ++ rest) := by
  unfold add_to_trie at h ⊢
  unfold passed_by added_by
  cases hlabels : route_labels path with
  | nil =>
    rw [hlabels] at h
    cases h
  | cons label labels =>
    rw [hlabels] at h
    obtain ⟨rest, hnodes, hinserted⟩ := nodes_insert_path_failed h
    refine ⟨rest, ?_, ?_⟩
    · rw [trie_nodes, hnodes]
      rfl
    · rw [trie_nodes]
      dsimp only
      rw [hinserted]
      rfl

/-- The parameters of the nodes that a search comes to, told by the search with its budget. -/
theorem searched_within_iff {trie : Trie H} {method : Method} {segments : List (List UInt8)} :
    (∀ node, Searched trie method segments node → param_nodes node ≤ MAX_PARAMS) ↔
      Forest.scan MAX_PARAMS (node_handler method) segments 0 (trie_nodes trie) ≠ .exhausted := by
  constructor
  · intro hparams
    rw [router_match.scan_trie hparams]
    cases (trie_nodes trie).find? (path_matches method segments) with
    | none =>
      intro heq
      cases heq
    | some node =>
      dsimp only [Option.elim]
      cases node.2.bind (node_handler method) with
      | none =>
        intro heq
        cases heq
      | some handler =>
        intro heq
        cases heq
  · intro hscan node hsearched
    by_contra hover
    refine hscan (Forest.scan_eq_exhausted hsearched ?_)
    rw [Nat.zero_add]
    exact Nat.not_le.mp hover

/-- A search meets the parameters that it met before, and those of the new nodes if it comes to them. -/
theorem searched_within_failed {trie : Trie H} {path : List UInt8} (h : (add_to_trie alloc value trie path).2 = false)
    (method : Method) (segments : List (List UInt8)) :
    (∀ node, Searched (add_to_trie alloc value trie path).1 method segments node → param_nodes node ≤ MAX_PARAMS) ↔
      (∀ node, Searched trie method segments node → param_nodes node ≤ MAX_PARAMS) ∧
        ((∀ node ∈ passed_by trie path, path_matches method segments node = false) →
          ∀ labels ∈ added_by alloc trie path, opens labels segments = true → wildcards labels ≤ MAX_PARAMS) := by
  obtain ⟨rest, hbefore, hafter⟩ := trie_nodes_failed h
  have hvalueless : ∀ node ∈ (added_by alloc trie path).map fun labels => ((labels, none) : TrieNode H),
      node.2 = none := by
    intro node hnode
    obtain ⟨labels, -, rfl⟩ := List.mem_map.mp hnode
    rfl
  have hover : Forest.Overdrawn MAX_PARAMS segments 0
      ((added_by alloc trie path).map fun labels => ((labels, none) : TrieNode H)) ↔
      ¬ ∀ labels ∈ added_by alloc trie path, opens labels segments = true → wildcards labels ≤ MAX_PARAMS := by
    simp [Forest.Overdrawn]
  rw [searched_within_iff, searched_within_iff, hafter, hbefore, ne_eq, ne_eq,
    Forest.scan_insert_exhausted_iff hvalueless, hover, not_or, not_and, not_not]
  rfl

/-- No search that stays within its match so far comes to a node beyond it among those that a route adds
for which there is no room. -/
def AddsNoOverrun (alloc : Nat → Bool) (trie : Trie H) (path : List UInt8) : Prop :=
  ∀ path' method, (∀ node, Searched trie method (path_segments path') node → param_nodes node ≤ MAX_PARAMS) →
    (∀ node ∈ passed_by trie path, path_matches method (path_segments path') node = false) →
    ∀ labels ∈ added_by alloc trie path, opens labels (path_segments path') = true → wildcards labels ≤ MAX_PARAMS

/-- It is enough that no new node has too many parameters. -/
theorem adds_no_overrun_of_few {trie : Trie H} {path : List UInt8}
    (h : ∀ labels ∈ added_by alloc trie path, wildcards labels ≤ MAX_PARAMS) : AddsNoOverrun alloc trie path :=
  fun _ _ _ _ labels hlabels _ => h labels hlabels

end insertion

/-- The states that registrations lead to: all routes in a trie, all in an array
beside an empty trie, or in an array that has been freed. -/
inductive Settled (router : Router H) : Prop where
  | trie (hmode : router.use_trie = true) (harray : router.array_routes = .routes [])
  | array {entries : List (ArrayRoute H)} (hmode : router.use_trie = false)
      (harray : router.array_routes = .routes entries) (htrie : router.trie = uvhttp_router_new.trie)
      (hentries : ∀ r ∈ entries, ValidRoute r ∧ COLON ∉ r.path)
  | released (hmode : router.use_trie = false) (harray : router.array_routes = .released)

section reachable

variable {router router' : Router H}

/-- What belongs to the routes decides what settled means. -/
theorem Settled.congr (h : Settled router) (hmode : router'.use_trie = router.use_trie)
    (harray : router'.array_routes = router.array_routes) (htrie : router'.trie = router.trie) : Settled router' := by
  cases h with
  | trie hold hrest => exact .trie (hmode.trans hold) (harray.trans hrest)
  | array hold hrest hnew hentries => exact .array (hmode.trans hold) (harray.trans hrest) (htrie.trans hnew) hentries
  | released hold hrest => exact .released (hmode.trans hold) (harray.trans hrest)

theorem Settled.register (h : Settled router) {path : List UInt8} {method : Method} {handler : Option H}
    {result : UvhttpError × Router H} (hregistered : Registered alloc router path method handler result) :
    Settled result.2 := by
  cases hregistered with
  | rejected hinvalid => exact h
  | trie hvalid hmode =>
    cases h with
    | trie hold hrest => exact .trie hmode hrest
    | array hold hrest hnew hentries => cases hmode.symm.trans hold
    | released hold hrest => cases hmode.symm.trans hold
  | stranded hvalid hmode harray hmigrates hfull => exact .released hmode rfl
  | migrated hvalid hmode harray hmigrates hroom => exact .trie rfl rfl
  | @array handler hvalid hmode entries harray hstays =>
    cases h with
    | trie hold hrest => cases hold.symm.trans hmode
    | released hold hrest => cases hrest.symm.trans harray
    | @array entries' hold hrest hnew hentries =>
      cases hrest.symm.trans harray
      refine .array hmode rfl hnew ?_
      intro r hr
      rcases List.mem_append.mp hr with hbefore | hlast
      · exact hentries r hbefore
      · have hcopy : path.take (MAX_ROUTE_PATH_LEN - 1) = path :=
          List.take_of_length_le (Nat.le_sub_one_of_lt hvalid.length)
        rw [List.mem_singleton.mp hlast]
        dsimp only
        rw [hcopy]
        exact ⟨⟨hvalid.not_empty, hvalid.length, hvalid.no_query⟩, fun hcolon => hstays (.inl hcolon)⟩

/-- Every reachable router is settled. -/
theorem settled_of_setUp {binary_route_handler : H} {given : Given}
    (h : RouterSetUp binary_route_handler router given) : Settled router := by
  induction h with
  | new => exact .array rfl rfl rfl fun r hr => by cases hr
  | @call router router' given code alloc setup _ hcall ih =>
    cases setup with
    | route path method handler => exact ih.register (registered_of_call hcall)
    | static_route prefix_path static_context =>
      rw [setup_router, Option.some.injEq] at hcall
      cases static_context with
      | none =>
        cases hcall
        exact ih
      | some static_context =>
        rw [Option.map_some, uvhttp_router_add_static_route] at hcall
        split at hcall
        · cases hcall
          exact ih.congr rfl rfl rfl
        · cases hcall
          exact ih.congr rfl rfl rfl
    | fallback_route static_context =>
      rw [setup_router, Option.some.injEq] at hcall
      cases static_context with
      | none =>
        cases hcall
        exact ih
      | some static_context =>
        cases hcall
        exact ih.congr rfl rfl rfl
    | binary_route path mime_type =>
      rw [setup_router, uvhttp_router_add_binary_route, uvhttp_router_add_route] at hcall
      have hsettled : Settled { router with static_context := some (.mime_type mime_type) } := ih.congr rfl rfl rfl
      exact hsettled.register (registered_of_call hcall)

end reachable

/-- Every lookup and every registration finds the storage it works on. -/
def Usable (binary_route_handler : H) (router : Router H) : Prop :=
  (∀ path method, (uvhttp_router_find_handler router path method).isSome = true) ∧
    ∀ alloc setup, (setup_router binary_route_handler alloc router setup).isSome = true

/-- The routing after a call is the one before it, also where a lookup writes beyond its match, on storage
that can be used. -/
structure RoutingIntact (binary_route_handler : H) (router router' : Router H) : Prop where
  lookups : ∀ names names' path method, router_match.uvhttp_router_find_handler names' router' path method =
    router_match.uvhttp_router_find_handler names router path method
  usable : Usable binary_route_handler router'

/-- A valid call that comes to add its route to the trie. -/
structure ReachesTrie (router : Router H) (path : List UInt8) (handler : Option H) : Prop where
  valid : ValidCall path handler
  trie : router.use_trie = true ∨ ∃ entries, router.array_routes = .routes entries ∧ Migrates entries path

/-- A valid call that moves routes from the array to the trie. -/
structure StartsMigration (router : Router H) (path : List UInt8) (handler : Option H) : Prop where
  valid : ValidCall path handler
  mode : router.use_trie = false
  moves : ∃ entries, router.array_routes = .routes entries ∧ entries ≠ [] ∧ Migrates entries path

section lookups

variable {router router' : Router H}

/-- The routes and the static services decide what a lookup returns. -/
theorem find_handler_congr (hservice : router'.static_prefix = router.static_prefix)
    (hcontext : router'.static_context = router.static_context)
    (hfallback : router'.fallback_context = router.fallback_context)
    (hroutes : ∀ path method, find_route router' path method = find_route router path method)
    (path method : List UInt8) :
    uvhttp_router_find_handler router' path method = uvhttp_router_find_handler router path method := by
  have hcovers : static_covers router' path = static_covers router path := by
    rw [static_covers, static_covers, hservice, hcontext]
  rw [uvhttp_router_find_handler, uvhttp_router_find_handler, hcovers, hroutes, hfallback]

/-- Lookups that find the same, with room in their matches for the same paths, are the same. -/
theorem recorded_lookups_congr (hcovers : ∀ path, static_covers router' path = static_covers router path)
    (hfound : ∀ path method,
      uvhttp_router_find_handler router' path method = uvhttp_router_find_handler router path method)
    (hwithin : ∀ path method, WithinParams router' method path ↔ WithinParams router method path)
    (names names' : ParamNames) (path method : List UInt8) :
    router_match.uvhttp_router_find_handler names' router' path method =
      router_match.uvhttp_router_find_handler names router path method := by
  ext found
  rw [find_handler_iff, find_handler_iff, hfound, hcovers, hwithin]

/-- A router in array mode notices every difference in what is found. -/
theorem not_intact_of_differs {binary_route_handler : H} (hmode : router.use_trie = false) {path method : List UInt8}
    {found : Option (Target H)} (hfound : uvhttp_router_find_handler router path method = some found)
    (hdiffers : uvhttp_router_find_handler router' path method ≠ uvhttp_router_find_handler router path method) :
    ¬ RoutingIntact binary_route_handler router router' := by
  intro hintact
  have hbefore : router_match.uvhttp_router_find_handler (fun _ => []) router path method = some found :=
    find_handler_iff.mpr ⟨hfound, fun _ => router_match.within_params_array hmode _ _⟩
  rw [← hintact.lookups (fun _ => []) (fun _ => [])] at hbefore
  exact hdiffers ((find_handler_iff.mp hbefore).1.trans hfound.symm)

/-- Different routes show in the lookup. -/
theorem find_handler_differs (hservice : router.static_prefix = none) (hservice' : router'.static_prefix = none)
    (hfallback : router'.fallback_context = router.fallback_context) {path : List UInt8} {method : Method}
    {found found' : Option H} (hroute : find_route router path method = some found)
    (hroute' : find_route router' path method = some found') (hne : found' ≠ found) :
    uvhttp_router_find_handler router' path (uvhttp_method_to_string method) ≠
      uvhttp_router_find_handler router path (uvhttp_method_to_string method) := by
  have hcovers : static_covers router path = false := by rw [static_covers, hservice]
  have hcovers' : static_covers router' path = false := by rw [static_covers, hservice']
  have htarget : found_target router' = found_target router := by
    funext found
    cases found with
    | none => rw [found_target, found_target, hfallback]
    | some handler => rfl
  rw [find_handler_uncovered hcovers, find_handler_uncovered hcovers', hroute, hroute', htarget]
  exact fun hsame => hne (found_target_inj (Option.some.inj hsame))

/-- A router that still has its array can be used. -/
theorem usable_of_held (binary_route_handler : H) (h : router.array_routes ≠ .released) :
    Usable binary_route_handler router := by
  have hregister : ∀ (alloc : Nat → Bool) (router : Router H), router.array_routes ≠ .released →
      ∀ path method handler, (uvhttp_router_add_route_method alloc router path method handler).isSome = true := by
    intro alloc router hheld path method handler
    unfold uvhttp_router_add_route_method
    cases handler with
    | none => rfl
    | some handler =>
      dsimp only
      split
      · rfl
      · split
        · rfl
        · split
          · rfl
          · split
            · rfl
            · cases harray : router.array_routes with
              | released => exact absurd harray hheld
              | routes entries =>
                dsimp only
                split
                · split
                  · rfl
                  · rfl
                · rfl
  have hroutes : ∀ path method, (find_route router path method).isSome = true := by
    intro path method
    unfold find_route
    split
    · rfl
    · cases harray : router.array_routes with
      | released => exact absurd harray h
      | routes entries => rfl
  refine ⟨fun path method => ?_, fun alloc setup => ?_⟩
  · have hfound := hroutes path (uvhttp_method_from_string method)
    unfold uvhttp_router_find_handler
    split
    · rfl
    · cases hroute : find_route router path (uvhttp_method_from_string method) with
      | none =>
        rw [hroute] at hfound
        cases hfound
      | some found =>
        cases found with
        | none => rfl
        | some handler => rfl
  · cases setup with
    | route path method handler => exact hregister alloc router h path method handler
    | static_route prefix_path static_context => rfl
    | fallback_route static_context => rfl
    | binary_route path mime_type =>
      rw [setup_router, uvhttp_router_add_binary_route, uvhttp_router_add_route]
      exact hregister alloc { router with static_context := some (.mime_type mime_type) } h path .ANY _

/-- A router whose array has been freed cannot. -/
theorem not_usable_of_released (binary_route_handler : H) (hmode : router.use_trie = false)
    (harray : router.array_routes = .released) : ¬ Usable binary_route_handler router := by
  intro h
  have hregistered := h.2 (fun _ => true) (.route (bytes "/") .GET (some binary_route_handler))
  have hnone : uvhttp_router_add_route_method (fun _ => true) router (bytes "/") .GET (some binary_route_handler) =
      none := by
    unfold uvhttp_router_add_route_method
    rw [hmode, harray]
    rfl
  rw [setup_router, hnone] at hregistered
  cases hregistered

end lookups

section failures

variable {router router' : Router H} {path : List UInt8} {method : Method} {code : UvhttpError}

theorem add_trie_route_failed {handler : H} (h : (code, router') = add_trie_route alloc router path method handler)
    (herror : code ≠ .OK) :
    (add_to_trie alloc (method, handler) router.trie path).2 = false ∧
      router' = { router with trie := (add_to_trie alloc (method, handler) router.trie path).1 } := by
  rw [add_trie_route] at h
  obtain ⟨hcode, hafter⟩ := Prod.mk.inj h
  refine ⟨?_, hafter⟩
  by_contra hroom
  rw [Bool.not_eq_false] at hroom
  rw [hroom, if_pos rfl] at hcode
  exact herror hcode

/-- In an empty trie nothing is found. -/
theorem match_route_node_new (segments : List (List UInt8)) (method : Method) :
    match_route_node (uvhttp_router_new : Router H).trie segments method = none := by
  cases segments with
  | nil => rfl
  | cons segment segments => rfl

theorem searched_within_new (method : Method) (segments : List (List UInt8)) :
    ∀ node, Searched (uvhttp_router_new : Router H).trie method segments node → param_nodes node ≤ MAX_PARAMS := by
  rintro node ⟨before, after, hnodes, -, -⟩
  have hroot : node ∈ [(([], none) : TrieNode H)] := by
    rw [show [(([], none) : TrieNode H)] = before ++ node :: after from hnodes]
    simp
  rw [List.mem_singleton.mp hroot]
  exact Nat.zero_le _

/-- A failed registration that comes to the trie: the trie before it and after it, in which the same is
found. -/
structure Unfinished (alloc : Nat → Bool) (router router' : Router H) (path : List UInt8) (value : Method × H) :
    Prop where
  full : (add_to_trie alloc value router.trie path).2 = false
  trie : router'.trie = (add_to_trie alloc value router.trie path).1
  mode : router'.use_trie = true
  covers : ∀ path, static_covers router' path = static_covers router path
  found : ∀ path method, uvhttp_router_find_handler router' path method = uvhttp_router_find_handler router path method
  held : router.array_routes ≠ .released
  array : router.use_trie = false → router.trie = uvhttp_router_new.trie

/-- What a call that fails and moves no routes comes to. -/
theorem unmoved_cases (hsettled : Settled router) {handler : Option H}
    (hregistered : Registered alloc router path method handler (code, router')) (herror : code ≠ .OK)
    (hheld : router.array_routes ≠ .released) (hunmoved : ¬ StartsMigration router path handler) :
    router' = router ∧ ¬ ReachesTrie router path handler ∨
      ReachesTrie router path handler ∧
        ∃ value, Unfinished alloc router router' path value ∧ router'.array_routes ≠ .released := by
  have hempty : ∀ {entries : List (ArrayRoute H)}, ValidCall path handler → router.use_trie = false →
      router.array_routes = .routes entries → Migrates entries path → entries = [] := by
    intro entries hvalid hmode harray hmigrates
    by_contra hsome
    exact hunmoved ⟨hvalid, hmode, entries, harray, hsome, hmigrates⟩
  generalize hresult : (code, router') = result at hregistered
  cases hregistered with
  | rejected hinvalid =>
    cases hresult
    exact .inl ⟨rfl, fun hreaches => hinvalid hreaches.valid⟩
  | @trie handler hvalid hmode =>
    obtain ⟨hfull, rfl⟩ := add_trie_route_failed hresult herror
    refine .inr ⟨⟨hvalid, .inl hmode⟩, (method, handler), ⟨hfull, rfl, hmode, fun _ => rfl, ?_, hheld, ?_⟩, hheld⟩
    · refine find_handler_congr rfl rfl rfl fun path' method' => ?_
      unfold find_route
      rw [if_pos hmode, if_pos hmode]
      exact congrArg some (match_route_node_failed hfull _ _)
    · intro hunused
      cases hunused.symm.trans hmode
  | stranded hvalid hmode harray hmigrates hfull =>
    have hnone := hempty hvalid hmode harray hmigrates
    rw [hnone] at hfull
    cases hfull
  | @migrated handler hvalid hmode entries harray hmigrates hroom =>
    have hnone := hempty hvalid hmode harray hmigrates
    subst hnone
    obtain ⟨hfull, rfl⟩ := add_trie_route_failed hresult herror
    cases hsettled with
    | trie hold hrest => cases hold.symm.trans hmode
    | released hold hrest => exact absurd hrest hheld
    | array hold hrest htrie hentries =>
      refine .inr ⟨⟨hvalid, .inr ⟨[], harray, hmigrates⟩⟩, (method, handler),
        ⟨hfull, rfl, rfl, fun _ => rfl, ?_, hheld, fun _ => htrie⟩, fun habsurd => by cases habsurd⟩
      refine find_handler_congr rfl rfl rfl fun path' method' => ?_
      have hbefore : find_route router path' method' = some none := by
        unfold find_route
        rw [if_neg fun htrue => Bool.false_ne_true (hmode.symm.trans htrue), harray]
        rfl
      rw [hbefore]
      unfold find_route
      rw [if_pos rfl]
      refine congrArg some ((match_route_node_failed hfull _ _).trans ?_)
      change match_route_node router.trie _ _ = none
      rw [htrie]
      exact match_route_node_new _ _
  | array hvalid hmode harray hstays =>
    cases hresult
    exact absurd rfl herror

section unfinished

variable {value : Method × H}

theorem Unfinished.within_iff (h : Unfinished alloc router router' path value) (path' : List UInt8) (method : Method) :
    WithinParams router' method path' ↔ WithinParams router method path' ∧
      ((∀ node ∈ passed_by router.trie path, path_matches method (path_segments path') node = false) →
        ∀ labels ∈ added_by alloc router.trie path, opens labels (path_segments path') = true →
          wildcards labels ≤ MAX_PARAMS) := by
  have hold : WithinParams router method path' ↔
      ∀ node, Searched router.trie method (path_segments path') node → param_nodes node ≤ MAX_PARAMS := by
    cases hmode : router.use_trie with
    | true => exact ⟨fun hwithin => hwithin hmode, fun hall _ => hall⟩
    | false =>
      rw [h.array hmode]
      exact iff_of_true (router_match.within_params_array hmode _ _) (searched_within_new method _)
  rw [hold, ← searched_within_failed h.full, WithinParams, h.trie]
  exact ⟨fun hwithin => hwithin h.mode, fun hall _ => hall⟩

theorem Unfinished.intact_iff (h : Unfinished alloc router router' path value) (binary_route_handler : H)
    (hheld : router'.array_routes ≠ .released) :
    (AddsNoOverrun alloc router.trie path → RoutingIntact binary_route_handler router router') ∧
      (router.static_prefix = none → RoutingIntact binary_route_handler router router' →
        AddsNoOverrun alloc router.trie path) := by
  constructor
  · intro hnew
    refine ⟨recorded_lookups_congr h.covers h.found fun path' method => ?_, usable_of_held binary_route_handler hheld⟩
    rw [h.within_iff]
    refine ⟨And.left, fun hwithin => ⟨hwithin, hnew path' method ?_⟩⟩
    cases hmode : router.use_trie with
    | true => exact hwithin hmode
    | false =>
      rw [h.array hmode]
      exact searched_within_new method _
  · intro hservice hintact path' method hparams hpassed
    have huncovered : static_covers router path' = false := by rw [static_covers, hservice]
    have hdefined := (usable_of_held binary_route_handler h.held).1 path' (uvhttp_method_to_string method)
    obtain ⟨found, hfound⟩ := Option.isSome_iff_exists.mp hdefined
    have hbefore : router_match.uvhttp_router_find_handler (fun _ => []) router path'
        (uvhttp_method_to_string method) = some found := by
      rw [find_handler_iff, uvhttp_method_from_to_string]
      exact ⟨hfound, fun _ _ => hparams⟩
    rw [← hintact.lookups (fun _ => []) (fun _ => []), find_handler_iff, uvhttp_method_from_to_string] at hbefore
    exact ((h.within_iff path' method).mp (hbefore.2 ((h.covers path').trans huncovered))).2 hpassed

end unfinished

/-- A failure that moves no routes, when it changes nothing. -/
theorem unmoved_intact_iff (binary_route_handler : H) (hsettled : Settled router) {handler : Option H}
    (hregistered : Registered alloc router path method handler (code, router')) (herror : code ≠ .OK)
    (hheld : router.array_routes ≠ .released) (hunmoved : ¬ StartsMigration router path handler) :
    ((ReachesTrie router path handler → AddsNoOverrun alloc router.trie path) →
      RoutingIntact binary_route_handler router router') ∧
    (router.static_prefix = none → RoutingIntact binary_route_handler router router' →
      ReachesTrie router path handler → AddsNoOverrun alloc router.trie path) := by
  rcases unmoved_cases hsettled hregistered herror hheld hunmoved with
    ⟨hsame, hstops⟩ | ⟨hreaches, value, hunfinished, hkept⟩
  · subst hsame
    refine ⟨fun _ => ⟨fun names names' path method => ?_, usable_of_held binary_route_handler hheld⟩,
      fun _ _ hreaches => absurd hreaches hstops⟩
    exact recorded_lookups_congr (fun _ => rfl) (fun _ _ => rfl) (fun _ _ => Iff.rfl) names names' path method
  · obtain ⟨henough, hneeded⟩ := hunfinished.intact_iff binary_route_handler hkept
    exact ⟨fun hadded => henough (hadded hreaches), fun hservice hintact _ => hneeded hservice hintact⟩

/-- A failure that moves routes shows. -/
theorem moved_not_intact (binary_route_handler : H) (hsettled : Settled router) {handler : Option H}
    (hregistered : Registered alloc router path method handler (code, router')) (herror : code ≠ .OK)
    (hservice : router.static_prefix = none) (hmoved : StartsMigration router path handler) :
    ¬ RoutingIntact binary_route_handler router router' := by
  obtain ⟨hvalid, hmode, entries, harray, hsome, hmigrates⟩ := hmoved
  generalize hresult : (code, router') = result at hregistered
  cases hregistered with
  | rejected hinvalid => exact absurd hvalid hinvalid
  | trie _ htrie => cases htrie.symm.trans hmode
  | stranded _ _ _ _ hfull =>
    cases hresult
    intro hintact
    refine not_usable_of_released binary_route_handler ?_ ?_ hintact.usable
    · exact hmode
    · rfl
  | @migrated handler _ _ entries' harray' _ hroom =>
    cases harray.symm.trans harray'
    obtain ⟨hfull, rfl⟩ := add_trie_route_failed hresult herror
    cases hsettled with
    | trie hold hrest => cases hold.symm.trans hmode
    | released hold hrest => cases hrest.symm.trans harray
    | array hold hrest htrie hentries =>
      cases hrest.symm.trans harray
      obtain ⟨rs, r, rfl⟩ := (List.eq_nil_or_concat' entries).resolve_left hsome
      have hliteral : router.trie.children.All Literal := by
        rw [htrie]
        trivial
      obtain ⟨path', hvisible⟩ := migration_visible hliteral (fun q hq => (hentries q hq).1)
        (fun q hq => (hentries q hq).2) hroom
      have hbefore : find_route router path' r.method = some (find_array_route (rs ++ [r]) path' r.method) := by
        unfold find_route
        rw [if_neg fun htrue => Bool.false_ne_true (hmode.symm.trans htrue), harray]
      have hcovers : static_covers router path' = false := by rw [static_covers, hservice]
      have hfound : uvhttp_router_find_handler router path' (uvhttp_method_to_string r.method) =
          some (found_target router (find_array_route (rs ++ [r]) path' r.method)) := by
        rw [find_handler_uncovered hcovers, hbefore]
        rfl
      refine not_intact_of_differs hmode hfound (find_handler_differs hservice ?_ ?_ hbefore ?_ hvisible)
      · exact hservice
      · rfl
      · unfold find_route
        rw [if_pos rfl]
        exact congrArg some (match_route_node_failed hfull _ _)
  | array _ _ harray' hstays =>
    cases harray.symm.trans harray'
    exact absurd hmigrates hstays

/-- A router whose array has been freed is not mended. -/
theorem released_not_intact (binary_route_handler : H) (hsettled : Settled router) {handler : Option H}
    (hregistered : Registered alloc router path method handler (code, router'))
    (hreleased : router.array_routes = .released) : ¬ RoutingIntact binary_route_handler router router' := by
  intro hintact
  have hmode : router.use_trie = false := by
    cases hsettled with
    | trie hold hrest => cases hrest.symm.trans hreleased
    | released hold hrest => exact hold
    | array hold hrest htrie hentries => exact hold
  generalize hresult : (code, router') = result at hregistered
  cases hregistered with
  | rejected hinvalid =>
    cases hresult
    exact not_usable_of_released binary_route_handler hmode hreleased hintact.usable
  | trie _ htrie => cases htrie.symm.trans hmode
  | stranded _ _ harray _ _ => cases harray.symm.trans hreleased
  | migrated _ _ harray _ _ => cases harray.symm.trans hreleased
  | array _ _ harray _ => cases harray.symm.trans hreleased

end failures

/-- When a failed registration leaves the routing intact. Of a reachable router
and a call of `uvhttp_router_add_route_method` that returns an error: lookups
return what they returned before, on storage that can still be used, if the
array had not been freed before, the call does not move routes from the array
to the trie, and the nodes it leaves in the trie make no search write beyond its
match; and, where no static route hides the difference, only then. -/
theorem failed_registration_iff {binary_route_handler : H} {router router' : Router H} {given : Given}
    (hreached : RouterSetUp binary_route_handler router given) {path : List UInt8} {method : Method}
    {handler : Option H} {code : UvhttpError}
    (hcall : uvhttp_router_add_route_method alloc router path method handler = some (code, router'))
    (herror : code ≠ .OK) :
    (router.array_routes ≠ .released ∧ ¬ StartsMigration router path handler ∧
        (ReachesTrie router path handler → AddsNoOverrun alloc router.trie path) →
      RoutingIntact binary_route_handler router router') ∧
    (router.static_prefix = none → RoutingIntact binary_route_handler router router' →
      router.array_routes ≠ .released ∧ ¬ StartsMigration router path handler ∧
        (ReachesTrie router path handler → AddsNoOverrun alloc router.trie path)) := by
  have hsettled := settled_of_setUp hreached
  have hregistered := registered_of_call hcall
  constructor
  · rintro ⟨hheld, hunmoved, hadded⟩
    exact (unmoved_intact_iff binary_route_handler hsettled hregistered herror hheld hunmoved).1 hadded
  · intro hservice hintact
    have hheld : router.array_routes ≠ .released := by
      intro hreleased
      exact released_not_intact binary_route_handler hsettled hregistered hreleased hintact
    have hunmoved : ¬ StartsMigration router path handler := by
      intro hmoved
      exact moved_not_intact binary_route_handler hsettled hregistered herror hservice hmoved hintact
    refine ⟨hheld, hunmoved, ?_⟩
    exact (unmoved_intact_iff binary_route_handler hsettled hregistered herror hheld hunmoved).2 hservice hintact

/-- An allocator that cannot enlarge the node pool. -/
def no_growth (size : Nat) : Bool := size != 128 * SIZEOF_ROUTE_NODE

/-- A path of a hundred segments. -/
def deep_path : List UInt8 := (List.replicate 100 (bytes "/a")).flatten

/-- A trie without room for a deep path: what it serves stays as it was. -/
theorem failed_registration_deep :
    ∃ router router' : Router Nat, ∃ code, RouterSetUp 0 router ⟨none, none⟩ ∧
      uvhttp_router_add_route_method no_growth router deep_path .GET (some 2) = some (code, router') ∧ code ≠ .OK ∧
      RoutingIntact 0 router router' := by
  have hrun : ((uvhttp_router_add_route_method (fun _ => true) (uvhttp_router_new : Router Nat)
      (bytes "/users/:id") .GET (some 1)).bind fun first =>
        (uvhttp_router_add_route_method no_growth first.2 deep_path .GET (some 2)).map
        fun second => (first.2.use_trie, second.1, (added_by no_growth first.2.trie deep_path).all
          fun labels => decide (wildcards labels ≤ MAX_PARAMS))) = some (true, .OUT_OF_MEMORY, true) := by
    decide +kernel
  obtain ⟨⟨first, router⟩, hfirst, hsecond⟩ := Option.bind_eq_some_iff.mp hrun
  obtain ⟨⟨code, router'⟩, hcall, hpair⟩ := Option.map_eq_some_iff.mp hsecond
  obtain ⟨hmode, hcode, hadded⟩ := by simpa only [Prod.mk.injEq] using hpair
  have hfew : AddsNoOverrun no_growth router.trie deep_path := by
    apply adds_no_overrun_of_few
    intro labels hlabels
    exact of_decide_eq_true (List.all_eq_true.mp hadded labels hlabels)
  have hreached : RouterSetUp 0 router ⟨none, none⟩ :=
    .call (fun _ => true) (.route (bytes "/users/:id") .GET (some 1)) .new hfirst
  have herror : code ≠ .OK := by
    rintro rfl
    cases hcode
  refine ⟨router, router', code, hreached, hcall, herror, ?_⟩
  apply (failed_registration_iff hreached hcall herror).1
  refine ⟨?_, fun hmoved => Bool.false_ne_true (hmoved.mode.symm.trans hmode), fun _ => hfew⟩
  cases settled_of_setUp hreached with
  | trie hold hrest => rw [hrest]; exact fun habsurd => by cases habsurd
  | array hold hrest htrie hentries => cases hold.symm.trans hmode
  | released hold hrest => cases hold.symm.trans hmode

/-- Thirteen routes, one more than a node has children. -/
def thirteen : List (ArrayRoute Nat) :=
  (List.range 13).map fun i => ⟨[SLASH, UInt8.ofNat (97 + i)], .GET, i⟩

/-- The router with these routes in its array. -/
def thirteen_router : Router Nat := { uvhttp_router_new with array_routes := .routes thirteen }

theorem setUp_add_all {binary_route_handler : H} {rs : List (ArrayRoute H)} {router router' : Router H} {given : Given}
    (h : RouterSetUp binary_route_handler router given) (hadd : add_all alloc router rs = some router') :
    RouterSetUp binary_route_handler router' given := by
  induction rs generalizing router with
  | nil =>
    cases hadd
    exact h
  | cons r rs ih =>
    rw [add_all] at hadd
    split at hadd
    · rename_i next hcall
      exact ih (h.call alloc (.route r.path r.method (some r.handler)) hcall) hadd
    · cases hadd

/-- A route with a parameter sends them to the trie, whose root is full before the
last of them: the call fails and the array has been freed. -/
theorem failed_registration_strands :
    RouterSetUp 0 thirteen_router ⟨none, none⟩ ∧
      ∃ router', uvhttp_router_add_route_method (fun _ => true) thirteen_router (bytes "/x/:id") .GET (some 13) =
        some (.OUT_OF_MEMORY, router') ∧ ¬ RoutingIntact 0 thirteen_router router' := by
  have hadd : add_all (fun _ => true) uvhttp_router_new thirteen = some thirteen_router := rfl
  have hreached := setUp_add_all (RouterSetUp.new : RouterSetUp 0 uvhttp_router_new ⟨none, none⟩) hadd
  have hfails : (uvhttp_router_add_route_method (fun _ => true) thirteen_router (bytes "/x/:id") .GET
      (some 13)).map Prod.fst = some .OUT_OF_MEMORY := by decide +kernel
  obtain ⟨⟨code, router'⟩, hcall, hcode⟩ := Option.map_eq_some_iff.mp hfails
  dsimp only at hcode
  subst hcode
  refine ⟨hreached, router', hcall, ?_⟩
  apply moved_not_intact 0 (settled_of_setUp hreached) (registered_of_call hcall) (by decide) rfl
  exact ⟨⟨rfl, by decide, by decide, by decide⟩, rfl, thirteen, rfl, by decide, .inl (by decide)⟩

end uvhttp.router
