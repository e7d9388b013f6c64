import Uvhttp.Router.CacheMatch
import Uvhttp.Router.CacheQuery
import Uvhttp.Router.RecordedLookup

namespace uvhttp.match_agreement

open http (Method)
open ordered_trie
open router (ArrayTable Context Reachable Router Target node_handler path_segments static_covers
  uvhttp_method_from_string uvhttp_router_add_fallback_route uvhttp_router_add_route_method
  uvhttp_router_add_static_route uvhttp_router_new)
open router_cache (CacheRouter fast_method_parse find_in_hash_table static_prefix_handler)
open router_match (ParamNames RouteMatch found_handler match_route_node)

variable {H : Type}

/-- `uvhttp_router_match` and `uvhttp_router_find_handler` agree: a handler from one is
the handler from the other, and `NOT_FOUND` is NULL. The outer options are those of
lookups without a defined result. -/
structure Agrees (matched : Option (UvhttpError × RouteMatch H)) (found : Option (Option (Target H))) : Prop where
  handler : ∀ target, (∃ m, matched = some (.OK, m) ∧ m.handler = some target) ↔ found = some (some target)
  not_found : (∃ m, matched = some (.NOT_FOUND, m)) ↔ found = some none

theorem agrees_ok {m : RouteMatch H} {target : Target H} (h : m.handler = some target)
    {found : Option (Option (Target H))} : Agrees (some (.OK, m)) found ↔ found = some (some target) := by
  constructor
  · intro hagrees
    exact (hagrees.handler target).mp ⟨m, rfl, h⟩
  · rintro rfl
    refine ⟨fun other => ⟨?_, ?_⟩, ⟨?_, nofun⟩⟩
    · rintro ⟨_, ⟨⟩, hother⟩
      rw [← hother, h]
    · rintro ⟨⟩
      exact ⟨m, rfl, h⟩
    · rintro ⟨_, ⟨⟩⟩

theorem agrees_not_found {m : RouteMatch H} {found : Option (Option (Target H))} :
    Agrees (some (.NOT_FOUND, m)) found ↔ found = some none := by
  constructor
  · intro hagrees
    exact hagrees.not_found.mp ⟨m, rfl⟩
  · rintro rfl
    refine ⟨fun target => ⟨?_, nofun⟩, fun _ => rfl, fun _ => ⟨m, rfl⟩⟩
    rintro ⟨_, ⟨⟩, -⟩

theorem agrees_undefined {found : Option (Option (Target H))} : Agrees none found ↔ found = none := by
  constructor
  · intro hagrees
    rcases found with _ | _ | target
    · rfl
    · obtain ⟨_, ⟨⟩⟩ := hagrees.not_found.mpr rfl
    · obtain ⟨_, ⟨⟩, -⟩ := (hagrees.handler target).mpr rfl
  · rintro rfl
    refine ⟨fun target => ⟨?_, nofun⟩, ?_, nofun⟩
    · rintro ⟨_, ⟨⟩, -⟩
    · rintro ⟨_, ⟨⟩⟩

theorem Agrees.unique {matched : Option (UvhttpError × RouteMatch H)} {found found' : Option (Option (Target H))}
    (h : Agrees matched found) (h' : Agrees matched found') : found = found' := by
  rcases found with _ | _ | target
  · rcases found' with _ | _ | target
    · rfl
    · exact absurd (h.not_found.mp (h'.not_found.mpr rfl)) nofun
    · exact absurd ((h.handler target).mp ((h'.handler target).mpr rfl)) nofun
  · exact (h'.not_found.mp (h.not_found.mpr rfl)).symm
  · exact ((h'.handler target).mp ((h.handler target).mpr rfl)).symm

section order

variable (covered : Bool) (route : Option (Option (Target H)))

/-- The order of a lookup: the static prefix, the routes, the fallback. -/
def lookup (fallback_context : Option Context) : Option (Option (Target H)) :=
  if covered then some (some .static_file_handler_wrapper)
  else
    match route with
    | none => none
    | some (some target) => some (some target)
    | some none => some (if fallback_context.isSome then some .static_file_handler_wrapper else none)

/-- A match by the static prefix in array mode only, and by the routes. -/
structure MatchedInOrder (array_mode : Bool) (matched : Option (UvhttpError × RouteMatch H)) : Prop where
  static : covered = true → array_mode = true →
    ∃ m, matched = some (.OK, m) ∧ m.handler = some .static_file_handler_wrapper
  routes : (covered && array_mode) = false → Agrees matched route

variable {covered route} {array_mode : Bool} {matched : Option (UvhttpError × RouteMatch H)}

theorem lookup_no_fallback (h : covered = false) : lookup covered route none = route := by
  subst h
  rcases route with _ | _ | target
  · rfl
  · rfl
  · rfl

/-- A match agrees with the lookup that has the same static prefix and no fallback. -/
theorem MatchedInOrder.agrees (h : MatchedInOrder covered route array_mode matched) :
    Agrees matched (lookup (covered && array_mode) route none) := by
  cases htakes : covered && array_mode with
  | true =>
    obtain ⟨hcovered, harray⟩ := Bool.and_eq_true_iff.mp htakes
    obtain ⟨m, rfl, hm⟩ := h.static hcovered harray
    exact (agrees_ok hm).mpr rfl
  | false =>
    rw [lookup_no_fallback rfl]
    exact h.routes htakes

/-- When it agrees with the lookup that has the fallback and always the static prefix. -/
theorem MatchedInOrder.agrees_iff (h : MatchedInOrder covered route array_mode matched)
    (hroute : route ≠ some (some .static_file_handler_wrapper)) (fallback_context : Option Context) :
    Agrees matched (lookup covered route fallback_context) ↔
      (covered = true → array_mode = true) ∧
      (covered = false → route = some none → fallback_context = none) := by
  cases hcovered : covered with
  | true =>
    subst hcovered
    have hlookup : lookup true route fallback_context = some (some .static_file_handler_wrapper) := rfl
    simp only [forall_true_left, reduceCtorEq, false_implies, and_true]
    rw [hlookup]
    cases harray : array_mode with
    | true =>
      obtain ⟨m, rfl, hm⟩ := h.static rfl harray
      exact ⟨fun _ => rfl, fun _ => (agrees_ok hm).mpr rfl⟩
    | false =>
      refine ⟨fun hagrees => absurd ?_ hroute, nofun⟩
      exact (h.routes (by rw [harray]; rfl)).unique hagrees
  | false =>
    subst hcovered
    have hroutes : Agrees matched route := h.routes rfl
    simp only [reduceCtorEq, false_implies, true_and, forall_true_left]
    constructor
    · rintro hagrees rfl
      have hsame := hroutes.unique hagrees
      cases fallback_context with
      | none => rfl
      | some context => cases hsame
    · intro hfallback
      have hlookup : lookup false route fallback_context = route := by
        rcases route with _ | _ | target
        · rfl
        · rw [hfallback rfl]
          rfl
        · rfl
      rw [hlookup]
      exact hroutes

end order

section trie_router

variable {names : ParamNames} {router : Router H} {path method : List UInt8}

theorem find_route_not_static :
    router_match.find_route names router path method ≠ some (some .static_file_handler_wrapper) := by
  intro hfound
  obtain ⟨handler, hhandler⟩ := router_match.found_route_handler hfound
  cases hhandler

/-- In trie mode there is no route array left. -/
theorem trie_mode_array (h : Reachable router) (hmode : router.use_trie = true) : router.array_routes = .routes [] := by
  have hadd : ∀ {alloc : Nat → Bool} {router router' : Router H} {path : List UInt8} {method : Method}
      {handler : Option H} {err : UvhttpError}, (router.use_trie = true → router.array_routes = .routes []) →
      uvhttp.router.uvhttp_router_add_route_method alloc router path method handler = some (err, router') →
      router'.use_trie = true → router'.array_routes = .routes [] := by
    intro alloc router router' path method handler err hkept hadd hmode
    generalize hresult : (err, router') = result at hadd
    cases uvhttp.router.registered_of_call hadd with
    | rejected hinvalid =>
      cases hresult
      exact hkept hmode
    | trie hvalid hused =>
      cases hresult
      exact hkept hmode
    | stranded hvalid hunused =>
      cases hresult
      exact absurd (hunused.symm.trans hmode) Bool.false_ne_true
    | migrated hvalid hunused =>
      cases hresult
      rfl
    | array hvalid hunused =>
      cases hresult
      exact absurd (hunused.symm.trans hmode) Bool.false_ne_true
  induction h with
  | new => exact absurd hmode Bool.false_ne_true
  | add_route_method alloc path method handler _ hcall ih => exact hadd ih hcall hmode
  | @add_static_route router alloc prefix_path static_context _ ih =>
    cases static_context with
    | none => exact ih hmode
    | some context =>
      rw [uvhttp.router.uvhttp_router_add_static_route] at hmode ⊢
      split at hmode
      · rename_i hrefused
        rw [if_pos hrefused]
        exact ih hmode
      · rename_i hgranted
        rw [if_neg hgranted]
        exact ih hmode
  | add_fallback_route static_context _ ih =>
    cases static_context with
    | none => exact ih hmode
    | some context => exact ih hmode
  | @add_binary_route router _ _ alloc binary_route_handler path mime_type _ hcall ih =>
    have hcontext : ({ router with static_context := some (.mime_type mime_type) } : Router H).use_trie = true →
        ({ router with static_context := some (.mime_type mime_type) } : Router H).array_routes = .routes [] := ih
    rw [uvhttp.router.uvhttp_router_add_binary_route, uvhttp.router.uvhttp_router_add_route] at hcall
    exact hadd hcontext hcall hmode

theorem agrees_find_route (h : Reachable router)
    (huncovered : (static_covers router path && !router.use_trie) = false) :
    Agrees (router_match.uvhttp_router_match names router path method)
      (router_match.find_route names router path method) := by
  rw [router_match.uvhttp_router_match, router_match.find_route]
  cases hmode : router.use_trie with
  | false =>
    have hcovers : static_covers router path = false := by simpa [hmode] using huncovered
    rw [hcovers]
    cases router.array_routes with
    | released => exact agrees_undefined.mpr rfl
    | routes entries =>
      simp only [Bool.not_false, if_true, Bool.false_eq_true, if_false]
      cases uvhttp.router.find_array_route entries path (uvhttp_method_from_string method) with
      | none => exact agrees_not_found.mpr rfl
      | some handler => exact (agrees_ok rfl).mpr rfl
  | true =>
    have hfast : router_match.fast_find router path method = some none := by
      rw [router_match.fast_find, trie_mode_array h hmode]
      split
      · rfl
      · rfl
    simp only [hfast, Bool.not_true, Bool.false_eq_true, if_false, if_true]
    rcases hmatch : match_route_node names router.trie (path_segments path) (uvhttp_method_from_string method) .zero
      with _ | ⟨_ | _, m⟩
    · exact agrees_undefined.mpr rfl
    · exact agrees_not_found.mpr rfl
    · obtain ⟨handler, hhandler⟩ := found_handler hmatch
      exact (agrees_ok hhandler).mpr (congrArg some hhandler)

theorem matched_in_order (h : Reachable router) :
    MatchedInOrder (static_covers router path) (router_match.find_route names router path method) (!router.use_trie)
      (router_match.uvhttp_router_match names router path method) where
  static hcovers harray := by
    refine ⟨RouteMatch.zero.set_handler .static_file_handler_wrapper, ?_, rfl⟩
    rw [router_match.uvhttp_router_match, harray, hcovers]
    rfl
  routes := agrees_find_route h

theorem find_handler_eq_lookup :
    router_match.uvhttp_router_find_handler names router path method =
      lookup (static_covers router path) (router_match.find_route names router path method)
        router.fallback_context := by
  rfl

end trie_router

section cache_router

variable {route_hash : List UInt8 → UInt32} {cr : CacheRouter H} {path method : List UInt8}

/-- The routes of the hash table router. -/
def cache_route (route_hash : List UInt8 → UInt32) (cr : CacheRouter H) (path method : List UInt8) :
    Option (Target H) :=
  (find_in_hash_table route_hash cr.hash_table path (fast_method_parse method)).map .handler

theorem cache_find_handler_eq_lookup :
    some (router_cache.uvhttp_router_find_handler route_hash cr path method) =
      lookup (static_prefix_handler cr path) (some (cache_route route_hash cr path method)) cr.fallback_context := by
  rw [router_cache.uvhttp_router_find_handler, cache_route]
  cases static_prefix_handler cr path with
  | true => rfl
  | false =>
    cases find_in_hash_table route_hash cr.hash_table path (fast_method_parse method) with
    | none => rfl
    | some handler => rfl

theorem cache_route_not_static :
    some (cache_route route_hash cr path method) ≠ some (some .static_file_handler_wrapper) := by
  rw [cache_route]
  cases find_in_hash_table route_hash cr.hash_table path (fast_method_parse method) with
  | none => exact nofun
  | some handler => exact nofun

theorem cache_matched_in_order (m : RouteMatch H) :
    MatchedInOrder (static_prefix_handler cr path) (some (cache_route route_hash cr path method)) (!cr.use_trie)
      (some (cache_match.uvhttp_router_match route_hash cr path method m)) where
  static hcovers harray := by
    refine ⟨{ m with handler := some .static_file_handler_wrapper, param_count := 0 }, ?_, rfl⟩
    rw [cache_match.uvhttp_router_match, harray, hcovers]
    rfl
  routes huncovered := by
    rw [Bool.and_comm] at huncovered
    rw [cache_match.uvhttp_router_match, huncovered, if_neg Bool.false_ne_true, cache_route,
      cache_match.find_in_hash_table_eq_entry]
    cases cache_match.find_in_hash_table_ex route_hash cr.hash_table path (fast_method_parse method) with
    | none => exact agrees_not_found.mpr rfl
    | some entry => exact (agrees_ok (cache_match.extract_params_handler _ _ _)).mpr rfl

end cache_router

/-- The services of a router that `uvhttp_router_match` knows of: no fallback, and the
static prefix in array mode. -/
def matched_services (router : Router H) : Router H :=
  { router with static_prefix := if router.use_trie then none else router.static_prefix, fallback_context := none }

def matched_cache_services (cr : CacheRouter H) : CacheRouter H :=
  { cr with static_prefix := if cr.use_trie then none else cr.static_prefix, fallback_context := none }

theorem matched_services_covers (router : Router H) (path : List UInt8) :
    static_covers (matched_services router) path = (static_covers router path && !router.use_trie) := by
  cases hmode : router.use_trie with
  | true =>
    simp [matched_services, static_covers, hmode]
  | false =>
    simp [matched_services, static_covers, hmode]

theorem matched_cache_services_covers (cr : CacheRouter H) (path : List UInt8) :
    static_prefix_handler (matched_cache_services cr) path = (static_prefix_handler cr path && !cr.use_trie) := by
  cases hmode : cr.use_trie with
  | true =>
    simp [matched_cache_services, static_prefix_handler, hmode]
  | false =>
    simp [matched_cache_services, static_prefix_handler, hmode]

/-- `uvhttp_router_match` is `uvhttp_router_find_handler` without the fallback and, in
trie mode, without the static prefix; and when that makes no difference. -/
theorem match_agrees (names : ParamNames) (route_hash : List UInt8 → UInt32) :
    (∀ {router : Router H}, Reachable router → ∀ path method,
      Agrees (router_match.uvhttp_router_match names router path method)
        (router_match.uvhttp_router_find_handler names (matched_services router) path method) ∧
      (Agrees (router_match.uvhttp_router_match names router path method)
          (router_match.uvhttp_router_find_handler names router path method) ↔
        (static_covers router path = true → router.use_trie = false) ∧
        (static_covers router path = false → router_match.find_route names router path method = some none →
          router.fallback_context = none))) ∧
    (∀ (cr : CacheRouter H) (m : RouteMatch H) path method,
      Agrees (some (cache_match.uvhttp_router_match route_hash cr path method m))
        (some (router_cache.uvhttp_router_find_handler route_hash (matched_cache_services cr) path method)) ∧
      (Agrees (some (cache_match.uvhttp_router_match route_hash cr path method m))
          (some (router_cache.uvhttp_router_find_handler route_hash cr path method)) ↔
        (static_prefix_handler cr path = true → cr.use_trie = false) ∧
        (static_prefix_handler cr path = false →
          find_in_hash_table route_hash cr.hash_table path (fast_method_parse method) = none →
          cr.fallback_context = none))) := by
  constructor
  · intro router hreachable path method
    have horder := @matched_in_order H names router path method hreachable
    refine ⟨?_, ?_⟩
    · rw [find_handler_eq_lookup, matched_services_covers]
      exact horder.agrees
    · rw [find_handler_eq_lookup]
      refine (horder.agrees_iff find_route_not_static router.fallback_context).trans ?_
      rw [Bool.not_eq_true']
  · intro cr m path method
    have horder := @cache_matched_in_order H route_hash cr path method m
    refine ⟨?_, ?_⟩
    · rw [cache_find_handler_eq_lookup, matched_cache_services_covers]
      exact horder.agrees
    · rw [cache_find_handler_eq_lookup]
      refine (horder.agrees_iff cache_route_not_static cr.fallback_context).trans ?_
      rw [Bool.not_eq_true', cache_route]
      simp

/-- Services for the paths under `/s`, and for those without a route. -/
def services (router : Router Nat) : Router Nat :=
  (uvhttp_router_add_fallback_route
    (uvhttp_router_add_static_route (fun _ => true) router (bytes "/s") (some (.static_files 1))).2
    (some (.static_files 2))).2

def cache_services (cr : CacheRouter Nat) : CacheRouter Nat :=
  (router_cache.uvhttp_router_add_fallback_route
    (router_cache.uvhttp_router_add_static_route (fun _ => true) cr (bytes "/s") (some (.static_files 1))).2
    (some (.static_files 2))).2

/-- Routers with these services and a route with a parameter: a path under the prefix, one
of the route, and one that only the fallback serves. -/
theorem match_agrees_services :
    (∃ router router', uvhttp_router_add_route_method (fun _ => true) uvhttp_router_new (bytes "/users/:id") .GET
        (some 7) = some (.OK, router) ∧ router' = services router ∧ router'.use_trie = true ∧
      Agrees (router_match.uvhttp_router_match (fun _ => []) router' (bytes "/s/a") (bytes "GET"))
        (router_match.uvhttp_router_find_handler (fun _ => []) (matched_services router') (bytes "/s/a")
          (bytes "GET")) ∧
      ¬Agrees (router_match.uvhttp_router_match (fun _ => []) router' (bytes "/s/a") (bytes "GET"))
        (router_match.uvhttp_router_find_handler (fun _ => []) router' (bytes "/s/a") (bytes "GET")) ∧
      Agrees (router_match.uvhttp_router_match (fun _ => []) router' (bytes "/users/3") (bytes "GET"))
        (router_match.uvhttp_router_find_handler (fun _ => []) router' (bytes "/users/3") (bytes "GET")) ∧
      ¬Agrees (router_match.uvhttp_router_match (fun _ => []) router' (bytes "/a") (bytes "GET"))
        (router_match.uvhttp_router_find_handler (fun _ => []) router' (bytes "/a") (bytes "GET"))) ∧
    ∃ cr cr', router_cache.uvhttp_router_add_route_method (fun _ => 0) (fun _ => true) router_cache.uvhttp_router_new
        (bytes "/users/:id") .GET (some 7) = some (.OK, cr) ∧ cr' = cache_services cr ∧ cr'.use_trie = true ∧
      Agrees (some (cache_match.uvhttp_router_match (fun _ => 0) cr' (bytes "/s/a") (bytes "GET") .zero))
        (some (router_cache.uvhttp_router_find_handler (fun _ => 0) (matched_cache_services cr') (bytes "/s/a")
          (bytes "GET"))) ∧
      ¬Agrees (some (cache_match.uvhttp_router_match (fun _ => 0) cr' (bytes "/s/a") (bytes "GET") .zero))
        (some (router_cache.uvhttp_router_find_handler (fun _ => 0) cr' (bytes "/s/a") (bytes "GET"))) ∧
      Agrees (some (cache_match.uvhttp_router_match (fun _ => 0) cr' (bytes "/users/3") (bytes "GET") .zero))
        (some (router_cache.uvhttp_router_find_handler (fun _ => 0) cr' (bytes "/users/3") (bytes "GET"))) ∧
      ¬Agrees (some (cache_match.uvhttp_router_match (fun _ => 0) cr' (bytes "/a") (bytes "GET") .zero))
        (some (router_cache.uvhttp_router_find_handler (fun _ => 0) cr' (bytes "/a") (bytes "GET"))) := by
  have hagrees := @match_agrees Nat (fun _ => []) (fun _ => 0)
  constructor
  · have hadded : ∃ router, uvhttp_router_add_route_method (fun _ => true) uvhttp_router_new (bytes "/users/:id") .GET
        (some 7) = some (.OK, router) := ⟨_, rfl⟩
    obtain ⟨router, hadded⟩ := hadded
    have hreached : Reachable (services router) :=
      .add_fallback_route _ (.add_static_route _ _ _ (.add_route_method _ _ _ _ .new hadded))
    have hserved := hagrees.1 hreached
    cases hadded
    refine ⟨_, _, rfl, rfl, rfl, (hserved _ _).1, ?_, ?_, ?_⟩
    · rw [(hserved _ _).2]
      rintro ⟨hmode, -⟩
      exact absurd (hmode rfl) (by decide)
    · rw [(hserved _ _).2]
      exact ⟨fun hcovers => absurd hcovers (by decide), fun _ hroute => absurd hroute (by decide)⟩
    · rw [(hserved _ _).2]
      rintro ⟨-, hfallback⟩
      cases hfallback rfl rfl
  · have hrun : (router_cache.uvhttp_router_add_route_method (fun _ => 0) (fun _ => true)
        router_cache.uvhttp_router_new (bytes "/users/:id") .GET (some 7)).map (fun added =>
          (added.1, (cache_services added.2).use_trie,
            [bytes "/s/a", bytes "/users/3", bytes "/a"].map fun path =>
              (static_prefix_handler (cache_services added.2) path,
                find_in_hash_table (fun _ => 0) (cache_services added.2).hash_table path
                  (fast_method_parse (bytes "GET"))))) =
        some (.OK, true, [(true, none), (false, some 7), (false, none)]) := by decide +kernel
    obtain ⟨⟨err, cr⟩, hadded, hserves⟩ := Option.map_eq_some_iff.mp hrun
    simp only [List.map_cons, List.map_nil, Prod.mk.injEq, List.cons.injEq, and_true] at hserves
    obtain ⟨rfl, htrie, ⟨hcovered, -⟩, ⟨hfree, hroute⟩, hnowhere, hnone⟩ := hserves
    have hserved := hagrees.2 (cache_services cr) .zero
    refine ⟨cr, _, hadded, rfl, htrie, (hserved _ _).1, ?_, ?_, ?_⟩
    · rw [(hserved _ _).2]
      rintro ⟨hmode, -⟩
      cases (hmode hcovered).symm.trans htrie
    · rw [(hserved _ _).2, hfree, hroute]
      constructor
      · intro hcovers
        cases hcovers
      · intro _ hmissing
        cases hmissing
    · rw [(hserved _ _).2]
      rintro ⟨-, hfallback⟩
      cases hfallback hnowhere hnone

/-- In trie mode a request under the static prefix is not found, and a request that only
the fallback serves is not found either. -/
theorem match_disagrees :
    (∃ router : Router Unit, Reachable router ∧
      ¬Agrees (router_match.uvhttp_router_match (fun _ => []) router (bytes "/s/a") (bytes "GET"))
        (router_match.uvhttp_router_find_handler (fun _ => []) router (bytes "/s/a") (bytes "GET"))) ∧
    (∃ router : Router Unit, Reachable router ∧
      ¬Agrees (router_match.uvhttp_router_match (fun _ => []) router (bytes "/a") (bytes "GET"))
        (router_match.uvhttp_router_find_handler (fun _ => []) router (bytes "/a") (bytes "GET"))) := by
  constructor
  · refine ⟨_, .add_route_method (fun _ => true) (bytes "/:id") .GET (some ())
      (.add_static_route (fun _ => true) (bytes "/s") (some (.static_files 1)) .new) rfl, fun hagrees => ?_⟩
    obtain ⟨_, ⟨⟩, -⟩ := (hagrees.handler .static_file_handler_wrapper).mpr rfl
  · refine ⟨_, .add_fallback_route (some (.static_files 1)) .new, fun hagrees => ?_⟩
    obtain ⟨_, ⟨⟩, -⟩ := (hagrees.handler .static_file_handler_wrapper).mpr rfl

end uvhttp.match_agreement
