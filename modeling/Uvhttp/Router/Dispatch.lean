import Uvhttp.Http.Spans
import Uvhttp.Router.CacheQuery
import Uvhttp.Router.RecordedLookup

namespace uvhttp.dispatch

open http (Method LlhttpMethod HttpParsing MAX_URL_LEN llhttp_method_to_uvhttp read_url)
open router (Router Target Reachable Unnoticed QUESTION_MARK static_covers trie_routes uvhttp_method_to_string)
open router_cache (CacheRouter)
open router_match (ParamNames WithinParams)

variable {H : Type}

/-- What `on_message_complete` does with a request on a server with a router: call
the handler that was found, try the static context of the router (with the handler
of the server behind it), call the handler of the server, or answer 404. -/
inductive Dispatch (H : Type) where
  | found (target : Target H)
  | static_context
  | server_handler
  | not_found
  deriving DecidableEq, Repr

/-- The end of `on_message_complete`. -/
def dispatch_found (static_context server_handler : Bool) : Option (Target H) → Dispatch H
  | some target => .found target
  | none =>
    if static_context then .static_context
    else if server_handler then .server_handler
    else .not_found

/-- What a router does with a request target: the callbacks that set the URL and
complete the message, and the dispatch of each request they lead to. The inner
`none` is a lookup that reads freed memory or writes beyond its match. -/
def dispatch_target (find_handler : List UInt8 → List UInt8 → Option (Option (Target H)))
    (static_context server_handler : Bool) (c : HttpParsing) (method : LlhttpMethod) (target : List UInt8) :
    List (Option (Dispatch H)) :=
  (http.execute (fun _ => true) c [.message_begin, .url target, .message_complete method]).2.map fun seen =>
    (find_handler seen.url (uvhttp_method_to_string seen.method)).map (dispatch_found static_context server_handler)

theorem dispatch_target_eq (find_handler : List UInt8 → List UInt8 → Option (Option (Target H)))
    (static_context server_handler : Bool) (c : HttpParsing) (method : LlhttpMethod) {target : List UInt8}
    (h : target.length < MAX_URL_LEN) :
    dispatch_target find_handler static_context server_handler c method target =
      [(find_handler (read_url target) (uvhttp_method_to_string (llhttp_method_to_uvhttp method))).map
        (dispatch_found static_context server_handler)] := by
  have hseen : (http.execute (fun _ => true) c [.message_begin, .url target, .message_complete method]).2.map
      (fun seen => (seen.url, seen.method)) = [(read_url target, llhttp_method_to_uvhttp method)] := by
    simp only [http.execute, http.callback, http.on_message_begin, http.on_url, if_neg (Nat.not_le.mpr h),
      http.on_message_complete, Bool.false_eq_true, if_false, http.ensure_valid_url, read_url]
    split
    · rfl
    · rfl
  have hmap := congrArg (List.map fun looked : List UInt8 × Method =>
    (find_handler looked.1 (uvhttp_method_to_string looked.2)).map (dispatch_found static_context server_handler)) hseen
  rw [List.map_map] at hmap
  exact hmap

theorem question_mark_mem_read_url {path : List UInt8} (hzero : (0 : UInt8) ∉ path) (query : List UInt8) :
    QUESTION_MARK ∈ read_url (path ++ QUESTION_MARK :: query) := by
  have hquery : cstr (path ++ QUESTION_MARK :: query) = path ++ QUESTION_MARK :: cstr query := by
    rw [cstr, List.takeWhile_append_of_pos, List.takeWhile_cons_of_pos (by decide), cstr]
    intro b hb
    simpa using fun heq : b = 0 => hzero (heq ▸ hb)
  rw [read_url, hquery, if_neg (by simp)]
  simp

/-- A target with a query is looked up with it, or cut off before it. -/
theorem read_url_query (path query : List UInt8) :
    read_url (path ++ QUESTION_MARK :: query) = read_url path ∨
      QUESTION_MARK ∈ read_url (path ++ QUESTION_MARK :: query) := by
  by_cases hzero : (0 : UInt8) ∈ path
  · left
    have hcut : cstr (path ++ QUESTION_MARK :: query) = cstr path := by
      rw [cstr, List.takeWhile_append, if_neg, cstr]
      intro hlength
      have hwhole : path.takeWhile (· != 0) = path := (List.takeWhile_prefix _).eq_of_length hlength
      have hall := List.takeWhile_eq_self_iff.mp hwhole 0 hzero
      simp at hall
    rw [read_url, hcut, read_url]
  · exact .inr (question_mark_mem_read_url hzero query)

theorem dispatch_found_inj {static_context server_handler : Bool} {found found' : Option (Target H)}
    (h : dispatch_found static_context server_handler found = dispatch_found static_context server_handler found') :
    found = found' := by
  have hnone : ∀ target : Target H, dispatch_found static_context server_handler none ≠ .found target := by
    intro target
    unfold dispatch_found
    dsimp only
    split
    · exact nofun
    · split
      · exact nofun
      · exact nofun
  cases found with
  | none =>
    cases found' with
    | none => rfl
    | some target => exact absurd h (hnone target)
  | some target =>
    cases found' with
    | none => exact absurd h.symm (hnone target)
    | some target' => exact congrArg some (Dispatch.found.inj h)

/-- Equal lookups are dispatched alike, and only they. -/
theorem dispatch_target_same_iff (find_handler : List UInt8 → List UInt8 → Option (Option (Target H)))
    (static_context server_handler : Bool) (c : HttpParsing) (method : LlhttpMethod) {target target' : List UInt8}
    (h : target.length < MAX_URL_LEN) (h' : target'.length < MAX_URL_LEN) :
    (∃ d, dispatch_target find_handler static_context server_handler c method target = [some d] ∧
      dispatch_target find_handler static_context server_handler c method target' = [some d]) ↔
    ∃ found,
      find_handler (read_url target) (uvhttp_method_to_string (llhttp_method_to_uvhttp method)) = some found ∧
      find_handler (read_url target') (uvhttp_method_to_string (llhttp_method_to_uvhttp method)) = some found := by
  rw [dispatch_target_eq _ _ _ _ _ h, dispatch_target_eq _ _ _ _ _ h']
  refine ⟨fun ⟨d, hd, hd'⟩ => ?_, fun ⟨found, hfound, hfound'⟩ => ?_⟩
  · obtain ⟨found, hfound, rfl⟩ := Option.map_eq_some_iff.mp (List.singleton_inj.mp hd)
    obtain ⟨found', hfound', hdispatch⟩ := Option.map_eq_some_iff.mp (List.singleton_inj.mp hd')
    exact ⟨found, hfound, by rw [hfound', dispatch_found_inj hdispatch]⟩
  · rw [hfound, hfound']
    exact ⟨_, rfl, rfl⟩

/-- The dispatch of a request target by the array and trie router. -/
def dispatch_routed (names : ParamNames) (router : Router H) (server_handler : Bool) (c : HttpParsing)
    (method : LlhttpMethod) (target : List UInt8) : List (Option (Dispatch H)) :=
  dispatch_target (router_match.uvhttp_router_find_handler names router) router.static_context.isSome server_handler
    c method target

/-- The dispatch of a request target by the hash table router. -/
def dispatch_cached (route_hash : List UInt8 → UInt32) (cr : CacheRouter H) (server_handler : Bool) (c : HttpParsing)
    (method : LlhttpMethod) (target : List UInt8) : List (Option (Dispatch H)) :=
  dispatch_target (fun path method => some (router_cache.uvhttp_router_find_handler route_hash cr path method))
    cr.static_context.isSome server_handler c method target

/-- Where the static prefix leaves two paths to the routes, the match of each lookup has room for the
parameters that the search meets. -/
def BothWithin (router : Router H) (method : Method) (path path' : List UInt8) : Prop :=
  static_covers router path = false → WithinParams router method path ∧ WithinParams router method path'

/-- Two lookups with their matches that return the same. -/
theorem same_found_iff (names : ParamNames) {router : Router H} {method : Method} {path path' : List UInt8}
    (hstatic : static_covers router path' = static_covers router path) :
    (∃ found, router_match.uvhttp_router_find_handler names router path (uvhttp_method_to_string method) = some found ∧
      router_match.uvhttp_router_find_handler names router path' (uvhttp_method_to_string method) = some found) ↔
    (∃ found,
      uvhttp.router.uvhttp_router_find_handler router path (uvhttp_method_to_string method) = some found ∧
      uvhttp.router.uvhttp_router_find_handler router path' (uvhttp_method_to_string method) = some found) ∧
      BothWithin router method path path' := by
  simp only [router_match.find_handler_iff, uvhttp.router.uvhttp_method_from_to_string, hstatic, BothWithin]
  constructor
  · rintro ⟨found, ⟨hfound, hwithin⟩, hfound', hwithin'⟩
    exact ⟨⟨found, hfound, hfound'⟩, fun hcovers => ⟨hwithin hcovers, hwithin' hcovers⟩⟩
  · rintro ⟨⟨found, hfound, hfound'⟩, hboth⟩
    exact ⟨found, ⟨hfound, fun hcovers => (hboth hcovers).1⟩, hfound', fun hcovers => (hboth hcovers).2⟩

/-- Query strings that do not change routing. For both routers, in every state
that registrations lead to, a target is dispatched with a query as it is without
it if nothing in the router tells the two apart and neither search meets more
parameters than a match holds. The array and trie router does so only then, if its
static prefix takes both targets or neither and no two routes of its trie share a
handler. -/
theorem query_ignored (names : ParamNames) {path query : List UInt8}
    (hlength : (path ++ QUESTION_MARK :: query).length < MAX_URL_LEN) (server_handler : Bool) (c : HttpParsing)
    (method : LlhttpMethod) :
    (∀ router : Router H, Reachable router →
      Unnoticed router (llhttp_method_to_uvhttp method) (read_url path)
        (read_url (path ++ QUESTION_MARK :: query)) →
      BothWithin router (llhttp_method_to_uvhttp method) (read_url path)
        (read_url (path ++ QUESTION_MARK :: query)) →
      ∃ d, dispatch_routed names router server_handler c method path = [some d] ∧
        dispatch_routed names router server_handler c method (path ++ QUESTION_MARK :: query) = [some d]) ∧
    (∀ (route_hash : List UInt8 → UInt32) (cr : CacheRouter H), router_cache.Reachable route_hash cr →
      router_cache.Unnoticed cr (llhttp_method_to_uvhttp method) (read_url path)
        (read_url (path ++ QUESTION_MARK :: query)) →
      ∃ d, dispatch_cached route_hash cr server_handler c method path = [some d] ∧
        dispatch_cached route_hash cr server_handler c method (path ++ QUESTION_MARK :: query) = [some d]) ∧
    ∀ router : Router H, Reachable router → (0 : UInt8) ∉ path →
      static_covers router (read_url (path ++ QUESTION_MARK :: query)) =
        static_covers router (read_url path) →
      ((trie_routes router.trie).map fun e => e.2.2).Nodup →
      (∃ d, dispatch_routed names router server_handler c method path = [some d] ∧
        dispatch_routed names router server_handler c method (path ++ QUESTION_MARK :: query) = [some d]) →
      Unnoticed router (llhttp_method_to_uvhttp method) (read_url path)
        (read_url (path ++ QUESTION_MARK :: query)) ∧
      BothWithin router (llhttp_method_to_uvhttp method) (read_url path)
        (read_url (path ++ QUESTION_MARK :: query)) := by
  have hshorter : path.length < MAX_URL_LEN := by
    rw [List.length_append] at hlength
    exact (Nat.le_add_right _ _).trans_lt hlength
  have hquery := read_url_query path query
  refine ⟨fun router hreachable hunnoticed hwithin => ?_, fun route_hash cr hreachable hunnoticed => ?_,
    fun router hreachable hzero hstatic hdistinct hsame => ?_⟩
  · rw [dispatch_routed, dispatch_routed, dispatch_target_same_iff _ _ _ _ _ hshorter hlength,
      same_found_iff names hunnoticed.static]
    exact ⟨uvhttp.router.find_handler_unnoticed hreachable hquery hunnoticed, hwithin⟩
  · rw [dispatch_cached, dispatch_cached, dispatch_target_same_iff _ _ _ _ _ hshorter hlength]
    exact ⟨_, rfl, congrArg some (router_cache.find_handler_unnoticed hreachable hquery hunnoticed)⟩
  · rw [dispatch_routed, dispatch_routed, dispatch_target_same_iff _ _ _ _ _ hshorter hlength,
      same_found_iff names hstatic] at hsame
    obtain ⟨⟨found, hfound, hfound'⟩, hwithin⟩ := hsame
    exact ⟨uvhttp.router.unnoticed_of_find_handler hreachable (question_mark_mem_read_url hzero query) hstatic hdistinct
      hfound hfound', hwithin⟩

/-- A route that ends with a parameter takes the query for a part of its value, in
both routers. -/
theorem query_ignored_parameter :
    let router : Router Nat := { uvhttp.router.uvhttp_router_new with
      use_trie := true
      trie := ⟨none, .cons ⟨bytes "users", false⟩ none (.cons ⟨bytes "id", true⟩ (some (.GET, 1)) .nil .nil) .nil,
        ⟨3, 64⟩⟩ }
    let cr : CacheRouter Nat :=
      ⟨⟨(List.replicate 256 none).set 5 (some ⟨bytes "/users/:id", .GET, 1⟩), 1, 192⟩, true, 0, none, none, none⟩
    (uvhttp.router.uvhttp_router_add_route_method (fun _ => true) uvhttp.router.uvhttp_router_new (bytes "/users/:id")
      .GET (some 1) = some (.OK, router) ∧
    ∃ d, dispatch_routed (fun _ => []) router false http.parsing_new .HTTP_GET (bytes "/users/7") = [some d] ∧
      dispatch_routed (fun _ => []) router false http.parsing_new .HTTP_GET
        (bytes "/users/7" ++ QUESTION_MARK :: bytes "x=1") = [some d]) ∧
    router_cache.uvhttp_router_add_route_method (fun _ => 5) (fun _ => true) router_cache.uvhttp_router_new
      (bytes "/users/:id") .GET (some 1) = some (.OK, cr) ∧
    ∃ d, dispatch_cached (fun _ => 5) cr false http.parsing_new .HTTP_GET (bytes "/users/7") = [some d] ∧
      dispatch_cached (fun _ => 5) cr false http.parsing_new .HTTP_GET
        (bytes "/users/7" ++ QUESTION_MARK :: bytes "x=1") = [some d] := by
  intro router cr
  have hignored := @query_ignored Nat (fun _ => []) (bytes "/users/7") (bytes "x=1") (by decide) false
    http.parsing_new .HTTP_GET
  have hadd : uvhttp.router.uvhttp_router_add_route_method (fun _ => true) uvhttp.router.uvhttp_router_new
      (bytes "/users/:id") .GET (some 1) = some (.OK, router) := rfl
  have hcached : router_cache.uvhttp_router_add_route_method (fun _ => 5) (fun _ => true)
      router_cache.uvhttp_router_new (bytes "/users/:id") .GET (some 1) = some (.OK, cr) := by
    decide +kernel
  have hopen : uvhttp.router.OpenAlike router.trie .GET (bytes "/users/7") (bytes "/users/7?x=1") := by
    unfold uvhttp.router.OpenAlike
    decide
  have hwithin : BothWithin router .GET (bytes "/users/7") (bytes "/users/7?x=1") := fun _ => by decide +kernel
  have hmatch : router_cache.MatchAlike cr.hash_table.entries .GET (bytes "/users/7") (bytes "/users/7?x=1") := by
    unfold router_cache.MatchAlike
    decide +kernel
  refine ⟨⟨hadd, hignored.1 router (.add_route_method _ _ _ _ .new hadd) ⟨rfl, nofun, fun _ _ => hopen⟩ hwithin⟩, hcached,
    hignored.2.1 _ cr (.add_route_method _ _ _ _ .new hcached) ⟨rfl, fun _ entry hentry _ => ?_, fun _ => hmatch⟩⟩
  rcases List.mem_or_eq_of_mem_set hentry with hfree | hstored
  · cases List.eq_of_mem_replicate hfree
  · rw [Option.some.inj hstored]
    decide

/-- A route without parameters is not found when a query follows its path. -/
theorem query_noticed :
    let router : Router Nat := { uvhttp.router.uvhttp_router_new with array_routes := .routes [⟨bytes "/a", .GET, 1⟩] }
    uvhttp.router.uvhttp_router_add_route_method (fun _ => true) uvhttp.router.uvhttp_router_new (bytes "/a") .GET
      (some 1) = some (.OK, router) ∧
    dispatch_routed (fun _ => []) router false http.parsing_new .HTTP_GET (bytes "/a") =
      [some (.found (.handler 1))] ∧
    dispatch_routed (fun _ => []) router false http.parsing_new .HTTP_GET
      (bytes "/a" ++ QUESTION_MARK :: bytes "x=1") = [some .not_found] := by
  intro router
  exact ⟨rfl, by decide, by decide⟩

end uvhttp.dispatch
