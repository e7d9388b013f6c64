import Uvhttp.Router.CacheStability
import Uvhttp.Router.Migration

namespace uvhttp

open http (Method)

variable {H : Type}

namespace router

open ordered_trie

section spelling

/-- A path with given segments, each followed by a slash. -/
def spell (segments : List (List UInt8)) : List UInt8 := segments.flatMap fun segment => segment ++ [SLASH]

theorem split_slash_segment {segment : List UInt8} (h : SLASH ∉ segment) (rest : List UInt8) :
    split_slash (segment ++ SLASH :: rest) = segment :: split_slash rest := by
  induction segment with
  | nil => rfl
  | cons c segment ih =>
    rw [List.mem_cons, not_or] at h
    rw [List.cons_append, split_slash, if_neg (Ne.symm h.1), ih h.2]

theorem strtok_spell {segments : List (List UInt8)} (h : ∀ s ∈ segments, s ≠ [] ∧ SLASH ∉ s) :
    strtok (spell segments) = segments := by
  induction segments with
  | nil => rfl
  | cons s segments ih =>
    obtain ⟨hs, hrest⟩ := List.forall_mem_cons.mp h
    have hspell : spell (s :: segments) = s ++ SLASH :: spell segments := by simp [spell]
    rw [hspell, strtok, split_slash_segment hs.2, List.filter_cons_of_pos (by simpa using hs.1)]
    exact congrArg (s :: ·) (ih hrest)

/-- The characters of a path are those of its pieces, with a slash between them. -/
theorem sum_split_slash (path : List UInt8) :
    ((split_slash path).map fun piece => piece.length + 1).sum = path.length + 1 := by
  induction path with
  | nil => rfl
  | cons c rest ih =>
    rw [split_slash]
    split
    · rw [List.map_cons, List.sum_cons, ih, List.length_cons, List.length_nil]
      omega
    · obtain ⟨piece, pieces, hpieces⟩ := List.exists_cons_of_ne_nil (split_slash_ne_nil rest)
      rw [hpieces] at ih ⊢
      rw [List.map_cons, List.sum_cons] at ih ⊢
      rw [List.length_cons, List.length_cons]
      omega

theorem length_spell (segments : List (List UInt8)) :
    (spell segments).length = (segments.map fun s => s.length + 1).sum := by
  rw [spell, List.length_flatMap]
  simp

theorem stored_label_name_length (label : Label (List UInt8)) :
    (stored_label label).name.length ≤ label.name.length := by
  unfold stored_label
  split
  · exact le_rfl
  · rw [List.length_take]
    exact Nat.min_le_right _ _

theorem stored_segments_eq {path : List UInt8} (hfree : COLON ∉ path) :
    stored_segments path = (path_segments path).map fun s => (stored_label ⟨s, false⟩).name := by
  rw [stored_segments, route_labels_free hfree, List.map_map]
  rfl

theorem length_spell_stored {path : List UInt8} (hfree : COLON ∉ path) :
    (spell (stored_segments path)).length ≤ path.length + 1 := by
  rw [length_spell, stored_segments_eq hfree, List.map_map]
  calc ((path_segments path).map ((fun s : List UInt8 => s.length + 1) ∘
        fun s => (stored_label ⟨s, false⟩).name)).sum
      ≤ ((path_segments path).map fun s => s.length + 1).sum := by
        apply List.sum_le_sum
        intro s _
        exact Nat.succ_le_succ (stored_label_name_length ⟨s, false⟩)
    _ ≤ ((split_slash (path_copy path)).map fun s => s.length + 1).sum :=
        (List.Sublist.map _ (List.filter_sublist)).sum_le_sum fun _ _ => Nat.zero_le _
    _ = (path_copy path).length + 1 := sum_split_slash _
    _ ≤ path.length + 1 := by
        rw [path_copy, List.length_take]
        exact Nat.succ_le_succ (Nat.min_le_right _ _)

theorem mem_stored_segments {path segment : List UInt8} (hfree : COLON ∉ path) (h : segment ∈ stored_segments path) :
    segment ≠ [] ∧ SLASH ∉ segment := by
  rw [stored_segments_eq hfree] at h
  obtain ⟨s, hs, rfl⟩ := List.mem_map.mp h
  obtain ⟨hne, hchars⟩ := mem_path_segments hs
  have hslash : SLASH ∉ s := fun hmem => (hchars SLASH hmem).2 rfl
  unfold stored_label
  split
  · exact ⟨hne, hslash⟩
  · refine ⟨fun hnil => ?_, fun hmem => hslash (List.mem_of_mem_take hmem)⟩
    obtain hlength | hnil := List.take_eq_nil_iff.mp hnil
    · cases hlength
    · exact hne hnil

theorem path_segments_spell {segments : List (List UInt8)} (hne : segments ≠ [])
    (h : ∀ s ∈ segments, s ≠ [] ∧ SLASH ∉ s) (hlength : (spell segments).length ≤ MAX_ROUTE_PATH_LEN) (k : Nat) :
    path_segments (spell segments ++ List.replicate k SLASH) = segments := by
  obtain hnil | ⟨init, last, hsplit⟩ := List.eq_nil_or_concat' segments
  · exact absurd hnil hne
  have hbody : spell segments = (spell init ++ last) ++ List.replicate 1 SLASH := by
    rw [hsplit]
    simp [spell]
  have hshort : (spell init ++ last).length < MAX_ROUTE_PATH_LEN := by
    rw [hbody, List.length_append, List.length_replicate] at hlength
    exact hlength
  have hcopy : path_copy (spell init ++ last) = spell init ++ last :=
    List.take_of_length_le (Nat.le_sub_one_of_lt hshort)
  have htokens := strtok_spell h
  rw [hbody, strtok_append_slashes] at htokens
  rw [hbody, List.append_assoc, ← List.replicate_add, path_segments_append_slashes hshort, path_segments, hcopy]
  exact htokens

/-- A path that is no route and does not start with a slash, and that the trie takes
for a given route. -/
theorem exists_nickname {path : List UInt8} (hlength : path.length < MAX_ROUTE_PATH_LEN) (hfree : COLON ∉ path) :
    ∃ nickname : List UInt8, path_segments nickname = stored_segments path ∧ nickname.head? ≠ some SLASH ∧
      (nickname = [] ∨ MAX_ROUTE_PATH_LEN ≤ nickname.length) := by
  have hsegments : ∀ s ∈ stored_segments path, s ≠ [] ∧ SLASH ∉ s := fun s hs => mem_stored_segments hfree hs
  have hspell : (spell (stored_segments path)).length ≤ MAX_ROUTE_PATH_LEN :=
    (length_spell_stored hfree).trans (Nat.succ_le_of_lt hlength)
  cases hstored : stored_segments path with
  | nil => exact ⟨[], rfl, nofun, .inl rfl⟩
  | cons first rest =>
    rw [hstored] at hsegments hspell
    refine ⟨spell (first :: rest) ++ List.replicate MAX_ROUTE_PATH_LEN SLASH, ?_, ?_, .inr ?_⟩
    · exact path_segments_spell (List.cons_ne_nil _ _) hsegments hspell _
    · obtain ⟨hne, hslash⟩ := hsegments first List.mem_cons_self
      obtain ⟨c, tail, rfl⟩ := List.exists_cons_of_ne_nil hne
      intro hhead
      apply hslash
      rw [← Option.some.inj hhead]
      exact List.mem_cons_self
    · rw [List.length_append, List.length_replicate]
      exact Nat.le_add_left _ _

end spelling

section modes

/-- A router after successful registrations of routes without parameters: all of
them in the array in their order, or a trie in which one of them is found. -/
inductive Routed (rs : List (ArrayRoute H)) (router : Router H) : Prop where
  | array (hfew : rs.length ≤ HYBRID_THRESHOLD) (hmode : router.use_trie = false)
      (hroutes : router.array_routes = .routes rs) (hliteral : router.trie.children.All Literal)
  | trie (hmany : HYBRID_THRESHOLD < rs.length) (hmode : router.use_trie = true)
      (hliteral : router.trie.children.All Literal) (r : ArrayRoute H) (hr : r ∈ rs)
      (hfound : (match_route_node router.trie (stored_segments r.path) r.method).isSome = true)

theorem routed_add_trie {alloc : Nat → Bool} {rs : List (ArrayRoute H)} {router router' : Router H} {r : ArrayRoute H}
    (hmany : HYBRID_THRESHOLD < (rs ++ [r]).length) (hmode : router.use_trie = true)
    (hliteral : router.trie.children.All Literal) (hfree : COLON ∉ r.path)
    (hadd : add_trie_route alloc router r.path r.method r.handler = (.OK, router')) :
    Routed (rs ++ [r]) router' := by
  obtain ⟨herr, rfl⟩ := Prod.mk.inj hadd
  have hroom : (add_to_trie alloc (r.method, r.handler) router.trie r.path).2 = true := by
    by_contra hfull
    rw [if_neg hfull] at herr
    cases herr
  exact .trie hmany hmode (literal_add hliteral hfree hroom) r (by simp) (match_route_node_stored hliteral hroom)

theorem routed_add {alloc : Nat → Bool} {rs : List (ArrayRoute H)} {router router' : Router H} {r : ArrayRoute H}
    (h : Routed rs router) (hfree : ∀ q ∈ rs ++ [r], COLON ∉ q.path)
    (hadd : uvhttp_router_add_route_method alloc router r.path r.method (some r.handler) = some (.OK, router')) :
    ValidRoute r ∧ Routed (rs ++ [r]) router' := by
  have hr : COLON ∉ r.path := hfree r (by simp)
  generalize hresult : (UvhttpError.OK, router') = result at hadd
  cases registered_of_call hadd with
  | rejected hinvalid => cases hresult
  | stranded hvalid hmode harray hmigrates hfull => cases hresult
  | trie hvalid hused =>
    refine ⟨hvalid.route, ?_⟩
    cases h with
    | array hfew hmode hroutes hliteral =>
      rw [hmode] at hused
      cases hused
    | trie hmany hmode hliteral q hq hfound =>
      refine routed_add_trie ?_ hmode hliteral hr hresult.symm
      rw [List.length_append]
      exact Nat.lt_add_right _ hmany
  | @migrated _ hvalid hunused entries harray hmigrates hroom =>
    refine ⟨hvalid.route, ?_⟩
    cases h with
    | trie hmany hmode hliteral q hq hfound =>
      rw [hunused] at hmode
      cases hmode
    | array hfew hmode hroutes hliteral =>
      obtain rfl := ArrayTable.routes.inj (harray.symm.trans hroutes)
      have hfull : entries.length ≥ HYBRID_THRESHOLD := hmigrates.resolve_left hr
      have hmany : HYBRID_THRESHOLD < (entries ++ [r]).length := by
        rw [List.length_append]
        exact Nat.lt_succ_of_le hfull
      have hmigrated := literal_migrate hliteral (fun q hq => hfree q (List.mem_append_left _ hq)) hroom
      apply routed_add_trie hmany _ _ hr hresult.symm
      · rfl
      · exact hmigrated
  | @array _ hvalid hunused entries harray hstays =>
    refine ⟨hvalid.route, ?_⟩
    cases h with
    | trie hmany hmode hliteral q hq hfound =>
      rw [hunused] at hmode
      cases hmode
    | array hfew hmode hroutes hliteral =>
      obtain rfl := ArrayTable.routes.inj (harray.symm.trans hroutes)
      have htake : r.path.take (MAX_ROUTE_PATH_LEN - 1) = r.path :=
        List.take_of_length_le (Nat.le_sub_one_of_lt hvalid.length)
      cases hresult
      refine .array ?_ hunused ?_ hliteral
      · rw [List.length_append]
        exact Nat.lt_of_not_le fun hfull => hstays (.inr hfull)
      · rw [htake]

theorem Routed.congr {rs : List (ArrayRoute H)} {router router' : Router H} (h : Routed rs router)
    (hmode : router'.use_trie = router.use_trie) (hroutes : router'.array_routes = router.array_routes)
    (htrie : router'.trie = router.trie) : Routed rs router' := by
  cases h with
  | array hfew hmode' hroutes' hliteral =>
    exact .array hfew (hmode.trans hmode') (hroutes.trans hroutes') (htrie ▸ hliteral)
  | trie hmany hmode' hliteral r hr hfound =>
    exact .trie hmany (hmode.trans hmode') (htrie ▸ hliteral) r hr (htrie ▸ hfound)

theorem add_route_method_services {alloc : Nat → Bool} {router router' : Router H} {path : List UInt8} {method : Method}
    {handler : Option H} {err : UvhttpError}
    (hadd : uvhttp_router_add_route_method alloc router path method handler = some (err, router')) :
    router'.static_prefix = router.static_prefix ∧ router'.static_context = router.static_context ∧
      router'.fallback_context = router.fallback_context :=
  (registered_of_call hadd).services

end modes

end router

namespace router_cache

open router (ArrayRoute COLON HYBRID_THRESHOLD serves find_array_route)
open open_addressing

variable {route_hash : List UInt8 → UInt32}

section order

/-- Up to its first growth a table keeps the routes of each path in the order of
their registration. -/
theorem Grown.chain_eq {table : HashTable H} {log : List (HashEntry H)} (h : Grown route_hash table log)
    (hfew : log.length < load_threshold UVHTTP_ROUTER_HASH_BASE_SIZE) :
    table.size = UVHTTP_ROUTER_HASH_BASE_SIZE ∧ ∀ path,
      (chain table.entries (probe_order table.size (route_hash path))).filter (fun e => e.path = path) =
        log.filter fun e => e.path = path := by
  induction h with
  | init =>
    have hsize : (hash_table_init UVHTTP_ROUTER_HASH_BASE_SIZE : HashTable H).size = UVHTTP_ROUTER_HASH_BASE_SIZE :=
      List.length_replicate
    refine ⟨hsize, fun path => ?_⟩
    rw [List.filter_nil, List.filter_eq_nil_iff]
    intro e he
    have hinit : Sound route_hash (hash_table_init UVHTTP_ROUTER_HASH_BASE_SIZE : HashTable H) [] := sound_init _
    cases hinit.mem_of_chain he
  | @add table table' log err alloc path method handler h hpath hadd ih =>
    have hbefore : log.length < load_threshold UVHTTP_ROUTER_HASH_BASE_SIZE := by
      split at hfew
      · rw [List.length_append] at hfew
        exact (Nat.le_add_right _ _).trans_lt hfew
      · exact hfew
    obtain ⟨hsize, hchain⟩ := ih hbefore
    have hbelow : ¬ table.threshold ≤ table.count := by
      rw [h.sound.threshold, h.sound.count, h.sound.stored.length_eq, hsize]
      exact Nat.not_le.mpr hbefore
    by_cases herr : err = .OK
    · subst herr
      rw [if_pos rfl]
      obtain ⟨-, room, index, hroom, hlt, hfree, hreach, -, rfl⟩ := add_to_hash_table_ok h.sound hadd
      cases hroom with
      | moved hfull => exact absurd hfull hbelow
      | kept =>
        dsimp only [HashTable.size] at hsize hchain hreach ⊢
        rw [List.length_set]
        refine ⟨hsize, fun p => ?_⟩
        rw [filter_chain_set (probe_order_nodup _ _) ?_ hlt hfree ?_, hchain p, List.filter_append,
          List.filter_cons, List.filter_nil]
        · intro i e he hmatch
          rw [← of_decide_eq_true hmatch]
          exact h.sound.probed.reach i e he
        · intro hmatch
          rw [← of_decide_eq_true hmatch]
          exact hreach
    · rw [if_neg herr]
      have hroom : (make_room route_hash alloc table).2 = table := by rw [make_room, if_neg hbelow]
      obtain rfl | rfl := add_to_hash_table_rejected herr hadd
      · exact ⟨hsize, hchain⟩
      · rw [hroom]
        exact ⟨hsize, hchain⟩

/-- A route of the array as an entry of the table. -/
def table_entry (r : ArrayRoute H) : HashEntry H := ⟨r.path, r.method, r.handler⟩

theorem template_free {e : HashEntry H} (h : COLON ∉ e.path) (path : List UInt8) (method : Method) :
    template path method e = false := by
  simp [template, template_matches, h]

/-- Without parameters and before the table has grown, the lookup is that in the
array. -/
theorem find_in_hash_table_array {table : HashTable H} {rs : List (ArrayRoute H)}
    (h : Grown route_hash table (rs.map table_entry)) (hfree : ∀ r ∈ rs, COLON ∉ r.path)
    (hfew : rs.length < load_threshold UVHTTP_ROUTER_HASH_BASE_SIZE) (path : List UInt8) (method : Method) :
    find_in_hash_table route_hash table path method = find_array_route rs path method := by
  have hchain := (h.chain_eq (by rw [List.length_map]; exact hfew)).2 path
  have htemplate : (occupants table.entries).filter (template path method) = [] := by
    rw [List.filter_eq_nil_iff]
    intro e he
    obtain ⟨r, hr, rfl⟩ := List.mem_map.mp (h.sound.stored.mem_iff.mp he)
    rw [template_free (hfree r hr)]
    exact Bool.false_ne_true
  have hliteral : ∀ entries : List (HashEntry H), entries.filter (literal path method) =
      (entries.filter fun e => e.path = path).filter fun e => serves e.method method := by
    intro entries
    rw [List.filter_filter]
    refine List.filter_congr fun e _ => ?_
    rw [literal, Bool.and_comm]
  have hnone : ∀ found : Option (HashEntry H), (found <|> none) = found := by
    intro found
    cases found with
    | none => rfl
    | some e => rfl
  rw [find_in_hash_table_eq, htemplate, hliteral, hchain, ← hliteral, List.head?_nil, hnone, List.head?_filter,
    find_array_route, List.find?_map, Option.map_map]
  have hsame : (fun r : ArrayRoute H => serves r.method method && decide (r.path = path)) =
      literal path method ∘ table_entry := by
    funext r
    exact Bool.and_comm _ _
  rw [hsame]
  rfl

theorem fast_method_parse_eq (method : List UInt8) :
    fast_method_parse method = router.uvhttp_method_from_string method := by
  have hget : bytes "GET" = 71 :: bytes "ET" := by decide
  have hpost : bytes "POST" = 80 :: 79 :: bytes "ST" := by decide
  have hput : bytes "PUT" = 80 :: 85 :: bytes "T" := by decide
  have hpatch : bytes "PATCH" = 80 :: 65 :: bytes "TCH" := by decide
  have hdelete : bytes "DELETE" = 68 :: bytes "ELETE" := by decide
  have hhead : bytes "HEAD" = 72 :: bytes "EAD" := by decide
  have hoptions : bytes "OPTIONS" = 79 :: bytes "PTIONS" := by decide
  unfold fast_method_parse router.uvhttp_method_from_string
  rw [hget, hpost, hput, hpatch, hdelete, hhead, hoptions]
  split
  all_goals simp_all

end order

end router_cache

namespace agreement

open router (Router ArrayRoute Context Target COLON SLASH HYBRID_THRESHOLD MAX_ROUTE_PATH_LEN Routed ValidRoute)
open router_cache (CacheRouter HashEntry Grown table_entry)
open open_addressing

variable {route_hash : List UInt8 → UInt32}

/-- A call of the registration interface that both routers implement. -/
inductive Call (H : Type) where
  | route (r : ArrayRoute H)
  | static_route (prefix_path : List UInt8) (static_context : Context)
  | fallback_route (static_context : Context)

/-- The call on the array and trie router. -/
def call_router (alloc : Nat → Bool) (router : Router H) : Call H → Option (UvhttpError × Router H)
  | .route r => uvhttp.router.uvhttp_router_add_route_method alloc router r.path r.method (some r.handler)
  | .static_route prefix_path static_context =>
    some (uvhttp.router.uvhttp_router_add_static_route alloc router prefix_path (some static_context))
  | .fallback_route static_context =>
    some (uvhttp.router.uvhttp_router_add_fallback_route router (some static_context))

/-- The call on the hash table router. -/
def call_cache (route_hash : List UInt8 → UInt32) (alloc : Nat → Bool) (cr : CacheRouter H) :
    Call H → Option (UvhttpError × CacheRouter H)
  | .route r => router_cache.uvhttp_router_add_route_method route_hash alloc cr r.path r.method (some r.handler)
  | .static_route prefix_path static_context =>
    some (router_cache.uvhttp_router_add_static_route alloc cr prefix_path (some static_context))
  | .fallback_route static_context =>
    some (router_cache.uvhttp_router_add_fallback_route cr (some static_context))

/-- The two routers after the same calls, all of which both accepted. -/
inductive Registered (route_hash : List UInt8 → UInt32) : Router H → CacheRouter H → List (Call H) → Prop where
  | new : Registered route_hash router.uvhttp_router_new router_cache.uvhttp_router_new []
  | call {router router' : Router H} {cr cr' : CacheRouter H} {calls : List (Call H)} (alloc alloc' : Nat → Bool)
      (c : Call H) (h : Registered route_hash router cr calls)
      (hrouter : call_router alloc router c = some (.OK, router'))
      (hcache : call_cache route_hash alloc' cr c = some (.OK, cr')) : Registered route_hash router' cr' (calls ++ [c])

/-- The routes among some calls. -/
def routes (calls : List (Call H)) : List (ArrayRoute H) :=
  calls.filterMap fun c =>
    match c with
    | .route r => some r
    | _ => none

/-- The static route and the fallback of a router. -/
structure Services where
  static_prefix : Option (List UInt8)
  static_context : Option Context
  fallback_context : Option Context

def router_services (router : Router H) : Services :=
  ⟨router.static_prefix, router.static_context, router.fallback_context⟩

def cache_services (cr : CacheRouter H) : Services := ⟨cr.static_prefix, cr.static_context, cr.fallback_context⟩

/-- What a call leaves of the static route and the fallback. -/
def call_services (services : Services) : Call H → Services
  | .route _ => services
  | .static_route prefix_path static_context =>
    { services with static_prefix := some prefix_path, static_context := some static_context }
  | .fallback_route static_context => { services with fallback_context := some static_context }

/-- The static route and the fallback that some calls leave. -/
def services (calls : List (Call H)) : Services := calls.foldl call_services ⟨none, none, none⟩

theorem services_append (calls : List (Call H)) (c : Call H) :
    services (calls ++ [c]) = call_services (services calls) c := by
  rw [services, List.foldl_append]
  rfl

theorem static_context_isSome {calls : List (Call H)} {prefix_path : List UInt8}
    (h : Services.static_prefix (services calls) = some prefix_path) :
    (services calls).static_context.isSome = true := by
  induction calls using List.reverseRecOn with
  | nil => cases h
  | append_singleton calls c ih =>
    rw [services_append] at h ⊢
    cases c with
    | route r => exact ih h
    | static_route prefix_path static_context => rfl
    | fallback_route static_context => exact ih h

theorem call_router_services {alloc : Nat → Bool} {router router' : Router H} {c : Call H}
    (h : call_router alloc router c = some (.OK, router')) :
    router_services router' = call_services (router_services router) c := by
  cases c with
  | route r =>
    rw [call_router] at h
    obtain ⟨hfront, hcontext, hfallback⟩ := uvhttp.router.add_route_method_services h
    rw [router_services, hfront, hcontext, hfallback]
    rfl
  | static_route prefix_path static_context =>
    rw [call_router, uvhttp.router.uvhttp_router_add_static_route] at h
    split at h
    · cases h
    · cases h
      rfl
  | fallback_route static_context =>
    cases h
    rfl

theorem call_cache_services {alloc : Nat → Bool} {cr cr' : CacheRouter H} {c : Call H}
    (h : call_cache route_hash alloc cr c = some (.OK, cr')) :
    cache_services cr' = call_services (cache_services cr) c := by
  cases c with
  | route r =>
    rw [call_cache] at h
    obtain ⟨herr, -⟩ | ⟨_, -, -, -, -, hfront, hcontext, hfallback⟩ := router_cache.add_route_method_cases h
    · exact absurd rfl herr
    · rw [cache_services, hfront, hcontext, hfallback]
      rfl
  | static_route prefix_path static_context =>
    rw [call_cache, router_cache.uvhttp_router_add_static_route] at h
    split at h
    · cases h
    · cases h
      rfl
  | fallback_route static_context =>
    cases h
    rfl

theorem routes_append (calls : List (Call H)) (c : Call H) : routes (calls ++ [c]) = routes calls ++ routes [c] :=
  List.filterMap_append

/-- What is known of the two routers. -/
structure Alike (route_hash : List UInt8 → UInt32) (router : Router H) (cr : CacheRouter H) (calls : List (Call H)) :
    Prop where
  routed : Routed (routes calls) router
  valid : ∀ r ∈ routes calls, ValidRoute r
  grown : Grown route_hash cr.hash_table ((routes calls).map table_entry)
  router_services : router_services router = services calls
  cache_services : cache_services cr = services calls

theorem Alike.without_route {router router' : Router H} {cr cr' : CacheRouter H} {calls : List (Call H)} {c : Call H}
    (h : Alike route_hash router cr calls) (hc : routes [c] = []) (hrouted : Routed (routes calls) router')
    (htable : cr'.hash_table = cr.hash_table) (hservices : agreement.router_services router' = services (calls ++ [c]))
    (hservices' : agreement.cache_services cr' = services (calls ++ [c])) :
    Alike route_hash router' cr' (calls ++ [c]) := by
  have hroutes : routes (calls ++ [c]) = routes calls := by rw [routes_append, hc, List.append_nil]
  refine ⟨?_, ?_, ?_, hservices, hservices'⟩
  · rw [hroutes]
    exact hrouted
  · rw [hroutes]
    exact h.valid
  · rw [hroutes, htable]
    exact h.grown

theorem Registered.alike {router : Router H} {cr : CacheRouter H} {calls : List (Call H)}
    (h : Registered route_hash router cr calls) (hfree : ∀ r ∈ routes calls, COLON ∉ r.path) :
    Alike route_hash router cr calls := by
  induction h with
  | new => exact ⟨.array (Nat.zero_le _) rfl rfl trivial, nofun, .init, rfl, rfl⟩
  | @call router router' cr cr' calls alloc alloc' c h hrouter hcache ih =>
    rw [routes_append] at hfree
    have hbefore := ih fun r hr => hfree r (List.mem_append_left _ hr)
    have hservices : router_services router' = services (calls ++ [c]) := by
      rw [call_router_services hrouter, hbefore.router_services, services_append]
    have hservices' : cache_services cr' = services (calls ++ [c]) := by
      rw [call_cache_services hcache, hbefore.cache_services, services_append]
    cases c with
    | route r =>
      rw [call_router] at hrouter
      rw [call_cache] at hcache
      obtain ⟨hvalid, hrouted⟩ := uvhttp.router.routed_add hbefore.routed hfree hrouter
      refine ⟨?_, ?_, ?_, hservices, hservices'⟩
      · rw [routes_append]
        exact hrouted
      · rw [routes_append]
        intro q hq
        obtain hold | hnew := List.mem_append.mp hq
        · exact hbefore.valid q hold
        · exact List.mem_singleton.mp hnew ▸ hvalid
      · obtain ⟨herr, -⟩ | ⟨handler, hhandler, hpath, -, htable, -⟩ := router_cache.add_route_method_cases hcache
        · exact absurd rfl herr
        cases hhandler
        have hgrown := hbefore.grown.add alloc' _ _ _ hpath htable
        rw [if_pos rfl] at hgrown
        rw [routes_append, List.map_append]
        exact hgrown
    | static_route prefix_path static_context =>
      rw [call_router, uvhttp.router.uvhttp_router_add_static_route] at hrouter
      rw [call_cache, router_cache.uvhttp_router_add_static_route] at hcache
      split at hrouter
      · cases hrouter
      split at hcache
      · cases hcache
      cases hrouter
      cases hcache
      exact hbefore.without_route rfl (hbefore.routed.congr rfl rfl rfl) rfl hservices hservices'
    | fallback_route static_context =>
      cases hrouter
      cases hcache
      exact hbefore.without_route rfl (hbefore.routed.congr rfl rfl rfl) rfl hservices hservices'

section lookups

/-- Both routers find the same. -/
def Agree (route_hash : List UInt8 → UInt32) (router : Router H) (cr : CacheRouter H) : Prop :=
  ∀ path method, uvhttp.router.uvhttp_router_find_handler router path method =
    some (router_cache.uvhttp_router_find_handler route_hash cr path method)

/-- The static route takes a path of both routers or of none. -/
theorem Alike.static_eq {router : Router H} {cr : CacheRouter H} {calls : List (Call H)}
    (h : Alike route_hash router cr calls) (path : List UInt8) :
    router_cache.static_prefix_handler cr path = uvhttp.router.static_covers router path := by
  have hservices := h.cache_services.trans h.router_services.symm
  have hfront : cr.static_prefix = router.static_prefix := congrArg Services.static_prefix hservices
  have hcontext : cr.static_context = router.static_context := congrArg Services.static_context hservices
  unfold router_cache.static_prefix_handler uvhttp.router.static_covers
  cases hcase : router.static_prefix with
  | none => simp only [hfront, hcase]
  | some prefix_path => simp only [hfront, hcontext, hcase]

theorem Alike.agree_few {router : Router H} {cr : CacheRouter H} {calls : List (Call H)}
    (h : Alike route_hash router cr calls) (hfree : ∀ r ∈ routes calls, COLON ∉ r.path)
    (hfew : (routes calls).length ≤ HYBRID_THRESHOLD) : Agree route_hash router cr := by
  intro path method
  have hfallback : cr.fallback_context = router.fallback_context :=
    congrArg Services.fallback_context (h.cache_services.trans h.router_services.symm)
  have hbelow : (routes calls).length < router_cache.load_threshold router_cache.UVHTTP_ROUTER_HASH_BASE_SIZE :=
    hfew.trans_lt (by decide)
  unfold uvhttp.router.uvhttp_router_find_handler router_cache.uvhttp_router_find_handler
  rw [h.static_eq, router_cache.find_in_hash_table_array h.grown hfree hbelow, router_cache.fast_method_parse_eq,
    hfallback]
  cases h.routed with
  | trie hmany => exact absurd hfew (Nat.not_le.mpr hmany)
  | array _ hmode hroutes _ =>
    unfold uvhttp.router.find_route
    rw [hmode, hroutes]
    cases uvhttp.router.static_covers router path with
    | true => rfl
    | false =>
      dsimp only
      cases uvhttp.router.find_array_route (routes calls) path (uvhttp.router.uvhttp_method_from_string method) with
      | none => rfl
      | some handler => rfl

theorem Alike.agree_static {router : Router H} {cr : CacheRouter H} {calls : List (Call H)}
    (h : Alike route_hash router cr calls) (hstatic : Services.static_prefix (services calls) = some []) :
    Agree route_hash router cr := by
  intro path method
  have hcontext : router.static_context.isSome = true := by
    have hsome := static_context_isSome hstatic
    rw [← h.router_services] at hsome
    exact hsome
  have hfront : router.static_prefix = some [] := by
    rw [← h.router_services] at hstatic
    exact hstatic
  have hcovers : uvhttp.router.static_covers router path = true := by
    rw [uvhttp.router.static_covers, hfront]
    simp [hcontext]
  unfold uvhttp.router.uvhttp_router_find_handler router_cache.uvhttp_router_find_handler
  rw [h.static_eq, hcovers]
  rfl

/-- A trie finds a route under a path that no router registered. -/
theorem Alike.disagree_many {router : Router H} {cr : CacheRouter H} {calls : List (Call H)}
    (h : Alike route_hash router cr calls) (hfree : ∀ r ∈ routes calls, COLON ∉ r.path)
    (hstatic : ∀ prefix_path, Services.static_prefix (services calls) = some prefix_path →
      prefix_path.head? = some SLASH)
    (hmany : HYBRID_THRESHOLD < (routes calls).length) : ¬ Agree route_hash router cr := by
  intro hagree
  cases h.routed with
  | array hfew => exact absurd hfew (Nat.not_le.mpr hmany)
  | trie _ hmode _ r hr hfound =>
    obtain ⟨nickname, hsegments, hhead, hunused⟩ := uvhttp.router.exists_nickname (h.valid r hr).length (hfree r hr)
    have hsame := hagree nickname (uvhttp.router.uvhttp_method_to_string r.method)
    have hcovers : uvhttp.router.static_covers router nickname = false := by
      rw [uvhttp.router.static_covers]
      cases hfront : router.static_prefix with
      | none => rfl
      | some prefix_path =>
        rw [← h.router_services] at hstatic
        have hslash := hstatic prefix_path hfront
        cases prefix_path with
        | nil => cases hslash
        | cons c rest =>
          cases hslash
          cases nickname with
          | nil => simp
          | cons first rest' =>
            have hne : SLASH ≠ first := fun heq => hhead (heq ▸ rfl)
            simp [List.isPrefixOf, hne]
    have habsent : router_cache.find_in_hash_table route_hash cr.hash_table nickname r.method = none := by
      rw [router_cache.find_in_hash_table_eq_none h.grown.sound]
      intro e he
      obtain ⟨q, hq, rfl⟩ := List.mem_map.mp he
      refine ⟨?_, router_cache.template_free (hfree q hq) _ _⟩
      have hne : q.path ≠ nickname := by
        rintro rfl
        obtain hnil | hlong := hunused
        · exact (h.valid q hq).not_empty (by rw [hnil]; rfl)
        · exact absurd hlong (Nat.not_le.mpr (h.valid q hq).length)
      simp [router_cache.literal, table_entry, hne]
    obtain ⟨handler, hhandler⟩ := Option.isSome_iff_exists.mp hfound
    unfold uvhttp.router.uvhttp_router_find_handler router_cache.uvhttp_router_find_handler uvhttp.router.find_route
      at hsame
    rw [h.static_eq, hcovers, hmode, uvhttp.router.uvhttp_method_from_to_string, hsegments, hhandler,
      router_cache.fast_method_parse_to_string, habsent] at hsame
    simp only [Bool.false_eq_true, if_false, if_true] at hsame
    split at hsame
    · cases hsame
    · cases hsame

/-- The two routers agree after the same successful calls, for routes without
parameters, as long as there are at most 100 routes, or if a static route takes
every path. Beyond 100 routes they disagree unless the static prefix does not
start with a slash. -/
theorem find_handler_agree {router : Router H} {cr : CacheRouter H} {calls : List (Call H)}
    (h : Registered route_hash router cr calls) (hfree : ∀ r ∈ routes calls, COLON ∉ r.path) :
    ((routes calls).length ≤ HYBRID_THRESHOLD ∨ Services.static_prefix (services calls) = some [] →
      Agree route_hash router cr) ∧
    ((∀ prefix_path, Services.static_prefix (services calls) = some prefix_path → prefix_path.head? = some SLASH) →
      Agree route_hash router cr → (routes calls).length ≤ HYBRID_THRESHOLD) := by
  have halike := h.alike hfree
  refine ⟨?_, fun hstatic hagree => ?_⟩
  · rintro (hfew | hstatic)
    · exact halike.agree_few hfree hfew
    · exact halike.agree_static hstatic
  · by_contra hmany
    exact halike.disagree_many hfree hstatic (Nat.lt_of_not_le hmany) hagree

/-- Calls one after the other on both routers, `none` when one of them is rejected. -/
def call_all (route_hash : List UInt8 → UInt32) (router : Router H) (cr : CacheRouter H) :
    List (Call H) → Option (Router H × CacheRouter H)
  | [] => some (router, cr)
  | c :: calls =>
    match call_router (fun _ => true) router c, call_cache route_hash (fun _ => true) cr c with
    | some (.OK, router), some (.OK, cr) => call_all route_hash router cr calls
    | _, _ => none

theorem Registered.call_all {router router' : Router H} {cr cr' : CacheRouter H} {before calls : List (Call H)}
    (h : Registered route_hash router cr before) (hcalls : call_all route_hash router cr calls = some (router', cr')) :
    Registered route_hash router' cr' (before ++ calls) := by
  induction calls generalizing router cr before with
  | nil =>
    cases hcalls
    rw [List.append_nil]
    exact h
  | cons c calls ih =>
    rw [agreement.call_all] at hcalls
    split at hcalls
    · rename_i hrouter hcache
      rw [List.append_cons]
      exact ih (h.call _ _ c hrouter hcache) hcalls
    · cases hcalls

/-- Two routes on one path and a static route. -/
theorem find_handler_agree_two_routes :
    let calls : List (Call Bool) := [.route ⟨bytes "/a", .GET, true⟩, .route ⟨bytes "/a", .ANY, false⟩,
      .static_route (bytes "/static/") (.static_files 1)]
    ∃ (router : Router Bool) (cr : CacheRouter Bool),
      call_all (fun _ => 0) uvhttp.router.uvhttp_router_new router_cache.uvhttp_router_new calls = some (router, cr) ∧
      Agree (fun _ => 0) router cr := by
  intro calls
  obtain ⟨⟨router, cr⟩, hcalls⟩ : ∃ both, call_all (fun _ => 0) uvhttp.router.uvhttp_router_new
      router_cache.uvhttp_router_new calls = some both := Option.isSome_iff_exists.mp (by decide +kernel)
  refine ⟨router, cr, hcalls, ?_⟩
  apply (find_handler_agree (Registered.new.call_all hcalls) (by decide)).1
  exact .inl (by decide)

/-- 101 routes: eight methods on each of twelve paths, and five on one more. -/
def many_routes : List (ArrayRoute Bool) :=
  let methods : List Method := [.ANY, .GET, .POST, .PUT, .DELETE, .HEAD, .OPTIONS, .PATCH]
  ((List.range 12).flatMap fun i => methods.map fun method => ⟨[47, UInt8.ofNat (97 + i)], method, true⟩) ++
    (methods.take 5).map fun method => ⟨bytes "/a/a", method, true⟩

/-- A hash that leaves room for the methods of each of these paths. -/
def spread_hash (path : List UInt8) : UInt32 :=
  if path.length = 2 then (path.getLastD 0 - 97).toUInt32 * 8 else 96

/-- With 101 routes, a path for which all methods are registered is found by one
router only. -/
theorem find_handler_disagree :
    ∃ (router : Router Bool) (cr : CacheRouter Bool) (calls : List (Call Bool)),
      Registered spread_hash router cr calls ∧ routes calls = many_routes ∧
      (many_routes.map fun r => (r.path, r.method)).Nodup ∧ (∀ r ∈ many_routes, COLON ∉ r.path) ∧
      uvhttp.router.uvhttp_router_find_handler router (bytes "/b") (bytes "GET") = some none ∧
      router_cache.uvhttp_router_find_handler spread_hash cr (bytes "/b") (bytes "GET") =
        some (.handler true) := by
  have hcomputed : (call_all spread_hash uvhttp.router.uvhttp_router_new router_cache.uvhttp_router_new
      (many_routes.map .route)).any (fun both =>
        uvhttp.router.uvhttp_router_find_handler both.1 (bytes "/b") (bytes "GET") = some none &&
        router_cache.uvhttp_router_find_handler spread_hash both.2 (bytes "/b") (bytes "GET") =
          some (.handler true)) = true := by
    decide +kernel
  simp only [Option.any_eq_true, Bool.and_eq_true, decide_eq_true_eq] at hcomputed
  obtain ⟨⟨router, cr⟩, hcalls, hrouter, hcache⟩ := hcomputed
  refine ⟨router, cr, _, Registered.new.call_all hcalls, ?_, by decide +kernel, by decide +kernel, hrouter, hcache⟩
  generalize many_routes = rs
  rw [List.nil_append, routes, List.filterMap_map]
  exact List.filterMap_some

end lookups

end agreement

end uvhttp
