import Uvhttp.Router.Cache
import Uvhttp.Router.Query

namespace uvhttp

open http (Method)

variable {H : Type}

namespace router_cache

open router (QUESTION_MARK Context Target serves uvhttp_method_to_string)

/-- The routers that calls of the registration functions lead to, also of calls
that fail. -/
inductive Reachable (route_hash : List UInt8 → UInt32) : CacheRouter H → Prop where
  | new : Reachable route_hash uvhttp_router_new
  | add_route_method {cr cr' : CacheRouter H} {err : UvhttpError} (alloc : Nat → Bool) (path : List UInt8)
      (method : Method) (handler : Option H) (h : Reachable route_hash cr)
      (hadd : uvhttp_router_add_route_method route_hash alloc cr path method handler = some (err, cr')) :
      Reachable route_hash cr'
  | add_static_route {cr : CacheRouter H} (alloc : Nat → Bool) (prefix_path : List UInt8)
      (static_context : Option Context) (h : Reachable route_hash cr) :
      Reachable route_hash (uvhttp_router_add_static_route alloc cr prefix_path static_context).2
  | add_fallback_route {cr : CacheRouter H} (static_context : Option Context) (h : Reachable route_hash cr) :
      Reachable route_hash (uvhttp_router_add_fallback_route cr static_context).2
  | add_binary_route {cr cr' : CacheRouter H} {err : UvhttpError} (alloc : Nat → Bool) (binary_route_handler : H)
      (path mime_type : List UInt8) (h : Reachable route_hash cr)
      (hadd : uvhttp_router_add_binary_route route_hash alloc binary_route_handler cr path mime_type =
        some (err, cr')) :
      Reachable route_hash cr'

variable {route_hash : List UInt8 → UInt32}

/-- No stored path contains a question mark. -/
def NoQuery (entries : List (Option (HashEntry H))) : Prop :=
  ∀ entry, some entry ∈ entries → QUESTION_MARK ∉ entry.path

theorem NoQuery.set {entries : List (Option (HashEntry H))} (h : NoQuery entries) {entry : HashEntry H}
    (hentry : QUESTION_MARK ∉ entry.path) (index : Nat) : NoQuery (entries.set index (some entry)) := by
  intro stored hstored
  rcases List.mem_or_eq_of_mem_set hstored with hold | hnew
  · exact h stored hold
  · exact Option.some.inj hnew ▸ hentry

theorem no_query_rehash {new_entries old_entries entries : List (Option (HashEntry H))} (hnew : NoQuery new_entries)
    (hold : NoQuery old_entries) (h : rehash_entries route_hash new_entries old_entries = some entries) :
    NoQuery entries := by
  induction old_entries generalizing new_entries with
  | nil => exact Option.some.inj h ▸ hnew
  | cons slot old_entries ih =>
    have hrest : NoQuery old_entries := fun entry hentry => hold entry (List.mem_cons_of_mem _ hentry)
    cases slot with
    | none => exact ih hnew hrest h
    | some entry =>
      rw [rehash_entries] at h
      split at h
      · cases h
      · exact ih (hnew.set (hold entry List.mem_cons_self) _) hrest h

theorem no_query_make_room {alloc : Nat → Bool} {table : HashTable H} (h : NoQuery table.entries) :
    NoQuery (make_room route_hash alloc table).2.entries := by
  unfold make_room hash_table_resize
  dsimp only
  split
  · split
    · split
      · exact h
      · split
        · exact h
        · split
          · exact h
          · rename_i hrehash
            refine no_query_rehash (fun entry hentry => ?_) h hrehash
            cases List.eq_of_mem_replicate hentry
    · exact h
  · exact h

theorem no_query_add_to_hash_table {alloc : Nat → Bool} {table table' : HashTable H} {path : List UInt8}
    {method : Method} {handler : H} {err : UvhttpError} (h : NoQuery table.entries) (hquery : QUESTION_MARK ∉ path)
    (hadd : add_to_hash_table route_hash alloc table path method handler = some (err, table')) :
    NoQuery table'.entries := by
  have hroom : NoQuery (make_room route_hash alloc table).2.entries := no_query_make_room h
  unfold add_to_hash_table at hadd
  dsimp only at hadd
  split at hadd
  · cases hadd
    exact h
  split at hadd
  · rw [show table' = (make_room route_hash alloc table).2 by rw [Option.some.inj hadd]]
    exact hroom
  split at hadd
  · cases hadd
  split at hadd
  · cases hadd
    exact hroom
  · cases hadd
    exact hroom.set (fun hmem => hquery (List.mem_of_mem_take hmem)) _

theorem track_route_hash_table (cr : CacheRouter H) (path : List UInt8) :
    (track_route cr path).hash_table = cr.hash_table := by
  unfold track_route
  split
  · split
    · rfl
    · rfl
  · rfl

/-- A registration is refused and changes nothing, or its route is handed to the table. -/
theorem add_route_method_cases {alloc : Nat → Bool} {cr cr' : CacheRouter H} {path : List UInt8} {method : Method}
    {handler : Option H} {err : UvhttpError}
    (hadd : uvhttp_router_add_route_method route_hash alloc cr path method handler = some (err, cr')) :
    (err ≠ .OK ∧ cr' = cr) ∨
    ∃ h, handler = some h ∧ path ≠ [] ∧ QUESTION_MARK ∉ path ∧
      add_to_hash_table route_hash alloc cr.hash_table path method h = some (err, cr'.hash_table) ∧
      cr'.static_prefix = cr.static_prefix ∧ cr'.static_context = cr.static_context ∧
      cr'.fallback_context = cr.fallback_context := by
  unfold uvhttp_router_add_route_method at hadd
  cases handler with
  | none =>
    cases hadd
    exact .inl ⟨by decide, rfl⟩
  | some h =>
    dsimp only at hadd
    split at hadd
    · cases hadd
      exact .inl ⟨by decide, rfl⟩
    rename_i hempty
    split at hadd
    · cases hadd
      exact .inl ⟨by decide, rfl⟩
    split at hadd
    · cases hadd
      exact .inl ⟨by decide, rfl⟩
    rename_i hquery
    split at hadd
    · cases hadd
    rename_i table_err table htable
    have hpath : path ≠ [] := fun hnil => hempty (by rw [hnil]; rfl)
    split at hadd
    · cases hadd
      exact .inr ⟨h, rfl, hpath, hquery, htable, rfl, rfl, rfl⟩
    · rename_i hok
      cases hadd
      rw [not_not.mp hok] at htable
      refine .inr ⟨h, rfl, hpath, hquery, ?_, ?_⟩
      · rw [track_route_hash_table]
        exact htable
      · unfold track_route
        split
        · split
          · exact ⟨rfl, rfl, rfl⟩
          · exact ⟨rfl, rfl, rfl⟩
        · exact ⟨rfl, rfl, rfl⟩

theorem no_query_add {alloc : Nat → Bool} {cr cr' : CacheRouter H} {path : List UInt8} {method : Method}
    {handler : Option H} {err : UvhttpError} (h : NoQuery cr.hash_table.entries)
    (hadd : uvhttp_router_add_route_method route_hash alloc cr path method handler = some (err, cr')) :
    NoQuery cr'.hash_table.entries := by
  obtain ⟨-, rfl⟩ | ⟨handler, -, -, hquery, htable, -⟩ := add_route_method_cases hadd
  · exact h
  · exact no_query_add_to_hash_table h hquery htable

theorem Reachable.no_query {cr : CacheRouter H} (h : Reachable route_hash cr) : NoQuery cr.hash_table.entries := by
  induction h with
  | new =>
    intro entry hentry
    cases List.eq_of_mem_replicate hentry
  | add_route_method alloc path method handler h hadd ih => exact no_query_add ih hadd
  | add_static_route alloc prefix_path static_context h ih =>
    unfold uvhttp_router_add_static_route
    split
    · exact ih
    · split
      · exact ih
      · exact ih
  | add_fallback_route static_context h ih =>
    unfold uvhttp_router_add_fallback_route
    split
    · exact ih
    · exact ih
  | @add_binary_route cr cr' err alloc binary_route_handler path mime_type h hadd ih =>
    have hbase : NoQuery { cr with static_context := some (.mime_type mime_type) }.hash_table.entries := ih
    unfold uvhttp_router_add_binary_route uvhttp_router_add_route at hadd
    exact no_query_add hbase hadd

theorem exact_match_absent {entries : List (Option (HashEntry H))} {path : List UInt8} {method : Method}
    (h : ∀ entry, some entry ∈ entries → serves entry.method method = true → entry.path ≠ path) (slots : List Nat) :
    exact_match entries path method slots = none := by
  induction slots with
  | nil => rfl
  | cons index slots ih =>
    rw [exact_match]
    split
    · rfl
    · rename_i entry hentry
      have hmem : some entry ∈ entries := by
        rw [← hentry, List.getD_eq_getElem?_getD]
        cases hget : entries[index]? with
        | none => simp [hget] at hentry
        | some slot => exact List.mem_of_getElem? hget
      rw [if_neg, ih]
      intro hfound
      simp only [Bool.and_eq_true, decide_eq_true_eq] at hfound
      exact h entry hmem hfound.2 hfound.1

/-- The first route with parameters that serves the method and matches either of
two paths matches both. -/
def MatchAlike (entries : List (Option (HashEntry H))) (method : Method) (path path' : List UInt8) : Prop :=
  ∀ entry ∈ (entries.filterMap id).find? (fun entry => serves entry.method method &&
      (template_matches entry.path path || template_matches entry.path path')),
    template_matches entry.path path = true ∧ template_matches entry.path path' = true

theorem template_match_eq_findSome (entries : List (Option (HashEntry H))) (path : List UInt8) (method : Method) :
    template_match entries path method = (entries.filterMap id).findSome? fun entry =>
      if serves entry.method method && template_matches entry.path path then some entry.handler else none := by
  rw [template_match]
  induction entries with
  | nil => rfl
  | cons slot entries ih =>
    cases slot with
    | none => exact ih
    | some entry =>
      have hstored : (some entry :: entries).filterMap id = entry :: entries.filterMap id := rfl
      rw [hstored, List.findSome?_cons, List.findSome?_cons, ih]

theorem template_match_alike {entries : List (Option (HashEntry H))} {method : Method} {path path' : List UInt8}
    (h : MatchAlike entries method path path') :
    template_match entries path' method = template_match entries path method := by
  rw [template_match_eq_findSome, template_match_eq_findSome]
  refine findSome_congr_first fun entry hentry => ?_
  have hfirst : (entries.filterMap id).find? (fun entry => serves entry.method method &&
      (template_matches entry.path path || template_matches entry.path path')) = some entry := by
    rw [← hentry]
    congr 1
    funext entry
    cases serves entry.method method with
    | false => simp
    | true =>
      cases template_matches entry.path path with
      | false => cases template_matches entry.path path' <;> rfl
      | true => cases template_matches entry.path path' <;> rfl
  obtain ⟨hmatch, hmatch'⟩ := h entry hfirst
  rw [hmatch, hmatch']

/-- Nothing in a router tells two paths apart, of which the second may have a
query: the static prefix takes both or neither, and if it takes neither, no route
is stored for the first, and the first route with parameters that matches one
matches both. -/
structure Unnoticed (cr : CacheRouter H) (method : Method) (path path' : List UInt8) : Prop where
  static : static_prefix_handler cr path' = static_prefix_handler cr path
  exact : static_prefix_handler cr path = false → ∀ entry, some entry ∈ cr.hash_table.entries →
    serves entry.method method = true → entry.path ≠ path
  template : static_prefix_handler cr path = false → MatchAlike cr.hash_table.entries method path path'

/-- A lookup that does not notice a query. -/
theorem find_handler_unnoticed {cr : CacheRouter H} (hreachable : Reachable route_hash cr) {method : Method}
    {path path' : List UInt8} (hpath' : path' = path ∨ QUESTION_MARK ∈ path') (h : Unnoticed cr method path path') :
    uvhttp_router_find_handler route_hash cr path' (uvhttp_method_to_string method) =
      uvhttp_router_find_handler route_hash cr path (uvhttp_method_to_string method) := by
  unfold uvhttp_router_find_handler find_in_hash_table
  rw [h.static, fast_method_parse_to_string]
  cases hcovers : static_prefix_handler cr path with
  | true => rfl
  | false =>
    have habsent := h.exact hcovers
    have habsent' : ∀ entry, some entry ∈ cr.hash_table.entries → serves entry.method method = true →
        entry.path ≠ path' := by
      rcases hpath' with rfl | hquery
      · exact habsent
      · intro entry hentry _ heq
        exact hreachable.no_query entry hentry (heq ▸ hquery)
    rw [exact_match_absent habsent, exact_match_absent habsent', template_match_alike (h.template hcovers)]

end router_cache

end uvhttp
