import Uvhttp.Router.Cache
import Uvhttp.Router.Match

namespace uvhttp.cache_match

open http (Method)
open router (SLASH COLON)
open router_cache (CacheRouter HashEntry HashTable fast_method_parse find_in_hash_table probe_order
  static_prefix_handler template_matches)
open router_match (MAX_PARAMS MAX_PARAM_NAME_LEN MAX_PARAM_VALUE_LEN Param RouteMatch)

variable {H : Type}

/-- The first pass of `find_in_hash_table_ex`, with the entry that it finds. -/
def exact_entry (entries : List (Option (HashEntry H))) (path : List UInt8) (method : Method) :
    List Nat → Option (HashEntry H)
  | [] => none
  | index :: rest =>
    match entries.getD index none with
    | none => none
    | some entry =>
      if entry.path = path && router.serves entry.method method then some entry
      else exact_entry entries path method rest

/-- The second pass. -/
def template_entry (entries : List (Option (HashEntry H))) (path : List UInt8) (method : Method) :
    Option (HashEntry H) :=
  entries.findSome? fun slot =>
    match slot with
    | none => none
    | some entry =>
      if router.serves entry.method method && template_matches entry.path path then some entry else none

/-- `find_in_hash_table_ex`: its handler and `route_path_out` are those of an entry. -/
def find_in_hash_table_ex (route_hash : List UInt8 → UInt32) (table : HashTable H) (path : List UInt8)
    (method : Method) : Option (HashEntry H) :=
  exact_entry table.entries path method (probe_order table.size (route_hash path)) <|>
    template_entry table.entries path method

section extraction

/-- The name at `params[param_count]`. -/
def set_name (m : RouteMatch H) (name : List UInt8) : RouteMatch H :=
  { m with params := m.params.modify m.param_count fun param => { param with name := name } }

/-- The value at `params[param_count]`, which is then part of the result. -/
def set_value (m : RouteMatch H) (value : List UInt8) : RouteMatch H :=
  { m with params := m.params.modify m.param_count fun param => { param with value := value }
           param_count := m.param_count + 1 }

/-- A parameter whose name or value does not fit is left out. -/
def extract_param (m : RouteMatch H) (name value : List UInt8) : RouteMatch H :=
  if 0 < name.length ∧ name.length < MAX_PARAM_NAME_LEN then
    if value.length < MAX_PARAM_VALUE_LEN then set_value (set_name m name) value else set_name m name
  else m

/-- The loop of `uvhttp_router_match` over the route and the path. Each round takes at
least one character of the route. -/
def extract_loop : Nat → List UInt8 → List UInt8 → RouteMatch H → RouteMatch H
  | fuel + 1, r :: rp, p :: pp, m =>
    if m.param_count < MAX_PARAMS then
      if r = COLON then
        extract_loop fuel (rp.dropWhile (· ≠ SLASH)) ((p :: pp).dropWhile (· ≠ SLASH))
          (extract_param m (rp.takeWhile (· ≠ SLASH)) ((p :: pp).takeWhile (· ≠ SLASH)))
      else if r = p then extract_loop fuel rp pp m
      else m
    else m
  | _, _, _, m => m

/-- The parameters that a route takes from a path. -/
def extract_params (route path : List UInt8) (m : RouteMatch H) : RouteMatch H :=
  if COLON ∈ route then extract_loop route.length route path m else m

end extraction

/-- `uvhttp_router_match`, with the match record of the caller. -/
def uvhttp_router_match (route_hash : List UInt8 → UInt32) (cr : CacheRouter H) (path method : List UInt8)
    (m : RouteMatch H) : UvhttpError × RouteMatch H :=
  if !cr.use_trie && static_prefix_handler cr path then
    (.OK, { m with handler := some .static_file_handler_wrapper, param_count := 0 })
  else
    match find_in_hash_table_ex route_hash cr.hash_table path (fast_method_parse method) with
    | none => (.NOT_FOUND, m)
    | some entry =>
      (.OK, extract_params entry.path path { m with handler := some (.handler entry.handler), param_count := 0 })

section lookup

theorem exact_match_eq_entry (entries : List (Option (HashEntry H))) (path : List UInt8) (method : Method)
    (slots : List Nat) :
    router_cache.exact_match entries path method slots =
      (exact_entry entries path method slots).map HashEntry.handler := by
  induction slots with
  | nil => rfl
  | cons index slots ih =>
    rw [router_cache.exact_match, exact_entry]
    cases entries.getD index none with
    | none => rfl
    | some entry =>
      dsimp only
      cases entry.path = path && router.serves entry.method method with
      | true => rfl
      | false => exact ih

theorem template_match_eq_entry (entries : List (Option (HashEntry H))) (path : List UInt8) (method : Method) :
    router_cache.template_match entries path method =
      (template_entry entries path method).map HashEntry.handler := by
  rw [router_cache.template_match, template_entry]
  induction entries with
  | nil => rfl
  | cons slot entries ih =>
    rw [List.findSome?_cons, List.findSome?_cons]
    cases slot with
    | none => exact ih
    | some entry =>
      cases htaken : router.serves entry.method method && template_matches entry.path path with
      | true => simp [htaken]
      | false => simpa [htaken] using ih

/-- `find_in_hash_table` is the lookup without the entry. -/
theorem find_in_hash_table_eq_entry (route_hash : List UInt8 → UInt32) (table : HashTable H) (path : List UInt8)
    (method : Method) :
    find_in_hash_table route_hash table path method =
      (find_in_hash_table_ex route_hash table path method).map HashEntry.handler := by
  rw [find_in_hash_table, find_in_hash_table_ex, exact_match_eq_entry, template_match_eq_entry]
  cases exact_entry table.entries path method (probe_order table.size (route_hash path)) with
  | none => rfl
  | some entry => rfl

theorem extract_param_handler (m : RouteMatch H) (name value : List UInt8) :
    (extract_param m name value).handler = m.handler := by
  rw [extract_param]
  split
  · split
    · rfl
    · rfl
  · rfl

/-- The loop only writes parameters. -/
theorem extract_loop_handler (fuel : Nat) (rp pp : List UInt8) (m : RouteMatch H) :
    (extract_loop fuel rp pp m).handler = m.handler := by
  induction fuel generalizing rp pp m with
  | zero => rfl
  | succ fuel ih =>
    cases rp with
    | nil => rfl
    | cons r rp =>
      cases pp with
      | nil => rfl
      | cons p pp =>
        rw [extract_loop]
        split
        · split
          · exact (ih _ _ _).trans (extract_param_handler m _ _)
          · split
            · exact ih rp pp m
            · rfl
        · rfl

theorem extract_params_handler (route path : List UInt8) (m : RouteMatch H) :
    (extract_params route path m).handler = m.handler := by
  rw [extract_params]
  split
  · exact extract_loop_handler _ _ _ _
  · rfl

end lookup

end uvhttp.cache_match
