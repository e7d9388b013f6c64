import Uvhttp.Router.Registration

namespace uvhttp.router

open http (Method)
open ordered_trie

variable {H : Type} {alloc : Nat → Bool}

section slashes

theorem split_slash_ne_nil (path : List UInt8) : split_slash path ≠ [] := by
  cases path with
  | nil => exact List.cons_ne_nil _ _
  | cons c rest =>
    rw [split_slash]
    split
    · exact List.cons_ne_nil _ _
    · split
      · exact List.cons_ne_nil _ _
      · exact List.cons_ne_nil _ _

theorem split_slash_append_slash (path : List UInt8) : split_slash (path ++ [SLASH]) = split_slash path ++ [[]] := by
  induction path with
  | nil => rfl
  | cons c rest ih =>
    rw [List.cons_append, split_slash, split_slash, ih]
    obtain ⟨piece, pieces, hpieces⟩ := List.exists_cons_of_ne_nil (split_slash_ne_nil rest)
    rw [hpieces]
    split
    · rfl
    · rfl

theorem strtok_append_slashes (path : List UInt8) (k : Nat) :
    strtok (path ++ List.replicate k SLASH) = strtok path := by
  induction k with
  | zero => rw [List.replicate_zero, List.append_nil]
  | succ k ih =>
    rw [List.replicate_succ', ← List.append_assoc, strtok, split_slash_append_slash, List.filter_append]
    change strtok _ ++ [] = _
    rw [List.append_nil, ih]

/-- Slashes behind a path do not change its segments, however many they are. -/
theorem path_segments_append_slashes {path : List UInt8} (h : path.length < MAX_ROUTE_PATH_LEN) (k : Nat) :
    path_segments (path ++ List.replicate k SLASH) = path_segments path := by
  have hfits : path.length ≤ MAX_ROUTE_PATH_LEN - 1 := Nat.le_sub_one_of_lt h
  have hcopy : path_copy path = path := List.take_of_length_le hfits
  have hlonger : path_copy (path ++ List.replicate k SLASH) =
      path ++ List.replicate (min (MAX_ROUTE_PATH_LEN - 1 - path.length) k) SLASH := by
    rw [path_copy, List.take_append, List.take_of_length_le hfits, List.take_replicate]
  rw [path_segments, hlonger, strtok_append_slashes, path_segments, hcopy]

end slashes

section literal

/-- A label that a route without parameters leaves in the trie. -/
def Literal (label : Label (List UInt8)) : Prop := label.wildcard = false ∧ label.name.length < SEGMENT_DATA_SIZE

theorem literal_stored {label : Label (List UInt8)} (h : label.wildcard = false) : Literal (stored_label label) := by
  unfold stored_label
  split
  · rename_i hshort
    exact ⟨h, hshort⟩
  · refine ⟨h, ?_⟩
    rw [List.length_take]
    exact (Nat.min_le_left _ _).trans_lt (by decide)

theorem mem_route_labels_free {path : List UInt8} (hfree : COLON ∉ path) {label : Label (List UInt8)}
    (h : label ∈ route_labels path) : label.wildcard = false := by
  rw [route_labels_free hfree] at h
  obtain ⟨segment, -, rfl⟩ := List.mem_map.mp h
  rfl

theorem literal_add {trie : Trie H} (h : trie.children.All Literal) {r : ArrayRoute H} (hfree : COLON ∉ r.path)
    (hroom : (add_to_trie alloc (r.method, r.handler) trie r.path).2 = true) :
    (add_to_trie alloc (r.method, r.handler) trie r.path).1.children.All Literal := by
  have hlabels : ∀ label ∈ route_labels r.path, Literal (stored_label label) :=
    fun label hlabel => literal_stored (mem_route_labels_free hfree hlabel)
  unfold add_to_trie at hroom ⊢
  cases hroute : route_labels r.path with
  | nil => exact h
  | cons label labels =>
    rw [hroute] at hroom hlabels
    dsimp only
    rw [insert_path_eq hroom]
    exact Forest.all_insert h hlabels _

theorem literal_migrate {trie : Trie H} (h : trie.children.All Literal) {rs : List (ArrayRoute H)}
    (hfree : ∀ r ∈ rs, COLON ∉ r.path) (hroom : (migrate_routes alloc trie rs).2 = true) :
    (migrate_routes alloc trie rs).1.children.All Literal := by
  induction rs generalizing trie with
  | nil => exact h
  | cons r rs ih =>
    rw [migrate_routes] at hroom ⊢
    cases hadded : (add_to_trie alloc (r.method, r.handler) trie r.path).2 with
    | false => simp [hadded] at hroom
    | true =>
      simp only [hadded, Bool.not_true, Bool.false_eq_true, if_false] at hroom ⊢
      exact ih (literal_add h (hfree r List.mem_cons_self) hadded) (fun q hq => hfree q (List.mem_cons_of_mem _ hq))
        hroom

/-- A segment that no node can hold is not found among literals. -/
theorem match_route_node_long {trie : Trie H} (h : trie.children.All Literal) {segments : List (List UInt8)}
    {segment : List UInt8} (hsegment : segment ∈ segments) (hlong : ¬ segment.length < SEGMENT_DATA_SIZE)
    (method : Method) : match_route_node trie segments method = none := by
  cases segments with
  | nil => cases hsegment
  | cons first rest =>
    refine Forest.find_eq_none_of_mem (h.imp fun label hlabel => ?_) hsegment
    have hname : label.name ≠ segment := fun heq => hlong (heq ▸ hlabel.2)
    simp [Label.accepts, hlabel.1, hname]

/-- The names under which the segments of a route are stored. -/
def stored_segments (path : List UInt8) : List (List UInt8) :=
  (route_labels path).map fun label => (stored_label label).name

/-- The stored segments of a route just added find something. -/
theorem match_route_node_stored {trie : Trie H} (h : trie.children.All Literal) {r : ArrayRoute H}
    (hroom : (add_to_trie alloc (r.method, r.handler) trie r.path).2 = true) :
    (match_route_node (add_to_trie alloc (r.method, r.handler) trie r.path).1 (stored_segments r.path)
      r.method).isSome = true := by
  have hserve : (node_handler r.method (r.method, r.handler)).isSome = true := by simp [node_handler, serves]
  unfold add_to_trie at hroom ⊢
  unfold stored_segments
  cases hroute : route_labels r.path with
  | nil => exact hserve
  | cons label labels =>
    rw [hroute] at hroom
    have hkeeps : trie.children.All fun old => ∀ l : Label (List UInt8), old.name = l.name →
        (stored_label l).name = l.name := by
      refine h.imp fun old hold l hname => ?_
      rw [stored_label_short (hname ▸ hold.2)]
    dsimp only
    rw [insert_path_eq hroom]
    exact Forest.find_insert_isSome hserve hkeeps label labels

theorem stored_segments_short {r : ArrayRoute H} (hfree : COLON ∉ r.path) (hshort : ShortSegments r) :
    stored_segments r.path = path_segments r.path := by
  rw [← names_route_labels_free hfree]
  exact List.map_congr_left fun label hlabel => congrArg Label.name (stored_label_short (hshort label hlabel))

end literal

section transparency

theorem migrate_routes_room {trie : Trie H} {rs : List (ArrayRoute H)} {r : ArrayRoute H}
    (h : (migrate_routes alloc trie (rs ++ [r])).2 = true) : (migrate_routes alloc trie rs).2 = true := by
  induction rs generalizing trie with
  | nil => rfl
  | cons first rs ih =>
    rw [List.cons_append, migrate_routes] at h
    rw [migrate_routes]
    cases hadded : (add_to_trie alloc (first.method, first.handler) trie first.path).2 with
    | false => simp [hadded] at h
    | true =>
      simp only [hadded, Bool.not_true, Bool.false_eq_true, if_false] at h ⊢
      exact ih h

/-- No array holds a path of the length of a path buffer. -/
theorem find_array_route_long {rs : List (ArrayRoute H)} (hvalid : ∀ r ∈ rs, ValidRoute r) {path : List UInt8}
    (hlong : MAX_ROUTE_PATH_LEN ≤ path.length) (method : Method) : find_array_route rs path method = none := by
  rw [find_array_route, Option.map_eq_none_iff, List.find?_eq_none]
  intro r hr
  have hne : r.path ≠ path := fun heq => (hvalid r hr).length.not_ge (heq ▸ hlong)
  simp [hne]

theorem find_array_route_mem {rs : List (ArrayRoute H)} {r : ArrayRoute H} (hr : r ∈ rs) :
    (find_array_route rs r.path r.method).isSome = true := by
  rw [find_array_route, Option.isSome_map, List.find?_isSome]
  exact ⟨r, hr, by simp [serves]⟩

/-- After a successful migration the last route of the array is found under a
path under which it was not, or no longer found. -/
theorem migration_visible {rs : List (ArrayRoute H)} {r : ArrayRoute H} {trie : Trie H}
    (htrie : trie.children.All Literal) (hvalid : ∀ q ∈ rs ++ [r], ValidRoute q)
    (hfree : ∀ q ∈ rs ++ [r], COLON ∉ q.path) (hroom : (migrate_routes alloc trie (rs ++ [r])).2 = true) :
    ∃ path, match_route_node (migrate_routes alloc trie (rs ++ [r])).1 (path_segments path) r.method ≠
      find_array_route (rs ++ [r]) path r.method := by
  have hr : r ∈ rs ++ [r] := List.mem_append_right _ (List.mem_singleton_self r)
  have hbefore := migrate_routes_room hroom
  by_cases hshort : ShortSegments r
  · refine ⟨r.path ++ List.replicate MAX_ROUTE_PATH_LEN SLASH, ?_⟩
    have hliteral : (migrate_routes alloc trie rs).1.children.All Literal :=
      literal_migrate htrie (fun q hq => hfree q (List.mem_append_left _ hq)) hbefore
    rw [migrate_routes_append hbefore r] at hroom ⊢
    have hfound := match_route_node_stored hliteral hroom
    rw [stored_segments_short (hfree r hr) hshort] at hfound
    rw [path_segments_append_slashes (hvalid r hr).length, find_array_route_long hvalid (by simp)]
    exact Option.isSome_iff_ne_none.mp hfound
  · refine ⟨r.path, ?_⟩
    obtain ⟨label, hlabel, hlong⟩ : ∃ label ∈ route_labels r.path, ¬ label.name.length < SEGMENT_DATA_SIZE := by
      by_contra hnone
      push Not at hnone
      exact hshort hnone
    have hsegment : label.name ∈ path_segments r.path := by
      rw [← names_route_labels_free (hfree r hr)]
      exact List.mem_map_of_mem hlabel
    rw [match_route_node_long (literal_migrate htrie hfree hroom) hsegment hlong]
    exact (Option.isSome_iff_ne_none.mp (find_array_route_mem hr)).symm

theorem uvhttp_router_find_handler_plain {router : Router H} (hstatic : router.static_prefix = none)
    (hfallback : router.fallback_context = none) (path method : List UInt8) :
    uvhttp_router_find_handler router path method =
      (find_route router path (uvhttp_method_from_string method)).map fun found => found.map Target.handler := by
  have hcovers : static_covers router path = false := by rw [static_covers, hstatic]
  rw [uvhttp_router_find_handler, hcovers, hfallback]
  cases find_route router path (uvhttp_method_from_string method) with
  | none => rfl
  | some found =>
    cases found with
    | none => rfl
    | some handler => rfl

theorem map_handler_inj {found other : Option H} (h : found.map Target.handler = other.map Target.handler) :
    found = other :=
  Option.map_injective (fun _ _ heq => Target.handler.inj heq) h

/-- For a router in array mode, `migrate_to_trie` keeps what every lookup returns
only as long as no route has been registered. -/
theorem migration_transparent_iff {entries : List (ArrayRoute H)} {router : Router H}
    (hadd : add_all alloc uvhttp_router_new entries = some router) (harray : router.use_trie = false)
    (alloc' : Nat → Bool) :
    (∀ path method, uvhttp_router_find_handler (migrate_to_trie alloc' router entries).2 path method =
      uvhttp_router_find_handler router path method) ↔ entries = [] := by
  obtain ⟨hreached, hvalid⟩ := reached_of_add_all hadd
  cases hreached with
  | trie hmode hroom hrouter =>
    rw [hrouter] at harray
    cases harray
  | array hmode hrouter =>
    have hfree : ∀ q ∈ entries, COLON ∉ q.path := fun q hq hcolon => hmode (.inr ⟨q, hq, hcolon⟩)
    have hbefore : ∀ path method, uvhttp_router_find_handler router path method =
        some ((find_array_route entries path (uvhttp_method_from_string method)).map Target.handler) := by
      intro path method
      rw [hrouter, uvhttp_router_find_handler_plain rfl rfl]
      rfl
    have hafter : ∀ path method, uvhttp_router_find_handler (migrate_to_trie alloc' router entries).2 path method =
        if (migrate_routes alloc' uvhttp_router_new.trie entries).2 then
          some ((match_route_node (migrate_routes alloc' uvhttp_router_new.trie entries).1 (path_segments path)
            (uvhttp_method_from_string method)).map Target.handler)
        else none := by
      intro path method
      rw [hrouter, migrate_to_trie]
      cases (migrate_routes alloc' (uvhttp_router_new : Router H).trie entries).2 with
      | false => exact uvhttp_router_find_handler_plain rfl rfl path method
      | true => exact uvhttp_router_find_handler_plain rfl rfl path method
    simp only [hbefore, hafter]
    refine ⟨fun hsame => ?_, fun hnone path method => ?_⟩
    · rcases List.eq_nil_or_concat' entries with hnil | ⟨rs, r, rfl⟩
      · exact hnil
      exfalso
      cases hroom : (migrate_routes alloc' (uvhttp_router_new : Router H).trie (rs ++ [r])).2 with
      | false =>
        have hfreed := hsame [] []
        rw [hroom] at hfreed
        cases hfreed
      | true =>
        have hempty : (uvhttp_router_new : Router H).trie.children.All Literal := trivial
        obtain ⟨path, hvisible⟩ := migration_visible hempty hvalid hfree hroom
        have hpath := hsame path (uvhttp_method_to_string r.method)
        rw [hroom, if_pos rfl, uvhttp_method_from_to_string] at hpath
        exact hvisible (map_handler_inj (Option.some.inj hpath))
    · subst hnone
      have hempty : match_route_node (uvhttp_router_new : Router H).trie (path_segments path)
          (uvhttp_method_from_string method) = none := by
        cases path_segments path with
        | nil => rfl
        | cons segment segments => rfl
      rw [migrate_routes, hempty]
      rfl

/-- A router without routes, and one with a single route. -/
theorem migration_transparent_new :
    let router : Router Nat := uvhttp_router_new
    let registered : Router Nat := { uvhttp_router_new with array_routes := .routes [⟨bytes "/a", .GET, 1⟩] }
    (∀ path method, uvhttp_router_find_handler (migrate_to_trie (fun _ => true) router []).2 path method =
      uvhttp_router_find_handler router path method) ∧
    ¬ ∀ path method, uvhttp_router_find_handler
        (migrate_to_trie (fun _ => true) registered [⟨bytes "/a", .GET, 1⟩]).2 path method =
      uvhttp_router_find_handler registered path method := by
  intro router registered
  have hadd : add_all (fun _ => true) uvhttp_router_new [⟨bytes "/a", .GET, 1⟩] = some registered := rfl
  have hnew : add_all (fun _ => true) uvhttp_router_new [] = some router := rfl
  refine ⟨(migration_transparent_iff hnew rfl _).mpr rfl, fun hsame => ?_⟩
  exact List.cons_ne_nil _ _ ((migration_transparent_iff hadd rfl _).mp hsame)

/-- Two methods on one path: the migration loses the first. -/
theorem migration_loses_method :
    let entries : List (ArrayRoute Nat) := [⟨bytes "/a", .GET, 1⟩, ⟨bytes "/a", .POST, 2⟩]
    let router : Router Nat := { uvhttp_router_new with array_routes := .routes entries }
    add_all (fun _ => true) uvhttp_router_new entries = some router ∧
      (migrate_to_trie (fun _ => true) router entries).1 = .OK ∧
      uvhttp_router_find_handler router (bytes "/a") (bytes "GET") = some (some (.handler 1)) ∧
      uvhttp_router_find_handler (migrate_to_trie (fun _ => true) router entries).2 (bytes "/a") (bytes "GET") =
        some none := by
  intro entries router
  exact ⟨rfl, by decide, by decide, by decide⟩

end transparency

end uvhttp.router
