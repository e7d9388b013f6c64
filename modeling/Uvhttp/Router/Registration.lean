import Uvhttp.Router.RecordedLookup
import Uvhttp.Router.Trie

namespace uvhttp.router

open http (Method)
open ordered_trie
open router_match (ParamNames WithinParams find_handler_iff)

variable {H : Type}

section segments

theorem mem_split_slash {path piece : List UInt8} (hpiece : piece ∈ split_slash path) {c : UInt8} (hc : c ∈ piece) :
    c ∈ path ∧ c ≠ SLASH := by
  induction path generalizing piece c with
  | nil =>
    rw [split_slash, List.mem_singleton] at hpiece
    rw [hpiece] at hc
    cases hc
  | cons first rest ih =>
    rw [split_slash] at hpiece
    split at hpiece
    · rcases List.mem_cons.mp hpiece with rfl | hrest
      · cases hc
      · exact ⟨List.mem_cons_of_mem _ (ih hrest hc).1, (ih hrest hc).2⟩
    · rename_i hfirst
      split at hpiece
      · rw [List.mem_singleton] at hpiece
        rw [hpiece, List.mem_singleton] at hc
        rw [hc]
        exact ⟨List.mem_cons_self, hfirst⟩
      · rename_i head tail hrest
        have hinner : ∀ p ∈ head :: tail, ∀ d ∈ p, d ∈ first :: rest ∧ d ≠ SLASH := by
          intro p hp d hd
          rw [← hrest] at hp
          exact ⟨List.mem_cons_of_mem _ (ih hp hd).1, (ih hp hd).2⟩
        rcases List.mem_cons.mp hpiece with rfl | hlater
        · rcases List.mem_cons.mp hc with rfl | hc
          · exact ⟨List.mem_cons_self, hfirst⟩
          · exact hinner head List.mem_cons_self c hc
        · exact hinner piece (List.mem_cons_of_mem _ hlater) c hc

theorem mem_path_segments {path segment : List UInt8} (hsegment : segment ∈ path_segments path) :
    segment ≠ [] ∧ ∀ c ∈ segment, c ∈ path ∧ c ≠ SLASH := by
  unfold path_segments strtok at hsegment
  obtain ⟨hpiece, hne⟩ := List.mem_filter.mp hsegment
  refine ⟨by simpa using hne, fun c hc => ?_⟩
  obtain ⟨hcopy, hslash⟩ := mem_split_slash hpiece hc
  exact ⟨List.mem_of_mem_take hcopy, hslash⟩

/-- The labels of a path without parameters are its segments. -/
theorem route_labels_free {path : List UInt8} (hfree : COLON ∉ path) :
    route_labels path = (path_segments path).map fun segment => ⟨segment, false⟩ := by
  refine List.map_congr_left fun segment hsegment => ?_
  rw [route_label, if_neg]
  intro hcolon
  exact hfree ((mem_path_segments hsegment).2 COLON (List.mem_of_mem_head? hcolon)).1

theorem names_route_labels_free {path : List UInt8} (hfree : COLON ∉ path) :
    names (route_labels path) = path_segments path := by
  rw [route_labels_free hfree, names, List.map_map]
  exact List.map_id _

end segments

section kept

/-- In the array: a route that is registered for every method comes after those
of the same path that have another handler. -/
def NotPreempted (rs : List (ArrayRoute H)) : Prop :=
  ∀ before r after, rs = before ++ r :: after →
    ∀ q ∈ before, q.path = r.path → q.method = .ANY → q.handler = r.handler

/-- In the trie: all segments fit into a node, and for each route without
parameters the last one registered with its segments answers it alike, as do the
routes that overtake it. -/
structure KeptApart (rs : List (ArrayRoute H)) : Prop where
  short : ∀ r ∈ rs, ShortSegments r
  unreplaced : ∀ r ∈ rs, COLON ∉ r.path →
    ((latest (rs.map route_entry) (path_segments r.path)).bind fun q => node_handler r.method q.2) = some r.handler
  not_overtaken : ∀ r ∈ rs, COLON ∉ r.path → ∀ found ns q,
    Overtaker (node_handler r.method) (rs.map route_entry) (path_segments r.path) found ns q → found = r.handler

instance [DecidableEq H] (rs : List (ArrayRoute H)) : Decidable (KeptApart rs) :=
  decidable_of_iff
    ((∀ r ∈ rs, ∀ label ∈ route_labels r.path, label.name.length < SEGMENT_DATA_SIZE) ∧
      (∀ r ∈ rs, COLON ∉ r.path →
        ((latest (rs.map route_entry) (path_segments r.path)).bind fun q => node_handler r.method q.2) =
          some r.handler) ∧
      ∀ r ∈ rs, COLON ∉ r.path → ∀ q ∈ rs.map route_entry,
        latest (rs.map route_entry) (names q.1) = some q → names q.1 ≠ path_segments r.path →
        Accepts (rs.map route_entry) (names q.1) (path_segments r.path) →
        Overtakes (rs.map route_entry) (names q.1) (path_segments r.path) →
        ∀ found ∈ node_handler r.method q.2, found = r.handler)
    ⟨fun ⟨hshort, hunreplaced, hovertaken⟩ => ⟨hshort, hunreplaced, fun r hr hfree =>
        overtakers_agree_iff.mpr (hovertaken r hr hfree)⟩,
      fun h => ⟨h.short, h.unreplaced, fun r hr hfree => overtakers_agree_iff.mp (h.not_overtaken r hr hfree)⟩⟩

theorem find_array_route_kept {rs : List (ArrayRoute H)}
    (hdistinct : (rs.map fun r => (r.path, r.method)).Nodup) (hkept : NotPreempted rs) {r : ArrayRoute H}
    (hr : r ∈ rs) : find_array_route rs r.path r.method = some r.handler := by
  obtain ⟨before, after, hsplit⟩ := List.append_of_mem hr
  rw [hsplit, List.map_append, List.nodup_append] at hdistinct
  rw [find_array_route, hsplit, List.find?_append]
  cases hbefore : before.find? fun route => serves route.method r.method && route.path = r.path with
  | none => simp [serves]
  | some q =>
    have hq := List.mem_of_find?_eq_some hbefore
    have hserves := List.find?_some hbefore
    simp only [serves, Bool.and_eq_true, Bool.or_eq_true, decide_eq_true_eq] at hserves
    obtain ⟨hmethod, hpath⟩ := hserves
    have hany : q.method = .ANY := by
      refine hmethod.resolve_right fun hsame => ?_
      exact hdistinct.2.2 (q.path, q.method) (List.mem_map_of_mem hq) (r.path, r.method) (by simp)
        (by rw [hpath, hsame])
    exact congrArg some (hkept before r after hsplit q hq hpath hany)

theorem match_route_node_kept {rs : List (ArrayRoute H)} {trie : Trie H} (hbuilt : Built trie rs)
    (hkept : KeptApart rs) {r : ArrayRoute H} (hr : r ∈ rs) (hfree : COLON ∉ r.path) :
    match_route_node trie (path_segments r.path) r.method = some r.handler := by
  obtain ⟨q, hlatest, hserve⟩ := Option.bind_eq_some_iff.mp (hkept.unreplaced r hr hfree)
  obtain ⟨found, hfound, hwho⟩ := answer_latest hlatest hserve
  rw [match_route_node_eq hbuilt, hfound]
  rcases hwho with rfl | ⟨ns, q, hovertaker⟩
  · rfl
  · exact congrArg some (hkept.not_overtaken r hr hfree found ns q hovertaker)

/-- No registered route is lost. After registrations that all succeed and are
for different pairs of path and method, each path without parameters leads, with
its method, to the handler it was registered with: in the array if no route for
every method preempts it, in the trie if the routes are kept apart and the search
meets no more parameters than its match holds. -/
theorem registered_route_found (names : ParamNames) {alloc : Nat → Bool} {rs : List (ArrayRoute H)} {router : Router H}
    (hadd : add_all alloc uvhttp_router_new rs = some router)
    (hdistinct : (rs.map fun r => (r.path, r.method)).Nodup)
    (hkept : ¬ InTrie rs ∧ NotPreempted rs ∨ InTrie rs ∧ KeptApart rs) {r : ArrayRoute H} (hr : r ∈ rs)
    (hfree : COLON ∉ r.path) (hwithin : WithinParams router r.method r.path) :
    router_match.uvhttp_router_find_handler names router r.path (uvhttp_method_to_string r.method) =
      some (some (.handler r.handler)) := by
  obtain ⟨hreached, -⟩ := reached_of_add_all hadd
  rw [find_handler_iff, uvhttp_method_from_to_string]
  refine ⟨?_, fun _ => hwithin⟩
  unfold uvhttp_router_find_handler
  rw [uvhttp_method_from_to_string]
  cases hreached with
  | array hmode hrouter =>
    have hpreempted : NotPreempted rs := hkept.elim (fun h => h.2) fun h => absurd h.1 hmode
    have hfound := find_array_route_kept hdistinct hpreempted hr
    rw [hrouter]
    simp [static_covers, find_route, uvhttp_router_new, hfound]
  | trie hmode hroom hrouter =>
    have hapart : KeptApart rs := hkept.elim (fun h => absurd hmode h.1) fun h => h.2
    have hfound := match_route_node_kept (built_migrate hapart.short hroom) hapart hr hfree
    rw [hrouter]
    simp only [uvhttp_router_new] at hfound
    simp [static_covers, find_route, uvhttp_router_new, hfound]

/-- Routes with and without parameters that are kept apart. -/
theorem registered_route_found_users :
    let rs : List (ArrayRoute Nat) := [⟨bytes "/users/me", .GET, 1⟩, ⟨bytes "/users/:id", .GET, 2⟩,
      ⟨bytes "/users", .POST, 3⟩]
    ∃ router, add_all (fun _ => true) uvhttp_router_new rs = some router ∧
      router_match.uvhttp_router_find_handler (fun _ => []) router (bytes "/users/me") (bytes "GET") =
        some (some (.handler 1)) := by
  intro rs
  have hrun : ((add_all (fun _ => true) uvhttp_router_new rs).map fun router =>
      decide (WithinParams router .GET (bytes "/users/me"))) = some true := by decide +kernel
  obtain ⟨router, hadd, hwithin⟩ := Option.map_eq_some_iff.mp hrun
  have hkept : KeptApart rs := by decide +kernel
  refine ⟨router, hadd, ?_⟩
  exact registered_route_found (fun _ => []) hadd (by decide)
    (.inr ⟨.inr ⟨_, List.mem_cons_of_mem _ List.mem_cons_self, by decide⟩, hkept⟩) (List.mem_cons_self) (by decide)
    (of_decide_eq_true hwithin)

/-- A route whose path is registered again for another method: in the trie the
node keeps only the second. -/
theorem registered_route_lost :
    let rs : List (ArrayRoute Nat) := [⟨bytes "/a", .GET, 1⟩, ⟨bytes "/a", .POST, 2⟩, ⟨bytes "/b/:x", .GET, 3⟩]
    (rs.map fun r => (r.path, r.method)).Nodup ∧
      ∃ router, add_all (fun _ => true) uvhttp_router_new rs = some router ∧
        router_match.uvhttp_router_find_handler (fun _ => []) router (bytes "/a") (bytes "GET") = some none := by
  intro rs
  have hlost : ((add_all (fun _ => true) uvhttp_router_new rs).map fun router =>
      router_match.uvhttp_router_find_handler (fun _ => []) router (bytes "/a") (bytes "GET")) = some (some none) := by
    decide +kernel
  exact ⟨by decide, Option.map_eq_some_iff.mp hlost⟩

end kept

end uvhttp.router
