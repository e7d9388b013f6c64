import Uvhttp.Router.AddRoute

namespace uvhttp

open http (Method)
open ordered_trie

variable {H : Type}

section search

/-- Two searches through a list agree if the first element that either of them
takes gives both the same. -/
theorem findSome_congr_first {α β : Type} {f g : α → Option β} {l : List α}
    (h : ∀ a, l.find? (fun a => (f a).isSome || (g a).isSome) = some a → f a = g a) :
    l.findSome? f = l.findSome? g := by
  induction l with
  | nil => rfl
  | cons a l ih =>
    rw [List.findSome?_cons, List.findSome?_cons]
    cases hfirst : (f a).isSome || (g a).isSome with
    | true =>
      have hsame : f a = g a := h a (by rw [List.find?_cons, hfirst])
      rw [hsame] at hfirst ⊢
      obtain ⟨b, hb⟩ := Option.isSome_iff_exists.mp ((Bool.or_self _).symm.trans hfirst)
      rw [hb]
    | false =>
      obtain ⟨hf, hg⟩ := Bool.or_eq_false_iff.mp hfirst
      have hfnone : f a = none := by simpa using hf
      have hgnone : g a = none := by simpa using hg
      rw [hfnone, hgnone]
      refine ih fun b hb => h b ?_
      rw [List.find?_cons, hfirst]
      exact hb

/-- Conversely, two searches that find the same, each element its own value, take
the same element first. -/
theorem eq_of_findSome_eq {α β : Type} {f g : α → Option β} {value : α → β} {l : List α}
    (hf : ∀ a b, f a = some b → b = value a) (hg : ∀ a b, g a = some b → b = value a) (hdistinct : (l.map value).Nodup)
    (hsame : l.findSome? f = l.findSome? g) {a : α}
    (ha : l.find? (fun a => (f a).isSome || (g a).isSome) = some a) : f a = g a := by
  induction l with
  | nil => cases ha
  | cons first l ih =>
    rw [List.map_cons, List.nodup_cons] at hdistinct
    rw [List.findSome?_cons, List.findSome?_cons] at hsame
    rw [List.find?_cons] at ha
    have hlater : ∀ h : α → Option β, (∀ a b, h a = some b → b = value a) → some (value first) ≠ l.findSome? h := by
      intro h hh heq
      obtain ⟨other, hother, hvalue⟩ := List.exists_of_findSome?_eq_some heq.symm
      exact hdistinct.1 (hh other _ hvalue ▸ List.mem_map_of_mem hother)
    cases hfirst : f first with
    | none =>
      cases hsecond : g first with
      | none =>
        rw [hfirst, hsecond] at hsame ha
        exact ih hdistinct.2 hsame ha
      | some b =>
        rw [hfirst, hsecond, hg first b hsecond] at hsame
        exact absurd hsame.symm (hlater f hf)
    | some b =>
      rw [hfirst] at hsame ha
      cases Option.some.inj ha
      rw [hfirst]
      cases hsecond : g a with
      | none =>
        rw [hsecond, hf a b hfirst] at hsame
        exact absurd hsame (hlater g hg)
      | some b' => rw [hf a b hfirst, hg a b' hsecond]

end search

namespace router

/-- The routers that calls of the registration functions lead to, also of calls
that fail. -/
inductive Reachable : Router H → Prop where
  | new : Reachable uvhttp_router_new
  | add_route_method {router router' : Router H} {err : UvhttpError} (alloc : Nat → Bool) (path : List UInt8)
      (method : Method) (handler : Option H) (h : Reachable router)
      (hadd : uvhttp_router_add_route_method alloc router path method handler = some (err, router')) :
      Reachable router'
  | add_static_route {router : Router H} (alloc : Nat → Bool) (prefix_path : List UInt8)
      (static_context : Option Context) (h : Reachable router) :
      Reachable (uvhttp_router_add_static_route alloc router prefix_path static_context).2
  | add_fallback_route {router : Router H} (static_context : Option Context) (h : Reachable router) :
      Reachable (uvhttp_router_add_fallback_route router static_context).2
  | add_binary_route {router router' : Router H} {err : UvhttpError} (alloc : Nat → Bool) (binary_route_handler : H)
      (path mime_type : List UInt8) (h : Reachable router)
      (hadd : uvhttp_router_add_binary_route alloc binary_route_handler router path mime_type = some (err, router')) :
      Reachable router'

/-- No path in the route array contains a question mark. -/
def NoQuery (router : Router H) : Prop :=
  ∀ entries, router.array_routes = .routes entries → ∀ r ∈ entries, QUESTION_MARK ∉ r.path

theorem no_query_add {alloc : Nat → Bool} {router router' : Router H} {path : List UInt8} {method : Method}
    {handler : Option H} {err : UvhttpError} (h : NoQuery router)
    (hadd : uvhttp_router_add_route_method alloc router path method handler = some (err, router')) :
    NoQuery router' := by
  generalize hresult : (err, router') = result at hadd
  cases registered_of_call hadd with
  | rejected hinvalid =>
    cases hresult
    exact h
  | trie hvalid hmode =>
    cases hresult
    exact h
  | stranded hvalid hmode harray hmigrates hfull =>
    cases hresult
    intro kept hkept
    cases hkept
  | migrated hvalid hmode harray hmigrates hroom =>
    cases hresult
    intro kept hkept r hr
    cases hkept
    cases hr
  | @array handler hvalid hmode entries harray hstays =>
    cases hresult
    intro kept hkept r hr
    cases hkept
    rcases List.mem_append.mp hr with hold | hnew
    · exact h entries harray r hold
    · rw [List.mem_singleton.mp hnew]
      exact fun hmem => hvalid.no_query (List.mem_of_mem_take hmem)

theorem Reachable.no_query {router : Router H} (h : Reachable router) : NoQuery router := by
  induction h with
  | new =>
    intro entries hentries
    cases hentries
    exact nofun
  | add_route_method alloc path method handler h hadd ih => exact no_query_add ih hadd
  | add_static_route alloc prefix_path static_context h ih =>
    unfold uvhttp_router_add_static_route
    split
    · exact ih
    · split
      · exact ih
      · exact ih
  | add_fallback_route static_context h ih =>
    unfold uvhttp_router_add_fallback_route
    split
    · exact ih
    · exact ih
  | @add_binary_route router router' err alloc binary_route_handler path mime_type h hadd ih =>
    have hbase : NoQuery { router with static_context := some (.mime_type mime_type) } := ih
    unfold uvhttp_router_add_binary_route uvhttp_router_add_route at hadd
    exact no_query_add hbase hadd

/-- The routes of a trie in the order in which a lookup meets them. -/
def trie_routes (trie : Trie H) : List (List (Label (List UInt8)) × (Method × H)) :=
  trie.root.toList.map ([], ·) ++ trie.children.entries

theorem match_route_node_eq_findSome (trie : Trie H) (segments : List (List UInt8)) (method : Method) :
    match_route_node trie segments method =
      (trie_routes trie).findSome? fun e => if accepts_all e.1 segments then node_handler method e.2 else none := by
  rw [trie_routes, List.findSome?_append]
  cases segments with
  | nil =>
    have hbelow : (trie.children.entries.findSome? fun e =>
        if accepts_all e.1 ([] : List (List UInt8)) then node_handler method e.2 else none) = none := by
      rw [List.findSome?_eq_none_iff]
      intro e he
      obtain ⟨label, labels, hlabels⟩ := List.exists_cons_of_ne_nil (Forest.entries_ne_nil he)
      simp [hlabels, accepts_all]
    rw [hbelow, match_route_node]
    cases trie.root with
    | none => rfl
    | some value => simp [accepts_all]
  | cons segment segments =>
    rw [match_route_node, Forest.find_eq_findSome]
    cases trie.root with
    | none => rfl
    | some value => simp [accepts_all]

/-- The first route that serves the method and is open to either of two paths is
open to both. -/
def OpenAlike (trie : Trie H) (method : Method) (path path' : List UInt8) : Prop :=
  ∀ e ∈ (trie_routes trie).find? (fun e => serves e.2.1 method &&
      (accepts_all e.1 (path_segments path) || accepts_all e.1 (path_segments path'))),
    accepts_all e.1 (path_segments path) = true ∧ accepts_all e.1 (path_segments path') = true

/-- The search for one path, entry by entry. -/
def try_route (method : Method) (path : List UInt8) (e : List (Label (List UInt8)) × (Method × H)) : Option H :=
  if accepts_all e.1 (path_segments path) then node_handler method e.2 else none

theorem try_route_isSome (method : Method) (path path' : List UInt8) :
    (fun e : List (Label (List UInt8)) × (Method × H) =>
      (try_route method path e).isSome || (try_route method path' e).isSome) =
    fun e => serves e.2.1 method &&
      (accepts_all e.1 (path_segments path) || accepts_all e.1 (path_segments path')) := by
  funext e
  unfold try_route node_handler
  cases serves e.2.1 method with
  | false => simp
  | true =>
    cases accepts_all e.1 (path_segments path) with
    | false => cases accepts_all e.1 (path_segments path') <;> rfl
    | true => cases accepts_all e.1 (path_segments path') <;> rfl

theorem match_route_node_alike {trie : Trie H} {method : Method} {path path' : List UInt8}
    (h : OpenAlike trie method path path') :
    match_route_node trie (path_segments path) method = match_route_node trie (path_segments path') method := by
  rw [match_route_node_eq_findSome, match_route_node_eq_findSome]
  refine findSome_congr_first fun e he => ?_
  change (trie_routes trie).find? (fun e => (try_route method path e).isSome || (try_route method path' e).isSome) =
    some e at he
  rw [try_route_isSome] at he
  obtain ⟨hopen, hopen'⟩ := h e he
  rw [hopen, hopen']

theorem open_alike_of_match_eq {trie : Trie H} {method : Method} {path path' : List UInt8}
    (hdistinct : ((trie_routes trie).map fun e => e.2.2).Nodup)
    (hsame : match_route_node trie (path_segments path) method = match_route_node trie (path_segments path') method) :
    OpenAlike trie method path path' := by
  intro e he
  have hvalue : ∀ path (e : List (Label (List UInt8)) × (Method × H)) handler, try_route method path e = some handler →
      handler = e.2.2 := by
    intro path e handler hfound
    simp only [try_route, node_handler] at hfound
    split at hfound
    · split at hfound
      · exact (Option.some.inj hfound).symm
      · cases hfound
    · cases hfound
  rw [match_route_node_eq_findSome, match_route_node_eq_findSome] at hsame
  have hserves := List.find?_some he
  rw [← try_route_isSome] at he
  have htried : try_route method path e = try_route method path' e :=
    eq_of_findSome_eq (hvalue path) (hvalue path') hdistinct hsame he
  simp only [Bool.and_eq_true, Bool.or_eq_true] at hserves
  simp only [try_route, node_handler, hserves.1, if_true] at htried
  rcases hserves.2 with hopen | hopen
  · refine ⟨hopen, ?_⟩
    by_contra hclosed
    simp [hopen, hclosed] at htried
  · refine ⟨?_, hopen⟩
    by_contra hclosed
    simp [hopen, hclosed] at htried

/-- Nothing in a router tells two paths apart, of which the second may have a
query: the static prefix takes both or neither, and if it takes neither, no route
of the array is for the first, or the first route of the trie that is open to one
is open to both. -/
structure Unnoticed (router : Router H) (method : Method) (path path' : List UInt8) : Prop where
  static : static_covers router path' = static_covers router path
  array : static_covers router path = false → router.use_trie = false →
    ∃ entries, router.array_routes = .routes entries ∧
      ∀ r ∈ entries, serves r.method method = true → r.path ≠ path
  trie : static_covers router path = false → router.use_trie = true → OpenAlike router.trie method path path'

theorem find_array_route_eq_none {entries : List (ArrayRoute H)} {method : Method} {path : List UInt8} :
    find_array_route entries path method = none ↔ ∀ r ∈ entries, serves r.method method = true → r.path ≠ path := by
  rw [find_array_route, Option.map_eq_none_iff, List.find?_eq_none]
  simp

theorem Reachable.find_array_route_query {router : Router H} (h : Reachable router) {entries : List (ArrayRoute H)}
    (harray : router.array_routes = .routes entries) {path : List UInt8} (hquery : QUESTION_MARK ∈ path)
    (method : Method) : find_array_route entries path method = none := by
  refine find_array_route_eq_none.mpr fun r hr _ heq => ?_
  exact h.no_query entries harray r hr (heq ▸ hquery)

/-- What a lookup makes of the route that was found. -/
def found_target (router : Router H) : Option H → Option (Target H)
  | some handler => some (.handler handler)
  | none => if router.fallback_context.isSome then some .static_file_handler_wrapper else none

theorem found_target_inj {router : Router H} {found found' : Option H}
    (h : found_target router found = found_target router found') : found = found' := by
  unfold found_target at h
  cases found with
  | none =>
    cases found' with
    | none => rfl
    | some handler =>
      dsimp only at h
      split at h
      · cases h
      · cases h
  | some handler =>
    cases found' with
    | none =>
      dsimp only at h
      split at h
      · cases h
      · cases h
    | some handler' =>
      cases h
      rfl

theorem find_handler_uncovered {router : Router H} {path : List UInt8} (h : static_covers router path = false)
    (method : Method) :
    uvhttp_router_find_handler router path (uvhttp_method_to_string method) =
      (find_route router path method).map (found_target router) := by
  rw [uvhttp_router_find_handler, h, uvhttp_method_from_to_string]
  cases find_route router path method with
  | none => rfl
  | some found =>
    cases found with
    | none => rfl
    | some handler => rfl

/-- A lookup that does not notice a query. -/
theorem find_handler_unnoticed {router : Router H} (hreachable : Reachable router) {method : Method}
    {path path' : List UInt8} (hpath' : path' = path ∨ QUESTION_MARK ∈ path')
    (h : Unnoticed router method path path') :
    ∃ found, uvhttp_router_find_handler router path (uvhttp_method_to_string method) = some found ∧
      uvhttp_router_find_handler router path' (uvhttp_method_to_string method) = some found := by
  cases hcovers : static_covers router path with
  | true =>
    refine ⟨some .static_file_handler_wrapper, ?_, ?_⟩
    · rw [uvhttp_router_find_handler, hcovers, if_pos rfl]
    · rw [uvhttp_router_find_handler, h.static.trans hcovers, if_pos rfl]
  | false =>
    rw [find_handler_uncovered hcovers, find_handler_uncovered (h.static.trans hcovers)]
    cases hmode : router.use_trie with
    | true =>
      refine ⟨_, by rw [find_route, hmode, if_pos rfl, Option.map_some], ?_⟩
      rw [find_route, hmode, if_pos rfl, Option.map_some, match_route_node_alike (h.trie hcovers hmode)]
    | false =>
      obtain ⟨entries, harray, habsent⟩ := h.array hcovers hmode
      have hnone := find_array_route_eq_none.mpr habsent
      have hnone' : find_array_route entries path' method = none := by
        rcases hpath' with rfl | hquery
        · exact hnone
        · exact hreachable.find_array_route_query harray hquery method
      refine ⟨found_target router none, ?_, ?_⟩
      · simp [find_route, hmode, harray, hnone]
      · simp [find_route, hmode, harray, hnone']

/-- A lookup that returns the same with a query has not noticed it, when the
routes of the trie have different handlers. -/
theorem unnoticed_of_find_handler {router : Router H} (hreachable : Reachable router) {method : Method}
    {path path' : List UInt8} (hquery : QUESTION_MARK ∈ path')
    (hstatic : static_covers router path' = static_covers router path)
    (hdistinct : ((trie_routes router.trie).map fun e => e.2.2).Nodup) {found : Option (Target H)}
    (hfound : uvhttp_router_find_handler router path (uvhttp_method_to_string method) = some found)
    (hfound' : uvhttp_router_find_handler router path' (uvhttp_method_to_string method) = some found) :
    Unnoticed router method path path' := by
  have hroutes : static_covers router path = false →
      ∃ r, find_route router path method = some r ∧ find_route router path' method = some r := by
    intro hcovers
    rw [find_handler_uncovered hcovers] at hfound
    rw [find_handler_uncovered (hstatic.trans hcovers)] at hfound'
    obtain ⟨r, hr, htarget⟩ := Option.map_eq_some_iff.mp hfound
    obtain ⟨r', hr', htarget'⟩ := Option.map_eq_some_iff.mp hfound'
    exact ⟨r, hr, by rw [hr', found_target_inj (htarget.trans htarget'.symm)]⟩
  refine ⟨hstatic, fun hcovers hmode => ?_, fun hcovers hmode => ?_⟩
  · obtain ⟨r, hr, hr'⟩ := hroutes hcovers
    cases harray : router.array_routes with
    | released => simp [find_route, hmode, harray] at hr
    | routes entries =>
      refine ⟨entries, rfl, find_array_route_eq_none.mp ?_⟩
      simp only [find_route, hmode, harray, Bool.false_eq_true, if_false, Option.some.injEq] at hr hr'
      rw [hr, ← hr']
      exact hreachable.find_array_route_query harray hquery method
  · obtain ⟨r, hr, hr'⟩ := hroutes hcovers
    simp only [find_route, hmode, if_true, Option.some.injEq] at hr hr'
    exact open_alike_of_match_eq hdistinct (hr.trans hr'.symm)

end router

end uvhttp
