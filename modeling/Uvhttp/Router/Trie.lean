import Uvhttp.Lib.TrieContents
import Uvhttp.Router.AddRoute

namespace uvhttp.router

open http (Method)
open ordered_trie

variable {H : Type} {alloc : Nat → Bool}

section insertion

theorem create_branch_eq {value : Method × H} {pool : Pool} {label : Label (List UInt8)}
    {labels : List (Label (List UInt8))} (h : (create_branch alloc value pool label labels).2.2 = true) :
    (create_branch alloc value pool label labels).1 = Forest.chain stored_label value label labels := by
  induction labels generalizing pool label with
  | nil =>
    rw [create_branch] at h ⊢
    cases hnode : create_route_node alloc pool with
    | none => simp [hnode] at h
    | some next => rfl
  | cons next labels ih =>
    rw [create_branch] at h ⊢
    cases hnode : create_route_node alloc pool with
    | none => simp [hnode] at h
    | some grown =>
      rw [hnode] at h
      exact congrArg (Forest.cons (stored_label label) none · .nil) (ih h)

/-- A path for which there is room is inserted. -/
theorem insert_path_eq {value : Method × H} {pool : Pool} {seen : Nat} {f : Forest (List UInt8) (Method × H)}
    {label : Label (List UInt8)} {labels : List (Label (List UInt8))}
    (h : (insert_path alloc value pool seen f label labels).2.2 = true) :
    (insert_path alloc value pool seen f label labels).1 = f.insert stored_label value label labels := by
  induction f generalizing pool seen label labels with
  | nil =>
    rw [insert_path] at h ⊢
    split at h
    · cases h
    · rename_i hroom
      rw [if_neg hroom]
      exact create_branch_eq h
  | cons first old children siblings ihchildren ihsiblings =>
    rw [insert_path.eq_def] at h ⊢
    rw [Forest.insert.eq_def]
    dsimp only at h ⊢
    by_cases hsame : first.name = label.name
    · rw [if_pos hsame] at h
      rw [if_pos hsame, if_pos hsame]
      cases labels with
      | nil => rfl
      | cons next labels => exact congrArg (Forest.cons first old · siblings) (ihchildren h)
    · rw [if_neg hsame] at h
      rw [if_neg hsame, if_neg hsame]
      exact congrArg (Forest.cons first old children ·) (ihsiblings h)

end insertion

section registration

/-- A route that `uvhttp_router_add_route_method` does not reject. -/
structure ValidRoute (r : ArrayRoute H) : Prop where
  not_empty : r.path.length ≠ 0
  length : r.path.length < MAX_ROUTE_PATH_LEN
  no_query : QUESTION_MARK ∉ r.path

variable (alloc) in
/-- Registrations that all return `UVHTTP_OK`. -/
def add_all : Router H → List (ArrayRoute H) → Option (Router H)
  | router, [] => some router
  | router, r :: rs =>
    match uvhttp_router_add_route_method alloc router r.path r.method (some r.handler) with
    | some (.OK, router) => add_all router rs
    | _ => none

/-- The routes for which a router turns to its trie. -/
def InTrie (rs : List (ArrayRoute H)) : Prop := HYBRID_THRESHOLD < rs.length ∨ ∃ r ∈ rs, COLON ∈ r.path

variable (alloc) in
/-- The router after successful registrations: all routes in the array, or all in
the trie. -/
inductive Reached (rs : List (ArrayRoute H)) (router : Router H) : Prop where
  | array (hmode : ¬ InTrie rs) (hrouter : router = { uvhttp_router_new with array_routes := .routes rs })
  | trie (hmode : InTrie rs) (hroom : (migrate_routes alloc uvhttp_router_new.trie rs).2 = true)
      (hrouter : router = { uvhttp_router_new with
        use_trie := true, trie := (migrate_routes alloc uvhttp_router_new.trie rs).1 })

theorem migrate_routes_append {trie : Trie H} {rs : List (ArrayRoute H)}
    (h : (migrate_routes alloc trie rs).2 = true) (r : ArrayRoute H) :
    migrate_routes alloc trie (rs ++ [r]) =
      add_to_trie alloc (r.method, r.handler) (migrate_routes alloc trie rs).1 r.path := by
  induction rs generalizing trie with
  | nil =>
    change (if !(add_to_trie alloc (r.method, r.handler) trie r.path).2 then
      ((add_to_trie alloc (r.method, r.handler) trie r.path).1, false)
      else ((add_to_trie alloc (r.method, r.handler) trie r.path).1, true)) =
        add_to_trie alloc (r.method, r.handler) trie r.path
    cases add_to_trie alloc (r.method, r.handler) trie r.path with
    | mk added ok =>
      cases ok with
      | true => rfl
      | false => rfl
  | cons first rs ih =>
    rw [migrate_routes] at h
    rw [List.cons_append, migrate_routes, migrate_routes]
    cases hadded : (add_to_trie alloc (first.method, first.handler) trie first.path).2 with
    | false => simp [hadded] at h
    | true =>
      simp only [hadded, Bool.not_true, Bool.false_eq_true, if_false] at h ⊢
      exact ih h

theorem InTrie.append {rs : List (ArrayRoute H)} (h : InTrie rs) (r : ArrayRoute H) : InTrie (rs ++ [r]) := by
  rcases h with hlong | ⟨q, hq, hcolon⟩
  · left
    rw [List.length_append]
    exact hlong.trans_le (Nat.le_add_right _ _)
  · exact .inr ⟨q, List.mem_append_left _ hq, hcolon⟩

theorem reached_trie {rs : List (ArrayRoute H)} {router router' : Router H} {r : ArrayRoute H}
    (hmode : InTrie (rs ++ [r])) (hroom : (migrate_routes alloc uvhttp_router_new.trie rs).2 = true)
    (hrouter : router = { uvhttp_router_new with
      use_trie := true, trie := (migrate_routes alloc uvhttp_router_new.trie rs).1 })
    (hadd : add_trie_route alloc router r.path r.method r.handler = (.OK, router')) :
    Reached alloc (rs ++ [r]) router' := by
  subst hrouter
  have happend := migrate_routes_append hroom r
  unfold add_trie_route at hadd
  dsimp only at hadd
  rw [← happend] at hadd
  obtain ⟨hok, hrouter'⟩ := Prod.mk.inj hadd
  refine .trie hmode ?_ hrouter'.symm
  by_contra hfull
  rw [if_neg hfull] at hok
  cases hok

theorem ValidCall.route {r : ArrayRoute H} (h : ValidCall r.path (some r.handler)) : ValidRoute r :=
  ⟨h.not_empty, h.length, h.no_query⟩

theorem reached_add {rs : List (ArrayRoute H)} {router router' : Router H} {r : ArrayRoute H}
    (h : Reached alloc rs router)
    (hadd : uvhttp_router_add_route_method alloc router r.path r.method (some r.handler) = some (.OK, router')) :
    ValidRoute r ∧ Reached alloc (rs ++ [r]) router' := by
  generalize hresult : (UvhttpError.OK, router') = result at hadd
  cases registered_of_call hadd with
  | rejected hinvalid => cases hresult
  | stranded hvalid hmode harray hmigrates hfull => cases hresult
  | trie hvalid hused =>
    refine ⟨hvalid.route, ?_⟩
    cases h with
    | array hmode hrouter =>
      rw [hrouter] at hused
      cases hused
    | trie hmode hroom hrouter => exact reached_trie (hmode.append r) hroom hrouter hresult.symm
  | @migrated _ hvalid hunused entries harray hmigrates hroom =>
    refine ⟨hvalid.route, ?_⟩
    cases h with
    | trie hmode _ hrouter =>
      rw [hrouter] at hunused
      cases hunused
    | array hmode hrouter =>
      subst hrouter
      obtain rfl := ArrayTable.routes.inj harray
      have hintrie : InTrie (rs ++ [r]) := by
        rcases hmigrates with hcolon | hfull
        · exact .inr ⟨r, by simp, hcolon⟩
        · left
          rw [List.length_append]
          exact Nat.lt_succ_of_le hfull
      exact reached_trie hintrie hroom rfl hresult.symm
  | @array _ hvalid hunused entries harray hstays =>
    refine ⟨hvalid.route, ?_⟩
    cases h with
    | trie hmode _ hrouter =>
      rw [hrouter] at hunused
      cases hunused
    | array hmode hrouter =>
      subst hrouter
      obtain rfl := ArrayTable.routes.inj harray
      have hpath : r.path.take (MAX_ROUTE_PATH_LEN - 1) = r.path :=
        List.take_of_length_le (Nat.le_sub_one_of_lt hvalid.length)
      unfold Migrates at hstays
      push Not at hstays
      rw [hpath] at hresult
      cases hresult
      refine .array ?_ rfl
      rintro (hlong | ⟨q, hq, hcolon⟩)
      · rw [List.length_append, List.length_singleton] at hlong
        omega
      · rcases List.mem_append.mp hq with hold | hnew
        · exact hmode (.inr ⟨q, hold, hcolon⟩)
        · exact hstays.1 (List.mem_singleton.mp hnew ▸ hcolon)

/-- What successful registrations lead to. -/
theorem reached_of_add_all {rs : List (ArrayRoute H)} {router : Router H}
    (h : add_all alloc uvhttp_router_new rs = some router) :
    Reached alloc rs router ∧ ∀ r ∈ rs, ValidRoute r := by
  have hstart : Reached alloc [] (uvhttp_router_new : Router H) := .array (by simp [InTrie]) rfl
  have hmore : ∀ (rs before : List (ArrayRoute H)) (start : Router H), Reached alloc before start →
      add_all alloc start rs = some router → Reached alloc (before ++ rs) router ∧ ∀ r ∈ rs, ValidRoute r := by
    intro rs
    induction rs with
    | nil =>
      intro before start hreached hadd
      rw [List.append_nil]
      exact ⟨Option.some.inj hadd ▸ hreached, nofun⟩
    | cons r rs ih =>
      intro before start hreached hadd
      rw [add_all] at hadd
      split at hadd
      · rename_i next hnext
        obtain ⟨hvalid, hnext⟩ := reached_add hreached hnext
        obtain ⟨hfinal, hrest⟩ := ih (before ++ [r]) next hnext hadd
        rw [List.append_assoc] at hfinal
        exact ⟨hfinal, List.forall_mem_cons.mpr ⟨hvalid, hrest⟩⟩
      · cases hadd
  exact hmore rs [] uvhttp_router_new hstart h

end registration

section contents

/-- A route as an entry of the trie. -/
def route_entry (r : ArrayRoute H) : Entry (List UInt8) (Method × H) := (route_labels r.path, (r.method, r.handler))

/-- All segments of a route fit into a node. -/
def ShortSegments (r : ArrayRoute H) : Prop := ∀ label ∈ route_labels r.path, label.name.length < SEGMENT_DATA_SIZE

theorem stored_label_short {label : Label (List UInt8)} (h : label.name.length < SEGMENT_DATA_SIZE) :
    stored_label label = label := if_pos h

/-- The trie holds the routes, inserted in their order. -/
structure Built (trie : Trie H) (rs : List (ArrayRoute H)) : Prop where
  root : trie.root = ending (rs.map route_entry)
  children : Represents trie.children (branches (rs.map route_entry)) (rs.map route_entry)

theorem built_add {trie : Trie H} {rs : List (ArrayRoute H)} (h : Built trie rs) {r : ArrayRoute H}
    (hshort : ShortSegments r) (hroom : (add_to_trie alloc (r.method, r.handler) trie r.path).2 = true) :
    Built (add_to_trie alloc (r.method, r.handler) trie r.path).1 (rs ++ [r]) := by
  have hentry : (rs ++ [r]).map route_entry =
      rs.map route_entry ++ [(route_labels r.path, (r.method, r.handler))] := by
    rw [List.map_append]
    rfl
  unfold add_to_trie at hroom ⊢
  unfold ShortSegments at hshort
  cases hlabels : route_labels r.path with
  | nil =>
    rw [hlabels] at hentry
    refine ⟨?_, ?_⟩
    · rw [hentry, ending_append_end]
    · rw [hentry, branches_append_end]
      exact h.children.congr fun b _ => (under_append_end _ _ _).symm
  | cons label labels =>
    rw [hlabels] at hentry hroom hshort
    have hinserted := (insert_path_eq hroom).trans
      (Forest.insert_congr (fun l hl => stored_label_short (hshort l hl)) (r.method, r.handler) trie.children)
    refine ⟨?_, ?_⟩
    · rw [hentry, ending_append]
      exact h.root
    · dsimp only
      rw [hentry, branches_append, hinserted]
      refine h.children.insert (branches_nodup _) _ fun hnone => ?_
      by_contra hsome
      obtain ⟨l, hl, hname⟩ := mem_branches.mpr hsome
      exact hnone (by simpa using ⟨l, hl, hname⟩)

theorem built_migrate {rs : List (ArrayRoute H)} (hshort : ∀ r ∈ rs, ShortSegments r)
    (hroom : (migrate_routes alloc (uvhttp_router_new : Router H).trie rs).2 = true) :
    Built (migrate_routes alloc (uvhttp_router_new : Router H).trie rs).1 rs := by
  have hmore : ∀ (rs before : List (ArrayRoute H)) (trie : Trie H), Built trie before →
      (∀ r ∈ rs, ShortSegments r) → (migrate_routes alloc trie rs).2 = true →
      Built (migrate_routes alloc trie rs).1 (before ++ rs) := by
    intro rs
    induction rs with
    | nil =>
      intro before trie hbuilt _ _
      rw [List.append_nil]
      exact hbuilt
    | cons r rs ih =>
      intro before trie hbuilt hshort hroom
      rw [migrate_routes] at hroom ⊢
      cases hadded : (add_to_trie alloc (r.method, r.handler) trie r.path).2 with
      | false => simp [hadded] at hroom
      | true =>
        simp only [hadded, Bool.not_true, Bool.false_eq_true, if_false] at hroom ⊢
        have hnext := built_add hbuilt (hshort r List.mem_cons_self) hadded
        have hfinal := ih (before ++ [r]) _ hnext (fun q hq => hshort q (List.mem_cons_of_mem _ hq)) hroom
        rwa [List.append_assoc] at hfinal
  exact hmore rs [] _ ⟨rfl, trivial⟩ hshort hroom

/-- A lookup in the trie finds what the routes answer. -/
theorem match_route_node_eq {trie : Trie H} {rs : List (ArrayRoute H)} (h : Built trie rs)
    (segments : List (List UInt8)) (method : Method) :
    match_route_node trie segments method = answer (node_handler method) (rs.map route_entry) segments := by
  cases segments with
  | nil =>
    rw [match_route_node, h.root]
    rfl
  | cons segment segments => exact h.children.find_eq (node_handler method) segment segments

end contents

end uvhttp.router
