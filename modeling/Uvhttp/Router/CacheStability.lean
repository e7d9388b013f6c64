import Uvhttp.Router.CacheQuery
import Uvhttp.Router.CacheTable

namespace uvhttp.router_cache

open http (Method)
open router (Context Target serves)
open open_addressing

variable {H : Type} {route_hash : List UInt8 → UInt32}

section winners

/-- Whether a route is for a path and a method as it stands. -/
def literal (path : List UInt8) (method : Method) (e : HashEntry H) : Bool := e.path = path && serves e.method method

/-- Whether a route is for a path and a method as a template. -/
def template (path : List UInt8) (method : Method) (e : HashEntry H) : Bool :=
  serves e.method method && template_matches e.path path

theorem template_match_eq (entries : List (Option (HashEntry H))) (path : List UInt8) (method : Method) :
    template_match entries path method =
      ((occupants entries).filter (template path method)).head?.map HashEntry.handler := by
  rw [template_match_eq_findSome, occupants]
  induction entries.filterMap id with
  | nil => rfl
  | cons e stored ih =>
    rw [List.findSome?_cons, List.filter_cons, template]
    cases (serves e.method method && template_matches e.path path : Bool) with
    | true => rfl
    | false => exact ih

/-- The winner of a lookup: the first literal match along the probing, or the
first template in the order of the slots. -/
theorem find_in_hash_table_eq (table : HashTable H) (path : List UInt8) (method : Method) :
    find_in_hash_table route_hash table path method =
      (((chain table.entries (probe_order table.size (route_hash path))).filter (literal path method)).head? <|>
        ((occupants table.entries).filter (template path method)).head?).map HashEntry.handler := by
  rw [find_in_hash_table, exact_match_eq, template_match_eq, List.head?_filter, List.head?_filter]
  change ((List.find? (literal path method) _).map HashEntry.handler <|> _) = _
  cases List.find? (literal path method) (chain table.entries (probe_order table.size (route_hash path))) with
  | none => rfl
  | some e => rfl

theorem Sound.reaches_literal {table : HashTable H} {log : List (HashEntry H)} (h : Sound route_hash table log)
    {path : List UInt8} {method : Method} (index : Nat) (e : HashEntry H) (he : slot table.entries index = some e)
    (hliteral : literal path method e = true) :
    Reaches table.entries (probe_order table.size (route_hash path)) index := by
  have hpath : e.path = path := by
    simp only [literal, Bool.and_eq_true, decide_eq_true_eq] at hliteral
    exact hliteral.1
  rw [← hpath]
  exact h.probed.reach index e he

/-- A route that does not match is stored without any effect on a lookup. -/
theorem find_in_hash_table_set {table : HashTable H} {log : List (HashEntry H)} (h : Sound route_hash table log)
    {e : HashEntry H} {index : Nat} (hlt : index < table.entries.length) (hfree : slot table.entries index = none)
    {path : List UInt8} {method : Method} (hliteral : literal path method e = false)
    (htemplate : template path method e = false) :
    find_in_hash_table route_hash
        { table with entries := table.entries.set index (some e), count := table.count + 1 } path method =
      find_in_hash_table route_hash table path method := by
  rw [find_in_hash_table_eq, find_in_hash_table_eq]
  have hchain : (chain (table.entries.set index (some e)) (probe_order table.size (route_hash path))).filter
        (literal path method) =
      (chain table.entries (probe_order table.size (route_hash path))).filter (literal path method) ++
        if literal path method e then [e] else [] := by
    apply filter_chain_set (probe_order_nodup table.size (route_hash path)) h.reaches_literal hlt hfree
    intro hmatch
    rw [hliteral] at hmatch
    cases hmatch
  have hsize : ({ table with
      entries := table.entries.set index (some e), count := table.count + 1 } : HashTable H).size = table.size :=
    List.length_set
  rw [hsize]
  dsimp only
  rw [hchain, filter_occupants_set hfree htemplate, hliteral]
  simp

/-- In a table that has grown, the first literal match in the order of the old slots
comes first. -/
theorem find_in_hash_table_moved {table : HashTable H} {log : List (HashEntry H)} (h : Sound route_hash table log)
    {new_size : Nat} {entries : List (Option (HashEntry H))}
    (hrehash : rehash_entries route_hash (List.replicate new_size none) table.entries = some entries)
    (path : List UInt8) (method : Method) :
    find_in_hash_table route_hash { table with entries, threshold := load_threshold new_size } path method =
      (((occupants table.entries).filter (literal path method)).head? <|>
        ((occupants entries).filter (template path method)).head?).map HashEntry.handler := by
  obtain ⟨-, hlength, -, hchain⟩ := h.probed.rehash hrehash
  have hpath : ∀ e : HashEntry H, literal path method e = true → e.path = path := by
    intro e he
    simp only [literal, Bool.and_eq_true, decide_eq_true_eq] at he
    exact he.1
  rw [find_in_hash_table_eq]
  dsimp only [HashTable.size]
  rw [hlength, hchain path _ hpath]

end winners

section growth

/-- Whether a registration moves the entries of a table to a larger one. -/
def grows (table : HashTable H) : Bool :=
  table.threshold ≤ table.count && table.size < UVHTTP_ROUTER_HASH_MAX_SIZE

/-- The routes that can decide a lookup agree on its result: the first literal match
in the order of the slots, and without any literal match all the templates. -/
def Settled (table : HashTable H) (path : List UInt8) (method : Method) (h : H) : Prop :=
  match ((occupants table.entries).filter (literal path method)).head? with
  | some e => e.handler = h
  | none => ∀ e ∈ occupants table.entries, template path method e = true → e.handler = h

theorem Sound.filter_literal_eq_nil {table : HashTable H} {log : List (HashEntry H)} (h : Sound route_hash table log)
    {path : List UInt8} {method : Method} :
    (chain table.entries (probe_order table.size (route_hash path))).filter (literal path method) = [] ↔
      (occupants table.entries).filter (literal path method) = [] := by
  rw [List.filter_eq_nil_iff, List.filter_eq_nil_iff]
  constructor
  · intro hnone e he hliteral
    obtain ⟨index, hindex⟩ := mem_occupants.mp he
    exact hnone e ((h.reaches_literal index e hindex hliteral).mem_chain hindex) hliteral
  · intro hnone e he hliteral
    obtain ⟨index, -, hindex⟩ := mem_chain_slot he
    exact hnone e (mem_occupants.mpr ⟨index, hindex⟩) hliteral

theorem find_in_hash_table_eq_none {table : HashTable H} {log : List (HashEntry H)} (h : Sound route_hash table log)
    {path : List UInt8} {method : Method} :
    find_in_hash_table route_hash table path method = none ↔
      ∀ e ∈ log, literal path method e = false ∧ template path method e = false := by
  rw [find_in_hash_table_eq, Option.map_eq_none_iff, Option.orElse_eq_none, List.head?_eq_none_iff,
    List.head?_eq_none_iff, h.filter_literal_eq_nil, List.filter_eq_nil_iff, List.filter_eq_nil_iff]
  simp only [h.stored.mem_iff, Bool.not_eq_true]
  exact ⟨fun hnone e he => ⟨hnone.1 e he, hnone.2 e he⟩,
    fun hnone => ⟨fun e he => (hnone e he).1, fun e he => (hnone e he).2⟩⟩

theorem MadeRoom.find_settled {alloc : Nat → Bool} {table : HashTable H} {log : List (HashEntry H)}
    {result : UvhttpError × HashTable H} (hroom : MadeRoom route_hash alloc table result)
    (hsound : Sound route_hash table log) {path : List UInt8} {method : Method} {h : H}
    (hfind : find_in_hash_table route_hash table path method = some h)
    (hsettled : grows table = true → Settled table path method h) :
    find_in_hash_table route_hash result.2 path method = some h := by
  cases hroom with
  | kept => exact hfind
  | refused => exact hfind
  | moved hfull hgrow entries hrehash =>
    have hgrows : grows table = true := by
      rw [grows, Bool.and_eq_true, decide_eq_true_eq, decide_eq_true_eq]
      exact ⟨hfull, hgrow.trans_le (Nat.min_le_right _ _)⟩
    have hdecided := hsettled hgrows
    rw [Settled] at hdecided
    dsimp only
    rw [find_in_hash_table_moved hsound hrehash]
    cases hliteral : ((occupants table.entries).filter (literal path method)).head? with
    | some e =>
      rw [hliteral] at hdecided
      exact congrArg some hdecided
    | none =>
      rw [hliteral] at hdecided
      have hperm := (hsound.probed.rehash hrehash).2.2.1
      have hnoliteral := hsound.filter_literal_eq_nil.mpr (List.head?_eq_none_iff.mp hliteral)
      rw [find_in_hash_table_eq, hnoliteral] at hfind
      obtain ⟨winner, hwinner, -⟩ := Option.map_eq_some_iff.mp hfind
      have hmem : winner ∈ (occupants table.entries).filter (template path method) := List.mem_of_head? hwinner
      have hstill : winner ∈ (occupants entries).filter (template path method) := (hperm.filter _).mem_iff.mpr hmem
      obtain ⟨first, hfirst⟩ := Option.isSome_iff_exists.mp (List.isSome_head?.mpr (List.ne_nil_of_mem hstill))
      rw [hfirst]
      have hstored := List.mem_filter.mp (List.mem_of_head? hfirst)
      exact congrArg some (hdecided first (hperm.mem_iff.mp hstored.1) hstored.2)

end growth

section runs

theorem Grown.add_route_method {alloc : Nat → Bool} {cr cr' : CacheRouter H} {path : List UInt8} {method : Method}
    {handler : Option H} {err : UvhttpError} {log : List (HashEntry H)} (h : Grown route_hash cr.hash_table log)
    (hadd : uvhttp_router_add_route_method route_hash alloc cr path method handler = some (err, cr')) :
    ∃ log, Grown route_hash cr'.hash_table log := by
  obtain ⟨-, rfl⟩ | ⟨handler, -, hpath, -, htable, -⟩ := add_route_method_cases hadd
  · exact ⟨log, h⟩
  · exact ⟨_, h.add alloc path method handler hpath htable⟩

theorem Reachable.grown {cr : CacheRouter H} (h : Reachable route_hash cr) :
    ∃ log, Grown route_hash cr.hash_table log := by
  induction h with
  | new => exact ⟨[], .init⟩
  | add_route_method alloc path method handler h hadd ih =>
    obtain ⟨log, hlog⟩ := ih
    exact hlog.add_route_method hadd
  | add_static_route alloc prefix_path static_context h ih =>
    unfold uvhttp_router_add_static_route
    split
    · exact ih
    · split
      · exact ih
      · exact ih
  | add_fallback_route static_context h ih =>
    unfold uvhttp_router_add_fallback_route
    split
    · exact ih
    · exact ih
  | @add_binary_route cr cr' err alloc binary_route_handler path mime_type h hadd ih =>
    obtain ⟨log, hlog⟩ := ih
    have hbase : Grown route_hash { cr with static_context := some (.mime_type mime_type) }.hash_table log := hlog
    unfold uvhttp_router_add_binary_route uvhttp_router_add_route at hadd
    exact hbase.add_route_method hadd

/-- Successful registrations of routes that do not match a path and a method, each
on a table that meets a condition. -/
inductive Extended (route_hash : List UInt8 → UInt32) (path : List UInt8) (method : Method)
    (condition : HashTable H → Prop) : CacheRouter H → CacheRouter H → Prop where
  | refl (cr : CacheRouter H) : Extended route_hash path method condition cr cr
  | add {cr cr' cr'' : CacheRouter H} (alloc : Nat → Bool) (e : HashEntry H)
      (h : Extended route_hash path method condition cr cr') (hcondition : condition cr'.hash_table)
      (hliteral : literal path method e = false) (htemplate : template path method e = false)
      (hadd : uvhttp_router_add_route_method route_hash alloc cr' e.path e.method (some e.handler) = some (.OK, cr'')) :
      Extended route_hash path method condition cr cr''

theorem Extended.reachable {path : List UInt8} {method : Method} {condition : HashTable H → Prop}
    {cr cr' : CacheRouter H} (h : Extended route_hash path method condition cr cr') (hcr : Reachable route_hash cr) :
    Reachable route_hash cr' := by
  induction h with
  | refl => exact hcr
  | add alloc e h hcondition hliteral htemplate hadd ih => exact .add_route_method _ _ _ _ ih hadd

/-- A lookup in a table after one more registration that does not match it. -/
theorem find_in_hash_table_added {alloc : Nat → Bool} {table table' : HashTable H} {log : List (HashEntry H)}
    (hsound : Sound route_hash table log) {e : HashEntry H}
    (hadd : add_to_hash_table route_hash alloc table e.path e.method e.handler = some (.OK, table'))
    {path : List UInt8} {method : Method} (hliteral : literal path method e = false)
    (htemplate : template path method e = false)
    (hsettled : ∀ h, find_in_hash_table route_hash table path method = some h → grows table = true →
      Settled table path method h) :
    find_in_hash_table route_hash table' path method = find_in_hash_table route_hash table path method := by
  obtain ⟨-, room, index, hroom, hlt, hfree, -, -, rfl⟩ := add_to_hash_table_ok hsound hadd
  have hsound' : Sound route_hash room log := hroom.sound hsound
  rw [find_in_hash_table_set hsound' hlt hfree hliteral htemplate]
  cases hfind : find_in_hash_table route_hash table path method with
  | some h => exact hroom.find_settled hsound hfind (hsettled h hfind)
  | none =>
    rw [find_in_hash_table_eq_none hsound']
    exact (find_in_hash_table_eq_none hsound).mp hfind

/-- What a lookup returns, it returns also after any registrations of routes
that do not match it, if the routes that can decide it agree whenever the
table grows. -/
theorem find_handler_stable {cr : CacheRouter H} (hreachable : Reachable route_hash cr) {path method : List UInt8}
    {target : Target H} (hfind : uvhttp_router_find_handler route_hash cr path method = some target)
    {cr' : CacheRouter H}
    (h : Extended route_hash path (fast_method_parse method) (fun table =>
      grows table = true → ∀ h, target = .handler h → Settled table path (fast_method_parse method) h) cr cr') :
    uvhttp_router_find_handler route_hash cr' path method = some target := by
  induction h with
  | refl => exact hfind
  | @add cr' cr'' alloc e h hcondition hliteral htemplate hadd ih =>
    obtain ⟨log, hlog⟩ := (h.reachable hreachable).grown
    obtain ⟨herr, -⟩ | ⟨handler, hhandler, -, -, htable, hprefix, hcontext, hfallback⟩ := add_route_method_cases hadd
    · exact absurd rfl herr
    cases hhandler
    have hstatic : static_prefix_handler cr'' path = static_prefix_handler cr' path := by
      rw [static_prefix_handler, static_prefix_handler, hprefix, hcontext]
    unfold uvhttp_router_find_handler at ih ⊢
    rw [hstatic, hfallback]
    cases hcovers : static_prefix_handler cr' path with
    | true =>
      rw [hcovers] at ih
      exact ih
    | false =>
      rw [hcovers] at ih
      have hsame := find_in_hash_table_added hlog.sound htable hliteral htemplate fun h hwinner hgrows => by
        rw [hwinner] at ih
        exact hcondition hgrows h (Option.some.inj ih).symm
      rw [hsame]
      exact ih

/-- Registrations one after the other, `none` when one of them is rejected. -/
def register_all (route_hash : List UInt8 → UInt32) (cr : CacheRouter H) : List (HashEntry H) → Option (CacheRouter H)
  | [] => some cr
  | e :: routes =>
    match uvhttp_router_add_route_method route_hash (fun _ => true) cr e.path e.method (some e.handler) with
    | some (.OK, cr) => register_all route_hash cr routes
    | _ => none

theorem Reachable.register_all {cr cr' : CacheRouter H} {routes : List (HashEntry H)} (h : Reachable route_hash cr)
    (hadd : register_all route_hash cr routes = some cr') : Reachable route_hash cr' := by
  induction routes generalizing cr with
  | nil =>
    cases hadd
    exact h
  | cons e routes ih =>
    rw [router_cache.register_all] at hadd
    split at hadd
    · rename_i next hnext
      exact ih (.add_route_method _ _ _ _ h hnext) hadd
    · cases hadd

/-- 192 routes, of which two are on one path: the one for `GET` is in the last slot
and the one for every method in slot 0. -/
def wrapped_routes : List (HashEntry Bool) :=
  ⟨[47, 62], .GET, true⟩ :: ⟨[47, 62], .ANY, false⟩ :: short_routes 64 190

/-- One more route, for which the table grows. -/
theorem wrapped_routes_grow :
    ∃ cr cr' : CacheRouter Bool, register_all last_byte_hash uvhttp_router_new wrapped_routes = some cr ∧
      uvhttp_router_add_route_method last_byte_hash (fun _ => true) cr [47, 254] .GET (some true) = some (.OK, cr') ∧
      grows cr.hash_table = true ∧
      uvhttp_router_find_handler last_byte_hash cr [47, 64] (bytes "GET") = some (.handler true) ∧
      ((occupants cr.hash_table.entries).filter (literal [47, 64] .GET)).head? = some ⟨[47, 64], .GET, true⟩ ∧
      uvhttp_router_find_handler last_byte_hash cr [47, 62] (bytes "GET") = some (.handler true) ∧
      uvhttp_router_find_handler last_byte_hash cr' [47, 62] (bytes "GET") = some (.handler false) := by
  have hcomputed : (register_all last_byte_hash uvhttp_router_new wrapped_routes).any (fun cr =>
      (uvhttp_router_add_route_method last_byte_hash (fun _ => true) cr [47, 254] .GET (some true)).any
        (fun result => result.1 = .OK &&
          (grows cr.hash_table &&
          (uvhttp_router_find_handler last_byte_hash cr [47, 64] (bytes "GET") = some (.handler true) &&
          (((occupants cr.hash_table.entries).filter (literal [47, 64] .GET)).head? =
            some ⟨[47, 64], .GET, true⟩ &&
          (uvhttp_router_find_handler last_byte_hash cr [47, 62] (bytes "GET") = some (.handler true) &&
          uvhttp_router_find_handler last_byte_hash result.2 [47, 62] (bytes "GET") = some (.handler false))))))) =
      true := by
    decide +kernel
  simp only [Option.any_eq_true, Bool.and_eq_true, decide_eq_true_eq] at hcomputed
  obtain ⟨cr, hcr, ⟨err, cr'⟩, hadd, rfl, hrest⟩ := hcomputed
  exact ⟨cr, cr', hcr, hadd, hrest⟩

/-- A route that is alone on its path is found also in the larger table. -/
theorem find_handler_stable_grown :
    ∃ cr cr' : CacheRouter Bool, register_all last_byte_hash uvhttp_router_new wrapped_routes = some cr ∧
      uvhttp_router_add_route_method last_byte_hash (fun _ => true) cr [47, 254] .GET (some true) = some (.OK, cr') ∧
      grows cr.hash_table = true ∧
      uvhttp_router_find_handler last_byte_hash cr' [47, 64] (bytes "GET") = some (.handler true) := by
  obtain ⟨cr, cr', hcr, hadd, hgrows, hfind, hfirst, -⟩ := wrapped_routes_grow
  refine ⟨cr, cr', hcr, hadd, hgrows, ?_⟩
  apply find_handler_stable (Reachable.new.register_all hcr) hfind
  refine (Extended.refl cr).add (fun _ => true) ⟨[47, 254], .GET, true⟩ ?_ (by decide) (by decide) hadd
  intro _ h htarget
  cases htarget
  unfold Settled
  rw [show fast_method_parse (bytes "GET") = .GET by decide, hfirst]

/-- The two routes on one path change places when the table grows. -/
theorem find_handler_flips :
    ∃ cr cr' : CacheRouter Bool, Reachable last_byte_hash cr ∧
      uvhttp_router_find_handler last_byte_hash cr [47, 62] (bytes "GET") = some (.handler true) ∧
      Extended last_byte_hash [47, 62] (fast_method_parse (bytes "GET")) (fun _ => True) cr cr' ∧
      uvhttp_router_find_handler last_byte_hash cr' [47, 62] (bytes "GET") = some (.handler false) := by
  obtain ⟨cr, cr', hcr, hadd, -, -, -, hfind, hflipped⟩ := wrapped_routes_grow
  refine ⟨cr, cr', Reachable.new.register_all hcr, hfind, ?_, hflipped⟩
  exact (Extended.refl cr).add (fun _ => true) ⟨[47, 254], .GET, true⟩ trivial (by decide) (by decide) hadd

end runs

end uvhttp.router_cache
