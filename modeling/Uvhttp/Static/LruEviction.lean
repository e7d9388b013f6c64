import Uvhttp.Static.LruPut

namespace uvhttp.lru_cache

open linked_list
open eviction (Evicts Evicted Frees)

variable {cache : CacheManager} {nodes : List Node}

section victims

/-- Whether the priority of an entry is below the threshold. -/
def below_threshold (cache : CacheManager) (n : Node) : Bool := n.2.priority < cache.min_priority_threshold

/-- The removal of an entry with the lowest priority of those below the threshold, the
last one in the list if there are several. There is none only if no entry is below the
threshold. -/
inductive Picks (cache : CacheManager) (nodes : List Node) : Option Nat × CacheManager → Prop where
  | lowest (before : List Node) (n : Node) (after : List Node) (lru : Chain) (hnodes : nodes = before ++ n :: after)
      (hbelow : below_threshold cache n = true)
      (hlowest : ∀ m ∈ nodes, below_threshold cache m = true → n.2.priority ≤ m.2.priority)
      (hlast : ∀ m ∈ after, below_threshold cache m = true → m.2.priority ≠ n.2.priority)
      (hlist : Threads lru ((before ++ after).map Prod.fst)) : Picks cache nodes (some n.1, { cache with lru })
  | none (hall : ∀ n ∈ nodes, below_threshold cache n = false) : Picks cache nodes (none, cache)

/-- The removal of the last entry below the threshold. -/
inductive PicksLast (cache : CacheManager) (nodes : List Node) : Option Nat × CacheManager → Prop where
  | last (before : List Node) (n : Node) (after : List Node) (lru : Chain) (hnodes : nodes = before ++ n :: after)
      (hbelow : below_threshold cache n = true) (hlast : ∀ m ∈ after, below_threshold cache m = false)
      (hlist : Threads lru ((before ++ after).map Prod.fst)) : PicksLast cache nodes (some n.1, { cache with lru })
  | none (hall : ∀ n ∈ nodes, below_threshold cache n = false) : PicksLast cache nodes (none, cache)

/-- The last entry below the threshold has the lowest priority. -/
def LastIsLowest (cache : CacheManager) (nodes : List Node) : Prop :=
  ∀ n, (nodes.filter (below_threshold cache)).getLast? = some n →
    ∀ m ∈ nodes, below_threshold cache m = true → n.2.priority ≤ m.2.priority

theorem evictable_of_enabled (h : cache.enable_priority_eviction = true) :
    evictable cache = below_threshold cache := by
  funext n
  rw [evictable, below_threshold, h, Bool.true_and, ← decide_not]
  exact decide_eq_decide.mpr Int.not_le

theorem Listed.picks_last (h : Listed cache nodes) (henabled : cache.enable_priority_eviction = true) :
    ∃ result, uvhttp_lru_cache_remove_lowest_priority cache = some result ∧ PicksLast cache nodes result := by
  obtain ⟨n, left, lru, hevicts, hremove, hlist⟩ | ⟨hremove, hall⟩ := h.remove_lowest_priority
  · rw [evictable_of_enabled henabled] at hevicts
    cases hevicts with
    | last before _ after hbelow hafter => exact ⟨_, hremove, .last before n after lru rfl hbelow hafter hlist⟩
  · rw [evictable_of_enabled henabled] at hall
    exact ⟨_, hremove, .none hall⟩

theorem PicksLast.picks_iff {result : Option Nat × CacheManager} (h : PicksLast cache nodes result)
    (hnodup : (nodes.map Prod.fst).Nodup) : Picks cache nodes result ↔ LastIsLowest cache nodes := by
  cases h with
  | last before n after lru hnodes hbelow hlast hlist =>
    have hevicts := Evicts.last before n after hbelow hlast
    rw [← hnodes] at hevicts
    constructor
    · intro hpicks m hm
      rw [hevicts.getLast_filter] at hm
      cases hm
      generalize hresult : ((some n.1, { cache with lru }) : Option Nat × CacheManager) = result at hpicks
      cases hpicks with
      | lowest before' m after' lru' hnodes' hbelow' hlowest hleast hlist' =>
        have haddress : n.1 = m.1 := Option.some.inj (congrArg Prod.fst hresult)
        have hsame : n = m := List.inj_on_of_nodup_map hnodup hevicts.mem.1 (by rw [hnodes']; simp) haddress
        rw [hsame]
        exact hlowest
      | none hall => cases congrArg Prod.fst hresult
    · intro hlowest
      refine .lowest before n after lru hnodes hbelow (hlowest n hevicts.getLast_filter) (fun m hm hfree => ?_) hlist
      rw [hlast m hm] at hfree
      cases hfree
  | none hall =>
    refine iff_of_true (.none hall) fun n hn => ?_
    obtain ⟨hmem, hbelow⟩ := List.mem_filter.mp (List.mem_of_getLast? hn)
    rw [hall n hmem] at hbelow
    cases hbelow

/-- `uvhttp_lru_cache_remove_lowest_priority` takes the last entry below the threshold
off the list and leaves the others in their order, or returns NULL if there is none.
That is the entry with the lowest priority exactly if no other below the threshold has a
lower one. -/
theorem remove_lowest_priority_picks_iff (h : Listed cache nodes) (henabled : cache.enable_priority_eviction = true) :
    ∃ result, uvhttp_lru_cache_remove_lowest_priority cache = some result ∧ PicksLast cache nodes result ∧
      (Picks cache nodes result ↔ LastIsLowest cache nodes) := by
  obtain ⟨result, hremove, hpicks⟩ := h.picks_last henabled
  exact ⟨result, hremove, hpicks, hpicks.picks_iff h.list.nodup⟩

/-- Two entries, of which the one at the end of the list has the higher priority. -/
def two_priorities : List Op :=
  [.put ⟨0, some 1, true⟩ (small_file (bytes "/a")), .set_entry_priority 0 (bytes "/a") 5,
    .put ⟨0, some 2, true⟩ (small_file (bytes "/b")), .setting (.enable_priority_eviction true)]

theorem remove_lowest_priority_picks_two :
    ∃ cache nodes result, run_new exceeds_exact Safe 1000000 10 5 two_priorities = some cache ∧ Listed cache nodes ∧
      uvhttp_lru_cache_remove_lowest_priority cache = some result ∧ PicksLast cache nodes result := by
  have hcomputed : (run_new exceeds_exact Safe 1000000 10 5 two_priorities).any
      (fun cache => cache.enable_priority_eviction) = true := by
    decide +kernel
  obtain ⟨cache, hcache, henabled⟩ := (Option.any_eq_true _ _).mp hcomputed
  obtain ⟨nodes, hnodes⟩ := (run_of_run_new hcache).holds
  obtain ⟨result, hremove, hpicks, -⟩ := remove_lowest_priority_picks_iff hnodes.listed henabled
  exact ⟨cache, nodes, result, hcache, hnodes.listed, hremove, hpicks⟩

/-- The entry with the priority 5 is taken, and not the one with 0. -/
theorem lowest_priority_not_picked :
    ∃ cache nodes, Run exceeds_exact Safe cache ∧ cache.enable_priority_eviction = true ∧ Listed cache nodes ∧
      ¬∃ result, uvhttp_lru_cache_remove_lowest_priority cache = some result ∧ Picks cache nodes result := by
  have hcomputed : (run_new exceeds_exact Safe 1000000 10 5 two_priorities).any (fun cache =>
      cache.enable_priority_eviction = true ∧ cache.hash_table = [1, 2] ∧ cache.min_priority_threshold = 128 ∧
      (uvhttp_lru_cache_remove_lowest_priority cache).map Prod.fst = some (some 1) ∧
      (cache.entries 1).map CacheEntry.priority = some 5 ∧ (cache.entries 2).map CacheEntry.priority = some 0) = true := by
    decide +kernel
  simp only [Option.any_eq_true, decide_eq_true_eq] at hcomputed
  obtain ⟨cache, hcache, henabled, htable, hthreshold, htaken, hfirst, hsecond⟩ := hcomputed
  have hrun := run_of_run_new hcache
  obtain ⟨nodes, hnodes⟩ := hrun.holds
  refine ⟨cache, nodes, hrun, henabled, hnodes.listed, ?_⟩
  rintro ⟨result, hremove, hpicks⟩
  have hmem : 2 ∈ nodes.map Prod.fst := hnodes.table.mem_iff.mp (by rw [htable]; decide)
  obtain ⟨m, hm, hm_address⟩ := List.mem_map.mp hmem
  rw [← hm_address, hnodes.entry m hm] at hsecond
  have hm_priority : m.2.priority = 0 := Option.some.inj hsecond
  have hm_below : below_threshold cache m = true := by
    rw [below_threshold, hm_priority, hthreshold]
    rfl
  rw [hremove] at htaken
  cases hpicks with
  | lowest before n after lru hsplit hbelow hlowest hlast hlist =>
    have hn_address : n.1 = 1 := Option.some.inj (Option.some.inj htaken)
    have hn : n ∈ nodes := by
      rw [hsplit]
      simp
    rw [← hn_address, hnodes.entry n hn] at hfirst
    have hn_priority : n.2.priority = 5 := Option.some.inj hfirst
    have hle := hlowest m hm hm_below
    rw [hn_priority, hm_priority] at hle
    exact absurd hle (by decide)
  | none hall => cases Option.some.inj htaken

end victims

section termination

variable {exceeds : Exceeds}

/-- The eviction loop of a `put`, if it comes to that, ends. -/
def LoopEnds (exceeds : Exceeds) (cache : CacheManager) (request : PutRequest) : Prop :=
  ¬TooLarge cache request → ∃ fuel, (evict_loop exceeds (entry_usage request) fuel cache).isSome = true

/-- Rounds of the loop that are all followed by another. -/
inductive Rounds (exceeds : Exceeds) (memory_usage : UInt64) : Nat → CacheManager → CacheManager → Prop where
  | refl (cache : CacheManager) : Rounds exceeds memory_usage 0 cache cache
  | next {n : Nat} {cache cache₁ cache' : CacheManager} (hneeds : needs_room exceeds cache memory_usage = true)
      (htail : cache.lru.tail ≠ none)
      (hbatch : evict_batch exceeds memory_usage cache.batch_eviction_size cache = some cache₁)
      (hlater : Rounds exceeds memory_usage n cache₁ cache') : Rounds exceeds memory_usage (n + 1) cache cache'

/-- A round after which evictions still come to no end. -/
theorem Holds.round_of_not_frees (h : Holds cache nodes) {memory_usage : UInt64}
    (hnever : ¬Frees (evictable cache) (crowded exceeds memory_usage cache) nodes) :
    needs_room exceeds cache memory_usage = true ∧ cache.lru.tail ≠ none ∧
      ∃ cache₁ kept, lru_cache.evict_batch exceeds memory_usage cache.batch_eviction_size cache = some cache₁ ∧
        Holds cache₁ kept ∧ ¬Frees (evictable cache₁) (crowded exceeds memory_usage cache₁) kept := by
  obtain ⟨hcrowded, hne⟩ := eviction.not_frees hnever
  refine ⟨(h.needs_room_eq exceeds memory_usage).trans hcrowded, ?_, ?_⟩
  · rw [h.list.tail, ne_eq, List.getLast?_eq_none_iff, List.map_eq_nil_iff]
    exact hne
  · obtain ⟨cache₁, n, kept, hbatch, hkept, hconfig, hevicted, -⟩ :=
      @Holds.evict_batch cache nodes exceeds memory_usage h cache.batch_eviction_size
    refine ⟨cache₁, kept, hbatch, hkept, ?_⟩
    rw [evictable_of_config hconfig, crowded_of_config hconfig]
    exact fun hfrees => hnever (hevicted.frees_iff.mpr hfrees)

theorem Holds.rounds_of_not_frees (h : Holds cache nodes) {memory_usage : UInt64}
    (hnever : ¬Frees (evictable cache) (crowded exceeds memory_usage cache) nodes) (n : Nat) :
    ∃ cache', Rounds exceeds memory_usage n cache cache' := by
  induction n generalizing cache nodes with
  | zero => exact ⟨cache, .refl cache⟩
  | succ n ih =>
    obtain ⟨hneeds, htail, cache₁, kept, hbatch, hkept, hnever₁⟩ := h.round_of_not_frees hnever
    obtain ⟨cache', hrounds⟩ := ih hkept hnever₁
    exact ⟨cache', .next hneeds htail hbatch hrounds⟩

/-- After as many rounds as the fuel allows the loop has no result. -/
theorem Rounds.evict_loop_eq_none {memory_usage : UInt64} {n : Nat} {cache' : CacheManager}
    (h : Rounds exceeds memory_usage n cache cache') : evict_loop exceeds memory_usage n cache = none := by
  induction h with
  | refl cache => rfl
  | next hneeds htail hbatch hlater ih =>
    rw [evict_loop, if_pos hneeds, if_neg htail, hbatch]
    exact ih

theorem Holds.loop_ends_iff (h : Holds cache nodes) (request : PutRequest) :
    LoopEnds exceeds cache request ↔
      TooLarge cache request ∨ Frees (evictable cache) (crowded exceeds (entry_usage request) cache) nodes := by
  constructor
  · intro hends
    by_contra hnever
    rw [not_or] at hnever
    obtain ⟨fuel, hresult⟩ := hends hnever.1
    obtain ⟨cache', hrounds⟩ := h.rounds_of_not_frees hnever.2 fuel
    rw [hrounds.evict_loop_eq_none] at hresult
    cases hresult
  · rintro (hlarge | hfrees) hfits
    · exact absurd hlarge hfits
    · exact ⟨nodes.length + 1, h.evict_loop_isSome exceeds _ hfrees (Nat.lt_succ_self _)⟩

/-- The fuel of `put` is enough for every loop that ends. -/
theorem Holds.loop_ends_iff_fuel (h : Holds cache nodes) {request : PutRequest} (hfits : ¬TooLarge cache request) :
    LoopEnds exceeds cache request ↔
      (lru_cache.evict_loop exceeds (entry_usage request) (cache.hash_table.length + 1) cache).isSome = true := by
  refine ⟨fun hends => ?_, fun hresult _ => ⟨_, hresult⟩⟩
  have hfrees := ((h.loop_ends_iff request).mp hends).resolve_left hfits
  exact h.evict_loop_isSome exceeds _ hfrees (Nat.lt_succ_of_le h.listed.table)

/-- In every state of a run that left the cache intact, the eviction loop ends exactly
if the file is refused before it, or all entries on the list may be evicted, or there is
room once those that may be evicted are gone from some entry on. Otherwise it goes round
for ever. -/
theorem put_loop_ends_iff (h : Run exceeds Safe cache) (request : PutRequest) :
    ∃ nodes, Holds cache nodes ∧
      (LoopEnds exceeds cache request ↔
        TooLarge cache request ∨ Frees (evictable cache) (crowded exceeds (entry_usage request) cache) nodes) ∧
      (¬TooLarge cache request → (LoopEnds exceeds cache request ↔
        (evict_loop exceeds (entry_usage request) (cache.hash_table.length + 1) cache).isSome = true)) ∧
      (¬LoopEnds exceeds cache request → ∀ n, ∃ cache', Rounds exceeds (entry_usage request) n cache cache') := by
  obtain ⟨nodes, hnodes⟩ := h.holds
  refine ⟨nodes, hnodes, hnodes.loop_ends_iff request, hnodes.loop_ends_iff_fuel, fun hnever => ?_⟩
  rw [hnodes.loop_ends_iff, not_or] at hnever
  exact hnodes.rounds_of_not_frees hnever.2

/-- Three files for which there is just room, the first of them with a priority above the
threshold. -/
def protected_first : List Op :=
  [.put ⟨0, some 1, true⟩ (small_file (bytes "/a")), .set_entry_priority 0 (bytes "/a") 200,
    .put ⟨0, some 2, true⟩ (small_file (bytes "/b")), .put ⟨0, some 3, true⟩ (small_file (bytes "/c")),
    .setting (.enable_priority_eviction true)]

/-- A fourth file evicts the second: the first stands behind it and is protected. -/
theorem put_loop_ends_protected :
    ∃ cache nodes, run_new exceeds_exact Safe 1000000 3 5 protected_first = some cache ∧ Holds cache nodes ∧
      needs_room exceeds_exact cache (entry_usage (small_file (bytes "/d"))) = true ∧
      (evict_loop exceeds_exact (entry_usage (small_file (bytes "/d"))) (cache.hash_table.length + 1) cache).map
        (fun result => (result.1, result.2.hash_table)) = some (true, [1, 3]) ∧
      (∃ n ∈ nodes, evictable cache n = false) ∧ LoopEnds exceeds_exact cache (small_file (bytes "/d")) ∧
      Frees (evictable cache) (crowded exceeds_exact (entry_usage (small_file (bytes "/d"))) cache) nodes := by
  have hcomputed : (run_new exceeds_exact Safe 1000000 3 5 protected_first).any (fun cache =>
      cache.enable_priority_eviction = true ∧ cache.min_priority_threshold = 128 ∧
      cache.max_file_size = 1024 * 1024 * 1024 ∧ 1 ∈ cache.hash_table ∧
      (cache.entries 1).map CacheEntry.priority = some 200 ∧
      needs_room exceeds_exact cache (entry_usage (small_file (bytes "/d"))) = true ∧
      (evict_loop exceeds_exact (entry_usage (small_file (bytes "/d"))) (cache.hash_table.length + 1) cache).map
        (fun result => (result.1, result.2.hash_table)) = some (true, [1, 3])) = true := by
    decide +kernel
  simp only [Option.any_eq_true, decide_eq_true_eq] at hcomputed
  obtain ⟨cache, hcache, henabled, hthreshold, hmax, htable, hpriority, hneeds, hloop⟩ := hcomputed
  obtain ⟨nodes, hnodes, hends, hfuel, -⟩ := put_loop_ends_iff (run_of_run_new hcache) (small_file (bytes "/d"))
  have hsmall : ¬TooLarge cache (small_file (bytes "/d")) := by
    rw [TooLarge, hmax]
    decide
  have hloop_ends : LoopEnds exceeds_exact cache (small_file (bytes "/d")) := by
    rw [hfuel hsmall, ← Option.isSome_map, hloop]
    rfl
  obtain ⟨n, hn, haddress⟩ := List.mem_map.mp (hnodes.table.mem_iff.mp htable)
  rw [← haddress, hnodes.entry n hn] at hpriority
  have hn_priority : n.2.priority = 200 := Option.some.inj hpriority
  refine ⟨cache, nodes, hcache, hnodes, hneeds, hloop, ⟨n, hn, ?_⟩, hloop_ends,
    (hends.mp hloop_ends).resolve_left hsmall⟩
  rw [evictable, henabled, hn_priority, hthreshold]
  rfl

/-- A cache for one file, which has a priority above the threshold. -/
def protected_file : List Op :=
  [.put ⟨0, some 1, true⟩ (small_file (bytes "/a")), .set_entry_priority 0 (bytes "/a") 200,
    .setting (.enable_priority_eviction true)]

theorem put_loop_never_ends :
    ∃ cache, Run exceeds_exact Safe cache ∧ ¬LoopEnds exceeds_exact cache (small_file (bytes "/b")) ∧
      ∀ n, ∃ cache', Rounds exceeds_exact (entry_usage (small_file (bytes "/b"))) n cache cache' := by
  have hcomputed : (run_new exceeds_exact Safe 1000000 1 5 protected_file).any (fun cache =>
      cache.enable_priority_eviction = true ∧ cache.hash_table = [1] ∧ cache.min_priority_threshold = 128 ∧
      cache.max_file_size = 1024 * 1024 * 1024 ∧
      needs_room exceeds_exact cache (entry_usage (small_file (bytes "/b"))) = true ∧
      (cache.entries 1).map CacheEntry.priority = some 200) = true := by
    decide +kernel
  simp only [Option.any_eq_true, decide_eq_true_eq] at hcomputed
  obtain ⟨cache, hcache, henabled, htable, hthreshold, hmax, hneeds, hpriority⟩ := hcomputed
  have hrun := run_of_run_new hcache
  obtain ⟨nodes, hnodes⟩ := hrun.holds
  have hsmall : ¬TooLarge cache (small_file (bytes "/b")) := by
    rw [TooLarge, hmax]
    decide
  have hprotected : ∀ n ∈ nodes, evictable cache n = false := by
    intro n hn
    have haddress : n.1 ∈ cache.hash_table := hnodes.table.mem_iff.mpr (List.mem_map_of_mem hn)
    rw [htable, List.mem_singleton] at haddress
    rw [← haddress, hnodes.entry n hn] at hpriority
    have hn_priority : n.2.priority = 200 := Option.some.inj hpriority
    rw [evictable, henabled, hn_priority, hthreshold]
    rfl
  have hnever : ¬Frees (evictable cache) (crowded exceeds_exact (entry_usage (small_file (bytes "/b"))) cache) nodes := by
    intro hfrees
    rw [hnodes.needs_room_eq] at hneeds
    have hempty := hfrees.eq_nil hneeds hprotected
    have hlength := hnodes.table.length_eq
    rw [htable, hempty] at hlength
    cases hlength
  refine ⟨cache, hrun, fun hends => ?_, hnodes.rounds_of_not_frees hnever⟩
  obtain hlarge | hfrees := (hnodes.loop_ends_iff _).mp hends
  · exact hsmall hlarge
  · exact hnever hfrees

end termination

end uvhttp.lru_cache
