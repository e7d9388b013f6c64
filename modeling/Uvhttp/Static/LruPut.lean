import Uvhttp.Static.LruRuns

namespace uvhttp.lru_cache

open linked_list
open eviction (Evicted)

variable {cache cache' : CacheManager} {nodes kept : List Node} {answers : PutAnswers} {request : PutRequest}

section success

theorem push_front_head {c c' : Chain} {p : Nat} (h : c.push_front p = some c') : c'.head = some p := by
  rw [Chain.push_front] at h
  obtain ⟨c₁, -, h⟩ := Option.bind_eq_some_iff.mp h
  obtain ⟨c₂, -, h⟩ := Option.bind_eq_some_iff.mp h
  obtain ⟨c₃, -, h⟩ := Option.bind_eq_some_iff.mp h
  cases h
  rfl

theorem move_to_head_front {p : Nat} (h : uvhttp_lru_cache_move_to_head cache p = some cache') :
    cache'.entries = cache.entries ∧ cache'.lru.head = some p := by
  rw [uvhttp_lru_cache_move_to_head] at h
  split at h
  · rename_i hhead
    cases h
    exact ⟨rfl, hhead⟩
  · obtain ⟨l, -, h⟩ := Option.bind_eq_some_iff.mp h
    split at h
    · obtain ⟨lru, hpush, h⟩ := Option.bind_eq_some_iff.mp h
      cases h
      exact ⟨rfl, push_front_head hpush⟩
    · obtain ⟨c, -, h⟩ := Option.bind_eq_some_iff.mp h
      obtain ⟨lru, hpush, h⟩ := Option.bind_eq_some_iff.mp h
      cases h
      exact ⟨rfl, push_front_head hpush⟩

/-- What is at the head of the list when a content has been stored. -/
theorem store_content_front {memory_usage : UInt64} {p : Nat}
    (h : store_content answers request memory_usage cache p = some (.OK, cache')) :
    answers.content = true ∧ ∃ e, cache'.lru.head = some p ∧
      cache'.entries p = some (stored_entry answers request memory_usage e) := by
  obtain ⟨e, he⟩ : ∃ e, cache.entries p = some e := by
    rw [store_content] at h
    obtain ⟨e, he, -⟩ := Option.bind_eq_some_iff.mp h
    exact ⟨e, he⟩
  cases hcontent : answers.content with
  | false =>
    rw [store_content, he, hcontent] at h
    simp only [Option.bind_eq_bind, Option.bind_some, Bool.not_false, if_true] at h
    split at h
    · cases h
    · cases h
  | true =>
    rw [store_content_ok hcontent request memory_usage he] at h
    obtain ⟨cache₁, hmove, hresult⟩ := Option.map_eq_some_iff.mp h
    cases hresult
    obtain ⟨hentries, hhead⟩ := move_to_head_front hmove
    refine ⟨rfl, e, hhead, ?_⟩
    rw [hentries]
    exact Function.update_self _ _ _

theorem store_entry_front {memory_usage : UInt64}
    (h : store_entry answers request memory_usage cache = some (.OK, cache')) :
    answers.content = true ∧ ∃ p e, cache'.lru.head = some p ∧
      cache'.entries p = some (stored_entry answers request memory_usage e) := by
  rw [store_entry] at h
  split at h
  · obtain ⟨e, -, hstore⟩ := Option.bind_eq_some_iff.mp h
    obtain ⟨hcontent, e', hfront⟩ := store_content_front hstore
    exact ⟨hcontent, _, e', hfront⟩
  · split at h
    · cases h
    · split at h
      · cases h
      · split at h
        · cases h
        · obtain ⟨hcontent, e', hfront⟩ := store_content_front h
          exact ⟨hcontent, _, e', hfront⟩

/-- A successful `put` leaves its entry at the front, with some of the others. -/
theorem Holds.put_ok {exceeds : Exceeds} (h : Holds cache nodes)
    (hput : uvhttp_lru_cache_put exceeds answers cache request = some (.OK, cache')) :
    ∃ kept p e, kept.Sublist nodes ∧
      (stored_entry answers request (entry_usage request) e).file_path = request.file_path ∧
      Holds cache' ((p, stored_entry answers request (entry_usage request) e) ::
        without_path request.file_path kept) ∧ config cache' = config cache := by
  obtain ⟨-, hrefused⟩ | ⟨n, kept, cache₁, -, hkept, hconfig, hevicted, hresult⟩ := h.put_cases hput
  · cases hrefused
  obtain ⟨-, -, hfull⟩ | ⟨-, hstore⟩ := hresult
  · cases hfull
  obtain ⟨hcontent, p, e, hhead, hentry⟩ := store_entry_front hstore
  have hallocated : ContentAllocated answers request kept := by
    intro hfailed
    rw [hcontent] at hfailed
    cases hfailed
  obtain ⟨result, hstore', hstored⟩ := hkept.store_entry hallocated (entry_usage request)
    fun p hanswer => store_entry_fresh hstore hanswer
  rw [hstore] at hstore'
  cases hstore'
  cases hstored with
  | failed err _ herr => exact absurd rfl herr
  | stored _ q e' hpath _ _ hholds hconfig' =>
    obtain rfl : q = p := Option.some.inj (hholds.list.head.symm.trans hhead)
    obtain rfl : e' = stored_entry answers request (entry_usage request) e :=
      Option.some.inj ((hholds.entry _ List.mem_cons_self).symm.trans hentry)
    exact ⟨kept, q, e, hevicted.sublist, hpath, hholds, hconfig'.trans hconfig⟩

/-- The bytes that some entries take. -/
def bytes_used (nodes : List Node) : Nat := (nodes.map fun n => n.2.memory_usage.toNat).sum

/-- The entries of the cache and the file to be stored are in memory at the same time. -/
def Addressable (nodes : List Node) (request : PutRequest) : Prop :=
  bytes_used nodes + SIZEOF_CACHE_ENTRY + request.content.length < 2 ^ 64

theorem bytes_used_cons (n : Node) (nodes : List Node) :
    bytes_used (n :: nodes) = n.2.memory_usage.toNat + bytes_used nodes := by
  rw [bytes_used, bytes_used, List.map_cons, List.sum_cons]

theorem bytes_used_sublist (h : kept.Sublist nodes) : bytes_used kept ≤ bytes_used nodes :=
  (h.map fun n : Node => n.2.memory_usage.toNat).sum_le_sum fun _ _ => Nat.zero_le _

/-- A sum that fits does not wrap. -/
theorem sum_toNat (h : bytes_used nodes < 2 ^ 64) :
    (nodes.map fun n : Node => n.2.memory_usage).sum.toNat = bytes_used nodes := by
  induction nodes with
  | nil => rfl
  | cons n nodes ih =>
    rw [bytes_used_cons] at h ⊢
    rw [List.map_cons, List.sum_cons, UInt64.toNat_add, ih (by omega), Nat.mod_eq_of_lt h]

theorem entry_usage_toNat (h : SIZEOF_CACHE_ENTRY + request.content.length < 2 ^ 64) :
    (entry_usage request).toNat = SIZEOF_CACHE_ENTRY + request.content.length := by
  rw [entry_usage, UInt64.toNat_ofNat', Nat.mod_eq_of_lt h]

theorem crowded_exact_eq_false {memory_usage : UInt64} (hmemory : 0 < cache.max_memory_usage)
    (hentries : 0 < cache.max_entries) (h : crowded exceeds_exact memory_usage cache kept = false) :
    10 * ((kept.map fun n => n.2.memory_usage).sum + memory_usage).toNat ≤ 9 * cache.max_memory_usage.toNat ∧
      (kept.length : Int) < cache.max_entries := by
  rw [crowded, Bool.or_eq_false_iff, decide_eq_true hmemory, decide_eq_true hentries, Bool.true_and, Bool.true_and,
    exceeds_exact, decide_eq_false_iff_not, decide_eq_false_iff_not] at h
  exact ⟨Nat.le_of_not_lt h.1, Int.lt_of_not_ge h.2⟩

theorem without_path_sublist (file_path : List UInt8) (nodes : List Node) :
    (without_path file_path nodes).Sublist nodes := List.filter_sublist

/-- After a successful `put` the cache is within its limits and the file is in it, at
the head of the list. -/
theorem put_within_limits (h : Holds cache nodes) (hmemory : 0 < cache.max_memory_usage)
    (hentries : 0 < cache.max_entries) (haddressable : Addressable nodes request)
    (hput : uvhttp_lru_cache_put exceeds_exact answers cache request = some (.OK, cache')) :
    cache'.entry_count ≤ cache.max_entries ∧
      10 * cache'.total_memory_usage.toNat ≤ 9 * cache.max_memory_usage.toNat ∧ config cache' = config cache ∧
      ∃ p e nodes', Holds cache' ((p, e) :: nodes') ∧ cache'.lru.head = some p ∧
        hash_find_str cache' request.file_path = some p ∧ cache'.entries p = some e ∧
        e.file_path = request.file_path ∧ e.content = some request.content ∧
        e.content_length = request.content.length := by
  obtain ⟨-, hrefused⟩ | ⟨n, kept, cache₁, -, hkept, hconfig, hevicted, hresult⟩ := h.put_cases hput
  · cases hrefused
  obtain ⟨-, -, hfull⟩ | ⟨hroom, hstore⟩ := hresult
  · cases hfull
  obtain ⟨hcontent, p, e, hhead, hentry⟩ := store_entry_front hstore
  have hallocated : ContentAllocated answers request kept := by
    intro hfailed
    rw [hcontent] at hfailed
    cases hfailed
  obtain ⟨result, hstore', hstored⟩ := hkept.store_entry hallocated (entry_usage request)
    fun p hanswer => store_entry_fresh hstore hanswer
  rw [hstore] at hstore'
  cases hstore'
  cases hstored with
  | failed err _ herr => exact absurd rfl herr
  | stored _ q e' hpath hcontents htime hholds hconfig' =>
    obtain rfl : q = p := Option.some.inj (hholds.list.head.symm.trans hhead)
    obtain rfl : e' = stored_entry answers request (entry_usage request) e :=
      Option.some.inj ((hholds.entry _ List.mem_cons_self).symm.trans hentry)
    have hfits : bytes_used kept + SIZEOF_CACHE_ENTRY + request.content.length < 2 ^ 64 := by
      have hle := bytes_used_sublist hevicted.sublist
      rw [Addressable] at haddressable
      omega
    have hrest := without_path_sublist request.file_path kept
    have husage := @entry_usage_toNat request (by omega)
    have hbytes : bytes_used (without_path request.file_path kept) ≤ bytes_used kept := bytes_used_sublist hrest
    obtain ⟨hmemory_room, hentries_room⟩ := crowded_exact_eq_false hmemory hentries hroom
    refine ⟨?_, ?_, hconfig'.trans hconfig, q, _, _, hholds, hhead, ?_, hentry, hpath, hcontents, rfl⟩
    · rw [hholds.count, List.length_cons]
      have hle := hrest.length_le
      omega
    · rw [UInt64.toNat_add, @sum_toNat kept (by omega), husage, Nat.mod_eq_of_lt (by omega)] at hmemory_room
      have htotal : bytes_used ((q, stored_entry answers request (entry_usage request) e) ::
          without_path request.file_path kept) =
          SIZEOF_CACHE_ENTRY + request.content.length + bytes_used (without_path request.file_path kept) := by
        rw [bytes_used_cons, ← husage]
        rfl
      rw [hholds.memory, sum_toNat (by omega), htotal]
      omega
    · obtain ⟨before, m, after, hsplit, hm, hfind⟩ | ⟨-, habsent⟩ := hholds.hash_find_cases request.file_path
      · have hsame := hholds.eq_of_path (by rw [hsplit]; simp) List.mem_cons_self (hm.trans hpath.symm)
        rw [hfind, hsame]
      · exact absurd hpath (habsent _ List.mem_cons_self)

/-- Two files. -/
def two_files : List Op :=
  [.put ⟨0, some 1, true⟩ (small_file (bytes "/a")), .put ⟨0, some 2, true⟩ (small_file (bytes "/b"))]

/-- A cache for two files that holds them: the older one is evicted for a third. -/
theorem put_within_limits_full :
    ∃ cache cache', run_new exceeds_exact Safe 1000000 2 5 two_files = some cache ∧ cache.hash_table = [1, 2] ∧
      uvhttp_lru_cache_put exceeds_exact ⟨0, some 3, true⟩ cache (small_file (bytes "/c")) = some (.OK, cache') ∧
      cache'.hash_table = [2, 3] ∧ cache'.entry_count ≤ 2 ∧ 10 * cache'.total_memory_usage.toNat ≤ 9 * 1000000 ∧
      hash_find_str cache' (bytes "/c") = cache'.lru.head := by
  have hcomputed : (run_new exceeds_exact Safe 1000000 2 5 two_files).any (fun cache =>
      cache.hash_table = [1, 2] ∧ cache.max_memory_usage = 1000000 ∧ cache.max_entries = 2 ∧
      (cache.entries 1).map CacheEntry.memory_usage = (cache.entries 2).map CacheEntry.memory_usage ∧
      (cache.entries 1).map CacheEntry.memory_usage = some (entry_usage (small_file (bytes "/a"))) ∧
      (uvhttp_lru_cache_put exceeds_exact ⟨0, some 3, true⟩ cache (small_file (bytes "/c"))).any
        (fun result => result.1 = .OK ∧ result.2.hash_table = [2, 3])) = true := by
    decide +kernel
  simp only [Option.any_eq_true, decide_eq_true_eq] at hcomputed
  obtain ⟨cache, hcache, htable, hmemory, hentries, hsame, husage, ⟨err, cache'⟩, hput, rfl, htable'⟩ := hcomputed
  obtain ⟨nodes, hnodes⟩ := (run_of_run_new hcache).holds
  have hlength : nodes.length = 2 := by
    rw [← List.length_map Prod.fst, ← hnodes.table.length_eq, htable]
    rfl
  have hsizes : ∀ n ∈ nodes, n.2.memory_usage = entry_usage (small_file (bytes "/a")) := by
    intro n hn
    have haddress : n.1 ∈ cache.hash_table := hnodes.table.mem_iff.mpr (List.mem_map_of_mem hn)
    have hentry := hnodes.entry n hn
    rw [htable, List.mem_cons, List.mem_singleton] at haddress
    rcases haddress with haddress | haddress
    · rw [← haddress, hentry] at husage
      exact Option.some.inj husage
    · rw [← haddress, hentry] at hsame
      exact Option.some.inj (hsame.symm.trans husage)
  have haddressable : Addressable nodes (small_file (bytes "/c")) := by
    have hbytes : bytes_used nodes = nodes.length * (entry_usage (small_file (bytes "/a"))).toNat := by
      rw [bytes_used, List.sum_eq_card_nsmul _ (entry_usage (small_file (bytes "/a"))).toNat, List.length_map]
      · rfl
      · intro size hsize
        obtain ⟨n, hn, rfl⟩ := List.mem_map.mp hsize
        rw [hsizes n hn]
    rw [Addressable, hbytes, hlength]
    decide
  obtain ⟨hcount, hbytes, -, p, e, nodes', -, hhead, hfind, -⟩ := put_within_limits hnodes (by rw [hmemory]; decide)
    (by rw [hentries]; decide) haddressable hput
  rw [hentries] at hcount
  rw [hmemory] at hbytes
  exact ⟨cache, cache', hcache, htable, hput, htable', hcount, hbytes, hfind.trans hhead.symm⟩

/-- A node that was created is moved to the head of an empty list. -/
theorem move_to_head_first {p : Nat} (hlinks : cache.lru.links p = some ⟨none, none⟩)
    (hhead : cache.lru.head = none) : ∃ cache', uvhttp_lru_cache_move_to_head cache p = some cache' := by
  have hunlink : cache.lru.unlink p = some { cache.lru with head := none, tail := none } := by
    rw [Chain.unlink, hlinks]
    rfl
  have hpush : ∀ tail, ∃ lru, Chain.push_front ⟨cache.lru.links, none, tail⟩ p = some lru := by
    intro tail
    simp only [Chain.push_front, Chain.set_prev, Chain.set_next, hlinks, Function.update_self, Option.map_some,
      Option.bind_eq_bind, Option.bind_some]
    exact ⟨_, rfl⟩
  obtain ⟨lru, hlru⟩ := hpush none
  rw [uvhttp_lru_cache_move_to_head, hhead, hlinks, hunlink]
  simp only [Option.bind_eq_bind, Option.bind_some, reduceCtorEq, if_false, ne_eq, not_true, and_false]
  rw [hlru]
  exact ⟨_, rfl⟩

theorem exists_map_ok {result : Option CacheManager} (h : ∃ cache, result = some cache) :
    ∃ cache, result.map (fun cache => (UvhttpError.OK, cache)) = some (.OK, cache) := by
  obtain ⟨cache, rfl⟩ := h
  exact ⟨cache, rfl⟩

/-- A file that fits goes into a new cache. -/
theorem put_new_ok {exceeds : Exceeds} {max_memory_usage : UInt64} {max_entries cache_ttl : Int}
    (hcreate : uvhttp_lru_cache_create true max_memory_usage max_entries cache_ttl = .ok cache)
    (hfits : ¬TooLarge cache request)
    (hroom : needs_room exceeds cache (entry_usage request) = false) {p : Nat} (hentry : answers.entry = some p)
    (hcontent : answers.content = true) (hshort : request.file_path.length < UVHTTP_MAX_FILE_PATH_SIZE) :
    ∃ cache', uvhttp_lru_cache_put exceeds answers cache request = some (.OK, cache') := by
  rw [uvhttp_lru_cache_create] at hcreate
  split at hcreate
  · cases hcreate
  split at hcreate
  · cases hcreate
  split at hcreate
  · cases hcreate
  cases hcreate
  obtain ⟨hfile, hsize⟩ := not_or.mp hfits
  have hloop : ∀ cache : CacheManager, needs_room exceeds cache (entry_usage request) = false →
      evict_loop exceeds (entry_usage request) 1 cache = some (true, cache) := by
    intro cache hcache
    rw [evict_loop, hcache]
    rfl
  rw [uvhttp_lru_cache_put, if_neg hfile, if_neg hsize]
  simp only [List.length_nil, Nat.zero_add]
  have husage : UInt64.ofNat (SIZEOF_CACHE_ENTRY + request.content.length) = entry_usage request := rfl
  rw [husage, hloop _ hroom]
  simp only [Option.bind_eq_bind, Option.bind_some, Bool.not_true, Bool.false_eq_true, if_false]
  rw [store_entry]
  simp only [hash_find_str, List.find?_nil, hentry, if_neg (Nat.not_le.mpr hshort), Option.isSome_none,
    Bool.false_eq_true, if_false]
  rw [store_content_ok hcontent request _ (Function.update_self _ _ _)]
  apply exists_map_ok
  apply move_to_head_first
  · exact Function.update_self _ _ _
  · rfl

end success

section failure

variable {exceeds : Exceeds}

/-- The same entries with the same contents, in the same order, and the same counters. -/
structure Same (cache cache' : CacheManager) : Prop where
  table : cache'.hash_table.Perm cache.hash_table
  entries : ∀ p ∈ cache.hash_table, cache'.entries p = cache.entries p
  order : ∃ ps, Threads cache.lru ps ∧ Threads cache'.lru ps
  count : cache'.entry_count = cache.entry_count
  memory : cache'.total_memory_usage = cache.total_memory_usage

theorem Holds.same (h : Holds cache nodes) (h' : Holds cache' nodes) : Same cache cache' where
  table := h'.table.trans h.table.symm
  entries p hp := by
    obtain ⟨n, hn, rfl⟩ := List.mem_map.mp (h.table.mem_iff.mp hp)
    rw [h.entry n hn, h'.entry n hn]
  order := ⟨_, h.list, h'.list⟩
  count := h'.count.trans h.count.symm
  memory := h'.memory.trans h.memory.symm

/-- The allocation of the content is tried and fails. -/
def ContentRefused (cache : CacheManager) (answers : PutAnswers) (request : PutRequest) : Prop :=
  answers.content = false ∧
    (hash_find_str cache request.file_path ≠ none ∨
      (answers.entry ≠ none ∧ request.file_path.length < UVHTTP_MAX_FILE_PATH_SIZE))

/-- A failure that is noticed before anything has changed, or taken back: the file is
too large, or the cache is empty and has no room, or no entry has to go and the content
of a new entry is the last that fails, with the empty path. -/
def FailsClean (exceeds : Exceeds) (cache : CacheManager) (answers : PutAnswers) (request : PutRequest) : Prop :=
  TooLarge cache request ∨
    if needs_room exceeds cache (entry_usage request) then cache.hash_table = []
    else ContentRefused cache answers request → request.file_path = [] ∧ hash_find_str cache [] = none

theorem Holds.hash_find_eq_none (h : Holds cache nodes) (file_path : List UInt8) :
    hash_find_str cache file_path = none ↔ ∀ n ∈ nodes, n.2.file_path ≠ file_path := by
  obtain ⟨before, n, after, hsplit, hpath, hfind⟩ | ⟨hfind, habsent⟩ := h.hash_find_cases file_path
  · refine iff_of_false (by rw [hfind]; exact Option.some_ne_none _) fun habsent => ?_
    exact habsent n (by rw [hsplit]; simp) hpath
  · exact iff_of_true hfind habsent

/-- An entry of the hash table has lost its content, or an entry is missing. -/
def Damaged (cache : CacheManager) (nodes : List Node) : Prop :=
  (∃ p e, p ∈ cache.hash_table ∧ cache.entries p = some e ∧ e.content = none) ∨ cache.entry_count < nodes.length

/-- What a `put` that finds room and fails leaves behind. -/
inductive StoreFailed (answers : PutAnswers) (request : PutRequest) (cache : CacheManager) (nodes : List Node) :
    CacheManager → Prop where
  | unchanged (hreached : ¬ContentRefused cache answers request) : StoreFailed answers request cache nodes cache
  | given_up (cache' : CacheManager) (hempty : request.file_path = []) (habsent : hash_find_str cache [] = none)
      (h : Holds cache' nodes) : StoreFailed answers request cache nodes cache'
  | damaged (cache' : CacheManager) (hrefused : ContentRefused cache answers request)
      (hkept : ¬(request.file_path = [] ∧ hash_find_str cache [] = none)) (h : Damaged cache' nodes) :
      StoreFailed answers request cache nodes cache'

theorem store_content_failed {memory_usage : UInt64} {p : Nat} {e : CacheEntry} {err : UvhttpError}
    (he : cache.entries p = some e) (herr : err ≠ .OK)
    (h : store_content answers request memory_usage cache p = some (err, cache')) :
    answers.content = false ∧
      ((e.file_path = [] ∧ cache' = free_cache_entry { cache with
        hash_table := cache.hash_table.erase p
        entry_count := cache.entry_count - 1 } p) ∨
      (e.file_path ≠ [] ∧ cache' = set_entry cache p { e with content := none })) := by
  cases hcontent : answers.content with
  | true =>
    rw [store_content_ok hcontent request memory_usage he] at h
    obtain ⟨cache₁, -, hresult⟩ := Option.map_eq_some_iff.mp h
    cases hresult
    exact absurd rfl herr
  | false =>
    rw [store_content, he, hcontent] at h
    simp only [Option.bind_eq_bind, Option.bind_some, Bool.not_false, if_true] at h
    refine ⟨rfl, ?_⟩
    split at h
    · rename_i hempty
      cases h
      exact .inl ⟨hempty, rfl⟩
    · rename_i hpath
      cases h
      exact .inr ⟨hpath, rfl⟩

theorem Holds.store_entry_failed (h : Holds cache nodes) {memory_usage : UInt64} {err : UvhttpError}
    (herr : err ≠ .OK) (hstore : lru_cache.store_entry answers request memory_usage cache = some (err, cache')) :
    StoreFailed answers request cache nodes cache' := by
  rw [lru_cache.store_entry] at hstore
  obtain ⟨before, n, after, rfl, hpath, hfind⟩ | ⟨hfind, habsent⟩ := h.hash_find_cases request.file_path
  · have hn : cache.entries n.1 = some n.2 := h.entry n (by simp)
    rw [hfind] at hstore
    simp only [hn, Option.bind_eq_bind, Option.bind_some] at hstore
    obtain ⟨hcontent, hresult⟩ := store_content_failed (Function.update_self _ _ _) herr hstore
    refine .damaged _ ⟨hcontent, .inl (by rw [hfind]; exact Option.some_ne_none _)⟩ ?_ ?_
    · rintro ⟨hempty, hnone⟩
      rw [hempty, hnone] at hfind
      cases hfind
    · obtain ⟨-, rfl⟩ | ⟨-, rfl⟩ := hresult
      · right
        dsimp only [free_cache_entry, set_entry]
        rw [h.count]
        omega
      · left
        refine ⟨n.1, _, ?_, Function.update_self _ _ _, rfl⟩
        exact h.table.mem_iff.mpr (by simp)
  · rw [hfind] at hstore
    dsimp only at hstore
    split at hstore
    · rename_i hentry
      cases hstore
      refine .unchanged ?_
      rintro ⟨-, hfound | ⟨hsome, -⟩⟩
      · exact hfound hfind
      · exact hsome hentry
    · rename_i p hentry
      split at hstore
      · rename_i hlong
        cases hstore
        refine .unchanged ?_
        rintro ⟨-, hfound | ⟨-, hshort⟩⟩
        · exact hfound hfind
        · exact absurd hshort (Nat.not_lt.mpr hlong)
      · rename_i hshort
        split at hstore
        · cases hstore
        · rename_i hused
          have hp : cache.entries p = none := by simpa using hused
          obtain ⟨hcontent, ⟨hempty, rfl⟩ | ⟨hnamed, rfl⟩⟩ :=
            store_content_failed (Function.update_self _ _ _) herr hstore
          · refine .given_up _ hempty ?_ (h.free_new hp _)
            rw [← show request.file_path = [] from hempty]
            exact hfind
          · have hsome : answers.entry ≠ none := by
              rw [hentry]
              exact Option.some_ne_none p
            refine .damaged _ ⟨hcontent, .inr ⟨hsome, Nat.lt_of_not_le hshort⟩⟩ (fun hclean => hnamed hclean.1) (.inl ?_)
            exact ⟨p, _, List.mem_append_right _ List.mem_cons_self, Function.update_self _ _ _, rfl⟩

theorem Same.count_eq (h : Same cache cache') (hnodes : Holds cache nodes) (hkept : Holds cache' kept) :
    kept.length = nodes.length := by
  have hcount := h.count
  rw [hnodes.count, hkept.count] at hcount
  exact Int.ofNat.inj hcount

theorem Same.not_damaged (h : Same cache cache') (hnodes : Holds cache nodes) (hsub : kept.Sublist nodes) :
    ¬Damaged cache' kept := by
  rintro (⟨p, e, hp, he, hcontent⟩ | hcount)
  · have hmem := h.table.mem_iff.mp hp
    obtain ⟨n, hn, rfl⟩ := List.mem_map.mp (hnodes.table.mem_iff.mp hmem)
    rw [h.entries n.1 hmem, hnodes.entry n hn] at he
    have hsome := hnodes.content n hn
    rw [Option.some.inj he, hcontent] at hsome
    cases hsome
  · have hle := hsub.length_le
    rw [h.count, hnodes.count] at hcount
    omega

theorem Holds.table_eq_nil (h : Holds cache nodes) : cache.hash_table = [] ↔ nodes = [] := by
  rw [← List.length_eq_zero_iff, ← List.length_eq_zero_iff, h.table.length_eq, List.length_map]

theorem Holds.content_refused_iff {cache₁ : CacheManager} (h : Holds cache nodes) (h₁ : Holds cache₁ nodes) :
    ContentRefused cache₁ answers request ↔ ContentRefused cache answers request := by
  have hfound : hash_find_str cache₁ request.file_path = none ↔ hash_find_str cache request.file_path = none :=
    (h₁.hash_find_eq_none _).trans (h.hash_find_eq_none _).symm
  simp only [ContentRefused, ne_eq, hfound]

/-- A failure that is clean leaves the cache as it was. -/
theorem Holds.put_same (h : Holds cache nodes) {err : UvhttpError} (herr : err ≠ .OK)
    (hput : uvhttp_lru_cache_put exceeds answers cache request = some (err, cache'))
    (hclean : FailsClean exceeds cache answers request) : Same cache cache' := by
  obtain ⟨-, hresult⟩ | ⟨n, kept, cache₁, hfits, hkept, -, hevicted, hresult⟩ := h.put_cases hput
  · cases hresult
    exact h.same h
  have hchecked := hclean.resolve_left hfits
  rw [h.needs_room_eq] at hchecked
  cases hcrowded : crowded exceeds (entry_usage request) cache nodes with
  | true =>
    rw [hcrowded, if_pos rfl, h.table_eq_nil] at hchecked
    subst hchecked
    obtain rfl := List.sublist_nil.mp hevicted.sublist
    obtain ⟨-, -, hfull⟩ | ⟨hroom, -⟩ := hresult
    · cases hfull
      exact h.same hkept
    · rw [hcrowded] at hroom
      cases hroom
  | false =>
    rw [hcrowded, if_neg Bool.false_ne_true] at hchecked
    obtain rfl := hevicted.eq_of_room hcrowded
    obtain ⟨hfull, -, -⟩ | ⟨-, hstore⟩ := hresult
    · rw [hcrowded] at hfull
      cases hfull
    · cases hkept.store_entry_failed herr hstore with
      | unchanged hreached => exact h.same hkept
      | given_up _ hempty habsent hholds => exact h.same hholds
      | damaged _ hrefused hdirty hdamaged =>
        obtain ⟨hempty, habsent⟩ := hchecked ((h.content_refused_iff hkept).mp hrefused)
        rw [h.hash_find_eq_none, ← hkept.hash_find_eq_none] at habsent
        exact absurd ⟨hempty, habsent⟩ hdirty

/-- Every other failure changes the cache. -/
theorem Holds.clean_of_same (h : Holds cache nodes) {err : UvhttpError} (herr : err ≠ .OK)
    (hput : uvhttp_lru_cache_put exceeds answers cache request = some (err, cache')) (hsame : Same cache cache') :
    FailsClean exceeds cache answers request := by
  obtain ⟨hlarge, -⟩ | ⟨n, kept, cache₁, -, hkept, -, hevicted, hresult⟩ := h.put_cases hput
  · exact .inl hlarge
  right
  rw [h.needs_room_eq]
  have hroom_of_length : kept.length = nodes.length → kept = nodes := hevicted.sublist.eq_of_length
  obtain ⟨hfull, rfl, hresult⟩ | ⟨hroom, hstore⟩ := hresult
  · cases hresult
    obtain rfl := hroom_of_length (hsame.count_eq h hkept)
    rw [hfull, if_pos rfl, h.table_eq_nil]
  · cases hkept.store_entry_failed herr hstore with
    | unchanged hreached =>
      obtain rfl := hroom_of_length (hsame.count_eq h hkept)
      rw [hroom, if_neg Bool.false_ne_true]
      exact fun hrefused => absurd ((h.content_refused_iff hkept).mpr hrefused) hreached
    | given_up _ hempty habsent hholds =>
      obtain rfl := hroom_of_length (hsame.count_eq h hholds)
      rw [hroom, if_neg Bool.false_ne_true, h.hash_find_eq_none, ← hkept.hash_find_eq_none]
      exact fun _ => ⟨hempty, habsent⟩
    | damaged _ hrefused hdirty hdamaged => exact absurd hdamaged (hsame.not_damaged h hevicted.sublist)

/-- In every state of a run that left the cache intact, a `put` that fails changes nothing
exactly if it fails clean. -/
theorem failed_put_same_iff (h : Run exceeds Safe cache) {err : UvhttpError} (herr : err ≠ .OK)
    (hput : uvhttp_lru_cache_put exceeds answers cache request = some (err, cache')) :
    Same cache cache' ↔ FailsClean exceeds cache answers request := by
  obtain ⟨nodes, hnodes⟩ := h.holds
  exact ⟨hnodes.clean_of_same herr hput, hnodes.put_same herr hput⟩

/-- No memory for the entry of a third file. -/
theorem failed_put_same_third :
    ∃ cache cache', run_new exceeds_exact Safe 1000000 10 5 two_files = some cache ∧ cache.hash_table = [1, 2] ∧
      uvhttp_lru_cache_put exceeds_exact ⟨0, none, true⟩ cache (small_file (bytes "/c")) =
        some (.OUT_OF_MEMORY, cache') ∧ Same cache cache' := by
  have hcomputed : (run_new exceeds_exact Safe 1000000 10 5 two_files).any (fun cache =>
      cache.hash_table = [1, 2] ∧ needs_room exceeds_exact cache (entry_usage (small_file (bytes "/c"))) = false ∧
      (uvhttp_lru_cache_put exceeds_exact ⟨0, none, true⟩ cache (small_file (bytes "/c"))).any
        (fun result => result.1 = .OUT_OF_MEMORY)) = true := by
    decide +kernel
  simp only [Option.any_eq_true, decide_eq_true_eq] at hcomputed
  obtain ⟨cache, hcache, htable, hroom, ⟨err, cache'⟩, hput, rfl⟩ := hcomputed
  refine ⟨cache, cache', hcache, htable, hput,
    (failed_put_same_iff (run_of_run_new hcache) (by decide) hput).mpr (.inr ?_)⟩
  rw [hroom, if_neg Bool.false_ne_true]
  exact fun hrefused => absurd hrefused.1 (by decide)

/-- A cache for one file: no memory for the entry of the second, for which the first has
gone. -/
theorem failed_put_evicts :
    ∃ cache cache', Run exceeds_exact Safe cache ∧
      uvhttp_lru_cache_put exceeds_exact ⟨0, none, true⟩ cache (small_file (bytes "/b")) =
        some (.OUT_OF_MEMORY, cache') ∧ ¬Same cache cache' := by
  have hcomputed : (run_new exceeds_exact Safe 1000000 1 5 [.put ⟨0, some 1, true⟩ (small_file (bytes "/a"))]).any
      (fun cache => cache.entry_count = 1 ∧
        (uvhttp_lru_cache_put exceeds_exact ⟨0, none, true⟩ cache (small_file (bytes "/b"))).any
          (fun result => result.1 = .OUT_OF_MEMORY ∧ result.2.entry_count = 0)) = true := by
    decide +kernel
  simp only [Option.any_eq_true, decide_eq_true_eq] at hcomputed
  obtain ⟨cache, hcache, hbefore, ⟨err, cache'⟩, hput, rfl, hafter⟩ := hcomputed
  refine ⟨cache, cache', run_of_run_new hcache, hput, fun hsame => ?_⟩
  have hcount := hsame.count
  rw [hbefore, hafter] at hcount
  cases hcount

end failure

end uvhttp.lru_cache
