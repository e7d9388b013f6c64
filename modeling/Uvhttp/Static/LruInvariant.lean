import Uvhttp.Static.LruCache
import Uvhttp.Lib.Eviction
import Mathlib.Data.UInt

namespace uvhttp.lru_cache

open linked_list
open eviction (Evicts Evicted Frees)

/-- The settings of a cache. -/
def config (cache : CacheManager) : UInt64 × Nat × Int × Int × Nat × Bool × Int :=
  (cache.max_memory_usage, cache.max_file_size, cache.max_entries, cache.cache_ttl, cache.batch_eviction_size,
    cache.enable_priority_eviction, cache.min_priority_threshold)

/-- An entry at its address. -/
abbrev Node := Nat × CacheEntry

/-- A cache holds some entries: the list goes through them in their order, forward and
backward, the hash table has the same entries and no others are allocated, no two have
one path, all have a content, and the two counters are right. -/
structure Holds (cache : CacheManager) (nodes : List Node) : Prop where
  list : Threads cache.lru (nodes.map Prod.fst)
  table : cache.hash_table.Perm (nodes.map Prod.fst)
  entry : ∀ n ∈ nodes, cache.entries n.1 = some n.2
  owned : ∀ p, cache.entries p ≠ none → p ∈ nodes.map Prod.fst
  content : ∀ n ∈ nodes, n.2.content.isSome = true
  distinct : (nodes.map fun n => n.2.file_path).Nodup
  count : cache.entry_count = nodes.length
  memory : cache.total_memory_usage = (nodes.map fun n => n.2.memory_usage).sum
  batch : 0 < cache.batch_eviction_size

section lookup

variable {cache : CacheManager} {nodes : List Node}

theorem Holds.nodup (h : Holds cache nodes) : (nodes.map Prod.fst).Nodup := h.list.nodup

theorem Holds.eq_of_path (h : Holds cache nodes) {n m : Node} (hn : n ∈ nodes) (hm : m ∈ nodes)
    (hpath : n.2.file_path = m.2.file_path) : n = m :=
  List.inj_on_of_nodup_map h.distinct hn hm hpath

/-- The hash table finds the entry of a path, if there is one. -/
theorem Holds.hash_find_cases (h : Holds cache nodes) (file_path : List UInt8) :
    (∃ before n after, nodes = before ++ n :: after ∧ n.2.file_path = file_path ∧
      hash_find_str cache file_path = some n.1) ∨
    (hash_find_str cache file_path = none ∧ ∀ n ∈ nodes, n.2.file_path ≠ file_path) := by
  rw [hash_find_str]
  cases hfind : cache.hash_table.find? fun p => (cache.entries p).any fun e => e.file_path = file_path with
  | some p =>
    left
    obtain ⟨n, hn, rfl⟩ := List.mem_map.mp (h.table.mem_iff.mp (List.mem_of_find?_eq_some hfind))
    have hpath := List.find?_some hfind
    rw [h.entry n hn] at hpath
    obtain ⟨before, after, hsplit⟩ := List.append_of_mem hn
    exact ⟨before, n, after, hsplit, by simpa using hpath, rfl⟩
  | none =>
    right
    refine ⟨rfl, fun n hn hpath => ?_⟩
    have hmissed := List.find?_eq_none.mp hfind n.1 (h.table.mem_iff.mpr (List.mem_map_of_mem hn))
    rw [h.entry n hn] at hmissed
    exact hmissed (by simp [hpath])

/-- Without a node in the middle. -/
theorem Holds.apart {before after : List Node} {n : Node} (h : Holds cache (before ++ n :: after)) :
    n.1 ∉ (before ++ after).map Prod.fst := by
  have hnodup := h.nodup
  rw [(List.perm_middle.map Prod.fst).nodup_iff, List.map_cons, List.nodup_cons] at hnodup
  exact hnodup.1

end lookup

section removal

variable {cache : CacheManager}

/-- An entry that has left the list is dropped. -/
theorem Holds.drop {before after : List Node} {n : Node} (h : Holds cache (before ++ n :: after)) {lru : Chain}
    (hlru : Threads lru ((before ++ after).map Prod.fst)) :
    ∃ cache', drop_entry { cache with lru } n.1 = some cache' ∧ Holds cache' (before ++ after) ∧
      config cache' = config cache := by
  have hn : cache.entries n.1 = some n.2 := h.entry n (by simp)
  have hapart := h.apart
  have hperm : (before ++ n :: after).Perm (n :: (before ++ after)) := List.perm_middle
  have hother : ∀ m ∈ before ++ after, m.1 ≠ n.1 :=
    fun m hm heq => hapart (heq ▸ List.mem_map_of_mem hm)
  have hmem : ∀ m ∈ before ++ after, m ∈ before ++ n :: after :=
    fun m hm => hperm.mem_iff.mpr (List.mem_cons_of_mem _ hm)
  rw [drop_entry, hn]
  refine ⟨_, rfl, ?_, rfl⟩
  constructor
  · refine hlru.congr (fun p hp => ?_) rfl rfl
    exact Function.update_of_ne (ne_of_mem_of_not_mem hp hapart) _ _
  · have herase := (h.table.trans (hperm.map Prod.fst)).erase n.1
    rw [List.map_cons, List.erase_cons_head] at herase
    exact herase
  · intro m hm
    exact (Function.update_of_ne (hother m hm) _ _).trans (h.entry m (hmem m hm))
  · intro p hp
    have hne : p ≠ n.1 := by
      rintro rfl
      exact hp (Function.update_self _ _ _)
    have hold := h.owned p ((Function.update_of_ne hne _ _).symm.trans_ne hp)
    rw [(hperm.map Prod.fst).mem_iff, List.map_cons, List.mem_cons] at hold
    exact hold.resolve_left hne
  · exact fun m hm => h.content m (hmem m hm)
  · have hdistinct := h.distinct
    rw [(hperm.map _).nodup_iff, List.map_cons, List.nodup_cons] at hdistinct
    exact hdistinct.2
  · have hcount := h.count
    rw [hperm.length_eq, List.length_cons] at hcount
    dsimp only [free_cache_entry]
    omega
  · have hmemory := h.memory
    rw [(hperm.map _).sum_eq, List.map_cons, List.sum_cons] at hmemory
    dsimp only [free_cache_entry]
    rw [hmemory, add_sub_cancel_left]
  · exact h.batch

theorem Holds.unlink {before after : List Node} {n : Node} (h : Holds cache (before ++ n :: after)) :
    ∃ lru, cache.lru.unlink n.1 = some lru ∧ Threads lru ((before ++ after).map Prod.fst) ∧
      lru.links n.1 = cache.lru.links n.1 := by
  have hlist := h.list
  rw [List.map_append, List.map_cons] at hlist
  obtain ⟨lru, hunlink, hthreads, hframe⟩ := hlist.unlink
  rw [← List.map_append] at hthreads hframe
  exact ⟨lru, hunlink, hthreads, hframe n.1 h.apart⟩

/-- `uvhttp_lru_cache_remove` takes out the entry of the path. -/
theorem Holds.remove {nodes : List Node} (h : Holds cache nodes) (file_path : List UInt8) :
    (∃ before n after cache', nodes = before ++ n :: after ∧ n.2.file_path = file_path ∧
      uvhttp_lru_cache_remove cache file_path = some (.OK, cache') ∧ Holds cache' (before ++ after) ∧
      config cache' = config cache) ∨
    (uvhttp_lru_cache_remove cache file_path = some (.NOT_FOUND, cache) ∧ ∀ n ∈ nodes, n.2.file_path ≠ file_path) := by
  obtain ⟨before, n, after, rfl, hpath, hfind⟩ | ⟨hfind, habsent⟩ := h.hash_find_cases file_path
  · left
    obtain ⟨lru, hunlink, hthreads, -⟩ := h.unlink
    obtain ⟨cache', hdrop, hholds, hconfig⟩ := h.drop hthreads
    refine ⟨before, n, after, cache', rfl, hpath, ?_, hholds, hconfig⟩
    simp only [uvhttp_lru_cache_remove, hfind, hunlink, hdrop, Option.bind_eq_bind, Option.bind_some]
  · right
    refine ⟨?_, habsent⟩
    rw [uvhttp_lru_cache_remove, hfind]

end removal

section access

variable {cache : CacheManager}

/-- `uvhttp_lru_cache_move_to_head` of an entry on the list. -/
theorem Holds.move_to_head {before after : List Node} {n : Node} (h : Holds cache (before ++ n :: after)) :
    ∃ cache', uvhttp_lru_cache_move_to_head cache n.1 = some cache' ∧ Holds cache' (n :: (before ++ after)) ∧
      config cache' = config cache := by
  have hperm : (before ++ n :: after).Perm (n :: (before ++ after)) := List.perm_middle
  have hholds : ∀ lru, Threads lru ((n :: (before ++ after)).map Prod.fst) →
      Holds { cache with lru } (n :: (before ++ after)) := by
    intro lru hlru
    refine ⟨hlru, h.table.trans (hperm.map _), ?_, ?_, ?_, ?_, ?_, ?_, h.batch⟩
    · exact fun m hm => h.entry m (hperm.mem_iff.mpr hm)
    · exact fun p hp => (hperm.map _).mem_iff.mp (h.owned p hp)
    · exact fun m hm => h.content m (hperm.mem_iff.mpr hm)
    · exact (hperm.map _).nodup_iff.mp h.distinct
    · exact h.count.trans (congrArg Nat.cast hperm.length_eq)
    · exact h.memory.trans (hperm.map _).sum_eq
  have hnode : cache.lru.links n.1 = some ⟨(before.map Prod.fst).getLast?, (after.map Prod.fst).head?⟩ := by
    have hlist := h.list.toLinked
    rw [List.map_append, List.map_cons] at hlist
    exact hlist.node
  cases before with
  | nil =>
    have hhead : cache.lru.head = some n.1 := h.list.head
    refine ⟨cache, ?_, hholds cache.lru h.list, rfl⟩
    rw [uvhttp_lru_cache_move_to_head, if_pos hhead]
  | cons first before =>
    have hfirst : cache.lru.head = some first.1 := h.list.head
    have hhead : cache.lru.head ≠ some n.1 := by
      rw [hfirst]
      intro heq
      exact h.apart (by simp [← Option.some.inj heq])
    have hprev : ((first :: before).map Prod.fst).getLast? ≠ none := by simp
    obtain ⟨lru, hunlink, hthreads, hsame⟩ := h.unlink
    obtain ⟨lru', hpush, hthreads', -⟩ := hthreads.push_front h.apart (by rw [hsame, hnode]; rfl)
    refine ⟨{ cache with lru := lru' }, ?_, hholds lru' hthreads', rfl⟩
    rw [uvhttp_lru_cache_move_to_head, if_neg hhead, hnode]
    simp only [Option.bind_eq_bind, Option.bind_some, hprev, false_and, if_false, hunlink, hpush]

/-- The data of an entry is replaced, and the total with it. -/
theorem Holds.set {before after : List Node} {p : Nat} {e e' : CacheEntry} (h : Holds cache (before ++ (p, e) :: after))
    (hpath : e'.file_path = e.file_path) (hcontent : e'.content.isSome = true) :
    Holds { set_entry cache p e' with
      total_memory_usage := cache.total_memory_usage - e.memory_usage + e'.memory_usage }
      (before ++ (p, e') :: after) := by
  have hkeys : ∀ f : Node → Nat, f (p, e') = f (p, e) →
      (before ++ (p, e') :: after).map f = (before ++ (p, e) :: after).map f := by
    intro f hf
    rw [List.map_append, List.map_append, List.map_cons, List.map_cons, hf]
  have hothers : ∀ m ∈ before ++ (p, e') :: after, m = (p, e') ∨ m.1 ≠ p ∧ m ∈ before ++ (p, e) :: after := by
    intro m hm
    have hsplit : m = (p, e') ∨ m ∈ before ++ after := by
      rw [List.mem_append, List.mem_cons] at hm
      rw [List.mem_append]
      tauto
    obtain hsame | hother := hsplit
    · exact .inl hsame
    · refine .inr ⟨fun heq => ?_, List.perm_middle.mem_iff.mpr (List.mem_cons_of_mem _ hother)⟩
      have hkey : m.1 ∈ (before ++ after).map Prod.fst := List.mem_map_of_mem hother
      rw [heq] at hkey
      exact h.apart hkey
  constructor
  · rw [hkeys Prod.fst rfl]
    exact h.list
  · rw [hkeys Prod.fst rfl]
    exact h.table
  · intro m hm
    obtain rfl | ⟨hne, hmem⟩ := hothers m hm
    · exact Function.update_self _ _ _
    · exact (Function.update_of_ne hne _ _).trans (h.entry m hmem)
  · intro q hq
    rw [hkeys Prod.fst rfl]
    by_cases hne : q = p
    · rw [hne]
      simp
    · exact h.owned q ((Function.update_of_ne hne _ _).symm.trans_ne hq)
  · intro m hm
    obtain rfl | ⟨-, hmem⟩ := hothers m hm
    · exact hcontent
    · exact h.content m hmem
  · have hdistinct := h.distinct
    rw [List.map_append, List.map_cons] at hdistinct ⊢
    rw [hpath]
    exact hdistinct
  · have hcount := h.count
    rw [List.length_append, List.length_cons] at hcount ⊢
    exact hcount
  · have hmemory := h.memory
    rw [(List.perm_middle.map _).sum_eq, List.map_cons, List.sum_cons] at hmemory ⊢
    dsimp only
    rw [hmemory, add_sub_cancel_left]
    exact add_comm _ _
  · exact h.batch

/-- Data of an entry that the counters do not see. -/
theorem Holds.touch {before after : List Node} {p : Nat} {e e' : CacheEntry}
    (h : Holds cache (before ++ (p, e) :: after)) (hpath : e'.file_path = e.file_path)
    (hcontent : e'.content.isSome = true) (hmemory : e'.memory_usage = e.memory_usage) :
    Holds (set_entry cache p e') (before ++ (p, e') :: after) := by
  have hset := h.set hpath hcontent
  rw [hmemory, sub_add_cancel] at hset
  exact hset

/-- What `uvhttp_lru_cache_find` may do: move the entry of the path to the front,
remove it because it is too old, or miss. -/
inductive Found (now : Int) (cache : CacheManager) (file_path : List UInt8) (nodes : List Node) :
    Option Nat × CacheManager → Prop where
  | hit (before after : List Node) (p : Nat) (e : CacheEntry) (cache' : CacheManager)
      (hnodes : nodes = before ++ (p, e) :: after) (hpath : e.file_path = file_path)
      (hfresh : uvhttp_lru_cache_is_expired now e cache.cache_ttl = false)
      (h : Holds cache' ((p, { e with access_time := now }) :: (before ++ after)))
      (hconfig : config cache' = config cache) : Found now cache file_path nodes (some p, cache')
  | expired (before after : List Node) (n : Node) (cache' : CacheManager) (hnodes : nodes = before ++ n :: after)
      (hpath : n.2.file_path = file_path) (hold : uvhttp_lru_cache_is_expired now n.2 cache.cache_ttl = true)
      (h : Holds cache' (before ++ after)) (hconfig : config cache' = config cache) :
      Found now cache file_path nodes (none, cache')
  | miss (cache' : CacheManager) (habsent : ∀ n ∈ nodes, n.2.file_path ≠ file_path) (h : Holds cache' nodes)
      (hconfig : config cache' = config cache) : Found now cache file_path nodes (none, cache')

theorem Holds.with_stats {nodes : List Node} (h : Holds cache nodes) (hit_count miss_count eviction_count : Int) :
    Holds { cache with hit_count, miss_count, eviction_count } nodes :=
  ⟨h.list, h.table, h.entry, h.owned, h.content, h.distinct, h.count, h.memory, h.batch⟩

theorem Holds.find {nodes : List Node} (h : Holds cache nodes) (now : Int) (file_path : List UInt8) :
    ∃ result, uvhttp_lru_cache_find now cache file_path = some result ∧ Found now cache file_path nodes result := by
  rw [uvhttp_lru_cache_find]
  obtain ⟨before, n, after, rfl, hpath, hfind⟩ | ⟨hfind, habsent⟩ := h.hash_find_cases file_path
  · obtain ⟨p, e⟩ := n
    have he : cache.entries p = some e := h.entry (p, e) (by simp)
    simp only [hfind, he, Option.bind_eq_bind, Option.bind_some]
    cases hold : uvhttp_lru_cache_is_expired now e cache.cache_ttl with
    | true =>
      rw [if_pos rfl]
      obtain ⟨before', m, after', cache', hsplit, hpath', hremove, hholds, hconfig⟩ | ⟨-, habsent⟩ := h.remove file_path
      · have hsame : m = (p, e) := by
          refine h.eq_of_path ?_ (by simp) (hpath'.trans hpath.symm)
          rw [hsplit]
          simp
        rw [hremove]
        refine ⟨_, rfl, .expired before' after' m _ hsplit hpath' ?_ (hholds.with_stats _ _ _) hconfig⟩
        rw [hsame]
        exact hold
      · exact absurd hpath (habsent (p, e) (by simp))
    | false =>
      rw [if_neg Bool.false_ne_true]
      have htouched : Holds (set_entry cache p { e with access_time := now })
          (before ++ (p, { e with access_time := now }) :: after) := h.touch rfl (h.content (p, e) (by simp)) rfl
      obtain ⟨cache', hmove, hholds, hconfig⟩ := htouched.move_to_head
      rw [hmove]
      exact ⟨_, rfl, .hit before after p e _ rfl hpath hold (hholds.with_stats _ _ _) hconfig⟩
  · simp only [hfind]
    exact ⟨_, rfl, .miss _ habsent (h.with_stats _ _ _) rfl⟩

end access

section eviction

variable {cache : CacheManager} {nodes : List Node}

/-- `uvhttp_lru_cache_remove_tail` takes the last entry off the list. -/
theorem Holds.remove_tail (h : Holds cache nodes) :
    (nodes = [] ∧ uvhttp_lru_cache_remove_tail cache = some (none, cache)) ∨
    ∃ init n lru, nodes = init ++ [n] ∧ uvhttp_lru_cache_remove_tail cache = some (some n.1, { cache with lru }) ∧
      Threads lru (init.map Prod.fst) := by
  obtain rfl | ⟨init, n, rfl⟩ := List.eq_nil_or_concat' nodes
  · refine .inl ⟨rfl, ?_⟩
    rw [uvhttp_lru_cache_remove_tail, h.list.tail]
    rfl
  · right
    have hlist := h.list
    rw [List.map_append, List.map_cons, List.map_nil] at hlist
    have hfresh : n.1 ∉ init.map Prod.fst := by
      have hapart := h.apart
      rw [List.append_nil] at hapart
      exact hapart
    have hnode := hlist.toLinked.node
    have hbefore := (segment_append.mp hlist.nodes).1
    let c₁ : Chain := { cache.lru with tail := (init.map Prod.fst).getLast? }
    obtain ⟨c₂, hset, hsegment, hhead₂, htail₂, hframe₂⟩ :=
      @set_next_last c₁ _ _ _ hbefore (List.nodup_append.mp hlist.nodup).1 none
    let c₃ : Chain := if (init.map Prod.fst).getLast?.isNone then { c₂ with head := none } else c₂
    have hlinks₃ : c₃.links = c₂.links := by
      dsimp only [c₃]
      split
      · rfl
      · rfl
    have hsome : (c₃.links n.1).isSome = true := by
      rw [hlinks₃, hframe₂ n.1 hfresh, hnode]
      rfl
    obtain ⟨c₄, hclear, hhead₄, htail₄, hframe₄⟩ := clear_links_eq hsome
    refine ⟨init, n, c₄, rfl, ?_, ⟨⟨(List.nodup_append.mp hlist.nodup).1, ?_⟩, ?_, ?_⟩⟩
    · rw [uvhttp_lru_cache_remove_tail, hlist.tail, List.getLast?_concat]
      simp only [hnode, Option.bind_eq_bind, Option.bind_some]
      rw [hset]
      simp only [Option.bind_some]
      rw [hclear]
      rfl
    · refine hsegment.congr fun q hq => ?_
      rw [hframe₄ q (ne_of_mem_of_not_mem hq hfresh), hlinks₃]
    · rw [hhead₄]
      dsimp only [c₃]
      cases init with
      | nil => rfl
      | cons first init =>
        rw [if_neg (by simp), hhead₂]
        exact hlist.head
    · have htail₃ : c₃.tail = c₂.tail := by
        dsimp only [c₃]
        split
        · rfl
        · rfl
      rw [htail₄, htail₃, htail₂]

/-- Whether an entry may be evicted: with priorities only below the threshold. -/
def evictable (cache : CacheManager) (n : Node) : Bool :=
  !(cache.enable_priority_eviction && n.2.priority ≥ cache.min_priority_threshold)

/-- Whether entries leave no room for one of some size. -/
def crowded (exceeds : Exceeds) (memory_usage : UInt64) (cache : CacheManager) (nodes : List Node) : Bool :=
  (cache.max_memory_usage > 0 &&
    exceeds ((nodes.map fun n => n.2.memory_usage).sum + memory_usage) cache.max_memory_usage) ||
    (cache.max_entries > 0 && (nodes.length : Int) ≥ cache.max_entries)

theorem evictable_of_disabled (h : cache.enable_priority_eviction = false) (n : Node) :
    evictable cache n = true := by
  rw [evictable, h]
  rfl

theorem priority_of_config {cache' : CacheManager} (h : config cache' = config cache) :
    cache'.enable_priority_eviction = cache.enable_priority_eviction :=
  congrArg (fun c => c.2.2.2.2.2.1) h

theorem evictable_of_config {cache' : CacheManager} (h : config cache' = config cache) :
    evictable cache' = evictable cache := by
  have hthreshold : cache'.min_priority_threshold = cache.min_priority_threshold :=
    congrArg (fun c => c.2.2.2.2.2.2) h
  funext n
  rw [evictable, evictable, priority_of_config h, hthreshold]

theorem crowded_of_config {cache' : CacheManager} (h : config cache' = config cache) (exceeds : Exceeds)
    (memory_usage : UInt64) : crowded exceeds memory_usage cache' = crowded exceeds memory_usage cache := by
  have hmemory : cache'.max_memory_usage = cache.max_memory_usage := congrArg Prod.fst h
  have hentries : cache'.max_entries = cache.max_entries := congrArg (fun c => c.2.2.1) h
  funext nodes
  rw [crowded, crowded, hmemory, hentries]

theorem Holds.needs_room_eq (h : Holds cache nodes) (exceeds : Exceeds) (memory_usage : UInt64) :
    needs_room exceeds cache memory_usage = crowded exceeds memory_usage cache nodes := by
  rw [needs_room, crowded, h.memory, h.count]

/-- A list with entries of the hash table. -/
structure Listed (cache : CacheManager) (nodes : List Node) : Prop where
  list : Threads cache.lru (nodes.map Prod.fst)
  entry : ∀ n ∈ nodes, cache.entries n.1 = some n.2
  table : nodes.length ≤ cache.hash_table.length

theorem Holds.listed (h : Holds cache nodes) : Listed cache nodes := by
  refine ⟨h.list, h.entry, ?_⟩
  rw [h.table.length_eq, List.length_map]

/-- The search for an entry to evict finds the last of those that may be evicted. -/
theorem Listed.find_unprotected {before rest : List Node} (h : Listed cache (before ++ rest)) {fuel : Nat}
    (hfuel : before.length < fuel) :
    (∃ n left, Evicts (evictable cache) before n left ∧
      lru_cache.find_unprotected cache fuel (before.map Prod.fst).getLast? = some (some n.1)) ∨
    (lru_cache.find_unprotected cache fuel (before.map Prod.fst).getLast? = some none ∧
      ∀ n ∈ before, evictable cache n = false) := by
  induction before using List.reverseRecOn generalizing rest fuel with
  | nil =>
    obtain ⟨fuel, rfl⟩ := Nat.exists_eq_succ_of_ne_zero (Nat.ne_of_gt hfuel)
    exact .inr ⟨rfl, nofun⟩
  | append_singleton before n ih =>
    obtain ⟨fuel, rfl⟩ := Nat.exists_eq_succ_of_ne_zero (Nat.ne_of_gt ((Nat.zero_le _).trans_lt hfuel))
    rw [List.append_assoc, List.singleton_append] at h
    have hn : cache.entries n.1 = some n.2 := h.entry n (by simp)
    have hlist := h.list.toLinked
    rw [List.map_append, List.map_cons] at hlist
    have hlast : ((before ++ [n]).map Prod.fst).getLast? = some n.1 := by simp
    rw [hlast, lru_cache.find_unprotected, hn]
    simp only [Option.bind_eq_bind, Option.bind_some]
    by_cases hprotected : cache.enable_priority_eviction = true ∧ n.2.priority ≥ cache.min_priority_threshold
    · have hkept : evictable cache n = false := by
        rw [evictable, hprotected.1, decide_eq_true hprotected.2]
        rfl
      rw [if_pos hprotected, hlist.node]
      simp only [Option.bind_some]
      have hshort : before.length < fuel := by
        rw [List.length_append, List.length_singleton] at hfuel
        exact Nat.lt_of_succ_lt_succ hfuel
      obtain ⟨m, left, hevicts, hfound⟩ | ⟨hnone, hall⟩ := ih h hshort
      · exact .inl ⟨m, _, hevicts.append_singleton hkept, hfound⟩
      · refine .inr ⟨hnone, fun m hm => ?_⟩
        obtain hm | hm := List.mem_append.mp hm
        · exact hall m hm
        · rw [List.mem_singleton.mp hm, hkept]
    · have hfree : evictable cache n = true := by
        rw [evictable, Bool.not_eq_true', Bool.and_eq_false_iff, decide_eq_false_iff_not, ← Bool.not_eq_true]
        exact not_and_or.mp hprotected
      rw [if_neg hprotected]
      exact .inl ⟨n, _, .last before n [] hfree nofun, rfl⟩

/-- `uvhttp_lru_cache_remove_lowest_priority` takes the last entry that may be evicted
off the list. -/
theorem Listed.remove_lowest_priority (h : Listed cache nodes) :
    (∃ n left lru, Evicts (evictable cache) nodes n left ∧
      uvhttp_lru_cache_remove_lowest_priority cache = some (some n.1, { cache with lru }) ∧
      Threads lru (left.map Prod.fst)) ∨
    (uvhttp_lru_cache_remove_lowest_priority cache = some (none, cache) ∧
      ∀ n ∈ nodes, evictable cache n = false) := by
  rw [uvhttp_lru_cache_remove_lowest_priority, h.list.tail]
  have hall : Listed cache (nodes ++ []) := by
    rw [List.append_nil]
    exact h
  obtain ⟨n, left, hevicts, hfound⟩ | ⟨hnone, hprotected⟩ := hall.find_unprotected (Nat.lt_succ_of_le h.table)
  · left
    cases hevicts with
    | last before _ after hfree hafter =>
      have hlist := h.list
      rw [List.map_append, List.map_cons] at hlist
      obtain ⟨lru, hunlink, hthreads, hframe⟩ := hlist.unlink
      have hapart : n.1 ∉ before.map Prod.fst ++ after.map Prod.fst :=
        (List.nodup_cons.mp (List.perm_middle.nodup_iff.mp hlist.nodup)).1
      have hsome : (lru.links n.1).isSome = true := by
        rw [hframe n.1 hapart]
        exact hlist.nodes.isSome (by simp)
      obtain ⟨lru', hclear, hhead, htail, hsame⟩ := clear_links_eq hsome
      refine ⟨n, _, lru', .last before n after hfree hafter, ?_, ?_⟩
      · rw [hfound]
        simp only [Option.bind_eq_bind, Option.bind_some, hunlink, hclear]
      · rw [List.map_append]
        exact hthreads.congr (fun q hq => hsame q (ne_of_mem_of_not_mem hq hapart)) hhead htail
  · right
    refine ⟨?_, hprotected⟩
    rw [hnone]
    rfl

/-- What is chosen for eviction is the last entry that may be evicted. -/
theorem Holds.choose_evicted (h : Holds cache nodes) :
    (∃ n left lru, Evicts (evictable cache) nodes n left ∧
      lru_cache.choose_evicted cache = some (some n.1, { cache with lru }) ∧ Threads lru (left.map Prod.fst)) ∨
    (lru_cache.choose_evicted cache = some (none, cache) ∧ ∀ n ∈ nodes, evictable cache n = false) := by
  rw [lru_cache.choose_evicted]
  by_cases henabled : cache.enable_priority_eviction = true
  · rw [if_pos henabled]
    exact h.listed.remove_lowest_priority
  · rw [if_neg henabled]
    obtain ⟨rfl, hnone⟩ | ⟨init, n, lru, rfl, hremoved, hthreads⟩ := h.remove_tail
    · exact .inr ⟨hnone, nofun⟩
    · have hevicts := Evicts.last init n [] (evictable_of_disabled (Bool.not_eq_true _ ▸ henabled) n) nofun
      rw [List.append_nil] at hevicts
      exact .inl ⟨n, init, lru, hevicts, hremoved, hthreads⟩

variable {exceeds : Exceeds} {memory_usage : UInt64}

/-- A batch evicts entries until it is used up, there is room, or no entry may be evicted. -/
theorem Holds.evict_batch (h : Holds cache nodes) (i : Nat) :
    ∃ cache' n kept, lru_cache.evict_batch exceeds memory_usage i cache = some cache' ∧ Holds cache' kept ∧
      config cache' = config cache ∧
      Evicted (evictable cache) (crowded exceeds memory_usage cache) n nodes kept ∧
      (n = i ∨ crowded exceeds memory_usage cache kept = false ∨ ∀ m ∈ kept, evictable cache m = false) := by
  induction i generalizing cache nodes with
  | zero => exact ⟨cache, 0, nodes, rfl, h, rfl, .refl nodes, .inl rfl⟩
  | succ i ih =>
    rw [lru_cache.evict_batch, h.needs_room_eq]
    cases hcrowded : crowded exceeds memory_usage cache nodes with
    | false => exact ⟨cache, 0, nodes, if_neg Bool.false_ne_true, h, rfl, .refl nodes, .inr (.inl hcrowded)⟩
    | true =>
      rw [if_pos rfl]
      obtain ⟨n, left, lru, hevicts, hchosen, hthreads⟩ | ⟨hchosen, hall⟩ := h.choose_evicted
      · cases id hevicts with
        | last before _ after hfree hafter =>
          obtain ⟨cache₁, hdrop, hholds, hconfig⟩ := h.drop hthreads
          have hcounted := hholds.with_stats cache₁.hit_count cache₁.miss_count (cache₁.eviction_count + 1)
          obtain ⟨cache', k, kept, hbatch, hkept, hconfig', hevicted, hend⟩ := ih hcounted
          have hsame : config { cache₁ with eviction_count := cache₁.eviction_count + 1 } = config cache := hconfig
          rw [evictable_of_config hsame, crowded_of_config hsame] at hevicted hend
          refine ⟨cache', k + 1, kept, ?_, hkept, hconfig'.trans hsame, .next hcrowded hevicts hevicted, ?_⟩
          · rw [hchosen]
            simp only [Option.bind_eq_bind, Option.bind_some, hdrop]
            exact hbatch
          · exact hend.imp_left (congrArg Nat.succ)
      · refine ⟨cache, 0, nodes, ?_, h, rfl, .refl nodes, .inr (.inr hall)⟩
        rw [hchosen]
        rfl

/-- The eviction loop evicts entries until there is room or none is left. -/
theorem Holds.evict_loop (h : Holds cache nodes) {fuel : Nat} {room : Bool} {cache' : CacheManager}
    (hloop : lru_cache.evict_loop exceeds memory_usage fuel cache = some (room, cache')) :
    ∃ n kept, Holds cache' kept ∧ config cache' = config cache ∧
      Evicted (evictable cache) (crowded exceeds memory_usage cache) n nodes kept ∧
      crowded exceeds memory_usage cache kept = !room ∧ (room = false → kept = []) := by
  induction fuel generalizing cache nodes with
  | zero => cases hloop
  | succ fuel ih =>
    rw [lru_cache.evict_loop, h.needs_room_eq] at hloop
    cases hcrowded : crowded exceeds memory_usage cache nodes with
    | false =>
      rw [hcrowded, if_neg Bool.false_ne_true] at hloop
      cases hloop
      exact ⟨0, nodes, h, rfl, .refl nodes, hcrowded, nofun⟩
    | true =>
      rw [hcrowded, if_pos rfl] at hloop
      split at hloop
      · rename_i htail
        cases hloop
        rw [h.list.tail, List.getLast?_eq_none_iff, List.map_eq_nil_iff] at htail
        exact ⟨0, nodes, h, rfl, .refl nodes, hcrowded, fun _ => htail⟩
      · obtain ⟨cache₁, k, kept₁, hbatch, hholds, hconfig, hevicted, -⟩ :=
          @Holds.evict_batch cache nodes exceeds memory_usage h cache.batch_eviction_size
        rw [hbatch] at hloop
        obtain ⟨n, kept, hkept, hconfig', hevicted', hroom, hempty⟩ := ih hholds hloop
        rw [evictable_of_config hconfig, crowded_of_config hconfig] at hevicted'
        rw [crowded_of_config hconfig] at hroom
        exact ⟨k + n, kept, hkept, hconfig'.trans hconfig, hevicted.trans hevicted', hroom, hempty⟩

variable (exceeds memory_usage) in
/-- When evictions come to an end, so does the loop. -/
theorem Holds.evict_loop_isSome (h : Holds cache nodes)
    (hfrees : Frees (evictable cache) (crowded exceeds memory_usage cache) nodes) {fuel : Nat}
    (hfuel : nodes.length < fuel) : (lru_cache.evict_loop exceeds memory_usage fuel cache).isSome = true := by
  induction fuel generalizing cache nodes with
  | zero => cases hfuel
  | succ fuel ih =>
    rw [lru_cache.evict_loop, h.needs_room_eq]
    cases hcrowded : crowded exceeds memory_usage cache nodes with
    | false => rfl
    | true =>
      rw [if_pos rfl]
      split
      · rfl
      · rename_i htail
        obtain ⟨cache₁, n, kept, hbatch, hholds, hconfig, hevicted, hend⟩ :=
          @Holds.evict_batch cache nodes exceeds memory_usage h cache.batch_eviction_size
        have hfrees₁ := hevicted.frees_iff.mp hfrees
        rw [hbatch]
        refine ih hholds ?_ ?_
        · rw [evictable_of_config hconfig, crowded_of_config hconfig]
          exact hfrees₁
        · have hless : 0 < n := by
            by_contra hnone
            obtain rfl := Nat.eq_zero_of_not_pos hnone
            cases hevicted
            obtain hbatch_empty | hroom | hall := hend
            · exact absurd h.batch (hbatch_empty ▸ Nat.lt_irrefl 0)
            · rw [hcrowded] at hroom
              cases hroom
            · have hempty := hfrees.eq_nil hcrowded hall
              rw [hempty] at h
              exact htail h.list.tail
          have hlength := hevicted.length_eq
          omega

end eviction

section storage

variable {cache : CacheManager} {nodes : List Node}

theorem Holds.fresh (h : Holds cache nodes) {p : Nat} (hp : cache.entries p = none) : p ∉ nodes.map Prod.fst := by
  intro hmem
  obtain ⟨n, hn, rfl⟩ := List.mem_map.mp hmem
  rw [h.entry n hn] at hp
  cases hp

/-- A new entry in the hash table goes to the front of the list. -/
theorem Holds.insert (h : Holds cache nodes) {p : Nat} (hp : cache.entries p = none) {e : CacheEntry}
    (hpath : ∀ n ∈ nodes, n.2.file_path ≠ e.file_path) (hcontent : e.content.isSome = true) :
    ∃ cache', uvhttp_lru_cache_move_to_head { set_entry cache p e with
        lru := cache.lru.create p
        hash_table := cache.hash_table ++ [p]
        entry_count := cache.entry_count + 1
        total_memory_usage := cache.total_memory_usage + e.memory_usage } p = some cache' ∧
      Holds cache' ((p, e) :: nodes) ∧ config cache' = config cache := by
  have hfresh := h.fresh hp
  have hnew : (cache.lru.create p).links p = some ⟨none, none⟩ := Function.update_self _ _ _
  have hlist : Threads (cache.lru.create p) (nodes.map Prod.fst) :=
    h.list.congr (fun q hq => Function.update_of_ne (ne_of_mem_of_not_mem hq hfresh) _ _) rfl rfl
  have hhead : (cache.lru.create p).head ≠ some p := by
    rw [hlist.head]
    exact fun heq => hfresh (List.mem_of_mem_head? heq)
  have hmoved : ∃ lru, Threads lru (p :: nodes.map Prod.fst) ∧
      uvhttp_lru_cache_move_to_head { set_entry cache p e with
        lru := cache.lru.create p
        hash_table := cache.hash_table ++ [p]
        entry_count := cache.entry_count + 1
        total_memory_usage := cache.total_memory_usage + e.memory_usage } p = some { set_entry cache p e with
        lru
        hash_table := cache.hash_table ++ [p]
        entry_count := cache.entry_count + 1
        total_memory_usage := cache.total_memory_usage + e.memory_usage } := by
    rw [uvhttp_lru_cache_move_to_head, if_neg hhead, hnew]
    by_cases hempty : (cache.lru.create p).head = none
    · have hnil : nodes.map Prod.fst = [] := by
        rw [hlist.head, List.head?_eq_none_iff] at hempty
        exact hempty
      rw [hnil] at hlist ⊢
      obtain ⟨lru, hpush, hthreads, -⟩ := hlist.push_front List.not_mem_nil (by rw [hnew]; rfl)
      refine ⟨lru, hthreads, ?_⟩
      have hunlink := hlist.unlink_apart hnew
      simp only [Option.bind_eq_bind, Option.bind_some, hempty, ne_eq, not_true_eq_false, and_false, if_false,
        hunlink, hpush]
    · obtain ⟨lru, hpush, hthreads, -⟩ := hlist.push_front hfresh (by rw [hnew]; rfl)
      refine ⟨lru, hthreads, ?_⟩
      simp only [Option.bind_eq_bind, Option.bind_some, ne_eq, hempty, not_false_eq_true, and_self, if_true, hpush]
  obtain ⟨lru, hthreads, hmoved⟩ := hmoved
  refine ⟨_, hmoved, ?_, rfl⟩
  constructor
  · exact hthreads
  · exact (List.perm_append_singleton p _).trans (h.table.cons p)
  · intro n hn
    obtain rfl | hold := List.mem_cons.mp hn
    · exact Function.update_self _ _ _
    · have hne : n.1 ≠ p := ne_of_mem_of_not_mem (List.mem_map_of_mem hold) hfresh
      exact (Function.update_of_ne hne _ _).trans (h.entry n hold)
  · intro q hq
    rw [List.map_cons, List.mem_cons]
    by_cases hne : q = p
    · exact .inl hne
    · exact .inr (h.owned q ((Function.update_of_ne hne _ _).symm.trans_ne hq))
  · intro n hn
    obtain rfl | hold := List.mem_cons.mp hn
    · exact hcontent
    · exact h.content n hold
  · rw [List.map_cons, List.nodup_cons]
    refine ⟨fun hmem => ?_, h.distinct⟩
    obtain ⟨n, hn, heq⟩ := List.mem_map.mp hmem
    exact hpath n hn heq
  · dsimp only
    rw [h.count, List.length_cons]
    rfl
  · rw [List.map_cons, List.sum_cons]
    dsimp only
    rw [h.memory]
    exact add_comm _ _
  · exact h.batch

/-- What a `put` stores. -/
def stored_entry (answers : PutAnswers) (request : PutRequest) (memory_usage : UInt64) (e : CacheEntry) : CacheEntry :=
  set_cache_entry_metadata { e with
    content := some request.content
    content_length := request.content.length
    memory_usage
    last_modified := request.last_modified
    access_time := answers.now
    cache_time := answers.now
    is_compressed := false
    origin := request.origin } request.mime_type request.etag

theorem store_content_ok {answers : PutAnswers} (hcontent : answers.content = true) (request : PutRequest)
    (memory_usage : UInt64) {p : Nat} {e : CacheEntry} (he : cache.entries p = some e) :
    store_content answers request memory_usage cache p =
      (uvhttp_lru_cache_move_to_head { set_entry cache p (stored_entry answers request memory_usage e) with
        total_memory_usage := cache.total_memory_usage + memory_usage } p).map fun cache => (.OK, cache) := by
  rw [store_content, he, hcontent]
  simp only [Option.bind_eq_bind, Option.bind_some, Bool.not_true, Bool.false_eq_true, if_false,
    Option.map_eq_bind]
  rfl

/-- The entry of an empty path is given up when there is no memory for its content. -/
theorem store_content_given_up {answers : PutAnswers} (hcontent : answers.content = false) (request : PutRequest)
    (memory_usage : UInt64) {p : Nat} {e : CacheEntry} (he : cache.entries p = some e) (hpath : e.file_path = []) :
    store_content answers request memory_usage cache p =
      some (.OUT_OF_MEMORY, free_cache_entry { cache with
        hash_table := cache.hash_table.erase p
        entry_count := cache.entry_count - 1 } p) := by
  rw [store_content, he, hcontent]
  simp only [Option.bind_eq_bind, Option.bind_some, Bool.not_false, if_true, hpath]

/-- A new entry that is freed at once leaves nothing behind. -/
theorem Holds.free_new (h : Holds cache nodes) {p : Nat} (hp : cache.entries p = none) (e : CacheEntry) :
    Holds (free_cache_entry { set_entry cache p e with
      lru := cache.lru.create p
      hash_table := (cache.hash_table ++ [p]).erase p
      entry_count := cache.entry_count + 1 - 1 } p) nodes := by
  have hfresh := h.fresh hp
  have hother : ∀ n ∈ nodes, n.1 ≠ p := fun n hn => ne_of_mem_of_not_mem (List.mem_map_of_mem hn) hfresh
  have htable : p ∉ cache.hash_table := fun hmem => hfresh (h.table.mem_iff.mp hmem)
  constructor
  · refine h.list.congr (fun q hq => ?_) rfl rfl
    have hne : q ≠ p := ne_of_mem_of_not_mem hq hfresh
    exact (Function.update_of_ne hne _ _).trans (Function.update_of_ne hne _ _)
  · dsimp only [free_cache_entry]
    rw [List.erase_append_right _ htable, List.erase_cons_head, List.append_nil]
    exact h.table
  · intro n hn
    exact (Function.update_of_ne (hother n hn) _ _).trans
      ((Function.update_of_ne (hother n hn) _ _).trans (h.entry n hn))
  · intro q hq
    have hne : q ≠ p := by
      rintro rfl
      exact hq (Function.update_self _ _ _)
    apply h.owned q
    exact ((Function.update_of_ne hne _ _).trans (Function.update_of_ne hne _ _)).symm.trans_ne hq
  · exact h.content
  · exact h.distinct
  · dsimp only [free_cache_entry]
    rw [add_sub_cancel_right]
    exact h.count
  · exact h.memory
  · exact h.batch

/-- The filter that leaves out one path. -/
def without_path (file_path : List UInt8) (nodes : List Node) : List Node :=
  nodes.filter fun n => n.2.file_path ≠ file_path

theorem Holds.without_path_eq {before after : List Node} {n : Node} (h : Holds cache (before ++ n :: after)) :
    without_path n.2.file_path (before ++ n :: after) = before ++ after := by
  have hdistinct := h.distinct
  rw [(List.perm_middle.map _).nodup_iff, List.map_cons, List.nodup_cons] at hdistinct
  have hothers : ∀ m ∈ before ++ after, (decide (m.2.file_path ≠ n.2.file_path)) = true := by
    intro m hm
    rw [decide_eq_true_eq]
    exact fun heq => hdistinct.1 (List.mem_map.mpr ⟨m, hm, heq⟩)
  have hdrop : without_path n.2.file_path (before ++ n :: after) = without_path n.2.file_path (before ++ after) := by
    simp [without_path]
  rw [hdrop, without_path, List.filter_eq_self]
  exact hothers

theorem without_path_absent {file_path : List UInt8} (h : ∀ n ∈ nodes, n.2.file_path ≠ file_path) :
    without_path file_path nodes = nodes := by
  rw [without_path, List.filter_eq_self]
  intro n hn
  rw [decide_eq_true_eq]
  exact h n hn

/-- The answers of a `put` for which the cache stays intact: there is memory for the
content, or the path is empty and not in the cache. -/
def ContentAllocated (answers : PutAnswers) (request : PutRequest) (nodes : List Node) : Prop :=
  answers.content = false → request.file_path = [] ∧ ∀ n ∈ nodes, n.2.file_path ≠ []

/-- What a `put` may do once there is room: fail and change nothing, or put the
entry of its path to the front. -/
inductive Stored (answers : PutAnswers) (request : PutRequest) (cache : CacheManager) (nodes : List Node) :
    UvhttpError × CacheManager → Prop where
  | failed (err : UvhttpError) (cache' : CacheManager) (herr : err ≠ .OK) (h : Holds cache' nodes)
      (hconfig : config cache' = config cache) : Stored answers request cache nodes (err, cache')
  | stored (cache' : CacheManager) (p : Nat) (e : CacheEntry) (hpath : e.file_path = request.file_path)
      (hcontent : e.content = some request.content) (htime : e.cache_time = answers.now)
      (h : Holds cache' ((p, e) :: without_path request.file_path nodes)) (hconfig : config cache' = config cache) :
      Stored answers request cache nodes (.OK, cache')

theorem Holds.store_entry (h : Holds cache nodes) {answers : PutAnswers} {request : PutRequest}
    (hcontent : ContentAllocated answers request nodes) (memory_usage : UInt64)
    (hfresh : ∀ p, answers.entry = some p → hash_find_str cache request.file_path = none →
      request.file_path.length < UVHTTP_MAX_FILE_PATH_SIZE → cache.entries p = none) :
    ∃ result, lru_cache.store_entry answers request memory_usage cache = some result ∧
      Stored answers request cache nodes result := by
  rw [lru_cache.store_entry]
  obtain ⟨before, n, after, rfl, hpath, hfind⟩ | ⟨hfind, habsent⟩ := h.hash_find_cases request.file_path
  · obtain ⟨p, e⟩ := n
    have he : cache.entries p = some e := h.entry (p, e) (by simp)
    have hok : answers.content = true := by
      by_contra hfailed
      obtain ⟨hempty, hnone⟩ := hcontent (by simpa using hfailed)
      exact hnone (p, e) (by simp) (hpath.trans hempty)
    let e' := stored_entry answers request memory_usage { e with content := none }
    have hset : Holds _ (before ++ (p, e') :: after) := h.set rfl rfl
    obtain ⟨cache', hmove, hholds, hconfig⟩ := hset.move_to_head
    have hupdate : Function.update (Function.update cache.entries p (some { e with content := none })) p (some e') =
        Function.update cache.entries p (some e') := Function.update_idem _ _ _
    refine ⟨(.OK, cache'), ?_, .stored cache' p e' hpath rfl rfl ?_ hconfig⟩
    · rw [hfind]
      simp only [he, Option.bind_eq_bind, Option.bind_some]
      rw [store_content_ok hok request memory_usage (Function.update_self _ _ _)]
      dsimp only [set_entry] at hmove ⊢
      rw [hupdate]
      exact congrArg (Option.map _) hmove
    · rw [← hpath, h.without_path_eq]
      exact hholds
  · rw [hfind]
    dsimp only
    cases hanswer : answers.entry with
    | none => exact ⟨_, rfl, .failed _ _ (by decide) h rfl⟩
    | some p =>
      dsimp only
      by_cases hlong : request.file_path.length ≥ UVHTTP_MAX_FILE_PATH_SIZE
      · rw [if_pos hlong]
        exact ⟨_, rfl, .failed _ _ (by decide) h rfl⟩
      have hp := hfresh p hanswer hfind (Nat.lt_of_not_le hlong)
      rw [if_neg hlong, hp, if_neg (by simp)]
      have hnew : Function.update cache.entries p (some (empty_entry request.file_path)) p =
          some (empty_entry request.file_path) := Function.update_self _ _ _
      cases hok : answers.content with
      | true =>
        let e' := stored_entry answers request memory_usage (empty_entry request.file_path)
        have hupdate : Function.update (Function.update cache.entries p (some (empty_entry request.file_path))) p
            (some e') = Function.update cache.entries p (some e') := Function.update_idem _ _ _
        have hothers : ∀ n ∈ nodes, n.2.file_path ≠ e'.file_path := habsent
        obtain ⟨cache', hmove, hholds, hconfig⟩ := h.insert hp hothers rfl
        refine ⟨(.OK, cache'), ?_, .stored cache' p e' rfl rfl rfl ?_ hconfig⟩
        · rw [store_content_ok hok request memory_usage hnew]
          dsimp only [set_entry] at hmove ⊢
          rw [hupdate]
          exact congrArg (Option.map _) hmove
        · rw [without_path_absent habsent]
          exact hholds
      | false =>
        obtain ⟨hempty, -⟩ := hcontent hok
        refine ⟨_, store_content_given_up hok request memory_usage hnew hempty, ?_⟩
        exact .failed _ _ (by decide) (h.free_new hp _) rfl

theorem store_entry_fresh {answers : PutAnswers} {request : PutRequest} {memory_usage : UInt64}
    {result : UvhttpError × CacheManager} (hstore : store_entry answers request memory_usage cache = some result)
    {p : Nat} (hanswer : answers.entry = some p) (hfind : hash_find_str cache request.file_path = none)
    (hshort : request.file_path.length < UVHTTP_MAX_FILE_PATH_SIZE) : cache.entries p = none := by
  rw [store_entry, hfind, hanswer] at hstore
  dsimp only at hstore
  rw [if_neg (Nat.not_le.mpr hshort)] at hstore
  by_contra hused
  rw [if_pos (Option.isSome_iff_ne_none.mpr hused)] at hstore
  cases hstore

variable {exceeds : Exceeds}

/-- A file that `put` refuses at once. -/
def TooLarge (cache : CacheManager) (request : PutRequest) : Prop :=
  request.content.length > cache.max_file_size ∨ request.content.length > SIZE_MAX - SIZEOF_CACHE_ENTRY

/-- The `memory_usage` of an entry with a file. -/
def entry_usage (request : PutRequest) : UInt64 := UInt64.ofNat (SIZEOF_CACHE_ENTRY + request.content.length)

/-- What a `put` may do: refuse the file, or evict entries and then find no room or
store its own entry. -/
theorem Holds.put_cases (h : Holds cache nodes) {answers : PutAnswers} {request : PutRequest}
    {result : UvhttpError × CacheManager} (hput : uvhttp_lru_cache_put exceeds answers cache request = some result) :
    (TooLarge cache request ∧ result = (.INVALID_PARAM, cache)) ∨
    ∃ n kept cache₁, ¬TooLarge cache request ∧ Holds cache₁ kept ∧ config cache₁ = config cache ∧
      Evicted (evictable cache) (crowded exceeds (entry_usage request) cache) n nodes kept ∧
      ((crowded exceeds (entry_usage request) cache kept = true ∧ kept = [] ∧ result = (.OUT_OF_MEMORY, cache₁)) ∨
        (crowded exceeds (entry_usage request) cache kept = false ∧
          lru_cache.store_entry answers request (entry_usage request) cache₁ = some result)) := by
  rw [uvhttp_lru_cache_put] at hput
  split at hput
  · rename_i hlarge
    cases hput
    exact .inl ⟨.inl hlarge, rfl⟩
  split at hput
  · rename_i hlarge
    cases hput
    exact .inl ⟨.inr hlarge, rfl⟩
  right
  rename_i hfile hsize
  obtain ⟨⟨room, cache₁⟩, hloop, hput⟩ := Option.bind_eq_some_iff.mp hput
  obtain ⟨n, kept, hkept, hconfig, hevicted, hroom, hempty⟩ := h.evict_loop hloop
  refine ⟨n, kept, cache₁, not_or.mpr ⟨hfile, hsize⟩, hkept, hconfig, hevicted, ?_⟩
  cases room with
  | false =>
    cases hput
    exact .inl ⟨hroom, hempty rfl, rfl⟩
  | true => exact .inr ⟨hroom, hput⟩

theorem kept_front {n : Nat} {kept : List Node} {memory_usage : UInt64}
    (h : Evicted (evictable cache) (crowded exceeds memory_usage cache) n nodes kept)
    (hdisabled : cache.enable_priority_eviction = false) : kept <+: nodes :=
  h.first_part fun n _ => evictable_of_disabled hdisabled n

theorem ContentAllocated.sublist {answers : PutAnswers} {request : PutRequest} {kept : List Node}
    (h : ContentAllocated answers request nodes) (hsub : kept.Sublist nodes) :
    ContentAllocated answers request kept :=
  fun hfailed => ⟨(h hfailed).1, fun n hn => (h hfailed).2 n (hsub.subset hn)⟩

/-- A `put` evicts some entries, without priorities the last ones, and then stores
its own or fails. -/
theorem Holds.put (h : Holds cache nodes) {answers : PutAnswers} {request : PutRequest}
    (hcontent : ContentAllocated answers request nodes) {result : UvhttpError × CacheManager}
    (hput : uvhttp_lru_cache_put exceeds answers cache request = some result) :
    ∃ kept, kept.Sublist nodes ∧ (cache.enable_priority_eviction = false → kept <+: nodes) ∧
      Stored answers request cache kept result := by
  obtain ⟨-, rfl⟩ | ⟨n, kept, cache₁, -, hkept, hconfig, hevicted, hresult⟩ := h.put_cases hput
  · exact ⟨nodes, List.Sublist.refl _, fun _ => List.prefix_refl _, .failed _ _ (by decide) h rfl⟩
  refine ⟨kept, hevicted.sublist, kept_front hevicted, ?_⟩
  obtain ⟨-, -, rfl⟩ | ⟨-, hstore⟩ := hresult
  · exact .failed _ _ (by decide) hkept hconfig
  · obtain ⟨result', hstore', hstored⟩ := hkept.store_entry (hcontent.sublist hevicted.sublist)
      (entry_usage request) fun p hanswer => store_entry_fresh hstore hanswer
    rw [hstore] at hstore'
    cases hstore'
    cases hstored with
    | failed err cache' herr hholds hconfig' => exact .failed err cache' herr hholds (hconfig'.trans hconfig)
    | stored cache' p e hpath hcontent' htime hholds hconfig' =>
      exact .stored cache' p e hpath hcontent' htime hholds (hconfig'.trans hconfig)

variable (exceeds) in
/-- Without priorities a `put` returns. -/
theorem Holds.put_isSome (h : Holds cache nodes) (hdisabled : cache.enable_priority_eviction = false)
    {answers : PutAnswers} {request : PutRequest} (hcontent : ContentAllocated answers request nodes)
    (hfresh : ∀ p, answers.entry = some p → cache.entries p = none) :
    (uvhttp_lru_cache_put exceeds answers cache request).isSome = true := by
  have hlength : nodes.length < cache.hash_table.length + 1 := Nat.lt_succ_of_le h.listed.table
  rw [uvhttp_lru_cache_put]
  split
  · rfl
  split
  · rfl
  obtain ⟨⟨room, cache₁⟩, hloop⟩ := Option.isSome_iff_exists.mp (h.evict_loop_isSome exceeds (entry_usage request)
    (.inl fun n _ => evictable_of_disabled hdisabled n) hlength)
  obtain ⟨n, kept, hkept, -, hevicted, -, -⟩ := h.evict_loop hloop
  have hsub := hevicted.sublist
  dsimp only
  rw [← entry_usage, hloop]
  cases room with
  | false => rfl
  | true =>
    have hfresh₁ : ∀ p, answers.entry = some p → hash_find_str cache₁ request.file_path = none →
        request.file_path.length < UVHTTP_MAX_FILE_PATH_SIZE → cache₁.entries p = none := by
      intro p hanswer _ _
      by_contra hused
      exact h.fresh (hfresh p hanswer) ((hsub.map _).subset (hkept.owned p hused))
    obtain ⟨result, hstore, -⟩ := hkept.store_entry (hcontent.sublist hsub) (entry_usage request) hfresh₁
    exact Option.isSome_iff_exists.mpr ⟨result, hstore⟩

end storage

end uvhttp.lru_cache
