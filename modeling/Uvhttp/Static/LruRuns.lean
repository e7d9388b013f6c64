import Uvhttp.Static.LruInvariant

namespace uvhttp.lru_cache

open linked_list

section cleanup

/-- A cache with other ends of its list. -/
def with_ends (cache : CacheManager) (head tail : Option Nat) : CacheManager :=
  { cache with lru := { cache.lru with head, tail } }

/-- A cache in which only the ends of the list may be wrong. -/
def Loose (cache : CacheManager) (nodes : List Node) : Prop :=
  Holds (with_ends cache (nodes.map Prod.fst).head? (nodes.map Prod.fst).getLast?) nodes

theorem Holds.loose {cache : CacheManager} {nodes : List Node} (h : Holds cache nodes) : Loose cache nodes := by
  have hends : with_ends cache (nodes.map Prod.fst).head? (nodes.map Prod.fst).getLast? = cache := by
    rw [with_ends, ← h.list.head, ← h.list.tail]
  rw [Loose, hends]
  exact h

theorem Loose.holds {cache : CacheManager} {nodes : List Node} (h : Loose cache nodes)
    (hhead : cache.lru.head = (nodes.map Prod.fst).head?) (htail : cache.lru.tail = (nodes.map Prod.fst).getLast?) :
    Holds cache nodes := by
  rw [Loose, with_ends, ← hhead, ← htail] at h
  exact h

theorem drop_entry_with_ends (cache : CacheManager) (p : Nat) (head tail : Option Nat) :
    drop_entry (with_ends cache head tail) p = (drop_entry cache p).map fun cache => with_ends cache head tail := by
  rw [drop_entry, drop_entry]
  cases hentry : cache.entries p with
  | none =>
    have hnone : (with_ends cache head tail).entries p = none := hentry
    rw [hnone]
    rfl
  | some e =>
    have hsome : (with_ends cache head tail).entries p = some e := hentry
    rw [hsome]
    rfl

/-- An expired entry is dropped. The ends change at the wrong side. -/
theorem Loose.drop_expired {cache : CacheManager} {before after : List Node} {n : Node}
    (h : Loose cache (before ++ n :: after)) :
    ∃ lru cache', unlink_expired cache.lru n.1 = some lru ∧ drop_entry { cache with lru } n.1 = some cache' ∧
      Loose cache' (before ++ after) ∧ config cache' = config cache ∧
      cache'.lru.head = (if after = [] then (before.map Prod.fst).getLast? else cache.lru.head) ∧
      cache'.lru.tail = (if before = [] then (after.map Prod.fst).head? else cache.lru.tail) := by
  have hlinked : Linked cache.lru (before.map Prod.fst ++ n.1 :: after.map Prod.fst) := by
    have hlist := h.list.toLinked
    rw [List.map_append, List.map_cons] at hlist
    exact hlist.congr fun _ _ => rfl
  obtain ⟨c₁, hsplice, hclosed, hhead, htail, -⟩ := hlinked.splice
  have hthreads : Threads { c₁ with
      head := ((before ++ after).map Prod.fst).head?
      tail := ((before ++ after).map Prod.fst).getLast? } ((before ++ after).map Prod.fst) := by
    rw [← List.map_append] at hclosed
    exact ⟨hclosed.congr fun _ _ => rfl, rfl, rfl⟩
  obtain ⟨cache₁, hdrop, hholds, hconfig⟩ := h.drop hthreads
  let lru : Chain := { c₁ with
    tail := if (before.map Prod.fst).getLast?.isNone then (after.map Prod.fst).head? else c₁.tail
    head := if (after.map Prod.fst).head?.isNone then (before.map Prod.fst).getLast? else c₁.head }
  have hsame : drop_entry (with_ends { cache with lru } ((before ++ after).map Prod.fst).head?
      ((before ++ after).map Prod.fst).getLast?) n.1 = some cache₁ := hdrop
  rw [drop_entry_with_ends] at hsame
  obtain ⟨cache', hdropped, hends⟩ := Option.map_eq_some_iff.mp hsame
  have hlru : cache'.lru = lru.release n.1 := by
    rw [drop_entry] at hdropped
    obtain ⟨e, -, hfree⟩ := Option.bind_eq_some_iff.mp hdropped
    cases hfree
    rfl
  refine ⟨lru, cache', ?_, hdropped, ?_, ?_, ?_, ?_⟩
  · rw [unlink_expired, hlinked.node]
    simp only [Option.bind_eq_bind, Option.bind_some, hsplice]
    rfl
  · rw [Loose, hends]
    exact hholds
  · rw [← hends] at hconfig
    exact hconfig
  · rw [hlru]
    cases after with
    | nil => rfl
    | cons m after => exact hhead
  · rw [hlru]
    obtain rfl | ⟨init, last, rfl⟩ := List.eq_nil_or_concat' before
    · rfl
    · have hlast : ((init ++ [last]).map Prod.fst).getLast?.isNone = false := by simp
      rw [if_neg (by simp)]
      dsimp only [Chain.release, lru]
      rw [hlast]
      exact htail

/-- Whether an entry is too old for the cleanup. -/
def outdated (now cache_ttl : Int) (n : Node) : Bool := now - n.2.cache_time > cache_ttl

theorem ttl_of_config {cache cache' : CacheManager} (h : config cache' = config cache) :
    cache'.cache_ttl = cache.cache_ttl :=
  congrArg (fun c => c.2.2.2.1) h

/-- The loop of the cleanup, with the entries still to be visited and those that
stayed. If the last entry goes, `head` ends at the last that stays; if the first
goes, `tail` ends at the first that stays. -/
theorem Loose.cleanup_loop {cache : CacheManager} {todo kept : List Node} (now : Int)
    (h : Loose cache (todo ++ kept)) {fuel : Nat} (hfuel : todo.length < fuel) :
    ∃ cache', lru_cache.cleanup_loop now fuel (todo.map Prod.fst).getLast? cache = some cache' ∧
      Loose cache' (todo.filter (fun n => !outdated now cache.cache_ttl n) ++ kept) ∧ config cache' = config cache ∧
      cache'.lru.head = (if kept = [] ∧ (todo.getLast?.any (outdated now cache.cache_ttl)) = true then
        ((todo.filter fun n => !outdated now cache.cache_ttl n).map Prod.fst).getLast? else cache.lru.head) ∧
      cache'.lru.tail = (if (todo.head?.any (outdated now cache.cache_ttl)) = true then
        ((todo.filter (fun n => !outdated now cache.cache_ttl n) ++ kept).map Prod.fst).head? else cache.lru.tail) := by
  induction todo using List.reverseRecOn generalizing cache kept fuel with
  | nil =>
    obtain ⟨fuel, rfl⟩ := Nat.exists_eq_succ_of_ne_zero (Nat.ne_of_gt hfuel)
    exact ⟨cache, rfl, h, rfl, by simp, by simp⟩
  | append_singleton todo n ih =>
    obtain ⟨fuel, rfl⟩ := Nat.exists_eq_succ_of_ne_zero (Nat.ne_of_gt ((Nat.zero_le _).trans_lt hfuel))
    have hshort : todo.length < fuel := by
      rw [List.length_append, List.length_singleton] at hfuel
      exact Nat.lt_of_succ_lt_succ hfuel
    rw [List.append_assoc, List.singleton_append] at h
    have hn : cache.entries n.1 = some n.2 := h.entry n (by simp)
    have hlinks : cache.lru.links n.1 = some ⟨(todo.map Prod.fst).getLast?, (kept.map Prod.fst).head?⟩ := by
      have hlist := h.list.toLinked
      rw [List.map_append, List.map_cons] at hlist
      exact hlist.node
    have hlast : ((todo ++ [n]).map Prod.fst).getLast? = some n.1 := by simp
    rw [hlast, lru_cache.cleanup_loop, hn, hlinks, List.filter_append, List.getLast?_concat]
    simp only [Option.bind_eq_bind, Option.bind_some, Option.any_some]
    by_cases hold : outdated now cache.cache_ttl n = true
    · obtain ⟨lru, cache₁, hunlink, hdrop, hloose, hconfig, hhead, htail⟩ := h.drop_expired
      have httl := ttl_of_config hconfig
      obtain ⟨cache', hloop, hloose', hconfig', hhead', htail'⟩ := ih hloose hshort
      rw [httl] at hloose' hhead' htail'
      have hgone : [n].filter (fun n => !outdated now cache.cache_ttl n) = [] := by simp [hold]
      rw [if_pos (of_decide_eq_true hold), hunlink, Option.bind_some, hdrop, Option.bind_some, hgone, List.append_nil]
      refine ⟨cache', hloop, hloose', hconfig'.trans hconfig, ?_, ?_⟩
      · rw [hhead', hhead]
        by_cases hkept : kept = []
        · simp only [hkept, true_and, hold, if_true]
          split
          · rfl
          · rename_i hlive
            obtain rfl | ⟨init, m, rfl⟩ := List.eq_nil_or_concat' todo
            · rfl
            · have hm : outdated now cache.cache_ttl m = false := by simpa using hlive
              simp [List.filter_append, hm]
        · simp only [hkept, false_and, if_false]
      · rw [htail', htail]
        cases todo with
        | nil => simp [hold]
        | cons first todo => simp
    · have hlive : outdated now cache.cache_ttl n = false := by simpa using hold
      obtain ⟨cache', hloop, hloose', hconfig', hhead', htail'⟩ := ih h hshort
      have hstays : [n].filter (fun n => !outdated now cache.cache_ttl n) = [n] := by simp [hlive]
      rw [if_neg (fun hlate => hold (decide_eq_true hlate)), hstays]
      refine ⟨cache', hloop, ?_, hconfig', ?_, ?_⟩
      · rw [List.append_assoc]
        exact hloose'
      · rw [hhead']
        simp [hlive]
      · rw [htail', List.append_assoc]
        cases todo with
        | nil => simp [hlive]
        | cons first todo => simp

/-- The cleanup finds the ends of the list right: neither of them is too old, or
both are and at most one entry stays. -/
def EndsKept (now cache_ttl : Int) (nodes : List Node) : Prop :=
  (nodes.head?.any (outdated now cache_ttl) = false ∧ nodes.getLast?.any (outdated now cache_ttl) = false) ∨
  (nodes.head?.any (outdated now cache_ttl) = true ∧ nodes.getLast?.any (outdated now cache_ttl) = true ∧
    (nodes.filter fun n => !outdated now cache_ttl n).length ≤ 1)

theorem Holds.cleanup_expired {cache : CacheManager} {nodes : List Node} (h : Holds cache nodes) (now : Int)
    (hends : 0 < cache.cache_ttl → EndsKept now cache.cache_ttl nodes) :
    ∃ cache' kept, uvhttp_lru_cache_cleanup_expired now cache = some cache' ∧ Holds cache' kept ∧
      config cache' = config cache := by
  rw [uvhttp_lru_cache_cleanup_expired]
  by_cases httl : cache.cache_ttl ≤ 0
  · rw [if_pos httl]
    exact ⟨cache, nodes, rfl, h, rfl⟩
  rw [if_neg httl, h.list.tail, h.table.length_eq, List.length_map]
  have hloose : Loose cache (nodes ++ []) := by
    rw [List.append_nil]
    exact h.loose
  obtain ⟨cache', hloop, hloose', hconfig, hhead, htail⟩ := hloose.cleanup_loop now (Nat.lt_succ_self _)
  rw [List.append_nil] at hloose' htail
  refine ⟨cache', _, hloop, hloose'.holds ?_ ?_, hconfig⟩
  · rw [hhead]
    obtain ⟨hfirst, hlast⟩ | ⟨hfirst, hlast, hone⟩ := hends (Int.lt_of_not_ge httl)
    · rw [hlast, if_neg (by simp), h.list.head]
      cases nodes with
      | nil => rfl
      | cons n nodes =>
        have hn : outdated now cache.cache_ttl n = false := by simpa using hfirst
        simp [hn]
    · rw [hlast, if_pos (by simp)]
      generalize nodes.filter (fun n => !outdated now cache.cache_ttl n) = kept at hone
      match kept, hone with
      | [], _ => rfl
      | [n], _ => rfl
  · rw [htail]
    obtain ⟨hfirst, hlast⟩ | ⟨hfirst, hlast, hone⟩ := hends (Int.lt_of_not_ge httl)
    · rw [hfirst, if_neg (by simp), h.list.tail]
      obtain rfl | ⟨init, n, rfl⟩ := List.eq_nil_or_concat' nodes
      · rfl
      · have hn : outdated now cache.cache_ttl n = false := by simpa using hlast
        simp [List.filter_append, hn]
    · rw [hfirst, if_pos rfl]
      generalize nodes.filter (fun n => !outdated now cache.cache_ttl n) = kept at hone
      match kept, hone with
      | [], _ => rfl
      | [n], _ => rfl

end cleanup

section operations

variable {cache : CacheManager} {nodes : List Node} {exceeds : Exceeds}

theorem Holds.clear (h : Holds cache nodes) : Holds (uvhttp_lru_cache_clear cache) [] := by
  refine ⟨⟨⟨List.nodup_nil, trivial⟩, rfl, rfl⟩, List.Perm.refl _, nofun, fun p hp => ?_, nofun, List.nodup_nil,
    rfl, rfl, h.batch⟩
  exfalso
  apply hp
  dsimp only [uvhttp_lru_cache_clear]
  split
  · rfl
  · rename_i hother
    by_contra hentry
    exact hother (h.table.mem_iff.mpr (h.owned p hentry))

theorem Holds.force_eviction (h : Holds cache nodes) (count : Nat) :
    ∃ cache' kept, uvhttp_lru_cache_force_eviction count cache = some cache' ∧ Holds cache' kept := by
  induction count generalizing cache nodes with
  | zero => exact ⟨cache, nodes, rfl, h⟩
  | succ count ih =>
    rw [uvhttp_lru_cache_force_eviction]
    obtain ⟨-, hnone⟩ | ⟨init, n, lru, rfl, hremoved, hthreads⟩ := h.remove_tail
    · rw [hnone]
      exact ⟨cache, nodes, rfl, h⟩
    · rw [← List.append_nil init] at hthreads
      obtain ⟨cache₁, hdrop, hholds, -⟩ := h.drop hthreads
      obtain ⟨cache', kept, hrest, hkept⟩ :=
        ih (hholds.with_stats cache₁.hit_count cache₁.miss_count (cache₁.eviction_count + 1))
      refine ⟨cache', kept, ?_, hkept⟩
      rw [hremoved]
      simp only [Option.bind_eq_bind, Option.bind_some, hdrop]
      exact hrest

/-- A priority is set and the entry moved to the front. -/
theorem Holds.set_priority {before after : List Node} {p : Nat} {e : CacheEntry}
    (h : Holds cache (before ++ (p, e) :: after)) (priority : Int) :
    ∃ cache' nodes', ((cache.entries p).bind fun e =>
        uvhttp_lru_cache_move_to_head (set_entry cache p { e with priority }) p) = some cache' ∧
      Holds cache' nodes' := by
  have hset : Holds (set_entry cache p { e with priority }) (before ++ (p, { e with priority }) :: after) :=
    h.touch rfl (h.content (p, e) (by simp)) rfl
  obtain ⟨cache', hmove, hholds, -⟩ := hset.move_to_head
  refine ⟨cache', _, ?_, hholds⟩
  rw [h.entry (p, e) (by simp), Option.bind_some]
  exact hmove

theorem Holds.set_entry_priority (h : Holds cache nodes) (now : Int) (file_path : List UInt8) (priority : Int) :
    ∃ result nodes', uvhttp_lru_cache_set_entry_priority now cache file_path priority = some result ∧
      Holds result.2 nodes' := by
  rw [uvhttp_lru_cache_set_entry_priority]
  split
  · exact ⟨_, nodes, rfl, h⟩
  obtain ⟨found, hfind, hfound⟩ := h.find now file_path
  rw [hfind]
  cases hfound with
  | hit before after p e cache' hnodes hpath hfresh hholds hconfig =>
    have hfront : Holds cache' ([] ++ (p, { e with access_time := now }) :: (before ++ after)) := hholds
    obtain ⟨cache'', nodes', hset, hholds'⟩ := hfront.set_priority priority
    obtain ⟨e', he', hmove⟩ := Option.bind_eq_some_iff.mp hset
    refine ⟨(.OK, cache''), nodes', ?_, hholds'⟩
    simp only [Option.bind_eq_bind, Option.bind_some, he', hmove]
  | expired before after n cache' hnodes hpath hold hholds hconfig => exact ⟨_, _, rfl, hholds⟩
  | miss cache' habsent hholds hconfig => exact ⟨_, _, rfl, hholds⟩

theorem Stored.holds {answers : PutAnswers} {request : PutRequest} {result : UvhttpError × CacheManager}
    (h : Stored answers request cache nodes result) : ∃ nodes', Holds result.2 nodes' := by
  cases h with
  | failed err cache' herr hholds hconfig => exact ⟨_, hholds⟩
  | stored cache' p e hpath hcontent htime hholds hconfig => exact ⟨_, hholds⟩

end operations

section runs

/-- The operations of the cache. -/
inductive Op where
  | put (answers : PutAnswers) (request : PutRequest)
  | find (now : Int) (file_path : List UInt8)
  | remove (file_path : List UInt8)
  | move_to_head (p : Nat)
  | force_eviction (count : Nat)
  | cleanup_expired (now : Int)
  | clear
  | set_entry_priority (now : Int) (file_path : List UInt8) (priority : Int)
  | prewarm (answers : PutAnswers) (request : PutRequest) (priority : Int)
  | setting (setting : Setting)

/-- An operation, `none` when it goes through an invalid pointer or does not end. -/
def step (exceeds : Exceeds) (cache : CacheManager) : Op → Option CacheManager
  | .put answers request => (uvhttp_lru_cache_put exceeds answers cache request).map Prod.snd
  | .find now file_path => (uvhttp_lru_cache_find now cache file_path).map Prod.snd
  | .remove file_path => (uvhttp_lru_cache_remove cache file_path).map Prod.snd
  | .move_to_head p => uvhttp_lru_cache_move_to_head cache p
  | .force_eviction count => uvhttp_lru_cache_force_eviction count cache
  | .cleanup_expired now => uvhttp_lru_cache_cleanup_expired now cache
  | .clear => some (uvhttp_lru_cache_clear cache)
  | .set_entry_priority now file_path priority =>
    (uvhttp_lru_cache_set_entry_priority now cache file_path priority).map Prod.snd
  | .prewarm answers request priority => (uvhttp_lru_cache_prewarm exceeds answers cache request priority).map Prod.snd
  | .setting setting => some (apply_setting cache setting)

/-- What callers owe: an entry that they move belongs to the cache. -/
def Owed (cache : CacheManager) : Op → Prop
  | .move_to_head p => p ∈ cache.hash_table
  | _ => True

/-- Whether the entry at an address is too old for the cleanup. -/
def outdated_at (now : Int) (cache : CacheManager) (p : Nat) : Bool :=
  (cache.entries p).any fun e => now - e.cache_time > cache.cache_ttl

/-- There is memory for a content, or its path is empty and not in the cache. -/
def ContentSafe (cache : CacheManager) (answers : PutAnswers) (request : PutRequest) : Prop :=
  answers.content = false → request.file_path = [] ∧ hash_find_str cache [] = none

/-- Neither end of the list is too old, or both are and at most one entry stays. -/
def CleanupSafe (cache : CacheManager) (now : Int) : Prop :=
  0 < cache.cache_ttl →
    (cache.lru.head.any (outdated_at now cache) = false ∧ cache.lru.tail.any (outdated_at now cache) = false) ∨
    (cache.lru.head.any (outdated_at now cache) = true ∧ cache.lru.tail.any (outdated_at now cache) = true ∧
      (cache.hash_table.filter fun p => !outdated_at now cache p).length ≤ 1)

/-- The steps that leave the cache intact. -/
def Safe (cache : CacheManager) : Op → Prop
  | .put answers request => ContentSafe cache answers request
  | .prewarm answers request _ => ContentSafe cache answers request
  | .cleanup_expired now => CleanupSafe cache now
  | _ => True

variable {cache : CacheManager} {nodes : List Node} {exceeds : Exceeds}

theorem Holds.content_allocated (h : Holds cache nodes) {answers : PutAnswers} {request : PutRequest}
    (hsafe : ContentSafe cache answers request) : ContentAllocated answers request nodes := by
  intro hfailed
  obtain ⟨hempty, hnone⟩ := hsafe hfailed
  refine ⟨hempty, ?_⟩
  obtain ⟨before, n, after, -, -, hfind⟩ | ⟨-, habsent⟩ := h.hash_find_cases []
  · rw [hfind] at hnone
    cases hnone
  · exact habsent

theorem Holds.outdated_at_eq (h : Holds cache nodes) (now : Int) {n : Node} (hn : n ∈ nodes) :
    outdated_at now cache n.1 = outdated now cache.cache_ttl n := by
  rw [outdated_at, h.entry n hn]
  rfl

theorem Holds.ends_kept (h : Holds cache nodes) {now : Int} (hsafe : CleanupSafe cache now)
    (httl : 0 < cache.cache_ttl) : EndsKept now cache.cache_ttl nodes := by
  have hhead : cache.lru.head.any (outdated_at now cache) = nodes.head?.any (outdated now cache.cache_ttl) := by
    rw [h.list.head]
    cases nodes with
    | nil => rfl
    | cons n nodes => exact h.outdated_at_eq now (by simp)
  have htail : cache.lru.tail.any (outdated_at now cache) = nodes.getLast?.any (outdated now cache.cache_ttl) := by
    rw [h.list.tail]
    obtain rfl | ⟨init, n, rfl⟩ := List.eq_nil_or_concat' nodes
    · rfl
    · rw [List.map_append, List.map_cons, List.map_nil, List.getLast?_concat, List.getLast?_concat]
      exact h.outdated_at_eq now (by simp)
  have hcount : (cache.hash_table.filter fun p => !outdated_at now cache p).length =
      (nodes.filter fun n => !outdated now cache.cache_ttl n).length := by
    rw [(h.table.filter _).length_eq, List.filter_map, List.length_map]
    congr 1
    refine List.filter_congr fun n hn => ?_
    exact congrArg not (h.outdated_at_eq now hn)
  have hcases := hsafe httl
  rw [hhead, htail, hcount] at hcases
  exact hcases

/-- What is left for the `put` of a prewarming. -/
theorem Found.missed {now : Int} {file_path : List UInt8} {cache' : CacheManager}
    (h : Found now cache file_path nodes (none, cache')) :
    ∃ nodes', Holds cache' nodes' ∧ nodes'.Sublist nodes ∧ config cache' = config cache := by
  cases h with
  | expired before after n _ hnodes hpath hold hholds hconfig =>
    refine ⟨_, hholds, ?_, hconfig⟩
    rw [hnodes]
    simp
  | miss _ habsent hholds hconfig => exact ⟨_, hholds, List.Sublist.refl _, hconfig⟩

theorem Holds.prewarm (h : Holds cache nodes) {answers : PutAnswers} {request : PutRequest} {priority : Int}
    (hcontent : ContentAllocated answers request nodes) {result : UvhttpError × CacheManager}
    (hprewarm : uvhttp_lru_cache_prewarm exceeds answers cache request priority = some result) :
    ∃ nodes', Holds result.2 nodes' := by
  rw [uvhttp_lru_cache_prewarm] at hprewarm
  split at hprewarm
  · cases hprewarm
    exact ⟨nodes, h⟩
  obtain ⟨⟨found, cache₁⟩, hfind, hfound⟩ := h.find answers.now request.file_path
  rw [hfind] at hprewarm
  simp only [Option.bind_eq_bind, Option.bind_some] at hprewarm
  cases found with
  | some p =>
    cases hfound with
    | hit before after _ e _ hnodes hpath hfresh hholds hconfig =>
      have hfront : Holds cache₁ ([] ++ (p, { e with access_time := answers.now }) :: (before ++ after)) := hholds
      obtain ⟨cache₂, nodes', hset, hholds'⟩ := hfront.set_priority priority
      obtain ⟨e', he', hmove⟩ := Option.bind_eq_some_iff.mp hset
      simp only [he', Option.bind_some, hmove, Option.some.injEq] at hprewarm
      rw [← hprewarm]
      exact ⟨nodes', hholds'⟩
  | none =>
    obtain ⟨nodes₁, hholds₁, hsub, -⟩ := hfound.missed
    have hcontent₁ : ContentAllocated answers request nodes₁ :=
      fun hfailed => ⟨(hcontent hfailed).1, fun n hn => (hcontent hfailed).2 n (hsub.subset hn)⟩
    obtain ⟨put, hput, hrest⟩ := Option.bind_eq_some_iff.mp hprewarm
    obtain ⟨kept, -, -, hstored⟩ := hholds₁.put hcontent₁ hput
    obtain ⟨nodes₂, hholds₂⟩ := hstored.holds
    split at hrest
    · cases hrest
      exact ⟨nodes₂, hholds₂⟩
    · obtain ⟨set, nodes₃, hset, hholds₃⟩ := hholds₂.set_entry_priority answers.now request.file_path priority
      rw [hset] at hrest
      cases hrest
      exact ⟨nodes₃, hholds₃⟩

theorem Holds.prewarm_isSome (h : Holds cache nodes) (hdisabled : cache.enable_priority_eviction = false)
    {answers : PutAnswers} {request : PutRequest} (hcontent : ContentAllocated answers request nodes)
    (hfresh : ∀ p, answers.entry = some p → cache.entries p = none) (priority : Int) :
    (uvhttp_lru_cache_prewarm exceeds answers cache request priority).isSome = true := by
  rw [uvhttp_lru_cache_prewarm]
  split
  · rfl
  obtain ⟨⟨found, cache₁⟩, hfind, hfound⟩ := h.find answers.now request.file_path
  rw [hfind]
  simp only [Option.bind_eq_bind, Option.bind_some]
  cases found with
  | some p =>
    cases hfound with
    | hit before after _ e _ hnodes hpath hlive hholds hconfig =>
      have hfront : Holds cache₁ ([] ++ (p, { e with access_time := answers.now }) :: (before ++ after)) := hholds
      obtain ⟨cache₂, nodes', hset, -⟩ := hfront.set_priority priority
      obtain ⟨e', he', hmove⟩ := Option.bind_eq_some_iff.mp hset
      simp only [he', Option.bind_some, hmove, Option.isSome_some]
  | none =>
    obtain ⟨nodes₁, hholds₁, hsub, hconfig⟩ := hfound.missed
    have hcontent₁ : ContentAllocated answers request nodes₁ :=
      fun hfailed => ⟨(hcontent hfailed).1, fun n hn => (hcontent hfailed).2 n (hsub.subset hn)⟩
    have hfresh₁ : ∀ p, answers.entry = some p → cache₁.entries p = none := by
      intro p hanswer
      by_contra hused
      exact h.fresh (hfresh p hanswer) ((hsub.map _).subset (hholds₁.owned p hused))
    obtain ⟨put, hput⟩ := Option.isSome_iff_exists.mp
      (hholds₁.put_isSome exceeds ((priority_of_config hconfig).trans hdisabled) hcontent₁ hfresh₁)
    obtain ⟨kept, -, -, hstored⟩ := hholds₁.put hcontent₁ hput
    obtain ⟨nodes₂, hholds₂⟩ := hstored.holds
    obtain ⟨set, nodes₃, hset, -⟩ := hholds₂.set_entry_priority answers.now request.file_path priority
    dsimp only
    rw [hput, Option.bind_some, hset]
    split
    · rfl
    · rfl

theorem Holds.setting (h : Holds cache nodes) (setting : Setting) : Holds (apply_setting cache setting) nodes := by
  have hsame : ∀ cache', cache'.entries = cache.entries → cache'.lru = cache.lru →
      cache'.hash_table = cache.hash_table → cache'.total_memory_usage = cache.total_memory_usage →
      cache'.entry_count = cache.entry_count → 0 < cache'.batch_eviction_size → Holds cache' nodes := by
    rintro ⟨_, _, _, _, _, _, _⟩ rfl rfl rfl rfl rfl hbatch
    exact ⟨h.list, h.table, h.entry, h.owned, h.content, h.distinct, h.count, h.memory, hbatch⟩
  cases setting with
  | batch_eviction_size value =>
    refine hsame _ rfl rfl rfl rfl rfl ?_
    dsimp only [apply_setting]
    split
    · exact Nat.zero_lt_two
    · omega
  | min_priority_threshold value =>
    rw [apply_setting]
    split
    · exact h
    · exact hsame _ rfl rfl rfl rfl rfl h.batch
  | max_file_size value => exact hsame _ rfl rfl rfl rfl rfl h.batch
  | max_memory_usage value => exact hsame _ rfl rfl rfl rfl rfl h.batch
  | max_entries value => exact hsame _ rfl rfl rfl rfl rfl h.batch
  | cache_ttl value => exact hsame _ rfl rfl rfl rfl rfl h.batch
  | enable_priority_eviction value => exact hsame _ rfl rfl rfl rfl rfl h.batch
  | reset_stats => exact hsame _ rfl rfl rfl rfl rfl h.batch

/-- The caches that operations lead to, if all of them meet a condition. -/
inductive Run (exceeds : Exceeds) (condition : CacheManager → Op → Prop) : CacheManager → Prop where
  | create (max_memory_usage : UInt64) (max_entries cache_ttl : Int) {cache : CacheManager}
      (h : uvhttp_lru_cache_create true max_memory_usage max_entries cache_ttl = .ok cache) :
      Run exceeds condition cache
  | step {cache cache' : CacheManager} (op : Op) (h : Run exceeds condition cache) (howed : Owed cache op)
      (hcondition : condition cache op) (hstep : step exceeds cache op = some cache') : Run exceeds condition cache'

theorem Holds.create {max_memory_usage : UInt64} {max_entries cache_ttl : Int}
    (h : uvhttp_lru_cache_create true max_memory_usage max_entries cache_ttl = .ok cache) :
    Holds cache [] ∧ cache.enable_priority_eviction = false := by
  rw [uvhttp_lru_cache_create] at h
  split at h
  · cases h
  split at h
  · cases h
  split at h
  · cases h
  cases h
  refine ⟨⟨⟨⟨List.nodup_nil, trivial⟩, rfl, rfl⟩, List.Perm.refl _, nofun, fun p hp => absurd rfl hp, nofun,
    List.nodup_nil, rfl, rfl, Nat.zero_lt_two⟩, rfl⟩

/-- What one step preserves. -/
theorem Holds.step (h : Holds cache nodes) {op : Op} (howed : Owed cache op) (hsafe : Safe cache op)
    {cache' : CacheManager} (hstep : lru_cache.step exceeds cache op = some cache') :
    ∃ nodes', Holds cache' nodes' := by
  cases op with
  | put answers request =>
    obtain ⟨result, hput, rfl⟩ := Option.map_eq_some_iff.mp hstep
    obtain ⟨kept, -, -, hstored⟩ := h.put (h.content_allocated hsafe) hput
    exact hstored.holds
  | find now file_path =>
    obtain ⟨result, hfind, hfound⟩ := h.find now file_path
    rw [lru_cache.step, hfind] at hstep
    cases hstep
    cases hfound with
    | hit before after p e cache' hnodes hpath hfresh hholds hconfig => exact ⟨_, hholds⟩
    | expired before after n cache' hnodes hpath hold hholds hconfig => exact ⟨_, hholds⟩
    | miss cache' habsent hholds hconfig => exact ⟨_, hholds⟩
  | remove file_path =>
    rw [lru_cache.step] at hstep
    obtain ⟨before, n, after, cache', -, -, hremove, hholds, -⟩ | ⟨hremove, -⟩ := h.remove file_path
    · rw [hremove] at hstep
      cases hstep
      exact ⟨_, hholds⟩
    · rw [hremove] at hstep
      cases hstep
      exact ⟨_, h⟩
  | move_to_head p =>
    obtain ⟨n, hn, rfl⟩ := List.mem_map.mp (h.table.mem_iff.mp howed)
    obtain ⟨before, after, rfl⟩ := List.append_of_mem hn
    obtain ⟨cache₁, hmove, hholds, -⟩ := h.move_to_head
    rw [lru_cache.step, hmove] at hstep
    cases hstep
    exact ⟨_, hholds⟩
  | force_eviction count =>
    obtain ⟨cache₁, kept, hforce, hholds⟩ := h.force_eviction count
    rw [lru_cache.step, hforce] at hstep
    cases hstep
    exact ⟨_, hholds⟩
  | cleanup_expired now =>
    obtain ⟨cache₁, kept, hcleanup, hholds, -⟩ := h.cleanup_expired now (h.ends_kept hsafe)
    rw [lru_cache.step, hcleanup] at hstep
    cases hstep
    exact ⟨_, hholds⟩
  | clear =>
    cases hstep
    exact ⟨_, h.clear⟩
  | set_entry_priority now file_path priority =>
    obtain ⟨result, nodes', hset, hholds⟩ := h.set_entry_priority now file_path priority
    rw [lru_cache.step, hset] at hstep
    cases hstep
    exact ⟨_, hholds⟩
  | prewarm answers request priority =>
    obtain ⟨result, hprewarm, rfl⟩ := Option.map_eq_some_iff.mp hstep
    exact h.prewarm (h.content_allocated hsafe) hprewarm
  | setting setting =>
    cases hstep
    exact ⟨_, h.setting setting⟩

/-- An allocation for a new entry returns memory that is not in use. -/
def Allocates (cache : CacheManager) : Op → Prop
  | .put answers _ => ∀ p, answers.entry = some p → cache.entries p = none
  | .prewarm answers _ _ => ∀ p, answers.entry = some p → cache.entries p = none
  | _ => True

/-- Without priorities every step returns. -/
theorem Holds.step_isSome (h : Holds cache nodes) (hdisabled : cache.enable_priority_eviction = false) {op : Op}
    (howed : Owed cache op) (hsafe : Safe cache op) (halloc : Allocates cache op) :
    (lru_cache.step exceeds cache op).isSome = true := by
  cases op with
  | put answers request =>
    rw [lru_cache.step, Option.isSome_map]
    exact h.put_isSome exceeds hdisabled (h.content_allocated hsafe) halloc
  | find now file_path =>
    obtain ⟨result, hfind, -⟩ := h.find now file_path
    rw [lru_cache.step, hfind]
    rfl
  | remove file_path =>
    rw [lru_cache.step]
    obtain ⟨before, n, after, cache', -, -, hremove, -, -⟩ | ⟨hremove, -⟩ := h.remove file_path
    · rw [hremove]
      rfl
    · rw [hremove]
      rfl
  | move_to_head p =>
    obtain ⟨n, hn, rfl⟩ := List.mem_map.mp (h.table.mem_iff.mp howed)
    obtain ⟨before, after, rfl⟩ := List.append_of_mem hn
    obtain ⟨cache₁, hmove, -, -⟩ := h.move_to_head
    rw [lru_cache.step, hmove]
    rfl
  | force_eviction count =>
    obtain ⟨cache₁, kept, hforce, -⟩ := h.force_eviction count
    rw [lru_cache.step, hforce]
    rfl
  | cleanup_expired now =>
    obtain ⟨cache₁, kept, hcleanup, -, -⟩ := h.cleanup_expired now (h.ends_kept hsafe)
    rw [lru_cache.step, hcleanup]
    rfl
  | clear => rfl
  | set_entry_priority now file_path priority =>
    obtain ⟨result, nodes', hset, -⟩ := h.set_entry_priority now file_path priority
    rw [lru_cache.step, hset]
    rfl
  | prewarm answers request priority =>
    rw [lru_cache.step, Option.isSome_map]
    exact h.prewarm_isSome hdisabled (h.content_allocated hsafe) halloc priority
  | setting setting => rfl

theorem Run.holds (h : Run exceeds Safe cache) : ∃ nodes, Holds cache nodes := by
  induction h with
  | create max_memory_usage max_entries cache_ttl h => exact ⟨[], (Holds.create h).1⟩
  | step op h howed hcondition hstep ih =>
    obtain ⟨nodes, hnodes⟩ := ih
    exact hnodes.step howed hcondition hstep

/-- The cache stays intact in every run whose steps all find memory for their
content and the ends of the list in order. Then every step returns, but for an
eviction by priorities, which has no end when it may evict nothing. -/
theorem cache_invariant (h : Run exceeds Safe cache) :
    (∃ nodes, Holds cache nodes) ∧
    (cache.enable_priority_eviction = false → ∀ op, Owed cache op → Safe cache op → Allocates cache op →
      (lru_cache.step exceeds cache op).isSome = true) := by
  refine ⟨h.holds, fun hdisabled op howed hsafe halloc => ?_⟩
  obtain ⟨nodes, hnodes⟩ := h.holds
  exact hnodes.step_isSome hdisabled howed hsafe halloc

instance (cache : CacheManager) (op : Op) : Decidable (Owed cache op) :=
  match op with
  | .move_to_head p => inferInstanceAs (Decidable (p ∈ cache.hash_table))
  | .put _ _ | .find _ _ | .remove _ | .force_eviction _ | .cleanup_expired _ | .clear | .set_entry_priority _ _ _
  | .prewarm _ _ _ | .setting _ => inferInstanceAs (Decidable True)

instance (cache : CacheManager) (answers : PutAnswers) (request : PutRequest) :
    Decidable (ContentSafe cache answers request) :=
  inferInstanceAs (Decidable (answers.content = false → request.file_path = [] ∧ hash_find_str cache [] = none))

instance (cache : CacheManager) (now : Int) : Decidable (CleanupSafe cache now) :=
  inferInstanceAs (Decidable (0 < cache.cache_ttl → _ ∨ _))

instance (cache : CacheManager) (op : Op) : Decidable (Safe cache op) :=
  match op with
  | .put answers request => inferInstanceAs (Decidable (ContentSafe cache answers request))
  | .prewarm answers request _ => inferInstanceAs (Decidable (ContentSafe cache answers request))
  | .cleanup_expired now => inferInstanceAs (Decidable (CleanupSafe cache now))
  | .find _ _ | .remove _ | .move_to_head _ | .force_eviction _ | .clear | .set_entry_priority _ _ _
  | .setting _ => inferInstanceAs (Decidable True)

/-- Operations one after the other, as long as they meet a condition and return. -/
def run_all (exceeds : Exceeds) (condition : CacheManager → Op → Prop) [∀ cache op, Decidable (condition cache op)]
    (cache : CacheManager) : List Op → Option CacheManager
  | [] => some cache
  | op :: ops =>
    if Owed cache op ∧ condition cache op then
      (step exceeds cache op).bind fun cache => run_all exceeds condition cache ops
    else none

/-- Operations on a new cache. -/
def run_new (exceeds : Exceeds) (condition : CacheManager → Op → Prop) [∀ cache op, Decidable (condition cache op)]
    (max_memory_usage : UInt64) (max_entries cache_ttl : Int) (ops : List Op) : Option CacheManager :=
  match uvhttp_lru_cache_create true max_memory_usage max_entries cache_ttl with
  | .error _ => none
  | .ok cache => run_all exceeds condition cache ops

theorem Run.run_all {condition : CacheManager → Op → Prop} [∀ cache op, Decidable (condition cache op)]
    {cache' : CacheManager} {ops : List Op} (h : Run exceeds condition cache)
    (hops : run_all exceeds condition cache ops = some cache') : Run exceeds condition cache' := by
  induction ops generalizing cache with
  | nil =>
    cases hops
    exact h
  | cons op ops ih =>
    rw [lru_cache.run_all] at hops
    split at hops
    · rename_i hmet
      obtain ⟨next, hnext, hrest⟩ := Option.bind_eq_some_iff.mp hops
      exact ih (h.step op hmet.1 hmet.2 hnext) hrest
    · cases hops

theorem run_of_run_new {condition : CacheManager → Op → Prop} [∀ cache op, Decidable (condition cache op)]
    {max_memory_usage : UInt64} {max_entries cache_ttl : Int} {ops : List Op}
    (hops : run_new exceeds condition max_memory_usage max_entries cache_ttl ops = some cache) :
    Run exceeds condition cache := by
  rw [run_new] at hops
  split at hops
  · cases hops
  · rename_i hcreate
    exact (Run.create _ _ _ hcreate).run_all hops

/-- The comparison on integers. -/
def exceeds_exact (sum max_memory_usage : UInt64) : Bool := 10 * sum.toNat > 9 * max_memory_usage.toNat

/-- A file for the cache. -/
def small_file (file_path : List UInt8) : PutRequest := ⟨file_path, bytes "x", none, 0, none, none⟩

/-- Three entries, of which the middle one is cleaned up. -/
theorem cache_invariant_three_entries :
    ∃ cache, run_new exceeds_exact Safe 1000000 10 5 [.put ⟨0, some 1, true⟩ (small_file (bytes "/b")),
        .put ⟨4, some 2, true⟩ (small_file (bytes "/a")), .find 4 (bytes "/b"),
        .put ⟨5, some 3, true⟩ (small_file (bytes "/c")), .cleanup_expired 8] = some cache ∧
      cache.hash_table = [2, 3] ∧ ∃ nodes, Holds cache nodes := by
  have hcomputed : (run_new exceeds_exact Safe 1000000 10 5 [.put ⟨0, some 1, true⟩ (small_file (bytes "/b")),
      .put ⟨4, some 2, true⟩ (small_file (bytes "/a")), .find 4 (bytes "/b"),
      .put ⟨5, some 3, true⟩ (small_file (bytes "/c")), .cleanup_expired 8]).any
        (fun cache => cache.hash_table = [2, 3]) = true := by
    decide +kernel
  simp only [Option.any_eq_true, decide_eq_true_eq] at hcomputed
  obtain ⟨cache, hcache, htable⟩ := hcomputed
  exact ⟨cache, hcache, htable, (cache_invariant (run_of_run_new hcache)).1⟩

/-- No memory for the content of a new entry, which stays in the hash table and is
on no list. And two entries of which the older one is cleaned up: `tail` still points
to it. -/
theorem cache_not_intact :
    (∃ cache, Run exceeds_exact (fun _ _ => True) cache ∧ cache.hash_table = [1] ∧ cache.lru.head = none ∧
      ¬ ∃ nodes, Holds cache nodes) ∧
    ∃ cache, Run exceeds_exact (fun _ _ => True) cache ∧ cache.lru.tail = some 1 ∧ cache.entries 1 = none ∧
      ¬ ∃ nodes, Holds cache nodes := by
  constructor
  · have hcomputed : (run_new exceeds_exact (fun _ _ => True) 1000000 10 5
        [.put ⟨0, some 1, false⟩ (small_file (bytes "/a"))]).any
          (fun cache => cache.hash_table = [1] && cache.lru.head = none) = true := by
      decide +kernel
    simp only [Option.any_eq_true, Bool.and_eq_true, decide_eq_true_eq] at hcomputed
    obtain ⟨cache, hcache, htable, hhead⟩ := hcomputed
    refine ⟨cache, run_of_run_new hcache, htable, hhead, fun ⟨nodes, hnodes⟩ => ?_⟩
    have hperm := hnodes.table
    rw [hnodes.list.head, List.head?_eq_none_iff] at hhead
    rw [hhead, htable] at hperm
    cases hperm.eq_nil
  · have hcomputed : (run_new exceeds_exact (fun _ _ => True) 1000000 10 5
        [.put ⟨0, some 1, true⟩ (small_file (bytes "/a")), .put ⟨4, some 2, true⟩ (small_file (bytes "/b")),
          .cleanup_expired 8]).any (fun cache => cache.lru.tail = some 1 && cache.entries 1 = none) = true := by
      decide +kernel
    simp only [Option.any_eq_true, Bool.and_eq_true, decide_eq_true_eq] at hcomputed
    obtain ⟨cache, hcache, htail, hfreed⟩ := hcomputed
    refine ⟨cache, run_of_run_new hcache, htail, hfreed, fun ⟨nodes, hnodes⟩ => ?_⟩
    rw [hnodes.list.tail] at htail
    obtain ⟨n, hn, hkey⟩ := List.mem_map.mp (List.mem_of_getLast? htail)
    have hentry := hnodes.entry n hn
    rw [hkey, hfreed] at hentry
    cases hentry

end runs

end uvhttp.lru_cache
