import Uvhttp.Static.LruRuns

namespace uvhttp.lru_cache

open linked_list

/-- Every entry that is allocated has a property. -/
def Every (P : CacheEntry → Prop) (cache : CacheManager) : Prop := ∀ p e, cache.entries p = some e → P e

/-- The same, apart from the entry at an address. -/
def EveryBut (P : CacheEntry → Prop) (p : Nat) (cache : CacheManager) : Prop :=
  ∀ q e, q ≠ p → cache.entries q = some e → P e

/-- A property of entries that does not depend on when they were used and how they are
ranked. -/
structure Lasting (P : CacheEntry → Prop) : Prop where
  touched : ∀ e access_time, P e → P { e with access_time }
  ranked : ∀ e priority, P e → P { e with priority }

section entries

variable {P : CacheEntry → Prop} {cache cache' : CacheManager} {p : Nat} {e : CacheEntry}

theorem Every.of_entries (h : Every P cache) (hsame : cache'.entries = cache.entries) : Every P cache' := by
  intro q e he
  rw [hsame] at he
  exact h q e he

theorem Every.but (h : Every P cache) (p : Nat) : EveryBut P p cache := fun q e _ he => h q e he

theorem EveryBut.set (h : EveryBut P p cache) (he : P e)
    (hset : cache'.entries = Function.update cache.entries p (some e)) : Every P cache' := by
  intro q e' he'
  rw [hset] at he'
  by_cases hq : q = p
  · rw [hq, Function.update_self] at he'
    obtain rfl := Option.some.inj he'
    exact he
  · rw [Function.update_of_ne hq] at he'
    exact h q e' hq he'

theorem EveryBut.update (h : EveryBut P p cache) (found : Option CacheEntry)
    (hset : cache'.entries = Function.update cache.entries p found) : EveryBut P p cache' := by
  intro q e' hq he'
  rw [hset, Function.update_of_ne hq] at he'
  exact h q e' hq he'

theorem EveryBut.free (h : EveryBut P p cache) (hfree : cache'.entries = Function.update cache.entries p none) :
    Every P cache' := by
  intro q e' he'
  rw [hfree] at he'
  by_cases hq : q = p
  · rw [hq, Function.update_self] at he'
    cases he'
  · rw [Function.update_of_ne hq] at he'
    exact h q e' hq he'

theorem Every.drop (h : Every P cache) (hdrop : drop_entry cache p = some cache') : Every P cache' := by
  obtain ⟨e, -, hdrop⟩ := Option.bind_eq_some_iff.mp hdrop
  obtain rfl := Option.some.inj hdrop
  exact (h.but p).free rfl

theorem entries_move_to_head (hmove : uvhttp_lru_cache_move_to_head cache p = some cache') :
    cache'.entries = cache.entries := by
  rw [uvhttp_lru_cache_move_to_head] at hmove
  split at hmove
  · obtain rfl := Option.some.inj hmove
    rfl
  obtain ⟨l, -, hmove⟩ := Option.bind_eq_some_iff.mp hmove
  split at hmove
  · obtain ⟨lru, -, hmove⟩ := Option.bind_eq_some_iff.mp hmove
    obtain rfl := Option.some.inj hmove
    rfl
  · obtain ⟨unlinked, -, hmove⟩ := Option.bind_eq_some_iff.mp hmove
    obtain ⟨lru, -, hmove⟩ := Option.bind_eq_some_iff.mp hmove
    obtain rfl := Option.some.inj hmove
    rfl

theorem entries_remove_tail {found : Option Nat} (hremove : uvhttp_lru_cache_remove_tail cache = some (found, cache')) :
    cache'.entries = cache.entries := by
  rw [uvhttp_lru_cache_remove_tail] at hremove
  split at hremove
  · obtain ⟨-, rfl⟩ := Prod.mk.inj (Option.some.inj hremove)
    rfl
  · obtain ⟨l, -, hremove⟩ := Option.bind_eq_some_iff.mp hremove
    obtain ⟨lru, -, hremove⟩ := Option.bind_eq_some_iff.mp hremove
    obtain ⟨cleared, -, hremove⟩ := Option.bind_eq_some_iff.mp hremove
    obtain ⟨-, rfl⟩ := Prod.mk.inj (Option.some.inj hremove)
    rfl

theorem entries_choose_evicted {found : Option Nat} (hchoose : choose_evicted cache = some (found, cache')) :
    cache'.entries = cache.entries := by
  rw [choose_evicted] at hchoose
  split at hchoose
  · obtain ⟨unprotected, -, hchoose⟩ := Option.bind_eq_some_iff.mp hchoose
    cases unprotected with
    | none =>
      obtain ⟨-, rfl⟩ := Prod.mk.inj (Option.some.inj hchoose)
      rfl
    | some q =>
      obtain ⟨lru, -, hchoose⟩ := Option.bind_eq_some_iff.mp hchoose
      obtain ⟨cleared, -, hchoose⟩ := Option.bind_eq_some_iff.mp hchoose
      obtain ⟨-, rfl⟩ := Prod.mk.inj (Option.some.inj hchoose)
      rfl
  · exact entries_remove_tail hchoose

end entries

section operations

variable {P : CacheEntry → Prop} {cache cache' : CacheManager} {exceeds : Exceeds}

theorem Every.create {max_memory_usage : UInt64} {max_entries cache_ttl : Int} {alloc : Bool}
    (hcreate : uvhttp_lru_cache_create alloc max_memory_usage max_entries cache_ttl = .ok cache) : Every P cache := by
  rw [uvhttp_lru_cache_create] at hcreate
  split at hcreate
  · cases hcreate
  split at hcreate
  · cases hcreate
  split at hcreate
  · cases hcreate
  cases hcreate
  exact fun p e he => by cases he

theorem Every.remove (h : Every P cache) {file_path : List UInt8} {code : UvhttpError}
    (hremove : uvhttp_lru_cache_remove cache file_path = some (code, cache')) : Every P cache' := by
  rw [uvhttp_lru_cache_remove] at hremove
  split at hremove
  · obtain ⟨-, rfl⟩ := Prod.mk.inj (Option.some.inj hremove)
    exact h
  · obtain ⟨lru, -, hremove⟩ := Option.bind_eq_some_iff.mp hremove
    obtain ⟨dropped, hdrop, hremove⟩ := Option.bind_eq_some_iff.mp hremove
    obtain ⟨-, rfl⟩ := Prod.mk.inj (Option.some.inj hremove)
    have hlru : Every P { cache with lru } := h.of_entries rfl
    exact hlru.drop hdrop

theorem Every.find (h : Every P cache) (hlasting : Lasting P) {now : Int} {file_path : List UInt8} {found : Option Nat}
    (hfind : uvhttp_lru_cache_find now cache file_path = some (found, cache')) : Every P cache' := by
  rw [uvhttp_lru_cache_find] at hfind
  split at hfind
  · obtain ⟨-, rfl⟩ := Prod.mk.inj (Option.some.inj hfind)
    exact h.of_entries rfl
  · rename_i p hash
    obtain ⟨e, he, hfind⟩ := Option.bind_eq_some_iff.mp hfind
    split at hfind
    · obtain ⟨⟨code, removed⟩, hremove, hfind⟩ := Option.bind_eq_some_iff.mp hfind
      obtain ⟨-, rfl⟩ := Prod.mk.inj (Option.some.inj hfind)
      exact (h.remove hremove).of_entries rfl
    · obtain ⟨moved, hmove, hfind⟩ := Option.bind_eq_some_iff.mp hfind
      obtain ⟨-, rfl⟩ := Prod.mk.inj (Option.some.inj hfind)
      have htouched : Every P (set_entry cache p { e with access_time := now }) :=
        (h.but p).set (hlasting.touched e now (h p e he)) rfl
      have hmoved : Every P moved := htouched.of_entries (entries_move_to_head hmove)
      exact hmoved.of_entries rfl

theorem Every.evict_batch (h : Every P cache) {memory_usage : UInt64} {i : Nat}
    (hevict : evict_batch exceeds memory_usage i cache = some cache') : Every P cache' := by
  induction i generalizing cache with
  | zero =>
    obtain rfl := Option.some.inj hevict
    exact h
  | succ i ih =>
    rw [lru_cache.evict_batch] at hevict
    split at hevict
    · obtain ⟨⟨found, chosen⟩, hchoose, hevict⟩ := Option.bind_eq_some_iff.mp hevict
      have hchosen : Every P chosen := h.of_entries (entries_choose_evicted hchoose)
      cases found with
      | none =>
        obtain rfl := Option.some.inj hevict
        exact hchosen
      | some p =>
        obtain ⟨dropped, hdrop, hevict⟩ := Option.bind_eq_some_iff.mp hevict
        have hdropped : Every P { dropped with eviction_count := dropped.eviction_count + 1 } :=
          (hchosen.drop hdrop).of_entries rfl
        exact ih hdropped hevict
    · obtain rfl := Option.some.inj hevict
      exact h

theorem Every.evict_loop (h : Every P cache) {memory_usage : UInt64} {fuel : Nat} {room : Bool}
    (hevict : evict_loop exceeds memory_usage fuel cache = some (room, cache')) : Every P cache' := by
  induction fuel generalizing cache with
  | zero => cases hevict
  | succ fuel ih =>
    rw [lru_cache.evict_loop] at hevict
    split at hevict
    · split at hevict
      · obtain ⟨-, rfl⟩ := Prod.mk.inj (Option.some.inj hevict)
        exact h
      · obtain ⟨batch, hbatch, hevict⟩ := Option.bind_eq_some_iff.mp hevict
        exact ih (h.evict_batch hbatch) hevict
    · obtain ⟨-, rfl⟩ := Prod.mk.inj (Option.some.inj hevict)
      exact h

theorem Every.clear (h : Every P cache) : Every P (uvhttp_lru_cache_clear cache) := by
  intro p e he
  rw [uvhttp_lru_cache_clear] at he
  dsimp only at he
  split at he
  · cases he
  · exact h p e he

theorem Every.cleanup_loop (h : Every P cache) {now : Int} {fuel : Nat} {current : Option Nat}
    (hcleanup : cleanup_loop now fuel current cache = some cache') : Every P cache' := by
  induction fuel generalizing cache current with
  | zero => cases hcleanup
  | succ fuel ih =>
    cases current with
    | none =>
      obtain rfl := Option.some.inj hcleanup
      exact h
    | some p =>
      obtain ⟨e, -, hcleanup⟩ := Option.bind_eq_some_iff.mp hcleanup
      obtain ⟨l, -, hcleanup⟩ := Option.bind_eq_some_iff.mp hcleanup
      split at hcleanup
      · obtain ⟨lru, -, hcleanup⟩ := Option.bind_eq_some_iff.mp hcleanup
        obtain ⟨dropped, hdrop, hcleanup⟩ := Option.bind_eq_some_iff.mp hcleanup
        have hlru : Every P { cache with lru } := h.of_entries rfl
        exact ih (hlru.drop hdrop) hcleanup
      · exact ih h hcleanup

theorem Every.force_eviction (h : Every P cache) {count : Nat}
    (hevict : uvhttp_lru_cache_force_eviction count cache = some cache') : Every P cache' := by
  induction count generalizing cache with
  | zero =>
    obtain rfl := Option.some.inj hevict
    exact h
  | succ count ih =>
    obtain ⟨⟨found, removed⟩, hremove, hevict⟩ := Option.bind_eq_some_iff.mp hevict
    have hremoved : Every P removed := h.of_entries (entries_remove_tail hremove)
    cases found with
    | none =>
      obtain rfl := Option.some.inj hevict
      exact hremoved
    | some p =>
      obtain ⟨dropped, hdrop, hevict⟩ := Option.bind_eq_some_iff.mp hevict
      have hdropped : Every P { dropped with eviction_count := dropped.eviction_count + 1 } :=
        (hremoved.drop hdrop).of_entries rfl
      exact ih hdropped hevict

theorem Every.set_entry_priority (h : Every P cache) (hlasting : Lasting P) {now : Int} {file_path : List UInt8}
    {priority : Int} {code : UvhttpError}
    (hset : uvhttp_lru_cache_set_entry_priority now cache file_path priority = some (code, cache')) :
    Every P cache' := by
  rw [uvhttp_lru_cache_set_entry_priority] at hset
  split at hset
  · obtain ⟨-, rfl⟩ := Prod.mk.inj (Option.some.inj hset)
    exact h
  · obtain ⟨⟨found, cache₁⟩, hfind, hset⟩ := Option.bind_eq_some_iff.mp hset
    have hfound : Every P cache₁ := h.find hlasting hfind
    cases found with
    | none =>
      obtain ⟨-, rfl⟩ := Prod.mk.inj (Option.some.inj hset)
      exact hfound
    | some p =>
      obtain ⟨e, he, hset⟩ := Option.bind_eq_some_iff.mp hset
      obtain ⟨moved, hmove, hset⟩ := Option.bind_eq_some_iff.mp hset
      obtain ⟨-, rfl⟩ := Prod.mk.inj (Option.some.inj hset)
      have hranked : Every P (set_entry cache₁ p { e with priority }) :=
        (hfound.but p).set (hlasting.ranked e priority (hfound p e he)) rfl
      exact hranked.of_entries (entries_move_to_head hmove)

end operations

section puts

variable {P : CacheEntry → Prop} {cache cache' : CacheManager} {exceeds : Exceeds} {answers : PutAnswers}
  {request : PutRequest} {code : UvhttpError}

/-- What a `put` stores has the property, and without memory for the content what it
leaves of an old or a new entry. -/
structure PutKeeps (P : CacheEntry → Prop) (answers : PutAnswers) (request : PutRequest) : Prop where
  stored : answers.content = true → ∀ memory_usage e, e.file_path = request.file_path →
    P (stored_entry answers request memory_usage e)
  lost : answers.content = false → ∀ e, P e → e.file_path = request.file_path → P { e with content := none }
  empty : answers.content = false → P (empty_entry request.file_path)

theorem EveryBut.store_content {p : Nat} {e : CacheEntry} (h : EveryBut P p cache)
    (hkeeps : PutKeeps P answers request) (he : cache.entries p = some e) (hpath : e.file_path = request.file_path)
    (hlost : answers.content = false → P { e with content := none }) {memory_usage : UInt64}
    (hstore : store_content answers request memory_usage cache p = some (code, cache')) : Every P cache' := by
  cases hcontent : answers.content with
  | true =>
    rw [store_content_ok hcontent request memory_usage he] at hstore
    obtain ⟨moved, hmove, hstore⟩ := Option.map_eq_some_iff.mp hstore
    obtain ⟨-, rfl⟩ := Prod.mk.inj hstore
    have hstored : Every P { set_entry cache p (stored_entry answers request memory_usage e) with
        total_memory_usage := cache.total_memory_usage + memory_usage } :=
      h.set (hkeeps.stored hcontent memory_usage e hpath) rfl
    exact hstored.of_entries (entries_move_to_head hmove)
  | false =>
    rw [lru_cache.store_content, he, hcontent] at hstore
    simp only [Option.bind_eq_bind, Option.bind_some, Bool.not_false, if_true] at hstore
    split at hstore
    · obtain ⟨-, rfl⟩ := Prod.mk.inj (Option.some.inj hstore)
      exact h.free rfl
    · obtain ⟨-, rfl⟩ := Prod.mk.inj (Option.some.inj hstore)
      exact h.set (hlost hcontent) rfl

theorem hash_find_str_path {file_path : List UInt8} {p : Nat} (hfind : hash_find_str cache file_path = some p) :
    ∃ e, cache.entries p = some e ∧ e.file_path = file_path := by
  have hkey := List.find?_some hfind
  simp only [Option.any_eq_true, decide_eq_true_eq] at hkey
  exact hkey

theorem Every.store_entry (h : Every P cache) (hkeeps : PutKeeps P answers request) {memory_usage : UInt64}
    (hstore : store_entry answers request memory_usage cache = some (code, cache')) : Every P cache' := by
  rw [lru_cache.store_entry] at hstore
  split at hstore
  · rename_i p hfind
    obtain ⟨e, he, hpath⟩ := hash_find_str_path hfind
    obtain ⟨e', he', hstore⟩ := Option.bind_eq_some_iff.mp hstore
    obtain rfl := Option.some.inj (he.symm.trans he')
    have hothers : EveryBut P p { set_entry cache p { e with content := none } with
        total_memory_usage := cache.total_memory_usage - e.memory_usage } := (h.but p).update _ rfl
    have hlost : answers.content = false → P { e with content := none } :=
      fun hcontent => hkeeps.lost hcontent e (h p e he) hpath
    exact hothers.store_content hkeeps (Function.update_self _ _ _) hpath hlost hstore
  · split at hstore
    · obtain ⟨-, rfl⟩ := Prod.mk.inj (Option.some.inj hstore)
      exact h
    · rename_i p hanswer
      split at hstore
      · obtain ⟨-, rfl⟩ := Prod.mk.inj (Option.some.inj hstore)
        exact h
      · split at hstore
        · cases hstore
        · have hnew : EveryBut P p { set_entry cache p (empty_entry request.file_path) with
              lru := cache.lru.create p
              hash_table := cache.hash_table ++ [p]
              entry_count := cache.entry_count + 1 } := (h.but p).update _ rfl
          exact hnew.store_content hkeeps (Function.update_self _ _ _) rfl hkeeps.empty hstore

theorem Every.put (h : Every P cache) (hkeeps : PutKeeps P answers request)
    (hput : uvhttp_lru_cache_put exceeds answers cache request = some (code, cache')) : Every P cache' := by
  rw [uvhttp_lru_cache_put] at hput
  split at hput
  · obtain ⟨-, rfl⟩ := Prod.mk.inj (Option.some.inj hput)
    exact h
  split at hput
  · obtain ⟨-, rfl⟩ := Prod.mk.inj (Option.some.inj hput)
    exact h
  obtain ⟨⟨room, cache₁⟩, hloop, hput⟩ := Option.bind_eq_some_iff.mp hput
  have hevicted : Every P cache₁ := h.evict_loop hloop
  split at hput
  · obtain ⟨-, rfl⟩ := Prod.mk.inj (Option.some.inj hput)
    exact hevicted
  · exact hevicted.store_entry hkeeps hput

/-- An operation that stores nothing. -/
def Evicts : Op → Prop
  | .put _ _ | .prewarm _ _ _ => False
  | _ => True

theorem Every.step (h : Every P cache) (hlasting : Lasting P) {op : Op} (hop : Evicts op)
    (hstep : step exceeds cache op = some cache') : Every P cache' := by
  cases op with
  | put | prewarm => exact hop.elim
  | find now file_path =>
    obtain ⟨⟨found, cache₁⟩, hfind, rfl⟩ := Option.map_eq_some_iff.mp hstep
    exact h.find hlasting hfind
  | remove file_path =>
    obtain ⟨⟨code, cache₁⟩, hremove, rfl⟩ := Option.map_eq_some_iff.mp hstep
    exact h.remove hremove
  | move_to_head p => exact h.of_entries (entries_move_to_head hstep)
  | force_eviction count => exact h.force_eviction hstep
  | cleanup_expired now =>
    rw [lru_cache.step, uvhttp_lru_cache_cleanup_expired] at hstep
    split at hstep
    · obtain rfl := Option.some.inj hstep
      exact h
    · exact h.cleanup_loop hstep
  | clear =>
    obtain rfl := Option.some.inj hstep
    exact h.clear
  | set_entry_priority now file_path priority =>
    obtain ⟨⟨code, cache₁⟩, hset, rfl⟩ := Option.map_eq_some_iff.mp hstep
    exact h.set_entry_priority hlasting hset
  | setting setting =>
    obtain rfl := Option.some.inj hstep
    cases setting with
    | min_priority_threshold value =>
      rw [apply_setting]
      split
      · exact h
      · exact h.of_entries rfl
    | max_file_size | max_memory_usage | max_entries | cache_ttl | batch_eviction_size | enable_priority_eviction
    | reset_stats => exact h.of_entries rfl

end puts

end uvhttp.lru_cache
