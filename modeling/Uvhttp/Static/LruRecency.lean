import Uvhttp.Static.LruRuns

namespace uvhttp.lru_cache

open linked_list

section recency

/-- A file of the abstract cache, which is a list of them, the last used first. -/
structure Item where
  file_path : List UInt8
  content : List UInt8
  cache_time : Int
  deriving DecidableEq, Repr

/-- An operation with what its caller sees. -/
inductive Event where
  | put (now : Int) (file_path content : List UInt8) (err : UvhttpError)
  | find (now : Int) (file_path : List UInt8) (content : Option (List UInt8))
  | remove (file_path : List UInt8) (err : UvhttpError)
  deriving DecidableEq, Repr

/-- Whether a file is older than the cache keeps it. -/
def too_old (now cache_ttl : Int) (item : Item) : Prop := 0 < cache_ttl ∧ now - item.cache_time > cache_ttl

/-- The abstract cache. A `find` returns the content and moves the file to the front,
or drops it because it is too old, or misses. A `put` evicts files from the end of the
list; then it has the only entry of its path, at the front, or it fails. -/
inductive Recency (cache_ttl : Int) : List Item → Event → List Item → Prop where
  | hit (before after : List Item) (item : Item) (now : Int) (h : ¬ too_old now cache_ttl item) :
      Recency cache_ttl (before ++ item :: after) (.find now item.file_path (some item.content))
        (item :: (before ++ after))
  | expired (before after : List Item) (item : Item) (now : Int) (h : too_old now cache_ttl item) :
      Recency cache_ttl (before ++ item :: after) (.find now item.file_path none) (before ++ after)
  | miss (items : List Item) (now : Int) (file_path : List UInt8) (h : ∀ item ∈ items, item.file_path ≠ file_path) :
      Recency cache_ttl items (.find now file_path none) items
  | removed (before after : List Item) (item : Item) :
      Recency cache_ttl (before ++ item :: after) (.remove item.file_path .OK) (before ++ after)
  | absent (items : List Item) (file_path : List UInt8) (h : ∀ item ∈ items, item.file_path ≠ file_path) :
      Recency cache_ttl items (.remove file_path .NOT_FOUND) items
  | stored (kept evicted : List Item) (now : Int) (file_path content : List UInt8) :
      Recency cache_ttl (kept ++ evicted) (.put now file_path content .OK)
        (⟨file_path, content, now⟩ :: kept.filter fun item => item.file_path ≠ file_path)
  | refused (kept evicted : List Item) (now : Int) (file_path content : List UInt8) (err : UvhttpError)
      (herr : err ≠ .OK) : Recency cache_ttl (kept ++ evicted) (.put now file_path content err) kept

/-- The abstract cache after some operations. -/
inductive RecencyRun (cache_ttl : Int) : List Event → List Item → Prop where
  | new : RecencyRun cache_ttl [] []
  | next {events : List Event} {items items' : List Item} {event : Event} (h : RecencyRun cache_ttl events items)
      (hnext : Recency cache_ttl items event items') : RecencyRun cache_ttl (events ++ [event]) items'

/-- What an operation stored for a path, and when. -/
def stored_by (file_path : List UInt8) : Event → Option (List UInt8 × Int)
  | .put now path content .OK => if path = file_path then some (content, now) else none
  | _ => none

/-- What the last successful `put` of a path stored, and when. -/
def latest_put (file_path : List UInt8) (events : List Event) : Option (List UInt8 × Int) :=
  (events.filterMap (stored_by file_path)).getLast?

theorem latest_put_append (file_path : List UInt8) (events : List Event) (event : Event) :
    latest_put file_path (events ++ [event]) = (stored_by file_path event).or (latest_put file_path events) := by
  rw [latest_put, List.filterMap_append, List.getLast?_append, latest_put]
  cases hevent : stored_by file_path event with
  | none => rw [List.filterMap_cons_none hevent, List.filterMap_nil, List.getLast?_nil]
  | some stored => rw [List.filterMap_cons_some hevent, List.filterMap_nil, List.getLast?_singleton]

/-- A file of the abstract cache is that of the last successful `put` of its path. -/
theorem RecencyRun.latest {cache_ttl : Int} {events : List Event} {items : List Item}
    (h : RecencyRun cache_ttl events items) :
    ∀ item ∈ items, latest_put item.file_path events = some (item.content, item.cache_time) := by
  induction h with
  | new => exact nofun
  | @next events items items' event h hnext ih =>
    have hkept : ∀ item ∈ items, stored_by item.file_path event = none →
        latest_put item.file_path (events ++ [event]) = some (item.content, item.cache_time) := by
      intro item hitem hnone
      rw [latest_put_append, hnone, Option.none_or, ih item hitem]
    cases hnext with
    | hit before after item now hfresh =>
      intro other hother
      exact hkept other (List.perm_middle.mem_iff.mpr hother) rfl
    | expired before after item now hold =>
      intro other hother
      exact hkept other (List.perm_middle.mem_iff.mpr (List.mem_cons_of_mem _ hother)) rfl
    | miss _ now file_path habsent => exact fun other hother => hkept other hother rfl
    | removed before after item =>
      intro other hother
      exact hkept other (List.perm_middle.mem_iff.mpr (List.mem_cons_of_mem _ hother)) rfl
    | absent _ file_path habsent => exact fun other hother => hkept other hother rfl
    | stored kept evicted now file_path content =>
      intro other hother
      obtain rfl | hold := List.mem_cons.mp hother
      · rw [latest_put_append]
        simp [stored_by]
      · obtain ⟨hmem, hne⟩ := List.mem_filter.mp hold
        apply hkept other (List.mem_append_left _ hmem)
        have hother_path : file_path ≠ other.file_path := fun heq => (of_decide_eq_true hne) heq.symm
        simp [stored_by, hother_path]
    | refused _ evicted now file_path content err herr =>
      intro other hother
      apply hkept other (List.mem_append_left _ hother)
      cases err with
      | OK => exact absurd rfl herr
      | _ => rfl

end recency

section simulation

/-- A call of one of the three operations. -/
inductive Request where
  | put (answers : PutAnswers) (request : PutRequest)
  | find (now : Int) (file_path : List UInt8)
  | remove (file_path : List UInt8)

/-- A call, with what its caller sees: of an entry that is found, the content. -/
def perform (exceeds : Exceeds) (cache : CacheManager) : Request → Option (Event × CacheManager)
  | .put answers request =>
    (uvhttp_lru_cache_put exceeds answers cache request).map fun result =>
      (.put answers.now request.file_path request.content result.1, result.2)
  | .find now file_path =>
    (uvhttp_lru_cache_find now cache file_path).map fun found =>
      (.find now file_path (found.1.bind fun p => (found.2.entries p).bind CacheEntry.content), found.2)
  | .remove file_path =>
    (uvhttp_lru_cache_remove cache file_path).map fun result => (.remove file_path result.1, result.2)

/-- The allocations of a call succeed. -/
def Allocated : Request → Prop
  | .put answers _ => answers.content = true ∧ answers.entry ≠ none
  | _ => True

/-- The caches that calls lead to from a new one, with what their callers saw. -/
inductive Performed (exceeds : Exceeds) : CacheManager → List Event → Prop where
  | create (max_memory_usage : UInt64) (max_entries cache_ttl : Int) {cache : CacheManager}
      (h : uvhttp_lru_cache_create true max_memory_usage max_entries cache_ttl = .ok cache) : Performed exceeds cache []
  | call {cache cache' : CacheManager} {events : List Event} {event : Event} (request : Request)
      (h : Performed exceeds cache events) (halloc : Allocated request)
      (hperform : perform exceeds cache request = some (event, cache')) : Performed exceeds cache' (events ++ [event])

/-- What the abstract cache knows of an entry. -/
def item (n : Node) : Item := ⟨n.2.file_path, n.2.content.getD [], n.2.cache_time⟩

/-- The entries of the list are the files of the abstract cache, in its order. -/
structure Represents (cache : CacheManager) (items : List Item) : Prop where
  holds : ∃ nodes, Holds cache nodes ∧ nodes.map item = items
  disabled : cache.enable_priority_eviction = false

variable {cache : CacheManager} {nodes : List Node} {exceeds : Exceeds}

theorem is_expired_iff (now : Int) (n : Node) (cache_ttl : Int) :
    uvhttp_lru_cache_is_expired now n.2 cache_ttl = true ↔ too_old now cache_ttl (item n) := by
  rw [uvhttp_lru_cache_is_expired, too_old]
  split
  · rename_i hnever
    simp [Int.not_lt.mpr hnever]
  · rename_i httl
    simp [Int.lt_of_not_ge httl, item]

theorem simulate_find (h : Holds cache nodes) (now : Int) (file_path : List UInt8) :
    ∃ event cache' nodes', perform exceeds cache (.find now file_path) = some (event, cache') ∧
      Recency cache.cache_ttl (nodes.map item) event (nodes'.map item) ∧ Holds cache' nodes' ∧
      config cache' = config cache := by
  obtain ⟨⟨found, cache'⟩, hfind, hfound⟩ := h.find now file_path
  rw [perform, hfind]
  cases hfound with
  | hit before after p e _ hnodes hpath hfresh hholds hconfig =>
    refine ⟨_, _, _, rfl, ?_, hholds, hconfig⟩
    have hentry := hholds.entry _ List.mem_cons_self
    obtain ⟨content, hcontent⟩ := Option.isSome_iff_exists.mp (h.content (p, e) (by rw [hnodes]; simp))
    dsimp only at hentry hcontent ⊢
    rw [Option.bind_some, hentry, Option.bind_some, hnodes, List.map_append, List.map_cons, List.map_cons,
      List.map_append, ← hpath, hcontent]
    have hlive : ¬ too_old now cache.cache_ttl (item (p, e)) := by
      rw [← is_expired_iff]
      simp [hfresh]
    have hhit := Recency.hit (before.map item) (after.map item) (item (p, e)) now hlive
    rw [item, hcontent] at hhit
    rw [item, item, hcontent]
    exact hhit
  | expired before after n _ hnodes hpath hold hholds hconfig =>
    refine ⟨_, _, _, rfl, ?_, hholds, hconfig⟩
    rw [hnodes, List.map_append, List.map_cons, List.map_append, ← hpath]
    exact .expired _ _ (item n) now ((is_expired_iff now n _).mp hold)
  | miss _ habsent hholds hconfig =>
    refine ⟨_, _, _, rfl, .miss _ now file_path ?_, hholds, hconfig⟩
    intro i hi
    obtain ⟨n, hn, rfl⟩ := List.mem_map.mp hi
    exact habsent n hn

theorem simulate_remove (h : Holds cache nodes) (file_path : List UInt8) :
    ∃ event cache' nodes', perform exceeds cache (.remove file_path) = some (event, cache') ∧
      Recency cache.cache_ttl (nodes.map item) event (nodes'.map item) ∧ Holds cache' nodes' ∧
      config cache' = config cache := by
  rw [perform]
  obtain ⟨before, n, after, cache', rfl, rfl, hremove, hholds, hconfig⟩ | ⟨hremove, habsent⟩ := h.remove file_path
  · rw [hremove]
    refine ⟨_, cache', before ++ after, rfl, ?_, hholds, hconfig⟩
    rw [List.map_append, List.map_cons, List.map_append]
    exact .removed _ _ (item n)
  · rw [hremove]
    refine ⟨_, cache, nodes, rfl, .absent _ file_path ?_, h, rfl⟩
    intro i hi
    obtain ⟨n, hn, rfl⟩ := List.mem_map.mp hi
    exact habsent n hn

theorem simulate_put (h : Holds cache nodes) (hdisabled : cache.enable_priority_eviction = false)
    {answers : PutAnswers} (hcontent : answers.content = true) {request : PutRequest} {event : Event}
    {cache' : CacheManager} (hperform : perform exceeds cache (.put answers request) = some (event, cache')) :
    ∃ nodes', Recency cache.cache_ttl (nodes.map item) event (nodes'.map item) ∧ Holds cache' nodes' ∧
      config cache' = config cache := by
  have hallocated : ContentAllocated answers request nodes := by
    intro hfailed
    rw [hcontent] at hfailed
    cases hfailed
  rw [perform] at hperform
  obtain ⟨result, hput, hresult⟩ := Option.map_eq_some_iff.mp hperform
  obtain ⟨kept, -, hprefix, hstored⟩ := h.put hallocated hput
  obtain ⟨evicted, rfl⟩ := hprefix hdisabled
  rw [List.map_append]
  cases hstored with
  | failed err _ herr hholds hconfig =>
    cases hresult
    exact ⟨kept, .refused _ _ _ _ _ err herr, hholds, hconfig⟩
  | stored _ p e hpath hcontent' htime hholds hconfig =>
    cases hresult
    refine ⟨_, ?_, hholds, hconfig⟩
    have hfilter : (without_path request.file_path kept).map item =
        (kept.map item).filter fun i => i.file_path ≠ request.file_path := by
      rw [List.filter_map]
      rfl
    have hitem : item (p, e) = ⟨request.file_path, request.content, answers.now⟩ := by
      rw [item, hpath, hcontent', htime]
      rfl
    rw [List.map_cons, hitem, hfilter]
    exact .stored _ _ _ _ _

/-- One call is one step of the abstract cache. -/
theorem Represents.perform {items : List Item} (h : Represents cache items) {request : Request}
    (halloc : Allocated request) {event : Event} {cache' : CacheManager}
    (hperform : perform exceeds cache request = some (event, cache')) :
    ∃ items', Recency cache.cache_ttl items event items' ∧ Represents cache' items' ∧
      cache'.cache_ttl = cache.cache_ttl := by
  obtain ⟨⟨nodes, hnodes, rfl⟩, hdisabled⟩ := h
  have hstep : ∃ nodes', Recency cache.cache_ttl (nodes.map item) event (nodes'.map item) ∧ Holds cache' nodes' ∧
      config cache' = config cache := by
    cases request with
    | put answers request => exact simulate_put hnodes hdisabled halloc.1 hperform
    | find now file_path =>
      obtain ⟨event', cache₁, nodes', hperform', hrest⟩ := @simulate_find cache nodes exceeds hnodes now file_path
      rw [hperform'] at hperform
      cases hperform
      exact ⟨nodes', hrest⟩
    | remove file_path =>
      obtain ⟨event', cache₁, nodes', hperform', hrest⟩ := @simulate_remove cache nodes exceeds hnodes file_path
      rw [hperform'] at hperform
      cases hperform
      exact ⟨nodes', hrest⟩
  obtain ⟨nodes', hrecency, hholds, hconfig⟩ := hstep
  exact ⟨_, hrecency, ⟨⟨nodes', hholds, rfl⟩, (priority_of_config hconfig).trans hdisabled⟩, ttl_of_config hconfig⟩

/-- A call returns. -/
theorem Represents.perform_isSome {items : List Item} (h : Represents cache items) {request : Request}
    (halloc : Allocated request)
    (hfresh : ∀ answers file, request = .put answers file → ∀ p, answers.entry = some p → cache.entries p = none) :
    (lru_cache.perform exceeds cache request).isSome = true := by
  obtain ⟨⟨nodes, hnodes, -⟩, hdisabled⟩ := h
  cases request with
  | put answers request =>
    have hallocated : ContentAllocated answers request nodes := by
      intro hfailed
      rw [halloc.1] at hfailed
      cases hfailed
    rw [lru_cache.perform, Option.isSome_map]
    exact hnodes.put_isSome exceeds hdisabled hallocated (hfresh answers request rfl)
  | find now file_path =>
    obtain ⟨event', cache₁, nodes', hperform, -⟩ := @simulate_find cache nodes exceeds hnodes now file_path
    rw [hperform]
    rfl
  | remove file_path =>
    obtain ⟨event', cache₁, nodes', hperform, -⟩ := @simulate_remove cache nodes exceeds hnodes file_path
    rw [hperform]
    rfl

/-- Calls whose allocations succeed do to the cache what they do to the abstract one, and
return. The content of each file is that of the last successful `put` of its path. -/
theorem cache_recency {events : List Event} (h : Performed exceeds cache events) :
    ∃ items, RecencyRun cache.cache_ttl events items ∧ Represents cache items ∧
      (items.map Item.file_path).Nodup ∧
      (∀ item ∈ items, latest_put item.file_path events = some (item.content, item.cache_time)) ∧
      ∀ request, Allocated request →
        (∀ answers file, request = .put answers file → ∀ p, answers.entry = some p → cache.entries p = none) →
        (lru_cache.perform exceeds cache request).isSome = true := by
  have hrun : ∃ items, RecencyRun cache.cache_ttl events items ∧ Represents cache items := by
    induction h with
    | create max_memory_usage max_entries cache_ttl h =>
      obtain ⟨hholds, hdisabled⟩ := Holds.create h
      exact ⟨[], .new, ⟨⟨[], hholds, rfl⟩, hdisabled⟩⟩
    | call request h halloc hperform ih =>
      obtain ⟨items, hitems, hrepresents⟩ := ih
      obtain ⟨items', hrecency, hrepresents', httl⟩ := hrepresents.perform halloc hperform
      rw [httl]
      exact ⟨items', hitems.next hrecency, hrepresents'⟩
  obtain ⟨items, hitems, hrepresents⟩ := hrun
  refine ⟨items, hitems, hrepresents, ?_, hitems.latest, ?_⟩
  · obtain ⟨⟨nodes, hnodes, rfl⟩, -⟩ := hrepresents
    rw [List.map_map]
    exact hnodes.distinct
  · exact fun request halloc hfresh => hrepresents.perform_isSome halloc hfresh

instance (request : Request) : Decidable (Allocated request) :=
  match request with
  | .put answers _ => inferInstanceAs (Decidable (answers.content = true ∧ answers.entry ≠ none))
  | .find _ _ | .remove _ => inferInstanceAs (Decidable True)

/-- Calls one after the other, as long as their allocations succeed and they return. -/
def perform_all (exceeds : Exceeds) (cache : CacheManager) (events : List Event) :
    List Request → Option (CacheManager × List Event)
  | [] => some (cache, events)
  | request :: requests =>
    if Allocated request then
      (perform exceeds cache request).bind fun result =>
        perform_all exceeds result.2 (events ++ [result.1]) requests
    else none

/-- Calls on a new cache. -/
def perform_new (exceeds : Exceeds) (max_memory_usage : UInt64) (max_entries cache_ttl : Int)
    (requests : List Request) : Option (CacheManager × List Event) :=
  match uvhttp_lru_cache_create true max_memory_usage max_entries cache_ttl with
  | .error _ => none
  | .ok cache => perform_all exceeds cache [] requests

theorem Performed.perform_all {events events' : List Event} {cache' : CacheManager} {requests : List Request}
    (h : Performed exceeds cache events) (hall : perform_all exceeds cache events requests = some (cache', events')) :
    Performed exceeds cache' events' := by
  induction requests generalizing cache events with
  | nil =>
    cases hall
    exact h
  | cons request requests ih =>
    rw [lru_cache.perform_all] at hall
    split at hall
    · rename_i halloc
      obtain ⟨⟨event, next⟩, hperform, hrest⟩ := Option.bind_eq_some_iff.mp hall
      exact ih (h.call request halloc hperform) hrest
    · cases hall

theorem performed_of_perform_new {events : List Event} {max_memory_usage : UInt64} {max_entries cache_ttl : Int}
    {requests : List Request}
    (h : perform_new exceeds max_memory_usage max_entries cache_ttl requests = some (cache, events)) :
    Performed exceeds cache events := by
  rw [perform_new] at h
  split at h
  · cases h
  · rename_i hcreate
    exact (Performed.create _ _ _ hcreate).perform_all h

/-- A cache for two files: after the second is stored the first is found, so that the
third evicts the second. -/
theorem cache_recency_two_files :
    ∃ cache events, perform_new exceeds_exact 1000000 2 60 [.put ⟨0, some 1, true⟩ (small_file (bytes "/a")),
        .put ⟨1, some 2, true⟩ (small_file (bytes "/b")), .find 2 (bytes "/a"),
        .put ⟨3, some 3, true⟩ (small_file (bytes "/c")), .find 4 (bytes "/b")] = some (cache, events) ∧
      events.getLast? = some (.find 4 (bytes "/b") none) ∧
      ∃ items, RecencyRun cache.cache_ttl events items ∧ Represents cache items := by
  have hcomputed : (perform_new exceeds_exact 1000000 2 60 [.put ⟨0, some 1, true⟩ (small_file (bytes "/a")),
      .put ⟨1, some 2, true⟩ (small_file (bytes "/b")), .find 2 (bytes "/a"),
      .put ⟨3, some 3, true⟩ (small_file (bytes "/c")), .find 4 (bytes "/b")]).any
        (fun result => result.2.getLast? = some (.find 4 (bytes "/b") none)) = true := by
    decide +kernel
  simp only [Option.any_eq_true, decide_eq_true_eq] at hcomputed
  obtain ⟨⟨cache, events⟩, hresult, hlast⟩ := hcomputed
  obtain ⟨items, hrun, hrepresents, -⟩ := cache_recency (performed_of_perform_new hresult)
  exact ⟨cache, events, hresult, hlast, items, hrun, hrepresents⟩

end simulation

end uvhttp.lru_cache
