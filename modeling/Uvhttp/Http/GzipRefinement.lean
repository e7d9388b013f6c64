import Uvhttp.Http.GzipLru

namespace uvhttp.gzip

/-- A list around one of its elements, and what writing there gives. -/
theorem split_at {α : Type} {l : List α} {i : Nat} {a : α} (h : l[i]? = some a) :
    l = l.take i ++ a :: l.drop (i + 1) ∧ (∀ x, l.set i x = l.take i ++ x :: l.drop (i + 1)) ∧
      ∀ f : α → α, l.modify i f = l.take i ++ f a :: l.drop (i + 1) := by
  obtain ⟨hi, rfl⟩ := List.getElem?_eq_some_iff.mp h
  refine ⟨?_, fun x => ?_, fun f => ?_⟩
  · rw [List.getElem_cons_drop hi, List.take_append_drop]
  · rw [List.set_eq_take_append_cons_drop, if_pos hi]
  · exact List.modify_eq_take_cons_drop hi

/-- One turn of the search for the slot to evict. -/
def older (victim : Option (GzipEntry × Nat)) (slot : GzipEntry × Nat) : Option (GzipEntry × Nat) :=
  if !slot.1.valid then victim
  else
    match victim with
    | none => some slot
    | some best => if slot.1.last_used < best.1.last_used then some slot else victim

/-- The search finds a valid slot that no other was used before. -/
theorem oldest_slot_spec (entries : List GzipEntry) :
    match entries.zipIdx.foldl older none with
    | none => ∀ e ∈ entries, e.valid = false
    | some (e, i) => entries[i]? = some e ∧ e.valid = true ∧
        ∀ e' ∈ entries, e'.valid = true → e.last_used ≤ e'.last_used := by
  induction entries using List.reverseRecOn with
  | nil =>
    intro e he
    cases he
  | append_singleton entries last ih =>
    rw [List.zipIdx_append, List.foldl_append, List.zipIdx_singleton, List.foldl_cons, List.foldl_nil, Nat.zero_add]
    have hmem : ∀ {P : GzipEntry → Prop}, (∀ e ∈ entries, P e) → P last → ∀ e ∈ entries ++ [last], P e := by
      intro P hold hlast e he
      rcases List.mem_append.mp he with hfront | hback
      · exact hold e hfront
      · rw [List.mem_singleton.mp hback]
        exact hlast
    generalize entries.zipIdx.foldl older none = victim at ih
    unfold older
    cases hvalid : last.valid with
    | false =>
      cases victim with
      | none => exact hmem ih hvalid
      | some best =>
        obtain ⟨hbest, hbestValid, holdest⟩ := ih
        refine ⟨?_, hbestValid, hmem holdest ?_⟩
        · exact (List.getElem?_append_left (List.getElem?_eq_some_iff.mp hbest).1).trans hbest
        · intro habsurd
          rw [hvalid] at habsurd
          cases habsurd
    | true =>
      cases victim with
      | none =>
        refine ⟨List.getElem?_concat_length, hvalid, hmem ?_ fun _ => Nat.le_refl _⟩
        intro e he heValid
        rw [ih e he] at heValid
        cases heValid
      | some best =>
        obtain ⟨hbest, hbestValid, holdest⟩ := ih
        dsimp only
        by_cases hless : last.last_used < best.1.last_used
        · simp only [Bool.not_true, Bool.false_eq_true, if_false, if_pos hless]
          refine ⟨List.getElem?_concat_length, hvalid, hmem ?_ fun _ => Nat.le_refl _⟩
          intro e he heValid
          have := holdest e he heValid
          omega
        · simp only [Bool.not_true, Bool.false_eq_true, if_false, if_neg hless]
          refine ⟨?_, hbestValid, hmem holdest fun _ => ?_⟩
          · exact (List.getElem?_append_left (List.getElem?_eq_some_iff.mp hbest).1).trans hbest
          · omega

/-- The number of valid slots. -/
def valid_count (entries : List GzipEntry) : Nat := entries.countP GzipEntry.valid

/-- The cache after some evictions. -/
structure Evicted (cache : GzipCache) (events : List GzipEvent) (cache' : GzipCache) : Prop where
  changes : Changes cache events cache'
  evictions : ∀ event ∈ events, ∃ key, event = .evicted key
  kept : ∀ e ∈ cache'.entries, e.valid = true → e ∈ cache.entries
  max_entries : cache'.max_entries = cache.max_entries
  length : cache'.entries.length = cache.entries.length

theorem Evicted.refl (cache : GzipCache) : Evicted cache [] cache :=
  ⟨.refl cache, fun _ h => absurd h List.not_mem_nil, fun _ he _ => he, rfl, rfl⟩

theorem Evicted.trans {cache cache' cache'' : GzipCache} {events later : List GzipEvent}
    (h : Evicted cache events cache') (hlater : Evicted cache' later cache'') :
    Evicted cache (events ++ later) cache'' := by
  refine ⟨h.changes.trans hlater.changes, ?_, ?_, hlater.max_entries.trans h.max_entries,
    hlater.length.trans h.length⟩
  · intro event hevent
    rcases List.mem_append.mp hevent with hfirst | hsecond
    · exact h.evictions event hfirst
    · exact hlater.evictions event hsecond
  · intro e he hvalid
    exact h.kept e (hlater.kept e he hvalid) hvalid

/-- Evicting frees the slot that was used longest ago, if any is valid. -/
theorem evict_one_spec {cache : GzipCache} (hsound : cache.Sound) :
    (∃ key, Evicted cache [.evicted key] (gzip_cache_evict_one cache) ∧
        valid_count (gzip_cache_evict_one cache).entries + 1 = valid_count cache.entries) ∨
      (gzip_cache_evict_one cache = cache ∧ valid_count cache.entries = 0) := by
  have hspec := oldest_slot_spec cache.entries
  have hsearch : oldest_slot cache.entries = (cache.entries.zipIdx.foldl older none).map Prod.snd := rfl
  unfold gzip_cache_evict_one
  rw [hsearch]
  cases hvictim : cache.entries.zipIdx.foldl older none with
  | none =>
    rw [hvictim] at hspec
    right
    refine ⟨rfl, ?_⟩
    apply List.countP_eq_zero.mpr
    intro e he
    rw [hspec e he]
    exact Bool.false_ne_true
  | some best =>
    obtain ⟨e, slot⟩ := best
    rw [hvictim] at hspec
    obtain ⟨hslot, hvalid, holdest⟩ := hspec
    obtain ⟨hsplit, hset, -⟩ := split_at hslot
    left
    refine ⟨e.key, ?_, ?_⟩
    · simp only [Option.map_some, Option.bind_some, hslot]
      rw [hset e.cleared]
      refine ⟨(Change.evict hsplit hvalid holdest fun hfits => hsound.memory_le hsplit hvalid hfits).changes, ?_, ?_,
        rfl, ?_⟩
      · intro event hevent
        exact ⟨e.key, List.mem_singleton.mp hevent⟩
      · intro x hx hxvalid
        rw [hsplit]
        simp only [List.mem_append, List.mem_cons] at hx ⊢
        rcases hx with hfront | rfl | hback
        · exact .inl hfront
        · cases hxvalid
        · exact .inr (.inr hback)
      · change (_ ++ e.cleared :: _).length = _
        nth_rewrite 3 [hsplit]
        simp only [List.length_append, List.length_cons]
    · simp only [Option.map_some, Option.bind_some, hslot]
      rw [hset e.cleared]
      nth_rewrite 3 [hsplit]
      simp only [valid_count, List.countP_append, List.countP_cons, hvalid, if_true]
      have hcleared : e.cleared.valid = false := rfl
      simp only [hcleared, Bool.false_eq_true, if_false]
      omega

/-- The loop evicts until its condition fails or nothing is left. -/
theorem evict_while_spec (condition : GzipCache → Bool) (fuel : Nat) {cache : GzipCache} (hsound : cache.Sound) :
    ∃ events, Evicted cache events (evict_while condition fuel cache) ∧
      (valid_count cache.entries ≤ fuel → condition (evict_while condition fuel cache) = true →
        valid_count (evict_while condition fuel cache).entries = 0) := by
  induction fuel generalizing cache with
  | zero => exact ⟨[], .refl cache, fun hle _ => Nat.le_zero.mp hle⟩
  | succ fuel ih =>
    rw [evict_while]
    by_cases hcondition : condition cache = true
    · rw [if_pos hcondition]
      rcases evict_one_spec hsound with ⟨key, hevicted, hcount⟩ | ⟨hsame, hnone⟩
      · obtain ⟨events, hlater, hdone⟩ := ih (hevicted.changes.sound hsound)
        refine ⟨.evicted key :: events, hevicted.trans hlater, ?_⟩
        intro hle
        exact hdone (by omega)
      · obtain ⟨events, hlater, hdone⟩ := ih hsound
        rw [hsame]
        refine ⟨events, hlater, ?_⟩
        intro hle
        exact hdone (by omega)
    · rw [if_neg hcondition]
      exact ⟨[], .refl cache, fun _ htrue => absurd htrue hcondition⟩

def GzipEvent.is_stored : GzipEvent → Bool
  | .stored _ _ _ => true
  | _ => false

/-- Only storing makes a slot valid. -/
theorem Change.count_le {cache cache' : GzipCache} {events : List GzipEvent} (h : Change cache events cache') :
    valid_count cache'.entries ≤ valid_count cache.entries + events.countP GzipEvent.is_stored := by
  have hfree : ∀ {front back : List GzipEntry} {e : GzipEntry}, cache.entries = front ++ e :: back →
      valid_count (front ++ e.cleared :: back) ≤ valid_count cache.entries := by
    intro front back e hslot
    rw [hslot]
    simp only [valid_count, List.countP_append, List.countP_cons]
    have hcleared : e.cleared.valid = false := rfl
    simp only [hcleared, Bool.false_eq_true, if_false]
    omega
  cases h with
  | evict hslot hvalid holdest hroom => exact Nat.le_add_right_of_le (hfree hslot)
  | expire hslot hvalid hstale hroom => exact Nat.le_add_right_of_le (hfree hslot)
  | use hslot hvalid =>
    rw [hslot]
    simp only [valid_count, List.countP_append, List.countP_cons]
    exact Nat.le_refl _
  | replace hslot hvalid hroom =>
    rw [hslot]
    simp only [valid_count, List.countP_append, List.countP_cons]
    omega
  | insert hslot hinvalid hkey =>
    rw [hslot]
    simp only [valid_count, List.countP_append, List.countP_cons, hinvalid, GzipEvent.is_stored, if_true,
      Bool.false_eq_true, if_false, List.countP_nil]
    omega
  | clear =>
    have hzero : valid_count (cache.entries.map GzipEntry.cleared) = 0 := by
      apply List.countP_eq_zero.mpr
      intro e he
      obtain ⟨e', -, rfl⟩ := List.mem_map.mp he
      exact Bool.false_ne_true
    change valid_count (cache.entries.map GzipEntry.cleared) ≤ _
    omega
  | @resize blanks max_entries hpos hle =>
    have hzero : (List.replicate blanks GzipEntry.blank).countP GzipEntry.valid = 0 := by
      apply List.countP_eq_zero.mpr
      intro e he
      rw [List.eq_of_mem_replicate he]
      exact Bool.false_ne_true
    simp only [valid_count, List.countP_append, hzero, List.countP_nil]
    exact Nat.le_refl _
  | configure => exact Nat.le_refl _

theorem Changes.count_le {cache cache' : GzipCache} {events : List GzipEvent} (h : Changes cache events cache') :
    valid_count cache'.entries ≤ valid_count cache.entries + events.countP GzipEvent.is_stored := by
  induction h with
  | refl cache => exact Nat.le_refl _
  | step hchange _ ih =>
    have hfirst := hchange.count_le
    rw [List.countP_append]
    omega

/-- Without storing, the number of valid slots does not grow. -/
theorem Changes.count_le_of_removals {cache cache' : GzipCache} {events : List GzipEvent}
    (h : Changes cache events cache') (hnone : ∀ event ∈ events, event.is_stored = false) :
    valid_count cache'.entries ≤ valid_count cache.entries := by
  have hzero : events.countP GzipEvent.is_stored = 0 := by
    apply List.countP_eq_zero.mpr
    intro event hevent
    rw [hnone event hevent]
    exact Bool.false_ne_true
  have hcount := h.count_le
  omega

theorem Evicted.count_le {cache cache' : GzipCache} {events : List GzipEvent} (h : Evicted cache events cache') :
    valid_count cache'.entries ≤ valid_count cache.entries := by
  apply h.changes.count_le_of_removals
  intro event hevent
  obtain ⟨key, rfl⟩ := h.evictions event hevent
  rfl

theorem GzipEntry.has_key_iff {e : GzipEntry} {hash : UInt64} {body_len : Nat} :
    e.has_key hash body_len = true ↔ e.valid = true ∧ e.key = (hash, body_len) := by
  simp only [GzipEntry.has_key, Bool.and_eq_true, decide_eq_true_eq, GzipEntry.key, Prod.mk.injEq, and_assoc]

/-- The search of `uvhttp_gzip_cache_find`: it lets slots expire on the way, and
either comes to the slot that has the key or leaves none that has it. -/
theorem find_loop_spec {cache : GzipCache} (now : Int) (hash : UInt64) (body_len : Nat) (rest : List GzipEntry)
    (front : List GzipEntry) (total_memory : UInt64) (eviction_count : Int)
    (hsound : GzipCache.Sound { cache with entries := front ++ rest, total_memory, eviction_count }) :
    ∃ events, (∀ event ∈ events, ∃ e ∈ rest, e.valid = true ∧ event = .expired e.key now cache.cache_ttl ∧
        Stale cache.cache_ttl now e.stored_at) ∧
      match find_loop cache.cache_ttl now hash body_len cache.tick rest total_memory eviction_count with
      | (entries, total_memory', eviction_count', none) =>
        Changes { cache with entries := front ++ rest, total_memory, eviction_count } events
            { cache with
              entries := front ++ entries, total_memory := total_memory', eviction_count := eviction_count' } ∧
          ∀ e ∈ entries, e.valid = true → e.key ≠ (hash, body_len)
      | (entries, total_memory', eviction_count', some e) =>
        ∃ before after, entries = before ++ { e with last_used := cache.tick + 1 } :: after ∧ e.valid = true ∧
          e.key = (hash, body_len) ∧ ¬ Stale cache.cache_ttl now e.stored_at ∧
          Changes { cache with entries := front ++ rest, total_memory, eviction_count } events
            { cache with
              entries := (front ++ before) ++ e :: after, total_memory := total_memory'
              eviction_count := eviction_count' } := by
  induction rest generalizing front total_memory eviction_count with
  | nil =>
    refine ⟨[], fun _ h => absurd h List.not_mem_nil, .refl _, ?_⟩
    intro e he
    cases he
  | cons e rest ih =>
    rw [find_loop]
    by_cases hexpired : (e.valid && cache.cache_ttl > 0 && now - e.stored_at > cache.cache_ttl) = true
    · rw [if_pos hexpired]
      simp only [Bool.and_eq_true, decide_eq_true_eq] at hexpired
      obtain ⟨⟨hvalid, httl⟩, hage⟩ := hexpired
      have hchange := @Change.expire { cache with entries := front ++ e :: rest, total_memory, eviction_count }
        front rest e now rfl hvalid ⟨httl, hage⟩ fun hfits => hsound.memory_le rfl hvalid hfits
      have hafter := hchange.sound hsound
      dsimp only at hchange hafter
      rw [List.append_cons front e.cleared rest] at hchange hafter
      obtain ⟨events, hevents, hrest⟩ := ih (front ++ [e.cleared]) (total_memory - e.memory) (eviction_count + 1) hafter
      refine ⟨.expired e.key now cache.cache_ttl :: events, ?_, ?_⟩
      · intro event hevent
        rcases List.mem_cons.mp hevent with rfl | hlater
        · exact ⟨e, List.mem_cons_self, hvalid, rfl, httl, hage⟩
        · obtain ⟨later, hmem, hlater⟩ := hevents event hlater
          exact ⟨later, List.mem_cons_of_mem _ hmem, hlater⟩
      · revert hrest
        rcases find_loop cache.cache_ttl now hash body_len cache.tick rest (total_memory - e.memory)
          (eviction_count + 1) with ⟨entries, total, evictions, found⟩
        cases found with
        | none =>
          rintro ⟨hchanges, hmiss⟩
          rw [List.append_assoc front [e.cleared] entries, List.singleton_append] at hchanges
          refine ⟨.step hchange hchanges, ?_⟩
          intro x hx hxvalid
          rcases List.mem_cons.mp hx with rfl | hlater
          · cases hxvalid
          · exact hmiss x hlater hxvalid
        | some found =>
          rintro ⟨before, after, hentries, hfvalid, hfkey, hfresh, hchanges⟩
          refine ⟨e.cleared :: before, after, ?_, hfvalid, hfkey, hfresh, ?_⟩
          · dsimp only at hentries ⊢
            rw [hentries, List.cons_append]
          · rw [List.append_cons front e.cleared before]
            exact .step hchange hchanges
    · rw [if_neg hexpired]
      by_cases hkey : e.has_key hash body_len = true
      · rw [if_pos hkey]
        obtain ⟨hvalid, hmine⟩ := GzipEntry.has_key_iff.mp hkey
        have hfresh : ¬ Stale cache.cache_ttl now e.stored_at := by
          rintro ⟨httl, hage⟩
          exact hexpired (by simp [hvalid, httl, hage])
        refine ⟨[], fun _ h => absurd h List.not_mem_nil, [], rest, rfl, hvalid, hmine, hfresh, ?_⟩
        rw [List.append_nil]
        exact .refl _
      · rw [if_neg hkey]
        rw [List.append_cons front e rest] at hsound ⊢
        obtain ⟨events, hevents, hrest⟩ := ih (front ++ [e]) total_memory eviction_count hsound
        refine ⟨events, ?_, ?_⟩
        · intro event hevent
          obtain ⟨later, hmem, hlater⟩ := hevents event hevent
          exact ⟨later, List.mem_cons_of_mem _ hmem, hlater⟩
        revert hrest
        rcases find_loop cache.cache_ttl now hash body_len cache.tick rest total_memory eviction_count with
          ⟨entries, total, evictions, found⟩
        cases found with
        | none =>
          rintro ⟨hchanges, hmiss⟩
          rw [List.append_assoc front [e] entries, List.singleton_append] at hchanges
          refine ⟨hchanges, ?_⟩
          intro x hx hxvalid
          rcases List.mem_cons.mp hx with rfl | hlater
          · intro hxkey
            exact hkey (GzipEntry.has_key_iff.mpr ⟨hxvalid, hxkey⟩)
          · exact hmiss x hlater hxvalid
        | some found =>
          rintro ⟨before, after, hentries, hfvalid, hfkey, hfresh, hchanges⟩
          refine ⟨e :: before, after, ?_, hfvalid, hfkey, hfresh, ?_⟩
          · dsimp only at hentries ⊢
            rw [hentries, List.cons_append]
          · rw [List.append_cons front e before]
            exact hchanges

theorem GzipCache.Matches.missing {cache : GzipCache} {log : List GzipEvent} (h : cache.Matches log) {key : Key}
    (hnone : ∀ e ∈ cache.entries, e.valid = true → e.key ≠ key) : contents log key = none := by
  cases hheld : contents log key with
  | none => rfl
  | some data =>
    obtain ⟨e, he, hvalid, hkey, -⟩ := (h key data).mp hheld
    exact absurd hkey (hnone e he hvalid)

/-- The streams of the slots, as if they had been stored one after the other. -/
def stored_events (entries : List GzipEntry) : List GzipEvent :=
  entries.filterMap fun e =>
    if e.valid then e.compressed.map fun data => GzipEvent.stored e.key data e.stored_at else none

/-- Every sound cache has a log. -/
theorem GzipCache.Sound.matches_stored {cache : GzipCache} (h : cache.Sound) :
    cache.Matches (stored_events cache.entries) := by
  have happart := h.apart
  have hslots := h.slots
  unfold GzipCache.Matches
  generalize cache.entries = entries at happart hslots
  intro key held
  induction entries using List.reverseRecOn with
  | nil =>
    refine iff_of_false (fun hnone => by cases hnone) ?_
    rintro ⟨e, he, -⟩
    cases he
  | append_singleton entries e ih =>
    obtain ⟨hfront, -, hcross⟩ := List.pairwise_append.mp happart
    have hbefore := ih hfront fun e' he' => hslots e' (List.mem_append_left _ he')
    have hsplit : (∃ x ∈ entries ++ [e], Carries x key held) ↔
        Carries e key held ∨ ∃ x ∈ entries, Carries x key held := by
      have hcarried := @carried_split entries [] e key held
      rwa [List.append_nil] at hcarried
    have happend : stored_events (entries ++ [e]) = stored_events entries ++ stored_events [e] := List.filterMap_append
    rw [hsplit, happend]
    cases hvalid : e.valid with
    | false =>
      have hnone : stored_events [e] = [] := by simp [stored_events, hvalid]
      have hcarries : ¬ Carries e key held := by
        rintro ⟨habsurd, -⟩
        rw [hvalid] at habsurd
        cases habsurd
      rw [hnone, List.append_nil, hbefore]
      exact (or_iff_right hcarries).symm
    | true =>
      obtain ⟨stream, hstream⟩ := Option.ne_none_iff_exists'.mp
        (hslots e (List.mem_append_right _ List.mem_cons_self) hvalid).1
      have hone : stored_events [e] = [.stored e.key stream e.stored_at] := by simp [stored_events, hvalid, hstream]
      rw [hone, contents_append]
      simp only [GzipEvent.apply]
      by_cases hkey : key = e.key
      · subst hkey
        have hother : ¬ ∃ x ∈ entries, Carries x e.key held := by
          rintro ⟨x, hx, hxvalid, hxkey, -⟩
          exact (hcross x hx e List.mem_cons_self hxvalid hvalid).1 hxkey
        rw [if_pos rfl, or_iff_left hother, Carries, hstream]
        constructor
        · rintro ⟨⟩
          exact ⟨hvalid, rfl, rfl, rfl⟩
        · rintro ⟨-, -, hdata, htime⟩
          exact congrArg some (Prod.ext (Option.some.inj hdata) htime)
      · have hcarries : ¬ Carries e key held := fun habsurd => hkey habsurd.2.1.symm
        rw [if_neg hkey, hbefore]
        exact (or_iff_right hcarries).symm

theorem justified_stored (entries : List GzipEntry) : Justified (stored_events entries) := by
  apply justified_of_none_expired
  intro key now cache_ttl hmem
  obtain ⟨e, -, hevent⟩ := List.mem_filterMap.mp hmem
  split at hevent
  · obtain ⟨data, -, habsurd⟩ := Option.map_eq_some_iff.mp hevent
    cases habsurd
  · cases hevent

/-- A lookup answers with what the map has for the key once the streams have expired that
are too old, and never with such a stream. -/
theorem find_spec {cache : GzipCache} (hsound : cache.Sound) (now : Int) (hash : UInt64) (body_len : Nat) :
    ∃ events, Changes cache events (uvhttp_gzip_cache_find cache now hash body_len).2 ∧
      (∀ event ∈ events, ∃ e ∈ cache.entries, e.valid = true ∧ event = .expired e.key now cache.cache_ttl ∧
        Stale cache.cache_ttl now e.stored_at) ∧
      (uvhttp_gzip_cache_find cache now hash body_len).2.max_entries = cache.max_entries ∧
      ∀ log, cache.Matches log →
        (uvhttp_gzip_cache_find cache now hash body_len).1 =
          (contents (log ++ events) (hash, body_len)).map Prod.fst ∧
        ∀ held, contents (log ++ events) (hash, body_len) = some held → ¬ Stale cache.cache_ttl now held.2 := by
  obtain ⟨events, hevents, hloop⟩ := find_loop_spec now hash body_len cache.entries [] cache.total_memory
    cache.eviction_count hsound
  refine ⟨events, ?_⟩
  unfold uvhttp_gzip_cache_find
  revert hloop
  rcases find_loop cache.cache_ttl now hash body_len cache.tick cache.entries cache.total_memory
    cache.eviction_count with ⟨entries, total, evictions, found⟩
  cases found with
  | none =>
    rintro ⟨hchanges, hmiss⟩
    have hall := hchanges.trans (@Change.configure _ cache.max_memory_usage cache.cache_ttl
      (cache.miss_count + 1)).changes
    rw [List.append_nil] at hall
    refine ⟨hall, hevents, rfl, ?_⟩
    intro log hmatches
    have hnone := (hall.matches hsound hmatches).missing hmiss
    rw [hnone]
    exact ⟨rfl, fun held habsurd => by cases habsurd⟩
  | some e =>
    rintro ⟨before, after, hentries, hvalid, hkey, hfresh, hchanges⟩
    have hall := hchanges.trans (Change.use rfl hvalid).changes
    rw [List.append_nil] at hall
    dsimp only at hall ⊢
    rw [hentries]
    refine ⟨hall, hevents, rfl, ?_⟩
    intro log hmatches
    have hmem : e ∈ [] ++ before ++ e :: after := List.mem_append_right _ List.mem_cons_self
    obtain ⟨data, hdata, hheld⟩ :=
      (hchanges.matches hsound hmatches).held (hchanges.sound hsound) hmem hvalid
    rw [hkey] at hheld
    rw [hdata, hheld]
    refine ⟨rfl, fun held hsome => ?_⟩
    cases hsome
    exact hfresh

/-- Evicting until the budget is met and a slot is free: there is a free slot then. -/
theorem make_room_spec {cache : GzipCache} (hsound : cache.Sound) (over_budget : GzipCache → Bool) :
    ∃ removed, Evicted cache removed (evict_while (fun cache => gzip_cache_entry_count cache ≥ cache.max_entries)
          cache.entries.length (evict_while over_budget cache.entries.length cache)) ∧
      (valid_count (evict_while (fun cache => gzip_cache_entry_count cache ≥ cache.max_entries)
          cache.entries.length (evict_while over_budget cache.entries.length cache)).entries : Int) <
        cache.max_entries := by
  obtain ⟨first, hfirst, -⟩ := evict_while_spec over_budget cache.entries.length hsound
  generalize evict_while over_budget cache.entries.length cache = budget at hfirst ⊢
  obtain ⟨second, hsecond, hdone⟩ := evict_while_spec
    (fun cache => gzip_cache_entry_count cache ≥ cache.max_entries) cache.entries.length (hfirst.changes.sound hsound)
  generalize evict_while (fun cache => gzip_cache_entry_count cache ≥ cache.max_entries) cache.entries.length
    budget = room at hsecond hdone ⊢
  have hall := hfirst.trans hsecond
  refine ⟨first ++ second, hall, ?_⟩
  have hpos := hsound.max_pos
  have hfuel : valid_count budget.entries ≤ cache.entries.length := by
    rw [← hfirst.length]
    exact List.countP_le_length
  have hmax := hall.max_entries
  have hcount : gzip_cache_entry_count room = valid_count room.entries := rfl
  by_contra hfull
  have hnone := hdone hfuel (decide_eq_true (by rw [hcount, hmax]; omega))
  omega

/-- With fewer valid slots than the limit, one is free. -/
theorem Evicted.free_slot {cache room : GzipCache} {removed : List GzipEvent} (h : Evicted cache removed room)
    (hsound : cache.Sound) (hcount : (valid_count room.entries : Int) < cache.max_entries) :
    (room.entries.findIdx? fun e => !e.valid) ≠ none := by
  intro hfree
  have hall : room.entries.countP GzipEntry.valid = room.entries.length := by
    apply List.countP_eq_length.mpr
    intro e he
    have hvalid := List.findIdx?_eq_none_iff.mp hfree e he
    rw [Bool.not_eq_false'] at hvalid
    exact hvalid
  have hlength := h.length
  have hcapacity := hsound.max_le
  unfold valid_count at hcount
  omega

/-- A slot is written that was free. -/
theorem insert_spec {cache room : GzipCache} {removed : List GzipEvent}
    (hroom : Evicted cache removed room) {key : Key} (hnew : ∀ e ∈ cache.entries, e.valid = true → e.key ≠ key)
    {slot : Nat} (hfree : room.entries.findIdx? (fun e => !e.valid) = some slot) (data : List UInt8) (now : Int) :
    Changes cache (removed ++ [.stored key data now]) { room with
        entries := room.entries.set slot
          { hash := key.1, body_len := key.2, compressed := some data, valid := true, stored_at := now
            last_used := room.tick + 1 }
        total_memory := room.total_memory + UInt64.ofNat (data.length + GZIP_CACHE_ENTRY_OVERHEAD)
        tick := room.tick + 1 } := by
  obtain ⟨hslot, hinvalid, -⟩ := List.findIdx?_eq_some_iff_getElem.mp hfree
  obtain ⟨hsplit, hset, -⟩ := split_at (List.getElem?_eq_getElem hslot)
  rw [hset]
  apply hroom.changes.trans
  apply Change.changes
  apply Change.insert hsplit
  · rw [Bool.not_eq_eq_eq_not, Bool.not_true] at hinvalid
    exact hinvalid
  · intro e he hvalid
    exact hnew e (hroom.kept e he hvalid) hvalid

/-- What a call of `uvhttp_gzip_cache_put` does after the evictions `removed`: the
stream is stored exactly when the call succeeds and the stream is within the
memory limit. -/
inductive PutLogged (cache : GzipCache) (key : Key) (data : List UInt8) (now : Int) (removed : List GzipEvent)
    (result : UvhttpError × GzipCache) : Prop where
  | stored : result.1 = .OK ∧ data.length ≤ cache.max_memory_usage →
      Changes cache (removed ++ [.stored key data now]) result.2 → PutLogged cache key data now removed result
  | skipped : ¬ (result.1 = .OK ∧ data.length ≤ cache.max_memory_usage) → Changes cache removed result.2 →
      PutLogged cache key data now removed result

/-- Before a stream is stored only evictions happen, and there is a slot for it. -/
theorem put_spec (alloc : Nat → Bool) {cache : GzipCache} (hsound : cache.Sound) (now : Int) (hash : UInt64)
    (body_len : Nat) (data : List UInt8) :
    ∃ removed, (∀ event ∈ removed, ∃ key, event = .evicted key) ∧
      PutLogged cache (hash, body_len) data now removed (uvhttp_gzip_cache_put alloc cache now hash body_len data) ∧
      (valid_count cache.entries ≤ cache.max_entries →
        (valid_count (uvhttp_gzip_cache_put alloc cache now hash body_len data).2.entries : Int) ≤
          (uvhttp_gzip_cache_put alloc cache now hash body_len data).2.max_entries) := by
  have hnothing : ∀ event ∈ ([] : List GzipEvent), ∃ key, event = .evicted key :=
    fun _ h => absurd h List.not_mem_nil
  unfold uvhttp_gzip_cache_put
  by_cases hempty : data.length = 0
  · rw [if_pos hempty]
    exact ⟨[], hnothing, .skipped (fun h => by cases h.1) (.refl cache), id⟩
  · rw [if_neg hempty]
    by_cases hlarge : data.length > cache.max_memory_usage
    · rw [if_pos hlarge]
      refine ⟨[], hnothing, .skipped ?_ (.refl cache), id⟩
      rintro ⟨-, hle⟩
      omega
    · rw [if_neg hlarge]
      have hwithin : data.length ≤ cache.max_memory_usage := by omega
      dsimp only
      cases hfind : cache.entries.findIdx? fun e => e.has_key hash body_len with
      | some slot =>
        dsimp only
        obtain ⟨hslot, hhas, -⟩ := List.findIdx?_eq_some_iff_getElem.mp hfind
        obtain ⟨hvalid, hkey⟩ := GzipEntry.has_key_iff.mp hhas
        have hget : cache.entries[slot]? = some cache.entries[slot] := List.getElem?_eq_getElem hslot
        obtain ⟨hsplit, -, hmodify⟩ := split_at hget
        cases alloc data.length with
        | false => exact ⟨[], hnothing, .skipped (fun h => by cases h.1) (.refl cache), id⟩
        | true =>
          have hchange := @Change.replace cache _ _ _ data now hsplit hvalid
            fun hfits => hsound.memory_le hsplit hvalid hfits
          rw [hkey] at hchange
          refine ⟨[], hnothing, .stored ⟨rfl, hwithin⟩ ?_, ?_⟩
          · simp only [Bool.not_true, Bool.false_eq_true, if_false, List.nil_append, hmodify, hget, Option.map_some,
              Option.getD_some]
            exact hchange.changes
          · intro hle
            simp only [Bool.not_true, Bool.false_eq_true, if_false, hmodify]
            rw [hsplit] at hle
            simp only [valid_count, List.countP_append, List.countP_cons] at hle ⊢
            exact hle
      | none =>
        dsimp only
        have hnew : ∀ e ∈ cache.entries, e.valid = true → e.key ≠ (hash, body_len) := by
          intro e he hvalid hkey
          have hnot := List.findIdx?_eq_none_iff.mp hfind e he
          rw [GzipEntry.has_key_iff.mpr ⟨hvalid, hkey⟩] at hnot
          cases hnot
        obtain ⟨removed, hroom, hcount⟩ := make_room_spec hsound fun cache =>
          (cache.total_memory + UInt64.ofNat data.length).toNat > cache.max_memory_usage &&
            gzip_cache_entry_count cache > 0
        generalize evict_while (fun cache => gzip_cache_entry_count cache ≥ cache.max_entries) cache.entries.length
          _ = room at hroom hcount ⊢
        refine ⟨removed, hroom.evictions, ?_⟩
        have hmax := hroom.max_entries
        cases hfree : room.entries.findIdx? fun e => !e.valid with
        | none => exact absurd hfree (hroom.free_slot hsound hcount)
        | some slot =>
          dsimp only
          have hinsert := insert_spec hroom hnew hfree data now
          cases alloc data.length with
          | false =>
            refine ⟨.skipped (fun h => by cases h.1) hroom.changes, fun _ => ?_⟩
            · simp only [Bool.not_false, if_true]
              omega
          | true =>
            refine ⟨.stored ⟨rfl, hwithin⟩ hinsert, fun _ => ?_⟩
            · simp only [Bool.not_true, Bool.false_eq_true, if_false]
              obtain ⟨hslot, hinvalid, -⟩ := List.findIdx?_eq_some_iff_getElem.mp hfree
              obtain ⟨hsplit, hset, -⟩ := split_at (List.getElem?_eq_getElem hslot)
              rw [hset]
              rw [hsplit] at hcount
              simp only [valid_count, List.countP_append, List.countP_cons] at hcount ⊢
              simp only [if_true]
              omega

/-- After the slots have been extended and the limit set, evictions meet it. -/
theorem resize_spec {cache grown : GzipCache} (hsound : cache.Sound) {blanks : Nat} {max_entries : Int}
    (hpos : 0 < max_entries) (hle : max_entries ≤ cache.entries.length + blanks)
    (hgrown : { cache with entries := cache.entries ++ List.replicate blanks GzipEntry.blank, max_entries } = grown) :
    ∃ events, Changes cache events (evict_while (fun cache => gzip_cache_entry_count cache > cache.max_entries)
          grown.entries.length grown) ∧
      (∀ event ∈ events, ∃ key, event = .evicted key) ∧
      (valid_count (evict_while (fun cache => gzip_cache_entry_count cache > cache.max_entries)
          grown.entries.length grown).entries : Int) ≤
        (evict_while (fun cache => gzip_cache_entry_count cache > cache.max_entries)
          grown.entries.length grown).max_entries := by
  have hresize := @Change.resize cache blanks max_entries hpos hle
  rw [hgrown] at hresize
  obtain ⟨events, hevicted, hdone⟩ := evict_while_spec
    (fun cache => gzip_cache_entry_count cache > cache.max_entries) grown.entries.length (hresize.sound hsound)
  have hfuel := hdone List.countP_le_length
  have hmax : grown.max_entries = max_entries := by rw [← hgrown]
  have hsame := hevicted.max_entries
  refine ⟨events, Changes.step hresize hevicted.changes, hevicted.evictions, ?_⟩
  generalize evict_while (fun cache => gzip_cache_entry_count cache > cache.max_entries) _ _ = after
    at hfuel hsame ⊢
  have hcount : gzip_cache_entry_count after = valid_count after.entries := rfl
  by_contra hfull
  have hnone := hfuel (decide_eq_true (by rw [hcount]; omega))
  omega

theorem set_max_entries_spec (alloc : Nat → Bool) {cache : GzipCache} (hsound : cache.Sound)
    (hbound : valid_count cache.entries ≤ cache.max_entries) (max_entries : Int) :
    ∃ events, Changes cache events (uvhttp_gzip_cache_set_max_entries alloc cache max_entries) ∧
      (∀ event ∈ events, ∃ key, event = .evicted key) ∧
      (valid_count (uvhttp_gzip_cache_set_max_entries alloc cache max_entries).entries : Int) ≤
        (uvhttp_gzip_cache_set_max_entries alloc cache max_entries).max_entries := by
  have hnothing : ∀ event ∈ ([] : List GzipEvent), ∃ key, event = .evicted key :=
    fun _ h => absurd h List.not_mem_nil
  unfold uvhttp_gzip_cache_set_max_entries
  by_cases hnegative : max_entries ≤ 0
  · rw [if_pos hnegative]
    exact ⟨[], .refl cache, hnothing, hbound⟩
  · rw [if_neg hnegative]
    by_cases hgrow : max_entries > cache.entries.length
    · simp only [if_pos hgrow]
      cases alloc (GZIP_CACHE_ENTRY_OVERHEAD * max_entries.toNat) with
      | false => exact ⟨[], .refl cache, hnothing, hbound⟩
      | true =>
        have hle : max_entries ≤ cache.entries.length + (max_entries.toNat - cache.entries.length : Nat) := by omega
        exact resize_spec hsound (by omega) hle rfl
    · simp only [if_neg hgrow]
      have hle : max_entries ≤ cache.entries.length + (0 : Nat) := by omega
      have hsame : { cache with entries := cache.entries ++ List.replicate 0 GzipEntry.blank, max_entries } =
          { cache with max_entries } := by
        rw [List.replicate_zero, List.append_nil]
      exact resize_spec hsound (by omega) hle hsame

theorem set_max_memory_usage_spec {cache : GzipCache} (hsound : cache.Sound)
    (hbound : valid_count cache.entries ≤ cache.max_entries) (max_memory_usage : Nat) :
    ∃ events, Changes cache events (uvhttp_gzip_cache_set_max_memory_usage cache max_memory_usage) ∧
      (∀ event ∈ events, ∃ key, event = .evicted key) ∧
      (valid_count (uvhttp_gzip_cache_set_max_memory_usage cache max_memory_usage).entries : Int) ≤
        (uvhttp_gzip_cache_set_max_memory_usage cache max_memory_usage).max_entries := by
  unfold uvhttp_gzip_cache_set_max_memory_usage
  by_cases hzero : max_memory_usage = 0
  · rw [if_pos hzero]
    exact ⟨[], .refl cache, fun _ h => absurd h List.not_mem_nil, hbound⟩
  · rw [if_neg hzero]
    have hconfigure := @Change.configure cache max_memory_usage cache.cache_ttl cache.miss_count
    obtain ⟨events, hevicted, -⟩ := evict_while_spec
      (fun cache => cache.total_memory.toNat > cache.max_memory_usage && gzip_cache_entry_count cache > 0)
      cache.entries.length (hconfigure.sound hsound)
    refine ⟨events, Changes.step hconfigure hevicted.changes, hevicted.evictions, ?_⟩
    have hcount := hevicted.count_le
    have hmax := hevicted.max_entries
    dsimp only at hcount hmax
    omega

/-- A call on the cache. -/
inductive GzipCall where
  | find (now : Int) (hash : UInt64) (body_len : Nat)
  | put (now : Int) (hash : UInt64) (body_len : Nat) (compressed : List UInt8)
  | clear
  | set_max_entries (max_entries : Int)
  | set_max_memory_usage (max_memory_usage : Nat)
  | set_cache_ttl (cache_ttl : Int)

/-- What a call returns. -/
inductive GzipAnswer where
  | found (data : Option (List UInt8))
  | put (error : UvhttpError)
  | done
  deriving DecidableEq

/-- Make one call, with the allocator as it is then. -/
def gzip_step (alloc : Nat → Bool) (cache : GzipCache) : GzipCall → GzipAnswer × GzipCache
  | .find now hash body_len =>
    let found := uvhttp_gzip_cache_find cache now hash body_len
    (.found found.1, found.2)
  | .put now hash body_len compressed =>
    let put := uvhttp_gzip_cache_put alloc cache now hash body_len compressed
    (.put put.1, put.2)
  | .clear => (.done, uvhttp_gzip_cache_clear cache)
  | .set_max_entries max_entries => (.done, uvhttp_gzip_cache_set_max_entries alloc cache max_entries)
  | .set_max_memory_usage max_memory_usage => (.done, uvhttp_gzip_cache_set_max_memory_usage cache max_memory_usage)
  | .set_cache_ttl cache_ttl => (.done, uvhttp_gzip_cache_set_cache_ttl cache cache_ttl)

/-- What the events of a call may be, and what it answers. A lookup lets streams expire
that the map holds and that are too old at the time of the call, and answers from the
map, never with such a stream; while the clock has not gone back and the time to live
has not been raised it finds every stream that is not too old. A call that stores a
stream does so with the time of the call, and only what was stored successfully within
the limit enters the map. -/
def GzipCall.Explained (call : GzipCall) (answer : GzipAnswer) (cache : GzipCache) (log events : List GzipEvent) :
    Prop :=
  match call with
  | .find now hash body_len =>
    answer = .found ((contents (log ++ events) (hash, body_len)).map Prod.fst) ∧
      (∀ held, contents (log ++ events) (hash, body_len) = some held → ¬ Stale cache.cache_ttl now held.2) ∧
      (∀ event ∈ events, ∃ key held, event = .expired key now cache.cache_ttl ∧ contents log key = some held ∧
        Stale cache.cache_ttl now held.2) ∧
      ((∀ key before cache_ttl, .expired key before cache_ttl ∈ log →
          before ≤ now ∧ 0 < cache.cache_ttl ∧ cache.cache_ttl ≤ cache_ttl) →
        answer = .found ((lasting log (hash, body_len)).bind fun held =>
          if Stale cache.cache_ttl now held.2 then none else some held.1))
  | .put now hash body_len compressed => ∃ removed, (∀ event ∈ removed, ∃ key, event = .evicted key) ∧
      events = if answer = .put .OK ∧ compressed.length ≤ cache.max_memory_usage then
        removed ++ [.stored (hash, body_len) compressed now] else removed
  | .clear => events = [.cleared]
  | .set_max_entries _ => ∀ event ∈ events, ∃ key, event = .evicted key
  | .set_max_memory_usage _ => ∀ event ∈ events, ∃ key, event = .evicted key
  | .set_cache_ttl _ => events = []

/-- The cache is a bounded map: keys of valid slots differ, the memory is counted
and fits the counter, and there are slots for all entries. -/
structure GzipCache.Bounded (cache : GzipCache) : Prop where
  keys : cache.entries.Pairwise fun e e' => e.valid = true → e'.valid = true → e.key ≠ e'.key
  total : memory_held cache.entries ≤ SIZE_MAX → cache.total_memory.toNat = memory_in_use cache.entries
  count_le : gzip_cache_entry_count cache ≤ cache.max_entries
  max_le : cache.max_entries ≤ cache.entries.length

/-- Every call of the run changes the slots in justified steps, answers from the
map that the events so far make, and leaves a bounded map. -/
def RefinesLru (cache : GzipCache) (log : List GzipEvent) : List ((Nat → Bool) × GzipCall) → Prop
  | [] => True
  | (alloc, call) :: calls => ∃ events,
      Changes cache events (gzip_step alloc cache call).2 ∧
      call.Explained (gzip_step alloc cache call).1 cache log events ∧
      (gzip_step alloc cache call).2.Bounded ∧ RefinesLru (gzip_step alloc cache call).2 (log ++ events) calls

theorem GzipCache.Sound.bounded {cache : GzipCache} (h : cache.Sound)
    (hcount : valid_count cache.entries ≤ cache.max_entries) : cache.Bounded := by
  refine ⟨?_, ?_, hcount, h.max_le⟩
  · apply h.apart.imp
    intro e e' hapart hvalid hvalid'
    exact (hapart hvalid hvalid').1
  · intro hfits
    have hle := Nat.le_trans (memory_in_use_le cache.entries) hfits
    have hsize : SIZE_MAX < UInt64.size := by decide
    rw [h.total, UInt64.toNat_ofNat_of_lt' (by omega)]

/-- While the clock has not gone back and the time to live has not been raised, what has
expired is too old. -/
theorem lookup_lasting {log events : List GzipEvent} {key : Key} {now cache_ttl : Int}
    (hjustified : Justified (log ++ events))
    (hfresh : ∀ held, contents (log ++ events) key = some held → ¬ Stale cache_ttl now held.2)
    (hexpired : ∀ event ∈ events, ∃ key held, event = .expired key now cache_ttl ∧ contents log key = some held ∧
      Stale cache_ttl now held.2)
    (hclock : ∀ key before ttl, .expired key before ttl ∈ log → before ≤ now ∧ 0 < cache_ttl ∧ cache_ttl ≤ ttl) :
    (contents (log ++ events) key).map Prod.fst =
      (lasting log key).bind fun held => if Stale cache_ttl now held.2 then none else some held.1 := by
  have hlasting : lasting (log ++ events) = lasting log := by
    have hnone : events.filter (fun event => !event.is_expired) = [] := by
      rw [List.filter_eq_nil_iff]
      intro event hevent
      obtain ⟨key, held, rfl, -⟩ := hexpired event hevent
      simp [GzipEvent.is_expired]
    rw [lasting, lasting, List.filter_append, hnone, List.append_nil]
  rcases contents_or_stale hjustified key with hequal | ⟨hnone, held, before, ttl, hheld, hmem, hold⟩
  · rw [hlasting] at hequal
    rw [← hequal]
    cases hcontents : contents (log ++ events) key with
    | none => rfl
    | some held =>
      rw [Option.bind_some, if_neg (hfresh held hcontents)]
      rfl
  · rw [hlasting] at hheld
    have hstale : Stale cache_ttl now held.2 := by
      rcases List.mem_append.mp hmem with hlog | hevent
      · obtain ⟨hback, hpos, hraised⟩ := hclock key before ttl hlog
        obtain ⟨-, hage⟩ := hold
        exact ⟨hpos, by omega⟩
      · obtain ⟨key', held', heq, -⟩ := hexpired _ hevent
        cases heq
        exact hold
    rw [hnone, hheld, Option.bind_some, if_pos hstale]
    rfl

/-- What one call does. -/
theorem gzip_step_refines (alloc : Nat → Bool) {cache : GzipCache} (hsound : cache.Sound)
    (hbound : valid_count cache.entries ≤ cache.max_entries) {log : List GzipEvent} (hmatches : cache.Matches log)
    (hjustified : Justified log) (call : GzipCall) :
    ∃ events, Changes cache events (gzip_step alloc cache call).2 ∧
      call.Explained (gzip_step alloc cache call).1 cache log events ∧
      (valid_count (gzip_step alloc cache call).2.entries : Int) ≤ (gzip_step alloc cache call).2.max_entries := by
  cases call with
  | find now hash body_len =>
    obtain ⟨events, hchanges, hevents, hmax, hspec⟩ := find_spec hsound now hash body_len
    obtain ⟨hanswer, hfresh⟩ := hspec log hmatches
    have hexpired : ∀ event ∈ events, ∃ key held, event = .expired key now cache.cache_ttl ∧
        contents log key = some held ∧ Stale cache.cache_ttl now held.2 := by
      intro event hevent
      obtain ⟨e, he, hvalid, rfl, hstale⟩ := hevents event hevent
      obtain ⟨data, -, hheld⟩ := hmatches.held hsound he hvalid
      exact ⟨e.key, _, rfl, hheld, hstale⟩
    refine ⟨events, hchanges, ⟨congrArg GzipAnswer.found hanswer, hfresh, hexpired, fun hclock => ?_⟩, ?_⟩
    · rw [show (gzip_step alloc cache (.find now hash body_len)).1 = .found _ from congrArg GzipAnswer.found hanswer]
      exact congrArg GzipAnswer.found
        (lookup_lasting (hchanges.justified hsound hmatches hjustified) hfresh hexpired hclock)
    have hcount := hchanges.count_le_of_removals fun event hevent => by
      obtain ⟨key, held, rfl, -⟩ := hexpired event hevent
      rfl
    simp only [gzip_step]
    omega
  | put now hash body_len compressed =>
    obtain ⟨removed, hremoved, hput, hcount⟩ := put_spec alloc hsound now hash body_len compressed
    simp only [gzip_step, GzipCall.Explained, GzipAnswer.put.injEq]
    cases hput with
    | stored hok hchanges =>
      refine ⟨_, hchanges, ⟨removed, hremoved, ?_⟩, hcount hbound⟩
      rw [if_pos hok]
    | skipped hnot hchanges =>
      refine ⟨_, hchanges, ⟨removed, hremoved, ?_⟩, hcount hbound⟩
      rw [if_neg hnot]
  | clear =>
    have hchange := @Change.clear cache
    have hcount := hchange.count_le
    refine ⟨_, hchange.changes, rfl, ?_⟩
    have hmax : (uvhttp_gzip_cache_clear cache).max_entries = cache.max_entries := rfl
    have hnone : [GzipEvent.cleared].countP GzipEvent.is_stored = 0 := rfl
    simp only [gzip_step]
    omega
  | set_max_entries max_entries =>
    obtain ⟨events, hchanges, hevents, hcount⟩ := set_max_entries_spec alloc hsound hbound max_entries
    exact ⟨events, hchanges, hevents, hcount⟩
  | set_max_memory_usage max_memory_usage =>
    obtain ⟨events, hchanges, hevents, hcount⟩ := set_max_memory_usage_spec hsound hbound max_memory_usage
    exact ⟨events, hchanges, hevents, hcount⟩
  | set_cache_ttl cache_ttl =>
    exact ⟨[], (@Change.configure cache cache.max_memory_usage cache_ttl cache.miss_count).changes, rfl, hbound⟩

/-- What every call keeps, a whole run keeps. -/
theorem refinesLru_of_sound {cache : GzipCache} (hsound : cache.Sound)
    (hbound : valid_count cache.entries ≤ cache.max_entries) {log : List GzipEvent} (hmatches : cache.Matches log)
    (hjustified : Justified log) (calls : List ((Nat → Bool) × GzipCall)) : RefinesLru cache log calls := by
  induction calls generalizing cache log with
  | nil => trivial
  | cons first calls ih =>
    obtain ⟨alloc, call⟩ := first
    obtain ⟨events, hchanges, hexplained, hcount⟩ := gzip_step_refines alloc hsound hbound hmatches hjustified call
    have hafter := hchanges.sound hsound
    exact ⟨events, hchanges, hexplained, hafter.bounded hcount,
      ih hafter hcount (hchanges.matches hsound hmatches) (hchanges.justified hsound hmatches hjustified)⟩

/-- The parts of a lookup that come from its loop, and what it keeps. -/
theorem find_parts (cache : GzipCache) (now : Int) (hash : UInt64) (body_len : Nat) :
    (uvhttp_gzip_cache_find cache now hash body_len).1 =
        ((find_loop cache.cache_ttl now hash body_len cache.tick cache.entries cache.total_memory
          cache.eviction_count).2.2.2.map GzipEntry.compressed).join ∧
      (uvhttp_gzip_cache_find cache now hash body_len).2.entries =
        (find_loop cache.cache_ttl now hash body_len cache.tick cache.entries cache.total_memory
          cache.eviction_count).1 ∧
      (uvhttp_gzip_cache_find cache now hash body_len).2.cache_ttl = cache.cache_ttl ∧
      (uvhttp_gzip_cache_find cache now hash body_len).2.max_memory_usage = cache.max_memory_usage := by
  unfold uvhttp_gzip_cache_find
  rcases find_loop cache.cache_ttl now hash body_len cache.tick cache.entries cache.total_memory
    cache.eviction_count with ⟨entries, total, evictions, found⟩
  cases found with
  | none => exact ⟨rfl, rfl, rfl, rfl⟩
  | some e => exact ⟨rfl, rfl, rfl, rfl⟩

theorem valid_count_invalid {entries : List GzipEntry} (hinvalid : ∀ e ∈ entries, e.valid = false) :
    valid_count entries = 0 := by
  apply List.countP_eq_zero.mpr
  intro e he
  rw [hinvalid e he]
  exact Bool.false_ne_true

theorem create_sound (max_memory_usage : Nat) (max_entries cache_ttl : Int) :
    (uvhttp_gzip_cache_create max_memory_usage max_entries cache_ttl).Sound ∧
      ∀ e ∈ (uvhttp_gzip_cache_create max_memory_usage max_entries cache_ttl).entries, e.valid = false := by
  have hinvalid : ∀ e ∈ (uvhttp_gzip_cache_create max_memory_usage max_entries cache_ttl).entries,
      e.valid = false := by
    intro e he
    rw [List.eq_of_mem_replicate he]
    rfl
  have hpos : 0 < (if max_entries ≤ 0 then 64 else max_entries) := by
    split
    · omega
    · omega
  refine ⟨@GzipCache.sound_of_invalid (uvhttp_gzip_cache_create max_memory_usage max_entries cache_ttl) hinvalid rfl
    hpos ?_, hinvalid⟩
  change _ ≤ ((List.replicate _ GzipEntry.blank).length : Int)
  rw [List.length_replicate]
  change (if max_entries ≤ 0 then 64 else max_entries) ≤ _
  omega

/-- The gzip cache refines a bounded LRU map. From its creation on, whatever calls are
made and whatever allocations fail, every call consists of justified changes of single
slots: an eviction frees the slot used longest ago, an expired slot is older than the
time to live at the time of the call, and no subtraction from the memory counter goes
below zero. A lookup finds exactly the stream last stored for its key, unless it has
since been evicted, cleared or has expired; with a clock that does not go back and a
time to live that is not raised, unless it has been evicted, cleared or is too old. -/
theorem gzip_cache_refines_lru (max_memory_usage : Nat) (max_entries cache_ttl : Int)
    (calls : List ((Nat → Bool) × GzipCall)) :
    RefinesLru (uvhttp_gzip_cache_create max_memory_usage max_entries cache_ttl) [] calls := by
  obtain ⟨hsound, hinvalid⟩ := create_sound max_memory_usage max_entries cache_ttl
  apply refinesLru_of_sound hsound
  · have hzero := valid_count_invalid hinvalid
    have hpos := hsound.max_pos
    omega
  · intro key held
    constructor
    · rintro ⟨⟩
    · rintro ⟨e, he, hvalid, -⟩
      rw [hinvalid e he] at hvalid
      cases hvalid
  · exact justified_of_none_expired fun key now cache_ttl => List.not_mem_nil

/-- What the calls of a run answer. -/
def gzip_answers (cache : GzipCache) : List ((Nat → Bool) × GzipCall) → List GzipAnswer
  | [] => []
  | (alloc, call) :: calls => (gzip_step alloc cache call).1 :: gzip_answers (gzip_step alloc cache call).2 calls

/-- Three streams in two slots, and lookups at later times. -/
def lookup_calls : List ((Nat → Bool) × GzipCall) :=
  [(fun _ => true, .put 0 1 500 [31, 1]), (fun _ => true, .put 2 2 600 [31, 2]), (fun _ => true, .find 4 1 500),
    (fun _ => true, .put 4 3 700 [31, 3]), (fun _ => true, .find 5 2 600), (fun _ => true, .find 5 1 500),
    (fun _ => true, .find 6 1 500), (fun _ => true, .find 9 3 700)]

/-- The first stream is found twice and expires, the second is evicted by the third, which
is found after five seconds. -/
theorem gzip_cache_refines_lru_lookups :
    RefinesLru (uvhttp_gzip_cache_create 1000 2 5) [] lookup_calls ∧
      gzip_answers (uvhttp_gzip_cache_create 1000 2 5) lookup_calls =
        [.put .OK, .put .OK, .found (some [31, 1]), .put .OK, .found none, .found (some [31, 1]), .found none,
          .found (some [31, 3])] :=
  ⟨gzip_cache_refines_lru 1000 2 5 lookup_calls, by decide +kernel⟩

end uvhttp.gzip
