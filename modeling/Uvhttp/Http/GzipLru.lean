import Uvhttp.Http.GzipCache

namespace uvhttp.gzip

/-- What the cache goes by: the hash of a body and its length. -/
abbrev Key := UInt64 × Nat

def GzipEntry.key (e : GzipEntry) : Key := (e.hash, e.body_len)

/-- What happens to the map that the cache stands for, with the time of the call
where it reads the clock, and the time to live under which a stream expired. -/
inductive GzipEvent where
  | stored (key : Key) (data : List UInt8) (now : Int)
  | evicted (key : Key)
  | expired (key : Key) (now cache_ttl : Int)
  | cleared
  deriving DecidableEq

/-- A stream of the map and the time it was stored. -/
abbrev Held := List UInt8 × Int

def GzipEvent.apply (held : Key → Option Held) : GzipEvent → Key → Option Held
  | .stored key data now => fun k => if k = key then some (data, now) else held k
  | .evicted key => fun k => if k = key then none else held k
  | .expired key _ _ => fun k => if k = key then none else held k
  | .cleared => fun _ => none

/-- The map after the events: for every key the last stream stored, unless it has
been evicted, has expired or was cleared since. -/
def contents (log : List GzipEvent) : Key → Option Held := log.foldl GzipEvent.apply fun _ => none

/-- A stream is older than the time to live. -/
def Stale (cache_ttl now stored_at : Int) : Prop := 0 < cache_ttl ∧ cache_ttl < now - stored_at

instance (cache_ttl now stored_at : Int) : Decidable (Stale cache_ttl now stored_at) :=
  inferInstanceAs (Decidable (_ ∧ _))

/-- The memory that the valid slots account for. -/
def memory_in_use (entries : List GzipEntry) : Nat :=
  (entries.map fun e => if e.valid then e.compressed_len + GZIP_CACHE_ENTRY_OVERHEAD else 0).sum

/-- The memory that slots and streams occupy. -/
def memory_held (entries : List GzipEntry) : Nat :=
  (entries.map fun e => GZIP_CACHE_ENTRY_OVERHEAD + if e.valid then e.compressed_len else 0).sum

theorem memory_in_use_le (entries : List GzipEntry) : memory_in_use entries ≤ memory_held entries := by
  apply List.sum_le_sum
  intro e _
  cases e.valid with
  | false => exact Nat.zero_le _
  | true => exact Nat.le_of_eq (Nat.add_comm _ _)

theorem memory_in_use_invalid {entries : List GzipEntry} (h : ∀ e ∈ entries, e.valid = false) :
    memory_in_use entries = 0 := by
  apply List.sum_eq_zero
  intro n hn
  obtain ⟨e, he, rfl⟩ := List.mem_map.mp hn
  rw [h e he]
  rfl

@[simp] theorem memory_in_use_split (front back : List GzipEntry) (e : GzipEntry) :
    memory_in_use (front ++ e :: back) = memory_in_use front +
      (if e.valid then e.compressed_len + GZIP_CACHE_ENTRY_OVERHEAD else 0) + memory_in_use back := by
  simp only [memory_in_use, List.map_append, List.sum_append, List.map_cons, List.sum_cons]
  omega

/-- Two slots that are both valid have different keys and were used at different
times. -/
def Apart (e e' : GzipEntry) : Prop :=
  e.valid = true → e'.valid = true → e.key ≠ e'.key ∧ e.last_used ≠ e'.last_used

theorem Apart.symm {e e' : GzipEntry} (h : Apart e e') : Apart e' e :=
  fun hvalid' hvalid => ⟨(h hvalid hvalid').1.symm, (h hvalid hvalid').2.symm⟩

/-- The invariant that every change of a slot keeps. -/
structure GzipCache.Sound (cache : GzipCache) : Prop where
  apart : cache.entries.Pairwise Apart
  total : cache.total_memory = UInt64.ofNat (memory_in_use cache.entries)
  slots : ∀ e ∈ cache.entries, e.valid = true → e.compressed ≠ none ∧ e.last_used ≤ cache.tick
  max_pos : 0 < cache.max_entries
  max_le : cache.max_entries ≤ cache.entries.length

/-- One thing that an operation does to the slots, with its events, whose times are
those that it writes and compares with. -/
inductive Change : GzipCache → List GzipEvent → GzipCache → Prop where
  | evict {cache : GzipCache} {front back : List GzipEntry} {e : GzipEntry} :
      cache.entries = front ++ e :: back → e.valid = true →
      (∀ e' ∈ cache.entries, e'.valid = true → e.last_used ≤ e'.last_used) →
      (memory_held cache.entries ≤ SIZE_MAX → e.memory ≤ cache.total_memory) →
      Change cache [.evicted e.key] { cache with
        entries := front ++ e.cleared :: back
        total_memory := cache.total_memory - e.memory
        eviction_count := cache.eviction_count + 1 }
  | expire {cache : GzipCache} {front back : List GzipEntry} {e : GzipEntry} {now : Int} :
      cache.entries = front ++ e :: back → e.valid = true → Stale cache.cache_ttl now e.stored_at →
      (memory_held cache.entries ≤ SIZE_MAX → e.memory ≤ cache.total_memory) →
      Change cache [.expired e.key now cache.cache_ttl] { cache with
        entries := front ++ e.cleared :: back
        total_memory := cache.total_memory - e.memory
        eviction_count := cache.eviction_count + 1 }
  | use {cache : GzipCache} {front back : List GzipEntry} {e : GzipEntry} :
      cache.entries = front ++ e :: back → e.valid = true →
      Change cache [] { cache with
        entries := front ++ { e with last_used := cache.tick + 1 } :: back
        tick := cache.tick + 1
        hit_count := cache.hit_count + 1 }
  | replace {cache : GzipCache} {front back : List GzipEntry} {e : GzipEntry} {data : List UInt8} {now : Int} :
      cache.entries = front ++ e :: back → e.valid = true →
      (memory_held cache.entries ≤ SIZE_MAX → e.memory ≤ cache.total_memory) →
      Change cache [.stored e.key data now] { cache with
        entries := front ++ { e with compressed := some data, stored_at := now, last_used := cache.tick + 1 } :: back
        total_memory := cache.total_memory - e.memory + UInt64.ofNat (data.length + GZIP_CACHE_ENTRY_OVERHEAD)
        tick := cache.tick + 1 }
  | insert {cache : GzipCache} {front back : List GzipEntry} {e : GzipEntry} {key : Key} {data : List UInt8}
      {now : Int} : cache.entries = front ++ e :: back → e.valid = false →
      (∀ e' ∈ cache.entries, e'.valid = true → e'.key ≠ key) →
      Change cache [.stored key data now] { cache with
        entries := front ++ { hash := key.1, body_len := key.2, compressed := some data, valid := true,
                              stored_at := now, last_used := cache.tick + 1 } :: back
        total_memory := cache.total_memory + UInt64.ofNat (data.length + GZIP_CACHE_ENTRY_OVERHEAD)
        tick := cache.tick + 1 }
  | clear {cache : GzipCache} : Change cache [.cleared] (uvhttp_gzip_cache_clear cache)
  | resize {cache : GzipCache} {blanks : Nat} {max_entries : Int} : 0 < max_entries →
      max_entries ≤ cache.entries.length + blanks →
      Change cache [] { cache with entries := cache.entries ++ List.replicate blanks .blank, max_entries }
  | configure {cache : GzipCache} {max_memory_usage : Nat} {cache_ttl miss_count : Int} :
      Change cache [] { cache with max_memory_usage, cache_ttl, miss_count }

/-- Changes one after another, with all their events. -/
inductive Changes : GzipCache → List GzipEvent → GzipCache → Prop where
  | refl (cache : GzipCache) : Changes cache [] cache
  | step {cache cache' cache'' : GzipCache} {events later : List GzipEvent} : Change cache events cache' →
      Changes cache' later cache'' → Changes cache (events ++ later) cache''

theorem GzipCache.Sound.apart_slot {cache : GzipCache} (h : cache.Sound) {front back : List GzipEntry}
    {e : GzipEntry} (hslot : cache.entries = front ++ e :: back) : ∀ e' ∈ front ++ back, Apart e e' := by
  have hapart := h.apart
  rw [hslot, List.pairwise_middle Apart.symm, List.pairwise_cons] at hapart
  exact hapart.1

/-- Writing one slot keeps the invariant if the slot is apart from the others and
the memory is counted. -/
theorem GzipCache.Sound.write {cache : GzipCache} (h : cache.Sound) {front back : List GzipEntry}
    {e e' : GzipEntry} (hslot : cache.entries = front ++ e :: back) {tick : Nat} (htick : cache.tick ≤ tick)
    (hentry : e'.valid = true → e'.compressed ≠ none ∧ e'.last_used ≤ tick)
    (hapart : ∀ x ∈ front ++ back, Apart e' x) {total_memory : UInt64}
    (htotal : total_memory = UInt64.ofNat (memory_in_use (front ++ e' :: back))) (hit_count eviction_count : Int) :
    GzipCache.Sound { cache with
      entries := front ++ e' :: back, total_memory, tick, hit_count, eviction_count } := by
  obtain ⟨hold, -, hslots, hpos, hmax⟩ := h
  rw [hslot] at hold hslots hmax
  constructor
  · rw [List.pairwise_middle Apart.symm, List.pairwise_cons] at hold ⊢
    exact ⟨hapart, hold.2⟩
  · exact htotal
  · intro x hx hvalid
    simp only [List.mem_append, List.mem_cons] at hx hslots
    have hothers : x ∈ front ∨ x ∈ back → x.compressed ≠ none ∧ x.last_used ≤ tick := by
      intro hother
      obtain ⟨hstream, hused⟩ := hslots x (hother.elim .inl fun hback => .inr (.inr hback)) hvalid
      exact ⟨hstream, Nat.le_trans hused htick⟩
    rcases hx with hfront | rfl | hback
    · exact hothers (.inl hfront)
    · exact hentry hvalid
    · exact hothers (.inr hback)
  · exact hpos
  · simpa using hmax

/-- What a valid slot counts for is part of the total. -/
theorem GzipCache.Sound.memory_le {cache : GzipCache} (h : cache.Sound) {front back : List GzipEntry}
    {e : GzipEntry} (hslot : cache.entries = front ++ e :: back) (hvalid : e.valid = true)
    (hfits : memory_held cache.entries ≤ SIZE_MAX) : e.memory ≤ cache.total_memory := by
  have hle := Nat.le_trans (memory_in_use_le cache.entries) hfits
  have hsize : SIZE_MAX < UInt64.size := by decide
  rw [h.total, GzipEntry.memory, UInt64.le_iff_toNat_le]
  rw [hslot, memory_in_use_split, if_pos hvalid] at hle ⊢
  rw [UInt64.toNat_ofNat_of_lt' (by omega), UInt64.toNat_ofNat_of_lt' (by omega)]
  omega

/-- A slot that is freed. -/
theorem GzipCache.Sound.free {cache : GzipCache} (h : cache.Sound) {front back : List GzipEntry} {e : GzipEntry}
    (hslot : cache.entries = front ++ e :: back) (hvalid : e.valid = true) :
    GzipCache.Sound { cache with
      entries := front ++ e.cleared :: back
      total_memory := cache.total_memory - e.memory
      eviction_count := cache.eviction_count + 1 } := by
  have hcleared : e.cleared.valid = false := rfl
  apply h.write hslot (Nat.le_refl _)
  · intro habsurd
    rw [hcleared] at habsurd
    cases habsurd
  · intro x hx habsurd
    rw [hcleared] at habsurd
    cases habsurd
  · rw [h.total, hslot, memory_in_use_split, memory_in_use_split, if_pos hvalid, hcleared, GzipEntry.memory]
    simp only [Bool.false_eq_true, if_false, UInt64.ofNat_add]
    grind

/-- The times of use are all behind the clock, so a slot used now is apart from
the others. -/
theorem GzipCache.Sound.apart_now {cache : GzipCache} (h : cache.Sound) {front back : List GzipEntry}
    {e e' : GzipEntry} (hslot : cache.entries = front ++ e :: back) (hused : e'.last_used = cache.tick + 1)
    (hkey : ∀ x ∈ front ++ back, x.valid = true → e'.key ≠ x.key) : ∀ x ∈ front ++ back, Apart e' x := by
  intro x hx _ hvalid
  refine ⟨hkey x hx hvalid, ?_⟩
  have hmem : x ∈ cache.entries := by
    rw [hslot]
    simp only [List.mem_append, List.mem_cons] at hx ⊢
    tauto
  have hbehind := (h.slots x hmem hvalid).2
  omega

/-- Slots that are all empty are apart from each other. -/
theorem apart_invalid {entries : List GzipEntry} (hinvalid : ∀ e ∈ entries, e.valid = false) :
    entries.Pairwise Apart := by
  apply List.pairwise_of_forall_mem_list
  intro e he e' _ hvalid
  rw [hinvalid e he] at hvalid
  cases hvalid

/-- A cache without streams is sound. -/
theorem GzipCache.sound_of_invalid {cache : GzipCache} (hinvalid : ∀ e ∈ cache.entries, e.valid = false)
    (htotal : cache.total_memory = 0) (hpos : 0 < cache.max_entries)
    (hle : cache.max_entries ≤ cache.entries.length) : cache.Sound := by
  refine ⟨apart_invalid hinvalid, ?_, ?_, hpos, hle⟩
  · rw [htotal, memory_in_use_invalid hinvalid]
    rfl
  · intro e he hvalid
    rw [hinvalid e he] at hvalid
    cases hvalid

/-- What one change keeps. -/
theorem Change.sound {cache cache' : GzipCache} {events : List GzipEvent} (h : Change cache events cache')
    (hsound : cache.Sound) : cache'.Sound := by
  cases h with
  | evict hslot hvalid holdest hroom => exact hsound.free hslot hvalid
  | expire hslot hvalid hstale hroom => exact hsound.free hslot hvalid
  | @use front back e hslot hvalid =>
    have hothers := hsound.apart_slot hslot
    have hmem : e ∈ cache.entries := by
      rw [hslot]
      exact List.mem_append_right _ List.mem_cons_self
    apply hsound.write hslot (Nat.le_succ _)
    · intro _
      exact ⟨(hsound.slots e hmem hvalid).1, Nat.le_refl _⟩
    · apply hsound.apart_now hslot rfl
      intro x hx hxvalid
      exact (hothers x hx hvalid hxvalid).1
    · rw [hsound.total, hslot, memory_in_use_split, memory_in_use_split]
      rfl
  | @replace front back e data now hslot hvalid hroom =>
    have hothers := hsound.apart_slot hslot
    apply hsound.write hslot (Nat.le_succ _)
    · intro _
      exact ⟨Option.some_ne_none _, Nat.le_refl _⟩
    · apply hsound.apart_now hslot rfl
      intro x hx hxvalid
      exact (hothers x hx hvalid hxvalid).1
    · have hnew : GzipEntry.compressed_len
          { e with compressed := some data, stored_at := now, last_used := cache.tick + 1 } = data.length := rfl
      rw [hsound.total, hslot, memory_in_use_split, memory_in_use_split, if_pos hvalid, if_pos hvalid, hnew,
        GzipEntry.memory]
      simp only [UInt64.ofNat_add]
      grind
  | @insert front back e key data now hslot hinvalid hkey =>
    apply hsound.write hslot (Nat.le_succ _)
    · intro _
      exact ⟨Option.some_ne_none _, Nat.le_refl _⟩
    · apply hsound.apart_now hslot rfl
      intro x hx hxvalid
      apply Ne.symm
      apply hkey x _ hxvalid
      rw [hslot]
      simp only [List.mem_append, List.mem_cons] at hx ⊢
      tauto
    · rw [hsound.total, hslot, memory_in_use_split, memory_in_use_split, hinvalid]
      simp only [Bool.false_eq_true, if_false, if_true, GzipEntry.compressed_len, Option.getD_some, UInt64.ofNat_add]
      grind
  | clear =>
    have hinvalid : ∀ e ∈ cache.entries.map GzipEntry.cleared, e.valid = false := by
      intro e he
      obtain ⟨e', -, rfl⟩ := List.mem_map.mp he
      rfl
    refine @GzipCache.sound_of_invalid (uvhttp_gzip_cache_clear cache) hinvalid rfl hsound.max_pos ?_
    change cache.max_entries ≤ (cache.entries.map GzipEntry.cleared).length
    rw [List.length_map]
    exact hsound.max_le
  | @resize blanks max_entries hpos hle =>
    have hinvalid : ∀ e ∈ List.replicate blanks GzipEntry.blank, e.valid = false := by
      intro e he
      rw [List.eq_of_mem_replicate he]
      rfl
    refine ⟨?_, ?_, ?_, hpos, ?_⟩
    · refine List.pairwise_append.mpr ⟨hsound.apart, apart_invalid hinvalid, ?_⟩
      intro e _ e' he' _ hvalid'
      rw [hinvalid e' he'] at hvalid'
      cases hvalid'
    · have hnone := memory_in_use_invalid hinvalid
      have hsplit : memory_in_use (cache.entries ++ List.replicate blanks .blank) =
          memory_in_use cache.entries + memory_in_use (List.replicate blanks .blank) := by
        simp only [memory_in_use, List.map_append, List.sum_append]
      change cache.total_memory = _
      rw [hsplit, hnone, Nat.add_zero]
      exact hsound.total
    · intro e he hvalid
      rcases List.mem_append.mp he with hold | hnew
      · exact hsound.slots e hold hvalid
      · rw [hinvalid e hnew] at hvalid
        cases hvalid
    · change max_entries ≤ (cache.entries ++ List.replicate blanks GzipEntry.blank).length
      rw [List.length_append, List.length_replicate]
      omega
  | configure => exact ⟨hsound.apart, hsound.total, hsound.slots, hsound.max_pos, hsound.max_le⟩

theorem Changes.sound {cache cache' : GzipCache} {events : List GzipEvent} (h : Changes cache events cache')
    (hsound : cache.Sound) : cache'.Sound := by
  induction h with
  | refl cache => exact hsound
  | step hchange _ ih => exact ih (hchange.sound hsound)

theorem Changes.trans {cache cache' cache'' : GzipCache} {events later : List GzipEvent}
    (h : Changes cache events cache') (hlater : Changes cache' later cache'') :
    Changes cache (events ++ later) cache'' := by
  induction h with
  | refl cache => exact hlater
  | step hchange _ ih =>
    rw [List.append_assoc]
    exact .step hchange (ih hlater)

theorem Change.changes {cache cache' : GzipCache} {events : List GzipEvent} (h : Change cache events cache') :
    Changes cache events cache' := by
  rw [← List.append_nil events]
  exact .step h (.refl cache')

/-- The slot holds this stream for the key, from this time. -/
def Carries (e : GzipEntry) (key : Key) (held : Held) : Prop :=
  e.valid = true ∧ e.key = key ∧ e.compressed = some held.1 ∧ e.stored_at = held.2

/-- The valid slots hold what the log says. -/
def GzipCache.Matches (cache : GzipCache) (log : List GzipEvent) : Prop :=
  ∀ key held, contents log key = some held ↔ ∃ e ∈ cache.entries, Carries e key held

theorem contents_append (log : List GzipEvent) (event : GzipEvent) :
    contents (log ++ [event]) = event.apply (contents log) := by
  rw [contents, List.foldl_append]
  rfl

theorem carried_split {front back : List GzipEntry} {e : GzipEntry} {key : Key} {held : Held} :
    (∃ x ∈ front ++ e :: back, Carries x key held) ↔
      Carries e key held ∨ ∃ x ∈ front ++ back, Carries x key held := by
  simp only [List.mem_append, List.mem_cons, or_and_right, exists_or, exists_eq_left]
  exact or_left_comm

/-- Freeing a slot removes its key from the map. -/
theorem GzipCache.Matches.free {cache : GzipCache} (hsound : cache.Sound) {log : List GzipEvent}
    (h : cache.Matches log) {front back : List GzipEntry} {e : GzipEntry}
    (hslot : cache.entries = front ++ e :: back) (hvalid : e.valid = true) (key : Key) (held : Held) :
    (if key = e.key then none else contents log key) = some held ↔
      ∃ x ∈ front ++ e.cleared :: back, Carries x key held := by
  have hold := h key held
  rw [hslot, carried_split] at hold
  rw [carried_split]
  have hcleared : ¬ Carries e.cleared key held := by
    rintro ⟨habsurd, -⟩
    cases habsurd
  by_cases hkey : key = e.key
  · rw [if_pos hkey]
    constructor
    · rintro ⟨⟩
    · rintro (hfreed | ⟨x, hx, hxvalid, hxkey, -⟩)
      · exact absurd hfreed hcleared
      · exact absurd (hxkey.trans hkey).symm (hsound.apart_slot hslot x hx hvalid hxvalid).1
  · rw [if_neg hkey, hold]
    constructor
    · rintro (⟨-, hmine, -⟩ | hother)
      · exact absurd hmine.symm hkey
      · exact .inr hother
    · rintro (hfreed | hother)
      · exact absurd hfreed hcleared
      · exact .inr hother

/-- Storing a stream in a slot sets its key, if no other slot has it. -/
theorem GzipCache.Matches.store {cache : GzipCache} {log : List GzipEvent} (h : cache.Matches log)
    {front back : List GzipEntry} {e e' : GzipEntry} (hslot : cache.entries = front ++ e :: back) {key : Key}
    {held : Held} (hnew : Carries e' key held) (hold : ∀ k d, Carries e k d → k = key)
    (hothers : ∀ x ∈ front ++ back, x.valid = true → x.key ≠ key) (k : Key) (d : Held) :
    (if k = key then some held else contents log k) = some d ↔ ∃ x ∈ front ++ e' :: back, Carries x k d := by
  have hbefore := h k d
  rw [hslot, carried_split] at hbefore
  rw [carried_split]
  obtain ⟨hvalid, hkey, hdata, htime⟩ := hnew
  by_cases hk : k = key
  · rw [if_pos hk]
    constructor
    · intro heq
      cases heq
      exact .inl ⟨hvalid, hkey.trans hk.symm, hdata, htime⟩
    · rintro (⟨-, -, hd, ht⟩ | ⟨x, hx, hxvalid, hxkey, -⟩)
      · exact congrArg some (Prod.ext (Option.some.inj (hdata.symm.trans hd)) (htime.symm.trans ht))
      · exact absurd (hxkey.trans hk) (hothers x hx hxvalid)
  · rw [if_neg hk, hbefore]
    constructor
    · rintro (hmine | hother)
      · exact absurd (hold k d hmine) hk
      · exact .inr hother
    · rintro (⟨-, hk', -⟩ | hother)
      · exact absurd (hk'.symm.trans hkey) hk
      · exact .inr hother

/-- A change does to the slots what its events say. -/
theorem Change.matches {cache cache' : GzipCache} {events : List GzipEvent} (h : Change cache events cache')
    (hsound : cache.Sound) {log : List GzipEvent} (hmatches : cache.Matches log) : cache'.Matches (log ++ events) := by
  cases h with
  | evict hslot hvalid holdest hroom =>
    intro key held
    rw [contents_append]
    exact hmatches.free hsound hslot hvalid key held
  | expire hslot hvalid hstale hroom =>
    intro key held
    rw [contents_append]
    exact hmatches.free hsound hslot hvalid key held
  | use hslot hvalid =>
    intro key held
    rw [List.append_nil, hmatches key held, hslot, carried_split, carried_split]
    rfl
  | @replace front back e data now hslot hvalid hroom =>
    intro k d
    rw [contents_append]
    have hnew : Carries { e with compressed := some data, stored_at := now, last_used := cache.tick + 1 } e.key
        (data, now) := ⟨hvalid, rfl, rfl, rfl⟩
    refine hmatches.store hslot hnew ?_ ?_ k d
    · rintro k' d' ⟨-, hkey, -⟩
      exact hkey.symm
    · intro x hx hxvalid
      exact (hsound.apart_slot hslot x hx hvalid hxvalid).1.symm
  | @insert front back e key data now hslot hinvalid hkey =>
    intro k d
    rw [contents_append]
    have hnew : Carries { hash := key.1, body_len := key.2, compressed := some data, valid := true, stored_at := now,
                          last_used := cache.tick + 1 } key (data, now) := ⟨rfl, rfl, rfl, rfl⟩
    refine hmatches.store hslot hnew ?_ ?_ k d
    · rintro k' d' ⟨hvalid, -⟩
      rw [hinvalid] at hvalid
      cases hvalid
    · intro x hx hxvalid
      apply hkey x _ hxvalid
      rw [hslot]
      simp only [List.mem_append, List.mem_cons] at hx ⊢
      tauto
  | clear =>
    intro key held
    rw [contents_append]
    constructor
    · rintro ⟨⟩
    · rintro ⟨x, hx, hvalid, -⟩
      obtain ⟨e, -, rfl⟩ := List.mem_map.mp hx
      cases hvalid
  | @resize blanks max_entries hpos hle =>
    intro key held
    rw [List.append_nil, hmatches key held]
    constructor
    · rintro ⟨x, hx, hcarries⟩
      exact ⟨x, List.mem_append_left _ hx, hcarries⟩
    · rintro ⟨x, hx, hcarries⟩
      rcases List.mem_append.mp hx with hold | hblank
      · exact ⟨x, hold, hcarries⟩
      · rw [List.eq_of_mem_replicate hblank] at hcarries
        cases hcarries.1
  | configure =>
    rw [List.append_nil]
    exact hmatches

theorem Changes.matches {cache cache' : GzipCache} {events : List GzipEvent} (h : Changes cache events cache')
    (hsound : cache.Sound) {log : List GzipEvent} (hmatches : cache.Matches log) : cache'.Matches (log ++ events) := by
  induction h generalizing log with
  | refl cache =>
    rw [List.append_nil]
    exact hmatches
  | step hchange _ ih =>
    rw [← List.append_assoc]
    exact ih (hchange.sound hsound) (hchange.matches hsound hmatches)

/-- Every expiration removed a stream that was too old at that time. -/
def Justified (log : List GzipEvent) : Prop :=
  ∀ before after key now cache_ttl, log = before ++ .expired key now cache_ttl :: after →
    ∃ held, contents before key = some held ∧ Stale cache_ttl now held.2

theorem Justified.append {log : List GzipEvent} (h : Justified log) {event : GzipEvent}
    (hevent : ∀ key now cache_ttl, event = .expired key now cache_ttl →
      ∃ held, contents log key = some held ∧ Stale cache_ttl now held.2) : Justified (log ++ [event]) := by
  intro before after key now cache_ttl hsplit
  rcases List.eq_nil_or_concat' after with rfl | ⟨after, last, rfl⟩
  · obtain ⟨rfl, hlast⟩ := List.append_inj' hsplit rfl
    exact hevent key now cache_ttl (List.cons.inj hlast).1
  · rw [← List.cons_append, ← List.append_assoc] at hsplit
    exact h before after key now cache_ttl (List.append_inj' hsplit rfl).1

theorem Justified.front {log later : List GzipEvent} (h : Justified (log ++ later)) : Justified log := by
  intro before after key now cache_ttl hsplit
  apply h before (after ++ later) key now cache_ttl
  rw [hsplit, List.append_assoc]
  rfl

/-- A log in which nothing expires. -/
theorem justified_of_none_expired {log : List GzipEvent} (h : ∀ key now cache_ttl, .expired key now cache_ttl ∉ log) :
    Justified log := by
  intro before after key now cache_ttl hsplit
  have hmem : .expired key now cache_ttl ∈ log := by
    rw [hsplit]
    exact List.mem_append_right _ List.mem_cons_self
  exact absurd hmem (h key now cache_ttl)

/-- A valid slot is in the map. -/
theorem GzipCache.Matches.held {cache : GzipCache} (hsound : cache.Sound) {log : List GzipEvent}
    (h : cache.Matches log) {e : GzipEntry} (he : e ∈ cache.entries) (hvalid : e.valid = true) :
    ∃ data, e.compressed = some data ∧ contents log e.key = some (data, e.stored_at) := by
  obtain ⟨data, hdata⟩ := Option.ne_none_iff_exists'.mp (hsound.slots e he hvalid).1
  exact ⟨data, hdata, (h e.key (data, e.stored_at)).mpr ⟨e, he, hvalid, rfl, hdata, rfl⟩⟩

/-- A change that expires a stream has a reason in the map. -/
theorem Change.justified {cache cache' : GzipCache} {events : List GzipEvent} (h : Change cache events cache')
    (hsound : cache.Sound) {log : List GzipEvent} (hmatches : cache.Matches log) (hjustified : Justified log) :
    Justified (log ++ events) := by
  cases h with
  | expire hslot hvalid hstale hroom =>
    apply hjustified.append
    intro key now' cache_ttl heq
    cases heq
    obtain ⟨data, -, hheld⟩ := hmatches.held hsound (by rw [hslot]; simp) hvalid
    exact ⟨_, hheld, hstale⟩
  | evict hslot hvalid holdest hroom => exact hjustified.append fun key now cache_ttl heq => by cases heq
  | replace hslot hvalid hroom => exact hjustified.append fun key now cache_ttl heq => by cases heq
  | insert hslot hinvalid hkey => exact hjustified.append fun key now cache_ttl heq => by cases heq
  | clear => exact hjustified.append fun key now cache_ttl heq => by cases heq
  | use hslot hvalid =>
    rw [List.append_nil]
    exact hjustified
  | resize hpos hle =>
    rw [List.append_nil]
    exact hjustified
  | configure =>
    rw [List.append_nil]
    exact hjustified

theorem Changes.justified {cache cache' : GzipCache} {events : List GzipEvent} (h : Changes cache events cache')
    (hsound : cache.Sound) {log : List GzipEvent} (hmatches : cache.Matches log) (hjustified : Justified log) :
    Justified (log ++ events) := by
  induction h generalizing log with
  | refl cache =>
    rw [List.append_nil]
    exact hjustified
  | step hchange _ ih =>
    rw [← List.append_assoc]
    exact ih (hchange.sound hsound) (hchange.matches hsound hmatches) (hchange.justified hsound hmatches hjustified)

def GzipEvent.is_expired : GzipEvent → Bool
  | .expired _ _ _ => true
  | _ => false

/-- The map that would be without expirations: for every key the last stream stored,
unless it has been evicted or was cleared since. -/
def lasting (log : List GzipEvent) : Key → Option Held := contents (log.filter fun event => !event.is_expired)

/-- Without expirations the map would hold nothing but streams that were too old at some
time. -/
theorem contents_or_stale {log : List GzipEvent} (h : Justified log) (key : Key) :
    contents log key = lasting log key ∨ contents log key = none ∧
      ∃ held now cache_ttl, lasting log key = some held ∧ .expired key now cache_ttl ∈ log ∧
        Stale cache_ttl now held.2 := by
  induction log using List.reverseRecOn with
  | nil => exact .inl rfl
  | append_singleton log event ih =>
    have hbefore := ih h.front
    have hlater : (∃ held now cache_ttl, lasting log key = some held ∧ .expired key now cache_ttl ∈ log ∧
        Stale cache_ttl now held.2) → ∃ held now cache_ttl, lasting log key = some held ∧
        .expired key now cache_ttl ∈ log ++ [event] ∧ Stale cache_ttl now held.2 := by
      rintro ⟨held, now, cache_ttl, hheld, hmem, hstale⟩
      exact ⟨held, now, cache_ttl, hheld, List.mem_append_left _ hmem, hstale⟩
    have happly : event.is_expired = false → lasting (log ++ [event]) = event.apply (lasting log) := by
      intro hkept
      rw [lasting, List.filter_append, List.filter_cons_of_pos (by rw [hkept]; rfl), List.filter_nil, contents_append]
      rfl
    rw [contents_append]
    cases event with
    | stored key' data now =>
      rw [happly rfl]
      dsimp only [GzipEvent.apply]
      by_cases hkey : key = key'
      · rw [if_pos hkey, if_pos hkey]
        exact .inl rfl
      · rw [if_neg hkey, if_neg hkey]
        exact hbefore.imp_right (And.imp_right hlater)
    | evicted key' =>
      rw [happly rfl]
      dsimp only [GzipEvent.apply]
      by_cases hkey : key = key'
      · rw [if_pos hkey, if_pos hkey]
        exact .inl rfl
      · rw [if_neg hkey, if_neg hkey]
        exact hbefore.imp_right (And.imp_right hlater)
    | cleared =>
      rw [happly rfl]
      exact .inl rfl
    | expired key' now cache_ttl =>
      have hsame : lasting (log ++ [.expired key' now cache_ttl]) = lasting log := by
        rw [lasting, List.filter_append, List.filter_cons_of_neg (by simp [GzipEvent.is_expired]), List.filter_nil,
          List.append_nil]
        rfl
      rw [hsame]
      dsimp only [GzipEvent.apply]
      by_cases hkey : key = key'
      · subst hkey
        rw [if_pos rfl]
        obtain ⟨held, hheld, hstale⟩ := h log [] key now cache_ttl rfl
        rcases hbefore with hequal | ⟨hnone, -⟩
        · rw [hheld] at hequal
          exact .inr ⟨rfl, held, now, cache_ttl, hequal.symm, List.mem_append_right _ List.mem_cons_self, hstale⟩
        · rw [hheld] at hnone
          cases hnone
      · rw [if_neg hkey]
        exact hbefore.imp_right (And.imp_right hlater)

end uvhttp.gzip
