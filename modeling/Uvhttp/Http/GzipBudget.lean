import Uvhttp.Lib.Machine
import Uvhttp.Http.GzipRoom

namespace uvhttp.gzip

open machine

/-- The cache within its memory budget. -/
def GzipCache.Within (cache : GzipCache) : Prop := cache.total_memory.toNat ≤ cache.max_memory_usage

/-- A call together with the allocator at that time. -/
def gzip_call_step (cache : GzipCache) (call : (Nat → Bool) × GzipCall) : GzipCache × GzipAnswer :=
  ((gzip_step call.1 cache call.2).2, (gzip_step call.1 cache call.2).1)

/-- A stream that replaces another one fits in its place. A new stream fits with the
overhead of its slot, alone and besides the slots used since any of them was, if those
are below the limit on slots and the stream without that overhead fits besides them or
more. A stream that is not stored is no burden. -/
def Affordable (cache : GzipCache) : (Nat → Bool) × GzipCall → Prop
  | (alloc, .put _ hash body_len compressed) =>
    0 < compressed.length → compressed.length ≤ cache.max_memory_usage → alloc compressed.length = true →
      match cache.entries.find? fun e => e.has_key hash body_len with
      | some e => memory_in_use cache.entries - e.compressed_len + compressed.length ≤ cache.max_memory_usage
      | none => compressed.length + GZIP_CACHE_ENTRY_OVERHEAD ≤ cache.max_memory_usage ∧
          ∀ e ∈ cache.entries, e.valid = true → (count_since cache.entries e.last_used : Int) < cache.max_entries →
            (∃ e' ∈ cache.entries, e'.valid = true ∧ e'.last_used ≤ e.last_used ∧
              FitsSince cache compressed.length e'.last_used) →
            memory_since cache.entries e.last_used + (compressed.length + GZIP_CACHE_ENTRY_OVERHEAD) ≤
              cache.max_memory_usage
  | _ => True

/-- The limits that a call can set: those of `size_t`. -/
def Representable : (Nat → Bool) × GzipCall → Prop
  | (_, .set_max_memory_usage max_memory_usage) => max_memory_usage ≤ SIZE_MAX
  | _ => True

/-- What is known of the cache while it is within the budget. -/
structure Budgeted (cache : GzipCache) : Prop where
  sound : cache.Sound
  count : valid_count cache.entries ≤ cache.max_entries
  used : memory_in_use cache.entries ≤ cache.max_memory_usage
  limit : cache.max_memory_usage ≤ SIZE_MAX

section memory

variable {cache cache' : GzipCache} {events : List GzipEvent}

theorem memory_in_use_append (front back : List GzipEntry) :
    memory_in_use (front ++ back) = memory_in_use front + memory_in_use back := by
  rw [memory_in_use, memory_in_use, memory_in_use, List.map_append, List.sum_append]

/-- Only storing makes the memory in use grow. -/
theorem Change.memory_le (h : Change cache events cache') (hnone : ∀ event ∈ events, event.is_stored = false) :
    memory_in_use cache'.entries ≤ memory_in_use cache.entries := by
  have hfree : ∀ {front back : List GzipEntry} {e : GzipEntry}, cache.entries = front ++ e :: back →
      memory_in_use (front ++ e.cleared :: back) ≤ memory_in_use cache.entries := by
    intro front back e hslot
    have hcleared : e.cleared.valid = false := rfl
    rw [hslot, memory_in_use_split, memory_in_use_split, hcleared]
    simp only [Bool.false_eq_true, if_false]
    omega
  have hinvalid : ∀ {entries : List GzipEntry}, (∀ e ∈ entries, e.valid = false) → memory_in_use entries = 0 :=
    memory_in_use_invalid
  cases h with
  | evict hslot hvalid holdest hroom => exact hfree hslot
  | expire hslot hvalid hstale hroom => exact hfree hslot
  | use hslot hvalid =>
    rw [hslot, memory_in_use_split, memory_in_use_split]
    exact Nat.le_refl _
  | replace hslot hvalid hroom => cases hnone _ List.mem_cons_self
  | insert hslot hnew hkey => cases hnone _ List.mem_cons_self
  | clear =>
    have hzero : memory_in_use (uvhttp_gzip_cache_clear cache).entries = 0 := by
      apply hinvalid
      intro e he
      obtain ⟨e', -, rfl⟩ := List.mem_map.mp he
      rfl
    omega
  | @resize blanks max_entries hpos hle =>
    have hzero : memory_in_use (List.replicate blanks GzipEntry.blank) = 0 := by
      apply hinvalid
      intro e he
      rw [List.eq_of_mem_replicate he]
      rfl
    rw [memory_in_use_append, hzero]
    exact Nat.le_refl _
  | configure => exact Nat.le_refl _

theorem Changes.memory_le (h : Changes cache events cache') (hnone : ∀ event ∈ events, event.is_stored = false) :
    memory_in_use cache'.entries ≤ memory_in_use cache.entries := by
  induction h with
  | refl cache => exact Nat.le_refl _
  | step hchange _ ih =>
    have hfirst := hchange.memory_le fun event hevent => hnone event (List.mem_append_left _ hevent)
    have hrest := ih fun event hevent => hnone event (List.mem_append_right _ hevent)
    exact Nat.le_trans hrest hfirst

theorem Evicted.memory_le (h : Evicted cache events cache') :
    memory_in_use cache'.entries ≤ memory_in_use cache.entries := by
  apply h.changes.memory_le
  intro event hevent
  obtain ⟨key, rfl⟩ := h.evictions event hevent
  rfl

/-- The counter shows the memory in use while that fits it. -/
theorem GzipCache.Sound.total_eq (h : cache.Sound) (hfits : memory_in_use cache.entries ≤ SIZE_MAX) :
    cache.total_memory.toNat = memory_in_use cache.entries := by
  have hsize : SIZE_MAX < UInt64.size := by decide
  rw [h.total, UInt64.toNat_ofNat_of_lt' (by omega)]

theorem Budgeted.within (h : Budgeted cache) : cache.Within := by
  rw [GzipCache.Within, h.sound.total_eq (Nat.le_trans h.used h.limit)]
  exact h.used

end memory

section calls

variable {cache : GzipCache} (alloc : Nat → Bool)

/-- The slot that has the key, if there is one. -/
theorem find_slot {hash : UInt64} {body_len slot : Nat}
    (h : (cache.entries.findIdx? fun e => e.has_key hash body_len) = some slot) :
    ∃ e, cache.entries[slot]? = some e ∧ e.valid = true ∧
      (cache.entries.find? fun e => e.has_key hash body_len) = some e := by
  obtain ⟨hslot, hhas, hfirst⟩ := List.findIdx?_eq_some_iff_getElem.mp h
  refine ⟨cache.entries[slot], List.getElem?_eq_getElem hslot, (GzipEntry.has_key_iff.mp hhas).1, ?_⟩
  apply List.find?_eq_some_iff_getElem.mpr
  refine ⟨hhas, slot, hslot, rfl, fun j hj => ?_⟩
  rw [Bool.not_eq_true']
  exact (Bool.not_eq_true _).mp (hfirst j hj)

/-- A stream takes the place of another one. -/
theorem memory_replaced {entries : List GzipEntry} {slot : Nat} {e : GzipEntry} (hget : entries[slot]? = some e)
    (hvalid : e.valid = true) (data : List UInt8) (now : Int) (tick : Nat) :
    memory_in_use (entries.modify slot fun e =>
        { e with compressed := some data, stored_at := now, last_used := tick }) =
      memory_in_use entries - e.compressed_len + data.length := by
  obtain ⟨hsplit, -, hmodify⟩ := split_at hget
  have hlength : GzipEntry.compressed_len
      { e with compressed := some data, stored_at := now, last_used := tick } = data.length := rfl
  have hbefore := congrArg memory_in_use hsplit
  rw [memory_in_use_split, if_pos hvalid] at hbefore
  rw [hmodify, memory_in_use_split, hlength, if_pos hvalid]
  omega

/-- A stream comes to an empty slot. -/
theorem memory_stored {entries : List GzipEntry} {slot : Nat} {e : GzipEntry} (hget : entries[slot]? = some e)
    (hinvalid : e.valid = false) (hash : UInt64) (body_len : Nat) (data : List UInt8) (now : Int) (tick : Nat) :
    memory_in_use (entries.set slot
        { hash, body_len, compressed := some data, valid := true, stored_at := now, last_used := tick }) =
      memory_in_use entries + (data.length + GZIP_CACHE_ENTRY_OVERHEAD) := by
  obtain ⟨hsplit, hset, -⟩ := split_at hget
  have hbefore := congrArg memory_in_use hsplit
  rw [memory_in_use_split, hinvalid] at hbefore
  rw [hset, memory_in_use_split, if_pos rfl, hbefore]
  simp only [GzipEntry.compressed_len, Option.getD_some, Bool.false_eq_true, if_false]
  omega

/-- What `uvhttp_gzip_cache_put` does to the memory in use: it stays within the
limit exactly when the stream was affordable. -/
theorem put_budget (h : Budgeted cache) (now : Int) (hash : UInt64) (body_len : Nat) (compressed : List UInt8) :
    (uvhttp_gzip_cache_put alloc cache now hash body_len compressed).2.max_memory_usage = cache.max_memory_usage ∧
      (memory_in_use (uvhttp_gzip_cache_put alloc cache now hash body_len compressed).2.entries ≤
          cache.max_memory_usage ↔
        Affordable cache (alloc, .put now hash body_len compressed)) := by
  unfold uvhttp_gzip_cache_put Affordable
  by_cases hempty : compressed.length = 0
  · rw [if_pos hempty]
    refine ⟨rfl, iff_of_true h.used fun hpos => ?_⟩
    omega
  · rw [if_neg hempty]
    by_cases hlarge : compressed.length > cache.max_memory_usage
    · rw [if_pos hlarge]
      refine ⟨rfl, iff_of_true h.used fun _ hle => ?_⟩
      omega
    · rw [if_neg hlarge]
      have hpos : 0 < compressed.length := by omega
      have hle : compressed.length ≤ cache.max_memory_usage := by omega
      dsimp only
      cases hfind : cache.entries.findIdx? fun e => e.has_key hash body_len with
      | some slot =>
        obtain ⟨e, hget, hvalid, hfound⟩ := find_slot hfind
        rw [hfound]
        dsimp only
        cases halloc : alloc compressed.length with
        | false => exact ⟨rfl, iff_of_true h.used fun _ _ habsurd => by cases habsurd⟩
        | true =>
          rw [if_neg (by decide)]
          refine ⟨rfl, ?_⟩
          dsimp only
          rw [memory_replaced hget hvalid]
          exact ⟨fun hfits _ _ _ => hfits, fun hfits => hfits hpos hle rfl⟩
      | none =>
        have hnotfound : (cache.entries.find? fun e => e.has_key hash body_len) = none := by
          rw [List.find?_eq_none]
          intro e he hhas
          have hnot := List.findIdx?_eq_none_iff.mp hfind e he
          rw [hhas] at hnot
          cases hnot
        rw [hnotfound]
        dsimp only
        rw [← room_for_affordable h.sound]
        obtain ⟨removed, hroom, hcount⟩ := make_room_spec h.sound fun cache =>
          (cache.total_memory + UInt64.ofNat compressed.length).toNat > cache.max_memory_usage &&
            gzip_cache_entry_count cache > 0
        have hlimit := room_for_limit cache compressed.length
        unfold room_for at hlimit ⊢
        generalize evict_while (fun cache => gzip_cache_entry_count cache ≥ cache.max_entries) cache.entries.length
          _ = room at hroom hcount hlimit ⊢
        have hroomused := Nat.le_trans hroom.memory_le h.used
        cases hfree : room.entries.findIdx? fun e => !e.valid with
        | none => exact absurd hfree (hroom.free_slot h.sound hcount)
        | some slot =>
          dsimp only
          cases halloc : alloc compressed.length with
          | false => exact ⟨hlimit, iff_of_true hroomused fun _ _ habsurd => by cases habsurd⟩
          | true =>
            obtain ⟨hslot, hinvalid, -⟩ := List.findIdx?_eq_some_iff_getElem.mp hfree
            rw [Bool.not_eq_eq_eq_not, Bool.not_true] at hinvalid
            rw [if_neg (by decide)]
            refine ⟨hlimit, ?_⟩
            dsimp only
            rw [memory_stored (List.getElem?_eq_getElem hslot) hinvalid]
            exact ⟨fun hfits _ _ _ => hfits, fun hfits => hfits hpos hle rfl⟩

theorem set_max_entries_limit (max_entries : Int) :
    (uvhttp_gzip_cache_set_max_entries alloc cache max_entries).max_memory_usage = cache.max_memory_usage := by
  unfold uvhttp_gzip_cache_set_max_entries
  split
  · rfl
  · dsimp only
    split
    · rfl
    · rename_i hgrown
      rw [evict_while_limit]
      split at hgrown
      · split at hgrown
        · cases hgrown
        · cases hgrown
          rfl
      · cases hgrown
        rfl

/-- A new limit is met by evictions, if need be of everything. -/
theorem set_max_memory_usage_budget (h : Budgeted cache) {max_memory_usage : Nat}
    (hlimit : max_memory_usage ≤ SIZE_MAX) :
    memory_in_use (uvhttp_gzip_cache_set_max_memory_usage cache max_memory_usage).entries ≤
        (uvhttp_gzip_cache_set_max_memory_usage cache max_memory_usage).max_memory_usage ∧
      (uvhttp_gzip_cache_set_max_memory_usage cache max_memory_usage).max_memory_usage ≤ SIZE_MAX := by
  unfold uvhttp_gzip_cache_set_max_memory_usage
  by_cases hzero : max_memory_usage = 0
  · rw [if_pos hzero]
    exact ⟨h.used, h.limit⟩
  · rw [if_neg hzero, evict_while_limit]
    refine ⟨?_, hlimit⟩
    have hconfigured := (@Change.configure cache max_memory_usage cache.cache_ttl cache.miss_count).sound h.sound
    obtain ⟨events, hevicted, hdone⟩ := evict_while_spec
      (fun cache => cache.total_memory.toNat > cache.max_memory_usage && gzip_cache_entry_count cache > 0)
      cache.entries.length hconfigured
    have hkept := evict_while_limit
      (fun cache => cache.total_memory.toNat > cache.max_memory_usage && gzip_cache_entry_count cache > 0)
      cache.entries.length { cache with max_memory_usage }
    dsimp only at hkept
    generalize evict_while (fun cache => cache.total_memory.toNat > cache.max_memory_usage &&
      gzip_cache_entry_count cache > 0) cache.entries.length { cache with max_memory_usage } = after
      at hevicted hdone hkept ⊢
    have hless : memory_in_use after.entries ≤ memory_in_use cache.entries := hevicted.memory_le
    have htotal := (hevicted.changes.sound hconfigured).total_eq (by have := h.used; have := h.limit; omega)
    have hcount : gzip_cache_entry_count after = valid_count after.entries := rfl
    dsimp only
    by_cases hempty : valid_count after.entries = 0
    · rw [memory_in_use_invalid fun e he => (Bool.not_eq_true _).mp (List.countP_eq_zero.mp hempty e he)]
      exact Nat.zero_le _
    · have hmet : ¬ (decide (after.total_memory.toNat > after.max_memory_usage) &&
          decide (gzip_cache_entry_count after > 0)) = true :=
        fun hcondition => hempty (hdone List.countP_le_length hcondition)
      simp only [Bool.and_eq_true, decide_eq_true_eq, not_and] at hmet
      by_contra hover
      exact hmet (by omega) (by omega)

/-- What one call keeps, and that the memory in use stays within the limit exactly
when the call is affordable. -/
theorem step_memory (h : Budgeted cache) {call : (Nat → Bool) × GzipCall} (hrepresentable : Representable call) :
    (gzip_call_step cache call).1.Sound ∧
      (valid_count (gzip_call_step cache call).1.entries : Int) ≤ (gzip_call_step cache call).1.max_entries ∧
      (gzip_call_step cache call).1.max_memory_usage ≤ SIZE_MAX ∧
      (memory_in_use (gzip_call_step cache call).1.entries ≤ (gzip_call_step cache call).1.max_memory_usage ↔
        Affordable cache call) := by
  obtain ⟨alloc, call⟩ := call
  obtain ⟨events, hchanges, hexplained, hcount⟩ :=
    gzip_step_refines alloc h.sound h.count h.sound.matches_stored (justified_stored cache.entries) call
  refine ⟨hchanges.sound h.sound, hcount, ?_⟩
  have hshrinks : (gzip_step alloc cache call).2.max_memory_usage = cache.max_memory_usage →
      (∀ event ∈ events, event.is_stored = false) →
      (gzip_step alloc cache call).2.max_memory_usage ≤ SIZE_MAX ∧
        memory_in_use (gzip_step alloc cache call).2.entries ≤ (gzip_step alloc cache call).2.max_memory_usage := by
    intro hlimit hnone
    rw [hlimit]
    exact ⟨h.limit, Nat.le_trans (hchanges.memory_le hnone) h.used⟩
  cases call with
  | find now hash body_len =>
    obtain ⟨hlimit, hused⟩ := hshrinks (find_parts cache now hash body_len).2.2.2 fun event hevent => by
      obtain ⟨key, held, rfl, -⟩ := hexplained.2.2.1 event hevent
      rfl
    exact ⟨hlimit, iff_of_true hused trivial⟩
  | put now hash body_len compressed =>
    obtain ⟨hlimit, hused⟩ := put_budget alloc h now hash body_len compressed
    rw [← hused]
    exact ⟨hlimit.trans_le h.limit, fun hfits => hfits.trans_eq hlimit, fun hfits => hfits.trans_eq hlimit.symm⟩
  | clear =>
    obtain ⟨hlimit, hused⟩ := hshrinks rfl fun event hevent => by
      rw [show events = [.cleared] from hexplained, List.mem_singleton] at hevent
      rw [hevent]
      rfl
    exact ⟨hlimit, iff_of_true hused trivial⟩
  | set_max_entries max_entries =>
    obtain ⟨hlimit, hused⟩ := hshrinks (set_max_entries_limit alloc max_entries) fun event hevent => by
      obtain ⟨key, rfl⟩ := hexplained event hevent
      rfl
    exact ⟨hlimit, iff_of_true hused trivial⟩
  | set_max_memory_usage max_memory_usage =>
    obtain ⟨hused, hlimit⟩ := set_max_memory_usage_budget h hrepresentable
    exact ⟨hlimit, iff_of_true hused trivial⟩
  | set_cache_ttl cache_ttl =>
    obtain ⟨hlimit, hused⟩ := hshrinks rfl fun event hevent => by
      rw [show events = [] from hexplained] at hevent
      cases hevent
    exact ⟨hlimit, iff_of_true hused trivial⟩

/-- An affordable call keeps the budget. -/
theorem Budgeted.step (h : Budgeted cache) {call : (Nat → Bool) × GzipCall}
    (hallowed : Representable call ∧ Affordable cache call) : Budgeted (gzip_call_step cache call).1 := by
  obtain ⟨hsound, hcount, hlimit, hused⟩ := step_memory h hallowed.1
  exact ⟨hsound, hcount, hused.mpr hallowed.2, hlimit⟩

/-- A call after which the counter is within the limit was affordable, if the
counter can show the memory in use. -/
theorem Budgeted.affordable (h : Budgeted cache) {call : (Nat → Bool) × GzipCall} (hrepresentable : Representable call)
    (hheld : memory_held (gzip_call_step cache call).1.entries ≤ SIZE_MAX)
    (hwithin : (gzip_call_step cache call).1.Within) :
    Affordable cache call ∧ Budgeted (gzip_call_step cache call).1 := by
  obtain ⟨hsound, hcount, hlimit, hused⟩ := step_memory h hrepresentable
  have hfits := Nat.le_trans (memory_in_use_le _) hheld
  rw [GzipCache.Within, hsound.total_eq hfits] at hwithin
  exact ⟨hused.mp hwithin, hsound, hcount, hwithin, hlimit⟩

theorem budgeted_create {max_memory_usage : Nat} (hlimit : max_memory_usage ≤ SIZE_MAX)
    (max_entries cache_ttl : Int) : Budgeted (uvhttp_gzip_cache_create max_memory_usage max_entries cache_ttl) := by
  obtain ⟨hsound, hinvalid⟩ := create_sound max_memory_usage max_entries cache_ttl
  refine ⟨hsound, ?_, ?_, ?_⟩
  · have hzero := valid_count_invalid hinvalid
    have hpos := hsound.max_pos
    omega
  · rw [memory_in_use_invalid hinvalid]
    exact Nat.zero_le _
  · unfold uvhttp_gzip_cache_create
    dsimp only
    split
    · decide
    · exact hlimit

end calls

/-- From the creation of the cache on, in every run of calls
of which each is affordable when it comes, `total_memory` is within
`max_memory_usage` in every state on the way; and where the entries of all these
states fit into memory, only in such runs. -/
theorem memory_budget_iff {max_memory_usage : Nat} (hlimit : max_memory_usage ≤ SIZE_MAX) (max_entries cache_ttl : Int)
    {calls : List ((Nat → Bool) × GzipCall)} (hcalls : ∀ call ∈ calls, Representable call) :
    (Enabled gzip_call_step Affordable (uvhttp_gzip_cache_create max_memory_usage max_entries cache_ttl) calls →
      ∀ before, before <+: calls →
        (run gzip_call_step (uvhttp_gzip_cache_create max_memory_usage max_entries cache_ttl) before).Within) ∧
    ((∀ before, before <+: calls → memory_held
        (run gzip_call_step (uvhttp_gzip_cache_create max_memory_usage max_entries cache_ttl) before).entries ≤
          SIZE_MAX) →
      (∀ before, before <+: calls →
        (run gzip_call_step (uvhttp_gzip_cache_create max_memory_usage max_entries cache_ttl) before).Within) →
      Enabled gzip_call_step Affordable (uvhttp_gzip_cache_create max_memory_usage max_entries cache_ttl) calls) := by
  have hstart := budgeted_create hlimit max_entries cache_ttl
  generalize uvhttp_gzip_cache_create max_memory_usage max_entries cache_ttl = created at hstart ⊢
  have hallowed : Enabled gzip_call_step (fun _ call => Representable call) created calls :=
    enabled_of_mem hcalls created
  refine ⟨fun haffordable before hbefore => ?_, fun hheld hwithin => ?_⟩
  · have hstep : ∀ cache call, Budgeted cache → Representable call ∧ Affordable cache call →
        Budgeted (gzip_call_step cache call).1 := fun cache call h => h.step
    exact (prefix_invariant hstep hstart (enabled_and hallowed haffordable) before hbefore).within
  · have hstep : ∀ cache call, Budgeted cache → Representable call →
        memory_held (gzip_call_step cache call).1.entries ≤ SIZE_MAX ∧ (gzip_call_step cache call).1.Within →
        Affordable cache call ∧ Budgeted (gzip_call_step cache call).1 :=
      fun cache call h hrepresentable hgood => h.affordable hrepresentable hgood.1 hgood.2
    exact @enabled_of_prefixes _ _ _ gzip_call_step _ Budgeted
      (fun cache => memory_held cache.entries ≤ SIZE_MAX ∧ cache.Within) Affordable hstep created hstart calls hallowed
      fun before hbefore => ⟨hheld before hbefore, hwithin before hbefore⟩

/-- A limit of 300 bytes, one stream of 200 bytes, another that replaces it, and a
third of 100 bytes. -/
def affordable_calls : List ((Nat → Bool) × GzipCall) :=
  [(fun _ => true, .put 0 1 500 (List.replicate 200 97)), (fun _ => true, .put 0 1 500 (List.replicate 244 98)),
    (fun _ => true, .put 0 2 600 (List.replicate 100 99))]

/-- All three are affordable: the first leaves 44 bytes, which the second takes, and for
the third that one is evicted. -/
theorem memory_budget_kept :
    (run gzip_call_step (uvhttp_gzip_cache_create 300 4 0) affordable_calls).Within := by
  apply (memory_budget_iff (by decide) 4 0 _).1 _ affordable_calls (List.prefix_refl _)
  · intro call hcall
    simp only [affordable_calls, List.mem_cons, List.not_mem_nil, or_false] at hcall
    rcases hcall with rfl | rfl | rfl
    · trivial
    · trivial
    · trivial
  · refine ⟨?_, ?_, ?_, trivial⟩
    · intro _ _ _
      rw [show ((uvhttp_gzip_cache_create 300 4 0).entries.find? fun e => e.has_key 1 500) = none by decide +kernel]
      decide +kernel
    · intro _ _ _
      rw [show ((gzip_call_step (uvhttp_gzip_cache_create 300 4 0) (fun _ => true, .put 0 1 500
        (List.replicate 200 97))).1.entries.find? fun e => e.has_key 1 500) =
          some ⟨1, 500, some (List.replicate 200 97), true, 0, 1⟩ by decide +kernel]
      decide +kernel
    · intro _ _ _
      rw [show ((gzip_call_step (gzip_call_step (uvhttp_gzip_cache_create 300 4 0) (fun _ => true, .put 0 1 500
        (List.replicate 200 97))).1 (fun _ => true, .put 0 1 500 (List.replicate 244 98))).1.entries.find?
          fun e => e.has_key 2 600) = none by decide +kernel]
      decide +kernel

/-- A stream of 60 bytes in a cache of 100: with its slot it counts for 116. -/
theorem memory_budget_exceeded :
    Representable (fun _ => true, .put 0 1 500 (List.replicate 60 97)) ∧
      ¬ (run gzip_call_step (uvhttp_gzip_cache_create 100 4 0)
        [(fun _ => true, .put 0 1 500 (List.replicate 60 97))]).Within := by
  refine ⟨trivial, ?_⟩
  unfold GzipCache.Within
  decide +kernel

end uvhttp.gzip
