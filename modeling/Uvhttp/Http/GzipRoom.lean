import Uvhttp.Http.GzipRefinement

namespace uvhttp.gzip

/-- The cache after the two eviction loops of `uvhttp_gzip_cache_put` for a new
stream of this length. -/
def room_for (cache : GzipCache) (length : Nat) : GzipCache :=
  evict_while (fun cache => gzip_cache_entry_count cache ≥ cache.max_entries) cache.entries.length
    (evict_while (fun cache => (cache.total_memory + UInt64.ofNat length).toNat > cache.max_memory_usage &&
      gzip_cache_entry_count cache > 0) cache.entries.length cache)

/-- The memory of the valid slots that were used at that time or later. -/
def memory_since (entries : List GzipEntry) (time : Nat) : Nat :=
  memory_in_use (entries.filter fun e => time ≤ e.last_used)

/-- The number of the valid slots that were used at that time or later. -/
def count_since (entries : List GzipEntry) (time : Nat) : Nat :=
  valid_count (entries.filter fun e => time ≤ e.last_used)

/-- A stream of this length is within the limit besides the slots used since that
time, in the arithmetic of `size_t`. -/
def FitsSince (cache : GzipCache) (length time : Nat) : Prop :=
  (memory_since cache.entries time + length) % UInt64.size ≤ cache.max_memory_usage

instance (cache : GzipCache) (length time : Nat) : Decidable (FitsSince cache length time) :=
  inferInstanceAs (Decidable (_ ≤ _))

/-- A slot after an eviction of all that were last used before that time. -/
def freed_before (time : Nat) (e : GzipEntry) : GzipEntry :=
  if e.valid = true ∧ e.last_used < time then e.cleared else e

section slots

variable {entries : List GzipEntry} {time : Nat} {e : GzipEntry}

theorem freed_before_kept (h : e.valid = true → time ≤ e.last_used) : freed_before time e = e := by
  unfold freed_before
  rw [if_neg]
  rintro ⟨hvalid, hless⟩
  have hle := h hvalid
  omega

theorem freed_before_valid (h : (freed_before time e).valid = true) : freed_before time e = e ∧ time ≤ e.last_used := by
  unfold freed_before at h ⊢
  split at h
  · cases h
  · rename_i hkept
    rw [if_neg hkept]
    refine ⟨rfl, ?_⟩
    by_contra hless
    exact hkept ⟨h, by omega⟩

theorem freed_before_gone (h : e.last_used < time) : (freed_before time e).valid = false := by
  unfold freed_before
  cases hvalid : e.valid with
  | true =>
    rw [if_pos ⟨rfl, h⟩]
    rfl
  | false =>
    rw [if_neg fun hfreed => Bool.false_ne_true hfreed.1]
    exact hvalid

theorem freed_before_zero (entries : List GzipEntry) : entries.map (freed_before 0) = entries := by
  apply List.map_id''
  intro e
  exact freed_before_kept fun _ => Nat.zero_le _

/-- Freeing at two times is the same if no slot was last used in between. -/
theorem freed_before_congr {later : Nat}
    (h : ∀ e ∈ entries, e.valid = true → (e.last_used < time ↔ e.last_used < later)) :
    entries.map (freed_before time) = entries.map (freed_before later) := by
  apply List.map_congr_left
  intro e he
  unfold freed_before
  by_cases hvalid : e.valid = true
  · simp only [hvalid, true_and, h e he hvalid]
  · rw [if_neg fun hfreed => hvalid hfreed.1, if_neg fun hfreed => hvalid hfreed.1]

theorem memory_in_use_freed (entries : List GzipEntry) (time : Nat) :
    memory_in_use (entries.map (freed_before time)) = memory_since entries time := by
  unfold memory_since memory_in_use
  induction entries with
  | nil => rfl
  | cons e entries ih =>
    rw [List.map_cons, List.map_cons, List.sum_cons, ih, List.filter_cons]
    by_cases hkept : time ≤ e.last_used
    · rw [freed_before_kept fun _ => hkept, if_pos (decide_eq_true hkept), List.map_cons, List.sum_cons]
    · rw [freed_before_gone (by omega), if_neg Bool.false_ne_true, Nat.zero_add,
        if_neg fun htrue => hkept (of_decide_eq_true htrue)]

theorem valid_count_freed (entries : List GzipEntry) (time : Nat) :
    valid_count (entries.map (freed_before time)) = count_since entries time := by
  unfold count_since valid_count
  induction entries with
  | nil => rfl
  | cons e entries ih =>
    rw [List.map_cons, List.countP_cons, ih, List.filter_cons]
    by_cases hkept : time ≤ e.last_used
    · rw [freed_before_kept fun _ => hkept, if_pos (decide_eq_true hkept), List.countP_cons]
    · rw [freed_before_gone (by omega), if_neg Bool.false_ne_true, Nat.add_zero,
        if_neg fun htrue => hkept (of_decide_eq_true htrue)]

theorem memory_since_antitone (entries : List GzipEntry) {earlier later : Nat} (h : earlier ≤ later) :
    memory_since entries later ≤ memory_since entries earlier := by
  unfold memory_since memory_in_use
  apply List.Sublist.sum_le_sum
  · apply List.Sublist.map
    apply List.monotone_filter_right
    intro e hlater
    exact decide_eq_true (Nat.le_trans h (of_decide_eq_true hlater))
  · exact fun _ _ => Nat.zero_le _

/-- If slots are left, one of them was used longest ago. -/
theorem oldest_since (h : valid_count (entries.map (freed_before time)) ≠ 0) :
    ∃ e ∈ entries, e.valid = true ∧ time ≤ e.last_used ∧
      ∀ x ∈ entries, x.valid = true → time ≤ x.last_used → e.last_used ≤ x.last_used := by
  have hspec := oldest_slot_spec (entries.map (freed_before time))
  cases hvictim : (entries.map (freed_before time)).zipIdx.foldl older none with
  | none =>
    rw [hvictim] at hspec
    exact absurd (valid_count_invalid hspec) h
  | some best =>
    obtain ⟨oldest, slot⟩ := best
    rw [hvictim] at hspec
    obtain ⟨hslot, hvalid, holdest⟩ := hspec
    obtain ⟨e, he, rfl⟩ := List.mem_map.mp (List.mem_of_getElem? hslot)
    obtain ⟨hkept, hle⟩ := freed_before_valid hvalid
    rw [hkept] at hvalid holdest
    refine ⟨e, he, hvalid, hle, fun x hx hxvalid hxle => ?_⟩
    have hsame : freed_before time x = x := freed_before_kept fun _ => hxle
    exact holdest x (hsame ▸ List.mem_map_of_mem hx) hxvalid

/-- The slots used since a time are those used since the oldest of them was. -/
theorem freed_before_oldest (hle : time ≤ e.last_used)
    (holdest : ∀ x ∈ entries, x.valid = true → time ≤ x.last_used → e.last_used ≤ x.last_used) :
    entries.map (freed_before time) = entries.map (freed_before e.last_used) := by
  apply freed_before_congr
  intro x hx hvalid
  constructor
  · intro hless
    omega
  · intro hless
    by_contra hkept
    have := holdest x hx hvalid (by omega)
    omega

end slots

section evictions

variable {cache : GzipCache} {entries : List GzipEntry} {time : Nat}

theorem evict_one_limit (cache : GzipCache) :
    (gzip_cache_evict_one cache).max_memory_usage = cache.max_memory_usage := by
  unfold gzip_cache_evict_one
  split
  · rfl
  · rfl

theorem evict_while_limit (condition : GzipCache → Bool) (fuel : Nat) (cache : GzipCache) :
    (evict_while condition fuel cache).max_memory_usage = cache.max_memory_usage := by
  induction fuel generalizing cache with
  | zero => rfl
  | succ fuel ih =>
    rw [evict_while]
    split
    · rw [ih, evict_one_limit]
    · rfl

theorem room_for_limit (cache : GzipCache) (length : Nat) :
    (room_for cache length).max_memory_usage = cache.max_memory_usage := by
  rw [room_for, evict_while_limit, evict_while_limit]

theorem evict_one_sound (hsound : cache.Sound) :
    (gzip_cache_evict_one cache).Sound ∧ (gzip_cache_evict_one cache).max_entries = cache.max_entries := by
  rcases evict_one_spec hsound with ⟨key, hevicted, -⟩ | ⟨hsame, -⟩
  · exact ⟨hevicted.changes.sound hsound, hevicted.max_entries⟩
  · rw [hsame]
    exact ⟨hsound, rfl⟩

/-- An eviction frees what was used at one time: the least since the evictions
before. -/
theorem evict_one_freed (hsound : cache.Sound) (hfreed : cache.entries = entries.map (freed_before time)) :
    (∃ e ∈ entries, e.valid = true ∧ time ≤ e.last_used ∧
        (∀ x ∈ entries, x.valid = true → time ≤ x.last_used → e.last_used ≤ x.last_used) ∧
        (gzip_cache_evict_one cache).entries = entries.map (freed_before (e.last_used + 1))) ∨
      (gzip_cache_evict_one cache = cache ∧ valid_count cache.entries = 0) := by
  have hspec := oldest_slot_spec cache.entries
  have hsearch : oldest_slot cache.entries = (cache.entries.zipIdx.foldl older none).map Prod.snd := rfl
  unfold gzip_cache_evict_one
  rw [hsearch]
  cases hvictim : cache.entries.zipIdx.foldl older none with
  | none =>
    rw [hvictim] at hspec
    exact .inr ⟨rfl, valid_count_invalid hspec⟩
  | some best =>
    obtain ⟨victim, slot⟩ := best
    rw [hvictim] at hspec
    obtain ⟨hslot, hvalid, holdest⟩ := hspec
    obtain ⟨hsplit, hset, -⟩ := split_at hslot
    have hothers := hsound.apart_slot hsplit
    simp only [Option.map_some, Option.bind_some, hslot]
    rw [hset]
    rw [hsplit] at hfreed holdest
    generalize cache.entries.take slot = front at hfreed hothers holdest ⊢
    generalize cache.entries.drop (slot + 1) = back at hfreed hothers holdest ⊢
    obtain ⟨before, rest, rfl, hbefore, hrest⟩ := List.map_eq_append_iff.mp hfreed.symm
    obtain ⟨e, after, rfl, he, hafter⟩ := List.map_eq_cons_iff.mp hrest
    subst he hbefore hafter
    obtain ⟨hkept, hle⟩ := freed_before_valid hvalid
    rw [hkept] at hvalid hothers holdest ⊢
    have hlater : ∀ x ∈ before ++ after, x.valid = true → time ≤ x.last_used → e.last_used < x.last_used := by
      intro x hx hxvalid hxle
      have hsame : freed_before time x = x := freed_before_kept fun _ => hxle
      have hmem : x ∈ before.map (freed_before time) ++ after.map (freed_before time) := by
        rw [← List.map_append]
        exact List.mem_map.mpr ⟨x, hx, hsame⟩
      have hne := (hothers x hmem hvalid hxvalid).2
      have hmin := holdest x (by simp only [List.mem_append, List.mem_cons] at hmem ⊢; tauto) hxvalid
      omega
    have hcongr : ∀ l, l ⊆ before ++ after →
        l.map (freed_before time) = l.map (freed_before (e.last_used + 1)) := by
      intro l hl
      apply freed_before_congr
      intro x hx hxvalid
      have hused := hlater x (hl hx) hxvalid
      omega
    left
    refine ⟨e, List.mem_append_right _ List.mem_cons_self, hvalid, hle, ?_, ?_⟩
    · intro x hx hxvalid hxle
      rcases List.mem_append.mp hx with hfront | hback
      · exact Nat.le_of_lt (hlater x (List.mem_append_left _ hfront) hxvalid hxle)
      · rcases List.mem_cons.mp hback with rfl | hback
        · exact Nat.le_refl _
        · exact Nat.le_of_lt (hlater x (List.mem_append_right _ hback) hxvalid hxle)
    · rw [List.map_append, List.map_cons, hcongr before (List.subset_append_left _ _),
        hcongr after (List.subset_append_right _ _), freed_before, if_pos ⟨hvalid, Nat.lt_succ_self _⟩]

/-- An eviction loop frees what was used before some time, and for every slot that
it freed its condition held while that was the oldest one. -/
theorem evict_while_freed (condition : GzipCache → Bool) (fuel : Nat) (hsound : cache.Sound)
    (hfreed : cache.entries = entries.map (freed_before time)) :
    ∃ later, time ≤ later ∧ (evict_while condition fuel cache).entries = entries.map (freed_before later) ∧
      ∀ e ∈ entries, e.valid = true → time ≤ e.last_used → e.last_used < later →
        ∃ before : GzipCache, before.Sound ∧ before.max_memory_usage = cache.max_memory_usage ∧
          before.max_entries = cache.max_entries ∧ before.entries = entries.map (freed_before e.last_used) ∧
          condition before = true := by
  induction fuel generalizing cache time with
  | zero => exact ⟨time, Nat.le_refl _, hfreed, fun e _ _ hle hless => by omega⟩
  | succ fuel ih =>
    rw [evict_while]
    by_cases hcondition : condition cache = true
    · rw [if_pos hcondition]
      rcases evict_one_freed hsound hfreed with ⟨e, he, hvalid, hle, holdest, hevicted⟩ | ⟨hsame, hnone⟩
      · obtain ⟨hafter, hmax⟩ := evict_one_sound hsound
        obtain ⟨later, hlater, hloop, hfreed'⟩ := ih hafter hevicted
        refine ⟨later, by omega, hloop, fun x hx hxvalid hxle hless => ?_⟩
        by_cases hxlater : e.last_used + 1 ≤ x.last_used
        · obtain ⟨before, hbefore, hlimit, hentries, hrest⟩ := hfreed' x hx hxvalid hxlater hless
          exact ⟨before, hbefore, hlimit.trans (evict_one_limit cache), hentries.trans hmax, hrest⟩
        · have hmin := holdest x hx hxvalid hxle
          have hsame : x.last_used = e.last_used := by omega
          refine ⟨cache, hsound, rfl, rfl, ?_, hcondition⟩
          rw [hfreed, hsame, freed_before_oldest hle holdest]
      · rw [hsame]
        exact ih hsound hfreed
    · rw [if_neg hcondition]
      exact ⟨time, Nat.le_refl _, hfreed, fun e _ _ hle hless => by omega⟩

/-- The test of the first loop, for a cache in which the slots used before some time
have been freed. -/
theorem fitsSince_iff {before : GzipCache} (hbefore : before.Sound)
    (hlimit : before.max_memory_usage = cache.max_memory_usage)
    (hfreed : before.entries = cache.entries.map (freed_before time)) (length : Nat) :
    FitsSince cache length time ↔
      (before.total_memory + UInt64.ofNat length).toNat ≤ before.max_memory_usage := by
  rw [hbefore.total, hfreed, memory_in_use_freed, ← UInt64.ofNat_add, UInt64.toNat_ofNat', hlimit]
  exact Iff.rfl

/-- What the two loops leave: the first frees what was used before a time `between` up
to which the stream was not within the limit, the second what was used before a time
`later` up to which there were too many slots. -/
theorem room_for_freed (hsound : cache.Sound) (length : Nat) :
    ∃ between later, between ≤ later ∧
      (room_for cache length).entries = cache.entries.map (freed_before later) ∧
      (count_since cache.entries later : Int) < cache.max_entries ∧
      (count_since cache.entries between = 0 ∨ FitsSince cache length between) ∧
      (∀ e ∈ cache.entries, e.valid = true → e.last_used < between → ¬ FitsSince cache length e.last_used) ∧
      ∀ e ∈ cache.entries, e.valid = true → between ≤ e.last_used → e.last_used < later →
        cache.max_entries ≤ count_since cache.entries e.last_used := by
  obtain ⟨removed, hroom, hcount⟩ := make_room_spec hsound fun cache =>
    (cache.total_memory + UInt64.ofNat length).toNat > cache.max_memory_usage && gzip_cache_entry_count cache > 0
  obtain ⟨between, -, hfirst, hoverfull⟩ := evict_while_freed (fun cache =>
    (cache.total_memory + UInt64.ofNat length).toNat > cache.max_memory_usage && gzip_cache_entry_count cache > 0)
    cache.entries.length hsound (freed_before_zero cache.entries).symm
  obtain ⟨events, hevicted, hdone⟩ := evict_while_spec (fun cache =>
    (cache.total_memory + UInt64.ofNat length).toNat > cache.max_memory_usage && gzip_cache_entry_count cache > 0)
    cache.entries.length hsound
  have hlimit := evict_while_limit (fun cache =>
    (cache.total_memory + UInt64.ofNat length).toNat > cache.max_memory_usage && gzip_cache_entry_count cache > 0)
    cache.entries.length cache
  unfold room_for
  generalize evict_while (fun cache => (cache.total_memory + UInt64.ofNat length).toNat > cache.max_memory_usage &&
    gzip_cache_entry_count cache > 0) cache.entries.length cache = budget at *
  obtain ⟨later, hlater, hsecond, hcrowded⟩ := evict_while_freed
    (fun cache => gzip_cache_entry_count cache ≥ cache.max_entries) cache.entries.length
    (hevicted.changes.sound hsound) hfirst
  refine ⟨between, later, hlater, hsecond, ?_, ?_, ?_, ?_⟩
  · rw [← valid_count_freed, ← hsecond]
    exact hcount
  · rw [← valid_count_freed, ← hfirst, or_iff_not_imp_left]
    intro hleft
    rw [fitsSince_iff (hevicted.changes.sound hsound) hlimit hfirst]
    by_contra hover
    apply hleft
    apply hdone List.countP_le_length
    have hcounted : gzip_cache_entry_count budget = valid_count budget.entries := rfl
    simp only [Bool.and_eq_true, decide_eq_true_eq]
    omega
  · intro e he hvalid hless
    obtain ⟨before, hbefore, hsame, -, hentries, hcondition⟩ := hoverfull e he hvalid (Nat.zero_le _) hless
    rw [fitsSince_iff hbefore hsame hentries]
    simp only [Bool.and_eq_true, decide_eq_true_eq] at hcondition
    omega
  · intro e he hvalid hle hless
    obtain ⟨before, -, -, hsame, hentries, hcondition⟩ := hcrowded e he hvalid hle hless
    have hcounted : gzip_cache_entry_count before = valid_count before.entries := rfl
    have hmany := of_decide_eq_true hcondition
    rw [ge_iff_le, hcounted, hsame, hentries, valid_count_freed, hevicted.max_entries] at hmany
    exact hmany

/-- The memory that is in use once there is room for a stream, with that of the stream
itself, is within the limit exactly if this is so for the slot of the stream alone and
for all slots that have been used no earlier than some slot, where these are fewer than
the limit and the stream was within the limit besides as many or more. -/
theorem room_for_affordable (hsound : cache.Sound) (length : Nat) :
    memory_in_use (room_for cache length).entries + (length + GZIP_CACHE_ENTRY_OVERHEAD) ≤ cache.max_memory_usage ↔
      length + GZIP_CACHE_ENTRY_OVERHEAD ≤ cache.max_memory_usage ∧
        ∀ e ∈ cache.entries, e.valid = true → (count_since cache.entries e.last_used : Int) < cache.max_entries →
          (∃ e' ∈ cache.entries, e'.valid = true ∧ e'.last_used ≤ e.last_used ∧
            FitsSince cache length e'.last_used) →
          memory_since cache.entries e.last_used + (length + GZIP_CACHE_ENTRY_OVERHEAD) ≤ cache.max_memory_usage := by
  obtain ⟨between, later, hlater, hroom, hcount, hfits, hoverfull, hcrowded⟩ := room_for_freed hsound length
  rw [hroom, memory_in_use_freed]
  constructor
  · intro hwithin
    refine ⟨by omega, ?_⟩
    rintro e he hvalid hfewer ⟨e', he', hvalid', hearlier, hfitted⟩
    have hkept : later ≤ e.last_used := by
      by_contra hless
      by_cases hfreed : e.last_used < between
      · exact hoverfull e' he' hvalid' (by omega) hfitted
      · have hmany := hcrowded e he hvalid (by omega) (by omega)
        omega
    have hless := memory_since_antitone cache.entries hkept
    omega
  · rintro ⟨halone, hrest⟩
    by_cases hempty : valid_count (cache.entries.map (freed_before later)) = 0
    · have hzero : memory_since cache.entries later = 0 := by
        rw [← memory_in_use_freed]
        apply memory_in_use_invalid
        intro e he
        exact (Bool.not_eq_true _).mp (List.countP_eq_zero.mp hempty e he)
      omega
    · obtain ⟨e, he, hvalid, hle, holdest⟩ := oldest_since hempty
      have hsince := freed_before_oldest hle holdest
      have hmore : valid_count (cache.entries.map (freed_before between)) ≠ 0 := by
        intro hnone
        have hmem : freed_before between e ∈ cache.entries.map (freed_before between) := List.mem_map_of_mem he
        have hinvalid := List.countP_eq_zero.mp hnone _ hmem
        rw [freed_before_kept fun _ => Nat.le_trans hlater hle] at hinvalid
        exact hinvalid hvalid
      obtain ⟨e', he', hvalid', hle', holdest'⟩ := oldest_since hmore
      have hsince' := freed_before_oldest hle' holdest'
      have hfitted : FitsSince cache length e'.last_used := by
        rw [valid_count_freed] at hmore
        have hfirst := hfits.resolve_left hmore
        unfold FitsSince at hfirst ⊢
        rwa [← memory_in_use_freed, ← hsince', memory_in_use_freed]
      have hmine := hrest e he hvalid (by rwa [← valid_count_freed, ← hsince, valid_count_freed])
        ⟨e', he', hvalid', holdest' e he hvalid (Nat.le_trans hlater hle), hfitted⟩
      rwa [← memory_in_use_freed, ← hsince, memory_in_use_freed] at hmine

end evictions

end uvhttp.gzip
