import Uvhttp.Router.Cache
import Uvhttp.Lib.OpenAddressing

namespace uvhttp.router_cache

open http (Method)
open router (MAX_ROUTE_PATH_LEN serves)
open open_addressing

variable {H : Type} {route_hash : List UInt8 → UInt32}

section probing

theorem lt_of_mem_probe_order {size index : Nat} {hash : UInt32} (h : index ∈ probe_order size hash) :
    index < size := by
  obtain ⟨step, hstep, rfl⟩ := List.mem_map.mp h
  apply Nat.mod_lt
  exact (Nat.zero_le step).trans_lt (List.mem_range.mp hstep)

theorem mem_probe_order {size index : Nat} (h : index < size) (hash : UInt32) : index ∈ probe_order size hash := by
  have hpos : 0 < size := (Nat.zero_le index).trans_lt h
  have hstart : hash.toNat % size < size := Nat.mod_lt _ hpos
  refine List.mem_map.mpr ⟨(index + size - hash.toNat % size) % size, List.mem_range.mpr (Nat.mod_lt _ hpos), ?_⟩
  have hsum : hash.toNat % size + (index + size - hash.toNat % size) = index + size := by omega
  rw [Nat.add_mod_mod, hsum, Nat.add_mod_right]
  exact Nat.mod_eq_of_lt h

/-- Linear probing visits no slot twice. -/
theorem probe_order_nodup (size : Nat) (hash : UInt32) : (probe_order size hash).Nodup := by
  refine List.Nodup.map_on ?_ List.nodup_range
  intro i hi j hj heq
  have hmod : i ≡ j [MOD size] := Nat.ModEq.add_left_cancel' (hash.toNat % size) heq
  exact hmod.eq_of_lt_of_lt (List.mem_range.mp hi) (List.mem_range.mp hj)

/-- The search for a path goes through the chain of its slots. -/
theorem exact_match_eq (entries : List (Option (HashEntry H))) (path : List UInt8) (method : Method)
    (order : List Nat) :
    exact_match entries path method order =
      ((chain entries order).find? fun e => e.path = path && serves e.method method).map HashEntry.handler := by
  induction order with
  | nil => rfl
  | cons index rest ih =>
    rw [exact_match, chain, slot]
    cases entries.getD index none with
    | none => rfl
    | some entry =>
      rw [List.find?_cons]
      dsimp only
      cases (entry.path = path && serves entry.method method : Bool) with
      | true => rfl
      | false => exact ih

end probing

section tables

/-- Every entry is reached from its hash, and no route is stored twice. -/
structure Probed (route_hash : List UInt8 → UInt32) (entries : List (Option (HashEntry H))) : Prop where
  reach : ∀ index e, slot entries index = some e →
    Reaches entries (probe_order entries.length (route_hash e.path)) index
  distinct : ((occupants entries).map fun e => (e.path, e.method)).Nodup

theorem exists_free {entries : List (Option (HashEntry H))} (h : (occupants entries).length < entries.length) :
    ∃ index < entries.length, slot entries index = none := by
  by_contra hfull
  push Not at hfull
  have hall : ∀ stored ∈ entries, stored.isSome = true := by
    intro stored hstored
    obtain ⟨index, hindex⟩ := List.mem_iff_getElem?.mp hstored
    have hslot := hfull index (List.getElem?_eq_some_iff.mp hindex).1
    rw [slot, List.getD_eq_getElem?_getD, hindex] at hslot
    exact Option.isSome_iff_ne_none.mpr hslot
  have hlength : (occupants entries).length = entries.length := by
    rw [occupants, List.length_filterMap_eq_countP, List.countP_eq_length]
    exact hall
  exact h.ne hlength

/-- An entry that goes into the first free slot from its hash. -/
theorem Probed.insert {entries : List (Option (HashEntry H))} (h : Probed route_hash entries) {e : HashEntry H}
    {index : Nat} (hreach : Reaches entries (probe_order entries.length (route_hash e.path)) index)
    (hfree : slot entries index = none) (hnew : ∀ f ∈ occupants entries, (f.path, f.method) ≠ (e.path, e.method)) :
    Probed route_hash (entries.set index (some e)) := by
  have hlt : index < entries.length := by
    obtain ⟨before, after, hsplit, -⟩ := hreach
    apply lt_of_mem_probe_order
    rw [hsplit]
    simp
  refine ⟨fun i f hf => ?_, ?_⟩
  · rw [List.length_set]
    by_cases hi : i = index
    · subst hi
      rw [slot_set_self hlt] at hf
      cases hf
      exact hreach.set
    · rw [slot_set_ne hi] at hf
      exact (h.reach i f hf).set
  · apply ((occupants_set hlt hfree e).map _).nodup_iff.mpr
    rw [List.map_cons, List.nodup_cons]
    refine ⟨fun hmem => ?_, h.distinct⟩
    obtain ⟨f, hf, heq⟩ := List.mem_map.mp hmem
    exact hnew f hf heq

theorem reaches_of_find {entries : List (Option (HashEntry H))} {order : List Nat} {q : Nat → Bool} {index : Nat}
    (hq : ∀ i, (slot entries i).isSome = false → q i = true) (h : order.find? q = some index) :
    Reaches entries order index := by
  obtain ⟨-, before, after, hsplit, hbefore⟩ := List.find?_eq_some_iff_append.mp h
  refine ⟨before, after, hsplit, fun i hi => ?_⟩
  by_contra hfree
  have hskipped := hbefore i hi
  rw [hq i (by simpa using hfree)] at hskipped
  cases hskipped

/-- Rehashing keeps all entries, and puts those that a search looks for into their
probing in the order of the old slots. -/
theorem rehash_entries_spec {new_entries old_entries entries : List (Option (HashEntry H))}
    (hnew : Probed route_hash new_entries)
    (hdistinct : ((occupants new_entries ++ occupants old_entries).map fun e => (e.path, e.method)).Nodup)
    (h : rehash_entries route_hash new_entries old_entries = some entries) :
    Probed route_hash entries ∧ entries.length = new_entries.length ∧
      (occupants entries).Perm (occupants new_entries ++ occupants old_entries) ∧
      ∀ (path : List UInt8) (q : HashEntry H → Bool), (∀ e, q e = true → e.path = path) →
        (chain entries (probe_order new_entries.length (route_hash path))).filter q =
          (chain new_entries (probe_order new_entries.length (route_hash path))).filter q ++
            (occupants old_entries).filter q := by
  induction old_entries generalizing new_entries with
  | nil =>
    cases h
    have hnone : occupants ([] : List (Option (HashEntry H))) = [] := rfl
    refine ⟨hnew, rfl, ?_, fun path q hq => ?_⟩
    · rw [hnone, List.append_nil]
    · rw [hnone, List.filter_nil, List.append_nil]
  | cons old old_entries ih =>
    cases old with
    | none => exact ih hnew hdistinct h
    | some e =>
      rw [rehash_entries] at h
      split at h
      · cases h
      · rename_i index hindex
        have hreach : Reaches new_entries (probe_order new_entries.length (route_hash e.path)) index :=
          reaches_of_find (fun i hi => by simpa [slot] using hi) hindex
        have hfree : slot new_entries index = none := by simpa [slot] using List.find?_some hindex
        have hlt : index < new_entries.length := lt_of_mem_probe_order (List.mem_of_find?_eq_some hindex)
        have hold : occupants (some e :: old_entries) = e :: occupants old_entries := rfl
        have hmoved : (occupants (new_entries.set index (some e)) ++ occupants old_entries).Perm
            (occupants new_entries ++ occupants (some e :: old_entries)) := by
          have hstored := (occupants_set hlt hfree e).append_right (occupants old_entries)
          exact hstored.trans List.perm_middle.symm
        have hfresh : ∀ f ∈ occupants new_entries, (f.path, f.method) ≠ (e.path, e.method) := by
          rw [List.map_append, List.nodup_append] at hdistinct
          intro f hf heq
          exact hdistinct.2.2 _ (List.mem_map_of_mem hf) (e.path, e.method) List.mem_cons_self heq
        obtain ⟨hprobed, hlength, hperm, hchain⟩ :=
          ih (hnew.insert hreach hfree hfresh) ((hmoved.map _).nodup_iff.mpr hdistinct) h
        rw [List.length_set] at hlength hchain
        refine ⟨hprobed, hlength, hperm.trans hmoved, fun path q hq => ?_⟩
        have hreaches : ∀ i f, slot new_entries i = some f → q f = true →
            Reaches new_entries (probe_order new_entries.length (route_hash path)) i := by
          intro i f hf hmatch
          rw [← hq f hmatch]
          exact hnew.reach i f hf
        have hentry : q e = true → Reaches new_entries (probe_order new_entries.length (route_hash path)) index := by
          intro hmatch
          rw [← hq e hmatch]
          exact hreach
        have hset := filter_chain_set (probe_order_nodup _ _) hreaches hlt hfree hentry
        rw [hchain path q hq, hset, hold, List.filter_cons]
        cases q e with
        | true => simp
        | false => simp

variable (route_hash) in
/-- Rehashing into a table with enough slots does not fail. -/
theorem rehash_entries_isSome {new_entries old_entries : List (Option (HashEntry H))}
    (h : (occupants new_entries).length + (occupants old_entries).length ≤ new_entries.length) :
    (rehash_entries route_hash new_entries old_entries).isSome = true := by
  induction old_entries generalizing new_entries with
  | nil => rfl
  | cons old old_entries ih =>
    cases old with
    | none => exact ih h
    | some e =>
      have hroom : (occupants new_entries).length + ((occupants old_entries).length + 1) ≤ new_entries.length := h
      have hnotfull : (occupants new_entries).length < new_entries.length := by omega
      obtain ⟨free, hlt, hfree⟩ := exists_free hnotfull
      rw [rehash_entries]
      cases hfind : (probe_order new_entries.length (route_hash e.path)).find? fun index =>
          (new_entries.getD index none).isNone with
      | none =>
        have hmissed := List.find?_eq_none.mp hfind free (mem_probe_order hlt _)
        exact absurd (by simpa [slot] using hfree) hmissed
      | some index =>
        have hindex : slot new_entries index = none := by simpa [slot] using List.find?_some hfind
        have hlt' : index < new_entries.length := lt_of_mem_probe_order (List.mem_of_find?_eq_some hfind)
        have hstored : (occupants (new_entries.set index (some e))).Perm (e :: occupants new_entries) :=
          occupants_set hlt' hindex e
        apply ih
        rw [List.length_set, hstored.length_eq, List.length_cons]
        omega

/-- A table in which the routes of a list have been registered, in their order. -/
structure Sound (route_hash : List UInt8 → UInt32) (table : HashTable H) (log : List (HashEntry H)) : Prop where
  probed : Probed route_hash table.entries
  stored : (occupants table.entries).Perm log
  count : table.count = (occupants table.entries).length
  threshold : table.threshold = load_threshold table.size
  paths : ∀ e ∈ log, e.path.length < MAX_ROUTE_PATH_LEN

theorem occupants_replicate (size : Nat) : occupants (List.replicate size (none : Option (HashEntry H))) = [] := by
  rw [occupants, List.filterMap_eq_nil_iff]
  intro stored hstored
  rw [List.eq_of_mem_replicate hstored]
  rfl

theorem probed_replicate (size : Nat) : Probed route_hash (List.replicate size (none : Option (HashEntry H))) := by
  refine ⟨fun index e he => ?_, ?_⟩
  · have hmem : e ∈ occupants (List.replicate size none) := mem_occupants.mpr ⟨index, he⟩
    rw [occupants_replicate] at hmem
    cases hmem
  · rw [occupants_replicate]
    exact List.nodup_nil

/-- Rehashing into a table of free slots. -/
theorem Probed.rehash {old_entries entries : List (Option (HashEntry H))} (h : Probed route_hash old_entries)
    {new_size : Nat}
    (hrehash : rehash_entries route_hash (List.replicate new_size none) old_entries = some entries) :
    Probed route_hash entries ∧ entries.length = new_size ∧ (occupants entries).Perm (occupants old_entries) ∧
      ∀ (path : List UInt8) (q : HashEntry H → Bool), (∀ e, q e = true → e.path = path) →
        (chain entries (probe_order new_size (route_hash path))).filter q = (occupants old_entries).filter q := by
  have hdistinct : ((occupants (List.replicate new_size none) ++ occupants old_entries).map
      fun e : HashEntry H => (e.path, e.method)).Nodup := by
    rw [occupants_replicate]
    exact h.distinct
  obtain ⟨hprobed, hlength, hperm, hchain⟩ := rehash_entries_spec (probed_replicate _) hdistinct hrehash
  rw [List.length_replicate] at hlength hchain
  rw [occupants_replicate, List.nil_append] at hperm
  refine ⟨hprobed, hlength, hperm, fun path q hq => ?_⟩
  rw [hchain path q hq, List.append_left_eq_self, List.filter_eq_nil_iff]
  intro e he
  obtain ⟨index, -, hindex⟩ := mem_chain_slot he
  have hmem := mem_occupants.mpr ⟨index, hindex⟩
  rw [occupants_replicate] at hmem
  cases hmem

theorem sound_init (size : Nat) : Sound route_hash (hash_table_init size : HashTable H) [] := by
  refine ⟨probed_replicate size, ?_, ?_, ?_, nofun⟩
  · rw [hash_table_init, occupants_replicate]
  · rw [hash_table_init, occupants_replicate]
    rfl
  · rw [hash_table_init, HashTable.size, List.length_replicate]

/-- What the resize before an insertion may do: nothing, fail for lack of memory
and do nothing, or move the entries to a larger table. -/
inductive MadeRoom (route_hash : List UInt8 → UInt32) (alloc : Nat → Bool) (table : HashTable H) :
    UvhttpError × HashTable H → Prop where
  | kept : MadeRoom route_hash alloc table (.OK, table)
  | refused (hfull : table.threshold ≤ table.count)
      (halloc : alloc (min (table.size * 2) UVHTTP_ROUTER_HASH_MAX_SIZE * SIZEOF_HASH_ENTRY) = false) :
      MadeRoom route_hash alloc table (.OUT_OF_MEMORY, table)
  | moved (hfull : table.threshold ≤ table.count)
      (hgrow : table.size < min (table.size * 2) UVHTTP_ROUTER_HASH_MAX_SIZE) (entries : List (Option (HashEntry H)))
      (hrehash : rehash_entries route_hash
        (List.replicate (min (table.size * 2) UVHTTP_ROUTER_HASH_MAX_SIZE) none) table.entries = some entries) :
      MadeRoom route_hash alloc table
        (.OK, { table with
          entries, threshold := load_threshold (min (table.size * 2) UVHTTP_ROUTER_HASH_MAX_SIZE) })

variable (route_hash) in
theorem make_room_cases (alloc : Nat → Bool) (table : HashTable H) :
    MadeRoom route_hash alloc table (make_room route_hash alloc table) := by
  unfold make_room
  dsimp only
  by_cases hfull : table.count ≥ table.threshold
  · rw [if_pos hfull]
    by_cases hgrow : min (table.size * 2) UVHTTP_ROUTER_HASH_MAX_SIZE > table.size
    · rw [if_pos hgrow, hash_table_resize]
      have hvalid : ¬ (min (table.size * 2) UVHTTP_ROUTER_HASH_MAX_SIZE = 0 ∨
          min (table.size * 2) UVHTTP_ROUTER_HASH_MAX_SIZE > UVHTTP_ROUTER_HASH_MAX_SIZE) := by
        rintro (hzero | hlarge)
        · omega
        · exact hlarge.not_ge (Nat.min_le_right _ _)
      rw [if_neg hvalid]
      cases halloc : alloc (min (table.size * 2) UVHTTP_ROUTER_HASH_MAX_SIZE * SIZEOF_HASH_ENTRY) with
      | false => exact .refused hfull halloc
      | true =>
        have hroom : (occupants (List.replicate (min (table.size * 2) UVHTTP_ROUTER_HASH_MAX_SIZE)
            (none : Option (HashEntry H)))).length + (occupants table.entries).length ≤
            (List.replicate (min (table.size * 2) UVHTTP_ROUTER_HASH_MAX_SIZE)
              (none : Option (HashEntry H))).length := by
          have hcap : (occupants table.entries).length ≤ table.size := List.length_filterMap_le _ _
          rw [occupants_replicate, List.length_replicate, List.length_nil]
          omega
        obtain ⟨entries, hrehash⟩ := Option.isSome_iff_exists.mp (rehash_entries_isSome route_hash hroom)
        simp only [Bool.not_true, Bool.false_eq_true, if_false, hrehash]
        exact .moved hfull hgrow entries hrehash
    · rw [if_neg hgrow]
      exact .kept
  · rw [if_neg hfull]
    exact .kept

theorem MadeRoom.sound {alloc : Nat → Bool} {table : HashTable H} {log : List (HashEntry H)}
    {result : UvhttpError × HashTable H} (hroom : MadeRoom route_hash alloc table result)
    (h : Sound route_hash table log) : Sound route_hash result.2 log := by
  cases hroom with
  | kept => exact h
  | refused => exact h
  | moved hfull hgrow entries hrehash =>
    obtain ⟨hprobed, hlength, hperm, -⟩ := h.probed.rehash hrehash
    refine ⟨hprobed, hperm.trans h.stored, h.count.trans hperm.length_eq.symm, ?_, h.paths⟩
    exact congrArg load_threshold hlength.symm

theorem find_slot_reaches {table : HashTable H} {path : List UInt8} {method : Method} {index : Nat}
    (h : find_slot route_hash table path method = some index) :
    Reaches table.entries (probe_order table.size (route_hash path)) index := by
  refine reaches_of_find (fun i hi => ?_) h
  have hfree : table.entries.getD i none = none := by simpa [slot] using hi
  rw [hfree]

/-- A slot that `find_slot` returns is free, and then the route is not stored, or
it holds the route. -/
theorem find_slot_cases {table : HashTable H} (hprobed : Probed route_hash table.entries) {path : List UInt8}
    {method : Method} {index : Nat} (h : find_slot route_hash table path method = some index) :
    (slot table.entries index = none ∧
      ∀ e ∈ occupants table.entries, (e.path, e.method) ≠ (path, method)) ∨
    ∃ e, slot table.entries index = some e ∧ e.path = path ∧ e.method = method := by
  obtain ⟨hstop, before, after, hsplit, hbefore⟩ := List.find?_eq_some_iff_append.mp h
  cases hslot : slot table.entries index with
  | some e =>
    rw [slot] at hslot
    rw [hslot] at hstop
    right
    exact ⟨e, rfl, by simpa using hstop⟩
  | none =>
    refine .inl ⟨rfl, fun e he heq => ?_⟩
    obtain ⟨i, hi⟩ := mem_occupants.mp he
    obtain ⟨hpath, hmethod⟩ := Prod.mk.inj heq
    have hreach := hprobed.reach i e hi
    rw [hpath] at hreach
    obtain ⟨first, last, hsplit', hoccupied⟩ := hreach
    have hsplits : before ++ index :: after = first ++ i :: last := hsplit.symm.trans hsplit'
    obtain ⟨middle, hleft, hright⟩ | ⟨middle, hleft, hright⟩ := List.append_eq_append_iff.mp hsplits
    · cases middle with
      | nil =>
        rw [(List.cons.inj hright).1, hi] at hslot
        cases hslot
      | cons other middle =>
        have hcrossed := hoccupied index (by rw [hleft, (List.cons.inj hright).1]; simp)
        rw [hslot] at hcrossed
        cases hcrossed
    · cases middle with
      | nil =>
        rw [← (List.cons.inj hright).1, hi] at hslot
        cases hslot
      | cons other middle =>
        have hskipped := hbefore i (by rw [hleft, (List.cons.inj hright).1]; simp)
        rw [slot] at hi
        rw [hi] at hskipped
        simp [hpath, hmethod] at hskipped

/-- What a registration may do to a table with the routes of a list. -/
inductive Added (route_hash : List UInt8 → UInt32) (log : List (HashEntry H)) (e : HashEntry H) :
    UvhttpError × HashTable H → Prop where
  | rejected (err : UvhttpError) (table : HashTable H) (herr : err ≠ .OK) (h : Sound route_hash table log) :
      Added route_hash log e (err, table)
  | stored (table : HashTable H) (h : Sound route_hash table (log ++ [e])) : Added route_hash log e (.OK, table)

/-- A registration that succeeds puts its route into the first free slot from its
hash, in the table that has been made room in. -/
theorem add_to_hash_table_ok {alloc : Nat → Bool} {table table' : HashTable H} {log : List (HashEntry H)}
    (h : Sound route_hash table log) {path : List UInt8} {method : Method} {handler : H}
    (hadd : add_to_hash_table route_hash alloc table path method handler = some (.OK, table')) :
    path.length < MAX_ROUTE_PATH_LEN ∧
    ∃ room index, MadeRoom route_hash alloc table (.OK, room) ∧ index < room.entries.length ∧
      slot room.entries index = none ∧ Reaches room.entries (probe_order room.size (route_hash path)) index ∧
      (∀ e ∈ occupants room.entries, (e.path, e.method) ≠ (path, method)) ∧
      table' = { room with
        entries := room.entries.set index (some ⟨path, method, handler⟩)
        count := room.count + 1 } := by
  have hcases := make_room_cases route_hash alloc table
  have hroom := hcases.sound h
  unfold add_to_hash_table at hadd
  dsimp only at hadd
  generalize make_room route_hash alloc table = result at hcases hroom hadd
  obtain ⟨err, room⟩ := result
  dsimp only at hroom hadd
  split at hadd
  · cases hadd
  rename_i hlength
  split at hadd
  · rename_i herr
    cases hadd
    exact absurd rfl herr
  rename_i hok
  rw [not_not.mp hok] at hcases
  split at hadd
  · cases hadd
  rename_i index hindex
  split at hadd
  · cases hadd
  rename_i hnew
  cases hadd
  have htake : path.take (MAX_ROUTE_PATH_LEN - 1) = path :=
    List.take_of_length_le (Nat.le_sub_one_of_lt (Nat.lt_of_not_le hlength))
  refine ⟨Nat.lt_of_not_le hlength, room, index, hcases, ?_⟩
  rw [htake]
  obtain ⟨hfree, hfresh⟩ | ⟨e, he, hpath, hmethod⟩ := find_slot_cases hroom.probed hindex
  · have hlt : index < room.entries.length := lt_of_mem_probe_order (List.mem_of_find?_eq_some hindex)
    exact ⟨hlt, hfree, find_slot_reaches hindex, hfresh, rfl⟩
  · rw [slot] at he
    rw [he] at hnew
    simp [hpath, hmethod] at hnew

theorem add_to_hash_table_rejected {alloc : Nat → Bool} {table table' : HashTable H} {path : List UInt8}
    {method : Method} {handler : H} {err : UvhttpError} (herr : err ≠ .OK)
    (hadd : add_to_hash_table route_hash alloc table path method handler = some (err, table')) :
    table' = table ∨ table' = (make_room route_hash alloc table).2 := by
  unfold add_to_hash_table at hadd
  dsimp only at hadd
  split at hadd
  · cases hadd
    exact .inl rfl
  split at hadd
  · exact .inr (congrArg Prod.snd (Option.some.inj hadd)).symm
  split at hadd
  · cases hadd
  split at hadd
  · cases hadd
    exact .inr rfl
  · cases hadd
    exact absurd rfl herr

theorem add_to_hash_table_added {alloc : Nat → Bool} {table : HashTable H} {log : List (HashEntry H)}
    (h : Sound route_hash table log) {path : List UInt8} {method : Method} {handler : H}
    {result : UvhttpError × HashTable H}
    (hadd : add_to_hash_table route_hash alloc table path method handler = some result) :
    Added route_hash log ⟨path, method, handler⟩ result := by
  obtain ⟨err, table'⟩ := result
  by_cases herr : err = .OK
  · subst herr
    obtain ⟨hlength, room, index, hcases, hlt, hfree, hreach, hfresh, rfl⟩ := add_to_hash_table_ok h hadd
    have hroom : Sound route_hash room log := hcases.sound h
    have hstored := occupants_set hlt hfree (⟨path, method, handler⟩ : HashEntry H)
    refine .stored _ ⟨hroom.probed.insert hreach hfree hfresh, ?_, ?_, ?_, ?_⟩
    · exact hstored.trans ((hroom.stored.cons _).trans (List.perm_append_singleton _ _).symm)
    · dsimp only
      rw [hstored.length_eq, List.length_cons, hroom.count]
    · dsimp only [HashTable.size]
      rw [List.length_set]
      exact hroom.threshold
    · intro e he
      obtain hold | hnew := List.mem_append.mp he
      · exact hroom.paths e hold
      · rw [List.mem_singleton.mp hnew]
        exact hlength
  · refine .rejected err table' herr ?_
    obtain rfl | rfl := add_to_hash_table_rejected herr hadd
    · exact h
    · exact (make_room_cases route_hash alloc table).sound h

end tables

section runs

/-- The tables that registrations lead to, with the routes that were registered.
Paths are not empty, as the callers check. -/
inductive Grown (route_hash : List UInt8 → UInt32) : HashTable H → List (HashEntry H) → Prop where
  | init : Grown route_hash (hash_table_init UVHTTP_ROUTER_HASH_BASE_SIZE) []
  | add {table table' : HashTable H} {log : List (HashEntry H)} {err : UvhttpError} (alloc : Nat → Bool)
      (path : List UInt8) (method : Method) (handler : H) (h : Grown route_hash table log) (hpath : path ≠ [])
      (hadd : add_to_hash_table route_hash alloc table path method handler = some (err, table')) :
      Grown route_hash table' (if err = .OK then log ++ [⟨path, method, handler⟩] else log)

theorem Grown.sound {table : HashTable H} {log : List (HashEntry H)} (h : Grown route_hash table log) :
    Sound route_hash table log := by
  induction h with
  | init => exact sound_init _
  | add alloc path method handler h hpath hadd ih =>
    cases add_to_hash_table_added ih hadd with
    | rejected err table herr hsound =>
      rw [if_neg herr]
      exact hsound
    | stored table hsound =>
      rw [if_pos rfl]
      exact hsound

theorem Sound.chain_mem {table : HashTable H} {log : List (HashEntry H)} (h : Sound route_hash table log)
    {e : HashEntry H} (he : e ∈ log) : e ∈ chain table.entries (probe_order table.size (route_hash e.path)) := by
  obtain ⟨index, hindex⟩ := mem_occupants.mp (h.stored.mem_iff.mpr he)
  exact (h.probed.reach index e hindex).mem_chain hindex

theorem Sound.mem_of_chain {table : HashTable H} {log : List (HashEntry H)} (h : Sound route_hash table log)
    {e : HashEntry H} {order : List Nat} (he : e ∈ chain table.entries order) : e ∈ log := by
  obtain ⟨index, -, hindex⟩ := mem_chain_slot he
  exact h.stored.mem_iff.mp (mem_occupants.mpr ⟨index, hindex⟩)

theorem Sound.distinct {table : HashTable H} {log : List (HashEntry H)} (h : Sound route_hash table log) :
    (log.map fun e => (e.path, e.method)).Nodup :=
  (h.stored.map _).nodup_iff.mp h.probed.distinct

theorem Sound.find_registered {table : HashTable H} {log : List (HashEntry H)} (h : Sound route_hash table log)
    {e : HashEntry H} (he : e ∈ log) (hany : ∀ f ∈ log, f.path = e.path → f.method = .ANY → f = e) :
    find_in_hash_table route_hash table e.path e.method = some e.handler := by
  rw [find_in_hash_table, exact_match_eq]
  have hsome : ((chain table.entries (probe_order table.size (route_hash e.path))).find? fun f =>
      f.path = e.path && serves f.method e.method).isSome = true := by
    rw [List.find?_isSome]
    exact ⟨e, h.chain_mem he, by simp [serves]⟩
  obtain ⟨f, hf⟩ := Option.isSome_iff_exists.mp hsome
  have hmem := h.mem_of_chain (List.mem_of_find?_eq_some hf)
  have hmatch := List.find?_some hf
  simp only [serves, Bool.and_eq_true, Bool.or_eq_true, decide_eq_true_eq] at hmatch
  have hsame : f = e := by
    obtain hfany | hmethod := hmatch.2
    · exact hany f hmem hmatch.1 hfany
    · apply List.inj_on_of_nodup_map h.distinct hmem he
      rw [hmatch.1, hmethod]
  rw [hf, hsame]
  rfl

/-- A registration on a table that is not full stays within it. -/
theorem Sound.add_isSome {table : HashTable H} {log : List (HashEntry H)} (h : Sound route_hash table log)
    (hroom : table.count < table.size) (alloc : Nat → Bool) (path : List UInt8) (method : Method) (handler : H) :
    (add_to_hash_table route_hash alloc table path method handler).isSome = true := by
  have hcases := make_room_cases route_hash alloc table
  have hsound := hcases.sound h
  have hstill : (make_room route_hash alloc table).2.count < (make_room route_hash alloc table).2.size := by
    generalize make_room route_hash alloc table = result at hcases
    cases hcases with
    | kept => exact hroom
    | refused => exact hroom
    | moved hfull hgrow entries hrehash =>
      obtain ⟨-, hlength, -, -⟩ := h.probed.rehash hrehash
      dsimp only [HashTable.size] at hlength ⊢
      rw [hlength]
      exact hroom.trans hgrow
  rw [hsound.count] at hstill
  obtain ⟨free, hlt, hfree⟩ := exists_free hstill
  unfold add_to_hash_table
  dsimp only
  split
  · rfl
  split
  · rfl
  split
  · rename_i hnone
    have hmissed := List.find?_eq_none.mp hnone free (mem_probe_order hlt _)
    rw [slot] at hfree
    rw [hfree] at hmissed
    exact absurd rfl hmissed
  split
  · rfl
  · rfl

/-- A registration of a stored route. -/
theorem Sound.add_duplicate {table : HashTable H} {log : List (HashEntry H)} (h : Sound route_hash table log)
    {e : HashEntry H} (he : e ∈ log) (alloc : Nat → Bool) (handler : H) :
    ∃ err table', add_to_hash_table route_hash alloc table e.path e.method handler = some (err, table') ∧
      (occupants table'.entries).Perm log ∧
      (err = .ALREADY_EXISTS ∨ err = .OUT_OF_MEMORY ∧ table.threshold ≤ table.count ∧
        alloc (min (table.size * 2) UVHTTP_ROUTER_HASH_MAX_SIZE * SIZEOF_HASH_ENTRY) = false) := by
  have hcases := make_room_cases route_hash alloc table
  have hsound := hcases.sound h
  obtain ⟨stored, hstored⟩ := mem_occupants.mp (hsound.stored.mem_iff.mpr he)
  have hslot : ∃ index, find_slot route_hash (make_room route_hash alloc table).2 e.path e.method = some index := by
    rw [← Option.isSome_iff_exists, find_slot, List.find?_isSome]
    refine ⟨stored, mem_probe_order (lt_length_of_slot hstored) _, ?_⟩
    rw [slot] at hstored
    rw [hstored]
    simp
  obtain ⟨index, hindex⟩ := hslot
  have hsame : (((make_room route_hash alloc table).2.entries.getD index none).any fun f =>
      f.path = e.path && f.method = e.method) = true := by
    obtain ⟨-, hfresh⟩ | ⟨f, hf, hpath, hmethod⟩ := find_slot_cases hsound.probed hindex
    · exact absurd rfl (hfresh e (hsound.stored.mem_iff.mpr he))
    · rw [slot] at hf
      rw [hf]
      simp [hpath, hmethod]
  have hadd : ∀ err, (make_room route_hash alloc table).1 = err →
      add_to_hash_table route_hash alloc table e.path e.method handler =
        if err ≠ .OK then some (err, (make_room route_hash alloc table).2)
        else some (.ALREADY_EXISTS, (make_room route_hash alloc table).2) := by
    rintro err rfl
    unfold add_to_hash_table
    rw [if_neg (Nat.not_le.mpr (h.paths e he))]
    dsimp only
    rw [hindex]
    dsimp only
    rw [if_pos hsame]
  generalize make_room route_hash alloc table = result at hcases hsound hadd
  cases hcases with
  | kept =>
    refine ⟨.ALREADY_EXISTS, table, ?_, h.stored, .inl rfl⟩
    rw [hadd .OK rfl, if_neg (by decide)]
  | refused hfull halloc =>
    refine ⟨.OUT_OF_MEMORY, table, ?_, h.stored, .inr ⟨rfl, hfull, halloc⟩⟩
    rw [hadd .OUT_OF_MEMORY rfl, if_pos (by decide)]
  | moved hfull hgrow entries hrehash =>
    refine ⟨.ALREADY_EXISTS, _, ?_, hsound.stored, .inl rfl⟩
    rw [hadd .OK rfl, if_neg (by decide)]

/-- After registrations, also rejected ones, every entry is reached by linear
probing from its hash without crossing a free slot, no route is stored twice, the
count is that of the entries, and these are the routes registered. A registered
route is found with its handler if no other route for every method has its path. A
registration of a stored route changes none of them and returns `ALREADY_EXISTS`,
unless the table has to grow and there is no memory for that. A table that is not
full takes every registration. -/
theorem table_invariant {table : HashTable H} {log : List (HashEntry H)} (h : Grown route_hash table log) :
    (∀ index e, slot table.entries index = some e →
      Reaches table.entries (probe_order table.size (route_hash e.path)) index) ∧
    ((occupants table.entries).map fun e => (e.path, e.method)).Nodup ∧
    table.count = (occupants table.entries).length ∧
    (occupants table.entries).Perm log ∧
    (∀ e ∈ log, (∀ f ∈ log, f.path = e.path → f.method = .ANY → f = e) →
      find_in_hash_table route_hash table e.path e.method = some e.handler) ∧
    (∀ e ∈ log, ∀ alloc handler, ∃ err table',
      add_to_hash_table route_hash alloc table e.path e.method handler = some (err, table') ∧
      (occupants table'.entries).Perm log ∧
      (err = .ALREADY_EXISTS ∨ err = .OUT_OF_MEMORY ∧ table.threshold ≤ table.count ∧
        alloc (min (table.size * 2) UVHTTP_ROUTER_HASH_MAX_SIZE * SIZEOF_HASH_ENTRY) = false)) ∧
    (table.count < table.size → ∀ alloc path method handler,
      (add_to_hash_table route_hash alloc table path method handler).isSome = true) := by
  have hsound := h.sound
  refine ⟨hsound.probed.reach, hsound.probed.distinct, hsound.count, hsound.stored, ?_, ?_, ?_⟩
  · exact fun e he hany => hsound.find_registered he hany
  · exact fun e he alloc handler => hsound.add_duplicate he alloc handler
  · exact fun hroom alloc path method handler => hsound.add_isSome hroom alloc path method handler

/-- Registrations one after the other, `none` when one of them is rejected. -/
def add_all (route_hash : List UInt8 → UInt32) (table : HashTable H) : List (HashEntry H) → Option (HashTable H)
  | [] => some table
  | e :: routes =>
    match add_to_hash_table route_hash (fun _ => true) table e.path e.method e.handler with
    | some (.OK, table) => add_all route_hash table routes
    | _ => none

theorem Grown.add_all {table table' : HashTable H} {log routes : List (HashEntry H)} (h : Grown route_hash table log)
    (hpaths : ∀ e ∈ routes, e.path ≠ []) (hadd : add_all route_hash table routes = some table') :
    Grown route_hash table' (log ++ routes) := by
  induction routes generalizing table log with
  | nil =>
    cases hadd
    rw [List.append_nil]
    exact h
  | cons e routes ih =>
    rw [router_cache.add_all] at hadd
    split at hadd
    · rename_i next hnext
      have hgrown := h.add _ _ _ _ (hpaths e List.mem_cons_self) hnext
      rw [if_pos rfl] at hgrown
      rw [List.append_cons]
      exact ih hgrown (fun f hf => hpaths f (List.mem_cons_of_mem _ hf)) hadd
    · cases hadd

/-- Routes on the paths `/` and one more byte. -/
def short_routes (first count : Nat) : List (HashEntry Bool) :=
  (List.range count).map fun step => ⟨[47, UInt8.ofNat (first + step)], .GET, true⟩

/-- A hash that is the last byte of a short path, counted from `?` on. -/
def last_byte_hash (path : List UInt8) : UInt32 := (path.getLastD 0 - 63).toUInt32

/-- Two routes on one path and a third that collides with them, around the end of
the table. -/
theorem table_invariant_wrapped :
    let routes : List (HashEntry Bool) := [⟨bytes "/a", .GET, true⟩, ⟨bytes "/a", .POST, false⟩, ⟨bytes "/b", .ANY, true⟩]
    ∃ table : HashTable Bool, add_all (fun _ => 255) (hash_table_init UVHTTP_ROUTER_HASH_BASE_SIZE) routes = some table ∧
      slot table.entries 1 = some ⟨bytes "/b", .ANY, true⟩ ∧
      Reaches table.entries (probe_order table.size 255) 1 ∧
      find_in_hash_table (fun _ => 255) table (bytes "/a") .POST = some false := by
  intro routes
  have hcomputed : (add_all (fun _ => 255) (hash_table_init UVHTTP_ROUTER_HASH_BASE_SIZE) routes).any
      (fun table => slot table.entries 1 = some ⟨bytes "/b", .ANY, true⟩) = true := by
    decide +kernel
  simp only [Option.any_eq_true, decide_eq_true_eq] at hcomputed
  obtain ⟨table, htable, hslot⟩ := hcomputed
  obtain ⟨hreach, -, -, -, hfind, -⟩ := table_invariant (Grown.init.add_all (by decide) htable)
  refine ⟨table, htable, hslot, hreach 1 _ hslot, ?_⟩
  exact hfind ⟨bytes "/a", .POST, false⟩ (by decide) (by decide)

/-- A stored route is registered again when the table is at its threshold and the
memory for a larger one is refused. -/
theorem duplicate_out_of_memory :
    ∃ (table : HashTable Bool) (log : List (HashEntry Bool)) (e : HashEntry Bool),
      Grown last_byte_hash table log ∧ table.count < table.size ∧ e ∈ log ∧
      (add_to_hash_table last_byte_hash (fun _ => false) table e.path e.method e.handler).map Prod.fst =
        some .OUT_OF_MEMORY := by
  have hcomputed : (add_all last_byte_hash (hash_table_init UVHTTP_ROUTER_HASH_BASE_SIZE) (short_routes 64 192)).any
      (fun table => table.count < table.size &&
        (add_to_hash_table last_byte_hash (fun _ => false) table [47, 64] .GET true).map Prod.fst =
          some .OUT_OF_MEMORY) = true := by
    decide +kernel
  simp only [Option.any_eq_true, Bool.and_eq_true, decide_eq_true_eq] at hcomputed
  obtain ⟨table, htable, hroom, hrefused⟩ := hcomputed
  refine ⟨table, _, ⟨[47, 64], .GET, true⟩, Grown.init.add_all ?_ htable, hroom, ?_, hrefused⟩
  · intro e he
    obtain ⟨step, -, rfl⟩ := List.mem_map.mp he
    exact List.cons_ne_nil _ _
  · exact List.mem_append_right _ (List.mem_map.mpr ⟨0, by decide, rfl⟩)

end runs

end uvhttp.router_cache
