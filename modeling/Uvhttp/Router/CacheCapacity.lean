import Uvhttp.Router.CacheStability

namespace uvhttp.cache_capacity

open http (Method)
open open_addressing
open router (MAX_ROUTE_PATH_LEN QUESTION_MARK)
open router_cache

variable {H : Type} {route_hash : List UInt8 → UInt32}

/-- The table has its maximum size and no free slot. -/
structure AtCapacity (table : HashTable H) : Prop where
  size : table.size = UVHTTP_ROUTER_HASH_MAX_SIZE
  full : table.count = table.size

/-- The route is in the table. -/
def Stored (table : HashTable H) (path : List UInt8) (method : Method) : Prop :=
  ∃ e ∈ occupants table.entries, e.path = path ∧ e.method = method

section slots

variable {path : List UInt8} {method : Method}

/-- `find_slot` reports a full table only without a free slot and for a new route. -/
theorem find_slot_none_iff {table : HashTable H} {log : List (HashEntry H)} (h : Sound route_hash table log) :
    find_slot route_hash table path method = none ↔ table.count = table.size ∧ ¬Stored table path method := by
  have hcap : (occupants table.entries).length ≤ table.size := List.length_filterMap_le _ _
  constructor
  · intro hnone
    have hstop := List.find?_eq_none.mp hnone
    constructor
    · by_contra hroom
      rw [h.count] at hroom
      obtain ⟨free, hlt, hfree⟩ := exists_free (Nat.lt_of_le_of_ne hcap hroom)
      rw [slot] at hfree
      have hmissed := hstop free (mem_probe_order hlt _)
      rw [hfree] at hmissed
      exact absurd rfl hmissed
    · rintro ⟨e, he, rfl, rfl⟩
      obtain ⟨index, hindex⟩ := mem_occupants.mp he
      rw [slot] at hindex
      have hmissed := hstop index (mem_probe_order (lt_length_of_slot hindex) _)
      rw [hindex] at hmissed
      simp at hmissed
  · rintro ⟨hfull, hnew⟩
    cases hfound : find_slot route_hash table path method with
    | none => rfl
    | some index =>
      have hlt : index < table.entries.length := lt_of_mem_probe_order (List.mem_of_find?_eq_some hfound)
      obtain ⟨hfree, -⟩ | ⟨e, he, hpath, hmethod⟩ := find_slot_cases h.probed hfound
      · have hlength : (occupants table.entries).length = table.entries.length := h.count.symm.trans hfull
        rw [occupants, List.length_filterMap_eq_countP, List.countP_eq_length] at hlength
        have hsome := hlength _ (List.getElem_mem hlt)
        rw [slot, List.getD_eq_getElem?_getD, List.getElem?_eq_getElem hlt] at hfree
        rw [show table.entries[index] = none from hfree] at hsome
        cases hsome
      · exact absurd ⟨e, mem_occupants.mpr ⟨index, he⟩, hpath, hmethod⟩ hnew

end slots

section sizes

/-- The sizes that a table can have. -/
def ValidSize (table : HashTable H) : Prop := 0 < table.size ∧ table.size ≤ UVHTTP_ROUTER_HASH_MAX_SIZE

theorem valid_size_room {alloc : Nat → Bool} {table : HashTable H} {log : List (HashEntry H)}
    (hsound : Sound route_hash table log) (h : ValidSize table) :
    ValidSize (make_room route_hash alloc table).2 := by
  have hcases := make_room_cases route_hash alloc table
  generalize make_room route_hash alloc table = result at hcases
  cases hcases with
  | kept => exact h
  | refused => exact h
  | moved hfull hgrow entries hrehash =>
    obtain ⟨-, hlength, -, -⟩ := hsound.probed.rehash hrehash
    have hsize : ({ table with
        entries, threshold := load_threshold (min (table.size * 2) UVHTTP_ROUTER_HASH_MAX_SIZE) } :
          HashTable H).size = min (table.size * 2) UVHTTP_ROUTER_HASH_MAX_SIZE := hlength
    rw [ValidSize, hsize]
    exact ⟨(Nat.zero_le _).trans_lt hgrow, Nat.min_le_right _ _⟩

theorem valid_size {table : HashTable H} {log : List (HashEntry H)} (h : Grown route_hash table log) :
    ValidSize table := by
  induction h with
  | init =>
    rw [ValidSize, HashTable.size, hash_table_init, List.length_replicate]
    decide
  | @add table table' log err alloc path method handler h hpath hadd ih =>
    by_cases herr : err = .OK
    · subst herr
      obtain ⟨-, room, index, hroom, -, -, -, -, rfl⟩ := add_to_hash_table_ok h.sound hadd
      have hsize : ValidSize room := by
        generalize hresult : (UvhttpError.OK, room) = result at hroom
        cases hroom with
        | kept =>
          cases hresult
          exact ih
        | refused => cases hresult
        | moved hfull hgrow entries hrehash =>
          cases hresult
          obtain ⟨-, hlength, -, -⟩ := h.sound.probed.rehash hrehash
          rw [ValidSize, HashTable.size, hlength]
          exact ⟨(Nat.zero_le _).trans_lt hgrow, Nat.min_le_right _ _⟩
      rw [ValidSize, HashTable.size] at hsize ⊢
      rw [List.length_set]
      exact hsize
    · obtain rfl | rfl := add_to_hash_table_rejected herr hadd
      · exact ih
      · exact valid_size_room h.sound ih

/-- A full table below the maximum size is not used as it is: it is left for lack of
memory, or its entries are moved to a larger one. -/
theorem make_room_grows {alloc : Nat → Bool} {table room : HashTable H} {log : List (HashEntry H)}
    (hsound : Sound route_hash table log) (hsize : ValidSize table) (hfull : table.count = table.size)
    (hsmall : table.size ≠ UVHTTP_ROUTER_HASH_MAX_SIZE)
    (h : make_room route_hash alloc table = (.OK, room)) : room.count < room.size := by
  have hthreshold : table.threshold ≤ table.count := by
    rw [hsound.threshold, hfull, load_threshold]
    omega
  have hgrow : table.size < min (table.size * 2) UVHTTP_ROUTER_HASH_MAX_SIZE := by
    have hmax := hsize.2
    have hpos := hsize.1
    omega
  have hresized : make_room route_hash alloc table =
      hash_table_resize route_hash alloc table (min (table.size * 2) UVHTTP_ROUTER_HASH_MAX_SIZE) := by
    rw [make_room, if_pos hthreshold]
    exact if_pos hgrow
  have hvalid : ¬ (min (table.size * 2) UVHTTP_ROUTER_HASH_MAX_SIZE = 0 ∨
      min (table.size * 2) UVHTTP_ROUTER_HASH_MAX_SIZE > UVHTTP_ROUTER_HASH_MAX_SIZE) := by
    rintro (hzero | hlarge)
    · omega
    · exact hlarge.not_ge (Nat.min_le_right _ _)
  rw [hresized, hash_table_resize, if_neg hvalid] at h
  split at h
  · cases h
  · split at h
    · cases h
    · rename_i entries hrehash
      cases h
      obtain ⟨-, hlength, -, -⟩ := hsound.probed.rehash hrehash
      have hlarger : table.size < entries.length := hlength.symm ▸ hgrow
      exact hfull.trans_lt hlarger

/-- A full table at the maximum size is used as it is. -/
theorem make_room_at_capacity {alloc : Nat → Bool} {table : HashTable H} (h : AtCapacity table) :
    make_room route_hash alloc table = (.OK, table) := by
  have hstays : ¬ min (table.size * 2) UVHTTP_ROUTER_HASH_MAX_SIZE > table.size := by
    rw [h.size]
    decide
  rw [make_room]
  split
  · exact if_neg hstays
  · rfl

end sizes

section insertion

variable {alloc : Nat → Bool} {table : HashTable H} {log : List (HashEntry H)} {path : List UInt8} {method : Method}
  {handler : H}

/-- An insertion leaves the table only at its capacity and for a new route. -/
theorem add_to_hash_table_none_iff (h : Grown route_hash table log) (hlength : path.length < MAX_ROUTE_PATH_LEN) :
    add_to_hash_table route_hash alloc table path method handler = none ↔
      AtCapacity table ∧ ¬Stored table path method := by
  have hsound := h.sound
  have hadd : ∀ {room : HashTable H}, make_room route_hash alloc table = (.OK, room) →
      (add_to_hash_table route_hash alloc table path method handler = none ↔
        find_slot route_hash room path method = none) := by
    intro room hroom
    rw [add_to_hash_table, if_neg (Nat.not_le.mpr hlength)]
    dsimp only
    rw [hroom, if_neg (not_not.mpr rfl)]
    cases find_slot route_hash room path method with
    | none => simp
    | some index =>
      dsimp only
      split
      · simp
      · simp
  by_cases hcapacity : AtCapacity table
  · rw [hadd (make_room_at_capacity hcapacity), find_slot_none_iff hsound]
    exact and_congr_left' ⟨fun _ => hcapacity, fun _ => hcapacity.full⟩
  · simp only [hcapacity, false_and, iff_false]
    intro hnone
    by_cases hfull : table.count = table.size
    · have hsmall : table.size ≠ UVHTTP_ROUTER_HASH_MAX_SIZE := fun hsize => hcapacity ⟨hsize, hfull⟩
      have hroom : (make_room route_hash alloc table).1 = .OK := by
        by_contra herr
        rw [add_to_hash_table, if_neg (Nat.not_le.mpr hlength)] at hnone
        dsimp only at hnone
        rw [if_pos herr] at hnone
        cases hnone
      have hresult : make_room route_hash alloc table = (.OK, (make_room route_hash alloc table).2) :=
        Prod.ext hroom rfl
      have hless := make_room_grows hsound (valid_size h) hfull hsmall hresult
      have hstill : Sound route_hash (make_room route_hash alloc table).2 log :=
        (make_room_cases route_hash alloc table).sound hsound
      exact hless.ne ((find_slot_none_iff hstill).mp ((hadd hresult).mp hnone)).1
    · have hcap : table.count ≤ table.size := by
        rw [hsound.count]
        exact List.length_filterMap_le _ _
      have hsome := hsound.add_isSome (Nat.lt_of_le_of_ne hcap hfull) alloc path method handler
      rw [hnone] at hsome
      cases hsome

/-- With memory, a new route is stored in any table that is not at its capacity. -/
theorem add_new_route (h : Grown route_hash table log) (hlength : path.length < MAX_ROUTE_PATH_LEN)
    (hcapacity : ¬AtCapacity table) (hnew : ∀ e ∈ log, (e.path, e.method) ≠ (path, method)) (handler : H) :
    ∃ table', add_to_hash_table route_hash (fun _ => true) table path method handler = some (.OK, table') := by
  have hsome : add_to_hash_table route_hash (fun _ => true) table path method handler ≠ none := by
    rw [ne_eq, add_to_hash_table_none_iff h hlength]
    exact fun hover => hcapacity hover.1
  obtain ⟨⟨err, table'⟩, hadd⟩ := Option.ne_none_iff_exists'.mp hsome
  by_cases herr : err = .OK
  · rw [herr] at hadd
    exact ⟨table', hadd⟩
  have hcases := make_room_cases route_hash (fun _ => true) table
  have hroom := hcases.sound h.sound
  rw [add_to_hash_table, if_neg (Nat.not_le.mpr hlength)] at hadd
  dsimp only at hadd
  generalize make_room route_hash (fun _ => true) table = result at hcases hroom hadd
  obtain ⟨code, room⟩ := result
  have hok : code = .OK := by
    cases hcases with
    | kept => rfl
    | refused hfull halloc => cases halloc
    | moved hfull hgrow entries hrehash => rfl
  subst hok
  rw [if_neg (not_not.mpr rfl)] at hadd
  split at hadd
  · cases hadd
  rename_i index hindex
  split at hadd
  · rename_i hsame
    obtain ⟨hfree, -⟩ | ⟨e, he, hpath, hmethod⟩ := find_slot_cases hroom.probed hindex
    · rw [slot] at hfree
      rw [hfree] at hsame
      cases hsame
    · refine absurd ?_ (hnew e (hroom.stored.mem_iff.mp (mem_occupants.mpr ⟨index, he⟩)))
      rw [hpath, hmethod]
  · cases hadd
    exact absurd rfl herr

end insertion

/-- A path that `uvhttp_router_add_route_method` does not reject. -/
structure ValidPath (path : List UInt8) : Prop where
  not_empty : path ≠ []
  length : path.length < MAX_ROUTE_PATH_LEN
  no_query : QUESTION_MARK ∉ path

/-- A registration stays within the table: what it stores is in a slot of it, and at the
capacity of the table a new route is refused with the router as it was. -/
structure StaysInBounds (cr : CacheRouter H) (path : List UInt8) (method : Method) (handler : H)
    (result : Option (UvhttpError × CacheRouter H)) : Prop where
  defined : result.isSome = true
  slot : ∀ cr', result = some (.OK, cr') → ∃ index < cr'.hash_table.size,
    slot cr'.hash_table.entries index = some ⟨path, method, handler⟩
  refused : AtCapacity cr.hash_table → ¬Stored cr.hash_table path method →
    ∃ err, err ≠ .OK ∧ result = some (err, cr)

section calls

variable {alloc : Nat → Bool} {cr : CacheRouter H} {path : List UInt8} {method : Method} {handler : H}

theorem add_route_method_valid (hpath : ValidPath path) :
    uvhttp_router_add_route_method route_hash alloc cr path method (some handler) =
      (add_to_hash_table route_hash alloc cr.hash_table path method handler).map fun result =>
        if result.1 ≠ .OK then (result.1, { cr with hash_table := result.2 })
        else (.OK, track_route { cr with hash_table := result.2 } path) := by
  have hlength : path.length ≠ 0 := fun hzero => hpath.not_empty (List.length_eq_zero_iff.mp hzero)
  rw [uvhttp_router_add_route_method, if_neg hlength, if_neg (Nat.not_le.mpr hpath.length), if_neg hpath.no_query]
  cases add_to_hash_table route_hash alloc cr.hash_table path method handler with
  | none => rfl
  | some result =>
    dsimp only [Option.map_some]
    split
    · rfl
    · rfl

theorem stored_slot {cr' : CacheRouter H} {log : List (HashEntry H)} (h : Grown route_hash cr.hash_table log)
    (hadd : uvhttp_router_add_route_method route_hash alloc cr path method (some handler) = some (.OK, cr')) :
    ∃ index < cr'.hash_table.size, slot cr'.hash_table.entries index = some ⟨path, method, handler⟩ := by
  obtain ⟨herr, -⟩ | ⟨_, hhandler, -, -, htable, -⟩ := add_route_method_cases hadd
  · exact absurd rfl herr
  cases hhandler
  obtain ⟨-, room, index, -, hlt, -, -, -, hstored⟩ := add_to_hash_table_ok h.sound htable
  rw [hstored]
  refine ⟨index, ?_, slot_set_self hlt⟩
  dsimp only [HashTable.size]
  rw [List.length_set]
  exact hlt

end calls

/-- When a registration stays within the table of a router. -/
theorem insertion_in_bounds_iff {cr : CacheRouter H} (h : Reachable route_hash cr) (alloc : Nat → Bool)
    {path : List UInt8} (hpath : ValidPath path) (method : Method) (handler : H) :
    StaysInBounds cr path method handler
        (uvhttp_router_add_route_method route_hash alloc cr path method (some handler)) ↔
      ¬(AtCapacity cr.hash_table ∧ ¬Stored cr.hash_table path method) := by
  obtain ⟨log, hlog⟩ := h.grown
  have hnone : uvhttp_router_add_route_method route_hash alloc cr path method (some handler) = none ↔
      AtCapacity cr.hash_table ∧ ¬Stored cr.hash_table path method := by
    rw [add_route_method_valid hpath, Option.map_eq_none_iff]
    exact add_to_hash_table_none_iff hlog hpath.length
  rw [← hnone, ← ne_eq, ← Option.isSome_iff_ne_none]
  constructor
  · exact fun hbounds => hbounds.defined
  · intro hdefined
    refine ⟨hdefined, fun cr' hadd => stored_slot hlog hadd, fun hcapacity hnew => ?_⟩
    rw [hnone.mpr ⟨hcapacity, hnew⟩] at hdefined
    cases hdefined

section filling

/-- Different routes, as many as the largest table has slots, are all registered. -/
theorem register_all_grown {routes log : List (HashEntry H)} {cr : CacheRouter H}
    (h : Grown route_hash cr.hash_table log) (hroom : log.length + routes.length ≤ UVHTTP_ROUTER_HASH_MAX_SIZE)
    (hpaths : ∀ e ∈ routes, ValidPath e.path)
    (hdistinct : ((log ++ routes).map fun e => (e.path, e.method)).Nodup) :
    ∃ cr', register_all route_hash cr routes = some cr' ∧ Grown route_hash cr'.hash_table (log ++ routes) := by
  induction routes generalizing log cr with
  | nil =>
    rw [List.append_nil]
    exact ⟨cr, rfl, h⟩
  | cons e routes ih =>
    obtain ⟨hpath, hrest⟩ := List.forall_mem_cons.mp hpaths
    rw [List.length_cons] at hroom
    have hcapacity : ¬AtCapacity cr.hash_table := by
      intro hcapacity
      have hcount := hcapacity.full.trans hcapacity.size
      rw [h.sound.count, h.sound.stored.length_eq] at hcount
      omega
    have hnew : ∀ f ∈ log, (f.path, f.method) ≠ (e.path, e.method) := by
      rw [List.map_append, List.nodup_append] at hdistinct
      exact fun f hf => hdistinct.2.2 _ (List.mem_map_of_mem hf) _ List.mem_cons_self
    obtain ⟨table, hadd⟩ := add_new_route h hpath.length hcapacity hnew e.handler
    have hcall := @add_route_method_valid H route_hash (fun _ => true) cr e.path e.method e.handler hpath
    rw [hadd, Option.map_some, if_neg (not_not.mpr rfl)] at hcall
    have hgrown := h.add (fun _ => true) e.path e.method e.handler hpath.not_empty hadd
    rw [if_pos rfl] at hgrown
    have hnext : Grown route_hash (track_route { cr with hash_table := table } e.path).hash_table (log ++ [e]) := by
      rw [track_route_hash_table]
      exact hgrown
    rw [List.append_cons] at hdistinct ⊢
    rw [register_all, hcall]
    refine ih hnext ?_ hrest hdistinct
    rw [List.length_append, List.length_singleton]
    omega

variable (route_hash) in
/-- As many different routes as the maximum size fill a new router. -/
theorem register_all_full {routes : List (HashEntry H)} (hlength : routes.length = UVHTTP_ROUTER_HASH_MAX_SIZE)
    (hpaths : ∀ e ∈ routes, ValidPath e.path) (hdistinct : (routes.map fun e => (e.path, e.method)).Nodup) :
    ∃ cr : CacheRouter H, Reachable route_hash cr ∧ Grown route_hash cr.hash_table routes ∧
      AtCapacity cr.hash_table := by
  obtain ⟨cr, hregistered, hgrown⟩ := @register_all_grown H route_hash routes [] uvhttp_router_new .init
    ((Nat.zero_add _).trans hlength).le hpaths hdistinct
  rw [List.nil_append] at hgrown
  have hcount : cr.hash_table.count = UVHTTP_ROUTER_HASH_MAX_SIZE := by
    rw [hgrown.sound.count, hgrown.sound.stored.length_eq, hlength]
  have hcap : cr.hash_table.count ≤ cr.hash_table.size := by
    rw [hgrown.sound.count]
    exact List.length_filterMap_le _ _
  have hsize : cr.hash_table.size = UVHTTP_ROUTER_HASH_MAX_SIZE :=
    Nat.le_antisymm (valid_size hgrown).2 (hcount.symm.trans_le hcap)
  exact ⟨cr, Reachable.new.register_all hregistered, hgrown, hsize, hcount.trans hsize.symm⟩

/-- A path of its own for each number below the maximum size. -/
def numbered_path (i : Nat) : List UInt8 := [47, UInt8.ofNat (128 + i / 64), UInt8.ofNat (128 + i % 64)]

def numbered_routes : List (HashEntry Unit) :=
  (List.range UVHTTP_ROUTER_HASH_MAX_SIZE).map fun i => ⟨numbered_path i, .GET, ()⟩

theorem high_byte_toNat {i : Nat} (h : i < 128) : (UInt8.ofNat (128 + i)).toNat = 128 + i := by
  rw [UInt8.toNat_ofNat', Nat.mod_eq_of_lt (by omega)]

theorem numbered_path_injective {i j : Nat} (hi : i < UVHTTP_ROUTER_HASH_MAX_SIZE)
    (hj : j < UVHTTP_ROUTER_HASH_MAX_SIZE) (h : numbered_path i = numbered_path j) : i = j := by
  rw [UVHTTP_ROUTER_HASH_MAX_SIZE] at hi hj
  rw [numbered_path, numbered_path] at h
  obtain ⟨-, htail⟩ := List.cons.inj h
  obtain ⟨hhigh, htail⟩ := List.cons.inj htail
  obtain ⟨hlow, -⟩ := List.cons.inj htail
  have hhigh := congrArg UInt8.toNat hhigh
  have hlow := congrArg UInt8.toNat hlow
  rw [high_byte_toNat (by omega), high_byte_toNat (by omega)] at hhigh hlow
  omega

theorem numbered_path_valid {i : Nat} (hi : i < UVHTTP_ROUTER_HASH_MAX_SIZE) : ValidPath (numbered_path i) := by
  rw [UVHTTP_ROUTER_HASH_MAX_SIZE] at hi
  refine ⟨List.cons_ne_nil _ _, (by decide : 3 < MAX_ROUTE_PATH_LEN), ?_⟩
  have hquestion : ∀ {k : Nat}, k < 128 → QUESTION_MARK ≠ UInt8.ofNat (128 + k) := by
    intro k hk hsame
    have hnumber := congrArg UInt8.toNat hsame
    rw [high_byte_toNat hk, show QUESTION_MARK.toNat = 63 from rfl] at hnumber
    omega
  rw [numbered_path, List.mem_cons, List.mem_cons, List.mem_singleton]
  rintro (hslash | hhigh | hlow)
  · cases hslash
  · exact hquestion (by omega) hhigh
  · exact hquestion (by omega) hlow

theorem numbered_routes_distinct : (numbered_routes.map fun e => (e.path, e.method)).Nodup := by
  rw [numbered_routes, List.map_map]
  refine List.Nodup.map_on ?_ List.nodup_range
  intro i hi j hj hsame
  exact numbered_path_injective (List.mem_range.mp hi) (List.mem_range.mp hj) (Prod.mk.inj hsame).1

theorem numbered_routes_valid : ∀ e ∈ numbered_routes, ValidPath e.path := by
  intro e he
  obtain ⟨i, hi, rfl⟩ := List.mem_map.mp he
  exact numbered_path_valid (List.mem_range.mp hi)

theorem numbered_routes_length : numbered_routes.length = UVHTTP_ROUTER_HASH_MAX_SIZE := by
  rw [numbered_routes, List.length_map, List.length_range]

/-- Routes that all have the same hash: with 192 of them the table grows for the next, and
when 4096 fill it, one of them can still be registered again. -/
theorem insertion_in_bounds_filled :
    (∃ cr : CacheRouter Unit, Reachable (fun _ => 0) cr ∧ cr.hash_table.count = 192 ∧
      StaysInBounds cr (bytes "/a") .GET ()
        (uvhttp_router_add_route_method (fun _ => 0) (fun _ => true) cr (bytes "/a") .GET (some ()))) ∧
    ∃ cr : CacheRouter Unit, Reachable (fun _ => 0) cr ∧ AtCapacity cr.hash_table ∧
      StaysInBounds cr (numbered_path 1) .GET ()
        (uvhttp_router_add_route_method (fun _ => 0) (fun _ => true) cr (numbered_path 1) .GET (some ())) := by
  constructor
  · have hlength : (numbered_routes.take 192).length = 192 := by
      rw [List.length_take, numbered_routes_length]
      rfl
    have hroom : ([] : List (HashEntry Unit)).length + (numbered_routes.take 192).length ≤
        UVHTTP_ROUTER_HASH_MAX_SIZE := by
      rw [hlength]
      decide
    have hdistinct : (([] ++ numbered_routes.take 192).map fun e : HashEntry Unit => (e.path, e.method)).Nodup := by
      rw [List.nil_append]
      exact numbered_routes_distinct.sublist ((List.take_sublist 192 numbered_routes).map _)
    obtain ⟨cr, hregistered, hgrown⟩ := @register_all_grown Unit (fun _ => 0) (numbered_routes.take 192) []
      uvhttp_router_new .init hroom (fun e he => numbered_routes_valid e (List.mem_of_mem_take he)) hdistinct
    have hcount : cr.hash_table.count = 192 := by
      rw [hgrown.sound.count, hgrown.sound.stored.length_eq, List.nil_append, hlength]
    have hreached : Reachable (fun _ => 0) cr := Reachable.new.register_all hregistered
    refine ⟨cr, hreached, hcount, ?_⟩
    apply (insertion_in_bounds_iff hreached (fun _ => true) ⟨by decide, by decide, by decide⟩ .GET ()).mpr
    rintro ⟨hcapacity, -⟩
    have hfull := hcapacity.full.trans hcapacity.size
    rw [hcount] at hfull
    exact absurd hfull (by decide)
  · obtain ⟨cr, hreached, hgrown, hcapacity⟩ :=
      register_all_full (fun _ => 0) numbered_routes_length numbered_routes_valid numbered_routes_distinct
    refine ⟨cr, hreached, hcapacity, ?_⟩
    apply (insertion_in_bounds_iff hreached (fun _ => true) (numbered_path_valid (by decide)) .GET ()).mpr
    rintro ⟨-, hnew⟩
    have hroute : ⟨numbered_path 1, .GET, ()⟩ ∈ numbered_routes :=
      List.mem_map.mpr ⟨1, List.mem_range.mpr (by decide), rfl⟩
    exact hnew ⟨_, hgrown.sound.stored.mem_iff.mpr hroute, rfl, rfl⟩

/-- With 4096 routes in the table, the next one is written beyond it. -/
theorem insertion_out_of_bounds :
    ∃ cr : CacheRouter Unit, Reachable (fun _ => 0) cr ∧ ValidPath (bytes "/a") ∧
      ¬StaysInBounds cr (bytes "/a") .GET ()
        (uvhttp_router_add_route_method (fun _ => 0) (fun _ => true) cr (bytes "/a") .GET (some ())) := by
  have hpath : ValidPath (bytes "/a") := ⟨by decide, by decide, by decide⟩
  obtain ⟨cr, hreachable, hgrown, hcapacity⟩ :=
    register_all_full (fun _ => 0) numbered_routes_length numbered_routes_valid numbered_routes_distinct
  have hnew : ¬Stored cr.hash_table (bytes "/a") .GET := by
    rintro ⟨e, he, hsame, -⟩
    obtain ⟨i, -, rfl⟩ := List.mem_map.mp (hgrown.sound.stored.mem_iff.mp he)
    have hthree : 3 = (bytes "/a").length := congrArg List.length hsame
    cases hthree
  refine ⟨cr, hreachable, hpath, fun hbounds => ?_⟩
  have hnone := (@add_to_hash_table_none_iff Unit (fun _ => 0) (fun _ => true) _ _ _ .GET () hgrown hpath.length).mpr
    ⟨hcapacity, hnew⟩
  have hdefined := hbounds.defined
  rw [add_route_method_valid hpath, hnone] at hdefined
  cases hdefined

end filling

end uvhttp.cache_capacity
