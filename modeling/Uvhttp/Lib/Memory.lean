import Mathlib.Tactic

/-! A block of memory as a list: loads, stores and moves that check a limit. -/

namespace memory

variable {α : Type} {limit offset count : Nat} {mem mem' data : List α}

/-- The elements from `offset` on, all of them below `limit`. -/
def load (limit : Nat) (mem : List α) (offset count : Nat) : Option (List α) :=
  if offset + count ≤ limit then some ((mem.drop offset).take count) else none

/-- The write of `data` from `offset` on, all of it below `limit`. -/
def store (limit : Nat) (mem : List α) (offset : Nat) (data : List α) : Option (List α) :=
  if offset + data.length ≤ limit then some (mem.take offset ++ data ++ mem.drop (offset + data.length)) else none

/-- The elements from `source` on, written from `offset` on. -/
def move (limit : Nat) (mem : List α) (offset source count : Nat) : Option (List α) :=
  (load limit mem source count).bind (store limit mem offset)

theorem load_eq (h : offset + count ≤ limit) : load limit mem offset count = some ((mem.drop offset).take count) :=
  if_pos h

theorem store_eq (h : offset + data.length ≤ limit) :
    store limit mem offset data = some (mem.take offset ++ data ++ mem.drop (offset + data.length)) :=
  if_pos h

theorem length_load (hlimit : limit ≤ mem.length) (h : load limit mem offset count = some data) :
    data.length = count := by
  rw [load] at h
  split at h
  · rw [← Option.some.inj h, List.length_take, List.length_drop]
    omega
  · cases h

theorem length_store (hlimit : limit ≤ mem.length) (h : store limit mem offset data = some mem') :
    mem'.length = mem.length := by
  rw [store] at h
  split at h
  · rw [← Option.some.inj h, List.length_append, List.length_append, List.length_take, List.length_drop]
    omega
  · cases h

/-- What stands before a write stays, and the data follows it. -/
theorem take_store (hlimit : limit ≤ mem.length) (h : store limit mem offset data = some mem') :
    mem'.take (offset + data.length) = mem.take offset ++ data := by
  rw [store] at h
  split at h
  · have hlength : (mem.take offset ++ data).length = offset + data.length := by
      rw [List.length_append, List.length_take]
      omega
    rw [← Option.some.inj h, ← hlength]
    exact List.take_left
  · cases h

/-- A write changes what stands below the limit, and nothing above it. -/
theorem store_below (hlimit : limit ≤ mem.length) (h : store limit mem offset data = some mem') :
    mem'.take limit = (mem.take limit).take offset ++ data ++ (mem.take limit).drop (offset + data.length) ∧
      mem'.drop limit = mem.drop limit := by
  rw [store] at h
  split at h
  · rename_i hfits
    have hwritten : (mem.take offset ++ data).length = offset + data.length := by
      rw [List.length_append, List.length_take]
      omega
    have hsplit : mem.drop (offset + data.length) =
        (mem.take limit).drop (offset + data.length) ++ mem.drop limit := by
      rw [← List.drop_append_of_le_length (by rw [List.length_take]; omega), List.take_append_drop]
    have hbelow : (mem.take offset ++ data ++ (mem.take limit).drop (offset + data.length)).length = limit := by
      rw [List.length_append, hwritten, List.length_drop, List.length_take]
      omega
    have htake : (mem.take limit).take offset = mem.take offset := by
      rw [List.take_take, Nat.min_eq_left (by omega)]
    rw [← Option.some.inj h, hsplit, ← List.append_assoc, htake]
    exact ⟨List.take_left' hbelow, List.drop_left' hbelow⟩
  · cases h

/-- A block that is filled from the front takes what follows. -/
theorem store_behind {text : List α} (h : text.length + data.length ≤ mem.length) :
    store (text ++ mem.drop text.length).length (text ++ mem.drop text.length) text.length data =
      some (text ++ data ++ mem.drop (text ++ data).length) := by
  have hlength : (text ++ mem.drop text.length).length = mem.length := by
    rw [List.length_append, List.length_drop]
    omega
  have hrest : (text ++ mem.drop text.length).drop (text.length + data.length) =
      mem.drop (text.length + data.length) := by
    rw [← List.drop_drop, List.drop_left, List.drop_drop]
  rw [store_eq (by omega), List.take_left, hrest, List.length_append]

/-- A move to the front of a block. -/
theorem move_front {source : Nat} (hlimit : limit ≤ mem.length) (h : source + count ≤ limit) :
    ∃ mem', move limit mem 0 source count = some mem' ∧ mem'.length = mem.length ∧
      mem'.take count = (mem.drop source).take count := by
  have hload : load limit mem source count = some ((mem.drop source).take count) := load_eq h
  have hcount := length_load hlimit hload
  obtain ⟨mem', hstore⟩ : ∃ mem', store limit mem 0 ((mem.drop source).take count) = some mem' :=
    ⟨_, store_eq (by omega)⟩
  have htake := take_store hlimit hstore
  rw [hcount, Nat.zero_add] at htake
  refine ⟨mem', ?_, length_store hlimit hstore, htake⟩
  rw [move, hload]
  exact hstore

/-- A move onto itself. -/
theorem move_self (hlimit : limit ≤ mem.length) (h : offset + count ≤ limit) :
    move limit mem offset offset count = some mem := by
  have hload : load limit mem offset count = some ((mem.drop offset).take count) := load_eq h
  have hcount := length_load hlimit hload
  rw [move, hload, Option.bind_some, store_eq (by omega), hcount, List.append_assoc, ← List.drop_drop,
    List.take_append_drop, List.take_append_drop]

end memory
