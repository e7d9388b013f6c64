import Uvhttp.Http.HeaderStore

namespace uvhttp.header_store

open http string_block

/-- Where the header of an index is stored. -/
def slot (index : Nat) : HeaderPointer :=
  if index < UVHTTP_INLINE_HEADERS_CAPACITY then ⟨false, index⟩ else ⟨true, index - UVHTTP_INLINE_HEADERS_CAPACITY⟩

/-- The bytes of a slot. -/
def HeaderStore.slot_bytes (s : HeaderStore) (index : Nat) : List UInt8 :=
  part (s.array (slot index).extra) (slot index).name_offset SIZEOF_HEADER

/-- The two fields of a slot hold these strings, each with its terminator. -/
structure HeaderStore.Holds (s : HeaderStore) (index : Nat) (header : Header) : Prop where
  name : string 0 (part (s.slot_bytes index) 0 UVHTTP_HEADER_NAME_BUFFER_SIZE) = some header.name
  value : string 0 (part (s.slot_bytes index) UVHTTP_HEADER_NAME_BUFFER_SIZE UVHTTP_HEADER_VALUE_BUFFER_SIZE) =
    some header.value

/-- What the two arrays always are: 32 inline slots, and as many more in the
dynamic array once the capacity says so. -/
structure HeaderStore.WellFormed (s : HeaderStore) : Prop where
  inline_array : s.headers.length = UVHTTP_INLINE_HEADERS_CAPACITY * SIZEOF_HEADER
  count : s.header_count ≤ s.headers_capacity
  capacity : s.headers_capacity = UVHTTP_INLINE_HEADERS_CAPACITY ∧ s.headers_extra = .null ∨
    s.headers_capacity = UVHTTP_MAX_HEADERS ∧
      ∃ bytes, s.headers_extra = .allocated bytes ∧ bytes.length = UVHTTP_INLINE_HEADERS_CAPACITY * SIZEOF_HEADER

/-- A header finds room: in the arrays as they are, or in the dynamic array that
is allocated for it. -/
def HeaderStore.HasRoom (alloc : Nat → Bool) (s : HeaderStore) : Prop :=
  s.header_count < s.headers_capacity ∨
    s.headers_capacity = UVHTTP_INLINE_HEADERS_CAPACITY ∧
      alloc (UVHTTP_INLINE_HEADERS_CAPACITY * SIZEOF_HEADER) = true

theorem wellFormed_init : header_store_init.WellFormed :=
  ⟨List.length_replicate, Nat.zero_le _, .inl ⟨rfl, rfl⟩⟩

variable {s s' : HeaderStore}

theorem HeaderStore.WellFormed.count_le (h : s.WellFormed) : s.header_count ≤ UVHTTP_MAX_HEADERS := by
  have hcount := h.count
  unfold UVHTTP_MAX_HEADERS
  rcases h.capacity with ⟨hcapacity, -⟩ | ⟨hcapacity, -⟩
  · rw [hcapacity] at hcount
    unfold UVHTTP_INLINE_HEADERS_CAPACITY at hcount
    omega
  · rw [hcapacity] at hcount
    exact hcount

/-- Each array has as many slots as the capacity says. -/
theorem HeaderStore.WellFormed.slot_le (h : s.WellFormed) {index : Nat} (hindex : index < s.headers_capacity) :
    (slot index).name_offset + SIZEOF_HEADER ≤ (s.array (slot index).extra).length := by
  unfold slot HeaderPointer.name_offset HeaderStore.array
  split
  · rename_i hinline
    simp only [Bool.false_eq_true, if_false]
    rw [h.inline_array]
    unfold UVHTTP_INLINE_HEADERS_CAPACITY SIZEOF_HEADER at *
    unfold UVHTTP_HEADER_NAME_BUFFER_SIZE UVHTTP_HEADER_VALUE_BUFFER_SIZE
    omega
  · rename_i hextra
    rcases h.capacity with ⟨hcapacity, -⟩ | ⟨hcapacity, bytes, hbytes, hlength⟩
    · exact absurd (hcapacity ▸ hindex) hextra
    · simp only [if_true, hbytes]
      rw [hlength]
      rw [hcapacity] at hindex
      unfold UVHTTP_INLINE_HEADERS_CAPACITY SIZEOF_HEADER UVHTTP_MAX_HEADERS at *
      unfold UVHTTP_HEADER_NAME_BUFFER_SIZE UVHTTP_HEADER_VALUE_BUFFER_SIZE
      omega

/-- Within the capacity, the pointer to a header is that to its slot. -/
theorem HeaderStore.WellFormed.get_header_at (h : s.WellFormed) {index : Nat} (hindex : index < s.headers_capacity) :
    uvhttp_request_get_header_at s index = some (slot index) := by
  unfold uvhttp_request_get_header_at slot
  rw [if_neg (Nat.not_le.mpr hindex)]
  split
  · rfl
  · rename_i hextra
    rcases h.capacity with ⟨hcapacity, -⟩ | ⟨-, bytes, hbytes, -⟩
    · exact absurd (hcapacity ▸ hindex) hextra
    · rw [hbytes, if_pos (by simp)]

theorem HeaderStore.WellFormed.next_header (h : s.WellFormed) (hroom : s.header_count < s.headers_capacity) :
    next_header s = some (slot s.header_count) := by
  unfold header_store.next_header slot
  split
  · rfl
  · rename_i hextra
    rcases h.capacity with ⟨hcapacity, -⟩ | ⟨-, bytes, hbytes, -⟩
    · exact absurd (hcapacity ▸ hroom) hextra
    · rw [hbytes, if_neg (by simp)]

theorem HeaderPointer.value_offset_eq (p : HeaderPointer) :
    p.value_offset = p.name_offset + UVHTTP_HEADER_NAME_BUFFER_SIZE := by
  rw [value_offset, name_offset]

/-- Strings that end within their fields are what is read through the pointer. -/
theorem HeaderStore.Holds.read {index : Nat} {header : Header} (h : s.Holds index header) :
    s.read (slot index) = some header := by
  obtain ⟨hname, hvalue⟩ := h
  unfold HeaderStore.slot_bytes at hname hvalue
  rw [part_part _ _ _ _ (by decide)] at hname hvalue
  rw [Nat.add_zero] at hname
  rw [HeaderStore.read, string_part hname, HeaderPointer.value_offset_eq, string_part hvalue]
  rfl

/-- What a slot holds depends on its bytes only. -/
theorem HeaderStore.Holds.congr {index : Nat} {header : Header} (h : s.Holds index header)
    (hsame : s'.slot_bytes index = s.slot_bytes index) : s'.Holds index header := by
  obtain ⟨hname, hvalue⟩ := h
  exact ⟨by rw [hsame, hname], by rw [hsame, hvalue]⟩

section fill

variable {extra : Bool} {offset index : Nat} {data : List UInt8}

/-- A write changes one array, and not its size. -/
theorem HeaderStore.WellFormed.write (h : s.WellFormed) (hdata : data ≠ [])
    (hwrite : s.write extra offset data = some s') :
    s'.WellFormed ∧ s'.header_count = s.header_count ∧ s'.headers_capacity = s.headers_capacity ∧
      string_block.write (s.array extra) offset data = some (s'.array extra) ∧
      s'.array (!extra) = s.array (!extra) := by
  obtain ⟨bytes, hbytes, rfl⟩ := Option.map_eq_some_iff.mp hwrite
  have hlength := length_write hbytes
  cases extra with
  | false =>
    refine ⟨⟨?_, h.count, h.capacity⟩, rfl, rfl, hbytes, rfl⟩
    rw [← h.inline_array]
    exact hlength
  | true =>
    refine ⟨⟨h.inline_array, h.count, ?_⟩, rfl, rfl, hbytes, rfl⟩
    rcases h.capacity with ⟨-, hnull⟩ | ⟨hcapacity, old, hold, hsize⟩
    · have hfits := (write_eq hbytes).1
      rw [show s.array true = [] by simp [HeaderStore.array, hnull], List.length_nil] at hfits
      exact absurd (List.length_eq_zero_iff.mp (by omega)) hdata
    · refine .inr ⟨hcapacity, bytes, rfl, ?_⟩
      rw [hlength, ← hsize]
      simp [HeaderStore.array, hold]

/-- A write behind a slot leaves the slot as it is. -/
theorem HeaderStore.WellFormed.write_behind (h : s.WellFormed) (hdata : data ≠ [])
    (hwrite : s.write (slot index).extra offset data = some s') (hoffset : (slot index).name_offset ≤ offset)
    {earlier : Nat} (hearlier : earlier < index) : s'.slot_bytes earlier = s.slot_bytes earlier := by
  obtain ⟨-, -, -, hbytes, hother⟩ := h.write hdata hwrite
  unfold HeaderStore.slot_bytes
  by_cases hsame : (slot earlier).extra = (slot index).extra
  · rw [hsame]
    refine part_write_other hbytes (.inl (Nat.le_trans ?_ hoffset))
    have hindex : (slot earlier).index + 1 ≤ (slot index).index := by
      unfold slot at hsame ⊢
      unfold UVHTTP_INLINE_HEADERS_CAPACITY at *
      split_ifs at hsame ⊢ with hlow hhigh
      · exact hearlier
      · dsimp only
        omega
    unfold HeaderPointer.name_offset
    rw [← Nat.succ_mul]
    exact Nat.mul_le_mul_right _ hindex
  · have hflip : (slot earlier).extra = !(slot index).extra := by
      revert hsame
      cases (slot earlier).extra <;> cases (slot index).extra <;> simp
    rw [hflip, hother]

variable {name_size value_size : Nat} {name value : List UInt8}

/-- Filling the next slot: the header is counted and the slots before it stay as
they are, however long the strings. -/
theorem HeaderStore.WellFormed.fill (h : s.WellFormed) (hroom : s.header_count < s.headers_capacity)
    (hfill : s.fill_header (slot s.header_count) name_size value_size name value = some s') :
    s'.WellFormed ∧ s'.header_count = s.header_count + 1 ∧ s'.headers_capacity = s.headers_capacity ∧
      ∀ earlier < s.header_count, s'.slot_bytes earlier = s.slot_bytes earlier := by
  obtain ⟨named, hnamed, hrest⟩ := Option.bind_eq_some_iff.mp hfill
  obtain ⟨valued, hvalued, rfl⟩ := Option.map_eq_some_iff.mp hrest
  obtain ⟨hfirst, hcount, hcapacity, -, -⟩ := h.write (by simp) hnamed
  obtain ⟨hsecond, hcount', hcapacity', -, -⟩ := hfirst.write (by simp) hvalued
  refine ⟨⟨hsecond.inline_array, ?_, hsecond.capacity⟩, by rw [hcount', hcount], hcapacity'.trans hcapacity, ?_⟩
  · dsimp only
    rw [hcount', hcapacity', hcount, hcapacity]
    exact hroom
  · intro earlier hearlier
    have hkept := h.write_behind (by simp) hnamed (Nat.le_refl _) hearlier
    have hkept' := hfirst.write_behind (by simp) hvalued (by rw [HeaderPointer.value_offset_eq]; omega) hearlier
    exact hkept'.trans hkept

/-- A write that stays within the array is made. -/
theorem HeaderStore.write_of_le (s : HeaderStore) (extra : Bool) (offset : Nat) (data : List UInt8)
    (hfits : offset + data.length ≤ (s.array extra).length) : ∃ s', s.write extra offset data = some s' := by
  rw [HeaderStore.write, string_block.write, if_pos hfits]
  exact ⟨_, rfl⟩

/-- Strings that fit their fields are held by the slot that is filled with them. -/
theorem HeaderStore.WellFormed.fill_fits (h : s.WellFormed) (hroom : s.header_count < s.headers_capacity)
    (name_size value_size : Nat) (hname : 0 ∉ name) (hvalue : 0 ∉ value)
    (hname_fits : (name.take (name_size - 1)).length < UVHTTP_HEADER_NAME_BUFFER_SIZE)
    (hvalue_fits : (value.take (value_size - 1)).length < UVHTTP_HEADER_VALUE_BUFFER_SIZE) :
    ∃ s', s.fill_header (slot s.header_count) name_size value_size name value = some s' ∧
      s'.Holds s.header_count ⟨name.take (name_size - 1), value.take (value_size - 1)⟩ := by
  have hslot := h.slot_le hroom
  have hsize : SIZEOF_HEADER = UVHTTP_HEADER_NAME_BUFFER_SIZE + UVHTTP_HEADER_VALUE_BUFFER_SIZE := rfl
  have hname_free : 0 ∉ name.take (name_size - 1) := fun hmem => hname (List.mem_of_mem_take hmem)
  have hvalue_free : 0 ∉ value.take (value_size - 1) := fun hmem => hvalue (List.mem_of_mem_take hmem)
  have hoffset := HeaderPointer.value_offset_eq (slot s.header_count)
  obtain ⟨named, hnamed⟩ := s.write_of_le (slot s.header_count).extra (slot s.header_count).name_offset
    (name.take (name_size - 1) ++ [0]) (by rw [List.length_append, List.length_singleton]; omega)
  obtain ⟨hfirst, -, -, hbytes, -⟩ := h.write (by simp) hnamed
  have hlength := length_write hbytes
  obtain ⟨valued, hvalued⟩ := named.write_of_le (slot s.header_count).extra (slot s.header_count).value_offset
    (value.take (value_size - 1) ++ [0]) (by rw [List.length_append, List.length_singleton, hlength]; omega)
  obtain ⟨-, -, -, hbytes', -⟩ := hfirst.write (by simp) hvalued
  refine ⟨{ valued with header_count := valued.header_count + 1 }, ?_, ?_, ?_⟩
  · rw [HeaderStore.fill_header, hnamed, Option.bind_some, hvalued]
    rfl
  · change string 0 (part (valued.slot_bytes _) _ _) = _
    rw [HeaderStore.slot_bytes, part_part _ _ _ _ (by decide), Nat.add_zero,
      part_write_other hbytes' (.inl (Nat.le_of_eq hoffset.symm))]
    exact string_write hname_free hname_fits hbytes
  · change string 0 (part (valued.slot_bytes _) _ _) = _
    rw [HeaderStore.slot_bytes, part_part _ _ _ _ (by decide), ← hoffset]
    exact string_write hvalue_free hvalue_fits hbytes'

end fill

section room

variable {alloc : Nat → Bool} {fresh : Nat → UInt8}

/-- The store after making room for one more header. -/
def HeaderStore.with_room (s : HeaderStore) : HeaderStore :=
  if s.header_count < s.headers_capacity then s
  else { s with
    headers_extra := .allocated (List.replicate (UVHTTP_INLINE_HEADERS_CAPACITY * SIZEOF_HEADER) 0)
    headers_capacity := UVHTTP_MAX_HEADERS }

theorem HeaderStore.with_room_count (s : HeaderStore) : s.with_room.header_count = s.header_count := by
  unfold HeaderStore.with_room
  split
  · rfl
  · rfl

/-- Room is made without touching the headers that are stored. -/
theorem HeaderStore.WellFormed.with_room (h : s.WellFormed) (hroom : s.HasRoom alloc) :
    s.with_room.WellFormed ∧ s.with_room.header_count < s.with_room.headers_capacity ∧
      ∀ earlier < s.header_count, s.with_room.slot_bytes earlier = s.slot_bytes earlier := by
  unfold HeaderStore.with_room
  by_cases hspare : s.header_count < s.headers_capacity
  · rw [if_pos hspare]
    exact ⟨h, hspare, fun _ _ => rfl⟩
  · have hcapacity := (hroom.resolve_left hspare).1
    have hcount := h.count
    rw [hcapacity] at hcount
    rw [if_neg hspare]
    refine ⟨⟨h.inline_array, ?_, .inr ⟨rfl, _, rfl, List.length_replicate⟩⟩, ?_, ?_⟩
    · exact Nat.le_trans hcount (show UVHTTP_INLINE_HEADERS_CAPACITY ≤ UVHTTP_MAX_HEADERS by decide)
    · exact Nat.lt_of_le_of_lt hcount (show UVHTTP_INLINE_HEADERS_CAPACITY < UVHTTP_MAX_HEADERS by decide)
    · intro earlier hearlier
      have hinline : (slot earlier).extra = false := by
        rw [slot, if_pos (Nat.lt_of_lt_of_le hearlier hcount)]
      rw [HeaderStore.slot_bytes, HeaderStore.slot_bytes, hinline]
      rfl

theorem HeaderStore.WellFormed.grow_headers (h : s.WellFormed) :
    grow_headers s.headers_capacity =
      if s.headers_capacity = UVHTTP_INLINE_HEADERS_CAPACITY then some UVHTTP_MAX_HEADERS else none := by
  rcases h.capacity with ⟨hcapacity, -⟩ | ⟨hcapacity, -⟩
  · rw [hcapacity]
    rfl
  · rw [hcapacity]
    rfl

variable (name value : List UInt8)

/-- Where there is room, `uvhttp_request_add_header` fills the next slot. -/
theorem HeaderStore.WellFormed.add_header_room (h : s.WellFormed) (hroom : s.HasRoom alloc) :
    uvhttp_request_add_header alloc fresh s name value = store_header s.with_room name value := by
  unfold uvhttp_request_add_header HeaderStore.with_room
  by_cases hspare : s.header_count < s.headers_capacity
  · rw [if_neg (Nat.not_le.mpr hspare), if_pos hspare]
  · obtain ⟨hcapacity, halloc⟩ := hroom.resolve_left hspare
    have hnull : s.headers_extra = .null := by
      rcases h.capacity with ⟨-, hnull⟩ | ⟨hlarge, -⟩
      · exact hnull
      · rw [hcapacity] at hlarge
        cases hlarge
    rw [if_pos (Nat.not_lt.mp hspare), if_neg hspare, h.grow_headers, if_pos hcapacity]
    dsimp only
    rw [if_neg (by rw [Bool.not_eq_true', Bool.not_eq_false]; exact halloc), if_pos hnull]
    rfl

variable (fresh) in
/-- Where there is none, it fails and leaves the store as it was. -/
theorem HeaderStore.WellFormed.add_header_full (h : s.WellFormed) (hroom : ¬ s.HasRoom alloc) :
    ∃ code, code ≠ .OK ∧ uvhttp_request_add_header alloc fresh s name value = some (code, s) := by
  obtain ⟨hfull, halloc⟩ := not_or.mp hroom
  unfold uvhttp_request_add_header
  rw [if_pos (Nat.not_lt.mp hfull), h.grow_headers]
  by_cases hcapacity : s.headers_capacity = UVHTTP_INLINE_HEADERS_CAPACITY
  · rw [if_pos hcapacity]
    dsimp only
    rw [if_pos]
    · exact ⟨.OUT_OF_MEMORY, by decide, rfl⟩
    · rw [Bool.not_eq_true', ← Bool.not_eq_true]
      exact fun hgranted => halloc ⟨hcapacity, hgranted⟩
  · rw [if_neg hcapacity]
    exact ⟨.BUFFER_TOO_SMALL, by decide, rfl⟩

end room

end uvhttp.header_store
