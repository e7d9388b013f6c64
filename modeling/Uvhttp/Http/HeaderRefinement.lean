import Uvhttp.Http.RequestHeaders
import Uvhttp.Http.ResponseHeaders
import Uvhttp.Http.Spans

namespace uvhttp.header_store

open http string_block machine

theorem nul_not_mem_cstr (text : List UInt8) : 0 ∉ cstr text := by
  intro hmem
  have hne := List.mem_takeWhile_imp hmem
  simp at hne

/-- The store behind the header list of a request or a response. -/
structure HeaderStore.Models (s : HeaderStore) (headers : List Header) (headers_capacity : Nat) (headers_extra : Bool) :
    Prop where
  represents : s.Represents headers
  capacity : s.headers_capacity = headers_capacity
  extra : headers_extra = decide (s.headers_capacity = UVHTTP_MAX_HEADERS)

variable {s : HeaderStore}

/-- Making room keeps the headers. -/
theorem HeaderStore.Represents.with_room {headers : List Header} {alloc : Nat → Bool} (h : s.Represents headers)
    (hwell : s.WellFormed) (hroom : s.HasRoom alloc) : s.with_room.Represents headers := by
  obtain ⟨-, -, hkept⟩ := hwell.with_room hroom
  refine ⟨by rw [HeaderStore.with_room_count, h.count], ?_⟩
  intro index header hheader
  have hindex : index < s.header_count := by
    rw [h.count]
    exact (List.getElem?_eq_some_iff.mp hheader).1
  exact (h.slots index header hheader).congr (hkept index hindex)

/-- The list model of `uvhttp_request_add_header` follows the arrays. -/
theorem add_header_models {request : Request} (hwell : s.WellFormed)
    (h : s.Models request.headers request.headers_capacity request.headers_extra) (alloc : Nat → Bool)
    (fresh : Nat → UInt8) (name value : List UInt8) :
    match http.uvhttp_request_add_header alloc request name value with
    | .error code => uvhttp_request_add_header alloc fresh s name value = some (code, s)
    | .ok request' => ∃ s', uvhttp_request_add_header alloc fresh s name value = some (.OK, s') ∧ s'.WellFormed ∧
        s'.Models request'.headers request'.headers_capacity request'.headers_extra := by
  obtain ⟨hrepresents, hcapacity, hextra⟩ := h
  have hcount := hrepresents.count
  by_cases hroom : s.HasRoom alloc
  · obtain ⟨hroomy, hspare, hkept⟩ := hwell.with_room hroom
    have hslot := hroomy.get_header_at hspare
    obtain ⟨s', hfilled, hholds⟩ := hroomy.fill_fits hspare UVHTTP_HEADER_NAME_BUFFER_SIZE
      UVHTTP_HEADER_VALUE_BUFFER_SIZE (nul_not_mem_cstr name) (nul_not_mem_cstr value)
      (by rw [List.length_take]; exact Nat.lt_of_le_of_lt (Nat.min_le_left _ _) (by decide))
      (by rw [List.length_take]; exact Nat.lt_of_le_of_lt (Nat.min_le_left _ _) (by decide))
    have hbytes : uvhttp_request_add_header alloc fresh s name value = some (.OK, s') := by
      rw [hwell.add_header_room _ _ hroom, store_header, hslot]
      dsimp only
      rw [hfilled]
      rfl
    obtain ⟨hwell', hcount', hcapacity', hearlier⟩ := hroomy.fill hspare hfilled
    have hlist : http.uvhttp_request_add_header alloc request name value = .ok { request with
        headers := request.headers ++ [stored_header name value]
        headers_capacity := s.with_room.headers_capacity
        headers_extra := decide (s.with_room.headers_capacity = UVHTTP_MAX_HEADERS) } := by
      unfold http.uvhttp_request_add_header HeaderStore.with_room
      rw [← hcount, ← hcapacity]
      by_cases hfits : s.header_count < s.headers_capacity
      · rw [if_neg (Nat.not_le.mpr hfits), if_pos hfits, http.store_header, if_pos]
        · rw [← hextra, hcapacity]
          rfl
        · rw [has_header_slot, hextra]
          simp only [Bool.and_eq_true, Bool.or_eq_true, decide_eq_true_eq]
          refine ⟨by omega, ?_⟩
          rcases hwell.capacity with ⟨hsmall, -⟩ | ⟨hlarge, -⟩
          · exact .inl (by omega)
          · exact .inr hlarge
      · obtain ⟨hsmall, halloc⟩ := hroom.resolve_left hfits
        have hgranted : alloc ((UVHTTP_MAX_HEADERS - UVHTTP_INLINE_HEADERS_CAPACITY) * SIZEOF_HEADER) = true := halloc
        have hfull := hwell.count
        rw [if_pos (Nat.not_lt.mp hfits), if_neg hfits, hwell.grow_headers, if_pos hsmall]
        dsimp only
        rw [hgranted, if_neg (by decide), http.store_header, if_pos]
        · rfl
        · rw [hsmall] at hfull
          rw [has_header_slot, ← hcount]
          simp only [Bool.or_true, Bool.and_true, decide_eq_true_eq]
          exact Nat.lt_of_le_of_lt hfull (by decide)
    rw [hlist]
    refine ⟨s', hbytes, hwell', ?_, ?_, ?_⟩
    · exact (hrepresents.with_room hwell hroom).append hcount' hholds hearlier
    · exact hcapacity'
    · rw [hcapacity']
  · obtain ⟨hfull, halloc⟩ := not_or.mp hroom
    unfold http.uvhttp_request_add_header uvhttp_request_add_header
    rw [← hcount, ← hcapacity, if_pos (Nat.not_lt.mp hfull), if_pos (Nat.not_lt.mp hfull), hwell.grow_headers]
    by_cases hsmall : s.headers_capacity = UVHTTP_INLINE_HEADERS_CAPACITY
    · have hrefused : alloc ((UVHTTP_MAX_HEADERS - UVHTTP_INLINE_HEADERS_CAPACITY) * SIZEOF_HEADER) = false := by
        rw [← Bool.not_eq_true]
        exact fun hgranted => halloc ⟨hsmall, hgranted⟩
      rw [if_pos hsmall]
      simp only [hrefused, Bool.not_false, if_true]
    · rw [if_neg hsmall]

theorem HeaderStore.Models.responseTable {r : Response}
    (h : s.Models r.headers r.headers_capacity r.headers_extra) (hwell : s.WellFormed) : ResponseTable r := by
  refine ⟨by rw [← h.represents.count, ← h.capacity]; exact hwell.count, ?_⟩
  rw [← h.capacity]
  rcases hwell.capacity with ⟨hsmall, -⟩ | ⟨hlarge, -⟩
  · exact .inl hsmall
  · exact .inr ⟨hlarge, by rw [h.extra, hlarge]; rfl⟩

theorem HeaderStore.Models.headerRoom_iff {r : Response}
    (h : s.Models r.headers r.headers_capacity r.headers_extra) (alloc : Nat → Bool) :
    HeaderRoom alloc r ↔ s.HasRoom alloc := by
  rw [HeaderRoom, HeaderStore.HasRoom, h.represents.count, h.capacity]

/-- So does that of `uvhttp_response_set_header`, for headers that fit their
fields. -/
theorem set_header_models {r : Response} (hwell : s.WellFormed)
    (h : s.Models r.headers r.headers_capacity r.headers_extra) (alloc : Nat → Bool) (fresh : Nat → UInt8)
    {name value : List UInt8} (hname : name.length < UVHTTP_HEADER_NAME_BUFFER_SIZE)
    (hvalue : value.length < UVHTTP_HEADER_VALUE_BUFFER_SIZE) :
    ∃ s', uvhttp_response_set_header alloc fresh s name value =
        some ((http.uvhttp_response_set_header alloc r name value).1, s') ∧ s'.WellFormed ∧
      s'.Models (http.uvhttp_response_set_header alloc r name value).2.headers
        (http.uvhttp_response_set_header alloc r name value).2.headers_capacity
        (http.uvhttp_response_set_header alloc r name value).2.headers_extra := by
  have htable : ResponseTable r := h.responseTable hwell
  have hroom_iff : HeaderRoom alloc r ↔ s.HasRoom alloc := h.headerRoom_iff alloc
  obtain ⟨hrepresents, hcapacity, hextra⟩ := h
  have hcount := hrepresents.count
  rw [htable.set_header]
  by_cases hvalid : ValidHeader name value
  · rw [if_pos hvalid]
    by_cases hroom : s.HasRoom alloc
    · rw [if_pos (hroom_iff.mpr hroom)]
      obtain ⟨s', hset, hwell', hcount', hcapacity', hholds, hearlier⟩ :=
        hwell.set_header_fits fresh hvalid hroom hname hvalue
      refine ⟨s', hset, hwell', hrepresents.append hcount' ?_ hearlier, ?_, ?_⟩
      · rw [written_header_fits hname hvalue]
        exact hholds
      · rw [hcapacity', http.with_header, HeaderStore.with_room, ← hcount, ← hcapacity]
        dsimp only
        split
        · rfl
        · rfl
      · rw [hcapacity', http.with_header, HeaderStore.with_room, ← hcount, ← hcapacity, hextra]
        dsimp only
        split
        · rfl
        · rfl
    · rw [if_neg (mt hroom_iff.mp hroom)]
      exact ⟨s, hwell.set_header_full hvalid hroom, hwell, hrepresents, hcapacity, hextra⟩
  · rw [if_neg hvalid]
    exact ⟨s, set_header_invalid hvalid, hwell, hrepresents, hcapacity, hextra⟩

/-- The arrays have the same size. -/
theorem HeaderStore.WellFormed.array_length (hwell : s.WellFormed) {index : Nat} (hindex : index < s.headers_capacity) :
    (s.array (slot index).extra).length = UVHTTP_INLINE_HEADERS_CAPACITY * SIZEOF_HEADER := by
  rw [slot]
  split
  · exact hwell.inline_array
  · rename_i hextra
    rcases hwell.capacity with ⟨hsmall, -⟩ | ⟨-, bytes, hbytes, hlength⟩
    · exact absurd (hsmall ▸ hindex) hextra
    · rw [HeaderStore.array, if_pos rfl, hbytes]
      exact hlength

/-- A value is written beyond its array when it is longer than what is left of it. -/
theorem HeaderStore.WellFormed.fill_header_none_iff (hwell : s.WellFormed)
    (hroom : s.header_count < s.headers_capacity) {name_size value_size : Nat} {name value : List UInt8}
    (hname : (name.take (name_size - 1)).length < UVHTTP_HEADER_NAME_BUFFER_SIZE) :
    s.fill_header (slot s.header_count) name_size value_size name value = none ↔
      UVHTTP_INLINE_HEADERS_CAPACITY * SIZEOF_HEADER ≤
        (slot s.header_count).value_offset + (value.take (value_size - 1)).length := by
  have hslot := hwell.slot_le hroom
  have hlength := hwell.array_length hroom
  have hsize : SIZEOF_HEADER = UVHTTP_HEADER_NAME_BUFFER_SIZE + UVHTTP_HEADER_VALUE_BUFFER_SIZE := rfl
  have hbuffer : UVHTTP_HEADER_NAME_BUFFER_SIZE ≤ SIZEOF_HEADER := Nat.le.intro hsize.symm
  have hname_end : (slot s.header_count).name_offset + (name.take (name_size - 1) ++ [0]).length ≤
      (s.array (slot s.header_count).extra).length := by
    rw [List.length_append, List.length_singleton]
    omega
  obtain ⟨named, hnamed⟩ := s.write_of_le _ _ _ hname_end
  obtain ⟨-, -, -, hbytes, -⟩ := hwell.write (by simp) hnamed
  have hnamed_length := (length_write hbytes).trans hlength
  rw [HeaderStore.fill_header, hnamed, Option.bind_some, Option.map_eq_none_iff, HeaderStore.write,
    Option.map_eq_none_iff, string_block.write, hnamed_length, List.length_append, List.length_singleton]
  constructor
  · intro hnone
    by_contra hfits
    rw [if_pos (by omega)] at hnone
    cases hnone
  · intro hover
    rw [if_neg (by omega)]

/-- Where the list model says that a call writes outside the arrays, that of the
arrays says so, and nowhere else. -/
theorem set_header_in_bounds_models {r : Response} (hwell : s.WellFormed)
    (h : s.Models r.headers r.headers_capacity r.headers_extra) (alloc : Nat → Bool) (fresh : Nat → UInt8)
    (name value : List UInt8) :
    uvhttp_response_set_header alloc fresh s name value = none ↔ set_header_in_bounds alloc r name value = none := by
  have htable : ResponseTable r := h.responseTable hwell
  have hroom_iff : HeaderRoom alloc r ↔ s.HasRoom alloc := h.headerRoom_iff alloc
  rw [set_header_in_bounds, htable.set_header]
  by_cases hvalid : ValidHeader name value
  · rw [if_pos hvalid]
    by_cases hroom : s.HasRoom alloc
    · rw [if_pos (hroom_iff.mpr hroom), hwell.set_header_room hvalid hroom]
      obtain ⟨hroomy, hspare, -⟩ := hwell.with_room hroom
      have hname : (name.take (UVHTTP_MAX_HEADER_NAME_SIZE - 1)).length < UVHTTP_HEADER_NAME_BUFFER_SIZE := by
        rw [List.length_take]
        exact Nat.lt_of_le_of_lt (Nat.min_le_left _ _) (by decide)
      have hvalue : (value.take (UVHTTP_MAX_HEADER_VALUE_SIZE - 1)).length < UVHTTP_MAX_HEADER_VALUE_SIZE := by
        rw [List.length_take]
        exact Nat.lt_of_le_of_lt (Nat.min_le_left _ _) (by decide)
      have hstored : s.with_room.header_count = r.headers.length := by
        rw [HeaderStore.with_room_count]
        exact h.represents.count
      have hbound : s.with_room.header_count < UVHTTP_MAX_HEADERS := by
        rcases hroomy.capacity with ⟨hsmall, -⟩ | ⟨hlarge, -⟩
        · rw [hsmall] at hspare
          exact hspare.trans (by decide)
        · rw [← hlarge]
          exact hspare
      rw [hroomy.write_header_eq hspare, Option.map_eq_none_iff, hroomy.fill_header_none_iff hspare hname, hstored,
        decide_eq_true rfl, Bool.true_and]
      rw [hstored] at hbound
      have hover : UVHTTP_INLINE_HEADERS_CAPACITY * SIZEOF_HEADER ≤ (slot r.headers.length).value_offset +
          (value.take (UVHTTP_MAX_HEADER_VALUE_SIZE - 1)).length ↔ overruns r value = true := by
        rw [overruns, Bool.and_eq_true, Bool.or_eq_true, decide_eq_true_eq, decide_eq_true_eq, decide_eq_true_eq,
          HeaderPointer.value_offset]
        by_cases hinline : r.headers.length < UVHTTP_INLINE_HEADERS_CAPACITY
        · rw [slot, if_pos hinline]
          simp only [UVHTTP_INLINE_HEADERS_CAPACITY, UVHTTP_MAX_HEADERS, SIZEOF_HEADER,
            UVHTTP_HEADER_NAME_BUFFER_SIZE, UVHTTP_HEADER_VALUE_BUFFER_SIZE, UVHTTP_MAX_HEADER_VALUE_SIZE]
            at hinline hvalue ⊢
          omega
        · rw [slot, if_neg hinline]
          simp only [UVHTTP_INLINE_HEADERS_CAPACITY, UVHTTP_MAX_HEADERS, SIZEOF_HEADER,
            UVHTTP_HEADER_NAME_BUFFER_SIZE, UVHTTP_HEADER_VALUE_BUFFER_SIZE, UVHTTP_MAX_HEADER_VALUE_SIZE]
            at hinline hbound hvalue ⊢
          omega
      rw [hover]
      cases overruns r value with
      | true => exact iff_of_true rfl rfl
      | false => exact iff_of_false Bool.false_ne_true (Option.some_ne_none _)
    · rw [if_neg (mt hroom_iff.mp hroom), hwell.set_header_full hvalid hroom]
      exact iff_of_false (Option.some_ne_none _) (Option.some_ne_none _)
  · rw [if_neg hvalid, set_header_invalid hvalid]
    exact iff_of_false (Option.some_ne_none _) (Option.some_ne_none _)

end uvhttp.header_store
