import Uvhttp.Http.HeaderSlots
import Uvhttp.Http.SetHeader

namespace uvhttp.header_store

open http string_block

/-- The fields of `uvhttp_response_t` besides its headers. -/
structure ResponseFields where
  status_code : Int
  headers_sent : Bool
  sent : Bool
  finished : Bool
  keepalive : Bool
  compress : Bool
  cache_ttl : Int
  compress_algorithm : Int
  compress_threshold : Int
  body : Option (List UInt8)
  deriving DecidableEq, Repr

/-- `uvhttp_response_t`. The inline array is its last member. -/
structure RawResponse extends HeaderStore, ResponseFields
  deriving DecidableEq, Repr

/-- `uvhttp_response_set_header`, on the whole response. -/
def response_set_header (alloc : Nat → Bool) (fresh : Nat → UInt8) (r : RawResponse) (name value : List UInt8) :
    Option (UvhttpError × RawResponse) :=
  (uvhttp_response_set_header alloc fresh r.toHeaderStore name value).map fun result =>
    (result.1, { r with toHeaderStore := result.2 })

/-- What is accepted is stored: a successful call adds one header, whose fields
hold the strings given, and a call that fails adds none. Neither touches the
headers that were stored before or the other fields. -/
def StoresHeader (alloc : Nat → Bool) (fresh : Nat → UInt8) (r : RawResponse) (name value : List UInt8) : Prop :=
  ∃ code r', response_set_header alloc fresh r name value = some (code, r') ∧
    r'.toResponseFields = r.toResponseFields ∧
    (∀ index < r.header_count, r'.slot_bytes index = r.slot_bytes index) ∧
    if code = .OK then r'.header_count = r.header_count + 1 ∧ r'.Holds r.header_count ⟨name, value⟩
    else r'.header_count = r.header_count

section set_header

variable {alloc : Nat → Bool} {fresh : Nat → UInt8} {s s' : HeaderStore} {name value : List UInt8}

theorem set_header_invalid (h : ¬ ValidHeader name value) :
    uvhttp_response_set_header alloc fresh s name value = some (.INVALID_PARAM, s) := by
  rw [uvhttp_response_set_header, if_pos]
  rw [Bool.or_eq_true, Bool.not_eq_true', Bool.not_eq_true', ← Bool.not_eq_true, ← Bool.not_eq_true]
  exact not_and_or.mp fun hchecks => h (validHeader_of_checks hchecks.1 hchecks.2)

/-- Where there is room, a valid header goes into the next slot. -/
theorem HeaderStore.WellFormed.set_header_room (h : s.WellFormed) (hvalid : ValidHeader name value)
    (hroom : s.HasRoom alloc) :
    uvhttp_response_set_header alloc fresh s name value = write_header s.with_room name value := by
  unfold uvhttp_response_set_header HeaderStore.with_room
  rw [if_neg (by simp [hvalid.1, hvalid.2.1]), if_neg (by simp [hvalid.2.2])]
  by_cases hspare : s.header_count < s.headers_capacity
  · rw [if_neg (Nat.not_le.mpr hspare), if_pos hspare]
  · obtain ⟨hcapacity, halloc⟩ := hroom.resolve_left hspare
    have hgrown : grow_extra alloc fresh s UVHTTP_MAX_HEADERS =
        (true, .allocated (List.replicate (UVHTTP_INLINE_HEADERS_CAPACITY * SIZEOF_HEADER) 0)) := by
      rw [grow_extra, hcapacity, if_neg (Nat.lt_irrefl _), if_pos rfl]
      exact if_pos halloc
    rw [if_pos (Nat.not_lt.mp hspare), if_neg hspare, h.grow_headers, if_pos hcapacity]
    dsimp only
    rw [hgrown]
    rfl

/-- Where there is none, nothing is stored. -/
theorem HeaderStore.WellFormed.set_header_full (h : s.WellFormed) (hvalid : ValidHeader name value)
    (hroom : ¬ s.HasRoom alloc) :
    uvhttp_response_set_header alloc fresh s name value = some (.OUT_OF_MEMORY, s) := by
  obtain ⟨hfull, halloc⟩ := not_or.mp hroom
  unfold uvhttp_response_set_header
  rw [if_neg (by simp [hvalid.1, hvalid.2.1]), if_neg (by simp [hvalid.2.2]),
    if_pos (Nat.not_lt.mp hfull), h.grow_headers]
  by_cases hcapacity : s.headers_capacity = UVHTTP_INLINE_HEADERS_CAPACITY
  · have hnull : s.headers_extra = .null := by
      rcases h.capacity with ⟨-, hnull⟩ | ⟨hlarge, -⟩
      · exact hnull
      · rw [hcapacity] at hlarge
        cases hlarge
    have hrefused : ¬ alloc ((UVHTTP_MAX_HEADERS - UVHTTP_INLINE_HEADERS_CAPACITY) * SIZEOF_HEADER) = true :=
      fun hgranted => halloc ⟨hcapacity, hgranted⟩
    have hgrown : grow_extra alloc fresh s UVHTTP_MAX_HEADERS = (false, .null) := by
      rw [grow_extra, hcapacity, if_neg (Nat.lt_irrefl _), if_pos rfl, if_neg hrefused, if_pos hnull]
    rw [if_pos hcapacity]
    dsimp only
    rw [hgrown, ← hnull]
    rfl
  · rw [if_neg hcapacity]

/-- Strings in the fields of a slot are shorter than the fields. -/
theorem HeaderStore.Holds.fits {index : Nat} (h : s.Holds index ⟨name, value⟩) :
    name.length < UVHTTP_HEADER_NAME_BUFFER_SIZE ∧ value.length < UVHTTP_HEADER_VALUE_BUFFER_SIZE := by
  obtain ⟨hname, hvalue⟩ := h
  have hname_length := length_string hname
  have hvalue_length := length_string hvalue
  rw [length_part] at hname_length hvalue_length
  dsimp only at hname_length hvalue_length
  exact ⟨by omega, by omega⟩

/-- The slot after the last header is filled, if the write stays in its array. -/
theorem HeaderStore.WellFormed.write_header_eq (h : s.WellFormed) (hroom : s.header_count < s.headers_capacity) :
    write_header s name value =
      (s.fill_header (slot s.header_count) UVHTTP_MAX_HEADER_NAME_SIZE UVHTTP_MAX_HEADER_VALUE_SIZE name
        value).map fun s => (.OK, s) := by
  rw [write_header, h.next_header hroom]

variable (fresh) in
/-- A header that fits its fields is stored. -/
theorem HeaderStore.WellFormed.set_header_fits (h : s.WellFormed) (hvalid : ValidHeader name value)
    (hroom : s.HasRoom alloc) (hname : name.length < UVHTTP_HEADER_NAME_BUFFER_SIZE)
    (hvalue : value.length < UVHTTP_HEADER_VALUE_BUFFER_SIZE) :
    ∃ s', uvhttp_response_set_header alloc fresh s name value = some (.OK, s') ∧ s'.WellFormed ∧
      s'.header_count = s.header_count + 1 ∧ s'.headers_capacity = s.with_room.headers_capacity ∧
      s'.Holds s.header_count ⟨name, value⟩ ∧
      ∀ index < s.header_count, s'.slot_bytes index = s.slot_bytes index := by
  obtain ⟨hname_free, hvalue_free⟩ := hvalid.nul_free
  obtain ⟨hwell, hspare, hkept⟩ := h.with_room hroom
  obtain ⟨hname_whole, hvalue_whole⟩ := Header.mk.inj (written_header_fits hname hvalue)
  have hfill := hwell.fill_fits hspare UVHTTP_MAX_HEADER_NAME_SIZE UVHTTP_MAX_HEADER_VALUE_SIZE
    hname_free hvalue_free (by rw [hname_whole]; exact hname) (by rw [hvalue_whole]; exact hvalue)
  rw [hname_whole, hvalue_whole] at hfill
  obtain ⟨s', hfilled, hholds⟩ := hfill
  obtain ⟨hwell', hcount, hcapacity, hearlier⟩ := hwell.fill hspare hfilled
  rw [HeaderStore.with_room_count] at hcount hholds hearlier
  refine ⟨s', ?_, hwell', hcount, hcapacity, hholds,
    fun index hindex => (hearlier index hindex).trans (hkept index hindex)⟩
  rw [h.set_header_room hvalid hroom, hwell.write_header_eq hspare, hfilled]
  rfl

end set_header

/-- What is stored exactly fits its fields. -/
theorem StoresHeader.fits {r : RawResponse} {alloc : Nat → Bool} {fresh : Nat → UInt8} {name value : List UInt8}
    (hstores : StoresHeader alloc fresh r name value) (h : r.toHeaderStore.WellFormed)
    (hvalid : ValidHeader name value) (hroom : r.HasRoom alloc) :
    name.length < UVHTTP_HEADER_NAME_BUFFER_SIZE ∧ value.length < UVHTTP_HEADER_VALUE_BUFFER_SIZE := by
  obtain ⟨code, r', hset, -, -, hresult⟩ := hstores
  obtain ⟨hwell, hspare, -⟩ := h.with_room hroom
  rw [response_set_header, h.set_header_room hvalid hroom, hwell.write_header_eq hspare, Option.map_map] at hset
  obtain ⟨s', -, heq⟩ := Option.map_eq_some_iff.mp hset
  cases heq
  exact hresult.2.fits

/-- A header that is accepted is stored as it is exactly when one that passes the
checks and finds room is shorter than its fields. -/
theorem stores_header_iff {r : RawResponse} (h : r.toHeaderStore.WellFormed) (alloc : Nat → Bool)
    (fresh : Nat → UInt8) (name value : List UInt8) :
    StoresHeader alloc fresh r name value ↔ (ValidHeader name value → r.HasRoom alloc →
      name.length < UVHTTP_HEADER_NAME_BUFFER_SIZE ∧ value.length < UVHTTP_HEADER_VALUE_BUFFER_SIZE) := by
  have hrefused : ∀ {code : UvhttpError}, code ≠ .OK →
      uvhttp_response_set_header alloc fresh r.toHeaderStore name value = some (code, r.toHeaderStore) →
      StoresHeader alloc fresh r name value := by
    intro code hcode hset
    refine ⟨code, r, by rw [response_set_header, hset]; rfl, rfl, fun _ _ => rfl, ?_⟩
    rw [if_neg hcode]
  by_cases hvalid : ValidHeader name value
  · by_cases hroom : r.HasRoom alloc
    · constructor
      · intro hstores _ _
        exact hstores.fits h hvalid hroom
      · intro hfits
        obtain ⟨hname, hvalue⟩ := hfits hvalid hroom
        obtain ⟨s', hset, -, hcount, -, hholds, hearlier⟩ := h.set_header_fits fresh hvalid hroom hname hvalue
        refine ⟨.OK, { r with toHeaderStore := s' }, by rw [response_set_header, hset]; rfl, rfl, hearlier, ?_⟩
        rw [if_pos rfl]
        exact ⟨hcount, hholds⟩
    · apply iff_of_true (hrefused (by decide) (h.set_header_full hvalid hroom))
      exact fun _ habsurd => absurd habsurd hroom
  · apply iff_of_true (hrefused (by decide) (set_header_invalid hvalid))
    exact fun habsurd => absurd habsurd hvalid

/-- A response as `uvhttp_response_init` leaves it. -/
def raw_response_init : RawResponse where
  toHeaderStore := header_store_init
  status_code := UVHTTP_STATUS_OK
  headers_sent := false
  sent := false
  finished := false
  keepalive := true
  compress := false
  cache_ttl := 0
  compress_algorithm := 0
  compress_threshold := 0
  body := none

/-- A response with the header `X-Id: 7` a number of times. -/
def with_headers : Nat → Option RawResponse
  | 0 => some raw_response_init
  | n + 1 =>
    (with_headers n).bind fun r =>
      (response_set_header (fun _ => true) (fun _ => 0) r (bytes "X-Id") (bytes "7")).map Prod.snd

theorem with_headers_inline {n : Nat} (h : n ≤ UVHTTP_INLINE_HEADERS_CAPACITY) :
    ∃ r, with_headers n = some r ∧ r.toHeaderStore.WellFormed ∧ r.header_count = n ∧
      r.headers_capacity = UVHTTP_INLINE_HEADERS_CAPACITY := by
  induction n with
  | zero => exact ⟨raw_response_init, rfl, wellFormed_init, rfl, rfl⟩
  | succ n ih =>
    obtain ⟨r, hr, hwell, hcount, hcapacity⟩ := ih (by omega)
    have hspare : r.header_count < r.headers_capacity := by omega
    have hroom : HeaderStore.HasRoom (fun _ => true) r.toHeaderStore := .inl hspare
    have hvalid : ValidHeader (bytes "X-Id") (bytes "7") := validHeader_of_checks (by decide) (by decide)
    obtain ⟨s', hset, hwell', hcount', hcapacity', -, -⟩ :=
      hwell.set_header_fits (fun _ => 0) hvalid hroom (by decide) (by decide)
    refine ⟨{ r with toHeaderStore := s' }, ?_, hwell', hcount'.trans (by rw [hcount]), ?_⟩
    · rw [with_headers, hr, Option.bind_some, response_set_header, hset]
      rfl
    · rw [hcapacity', HeaderStore.with_room, if_pos hspare]
      exact hcapacity

/-- Once the inline headers are all in use, the next one is stored in the dynamic array. -/
theorem stores_header_dynamic :
    ∃ r, with_headers 32 = some r ∧ r.header_count = UVHTTP_INLINE_HEADERS_CAPACITY ∧
      StoresHeader (fun _ => true) (fun _ => 0) r (bytes "X-Trace") (bytes "on") := by
  obtain ⟨r, hr, hwell, hcount, -⟩ := @with_headers_inline 32 (by decide)
  refine ⟨r, hr, hcount, ?_⟩
  exact (stores_header_iff hwell (fun _ => true) (fun _ => 0) (bytes "X-Trace") (bytes "on")).mpr fun _ _ => by decide

/-- A value of 3000 bytes passes the checks and does not fit its field of 2048. -/
theorem not_stores_long_value :
    ¬ StoresHeader (fun _ => true) (fun _ => 0) raw_response_init (bytes "X-Id") (List.replicate 3000 97) := by
  intro hstores
  have hvalid : ValidHeader (bytes "X-Id") (List.replicate 3000 97) := by
    apply validHeader_of_checks (by decide)
    rw [uvhttp_validate_header_value_safe, List.length_replicate, List.all_replicate]
    decide
  have hfits := (hstores.fits wellFormed_init hvalid (.inl (by decide))).2
  rw [List.length_replicate] at hfits
  exact absurd hfits (by decide)

end uvhttp.header_store
