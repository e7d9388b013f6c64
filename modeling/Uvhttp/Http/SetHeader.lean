import Uvhttp.Http.Response

namespace uvhttp.http

/-- The headers that `uvhttp_response_set_header` accepts. -/
def ValidHeader (name value : List UInt8) : Prop :=
  uvhttp_validate_header_name name = true ∧ uvhttp_validate_header_value_safe value = true ∧
    contains_control_chars value = false

/-- The header table of a response, as that of a request. -/
structure ResponseTable (r : Response) : Prop where
  count : r.headers.length ≤ r.headers_capacity
  capacity : r.headers_capacity = 32 ∨ r.headers_capacity = 64 ∧ r.headers_extra = true

/-- One more header finds room: in the table as it is, or in the dynamic array
that is allocated for it. -/
def HeaderRoom (alloc : Nat → Bool) (r : Response) : Prop :=
  r.headers.length < r.headers_capacity ∨
    r.headers_capacity = UVHTTP_INLINE_HEADERS_CAPACITY ∧
      alloc (UVHTTP_INLINE_HEADERS_CAPACITY * SIZEOF_HEADER) = true

instance (alloc : Nat → Bool) (r : Response) : Decidable (HeaderRoom alloc r) :=
  inferInstanceAs (Decidable (_ ∨ _ ∧ _))

instance (name value : List UInt8) : Decidable (ValidHeader name value) :=
  inferInstanceAs (Decidable (_ ∧ _ ∧ _))

/-- A header as `uvhttp_response_set_header` writes it. -/
def written_header (name value : List UInt8) : Header :=
  ⟨name.take (UVHTTP_MAX_HEADER_NAME_SIZE - 1), value.take (UVHTTP_MAX_HEADER_VALUE_SIZE - 1)⟩

/-- The response with one more header. -/
def with_header (r : Response) (name value : List UInt8) : Response :=
  { r with
    headers := r.headers ++ [written_header name value]
    headers_capacity := if r.headers.length < r.headers_capacity then r.headers_capacity else UVHTTP_MAX_HEADERS
    headers_extra := if r.headers.length < r.headers_capacity then r.headers_extra else true }

variable {name value : List UInt8} {alloc : Nat → Bool} {r : Response}

theorem responseTable_init : ResponseTable uvhttp_response_init := ⟨Nat.zero_le _, .inl rfl⟩

theorem ResponseTable.restart (h : ResponseTable r) : ResponseTable (response_restart r) := ⟨Nat.zero_le _, h.capacity⟩

theorem ResponseTable.count_le (h : ResponseTable r) : r.headers.length ≤ UVHTTP_MAX_HEADERS := by
  have hcount := h.count
  unfold UVHTTP_MAX_HEADERS
  rcases h.capacity with hsmall | ⟨hlarge, -⟩
  · omega
  · omega

theorem ValidHeader.nul_free (h : ValidHeader name value) : 0 ∉ name ∧ 0 ∉ value := by
  obtain ⟨hname, hvalue, -⟩ := h
  simp only [uvhttp_validate_header_name, uvhttp_validate_header_value_safe, Bool.and_eq_true, List.all_eq_true]
    at hname hvalue
  refine ⟨fun hmem => ?_, fun hmem => ?_⟩
  · exact absurd (hname.2 0 hmem) (by decide)
  · exact absurd (hvalue.2 0 hmem) (by decide)

/-- The second look at the value finds nothing that the first did not. -/
theorem validHeader_of_checks (hname : uvhttp_validate_header_name name = true)
    (hsafe : uvhttp_validate_header_value_safe value = true) : ValidHeader name value := by
  refine ⟨hname, hsafe, ?_⟩
  simp only [uvhttp_validate_header_value_safe, Bool.and_eq_true, List.all_eq_true, Bool.not_eq_true',
    Bool.or_eq_false_iff, decide_eq_false_iff_not] at hsafe
  rw [contains_control_chars, List.any_eq_false]
  intro c hc
  obtain ⟨hlow, hdelete⟩ := hsafe.2 c hc
  have hreturn : c ≠ 13 := by
    rintro rfl
    exact hlow (by decide)
  have hfeed : c ≠ 10 := by
    rintro rfl
    exact hlow (by decide)
  simp [hlow, hdelete, hreturn, hfeed]

/-- What fits its fields is written whole. -/
theorem written_header_fits (hname : name.length < UVHTTP_HEADER_NAME_BUFFER_SIZE)
    (hvalue : value.length < UVHTTP_HEADER_VALUE_BUFFER_SIZE) : written_header name value = ⟨name, value⟩ := by
  unfold UVHTTP_HEADER_NAME_BUFFER_SIZE at hname
  unfold UVHTTP_HEADER_VALUE_BUFFER_SIZE at hvalue
  unfold written_header UVHTTP_MAX_HEADER_NAME_SIZE UVHTTP_MAX_HEADER_VALUE_SIZE
  rw [List.take_of_length_le (by omega), List.take_of_length_le (by omega)]

/-- The slot behind the last header exists while the table is not full. -/
theorem ResponseTable.write_header (h : ResponseTable r) (hroom : r.headers.length < r.headers_capacity) :
    write_header r name value = (.OK, { r with headers := r.headers ++ [written_header name value] }) := by
  rw [http.write_header, if_pos]
  · rfl
  · rw [Bool.or_eq_true, decide_eq_true_eq]
    rcases h.capacity with hsmall | ⟨-, hextra⟩
    · exact .inl (hroom.trans_eq hsmall)
    · exact .inr hextra

/-- A valid header is added behind the others where there is room, and nothing
changes otherwise. -/
theorem ResponseTable.set_header (h : ResponseTable r) :
    uvhttp_response_set_header alloc r name value =
      if ValidHeader name value then
        if HeaderRoom alloc r then (.OK, with_header r name value) else (.OUT_OF_MEMORY, r)
      else (.INVALID_PARAM, r) := by
  unfold uvhttp_response_set_header
  by_cases hvalid : ValidHeader name value
  · rw [if_neg (by simp [hvalid.1, hvalid.2.1]), if_neg (by simp [hvalid.2.2]), if_pos hvalid]
    by_cases hspare : r.headers.length < r.headers_capacity
    · rw [if_neg (Nat.not_le.mpr hspare), h.write_header hspare, if_pos (.inl hspare), with_header, if_pos hspare,
        if_pos hspare]
    · rw [if_pos (Nat.not_lt.mp hspare)]
      have hcount := h.count
      rcases h.capacity with hsmall | ⟨hlarge, -⟩
      · have hgrow : grow_headers r.headers_capacity = some UVHTTP_MAX_HEADERS := by
          rw [hsmall]
          rfl
        rw [hgrow]
        dsimp only
        by_cases halloc : alloc (UVHTTP_INLINE_HEADERS_CAPACITY * SIZEOF_HEADER) = true
        · have hgranted : alloc ((UVHTTP_MAX_HEADERS - UVHTTP_INLINE_HEADERS_CAPACITY) * SIZEOF_HEADER) = true :=
            halloc
          have htable : ResponseTable { r with headers_capacity := UVHTTP_MAX_HEADERS, headers_extra := true } := by
            refine ⟨Nat.le_trans hcount ?_, .inr ⟨rfl, rfl⟩⟩
            rw [hsmall]
            exact show UVHTTP_INLINE_HEADERS_CAPACITY ≤ UVHTTP_MAX_HEADERS by decide
          have hroom : r.headers.length < UVHTTP_MAX_HEADERS := by
            rw [hsmall] at hcount
            exact Nat.lt_of_le_of_lt hcount (by decide)
          rw [hgranted, if_neg (by decide), htable.write_header hroom, if_pos (.inr ⟨hsmall, halloc⟩), with_header,
            if_neg hspare, if_neg hspare]
        · have hrefused : alloc ((UVHTTP_MAX_HEADERS - UVHTTP_INLINE_HEADERS_CAPACITY) * SIZEOF_HEADER) = false :=
            (Bool.not_eq_true _).mp halloc
          rw [hrefused, if_pos (by decide), if_neg]
          rintro (hroom | ⟨-, hgranted⟩)
          · exact hspare hroom
          · exact halloc hgranted
      · have hgrow : grow_headers r.headers_capacity = none := by
          rw [hlarge]
          rfl
        rw [hgrow, if_neg]
        rintro (hroom | ⟨hsmall, -⟩)
        · exact hspare hroom
        · rw [hsmall] at hlarge
          cases hlarge
  · rw [if_pos, if_neg hvalid]
    rw [Bool.or_eq_true, Bool.not_eq_true', Bool.not_eq_true', ← Bool.not_eq_true, ← Bool.not_eq_true]
    exact not_and_or.mp fun hchecks => hvalid (validHeader_of_checks hchecks.1 hchecks.2)

theorem ResponseTable.with_header (h : ResponseTable r) (name value : List UInt8) (hroom : HeaderRoom alloc r) :
    ResponseTable (with_header r name value) := by
  have hcount := h.count
  unfold http.with_header
  by_cases hspare : r.headers.length < r.headers_capacity
  · simp only [if_pos hspare]
    exact ⟨by rw [List.length_append]; exact hspare, h.capacity⟩
  · have hsmall := (hroom.resolve_left hspare).1
    simp only [if_neg hspare]
    refine ⟨?_, .inr ⟨rfl, rfl⟩⟩
    rw [hsmall] at hcount
    rw [List.length_append]
    exact Nat.lt_of_le_of_lt hcount (show UVHTTP_INLINE_HEADERS_CAPACITY < UVHTTP_MAX_HEADERS by decide)

/-- A call adds the header behind the others if it succeeds, and changes no header
otherwise. -/
theorem set_header_headers (alloc : Nat → Bool) (r : Response) (name value : List UInt8) :
    (uvhttp_response_set_header alloc r name value).1 = .OK ∧
        (uvhttp_response_set_header alloc r name value).2.headers = r.headers ++ [written_header name value] ∨
      (uvhttp_response_set_header alloc r name value).1 ≠ .OK ∧
        (uvhttp_response_set_header alloc r name value).2.headers = r.headers := by
  have hwrite : ∀ r' : Response, r'.headers = r.headers →
      (write_header r' name value).1 = .OK ∧
          (write_header r' name value).2.headers = r.headers ++ [written_header name value] ∨
        (write_header r' name value).1 ≠ .OK ∧ (write_header r' name value).2.headers = r.headers := by
    intro r' hsame
    rw [write_header]
    split
    · exact .inl ⟨rfl, by rw [hsame]; rfl⟩
    · exact .inr ⟨by simp, hsame⟩
  rw [uvhttp_response_set_header]
  split
  · exact .inr ⟨by simp, rfl⟩
  · split
    · exact .inr ⟨by simp, rfl⟩
    · split
      · split
        · exact .inr ⟨by simp, rfl⟩
        · split
          · exact .inr ⟨by simp, rfl⟩
          · exact hwrite _ rfl
      · exact hwrite _ rfl

/-- The headers in the last slots of the arrays fit their buffers. -/
def LastSlotsFit (headers : List Header) : Prop :=
  ∀ index header, index + 1 = UVHTTP_INLINE_HEADERS_CAPACITY ∨ index + 1 = UVHTTP_MAX_HEADERS →
    headers[index]? = some header → header.value.length < UVHTTP_HEADER_VALUE_BUFFER_SIZE

theorem lastSlotsFit_of_values {headers : List Header}
    (h : ∀ header ∈ headers, header.value.length < UVHTTP_HEADER_VALUE_BUFFER_SIZE) : LastSlotsFit headers :=
  fun _ header _ hheader => h header (List.mem_of_getElem? hheader)

/-- What fits may be added, and nothing else, to headers that fit. -/
theorem lastSlotsFit_append (r : Response) (name value : List UInt8) :
    LastSlotsFit (r.headers ++ [written_header name value]) ↔ LastSlotsFit r.headers ∧ overruns r value = false := by
  have hover : overruns r value = false ↔
      (r.headers.length + 1 = UVHTTP_INLINE_HEADERS_CAPACITY ∨ r.headers.length + 1 = UVHTTP_MAX_HEADERS →
        (written_header name value).value.length < UVHTTP_HEADER_VALUE_BUFFER_SIZE) := by
    rw [overruns, Bool.and_eq_false_imp, Bool.or_eq_true, decide_eq_true_eq, decide_eq_true_eq, decide_eq_false_iff_not,
      Nat.not_le]
    rfl
  rw [hover]
  constructor
  · intro h
    constructor
    · intro index header hlast hheader
      apply h index header hlast
      rw [List.getElem?_append_left (List.getElem?_eq_some_iff.mp hheader).1]
      exact hheader
    · intro hlast
      exact h _ _ hlast List.getElem?_concat_length
  · rintro ⟨hold, hnew⟩ index header hlast hheader
    by_cases hindex : index < r.headers.length
    · rw [List.getElem?_append_left hindex] at hheader
      exact hold index header hlast hheader
    · have hlength := (List.getElem?_eq_some_iff.mp hheader).1
      rw [List.length_append, List.length_singleton] at hlength
      obtain rfl : index = r.headers.length := by omega
      rw [List.getElem?_concat_length] at hheader
      cases hheader
      exact hnew hlast

/-- A call stays within its arrays exactly when the headers after it fit. -/
theorem set_header_in_bounds_eq {alloc : Nat → Bool} {r : Response} (h : LastSlotsFit r.headers)
    (name value : List UInt8) :
    set_header_in_bounds alloc r name value =
        some (uvhttp_response_set_header alloc r name value) ∧
          LastSlotsFit (uvhttp_response_set_header alloc r name value).2.headers ∨
      set_header_in_bounds alloc r name value = none ∧
        ¬ LastSlotsFit (uvhttp_response_set_header alloc r name value).2.headers := by
  rw [set_header_in_bounds]
  rcases set_header_headers alloc r name value with ⟨hok, hheaders⟩ | ⟨hfailed, hheaders⟩
  · rw [hheaders, lastSlotsFit_append, decide_eq_true hok, Bool.true_and]
    cases overruns r value with
    | true => exact .inr ⟨rfl, fun hfits => by cases hfits.2⟩
    | false => exact .inl ⟨rfl, h, rfl⟩
  · rw [hheaders, decide_eq_false hfailed, Bool.false_and]
    exact .inl ⟨rfl, h⟩

end uvhttp.http
