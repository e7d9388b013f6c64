import Uvhttp.Http.Request

namespace uvhttp.http

/-- The spans in which llhttp delivers one element: one or more. -/
structure Spans where
  list : List (List UInt8)
  ne_nil : list ≠ []

namespace Spans

def whole (s : Spans) : List UInt8 := s.list.flatten

def last (s : Spans) : List UInt8 := s.list.getLast s.ne_nil

/-- The element in one span. -/
def uncut (s : Spans) : Spans := ⟨[s.whole], List.cons_ne_nil _ _⟩

@[simp] theorem uncut_last (s : Spans) : s.uncut.last = s.whole := rfl

end Spans

/-- A header as it is delivered. -/
structure SpannedHeader where
  field : Spans
  value : Spans

/-- A request as it is delivered. A request without a body has no body span. -/
structure SpannedRequest where
  method : LlhttpMethod
  url : Spans
  headers : List SpannedHeader
  body : List (List UInt8)

def SpannedHeader.callbacks (h : SpannedHeader) : List ParserCallback :=
  h.field.list.map .header_field ++ h.value.list.map .header_value

namespace SpannedRequest

/-- The callbacks llhttp makes for the request. -/
def callbacks (r : SpannedRequest) : List ParserCallback :=
  .message_begin :: (r.url.list.map .url ++ (r.headers.flatMap SpannedHeader.callbacks ++
    (r.body.map .body ++ [.message_complete r.method])))

/-- The request with every element in one span. -/
def uncut (r : SpannedRequest) : SpannedRequest where
  method := r.method
  url := r.url.uncut
  headers := r.headers.map fun h => ⟨h.field.uncut, h.value.uncut⟩
  body := if r.body = [] then [] else [r.body.flatten]

end SpannedRequest

/-- The capacity after receiving body spans of the given lengths, `none` when
one of them goes beyond the limit. -/
def grow_body_all (body_capacity body_length : Nat) : List Nat → Option Nat
  | [] => some body_capacity
  | length :: rest =>
    (grow_body body_capacity body_length length).bind fun capacity =>
      grow_body_all capacity (body_length + length) rest

/-- The limits that the callbacks apply to the spans of a header: a name is
only what its last span holds, and a value comes in one span. -/
structure SpannedHeader.Accepted (h : SpannedHeader) : Prop where
  field : ∀ span ∈ h.field.list, span.length < UVHTTP_MAX_HEADER_NAME_SIZE
  named : h.field.last ≠ []
  value : ∃ span, h.value.list = [span] ∧ span.length < UVHTTP_MAX_HEADER_VALUE_SIZE

/-- The limits that the callbacks apply to each span on its own, for a request
object that holds so many headers and body bytes at the start. -/
structure SpannedRequest.SpansWithinLimits (header_count body_capacity body_length : Nat) (r : SpannedRequest) :
    Prop where
  url : ∀ span ∈ r.url.list, span.length < MAX_URL_LEN
  headers : header_count + r.headers.length ≤ UVHTTP_MAX_HEADERS
  header : ∀ h ∈ r.headers, h.Accepted
  body : (grow_body_all body_capacity body_length (r.body.map List.length)).isSome

/-- The same limits on the elements as a whole. -/
structure SpannedRequest.WithinLimits (r : SpannedRequest) : Prop where
  url : r.url.whole.length < MAX_URL_LEN
  headers : r.headers.length ≤ UVHTTP_MAX_HEADERS
  field : ∀ h ∈ r.headers, 0 < h.field.whole.length ∧ h.field.whole.length < UVHTTP_MAX_HEADER_NAME_SIZE
  value : ∀ h ∈ r.headers, h.value.whole.length < UVHTTP_MAX_HEADER_VALUE_SIZE
  body : r.body.flatten.length ≤ UVHTTP_MAX_BODY_SIZE

/-- The URL as a handler reads it. -/
def read_url (url : List UInt8) : List UInt8 := if cstr url = [] then bytes "/" else cstr url

/-- The header as it is stored when name and value are these. -/
def stored_header (name value : List UInt8) : Header :=
  ⟨(cstr name).take (UVHTTP_HEADER_NAME_BUFFER_SIZE - 1), (cstr value).take (UVHTTP_HEADER_VALUE_BUFFER_SIZE - 1)⟩

/-- The headers as they are stored: of each name the last span only. -/
def SpannedRequest.stored_headers (r : SpannedRequest) : List Header :=
  r.headers.map fun h => stored_header h.field.last h.value.last

/-- The request a handler sees when every span is accepted by a request object
that held these headers and this body. -/
def SpannedRequest.delivered_onto (r : SpannedRequest) (headers : List Header) (body : List UInt8) : Seen where
  method := llhttp_method_to_uvhttp r.method
  url := read_url r.url.last
  headers := headers ++ r.stored_headers
  body := body ++ r.body.flatten

/-- The request a handler sees on a connection that holds nothing. -/
def SpannedRequest.delivered (r : SpannedRequest) : Seen := r.delivered_onto [] []

section execute

variable {alloc : Nat → Bool}

theorem execute_cons {c next : HttpParsing} {cb : ParserCallback} {seen : List Seen}
    (h : callback alloc c cb = (some next, seen)) (rest : List ParserCallback) :
    execute alloc c (cb :: rest) = ((execute alloc next rest).1, seen ++ (execute alloc next rest).2) := by
  rw [execute, h]

theorem execute_cons_none {c : HttpParsing} {cb : ParserCallback} {seen : List Seen}
    (h : callback alloc c cb = (none, seen)) (rest : List ParserCallback) :
    execute alloc c (cb :: rest) = (none, seen) := by
  rw [execute, h]

/-- Callbacks that succeed hand their state on. -/
theorem execute_append {c next : HttpParsing} {front : List ParserCallback} {seen : List Seen}
    (h : execute alloc c front = (some next, seen)) (back : List ParserCallback) :
    execute alloc c (front ++ back) = ((execute alloc next back).1, seen ++ (execute alloc next back).2) := by
  induction front generalizing c seen with
  | nil =>
    cases h
    rfl
  | cons cb front ih =>
    rcases hcb : callback alloc c cb with ⟨mid, first⟩
    cases mid with
    | none =>
      rw [execute_cons_none hcb] at h
      cases h
    | some mid =>
      rw [execute_cons hcb] at h
      rcases hmid : execute alloc mid front with ⟨last, later⟩
      rw [hmid] at h
      cases h
      rw [List.cons_append, execute_cons hcb, ih hmid, List.append_assoc]

/-- Callbacks behind an error are not made. -/
theorem execute_append_none {c : HttpParsing} {front : List ParserCallback} {seen : List Seen}
    (h : execute alloc c front = (none, seen)) (back : List ParserCallback) :
    execute alloc c (front ++ back) = (none, seen) := by
  induction front generalizing c seen with
  | nil => cases h
  | cons cb front ih =>
    rcases hcb : callback alloc c cb with ⟨mid, first⟩
    cases mid with
    | none =>
      rw [execute_cons_none hcb] at h
      rw [List.cons_append, execute_cons_none hcb, h]
    | some mid =>
      rw [execute_cons hcb] at h
      rcases hmid : execute alloc mid front with ⟨last, later⟩
      rw [hmid] at h
      cases h
      rw [List.cons_append, execute_cons hcb, ih hmid]

/-- A callback that overwrites what an earlier span left: of several spans only
the last one stays. -/
theorem execute_overwriting (f : List UInt8 → ParserCallback) (set : HttpParsing → List UInt8 → HttpParsing)
    {limit : Nat}
    (hcallback : ∀ c span, callback alloc c (f span) = (if span.length < limit then some (set c span) else none, []))
    (hset : ∀ c span span', set (set c span) span' = set c span') (c : HttpParsing) (spans : Spans) :
    execute alloc c (spans.list.map f) =
      (if ∀ span ∈ spans.list, span.length < limit then some (set c spans.last) else none, []) := by
  obtain ⟨list, hne⟩ := spans
  unfold Spans.last
  induction list generalizing c with
  | nil => exact absurd rfl hne
  | cons span rest ih =>
    have hfirst := hcallback c span
    by_cases hshort : span.length < limit
    · rw [if_pos hshort] at hfirst
      rw [List.map_cons, execute_cons hfirst]
      cases rest with
      | nil =>
        rw [if_pos (by simpa using hshort)]
        rfl
      | cons next rest =>
        rw [ih _ (List.cons_ne_nil next rest)]
        simp only [List.forall_mem_cons, hshort, true_and, List.nil_append, hset,
          List.getLast_cons (List.cons_ne_nil next rest)]
    · rw [if_neg hshort] at hfirst
      rw [List.map_cons, execute_cons_none hfirst, if_neg]
      exact fun h => hshort (h span List.mem_cons_self)

variable (alloc) in
theorem execute_url (c : HttpParsing) (spans : Spans) :
    execute alloc c (spans.list.map .url) =
      (if ∀ span ∈ spans.list, span.length < MAX_URL_LEN then
        some { c with request := { c.request with url := spans.last } } else none, []) := by
  refine execute_overwriting .url (fun c span => { c with request := { c.request with url := span } }) ?_
    (fun _ _ _ => rfl) c spans
  intro c span
  rw [callback, on_url]
  by_cases hlong : span.length ≥ MAX_URL_LEN
  · rw [if_pos hlong, if_neg (by omega)]
  · rw [if_neg hlong, if_pos (by omega)]

variable (alloc) in
theorem execute_field (c : HttpParsing) (spans : Spans) :
    execute alloc c (spans.list.map .header_field) =
      (if ∀ span ∈ spans.list, span.length < UVHTTP_MAX_HEADER_NAME_SIZE then
        some { c with current_header_field := spans.last } else none, []) := by
  refine execute_overwriting .header_field (fun c span => { c with current_header_field := span }) ?_
    (fun _ _ _ => rfl) c spans
  intro c span
  rw [callback, on_header_field]
  by_cases hlong : span.length ≥ UVHTTP_MAX_HEADER_NAME_SIZE
  · rw [if_pos hlong, if_neg (by omega)]
  · rw [if_neg hlong, if_pos (by omega)]

/-- The header table of a request: its slots exist, and either 32 or 64. -/
structure HeaderTable (request : Request) : Prop where
  count : request.headers.length ≤ request.headers_capacity
  capacity : request.headers_capacity = 32 ∨ request.headers_capacity = 64 ∧ request.headers_extra = true

/-- The request with other headers in a table of another size. -/
def Request.with_headers (request : Request) (headers : List Header) (headers_capacity : Nat)
    (headers_extra : Bool) : Request :=
  { request with headers, headers_capacity, headers_extra }

theorem store_header_eq {request : Request} (hslot : has_header_slot request request.headers.length = true)
    (name value : List UInt8) :
    store_header request name value = .ok (request.with_headers (request.headers ++ [stored_header name value])
      request.headers_capacity request.headers_extra) := by
  rw [store_header, if_pos hslot]
  rfl

/-- A header is added while fewer than `UVHTTP_MAX_HEADERS` are stored. -/
theorem add_header_spec (halloc : ∀ size, alloc size = true) {request : Request} (h : HeaderTable request)
    (name value : List UInt8) :
    if request.headers.length < UVHTTP_MAX_HEADERS then
      ∃ capacity extra, uvhttp_request_add_header alloc request name value =
          .ok (request.with_headers (request.headers ++ [stored_header name value]) capacity extra) ∧
        HeaderTable (request.with_headers (request.headers ++ [stored_header name value]) capacity extra)
    else uvhttp_request_add_header alloc request name value = .error .BUFFER_TOO_SMALL := by
  obtain ⟨hcount, hcapacity⟩ := h
  unfold uvhttp_request_add_header UVHTTP_MAX_HEADERS
  by_cases hfull : request.headers.length ≥ request.headers_capacity
  · rw [if_pos hfull]
    rcases hcapacity with hsmall | ⟨hlarge, hextra⟩
    · have hgrow : grow_headers request.headers_capacity = some 64 := by
        rw [hsmall]
        rfl
      rw [if_pos (by omega), hgrow]
      simp only [halloc, Bool.not_true, Bool.false_eq_true, if_false]
      rw [store_header_eq (by
        simp only [has_header_slot, Bool.or_true, Bool.and_true, decide_eq_true_eq]
        omega)]
      refine ⟨64, true, rfl, ⟨?_, .inr ⟨rfl, rfl⟩⟩⟩
      simp only [Request.with_headers, List.length_append, List.length_singleton]
      omega
    · have hgrow : grow_headers request.headers_capacity = none := by
        rw [hlarge]
        rfl
      rw [if_neg (by omega), hgrow]
  · have hslot : has_header_slot request request.headers.length = true := by
      simp only [has_header_slot, Bool.and_eq_true, Bool.or_eq_true, decide_eq_true_eq]
      refine ⟨by omega, ?_⟩
      rcases hcapacity with hsmall | ⟨_, hextra⟩
      · left
        unfold UVHTTP_INLINE_HEADERS_CAPACITY
        omega
      · exact .inr hextra
    rw [if_neg hfull, if_pos (by omega), store_header_eq hslot]
    refine ⟨_, _, rfl, ⟨?_, hcapacity⟩⟩
    simp only [Request.with_headers, List.length_append, List.length_singleton]
    omega

/-- A value is stored under the pending header name, if there is one, and uses
it up. -/
theorem on_header_value_spec (halloc : ∀ size, alloc size = true) {c : HttpParsing} (hc : HeaderTable c.request)
    (span : List UInt8) :
    if span.length < UVHTTP_MAX_HEADER_VALUE_SIZE ∧ c.current_header_field ≠ [] ∧
        c.request.headers.length < UVHTTP_MAX_HEADERS then
      ∃ capacity extra,
        on_header_value alloc c span = some { c with
          request := c.request.with_headers (c.request.headers ++ [stored_header c.current_header_field span])
            capacity extra
          current_header_field := [] } ∧
        HeaderTable (c.request.with_headers (c.request.headers ++ [stored_header c.current_header_field span])
          capacity extra)
    else on_header_value alloc c span = none := by
  have hadd := add_header_spec halloc hc c.current_header_field span
  by_cases hok : span.length < UVHTTP_MAX_HEADER_VALUE_SIZE ∧ c.current_header_field ≠ [] ∧
      c.request.headers.length < UVHTTP_MAX_HEADERS
  · obtain ⟨hshort, hnamed, hroom⟩ := hok
    rw [if_pos hroom] at hadd
    obtain ⟨capacity, extra, heq, htable⟩ := hadd
    rw [if_pos ⟨hshort, hnamed, hroom⟩]
    refine ⟨capacity, extra, ?_, htable⟩
    rw [on_header_value, if_neg (Nat.not_le.mpr hshort), if_neg (fun h => hnamed (List.length_eq_zero_iff.mp h)), heq]
  · rw [if_neg hok, on_header_value]
    by_cases hlong : span.length ≥ UVHTTP_MAX_HEADER_VALUE_SIZE
    · rw [if_pos hlong]
    · by_cases hnone : c.current_header_field.length = 0
      · rw [if_neg hlong, if_pos hnone]
      · rw [if_neg fun hroom => hok ⟨Nat.lt_of_not_le hlong, fun h => hnone (by rw [h]; rfl), hroom⟩] at hadd
        rw [if_neg hlong, if_neg hnone, hadd]

open Classical in
/-- The callbacks of one header: it is added when its spans are accepted and
there is room, and otherwise they end in an error. -/
theorem execute_header (halloc : ∀ size, alloc size = true) {c : HttpParsing} (hc : HeaderTable c.request)
    (h : SpannedHeader) :
    if h.Accepted ∧ c.request.headers.length < UVHTTP_MAX_HEADERS then
      ∃ capacity extra,
        execute alloc c h.callbacks =
          (some { c with
            request := c.request.with_headers
              (c.request.headers ++ [stored_header h.field.last h.value.last]) capacity extra
            current_header_field := [] }, []) ∧
        HeaderTable (c.request.with_headers
          (c.request.headers ++ [stored_header h.field.last h.value.last]) capacity extra)
    else execute alloc c h.callbacks = (none, []) := by
  unfold SpannedHeader.callbacks
  have hfield := execute_field alloc c h.field
  by_cases hshort : ∀ span ∈ h.field.list, span.length < UVHTTP_MAX_HEADER_NAME_SIZE
  · rw [if_pos hshort] at hfield
    rw [execute_append hfield]
    obtain ⟨first, rest, hvalue⟩ := List.exists_cons_of_ne_nil h.value.ne_nil
    have hlast : rest = [] → h.value.last = first := by
      rintro rfl
      simp [Spans.last, hvalue]
    have hstore := on_header_value_spec halloc (c := { c with current_header_field := h.field.last }) hc first
    rw [hvalue, List.map_cons]
    by_cases hok : first.length < UVHTTP_MAX_HEADER_VALUE_SIZE ∧ h.field.last ≠ [] ∧
        c.request.headers.length < UVHTTP_MAX_HEADERS
    · rw [if_pos hok] at hstore
      obtain ⟨capacity, extra, heq, htable⟩ := hstore
      rw [execute_cons (by rw [callback, heq])]
      cases rest with
      | nil =>
        rw [if_pos ⟨⟨hshort, hok.2.1, first, hvalue, hok.1⟩, hok.2.2⟩, hlast rfl]
        exact ⟨capacity, extra, rfl, htable⟩
      | cons next rest =>
        rw [if_neg]
        · rw [List.map_cons, execute_cons_none]
          · rfl
          · rw [callback, on_header_value]
            simp
        · rintro ⟨⟨-, -, span, hsingle, -⟩, -⟩
          rw [hvalue] at hsingle
          cases hsingle
    · rw [if_neg hok] at hstore
      rw [if_neg, execute_cons_none (by rw [callback, hstore])]
      · rfl
      · rintro ⟨⟨-, hnamed, span, hsingle, hspan⟩, hroom⟩
        rw [hvalue] at hsingle
        cases hsingle
        exact hok ⟨hspan, hnamed, hroom⟩
  · rw [if_neg hshort] at hfield
    rw [if_neg fun haccepted => hshort haccepted.1.field]
    exact execute_append_none hfield _

open Classical in
/-- The callbacks of the headers of a request. -/
theorem execute_headers (halloc : ∀ size, alloc size = true) {c : HttpParsing} (hc : HeaderTable c.request)
    (hpending : c.current_header_field = []) (hs : List SpannedHeader) :
    if (∀ h ∈ hs, h.Accepted) ∧ c.request.headers.length + hs.length ≤ UVHTTP_MAX_HEADERS then
      ∃ capacity extra,
        execute alloc c (hs.flatMap SpannedHeader.callbacks) =
          (some { c with
            request := c.request.with_headers
              (c.request.headers ++ hs.map fun h => stored_header h.field.last h.value.last) capacity extra }, []) ∧
        HeaderTable (c.request.with_headers
          (c.request.headers ++ hs.map fun h => stored_header h.field.last h.value.last) capacity extra)
    else execute alloc c (hs.flatMap SpannedHeader.callbacks) = (none, []) := by
  induction hs generalizing c with
  | nil =>
    have hcount : c.request.headers.length ≤ UVHTTP_MAX_HEADERS := by
      have hle := hc.count
      unfold UVHTTP_MAX_HEADERS
      rcases hc.capacity with hsmall | ⟨hlarge, -⟩
      · omega
      · omega
    rw [if_pos ⟨fun h hh => (by cases hh), hcount⟩]
    refine ⟨c.request.headers_capacity, c.request.headers_extra, ?_⟩
    rw [List.map_nil, List.append_nil]
    exact ⟨rfl, hc⟩
  | cons h hs ih =>
    have hfirst := execute_header halloc hc h
    rw [List.flatMap_cons, List.length_cons]
    by_cases hok : h.Accepted ∧ c.request.headers.length < UVHTTP_MAX_HEADERS
    · rw [if_pos hok] at hfirst
      obtain ⟨capacity, extra, heq, htable⟩ := hfirst
      rw [execute_append heq]
      have hrest := ih (c := ⟨_, c.parsing_complete, []⟩) htable rfl
      simp only [Request.with_headers, List.length_append, List.length_singleton] at hrest
      by_cases hall : (∀ g ∈ h :: hs, g.Accepted) ∧
          c.request.headers.length + (hs.length + 1) ≤ UVHTTP_MAX_HEADERS
      · obtain ⟨haccepted, hcount⟩ := hall
        rw [if_pos ⟨(List.forall_mem_cons.mp haccepted).2, by omega⟩] at hrest
        obtain ⟨capacity', extra', heq', htable'⟩ := hrest
        rw [if_pos ⟨haccepted, hcount⟩]
        refine ⟨capacity', extra', ?_⟩
        simp only [Request.with_headers] at heq' htable' ⊢
        rw [List.append_assoc, List.singleton_append] at heq' htable'
        rw [heq', hpending, List.map_cons]
        exact ⟨rfl, htable'⟩
      · rw [if_neg hall]
        rw [if_neg fun h' => hall ⟨List.forall_mem_cons.mpr ⟨hok.1, h'.1⟩, by omega⟩] at hrest
        simp only [Request.with_headers]
        rw [hrest]
        rfl
    · rw [if_neg hok] at hfirst
      rw [execute_append_none hfirst, if_neg]
      rintro ⟨haccepted, hcount⟩
      exact hok ⟨(List.forall_mem_cons.mp haccepted).1, by omega⟩

/-- The body buffer of a request: without one there is no capacity. -/
def BodyBuffer (request : Request) : Prop := request.body = none → request.body_capacity = 0

theorem on_body_spec (halloc : ∀ size, alloc size = true) {c : HttpParsing} (hc : BodyBuffer c.request)
    (span : List UInt8) :
    match grow_body c.request.body_capacity (c.request.body.getD []).length span.length with
    | none => on_body alloc c span = none
    | some capacity => ∃ body : Option (List UInt8),
        on_body alloc c span = some { c with request := { c.request with body, body_capacity := capacity } } ∧
        body.getD [] = c.request.body.getD [] ++ span ∧ (body = none → capacity = 0) := by
  unfold on_body
  dsimp only
  cases hgrow : grow_body c.request.body_capacity (c.request.body.getD []).length span.length with
  | none => rfl
  | some capacity =>
    dsimp only
    by_cases hsame : capacity = c.request.body_capacity
    · rw [if_pos hsame]
      subst hsame
      refine ⟨_, rfl, ?_, ?_⟩
      · cases hbody : c.request.body with
        | none =>
          have hempty : span = [] := by
            unfold grow_body at hgrow
            rw [hc hbody, hbody] at hgrow
            simp only [Option.getD_none, List.length_nil, Nat.zero_add] at hgrow
            split at hgrow
            · split at hgrow
              · cases hgrow
              · simp at hgrow
                omega
            · exact List.length_eq_zero_iff.mp (by omega)
          rw [hempty]
          rfl
        | some body => rfl
      · intro hnone
        exact hc (by simpa using hnone)
    · rw [if_neg hsame]
      simp only [halloc, Bool.not_true, Bool.false_eq_true, if_false]
      exact ⟨_, rfl, rfl, fun h => (by cases h)⟩

/-- The callbacks of a body. -/
theorem execute_body (halloc : ∀ size, alloc size = true) {c : HttpParsing} (hc : BodyBuffer c.request)
    (spans : List (List UInt8)) :
    match grow_body_all c.request.body_capacity (c.request.body.getD []).length (spans.map List.length) with
    | none => execute alloc c (spans.map .body) = (none, [])
    | some capacity => ∃ body : Option (List UInt8),
        execute alloc c (spans.map .body) =
          (some { c with request := { c.request with body, body_capacity := capacity } }, []) ∧
        body.getD [] = c.request.body.getD [] ++ spans.flatten ∧ (body = none → capacity = 0) := by
  induction spans generalizing c with
  | nil => exact ⟨c.request.body, rfl, (List.append_nil _).symm, hc⟩
  | cons span spans ih =>
    have hfirst := on_body_spec halloc hc span
    rw [List.map_cons, List.map_cons, grow_body_all]
    cases hgrow : grow_body c.request.body_capacity (c.request.body.getD []).length span.length with
    | none =>
      rw [hgrow] at hfirst
      rw [Option.bind_none]
      exact execute_cons_none (by rw [callback, hfirst]) _
    | some capacity =>
      rw [hgrow] at hfirst
      obtain ⟨body, heq, hbody, hbuffer⟩ := hfirst
      rw [Option.bind_some, execute_cons (by rw [callback, heq])]
      have hrest := ih (c := { c with request := { c.request with body, body_capacity := capacity } }) hbuffer
      simp only [hbody, List.length_append] at hrest
      cases hall : grow_body_all capacity ((c.request.body.getD []).length + span.length)
          (spans.map List.length) with
      | none =>
        rw [hall] at hrest
        dsimp only
        rw [hrest]
        rfl
      | some last =>
        rw [hall] at hrest
        obtain ⟨body', heq', hbody', hbuffer'⟩ := hrest
        refine ⟨body', ?_, ?_, hbuffer'⟩
        · rw [heq']
          rfl
        · rw [hbody', List.flatten_cons, List.append_assoc]

/-- A connection between two messages. -/
structure Between (c : HttpParsing) : Prop where
  table : HeaderTable c.request
  buffer : BodyBuffer c.request
  pending : c.current_header_field = []

theorem between_new : Between parsing_new :=
  ⟨⟨Nat.zero_le _, .inl rfl⟩, fun h => (by cases h), rfl⟩

theorem between_restart {c : HttpParsing} (h : HeaderTable c.request) : Between (parsing_restart c) :=
  ⟨⟨Nat.zero_le _, h.capacity⟩, fun _ => rfl, rfl⟩

theorem ensure_valid_url_seen (request : Request) :
    (ensure_valid_url request).seen =
      ⟨request.method, read_url request.url, request.headers, request.body.getD []⟩ := by
  unfold ensure_valid_url read_url
  by_cases hempty : cstr request.url = []
  · rw [if_pos hempty, if_pos hempty]
    rfl
  · rw [if_neg hempty, if_neg hempty]
    rfl

/-- Only the URL is replaced. -/
theorem ensure_valid_url_eq (request : Request) :
    ∃ url, ensure_valid_url request = { request with url } := by
  unfold ensure_valid_url
  split
  · exact ⟨bytes "/", rfl⟩
  · exact ⟨request.url, rfl⟩

open Classical in
/-- Between two messages, a request is dispatched exactly when each of its
spans is within the limits: as its last spans spell it, behind the headers
and the body that the request object still held. -/
theorem execute_request (halloc : ∀ size, alloc size = true) {c : HttpParsing} (hc : Between c)
    (r : SpannedRequest) :
    if r.SpansWithinLimits c.request.headers.length c.request.body_capacity (c.request.body.getD []).length then
      ∃ c', execute alloc c r.callbacks =
          (some c', [r.delivered_onto c.request.headers (c.request.body.getD [])]) ∧
        Between c' ∧ c'.request.headers = c.request.headers ++ r.stored_headers ∧
        c'.request.body.getD [] = c.request.body.getD [] ++ r.body.flatten ∧
        grow_body_all c.request.body_capacity (c.request.body.getD []).length (r.body.map List.length) =
          some c'.request.body_capacity
    else execute alloc c r.callbacks = (none, []) := by
  obtain ⟨⟨method, url, headers, slots, dynamic, body, room⟩, complete, field⟩ := c
  obtain ⟨htable, hbuffer, hpending⟩ := hc
  dsimp only at hpending
  subst hpending
  rw [SpannedRequest.callbacks, execute_cons (show callback alloc _ .message_begin = (some _, []) from rfl)]
  have hurl := execute_url alloc (on_message_begin
    ⟨⟨method, url, headers, slots, dynamic, body, room⟩, complete, []⟩) r.url
  by_cases hu : ∀ span ∈ r.url.list, span.length < MAX_URL_LEN
  · rw [if_pos hu] at hurl
    rw [execute_append hurl]
    have hheaders := execute_headers halloc
      (c := ⟨⟨method, r.url.last, headers, slots, dynamic, body, room⟩, false, []⟩)
      ⟨htable.count, htable.capacity⟩ rfl r.headers
    simp only [Request.with_headers] at hheaders
    dsimp only [on_message_begin]
    by_cases hh : (∀ h ∈ r.headers, h.Accepted) ∧ headers.length + r.headers.length ≤ UVHTTP_MAX_HEADERS
    · rw [if_pos hh] at hheaders
      obtain ⟨slots', dynamic', heq, htable'⟩ := hheaders
      have hbody := execute_body halloc (c := ⟨⟨method, r.url.last, headers ++ r.stored_headers, slots', dynamic',
        body, room⟩, false, []⟩) hbuffer r.body
      change execute alloc _ _ = (some ⟨⟨method, r.url.last, headers ++ r.stored_headers, slots', dynamic',
        body, room⟩, false, []⟩, []) at heq
      rw [execute_append heq]
      cases hgrow : grow_body_all room (body.getD []).length (r.body.map List.length) with
      | none =>
        simp only [hgrow] at hbody
        rw [if_neg fun hlimits => absurd hlimits.body (by simp [hgrow]), execute_append_none hbody]
        rfl
      | some last =>
        simp only [hgrow] at hbody
        obtain ⟨body', hrun, hbytes, hbuffer'⟩ := hbody
        rw [if_pos ⟨hu, hh.2, hh.1, by rw [hgrow]; rfl⟩, execute_append hrun,
          execute_cons (show callback alloc _ (.message_complete r.method) = (some _, _) from rfl)]
        refine ⟨_, Prod.ext rfl ?_, ?_⟩
        · change [(ensure_valid_url _).seen] = _
          rw [ensure_valid_url_seen, SpannedRequest.delivered_onto]
          simp only [hbytes]
        · obtain ⟨url', hvalid⟩ := ensure_valid_url_eq ⟨llhttp_method_to_uvhttp r.method, r.url.last,
            headers ++ r.stored_headers, slots', dynamic', body', last⟩
          simp only [hvalid]
          exact ⟨⟨⟨htable'.count, htable'.capacity⟩, hbuffer', rfl⟩, rfl, hbytes, rfl⟩
    · rw [if_neg hh] at hheaders
      rw [execute_append_none hheaders, if_neg fun hlimits => hh ⟨hlimits.header, hlimits.headers⟩]
      rfl
  · rw [if_neg hu] at hurl
    rw [execute_append_none hurl, if_neg fun hlimits => hu hlimits.url]
    rfl

end execute

theorem grow_body_whole (length : Nat) :
    (grow_body UVHTTP_INITIAL_BUFFER_SIZE 0 length).isSome ↔ length ≤ UVHTTP_MAX_BODY_SIZE := by
  unfold grow_body UVHTTP_INITIAL_BUFFER_SIZE UVHTTP_MAX_BODY_SIZE
  split
  · dsimp only
    split
    · simp only [Option.isSome_none, Bool.false_eq_true, false_iff]
      omega
    · simp only [Option.isSome_some, true_iff]
      omega
  · simp only [Option.isSome_some, true_iff]
    omega

namespace SpannedRequest

/-- In one span each, the limits on spans are the limits on the elements. -/
theorem uncut_withinLimits (r : SpannedRequest) :
    r.uncut.SpansWithinLimits 0 UVHTTP_INITIAL_BUFFER_SIZE 0 ↔ r.WithinLimits := by
  have hbody : (grow_body_all UVHTTP_INITIAL_BUFFER_SIZE 0 (r.uncut.body.map List.length)).isSome ↔
      r.body.flatten.length ≤ UVHTTP_MAX_BODY_SIZE := by
    by_cases hnone : r.body = []
    · simp [uncut, hnone, grow_body_all]
    · simp only [uncut, if_neg hnone, List.map_cons, List.map_nil, grow_body_all]
      rw [← grow_body_whole, Option.bind_fun_some]
  refine ⟨?_, ?_⟩
  · rintro ⟨hurl, hcount, hheader, hgrow⟩
    have hfield : ∀ h ∈ r.headers, SpannedHeader.Accepted ⟨h.field.uncut, h.value.uncut⟩ :=
      fun h hh => hheader _ (List.mem_map_of_mem hh)
    refine ⟨hurl _ List.mem_cons_self, by simpa [uncut] using hcount, ?_, ?_, hbody.mp hgrow⟩
    · intro h hh
      exact ⟨List.length_pos_iff.mpr (hfield h hh).named, (hfield h hh).field _ List.mem_cons_self⟩
    · intro h hh
      obtain ⟨span, hsingle, hspan⟩ := (hfield h hh).value
      cases hsingle
      exact hspan
  · rintro ⟨hurl, hcount, hfield, hvalue, hlength⟩
    refine ⟨?_, by simpa [uncut] using hcount, ?_, hbody.mpr hlength⟩
    · intro span hspan
      rw [List.mem_singleton.mp hspan]
      exact hurl
    · intro h' hh'
      obtain ⟨h, hh, rfl⟩ := List.mem_map.mp hh'
      refine ⟨?_, List.length_pos_iff.mp (hfield h hh).1, h.value.whole, rfl, hvalue h hh⟩
      intro span hspan
      rw [List.mem_singleton.mp hspan]
      exact (hfield h hh).2

/-- The cutting leaves what is stored intact: the last span of the URL and of
each header name reads as the whole, each value comes in one span and the body
grows within the limit. -/
structure Intact (r : SpannedRequest) : Prop where
  url : read_url r.url.last = read_url r.url.whole
  named : ∀ h ∈ r.headers, h.field.last ≠ [] ∧ cstr h.field.last = cstr h.field.whole
  value : ∀ h ∈ r.headers, h.value.list.length = 1
  body : (grow_body_all UVHTTP_INITIAL_BUFFER_SIZE 0 (r.body.map List.length)).isSome

theorem length_span_le {spans : Spans} {span : List UInt8} (h : span ∈ spans.list) :
    span.length ≤ spans.whole.length := by
  obtain ⟨front, back, heq⟩ := List.append_of_mem h
  rw [Spans.whole, heq, List.flatten_append, List.flatten_cons]
  simp only [List.length_append]
  omega

/-- A request within the limits is accepted span by span when its values come
in one span, no name ends in an empty span and the body grows within the limit. -/
theorem spansWithinLimits_iff {r : SpannedRequest} (h : r.WithinLimits) :
    r.SpansWithinLimits 0 UVHTTP_INITIAL_BUFFER_SIZE 0 ↔
      (∀ h ∈ r.headers, h.field.last ≠ []) ∧ (∀ h ∈ r.headers, h.value.list.length = 1) ∧
        (grow_body_all UVHTTP_INITIAL_BUFFER_SIZE 0 (r.body.map List.length)).isSome := by
  refine ⟨?_, ?_⟩
  · rintro ⟨-, -, hheader, hbody⟩
    refine ⟨fun g hg => (hheader g hg).named, ?_, hbody⟩
    intro g hg
    obtain ⟨span, hsingle, -⟩ := (hheader g hg).value
    rw [hsingle]
    rfl
  · rintro ⟨hnamed, hvalue, hbody⟩
    refine ⟨fun span hspan => Nat.lt_of_le_of_lt (length_span_le hspan) h.url, ?_, ?_, hbody⟩
    · rw [Nat.zero_add]
      exact h.headers
    intro g hg
    refine ⟨fun span hspan => Nat.lt_of_le_of_lt (length_span_le hspan) (h.field g hg).2, hnamed g hg, ?_⟩
    obtain ⟨span, hsingle⟩ := List.length_eq_one_iff.mp (hvalue g hg)
    refine ⟨span, hsingle, Nat.lt_of_le_of_lt (length_span_le ?_) (h.value g hg)⟩
    rw [hsingle]
    exact List.mem_cons_self

/-- Within the limits, a header name is stored whole. -/
theorem stored_header_inj {name name' value value' : List UInt8}
    (hname : name.length < UVHTTP_MAX_HEADER_NAME_SIZE) (hname' : name'.length < UVHTTP_MAX_HEADER_NAME_SIZE)
    (h : stored_header name value = stored_header name' value') : cstr name = cstr name' := by
  have hcut : ∀ text : List UInt8, text.length < UVHTTP_MAX_HEADER_NAME_SIZE →
      (cstr text).take (UVHTTP_HEADER_NAME_BUFFER_SIZE - 1) = cstr text := by
    intro text htext
    have hle := length_cstr_le text
    unfold UVHTTP_MAX_HEADER_NAME_SIZE at htext
    rw [List.take_of_length_le]
    unfold UVHTTP_HEADER_NAME_BUFFER_SIZE
    omega
  have heq := congrArg Header.name h
  simpa only [stored_header, hcut name hname, hcut name' hname'] using heq

/-- What is seen of accepted spans is what is seen of the uncut request when
URL and header names read the same. -/
theorem delivered_eq_iff {r : SpannedRequest} (h : r.WithinLimits)
    (hvalue : ∀ h ∈ r.headers, h.value.list.length = 1) :
    r.delivered = r.uncut.delivered ↔
      read_url r.url.last = read_url r.url.whole ∧ ∀ h ∈ r.headers, cstr h.field.last = cstr h.field.whole := by
  have hwhole : ∀ g ∈ r.headers, g.value.last = g.value.whole := by
    intro g hg
    obtain ⟨span, hsingle⟩ := List.length_eq_one_iff.mp (hvalue g hg)
    simp [Spans.last, Spans.whole, hsingle]
  have hlast : ∀ g ∈ r.headers, g.field.last.length < UVHTTP_MAX_HEADER_NAME_SIZE := fun g hg =>
    Nat.lt_of_le_of_lt (length_span_le (List.getLast_mem g.field.ne_nil)) (h.field g hg).2
  have hbody : r.uncut.body.flatten = r.body.flatten := by
    unfold uncut
    by_cases hnone : r.body = []
    · simp [hnone]
    · simp [hnone]
  have hheaders : r.stored_headers = r.uncut.stored_headers ↔
      ∀ g ∈ r.headers, cstr g.field.last = cstr g.field.whole := by
    simp only [stored_headers, uncut, List.map_map, Function.comp_def, Spans.uncut_last, List.map_inj_left]
    refine forall_congr' fun g => forall_congr' fun hg => ⟨?_, ?_⟩
    · exact stored_header_inj (hlast g hg) (h.field g hg).2
    · intro hsame
      rw [stored_header, stored_header, hsame, hwhole g hg]
  unfold delivered delivered_onto
  rw [Seen.mk.injEq, List.nil_append, List.nil_append, hheaders, hbody]
  simp only [and_true]
  exact and_iff_right rfl

/-- Whether the server accepts the request on a new connection. -/
def accepted (alloc : Nat → Bool) (r : SpannedRequest) : Bool :=
  (execute alloc parsing_new r.callbacks).1.isSome

/-- The requests a handler sees. -/
def seen (alloc : Nat → Bool) (r : SpannedRequest) : List Seen :=
  (execute alloc parsing_new r.callbacks).2

/-- A request is accepted or not, and seen by its handler, as if it had come
uncut exactly when it is within the limits and the cutting leaves it intact,
or when it is beyond them as a whole and span by span. -/
theorem seen_eq_uncut_iff {alloc : Nat → Bool} (halloc : ∀ size, alloc size = true) (r : SpannedRequest) :
    (r.accepted alloc = r.uncut.accepted alloc ∧
        (r.accepted alloc = true → r.seen alloc = r.uncut.seen alloc)) ↔
      (r.WithinLimits ∧ r.Intact) ∨
        (¬ r.WithinLimits ∧ ¬ r.SpansWithinLimits 0 UVHTTP_INITIAL_BUFFER_SIZE 0) := by
  classical
  have hcut := execute_request halloc between_new r
  have huncut := execute_request halloc between_new r.uncut
  change if r.SpansWithinLimits 0 UVHTTP_INITIAL_BUFFER_SIZE 0 then _ else _ at hcut
  change if r.uncut.SpansWithinLimits 0 UVHTTP_INITIAL_BUFFER_SIZE 0 then _ else _ at huncut
  unfold accepted seen
  by_cases hwithin : r.WithinLimits
  · rw [if_pos (r.uncut_withinLimits.mpr hwithin)] at huncut
    obtain ⟨c', hrun', -⟩ := huncut
    rw [hrun']
    by_cases hspans : r.SpansWithinLimits 0 UVHTTP_INITIAL_BUFFER_SIZE 0
    · rw [if_pos hspans] at hcut
      obtain ⟨c, hrun, -⟩ := hcut
      obtain ⟨hnamed, hvalue, hbody⟩ := (spansWithinLimits_iff hwithin).mp hspans
      rw [hrun]
      refine ⟨?_, ?_⟩
      · rintro ⟨-, hsame⟩
        have hdelivered := (delivered_eq_iff hwithin hvalue).mp (List.singleton_inj.mp (hsame rfl))
        exact .inl ⟨hwithin, hdelivered.1, fun g hg => ⟨hnamed g hg, hdelivered.2 g hg⟩, hvalue, hbody⟩
      · rintro (⟨-, hintact⟩ | ⟨hbeyond, -⟩)
        · refine ⟨rfl, fun _ => congrArg (fun seen => [seen]) ?_⟩
          exact (delivered_eq_iff hwithin hvalue).mpr ⟨hintact.url, fun g hg => (hintact.named g hg).2⟩
        · exact absurd hwithin hbeyond
    · rw [if_neg hspans] at hcut
      rw [hcut]
      refine ⟨fun h => absurd h.1 (by simp), ?_⟩
      rintro (⟨-, hintact⟩ | ⟨hbeyond, -⟩)
      · exact absurd ((spansWithinLimits_iff hwithin).mpr
          ⟨fun g hg => (hintact.named g hg).1, hintact.value, hintact.body⟩) hspans
      · exact absurd hwithin hbeyond
  · rw [if_neg fun h => hwithin (r.uncut_withinLimits.mp h)] at huncut
    rw [huncut]
    by_cases hspans : r.SpansWithinLimits 0 UVHTTP_INITIAL_BUFFER_SIZE 0
    · rw [if_pos hspans] at hcut
      obtain ⟨c, hrun, -⟩ := hcut
      rw [hrun]
      refine ⟨fun h => absurd h.1 (by simp), ?_⟩
      rintro (⟨hwithin', -⟩ | ⟨-, hbeyond⟩)
      · exact absurd hwithin' hwithin
      · exact absurd hspans hbeyond
    · rw [if_neg hspans] at hcut
      rw [hcut]
      exact ⟨fun _ => .inr ⟨hwithin, hspans⟩, fun _ => ⟨rfl, fun h => (by cases h)⟩⟩

/-- A request whose body comes in two spans. -/
theorem seen_eq_uncut_two_body_spans :
    let r : SpannedRequest := ⟨.HTTP_POST, ⟨[bytes "/submit"], by decide⟩,
      [⟨⟨[bytes "Host"], by decide⟩, ⟨[bytes "localhost"], by decide⟩⟩], [bytes "a=1", bytes "&b=2"]⟩
    r.accepted (fun _ => true) = r.uncut.accepted (fun _ => true) ∧
      (r.accepted (fun _ => true) = true → r.seen (fun _ => true) = r.uncut.seen (fun _ => true)) := by
  intro r
  refine (seen_eq_uncut_iff (fun _ => rfl) r).mpr (.inl ⟨⟨by decide, by decide, ?_, ?_, by decide⟩, rfl, ?_, ?_, rfl⟩)
  · intro h hh
    rw [List.mem_singleton.mp hh]
    decide
  · intro h hh
    rw [List.mem_singleton.mp hh]
    decide
  · intro h hh
    rw [List.mem_singleton.mp hh]
    decide
  · intro h hh
    rw [List.mem_singleton.mp hh]
    decide

/-- A URL in two spans: the handler sees the second one only. -/
theorem seen_ne_uncut_url_spans :
    let r : SpannedRequest := ⟨.HTTP_GET, ⟨[bytes "/a", bytes "b"], by decide⟩, [], []⟩
    ¬ (r.accepted (fun _ => true) = r.uncut.accepted (fun _ => true) ∧
      (r.accepted (fun _ => true) = true → r.seen (fun _ => true) = r.uncut.seen (fun _ => true))) := by
  decide

end SpannedRequest

end uvhttp.http
