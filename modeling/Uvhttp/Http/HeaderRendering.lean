import Uvhttp.Lib.TextBlock
import Uvhttp.Http.Response

namespace uvhttp.rendering

open memory http

/-- The locals of `build_response_headers`, with the buffer it prints into. -/
structure Rendering where
  buffer : List UInt8
  pos : Nat
  has_content_type : Bool
  has_content_length : Bool
  has_connection : Bool
  deriving DecidableEq, Repr

/-- `UVHTTP_SNAPPEND`. The result is `none` where `snprintf` writes outside the buffer. -/
def UVHTTP_SNAPPEND (length : Nat) (text : List UInt8) (s : Rendering) : Option Rendering :=
  (text_block.append 0 length (s.buffer, s.pos) text).map fun printed =>
    { s with buffer := printed.1, pos := printed.2 }

/-- The line that is printed for a header. -/
def header_line (header : Header) : List UInt8 :=
  header.name ++ bytes ": " ++ header.value ++ bytes "\r\n"

/-- One pass of the loop over the headers. -/
def append_header (length : Nat) (s : Rendering) (header : Header) : Option Rendering :=
  if contains_control_chars header.value then some s
  else
    (UVHTTP_SNAPPEND length (header_line header) s).map fun s =>
      { s with
        has_content_type := s.has_content_type || strcasecmp header.name (bytes "Content-Type")
        has_content_length := s.has_content_length || strcasecmp header.name (bytes "Content-Length")
        has_connection := s.has_connection || strcasecmp header.name (bytes "Connection") }

def append_content_type (length : Nat) (s : Rendering) : Option Rendering :=
  if s.has_content_type then some s else UVHTTP_SNAPPEND length (bytes "Content-Type: text/plain\r\n") s

def append_content_length (body : Option (List UInt8)) (length : Nat) (s : Rendering) : Option Rendering :=
  if s.has_content_length then some s
  else if (body.getD []).length > 0 then
    UVHTTP_SNAPPEND length
      (bytes "Content-Length: " ++ bytes (toString (body.getD []).length) ++ bytes "\r\n") s
  else UVHTTP_SNAPPEND length (bytes "Content-Length: 0\r\n") s

def append_connection (keepalive : Bool) (length : Nat) (s : Rendering) : Option Rendering :=
  if s.has_connection then some s
  else if keepalive then
    (UVHTTP_SNAPPEND length (bytes "Connection: keep-alive\r\n") s).bind
      (UVHTTP_SNAPPEND length
        (bytes "Keep-Alive: timeout=" ++ bytes (toString UVHTTP_DEFAULT_KEEP_ALIVE_TIMEOUT) ++ bytes ", max=" ++
          bytes (toString UVHTTP_DEFAULT_KEEP_ALIVE_MAX) ++ bytes "\r\n"))
  else UVHTTP_SNAPPEND length (bytes "Connection: close\r\n") s

def status_line (status_code : Int) : List UInt8 :=
  bytes "HTTP/1.1 " ++ bytes (toString status_code) ++ bytes " " ++ get_status_text status_code ++ bytes "\r\n"

/-- `build_response_headers`, into a buffer that the caller says has `length`
bytes: the buffer after it and the length it reports. -/
def build_response_headers (r : Response) (buffer : List UInt8) (length : Nat) : Option (List UInt8 × Nat) := do
  let s ← UVHTTP_SNAPPEND length (status_line r.status_code) ⟨buffer, 0, false, false, false⟩
  let s ← (r.headers.mapIdx fun i h => (⟨h.name, header_value_at r.headers i h⟩ : Header)).foldlM
    (append_header length) s
  let s ← append_content_type length s
  let s ← append_content_length r.body length s
  let s ← append_connection r.keepalive length s
  let s ← UVHTTP_SNAPPEND length (bytes "\r\n") s
  return (s.buffer, s.pos)

/-- What `uvhttp_alloc` answers for a size: no block, or one with anything in it. -/
abbrev Allocator := (size : Nat) → Option (List.Vector UInt8 size)

/-- The two passes of `uvhttp_response_build_data`, which print what the
response is before and after its body length is restored: the headers buffer
and the length of the headers. -/
def render_headers (alloc : Allocator) (first second : Response) :
    Option (Except UvhttpError (List UInt8 × Nat)) :=
  let headers_size := UVHTTP_INITIAL_BUFFER_SIZE * 2
  match alloc headers_size with
  | none => some (.error .OUT_OF_MEMORY)
  | some headers_buffer => do
    let built ← build_response_headers first headers_buffer.toList headers_size
    if built.2 ≥ headers_size then
      let headers_size := built.2 + UVHTTP_RESPONSE_HEADER_SAFETY_MARGIN
      match alloc headers_size with
      | none => some (.error .OUT_OF_MEMORY)
      | some headers_buffer => (build_response_headers second headers_buffer.toList headers_size).map .ok
    else some (.ok built)

/-- The response data: `memcpy` from the headers buffer and the body, and the
terminator behind them. -/
def copy_response (response_data headers_buffer : List UInt8) (headers_length : Nat) (body : List UInt8) :
    Option (List UInt8) := do
  let headers ← load headers_buffer.length headers_buffer 0 headers_length
  let response_data ← store response_data.length response_data 0 headers
  let response_data ← store response_data.length response_data headers_length body
  let response_data ← store response_data.length response_data (headers_length + body.length) [0]
  return response_data.take (headers_length + body.length)

/-- `uvhttp_response_build_data`, of a response that has not been sent and whose body is not compressed. -/
def uvhttp_response_build_data (alloc : Allocator) (r : Response) :
    Option (Except UvhttpError (List UInt8)) := do
  match ← render_headers alloc r r with
  | .error e => some (.error e)
  | .ok (headers_buffer, headers_length) =>
    let body := r.body.getD []
    match alloc (headers_length + body.length + 1) with
    | none => some (.error .OUT_OF_MEMORY)
    | some response_data => (copy_response response_data.toList headers_buffer headers_length body).map .ok

section rendering

variable {length : Nat} {s s' : Rendering} {sent : List Header} {printed : List UInt8}

/-- What the locals say after `printed`, which has the lines of the headers `sent`. -/
structure Rendered (length : Nat) (s : Rendering) (sent : List Header) (printed : List UInt8) : Prop where
  holds : text_block.Holds 0 length (s.buffer, s.pos) printed
  content_type : s.has_content_type = sent.any fun h => strcasecmp h.name (bytes "Content-Type")
  content_length : s.has_content_length = sent.any fun h => strcasecmp h.name (bytes "Content-Length")
  connection : s.has_connection = sent.any fun h => strcasecmp h.name (bytes "Connection")

theorem Rendered.append (h : Rendered length s sent printed) (hlength : 0 < length) (text : List UInt8) :
    ∃ s', UVHTTP_SNAPPEND length text s = some s' ∧ Rendered length s' sent (printed ++ text) := by
  obtain ⟨block, happend, hholds⟩ := h.holds.append hlength text
  refine ⟨{ s with buffer := block.1, pos := block.2 }, ?_, hholds, h.content_type, h.content_length, h.connection⟩
  rw [UVHTTP_SNAPPEND, happend]
  rfl

/-- A pass of the loop prints the line of a header, unless its value has control characters. -/
theorem Rendered.header (h : Rendered length s sent printed) (hlength : 0 < length) (header : Header) :
    ∃ s', append_header length s header = some s' ∧
      Rendered length s' (sent ++ [header].filter fun h => !contains_control_chars h.value)
        (printed ++ ([header].filter fun h => !contains_control_chars h.value).flatMap header_line) := by
  rw [append_header]
  cases hcontrol : contains_control_chars header.value with
  | true =>
    refine ⟨s, rfl, ?_⟩
    rw [List.filter_cons_of_neg (by rw [hcontrol]; decide), List.filter_nil, List.flatMap_nil, List.append_nil,
      List.append_nil]
    exact h
  | false =>
    obtain ⟨s', happend, hrendered⟩ := h.append hlength (header_line header)
    rw [List.filter_cons_of_pos (by rw [hcontrol]; rfl), List.filter_nil, List.flatMap_singleton, if_neg (by decide),
      happend]
    refine ⟨_, rfl, hrendered.holds, ?_, ?_, ?_⟩
    · rw [List.any_append, List.any_cons, List.any_nil, Bool.or_false, ← hrendered.content_type]
    · rw [List.any_append, List.any_cons, List.any_nil, Bool.or_false, ← hrendered.content_length]
    · rw [List.any_append, List.any_cons, List.any_nil, Bool.or_false, ← hrendered.connection]

/-- The loop prints the lines of the headers that are sent. -/
theorem Rendered.headers (h : Rendered length s sent printed) (hlength : 0 < length) (headers : List Header) :
    ∃ s', headers.foldlM (append_header length) s = some s' ∧
      Rendered length s' (sent ++ headers.filter fun h => !contains_control_chars h.value)
        (printed ++ (headers.filter fun h => !contains_control_chars h.value).flatMap header_line) := by
  induction headers generalizing s sent printed with
  | nil =>
    refine ⟨s, rfl, ?_⟩
    rw [List.filter_nil, List.flatMap_nil, List.append_nil, List.append_nil]
    exact h
  | cons header rest ih =>
    obtain ⟨next, hnext, hrendered⟩ := h.header hlength header
    obtain ⟨s', hrest, hdone⟩ := ih hrendered
    refine ⟨s', ?_, ?_⟩
    · rw [List.foldlM_cons, hnext]
      exact hrest
    · have hfilter : (header :: rest).filter (fun h => !contains_control_chars h.value) =
          ([header].filter fun h => !contains_control_chars h.value) ++
            rest.filter fun h => !contains_control_chars h.value := by
        rw [← List.filter_append]
        rfl
      rw [hfilter, List.flatMap_append, ← List.append_assoc, ← List.append_assoc]
      exact hdone

theorem Rendered.append_content_type (h : Rendered length s sent printed) (hlength : 0 < length) :
    ∃ s', append_content_type length s = some s' ∧ Rendered length s' sent
      (printed ++ if sent.any fun h => strcasecmp h.name (bytes "Content-Type") then []
        else bytes "Content-Type: text/plain\r\n") := by
  rw [rendering.append_content_type, h.content_type]
  split
  · exact ⟨s, rfl, by rw [List.append_nil]; exact h⟩
  · exact h.append hlength _

theorem Rendered.append_content_length (h : Rendered length s sent printed) (hlength : 0 < length)
    (body : Option (List UInt8)) :
    ∃ s', append_content_length body length s = some s' ∧ Rendered length s' sent
      (printed ++ if sent.any fun h => strcasecmp h.name (bytes "Content-Length") then []
        else bytes "Content-Length: " ++ bytes (toString (body.getD []).length) ++ bytes "\r\n") := by
  rw [rendering.append_content_length, h.content_length]
  split
  · exact ⟨s, rfl, by rw [List.append_nil]; exact h⟩
  · by_cases hempty : (body.getD []).length > 0
    · rw [if_pos hempty]
      exact h.append hlength _
    · have hzero : (body.getD []).length = 0 := by omega
      have htext : bytes "Content-Length: 0\r\n" = bytes "Content-Length: " ++ bytes (toString 0) ++ bytes "\r\n" := by
        decide
      rw [if_neg hempty, hzero, htext]
      exact h.append hlength _

theorem Rendered.append_connection (h : Rendered length s sent printed) (hlength : 0 < length) (keepalive : Bool) :
    ∃ s', append_connection keepalive length s = some s' ∧ Rendered length s' sent
      (printed ++ if sent.any fun h => strcasecmp h.name (bytes "Connection") then []
        else if keepalive then
          bytes "Connection: keep-alive\r\n" ++ bytes "Keep-Alive: timeout=" ++
            bytes (toString UVHTTP_DEFAULT_KEEP_ALIVE_TIMEOUT) ++ bytes ", max=" ++
            bytes (toString UVHTTP_DEFAULT_KEEP_ALIVE_MAX) ++ bytes "\r\n"
        else bytes "Connection: close\r\n") := by
  rw [rendering.append_connection, h.connection]
  split
  · exact ⟨s, rfl, by rw [List.append_nil]; exact h⟩
  · split
    · obtain ⟨next, hnext, hconnection⟩ := h.append hlength (bytes "Connection: keep-alive\r\n")
      obtain ⟨s', hlast, hkeep⟩ := hconnection.append hlength
        (bytes "Keep-Alive: timeout=" ++ bytes (toString UVHTTP_DEFAULT_KEEP_ALIVE_TIMEOUT) ++ bytes ", max=" ++
          bytes (toString UVHTTP_DEFAULT_KEEP_ALIVE_MAX) ++ bytes "\r\n")
      refine ⟨s', ?_, ?_⟩
      · rw [hnext]
        exact hlast
      · simp only [List.append_assoc] at hkeep ⊢
        exact hkeep
    · exact h.append hlength _

end rendering

/-- The header block of a response. -/
def response_text (r : Response) : List UInt8 :=
  header_text r.status_code r.headers r.body r.keepalive

/-- `build_response_headers` prints the header block of the response. -/
theorem build_response_headers_holds (r : Response) {buffer : List UInt8} {length : Nat}
    (hbuffer : buffer.length = length) (hlength : 0 < length) :
    ∃ buffer' pos, build_response_headers r buffer length = some (buffer', pos) ∧
      text_block.Holds 0 length (buffer', pos) (response_text r) := by
  have hstart : Rendered length ⟨buffer, 0, false, false, false⟩ [] [] :=
    ⟨text_block.holds_nil hbuffer, rfl, rfl, rfl⟩
  obtain ⟨s₁, hstatus, h₁⟩ := hstart.append hlength (status_line r.status_code)
  obtain ⟨s₂, hheaders, h₂⟩ :=
    h₁.headers hlength (r.headers.mapIdx fun i h => (⟨h.name, header_value_at r.headers i h⟩ : Header))
  obtain ⟨s₃, htype, h₃⟩ := h₂.append_content_type hlength
  obtain ⟨s₄, hcontent, h₄⟩ := h₃.append_content_length hlength r.body
  obtain ⟨s₅, hconnection, h₅⟩ := h₄.append_connection hlength r.keepalive
  obtain ⟨s₆, hend, h₆⟩ := h₅.append hlength (bytes "\r\n")
  refine ⟨s₆.buffer, s₆.pos, ?_, h₆.holds⟩
  rw [build_response_headers, hstatus, Option.bind_eq_bind, Option.bind_some, hheaders]
  dsimp only [Option.bind_eq_bind, Option.bind_some]
  rw [htype]
  dsimp only [Option.bind_some]
  rw [hcontent]
  dsimp only [Option.bind_some]
  rw [hconnection]
  dsimp only [Option.bind_some]
  rw [hend]
  rfl

/-- What one pass leaves in a buffer. -/
theorem build_response_headers_measures (r : Response) {buffer : List UInt8} {length : Nat}
    (hbuffer : buffer.length = length) (hlength : 0 < length) :
    ∃ buffer', build_response_headers r buffer length = some (buffer', (response_text r).length) ∧
      buffer'.length = length ∧
      buffer'.take (min (response_text r).length (length - 1)) = (response_text r).take (length - 1) ∧
      buffer'[min (response_text r).length (length - 1)]? = some 0 := by
  obtain ⟨buffer', pos, hbuild, hholds⟩ := build_response_headers_holds r hbuffer hlength
  have hpos : pos = (response_text r).length := hholds.offset
  have hnonempty : response_text r ≠ [] := by
    rw [response_text, header_text]
    exact List.append_ne_nil_of_right_ne_nil _ (by decide)
  exact ⟨buffer', by rw [hbuild, hpos], hholds.length, hholds.text, hholds.terminated.resolve_left hnonempty⟩

/-- A buffer with room for more than the block has the whole of it. -/
theorem build_response_headers_whole (r : Response) {buffer : List UInt8} {length : Nat}
    (hbuffer : buffer.length = length) (hfits : (response_text r).length < length) :
    ∃ buffer', build_response_headers r buffer length = some (buffer', (response_text r).length) ∧
      buffer'.length = length ∧ buffer'.take (response_text r).length = response_text r := by
  obtain ⟨buffer', pos, hbuild, hholds⟩ := build_response_headers_holds r hbuffer (by omega)
  have hpos : pos = (response_text r).length := hholds.offset
  have hwhole := hholds.whole hfits
  dsimp only at hwhole
  rw [hpos] at hbuild hwhole
  exact ⟨buffer', hbuild, hholds.length, hwhole⟩

/-- A headers buffer that is needed is refused: the first one, or the larger second one. -/
def headers_refused (alloc : Allocator) (r : Response) : Prop :=
  alloc (UVHTTP_INITIAL_BUFFER_SIZE * 2) = none ∨
    UVHTTP_INITIAL_BUFFER_SIZE * 2 ≤ (response_text r).length ∧
      alloc ((response_text r).length + UVHTTP_RESPONSE_HEADER_SAFETY_MARGIN) = none

theorem render_headers_refused {alloc : Allocator} {r : Response} (h : headers_refused alloc r) :
    render_headers alloc r r = some (.error .OUT_OF_MEMORY) := by
  rw [render_headers]
  dsimp only
  cases hfirst : alloc (UVHTTP_INITIAL_BUFFER_SIZE * 2) with
  | none => rfl
  | some headers_buffer =>
    obtain ⟨hlarge, hsecond⟩ := h.resolve_left (by rw [hfirst]; exact Option.some_ne_none _)
    obtain ⟨small, hsmall, -⟩ := build_response_headers_measures r headers_buffer.toList_length (by decide)
    dsimp only
    rw [hsmall, Option.bind_eq_bind, Option.bind_some, if_pos hlarge]
    dsimp only
    rw [hsecond]

/-- The two passes that render one response end with its whole block. -/
theorem render_headers_whole {alloc : Allocator} {r : Response} (h : ¬headers_refused alloc r) :
    ∃ buffer, render_headers alloc r r = some (.ok (buffer, (response_text r).length)) ∧
      (response_text r).length < buffer.length ∧
      buffer.take (response_text r).length = response_text r := by
  obtain ⟨hfirst, hsecond⟩ := not_or.mp h
  obtain ⟨headers_buffer, hfirst⟩ := Option.ne_none_iff_exists'.mp hfirst
  rw [render_headers]
  dsimp only
  rw [hfirst]
  dsimp only
  by_cases hlarge : UVHTTP_INITIAL_BUFFER_SIZE * 2 ≤ (response_text r).length
  · obtain ⟨small, hsmall, -⟩ := build_response_headers_measures r headers_buffer.toList_length (by decide)
    obtain ⟨larger_buffer, hsecond⟩ := Option.ne_none_iff_exists'.mp fun hnone => hsecond ⟨hlarge, hnone⟩
    have hfits : (response_text r).length < (response_text r).length + UVHTTP_RESPONSE_HEADER_SAFETY_MARGIN :=
      Nat.lt_add_of_pos_right (by decide)
    obtain ⟨buffer, hbuild, hlength, hwhole⟩ := build_response_headers_whole r larger_buffer.toList_length hfits
    refine ⟨buffer, ?_, hlength ▸ hfits, hwhole⟩
    rw [hsmall, Option.bind_eq_bind, Option.bind_some, if_pos hlarge]
    dsimp only
    rw [hsecond]
    dsimp only
    rw [hbuild]
    rfl
  · have hfits : (response_text r).length < UVHTTP_INITIAL_BUFFER_SIZE * 2 := Nat.lt_of_not_le hlarge
    obtain ⟨buffer, hbuild, hlength, hwhole⟩ := build_response_headers_whole r headers_buffer.toList_length hfits
    refine ⟨buffer, ?_, hlength ▸ hfits, hwhole⟩
    rw [hbuild, Option.bind_eq_bind, Option.bind_some, if_neg hlarge]

/-- The copies stay in the buffers, where the headers buffer has the headers. -/
theorem copy_response_eq {response_data headers_buffer headers body : List UInt8}
    (hroom : response_data.length = headers.length + body.length + 1)
    (hheaders : headers.length ≤ headers_buffer.length)
    (hbuffer : headers_buffer.take headers.length = headers) :
    copy_response response_data headers_buffer headers.length body = some (headers ++ body) := by
  obtain ⟨first, hfirst⟩ : ∃ first, store response_data.length response_data 0 headers = some first :=
    ⟨_, store_eq (by omega)⟩
  have hfirstLength : first.length = response_data.length := length_store (Nat.le_refl _) hfirst
  have hfirstText := take_store (Nat.le_refl _) hfirst
  obtain ⟨second, hsecond⟩ : ∃ second, store first.length first headers.length body = some second :=
    ⟨_, store_eq (by omega)⟩
  have hsecondLength : second.length = first.length := length_store (Nat.le_refl _) hsecond
  have hsecondText := take_store (Nat.le_refl _) hsecond
  obtain ⟨third, hthird⟩ : ∃ third, store second.length second (headers.length + body.length) [0] = some third :=
    ⟨_, store_eq (by rw [List.length_singleton]; omega)⟩
  have hthirdText := take_store (Nat.le_refl _) hthird
  rw [Nat.zero_add, List.take_zero, List.nil_append] at hfirstText
  rw [hfirstText] at hsecondText
  have htext : third.take (headers.length + body.length) = headers ++ body := by
    have hbefore := congrArg (List.take (headers.length + body.length)) hthirdText
    rw [List.take_take, Nat.min_eq_left (Nat.le_add_right _ _), hsecondText] at hbefore
    rw [hbefore, List.take_left' List.length_append]
  rw [copy_response, load_eq (by omega), List.drop_zero, hbuffer, Option.bind_eq_bind, Option.bind_some, hfirst,
    Option.bind_some, hsecond, Option.bind_some, hthird, Option.bind_some, htext]
  rfl

/-- What the model without buffers keeps of a buffer with room for more than the block. -/
theorem take_build_response_headers {r : Response} {length : Nat} (hfits : (response_text r).length < length) :
    (http.build_response_headers r length).1.take (http.build_response_headers r length).2 = response_text r := by
  rw [http.build_response_headers]
  dsimp only
  rw [← response_text, if_pos hfits, List.take_length]

/-- The response data of the model without buffers, where the headers buffers are granted. -/
theorem build_data_granted {alloc : Nat → Bool} {r : Response}
    (hfirst : alloc (UVHTTP_INITIAL_BUFFER_SIZE * 2) = true)
    (hsecond : UVHTTP_INITIAL_BUFFER_SIZE * 2 ≤ (response_text r).length →
      alloc ((response_text r).length + UVHTTP_RESPONSE_HEADER_SAFETY_MARGIN) = true) :
    http.uvhttp_response_build_data alloc r =
      if !alloc ((response_text r).length + (r.body.getD []).length + 1) then .error .OUT_OF_MEMORY
      else .ok (response_text r ++ r.body.getD []) := by
  have hmeasured (length : Nat) : (http.build_response_headers r length).2 = (response_text r).length := rfl
  have htake {length : Nat} (hfits : (response_text r).length < length) :
      (http.build_response_headers r length).1.take (response_text r).length = response_text r :=
    take_build_response_headers hfits
  rw [http.uvhttp_response_build_data]
  dsimp only
  rw [hfirst, if_neg (by decide), hmeasured]
  by_cases hlarge : UVHTTP_INITIAL_BUFFER_SIZE * 2 ≤ (response_text r).length
  · rw [if_pos hlarge, hsecond hlarge, if_neg (by decide)]
    dsimp only
    rw [hmeasured, htake (Nat.lt_add_of_pos_right (by decide))]
  · rw [if_neg hlarge]
    dsimp only
    rw [hmeasured, htake (Nat.lt_of_not_le hlarge)]

theorem build_data_refused {alloc : Nat → Bool} {r : Response}
    (h : alloc (UVHTTP_INITIAL_BUFFER_SIZE * 2) = false ∨
      UVHTTP_INITIAL_BUFFER_SIZE * 2 ≤ (response_text r).length ∧
        alloc ((response_text r).length + UVHTTP_RESPONSE_HEADER_SAFETY_MARGIN) = false) :
    http.uvhttp_response_build_data alloc r = .error .OUT_OF_MEMORY := by
  have hmeasured (length : Nat) : (http.build_response_headers r length).2 = (response_text r).length := rfl
  rw [http.uvhttp_response_build_data]
  dsimp only
  cases hfirst : alloc (UVHTTP_INITIAL_BUFFER_SIZE * 2) with
  | false => rfl
  | true =>
    obtain ⟨hlarge, hsecond⟩ := h.resolve_left (by rw [hfirst]; decide)
    rw [if_neg (by decide), hmeasured, if_pos hlarge, hsecond]
    rfl

/-- The model of `uvhttp_response_build_data` without buffers says what the buffers make. -/
theorem uvhttp_response_build_data_refines (alloc : Allocator) (r : Response) :
    uvhttp_response_build_data alloc r =
      some (http.uvhttp_response_build_data (fun size => (alloc size).isSome) r) := by
  rw [uvhttp_response_build_data]
  by_cases hrefused : headers_refused alloc r
  · have hnone {size : Nat} (h : alloc size = none) : (alloc size).isSome = false := by
      rw [h]
      rfl
    rw [render_headers_refused hrefused, build_data_refused (hrefused.imp hnone (And.imp_right hnone))]
    rfl
  · obtain ⟨hfirst, hsecond⟩ := not_or.mp hrefused
    obtain ⟨buffer, hrender, hfits, hwhole⟩ := render_headers_whole hrefused
    rw [hrender, build_data_granted (Option.isSome_iff_ne_none.mpr hfirst)
      fun hlarge => Option.isSome_iff_ne_none.mpr fun hnone => hsecond ⟨hlarge, hnone⟩]
    rw [Option.bind_eq_bind, Option.bind_some]
    dsimp only
    cases hdata : alloc ((response_text r).length + (r.body.getD []).length + 1) with
    | none => rfl
    | some response_data =>
      dsimp only
      rw [copy_response_eq response_data.toList_length (Nat.le_of_lt hfits) hwhole]
      rfl

/-- Every buffer holds the beginning of the one block of a response, whose
length is reported, and two passes end with the whole of it. -/
theorem header_rendering_exact (r : Response) :
    (∀ buffer : List UInt8, 1 ≤ buffer.length →
      ∃ buffer', build_response_headers r buffer buffer.length = some (buffer', (response_text r).length) ∧
        buffer'.length = buffer.length ∧
        buffer'.take (min (response_text r).length (buffer.length - 1)) =
          (response_text r).take (buffer.length - 1) ∧
        buffer'[min (response_text r).length (buffer.length - 1)]? = some 0) ∧
    ∀ alloc : Allocator,
      (headers_refused alloc r → render_headers alloc r r = some (.error .OUT_OF_MEMORY)) ∧
      (¬headers_refused alloc r →
        ∃ buffer, render_headers alloc r r = some (.ok (buffer, (response_text r).length)) ∧
          (response_text r).length < buffer.length ∧
          buffer.take (response_text r).length = response_text r) :=
  ⟨fun _ hlength => build_response_headers_measures r rfl hlength,
    fun _ => ⟨render_headers_refused, render_headers_whole⟩⟩

theorem header_rendering_exact_truncated :
    ∃ buffer', build_response_headers uvhttp_response_init [9, 9, 9, 9] 4 =
        some (buffer', (response_text uvhttp_response_init).length) ∧
      buffer'.length = 4 ∧ buffer'.take 3 = bytes "HTT" ∧ buffer'[3]? = some 0 := by
  obtain ⟨buffer', hbuild, hlength, htext, hend⟩ :=
    (header_rendering_exact uvhttp_response_init).1 [9, 9, 9, 9] (by decide)
  have hstart : (response_text uvhttp_response_init).take 3 = bytes "HTT" := rfl
  have hlong : min (response_text uvhttp_response_init).length (([9, 9, 9, 9] : List UInt8).length - 1) = 3 := by
    rw [Nat.min_comm, ← List.length_take]
    exact congrArg List.length hstart
  rw [hlong] at htext hend
  exact ⟨buffer', hbuild, hlength, htext, hend⟩

end uvhttp.rendering
