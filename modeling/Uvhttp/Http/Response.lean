import Uvhttp.Http.Request

namespace uvhttp.http

def UVHTTP_STATUS_MIN_CONTINUE : Int := 100
def UVHTTP_STATUS_MAX : Int := 599
def UVHTTP_STATUS_OK : Int := 200
def UVHTTP_RESPONSE_HEADER_SAFETY_MARGIN : Nat := 256
def UVHTTP_DEFAULT_KEEP_ALIVE_TIMEOUT : Nat := 30
def UVHTTP_DEFAULT_KEEP_ALIVE_MAX : Nat := 100
def SIZEOF_WRITE_DATA : Nat := 216

/-- `uvhttp_response_t`, without `headers_sent` and `cache_ttl`, and without the
fields for the compression, which `gzip.FullResponse` adds. `headers` are the
`header_count` entries as they were written, `body` is `none` for a NULL
pointer. -/
structure Response where
  status_code : Int
  sent : Bool
  finished : Bool
  keepalive : Bool
  headers : List Header
  headers_capacity : Nat
  headers_extra : Bool
  body : Option (List UInt8)
  deriving DecidableEq, Repr

/-- `uvhttp_response_init`. -/
def uvhttp_response_init : Response where
  status_code := UVHTTP_STATUS_OK
  sent := false
  finished := false
  keepalive := true
  headers := []
  headers_capacity := UVHTTP_INLINE_HEADERS_CAPACITY
  headers_extra := false
  body := none

/-- What `uvhttp_connection_restart_read` makes of the response. -/
def response_restart (r : Response) : Response :=
  { r with
    status_code := 0
    sent := false
    finished := false
    keepalive := true
    headers := []
    body := none }

/-- `get_status_text`. -/
def get_status_text (status_code : Int) : List UInt8 :=
  if status_code = 100 then bytes "Continue"
  else if status_code = 101 then bytes "Switching Protocols"
  else if status_code = 200 then bytes "OK"
  else if status_code = 201 then bytes "Created"
  else if status_code = 204 then bytes "No Content"
  else if status_code = 400 then bytes "Bad Request"
  else if status_code = 401 then bytes "Unauthorized"
  else if status_code = 403 then bytes "Forbidden"
  else if status_code = 404 then bytes "Not Found"
  else if status_code = 405 then bytes "Method Not Allowed"
  else if status_code = 500 then bytes "Internal Server Error"
  else if status_code = 501 then bytes "Not Implemented"
  else if status_code = 502 then bytes "Bad Gateway"
  else if status_code = 503 then bytes "Service Unavailable"
  else bytes "Unknown"

/-- `contains_control_chars`, on a C string. -/
def contains_control_chars (text : List UInt8) : Bool :=
  text.any fun c => (c < 32 && c != 9) || c = 13 || c = 10 || c = 127

/-- `isalnum` in the C locale. -/
def isalnum (c : UInt8) : Bool :=
  (48 ≤ c && c ≤ 57) || (65 ≤ c && c ≤ 90) || (97 ≤ c && c ≤ 122)

/-- `uvhttp_validate_header_name`. -/
def uvhttp_validate_header_name (name : List UInt8) : Bool :=
  1 ≤ name.length && name.length ≤ UVHTTP_MAX_HEADER_NAME_SIZE && name.all fun c => isalnum c || c = 45

/-- `uvhttp_validate_header_value_safe`. -/
def uvhttp_validate_header_value_safe (value : List UInt8) : Bool :=
  value.length ≤ UVHTTP_MAX_HEADER_VALUE_SIZE && value.all fun c => !(c < 32 || c = 127)

/-- `strcasecmp` on ASCII. -/
def strcasecmp (a b : List UInt8) : Bool :=
  let lower := fun c : UInt8 => if 65 ≤ c && c ≤ 90 then c + 32 else c
  a.map lower = b.map lower

def uvhttp_response_set_status (r : Response) (status_code : Int) : UvhttpError × Response :=
  if status_code < UVHTTP_STATUS_MIN_CONTINUE ∨ status_code > UVHTTP_STATUS_MAX then (.INVALID_PARAM, r)
  else (.OK, { r with status_code })

section operations

variable (alloc : Nat → Bool)

/-- Write a header into the next slot. The value is cut to
`UVHTTP_MAX_HEADER_VALUE_SIZE`, although its buffer is half as long: it goes on
in the next slot, and where there is none `overruns` tells. -/
def write_header (r : Response) (name value : List UInt8) : UvhttpError × Response :=
  if r.headers.length < UVHTTP_INLINE_HEADERS_CAPACITY || r.headers_extra then
    (.OK, { r with
      headers := r.headers ++
        [⟨name.take (UVHTTP_MAX_HEADER_NAME_SIZE - 1), value.take (UVHTTP_MAX_HEADER_VALUE_SIZE - 1)⟩] })
  else (.OUT_OF_MEMORY, r)

/-- `uvhttp_response_set_header`, on the C strings name and value. -/
def uvhttp_response_set_header (r : Response) (name value : List UInt8) : UvhttpError × Response :=
  if !uvhttp_validate_header_name name || !uvhttp_validate_header_value_safe value then (.INVALID_PARAM, r)
  else if contains_control_chars value then (.INVALID_PARAM, r)
  else if r.headers.length ≥ r.headers_capacity then
    match grow_headers r.headers_capacity with
    | none => (.OUT_OF_MEMORY, r)
    | some new_capacity =>
      if !alloc ((new_capacity - UVHTTP_INLINE_HEADERS_CAPACITY) * SIZEOF_HEADER) then (.OUT_OF_MEMORY, r)
      else write_header { r with headers_capacity := new_capacity, headers_extra := true } name value
  else write_header r name value

/-- A header stored next would be written beyond its array: the value is longer
than its buffer, and the slot is the last of the response or the last of the
block that the dynamic array is. -/
def overruns (r : Response) (value : List UInt8) : Bool :=
  (r.headers.length + 1 = UVHTTP_INLINE_HEADERS_CAPACITY || r.headers.length + 1 = UVHTTP_MAX_HEADERS) &&
    (value.take (UVHTTP_MAX_HEADER_VALUE_SIZE - 1)).length ≥ UVHTTP_HEADER_VALUE_BUFFER_SIZE

/-- `uvhttp_response_set_header`, `none` when it writes outside the arrays. -/
def set_header_in_bounds (r : Response) (name value : List UInt8) : Option (UvhttpError × Response) :=
  if (uvhttp_response_set_header alloc r name value).1 = .OK && overruns r value then none
  else some (uvhttp_response_set_header alloc r name value)

/-- `uvhttp_response_set_body`. -/
def uvhttp_response_set_body (r : Response) (body : List UInt8) : UvhttpError × Response :=
  if body.length = 0 then (.INVALID_PARAM, r)
  else if body.length > UVHTTP_MAX_BODY_SIZE then (.INVALID_PARAM, r)
  else if !alloc body.length then (.OUT_OF_MEMORY, { r with body := none })
  else (.OK, { r with body := some body })

/-- The value that reading slot `index` finds: one that overran its buffer goes
on with the name that was later written into the next slot of the same array. -/
def header_value_at (headers : List Header) (index : Nat) (header : Header) : List UInt8 :=
  if header.value.length < UVHTTP_HEADER_VALUE_BUFFER_SIZE then header.value
  else if index + 1 = UVHTTP_INLINE_HEADERS_CAPACITY then header.value
  else
    match headers[index + 1]? with
    | none => header.value
    | some next => header.value.take UVHTTP_HEADER_VALUE_BUFFER_SIZE ++ next.name

/-- The headers that are sent: those whose value holds no control character. -/
def sent_headers (headers : List Header) : List Header :=
  (headers.mapIdx fun i h => ⟨h.name, header_value_at headers i h⟩).filter fun h => !contains_control_chars h.value

/-- The header text that `build_response_headers` prints. -/
def header_text (status_code : Int) (headers : List Header) (body : Option (List UInt8)) (keepalive : Bool) :
    List UInt8 :=
  let sent := sent_headers headers
  bytes "HTTP/1.1 " ++ bytes (toString status_code) ++ bytes " " ++ get_status_text status_code ++ bytes "\r\n" ++
    (sent.flatMap fun h => h.name ++ bytes ": " ++ h.value ++ bytes "\r\n") ++
    (if sent.any fun h => strcasecmp h.name (bytes "Content-Type") then []
      else bytes "Content-Type: text/plain\r\n") ++
    (if sent.any fun h => strcasecmp h.name (bytes "Content-Length") then []
      else bytes "Content-Length: " ++ bytes (toString (body.getD []).length) ++ bytes "\r\n") ++
    (if sent.any fun h => strcasecmp h.name (bytes "Connection") then []
      else if keepalive then
        bytes "Connection: keep-alive\r\n" ++ bytes "Keep-Alive: timeout=" ++
          bytes (toString UVHTTP_DEFAULT_KEEP_ALIVE_TIMEOUT) ++ bytes ", max=" ++
          bytes (toString UVHTTP_DEFAULT_KEEP_ALIVE_MAX) ++ bytes "\r\n"
      else bytes "Connection: close\r\n") ++
    bytes "\r\n"

/-- `build_response_headers`: what lands in a buffer of `length` bytes, and the
length the whole text needs. -/
def build_response_headers (r : Response) (length : Nat) : List UInt8 × Nat :=
  let text := header_text r.status_code r.headers r.body r.keepalive
  (if text.length < length then text else text.take (length - 1), text.length)

/-- `uvhttp_response_build_data`, of a response that has not been sent. A first
buffer that turns out too small is replaced by one that is not. -/
def uvhttp_response_build_data (r : Response) : Except UvhttpError (List UInt8) :=
  let headers_size := UVHTTP_INITIAL_BUFFER_SIZE * 2
  if !alloc headers_size then .error .OUT_OF_MEMORY
  else
    let built := build_response_headers r headers_size
    let rebuilt :=
      if built.2 ≥ headers_size then
        let headers_size := built.2 + UVHTTP_RESPONSE_HEADER_SAFETY_MARGIN
        if !alloc headers_size then none else some (build_response_headers r headers_size)
      else some built
    match rebuilt with
    | none => .error .OUT_OF_MEMORY
    | some (headers_buffer, headers_length) =>
      let body := r.body.getD []
      if !alloc (headers_length + body.length + 1) then .error .OUT_OF_MEMORY
      else .ok (headers_buffer.take headers_length ++ body)

/-- What a call to send leaves behind: its return code, the bytes it hands to
`uv_write`, and the response after it. -/
structure Sending where
  code : UvhttpError
  written : List UInt8
  response : Response
  deriving DecidableEq, Repr

/-- `uvhttp_response_send_raw` on a connection without TLS: its return code and
the bytes it hands to `uv_write`, which may refuse them. The overflow check
cannot fire on data that is in memory. -/
def uvhttp_response_send_raw (uv_write : List UInt8 → Bool) (data : List UInt8) : UvhttpError × List UInt8 :=
  if data.length = 0 then (.INVALID_PARAM, [])
  else if !alloc (SIZEOF_WRITE_DATA + data.length - 1) then (.OUT_OF_MEMORY, [])
  else if !uv_write data then (.RESPONSE_SEND, data)
  else (.OK, data)

/-- `uvhttp_response_send`. -/
def uvhttp_response_send (uv_write : List UInt8 → Bool) (r : Response) : Sending :=
  if r.sent then ⟨.OK, [], r⟩
  else
    match uvhttp_response_build_data alloc r with
    | .error e => ⟨e, [], r⟩
    | .ok response_data =>
      let raw := uvhttp_response_send_raw alloc uv_write response_data
      ⟨raw.1, raw.2, { r with sent := true, finished := r.finished || raw.1 = .OK }⟩

end operations

end uvhttp.http
