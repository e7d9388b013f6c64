import Uvhttp.Basic

namespace uvhttp.http

/-- `uvhttp_method_t`. -/
inductive Method where
  | ANY
  | GET
  | POST
  | PUT
  | DELETE
  | HEAD
  | OPTIONS
  | PATCH
  deriving DecidableEq, Repr

/-- The methods of llhttp that have a `uvhttp_method_t` slot, and the others. -/
inductive LlhttpMethod where
  | HTTP_DELETE
  | HTTP_GET
  | HTTP_HEAD
  | HTTP_POST
  | HTTP_PUT
  | HTTP_OPTIONS
  | HTTP_PATCH
  | other (code : Nat)
  deriving DecidableEq, Repr

def llhttp_method_to_uvhttp : LlhttpMethod → Method
  | .HTTP_GET => .GET
  | .HTTP_POST => .POST
  | .HTTP_PUT => .PUT
  | .HTTP_DELETE => .DELETE
  | .HTTP_HEAD => .HEAD
  | .HTTP_OPTIONS => .OPTIONS
  | .HTTP_PATCH => .PATCH
  | .other _ => .ANY

def MAX_URL_LEN : Nat := 2048
def UVHTTP_MAX_HEADER_NAME_SIZE : Nat := 256
def UVHTTP_MAX_HEADER_VALUE_SIZE : Nat := 4096
def UVHTTP_HEADER_NAME_BUFFER_SIZE : Nat := 256
def UVHTTP_HEADER_VALUE_BUFFER_SIZE : Nat := 2048
def UVHTTP_INLINE_HEADERS_CAPACITY : Nat := 32
def UVHTTP_MAX_HEADERS : Nat := 64
def UVHTTP_INITIAL_BUFFER_SIZE : Nat := 8192
def UVHTTP_MAX_BODY_SIZE : Nat := 1024 * 1024
def SIZEOF_HEADER : Nat := UVHTTP_HEADER_NAME_BUFFER_SIZE + UVHTTP_HEADER_VALUE_BUFFER_SIZE

/-- `uvhttp_header_t`, both buffers as the C strings they hold. -/
structure Header where
  name : List UInt8
  value : List UInt8
  deriving DecidableEq, Repr

/-- `uvhttp_request_t`. `url` are the bytes before the terminator that `on_url`
wrote, `headers` the `header_count` entries in use, `headers_extra` whether the
dynamic array exists, and `body` the `body_length` bytes received, `none` for a
NULL pointer. -/
structure Request where
  method : Method
  url : List UInt8
  headers : List Header
  headers_capacity : Nat
  headers_extra : Bool
  body : Option (List UInt8)
  body_capacity : Nat
  deriving DecidableEq, Repr

/-- `uvhttp_request_init`, when its allocations succeed. -/
def uvhttp_request_init : Request where
  method := .GET
  url := []
  headers := []
  headers_capacity := 32
  headers_extra := false
  body := some []
  body_capacity := UVHTTP_INITIAL_BUFFER_SIZE

/-- The request of a connection with the parse state that the connection keeps
for the parser callbacks. `current_header_field` holds the
`current_header_field_len` bytes in use. -/
structure HttpParsing where
  request : Request
  parsing_complete : Bool
  current_header_field : List UInt8
  deriving DecidableEq, Repr

/-- The parse state that `uvhttp_connection_new` sets up. -/
def parsing_new : HttpParsing where
  request := uvhttp_request_init
  parsing_complete := false
  current_header_field := []

/-- What `uvhttp_connection_restart_read` makes of the parse state. -/
def parsing_restart (c : HttpParsing) : HttpParsing where
  request := { c.request with
    method := .ANY
    url := []
    headers := []
    body := none
    body_capacity := 0 }
  parsing_complete := false
  current_header_field := []

section callbacks

variable (alloc : Nat → Bool)

/-- The capacity `uvhttp_request_add_header` grows the header table to, `none`
when it is full. -/
def grow_headers (headers_capacity : Nat) : Option Nat :=
  let doubled := headers_capacity * 2
  let new_capacity := if doubled = 0 then UVHTTP_INLINE_HEADERS_CAPACITY else doubled
  let new_capacity := if new_capacity > UVHTTP_MAX_HEADERS then UVHTTP_MAX_HEADERS else new_capacity
  if new_capacity = headers_capacity then none else some new_capacity

/-- `uvhttp_request_get_header_at`: whether the slot exists. -/
def has_header_slot (request : Request) (index : Nat) : Bool :=
  index < request.headers_capacity && (index < UVHTTP_INLINE_HEADERS_CAPACITY || request.headers_extra)

/-- Store a header in the next slot, both strings cut to their buffers. -/
def store_header (request : Request) (name value : List UInt8) : Except UvhttpError Request :=
  if has_header_slot request request.headers.length then
    .ok { request with
      headers := request.headers ++
        [⟨(cstr name).take (UVHTTP_HEADER_NAME_BUFFER_SIZE - 1),
          (cstr value).take (UVHTTP_HEADER_VALUE_BUFFER_SIZE - 1)⟩] }
  else .error .IO_ERROR

/-- `uvhttp_request_add_header`. The dynamic array holds the slots beyond the
inline ones. -/
def uvhttp_request_add_header (request : Request) (name value : List UInt8) : Except UvhttpError Request :=
  if request.headers.length ≥ request.headers_capacity then
    match grow_headers request.headers_capacity with
    | none => .error .BUFFER_TOO_SMALL
    | some new_capacity =>
      if !alloc ((new_capacity - UVHTTP_INLINE_HEADERS_CAPACITY) * SIZEOF_HEADER) then .error .OUT_OF_MEMORY
      else store_header { request with headers_capacity := new_capacity, headers_extra := true } name value
  else store_header request name value

def on_message_begin (c : HttpParsing) : HttpParsing := { c with parsing_complete := false }

def on_url (c : HttpParsing) (span : List UInt8) : Option HttpParsing :=
  if span.length ≥ MAX_URL_LEN then none
  else some { c with request := { c.request with url := span } }

def on_header_field (c : HttpParsing) (span : List UInt8) : Option HttpParsing :=
  if span.length ≥ UVHTTP_MAX_HEADER_NAME_SIZE then none
  else some { c with current_header_field := span }

def on_header_value (c : HttpParsing) (span : List UInt8) : Option HttpParsing :=
  if span.length ≥ UVHTTP_MAX_HEADER_VALUE_SIZE then none
  else if c.current_header_field.length = 0 then none
  else
    match uvhttp_request_add_header alloc c.request c.current_header_field span with
    | .error _ => none
    | .ok request => some { c with request, current_header_field := [] }

/-- The body capacity needed for `length` more bytes, `none` beyond the limit. -/
def grow_body (body_capacity body_length length : Nat) : Option Nat :=
  if body_length + length > body_capacity then
    let new_capacity := max (body_capacity * 2) (body_length + length)
    if new_capacity > UVHTTP_MAX_BODY_SIZE then none else some new_capacity
  else some body_capacity

def on_body (c : HttpParsing) (span : List UInt8) : Option HttpParsing :=
  let body := c.request.body.getD []
  match grow_body c.request.body_capacity body.length span.length with
  | none => none
  | some new_capacity =>
    if new_capacity = c.request.body_capacity then
      some { c with request := { c.request with body := c.request.body.map (· ++ span) } }
    else if !alloc new_capacity then none
    else some { c with request := { c.request with body := some (body ++ span), body_capacity := new_capacity } }

/-- `ensure_valid_url`. -/
def ensure_valid_url (request : Request) : Request :=
  if cstr request.url = [] then { request with url := bytes "/" } else request

/-- The request as a handler reads it. -/
structure Seen where
  method : Method
  url : List UInt8
  headers : List Header
  body : List UInt8
  deriving DecidableEq, Repr

def Request.seen (request : Request) : Seen :=
  ⟨request.method, cstr request.url, request.headers, request.body.getD []⟩

/-- `on_message_complete` up to the dispatch, on a server with a router: the
request that is dispatched, unless the message was dispatched before. -/
def on_message_complete (c : HttpParsing) (method : LlhttpMethod) : HttpParsing × List Seen :=
  if c.parsing_complete then (c, [])
  else
    let request := ensure_valid_url { c.request with method := llhttp_method_to_uvhttp method }
    ({ c with request, parsing_complete := true }, [request.seen])

/-- A call of llhttp into the server, with the span it hands over. -/
inductive ParserCallback where
  | message_begin
  | url (span : List UInt8)
  | header_field (span : List UInt8)
  | header_value (span : List UInt8)
  | body (span : List UInt8)
  | message_complete (method : LlhttpMethod)
  deriving DecidableEq, Repr

/-- One callback: the parse state after it, `none` when it returns an error,
and the requests it dispatches. -/
def callback (c : HttpParsing) : ParserCallback → Option HttpParsing × List Seen
  | .message_begin => (some (on_message_begin c), [])
  | .url span => (on_url c span, [])
  | .header_field span => (on_header_field c span, [])
  | .header_value span => (on_header_value alloc c span, [])
  | .body span => (on_body alloc c span, [])
  | .message_complete method =>
    let (c, seen) := on_message_complete c method
    (some c, seen)

/-- The callbacks llhttp makes during `llhttp_execute`, up to the first error. -/
def execute (c : HttpParsing) : List ParserCallback → Option HttpParsing × List Seen
  | [] => (some c, [])
  | cb :: rest =>
    match callback alloc c cb with
    | (none, seen) => (none, seen)
    | (some c, seen) => ((execute c rest).1, seen ++ (execute c rest).2)

end callbacks

end uvhttp.http
