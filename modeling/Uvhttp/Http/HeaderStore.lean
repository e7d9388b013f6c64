import Uvhttp.Lib.StringBlock
import Uvhttp.Http.Response

namespace uvhttp.header_store

open http string_block

/-- The pointer to the dynamic array of headers: NULL, to its bytes, or to memory
that has been freed. -/
inductive ExtraArray where
  | null
  | allocated (bytes : List UInt8)
  | released
  deriving DecidableEq, Repr

/-- The header fields that `uvhttp_request_t` and `uvhttp_response_t` have in
common. `headers` are the bytes of the inline array. -/
structure HeaderStore where
  headers : List UInt8
  headers_extra : ExtraArray
  header_count : Nat
  headers_capacity : Nat
  deriving DecidableEq, Repr

/-- The header fields after `uvhttp_request_init` or `uvhttp_response_init`. -/
def header_store_init : HeaderStore where
  headers := List.replicate (UVHTTP_INLINE_HEADERS_CAPACITY * SIZEOF_HEADER) 0
  headers_extra := .null
  header_count := 0
  headers_capacity := UVHTTP_INLINE_HEADERS_CAPACITY

/-- The header fields after `uvhttp_connection_restart_read`. -/
def header_store_restart (s : HeaderStore) : HeaderStore := { s with header_count := 0 }

/-- A `uvhttp_header_t*` into the inline or the dynamic array. -/
structure HeaderPointer where
  extra : Bool
  index : Nat
  deriving DecidableEq, Repr

def HeaderPointer.name_offset (p : HeaderPointer) : Nat := p.index * SIZEOF_HEADER

def HeaderPointer.value_offset (p : HeaderPointer) : Nat := p.index * SIZEOF_HEADER + UVHTTP_HEADER_NAME_BUFFER_SIZE

namespace HeaderStore

/-- The bytes that can be reached through a pointer into the array. -/
def array (s : HeaderStore) (extra : Bool) : List UInt8 :=
  if extra then
    match s.headers_extra with
    | .allocated bytes => bytes
    | _ => []
  else s.headers

def with_array (s : HeaderStore) (extra : Bool) (bytes : List UInt8) : HeaderStore :=
  if extra then { s with headers_extra := .allocated bytes } else { s with headers := bytes }

/-- Write into an array, `none` when the write leaves it. -/
def write (s : HeaderStore) (extra : Bool) (offset : Nat) (data : List UInt8) : Option HeaderStore :=
  (string_block.write (s.array extra) offset data).map (s.with_array extra)

/-- The C strings behind a pointer, `none` when one of them does not end before
its array does. -/
def read (s : HeaderStore) (p : HeaderPointer) : Option Header :=
  (string 0 ((s.array p.extra).drop p.name_offset)).bind fun name =>
    (string 0 ((s.array p.extra).drop p.value_offset)).map fun value => ⟨name, value⟩

/-- Copy both strings behind the pointer, cut to buffers of the given sizes, and
count the header. -/
def fill_header (s : HeaderStore) (p : HeaderPointer) (name_size value_size : Nat) (name value : List UInt8) :
    Option HeaderStore :=
  (s.write p.extra p.name_offset (name.take (name_size - 1) ++ [0])).bind fun s =>
    (s.write p.extra p.value_offset (value.take (value_size - 1) ++ [0])).map fun s =>
      { s with header_count := s.header_count + 1 }

end HeaderStore

/-- What `realloc` makes of a block: `fresh` is what the new memory holds. -/
def reallocated (fresh : Nat → UInt8) (block : List UInt8) (size : Nat) : List UInt8 :=
  block.take size ++ (List.range (size - block.length)).map fresh

/-- `uvhttp_request_get_header_at`. -/
def uvhttp_request_get_header_at (s : HeaderStore) (index : Nat) : Option HeaderPointer :=
  if index ≥ s.headers_capacity then none
  else if index < UVHTTP_INLINE_HEADERS_CAPACITY then some ⟨false, index⟩
  else if s.headers_extra ≠ .null then some ⟨true, index - UVHTTP_INLINE_HEADERS_CAPACITY⟩
  else none

section operations

variable (alloc : Nat → Bool) (fresh : Nat → UInt8)

/-- The header after the last one, in the fields of `uvhttp_header_t`. -/
def store_header (s : HeaderStore) (name value : List UInt8) : Option (UvhttpError × HeaderStore) :=
  match uvhttp_request_get_header_at s s.header_count with
  | none => some (.IO_ERROR, s)
  | some header =>
    (s.fill_header header UVHTTP_HEADER_NAME_BUFFER_SIZE UVHTTP_HEADER_VALUE_BUFFER_SIZE (cstr name)
      (cstr value)).map fun s => (.OK, s)

/-- `uvhttp_request_add_header`, `none` when it writes outside the arrays. -/
def uvhttp_request_add_header (s : HeaderStore) (name value : List UInt8) : Option (UvhttpError × HeaderStore) :=
  if s.header_count ≥ s.headers_capacity then
    match grow_headers s.headers_capacity with
    | none => some (.BUFFER_TOO_SMALL, s)
    | some new_capacity =>
      let size := (new_capacity - UVHTTP_INLINE_HEADERS_CAPACITY) * SIZEOF_HEADER
      if !alloc size then some (.OUT_OF_MEMORY, s)
      else
        let new_extra :=
          if s.headers_extra = .null then List.replicate size 0 else reallocated fresh (s.array true) size
        store_header { s with headers_extra := .allocated new_extra, headers_capacity := new_capacity } name value
  else store_header s name value

/-- `uvhttp_request_foreach_header`: the arguments of the calls it makes, `none`
when one of them is no string. -/
def uvhttp_request_foreach_header (s : HeaderStore) : Option (List Header) :=
  ((List.range s.header_count).filterMap fun i => (uvhttp_request_get_header_at s i).map s.read).mapM id

/-- The characters that `uvhttp_request_get_header` allows in a name. -/
def header_name_char (c : UInt8) : Bool :=
  (65 ≤ c && c ≤ 90) || (97 ≤ c && c ≤ 122) || (48 ≤ c && c ≤ 57) || c = 45 || c = 95

/-- The loop of `uvhttp_request_get_header`: the value of the first header with
the name, `none` inside when there is none. -/
def find_header (s : HeaderStore) (name : List UInt8) : List Nat → Option (Option (List UInt8))
  | [] => some none
  | i :: rest =>
    match uvhttp_request_get_header_at s i with
    | none => find_header s name rest
    | some p =>
      (s.read p).bind fun header =>
        if strcasecmp header.name name && header.value.length ≤ UVHTTP_MAX_HEADER_VALUE_SIZE - 1 then
          some (some header.value)
        else find_header s name rest

/-- `uvhttp_request_get_header`. -/
def uvhttp_request_get_header (s : HeaderStore) (name : List UInt8) : Option (Option (List UInt8)) :=
  if name.length = 0 ∨ name.length > UVHTTP_MAX_HEADER_NAME_SIZE - 1 then some none
  else if !name.all header_name_char then some none
  else find_header s name (List.range s.header_count)

/-- The pointer of `uvhttp_response_set_header` to the header after the last one. -/
def next_header (s : HeaderStore) : Option HeaderPointer :=
  if s.header_count < UVHTTP_INLINE_HEADERS_CAPACITY then some ⟨false, s.header_count⟩
  else if s.headers_extra = .null then none
  else some ⟨true, s.header_count - UVHTTP_INLINE_HEADERS_CAPACITY⟩

/-- The header after the last one, cut to the sizes that `uvhttp_response_set_header`
passes: that of the value is twice its buffer. -/
def write_header (s : HeaderStore) (name value : List UInt8) : Option (UvhttpError × HeaderStore) :=
  match next_header s with
  | none => some (.OUT_OF_MEMORY, s)
  | some header =>
    (s.fill_header header UVHTTP_MAX_HEADER_NAME_SIZE UVHTTP_MAX_HEADER_VALUE_SIZE name value).map fun s => (.OK, s)

/-- The dynamic array for a larger capacity, with whether it was allocated. A
first allocation frees what the pointer held before, also when it fails. -/
def grow_extra (s : HeaderStore) (new_capacity : Nat) : Bool × ExtraArray :=
  let old_extra_count :=
    if s.headers_capacity > UVHTTP_INLINE_HEADERS_CAPACITY then s.headers_capacity - UVHTTP_INLINE_HEADERS_CAPACITY
    else 0
  let size := (new_capacity - UVHTTP_INLINE_HEADERS_CAPACITY) * SIZEOF_HEADER
  if old_extra_count = 0 then
    if alloc size then (true, .allocated (List.replicate size 0))
    else (false, if s.headers_extra = .null then .null else .released)
  else if alloc size then (true, .allocated (reallocated fresh (s.array true) size))
  else (false, s.headers_extra)

/-- `uvhttp_response_set_header` on the C strings name and value, `none` when it
writes outside the arrays. -/
def uvhttp_response_set_header (s : HeaderStore) (name value : List UInt8) : Option (UvhttpError × HeaderStore) :=
  if !uvhttp_validate_header_name name || !uvhttp_validate_header_value_safe value then some (.INVALID_PARAM, s)
  else if contains_control_chars value then some (.INVALID_PARAM, s)
  else if s.header_count ≥ s.headers_capacity then
    match grow_headers s.headers_capacity with
    | none => some (.OUT_OF_MEMORY, s)
    | some new_capacity =>
      let grown := grow_extra alloc fresh s new_capacity
      if !grown.1 then some (.OUT_OF_MEMORY, { s with headers_extra := grown.2 })
      else write_header { s with headers_extra := grown.2, headers_capacity := new_capacity } name value
  else write_header s name value

end operations

end uvhttp.header_store
