import Uvhttp.Http.Request
import Uvhttp.Lib.Ledger

open uvhttp.http ledger

namespace uvhttp.connection_memory

/-- `uvhttp_request_t`: its own block, and what its pointers lead to. -/
structure RequestMemory where
  block : Nat
  parser_settings : Nat
  parser : Nat
  body : Option Nat
  body_length : Nat
  body_capacity : Nat
  headers_extra : Option Nat
  header_count : Nat
  headers_capacity : Nat
  deriving DecidableEq, Repr

/-- `uvhttp_response_t`. -/
structure ResponseMemory where
  block : Nat
  body : Option Nat
  body_length : Nat
  headers_extra : Option Nat
  header_count : Nat
  headers_capacity : Nat
  compress : Bool
  compress_threshold : Nat
  sent : Bool
  deriving DecidableEq, Repr

/-- `uvhttp_connection_t`, with the write requests that libuv has not completed. -/
structure ConnectionMemory where
  block : Nat
  closing : Bool
  tls_enabled : Bool
  read_buffer : Nat
  tls_cipher_buf : Option Nat
  request : RequestMemory
  response : ResponseMemory
  ssl : Option Nat
  lifecycle : Option Nat
  writes : List Nat
  deriving DecidableEq, Repr

/-- How the steps of `uvhttp_response_build_data` go: whether the cache has the body, whether deflate
reaches the end of the stream and makes the body smaller, whether the headers outgrow the first buffer. -/
structure BuildOutcome where
  cached : Bool
  deflated : Bool
  smaller : Bool
  long_headers : Bool
  deriving DecidableEq, Repr

/-- What `uvhttp_response_build_data` returns, and the blocks that nothing leads to afterwards. -/
structure BuildResult where
  ok : Bool
  out_data : Option Nat
  response : ResponseMemory
  lost : List Nat
  deriving DecidableEq, Repr

section calls

variable (granted : Nat → Bool)

/-- `memcpy` works with its destination where there is something to copy. -/
def memcpy (dest : Option Nat) (length : Nat) : LedgerM Unit := if length = 0 then pure () else deref dest

def uvhttp_request_init (request : Nat) : LedgerM (Option RequestMemory) := do
  touch request
  match ← acquire granted with
  | none => pure none
  | some parser_settings => do
    match ← acquire granted with
    | none => do
      release parser_settings
      pure none
    | some parser => do
      match ← acquire granted with
      | none => do
        release parser
        release parser_settings
        pure none
      | some body =>
        pure (some ⟨request, parser_settings, parser, some body, 0, UVHTTP_INITIAL_BUFFER_SIZE, none, 0, 32⟩)

def uvhttp_request_cleanup (r : RequestMemory) : LedgerM Unit :=
  release_all (r.body.toList ++ (r.parser :: r.parser_settings :: r.headers_extra.toList))

/-- What `uvhttp_response_init` makes of a block. -/
def uvhttp_response_init (response : Nat) : ResponseMemory :=
  ⟨response, none, 0, none, 0, UVHTTP_INLINE_HEADERS_CAPACITY, false, 0, false⟩

def uvhttp_response_cleanup (r : ResponseMemory) : LedgerM ResponseMemory := do
  release_all (r.body.toList ++ r.headers_extra.toList)
  pure { r with body := none, headers_extra := none, body_length := 0 }

/-- The part of `uvhttp_connection_new` behind its buffers. -/
def new_with_buffers (tls_enabled : Bool) (c read_buffer : Nat) (tls_cipher_buf : Option Nat) :
    LedgerM (Option ConnectionMemory × List Nat) := do
  match ← acquire granted with
  | none => do
    release read_buffer
    release c
    pure (none, tls_cipher_buf.toList)
  | some request => do
    match ← uvhttp_request_init granted request with
    | none => do
      release request
      release read_buffer
      release c
      pure (none, tls_cipher_buf.toList)
    | some r => do
      match ← acquire granted with
      | none => do
        uvhttp_request_cleanup r
        release request
        release read_buffer
        release c
        pure (none, tls_cipher_buf.toList)
      | some response => do
        touch r.parser
        pure (some ⟨c, false, tls_enabled, read_buffer, tls_cipher_buf, r, uvhttp_response_init response, none, none,
          []⟩, [])

/-- `uvhttp_connection_new`, with whether the handles can be initialised; beside its result, the blocks that
nothing leads to afterwards. -/
def uvhttp_connection_new (handles tls_enabled : Bool) : LedgerM (Option ConnectionMemory × List Nat) := do
  match ← acquire granted with
  | none => pure (none, [])
  | some c =>
    if !handles then do
      release c
      pure (none, [])
    else do
      match ← acquire granted with
      | none => do
        release c
        pure (none, [])
      | some read_buffer =>
        if !tls_enabled then new_with_buffers granted tls_enabled c read_buffer none
        else do
          match ← acquire granted with
          | none => do
            release read_buffer
            release c
            pure (none, [])
          | some tls_cipher_buf => new_with_buffers granted tls_enabled c read_buffer (some tls_cipher_buf)

/-- The buffer for what comes from the network. -/
def input_buffer (c : ConnectionMemory) : Nat :=
  if c.tls_enabled && c.ssl.isSome then c.tls_cipher_buf.getD c.read_buffer else c.read_buffer

/-- The blocks that `on_read` works with before the parser calls back. -/
def on_read (c : ConnectionMemory) : LedgerM Unit := do
  touch c.block
  touch c.request.block
  touch (input_buffer c)
  if c.tls_enabled && c.ssl.isSome then do
    deref c.ssl
    touch c.read_buffer
    touch c.request.parser
  else touch c.request.parser

/-- The growth of the body in `on_body`. -/
def grow_body (length : Nat) (r : RequestMemory) : LedgerM (Bool × RequestMemory) :=
  if r.body_length + length > r.body_capacity then
    let new_capacity := max (r.body_capacity * 2) (r.body_length + length)
    if new_capacity > UVHTTP_MAX_BODY_SIZE then pure (false, r)
    else do
      match ← reacquire granted r.body with
      | none => pure (false, r)
      | some new_body => pure (true, { r with body := some new_body, body_capacity := new_capacity })
  else pure (true, r)

def on_body (length : Nat) (r : RequestMemory) : LedgerM (Bool × RequestMemory) := do
  touch r.block
  let (grown, r) ← grow_body granted length r
  if !grown then pure (false, r)
  else do
    memcpy r.body length
    pure (true, { r with body_length := r.body_length + length })

/-- The capacity for one more header: twice the old one, up to `UVHTTP_MAX_HEADERS`. -/
def grown_capacity (headers_capacity : Nat) : Nat :=
  min (if headers_capacity * 2 = 0 then UVHTTP_INLINE_HEADERS_CAPACITY else headers_capacity * 2) UVHTTP_MAX_HEADERS

/-- The growth of the headers in `uvhttp_request_add_header`. -/
def grow_request_headers (r : RequestMemory) : LedgerM (Bool × RequestMemory) :=
  if r.header_count ≥ r.headers_capacity then
    let new_capacity := grown_capacity r.headers_capacity
    if new_capacity = r.headers_capacity then pure (false, r)
    else do
      match ← reacquire granted r.headers_extra with
      | none => pure (false, r)
      | some new_extra => pure (true, { r with headers_extra := some new_extra, headers_capacity := new_capacity })
  else pure (true, r)

/-- Where a header with this index is written: in the object itself, or behind `headers_extra`. -/
def header_at (block : Nat) (headers_extra : Option Nat) (index : Nat) : Option Nat :=
  if index < UVHTTP_INLINE_HEADERS_CAPACITY then some block else headers_extra

def uvhttp_request_add_header (r : RequestMemory) : LedgerM (Bool × RequestMemory) := do
  touch r.block
  let (grown, r) ← grow_request_headers granted r
  if !grown then pure (false, r)
  else
    match header_at r.block r.headers_extra r.header_count with
    | none => pure (false, r)
    | some header => do
      touch header
      pure (true, { r with header_count := r.header_count + 1 })

/-- The growth of the headers in `uvhttp_response_set_header`: `malloc` for the first block, which frees a
block that may be left, `realloc` for the later ones. -/
def grow_response_headers (r : ResponseMemory) : LedgerM (Bool × ResponseMemory) :=
  if r.header_count ≥ r.headers_capacity then
    let new_capacity := grown_capacity r.headers_capacity
    if new_capacity = r.headers_capacity then pure (false, r)
    else if r.headers_capacity ≤ UVHTTP_INLINE_HEADERS_CAPACITY then do
      let new_extra ← acquire granted
      release_all r.headers_extra.toList
      match new_extra with
      | none => pure (false, r)
      | some new_extra => pure (true, { r with headers_extra := some new_extra, headers_capacity := new_capacity })
    else do
      match ← reacquire granted r.headers_extra with
      | none => pure (false, r)
      | some new_extra => pure (true, { r with headers_extra := some new_extra, headers_capacity := new_capacity })
  else pure (true, r)

/-- `uvhttp_response_set_header`, with whether the name and the value pass their checks and can be copied. -/
def uvhttp_response_set_header (valid copied : Bool) (r : ResponseMemory) : LedgerM (Bool × ResponseMemory) :=
  if !valid then pure (false, r)
  else do
    touch r.block
    let (grown, r) ← grow_response_headers granted r
    if !grown then pure (false, r)
    else
      match header_at r.block r.headers_extra r.header_count with
      | none => pure (false, r)
      | some header => do
        touch header
        pure (copied, { r with header_count := if copied then r.header_count + 1 else r.header_count })

def uvhttp_response_set_body (length : Nat) (r : ResponseMemory) : LedgerM (Bool × ResponseMemory) :=
  if length = 0 || length > UVHTTP_MAX_BODY_SIZE then pure (false, r)
  else do
    release_all r.body.toList
    match ← acquire granted with
    | none => pure (false, { r with body := none, body_length := 0 })
    | some body => do
      memcpy (some body) length
      pure (true, { r with body := some body, body_length := length })

def uvhttp_response_set_compress (enable : Bool) (r : ResponseMemory) : ResponseMemory :=
  if !enable then { r with compress := false, compress_threshold := 0 }
  else { r with
    compress := true
    compress_threshold := if r.compress_threshold = 0 then 1024 else r.compress_threshold }

def uvhttp_response_set_compress_threshold (threshold : Nat) (r : ResponseMemory) : ResponseMemory :=
  if threshold > UVHTTP_MAX_BODY_SIZE then r else { r with compress_threshold := threshold }

def uvhttp_compress_gzip (deflated : Bool) (input_len : Nat) : LedgerM (Option Nat) :=
  if input_len = 0 then pure none
  else do
    match ← acquire granted with
    | none => pure none
    | some buf =>
      if !deflated then do
        release buf
        pure none
      else pure (some buf)

/-- The first step of `uvhttp_response_build_data`: the compressed body, where it is used. -/
def compress_body (o : BuildOutcome) (r : ResponseMemory) : LedgerM (Option Nat × ResponseMemory) :=
  match r.body with
  | none => pure (none, r)
  | some body =>
    if !r.compress || r.body_length < r.compress_threshold then pure (none, r)
    else do
      touch body
      if o.cached then do
        let (_, r) ← uvhttp_response_set_header granted true true r
        pure (none, r)
      else do
        match ← uvhttp_compress_gzip granted o.deflated r.body_length with
        | none => pure (none, r)
        | some compressed_body =>
          if o.smaller then do
            let (_, r) ← uvhttp_response_set_header granted true true r
            pure (some compressed_body, r)
          else do
            release compressed_body
            pure (none, r)

/-- Read a block, if there is one. -/
def read_any : Option Nat → LedgerM Unit
  | none => pure ()
  | some block => touch block

/-- The blocks that `build_response_headers` reads. -/
def build_response_headers (r : ResponseMemory) : LedgerM Unit := do
  touch r.block
  read_any r.headers_extra

/-- The second step of `uvhttp_response_build_data`: the buffer that the headers are written to. -/
def build_headers_buffer (o : BuildOutcome) (r : ResponseMemory) : LedgerM (Option Nat) := do
  match ← acquire granted with
  | none => pure none
  | some headers_buffer => do
    build_response_headers r
    if !o.long_headers then pure (some headers_buffer)
    else do
      release headers_buffer
      match ← acquire granted with
      | none => pure none
      | some headers_buffer => do
        build_response_headers r
        pure (some headers_buffer)

def uvhttp_response_build_data (o : BuildOutcome) (r : ResponseMemory) : LedgerM BuildResult :=
  if r.sent then pure ⟨true, none, r, []⟩
  else do
    let (compressed_body, r) ← compress_body granted o r
    match ← build_headers_buffer granted o r with
    | none => do
      release_all compressed_body.toList
      pure ⟨false, none, r, []⟩
    | some headers_buffer => do
      match ← acquire granted with
      | none => do
        release headers_buffer
        pure ⟨false, none, r, compressed_body.toList⟩
      | some response_data => do
        read_any (compressed_body.or r.body)
        release_all compressed_body.toList
        release headers_buffer
        pure ⟨true, some response_data, r, []⟩

/-- `uvhttp_response_send_raw`, with whether the TLS layer or libuv takes the data. -/
def uvhttp_response_send_raw (goes : Bool) (data : Option Nat) (c : ConnectionMemory) :
    LedgerM (Bool × ConnectionMemory) :=
  match data with
  | none => pure (false, c)
  | some data => do
    match ← acquire granted with
    | none => pure (false, c)
    | some write_data => do
      touch data
      if c.tls_enabled && c.ssl.isSome then do
        deref c.ssl
        release write_data
        pure (goes, c)
      else if goes then pure (true, { c with writes := write_data :: c.writes })
      else do
        release write_data
        pure (false, c)

def uvhttp_response_send (o : BuildOutcome) (goes : Bool) (c : ConnectionMemory) :
    LedgerM (ConnectionMemory × List Nat) := do
  touch c.response.block
  if c.response.sent then pure (c, [])
  else do
    let b ← uvhttp_response_build_data granted o c.response
    if !b.ok then pure ({ c with response := b.response }, b.lost)
    else do
      let (_, c) ← uvhttp_response_send_raw granted goes b.out_data
        { c with response := { b.response with sent := true } }
      release_all b.out_data.toList
      pure (c, b.lost)

def uvhttp_send_response_data (length : Nat) (goes : Bool) (c : ConnectionMemory) : LedgerM ConnectionMemory :=
  if length = 0 then pure c
  else do
    match ← acquire granted with
    | none => pure c
    | some write_data =>
      if goes then pure { c with writes := write_data :: c.writes }
      else do
        release write_data
        pure c

/-- `uvhttp_free_write_data` for one of the writes that libuv has. -/
def uvhttp_free_write_data (i : Nat) (c : ConnectionMemory) : LedgerM ConnectionMemory :=
  match c.writes[i]? with
  | none => pure c
  | some write_data => do
    touch write_data
    touch c.response.block
    touch c.block
    release write_data
    pure { c with writes := c.writes.eraseIdx i }

def uvhttp_connection_restart_read (c : ConnectionMemory) : LedgerM ConnectionMemory := do
  touch c.block
  if c.closing then pure c
  else do
    touch c.request.block
    release_all c.request.body.toList
    touch c.request.parser
    touch c.response.block
    release_all c.response.body.toList
    pure { c with
      request := { c.request with header_count := 0, body := none, body_length := 0, body_capacity := 0 }
      response := { c.response with
        sent := false, compress := false, compress_threshold := 1024, header_count := 0, body := none,
        body_length := 0 } }

def uvhttp_connection_set_lifecycle (c : ConnectionMemory) : LedgerM ConnectionMemory := do
  match c.lifecycle with
  | some lifecycle => do
    touch lifecycle
    pure c
  | none => do
    match ← acquire granted with
    | none => pure c
    | some lifecycle => do
      touch lifecycle
      pure { c with lifecycle := some lifecycle }

/-- `uvhttp_tls_create_ssl`, with whether the session can be set up. -/
def uvhttp_tls_create_ssl (setup : Bool) : LedgerM (Option Nat) := do
  match ← acquire granted with
  | none => pure none
  | some ssl =>
    if !setup then do
      release ssl
      pure none
    else pure (some ssl)

def uvhttp_connection_tls_handshake_func (setup : Bool) (c : ConnectionMemory) : LedgerM ConnectionMemory := do
  match c.ssl with
  | some ssl => do
    touch ssl
    pure c
  | none => do
    match ← uvhttp_tls_create_ssl granted setup with
    | none => pure c
    | some ssl => do
      touch ssl
      pure { c with ssl := some ssl }

def uvhttp_connection_tls_cleanup (c : ConnectionMemory) : LedgerM ConnectionMemory := do
  release_all c.ssl.toList
  pure { c with ssl := none }

def uvhttp_connection_free_resources (c : ConnectionMemory) : LedgerM Unit := do
  touch c.block
  release c.read_buffer
  release_all c.tls_cipher_buf.toList
  uvhttp_request_cleanup c.request
  release c.request.block
  let response ← uvhttp_response_cleanup c.response
  release response.block
  release_all c.ssl.toList
  release_all c.lifecycle.toList
  release c.block

/-- What is done with a connection, and how it goes. -/
inductive ConnectionCall where
  | on_read
  | on_body (length : Nat)
  | uvhttp_request_add_header
  | uvhttp_response_set_header (valid copied : Bool)
  | uvhttp_response_set_body (length : Nat)
  | uvhttp_response_set_compress (enable : Bool)
  | uvhttp_response_set_compress_threshold (threshold : Nat)
  | uvhttp_response_cleanup
  | uvhttp_response_send (o : BuildOutcome) (goes : Bool)
  | uvhttp_send_response_data (length : Nat) (goes : Bool)
  | uvhttp_free_write_data (i : Nat)
  | uvhttp_connection_restart_read
  | uvhttp_connection_set_lifecycle
  | uvhttp_connection_tls_handshake_func (setup : Bool)
  | uvhttp_connection_tls_cleanup
  | uvhttp_connection_close
  deriving DecidableEq, Repr

/-- A call on the request or the response of a connection. -/
def on_request {α : Type} (call : RequestMemory → LedgerM (α × RequestMemory)) (c : ConnectionMemory) :
    LedgerM (ConnectionMemory × List Nat) :=
  (fun result => ({ c with request := result.2 }, [])) <$> call c.request

def on_response {α : Type} (call : ResponseMemory → LedgerM (α × ResponseMemory)) (c : ConnectionMemory) :
    LedgerM (ConnectionMemory × List Nat) :=
  (fun result => ({ c with response := result.2 }, [])) <$> call c.response

/-- A call that loses nothing. -/
def keeping (call : ConnectionMemory → LedgerM ConnectionMemory) (c : ConnectionMemory) :
    LedgerM (ConnectionMemory × List Nat) := (fun c => (c, [])) <$> call c

def ConnectionCall.perform (c : ConnectionMemory) : ConnectionCall → LedgerM (ConnectionMemory × List Nat)
  | .on_read => (fun _ => (c, [])) <$> connection_memory.on_read c
  | .on_body length => on_request (connection_memory.on_body granted length) c
  | .uvhttp_request_add_header => on_request (connection_memory.uvhttp_request_add_header granted) c
  | .uvhttp_response_set_header valid copied =>
    on_response (connection_memory.uvhttp_response_set_header granted valid copied) c
  | .uvhttp_response_set_body length => on_response (connection_memory.uvhttp_response_set_body granted length) c
  | .uvhttp_response_set_compress enable =>
    pure ({ c with response := connection_memory.uvhttp_response_set_compress enable c.response }, [])
  | .uvhttp_response_set_compress_threshold threshold =>
    pure ({ c with response := connection_memory.uvhttp_response_set_compress_threshold threshold c.response }, [])
  | .uvhttp_response_cleanup =>
    on_response (fun r => Prod.mk () <$> connection_memory.uvhttp_response_cleanup r) c
  | .uvhttp_response_send o goes => connection_memory.uvhttp_response_send granted o goes c
  | .uvhttp_send_response_data length goes =>
    keeping (connection_memory.uvhttp_send_response_data granted length goes) c
  | .uvhttp_free_write_data i => keeping (connection_memory.uvhttp_free_write_data i) c
  | .uvhttp_connection_restart_read => keeping connection_memory.uvhttp_connection_restart_read c
  | .uvhttp_connection_set_lifecycle => keeping (connection_memory.uvhttp_connection_set_lifecycle granted) c
  | .uvhttp_connection_tls_handshake_func setup =>
    keeping (connection_memory.uvhttp_connection_tls_handshake_func granted setup) c
  | .uvhttp_connection_tls_cleanup => keeping connection_memory.uvhttp_connection_tls_cleanup c
  | .uvhttp_connection_close => pure ({ c with closing := true }, [])

/-- The end of a connection: libuv completes the writes before the last close callback. -/
def connection_end : Nat → ConnectionMemory → LedgerM Unit
  | 0, c => uvhttp_connection_free_resources c
  | n + 1, c => do
    let c ← uvhttp_free_write_data 0 c
    connection_end n c

/-- A connection from its creation to its end, and the blocks that are lost on the way. -/
def connection_life (handles tls_enabled : Bool) (calls : List ConnectionCall) : LedgerM (List Nat) := do
  match ← uvhttp_connection_new granted handles tls_enabled with
  | (none, lost) => pure lost
  | (some c, lost) => do
    let (last, later) ← run_losing (ConnectionCall.perform granted) c calls
    connection_end last.writes.length last
    pure (lost ++ later)

end calls

/-- The blocks that `uvhttp_request_cleanup` frees, and its own. -/
def RequestMemory.blocks (r : RequestMemory) : List Nat :=
  r.block :: r.parser :: r.parser_settings :: (r.body.toList ++ r.headers_extra.toList)

def ResponseMemory.blocks (r : ResponseMemory) : List Nat := r.block :: (r.body.toList ++ r.headers_extra.toList)

def ConnectionMemory.parts (c : ConnectionMemory) : List (List Nat) :=
  [[c.block], [c.read_buffer], c.tls_cipher_buf.toList, c.request.blocks, c.response.blocks, c.ssl.toList,
    c.lifecycle.toList, c.writes]

/-- The blocks that are freed with a connection. -/
def ConnectionMemory.blocks (c : ConnectionMemory) : List Nat := c.parts.flatten

/-- A body that is missing has no room. -/
def RequestMemory.Valid (r : RequestMemory) : Prop := r.body = none → r.body_capacity = 0

/-- Where the headers have the room that they began with, there is no further block. -/
structure ResponseMemory.Valid (r : ResponseMemory) : Prop where
  capacity : UVHTTP_INLINE_HEADERS_CAPACITY ≤ r.headers_capacity
  inline : r.headers_capacity = UVHTTP_INLINE_HEADERS_CAPACITY → r.headers_extra = none

structure ConnectionMemory.Valid (c : ConnectionMemory) : Prop where
  request : c.request.Valid
  response : c.response.Valid

section requests

variable {granted : Nat → Bool} {r : RequestMemory} {before : List Nat}

theorem memcpy_accounts {dest : Option Nat} {length : Nat}
    (hdest : length ≠ 0 → ∃ block ∈ before, dest = some block) :
    Accounts (memcpy dest length) before fun _ rs => rs = before := by
  rw [memcpy]
  by_cases hlength : length = 0
  · rw [if_pos hlength]
    exact Accounts.pure rfl
  · obtain ⟨block, hblock, rfl⟩ := hdest hlength
    rw [if_neg hlength]
    exact Accounts.touch hblock

/-- What the initialisation leaves of a request: all its blocks, or the one it was given. -/
def Initialised (granted : Nat → Bool) (request : Nat) (before : List Nat) (r : Option RequestMemory) (rs : List Nat) :
    Prop :=
  rs.Perm (r.elim [request] RequestMemory.blocks ++ before) ∧ (∀ made ∈ r, made.Valid ∧ made.block = request) ∧
    (r = none → ¬∀ n, granted n = true)

theorem request_init_accounts {request : Nat} : Accounts (uvhttp_request_init granted request) (request :: before)
    (Initialised granted request before) := by
  have hnone (hrefused : ¬∀ n, granted n = true) : Accounts (pure (none : Option RequestMemory)) (request :: before)
      (Initialised granted request before) := by
    refine Accounts.pure ⟨List.Perm.refl _, ?_, fun _ => hrefused⟩
    intro made hmade
    cases hmade
  refine Accounts.touch_bind List.mem_cons_self ?_
  refine Accounts.acquire_or_refused (fun parser_settings _ => ?_) hnone
  refine Accounts.acquire_or_refused (fun parser _ => ?_) fun hrefused =>
    Accounts.release_bind (List.Perm.refl _) (hnone hrefused)
  refine Accounts.acquire_or_refused (fun body _ => Accounts.pure ⟨?_, ?_, ?_⟩) fun hrefused => ?_
  · change (body :: parser :: parser_settings :: request :: before).Perm
      (request :: parser :: parser_settings :: body :: before)
    grind
  · intro made hmade
    obtain rfl := Option.some.inj hmade
    refine ⟨fun hbody => ?_, rfl⟩
    cases hbody
  · intro hmade
    cases hmade
  · exact Accounts.release_bind (List.Perm.refl _) (Accounts.release_bind (List.Perm.refl _) (hnone hrefused))

theorem request_cleanup_accounts : Accounts (uvhttp_request_cleanup r) (r.blocks ++ before) fun _ rs =>
    rs = r.block :: before := by
  have hperm : (r.blocks ++ before).Perm
      (r.body.toList ++ (r.parser :: r.parser_settings :: r.headers_extra.toList) ++ r.block :: before) := by
    grind [RequestMemory.blocks]
  exact Accounts.perm hperm Accounts.release_all

theorem grow_body_accounts (hr : r.Valid) (length : Nat) : Accounts (grow_body granted length r) r.blocks
    fun p rs => rs.Perm p.2.blocks ∧ p.2.Valid ∧ (p.1 = true → p.2.body_length + length ≤ p.2.body_capacity) := by
  rw [grow_body]
  by_cases hroom : r.body_length + length > r.body_capacity
  · rw [if_pos hroom]
    dsimp only
    by_cases hlarge : max (r.body_capacity * 2) (r.body_length + length) > UVHTTP_MAX_BODY_SIZE
    · rw [if_pos hlarge]
      exact Accounts.pure ⟨List.Perm.refl _, hr, fun h => by cases h⟩
    · rw [if_neg hlarge]
      have hperm : r.blocks.Perm
          (r.body.toList ++ (r.block :: r.parser :: r.parser_settings :: r.headers_extra.toList)) := by
        grind [RequestMemory.blocks]
      refine Accounts.reacquire_bind hperm (fun new_body => Accounts.pure ⟨?_, ?_, fun _ => ?_⟩) ?_
      · grind [RequestMemory.blocks]
      · intro hbody
        cases hbody
      · exact Nat.le_max_right _ _
      · exact Accounts.pure ⟨List.Perm.refl _, hr, fun h => by cases h⟩
  · rw [if_neg hroom]
    exact Accounts.pure ⟨List.Perm.refl _, hr, fun _ => Nat.not_lt.mp hroom⟩

/-- The body is there whenever something is written to it. -/
theorem on_body_accounts (hr : r.Valid) (length : Nat) : Accounts (on_body granted length r) r.blocks
    fun p rs => rs.Perm p.2.blocks ∧ p.2.Valid := by
  refine Accounts.touch_bind List.mem_cons_self ?_
  refine (grow_body_accounts hr length).bind ?_
  rintro ⟨grown, r'⟩ rs ⟨hrs, hvalid, hroom⟩
  refine Accounts.perm hrs ?_
  cases grown with
  | false => exact Accounts.pure ⟨List.Perm.refl _, hvalid⟩
  | true =>
    refine (memcpy_accounts fun hlength => ?_).kept_bind fun _ => Accounts.pure ⟨List.Perm.refl _, hvalid⟩
    replace hroom : r'.body_length + length ≤ r'.body_capacity := hroom rfl
    have hcapacity : r'.body_capacity ≠ 0 := by omega
    obtain ⟨body, hbody⟩ : ∃ body, r'.body = some body :=
      Option.ne_none_iff_exists'.mp fun hnone => hcapacity (hvalid hnone)
    exact ⟨body, by simp [RequestMemory.blocks, hbody], hbody⟩

theorem grow_request_headers_accounts (hr : r.Valid) : Accounts (grow_request_headers granted r) r.blocks
    fun p rs => rs.Perm p.2.blocks ∧ p.2.Valid := by
  have hkept : Accounts (pure (false, r)) r.blocks fun (p : Bool × RequestMemory) rs =>
      rs.Perm p.2.blocks ∧ p.2.Valid := Accounts.pure ⟨List.Perm.refl _, hr⟩
  rw [grow_request_headers]
  by_cases hfull : r.header_count ≥ r.headers_capacity
  · rw [if_pos hfull]
    dsimp only
    by_cases hmax : grown_capacity r.headers_capacity = r.headers_capacity
    · rw [if_pos hmax]
      exact hkept
    · rw [if_neg hmax]
      have hperm : r.blocks.Perm
          (r.headers_extra.toList ++ (r.block :: r.parser :: r.parser_settings :: r.body.toList)) := by
        grind [RequestMemory.blocks]
      refine Accounts.reacquire_bind hperm (fun new_extra => Accounts.pure ⟨?_, hr⟩) hkept
      grind [RequestMemory.blocks]
  · rw [if_neg hfull]
    exact Accounts.pure ⟨List.Perm.refl _, hr⟩

theorem header_at_mem {block header index : Nat} {headers_extra : Option Nat}
    (h : header_at block headers_extra index = some header) : header = block ∨ headers_extra = some header := by
  rw [header_at] at h
  by_cases hindex : index < UVHTTP_INLINE_HEADERS_CAPACITY
  · rw [if_pos hindex] at h
    exact .inl (Option.some.inj h).symm
  · rw [if_neg hindex] at h
    exact .inr h

theorem add_header_accounts (hr : r.Valid) : Accounts (uvhttp_request_add_header granted r) r.blocks
    fun p rs => rs.Perm p.2.blocks ∧ p.2.Valid := by
  refine Accounts.touch_bind List.mem_cons_self ?_
  refine (grow_request_headers_accounts hr).bind ?_
  rintro ⟨grown, r'⟩ rs ⟨hrs, hvalid⟩
  refine Accounts.perm hrs ?_
  cases grown with
  | false => exact Accounts.pure ⟨List.Perm.refl _, hvalid⟩
  | true =>
    dsimp only [Bool.not_true]
    cases hheader : header_at r'.block r'.headers_extra r'.header_count with
    | none => exact Accounts.pure ⟨List.Perm.refl _, hvalid⟩
    | some header =>
      have hmem : header ∈ r'.blocks := by
        obtain rfl | hextra := header_at_mem hheader
        · exact List.mem_cons_self
        · simp [RequestMemory.blocks, hextra]
      exact Accounts.touch_bind hmem (Accounts.pure ⟨List.Perm.refl _, hvalid⟩)

end requests

section responses

variable {granted : Nat → Bool} {r : ResponseMemory} {before : List Nat}

theorem response_init_valid (response : Nat) : (uvhttp_response_init response).Valid := ⟨Nat.le_refl _, fun _ => rfl⟩

theorem response_cleanup_accounts (hr : r.Valid) : Accounts (uvhttp_response_cleanup r) r.blocks
    fun r' rs => rs = r'.blocks ∧ r'.blocks = [r'.block] ∧ r'.Valid := by
  have hperm : ([r.block] ++ (r.body.toList ++ r.headers_extra.toList)).Perm
      (r.body.toList ++ r.headers_extra.toList ++ [r.block]) := List.perm_append_comm
  exact Accounts.release_all_bind hperm (Accounts.pure ⟨rfl, rfl, hr.capacity, fun _ => rfl⟩)

theorem set_compress_same (r : ResponseMemory) (enable : Bool) :
    (uvhttp_response_set_compress enable r).blocks = r.blocks ∧
      (r.Valid → (uvhttp_response_set_compress enable r).Valid) := by
  cases enable with
  | false => exact ⟨rfl, fun h => ⟨h.1, h.2⟩⟩
  | true => exact ⟨rfl, fun h => ⟨h.1, h.2⟩⟩

theorem set_compress_threshold_same (r : ResponseMemory) (threshold : Nat) :
    (uvhttp_response_set_compress_threshold threshold r).blocks = r.blocks ∧
      (r.Valid → (uvhttp_response_set_compress_threshold threshold r).Valid) := by
  rw [uvhttp_response_set_compress_threshold]
  by_cases hlarge : threshold > UVHTTP_MAX_BODY_SIZE
  · rw [if_pos hlarge]
    exact ⟨rfl, id⟩
  · rw [if_neg hlarge]
    exact ⟨rfl, fun h => ⟨h.1, h.2⟩⟩

/-- Headers that have grown have more room than they began with. -/
theorem grown_capacity_gt {headers_capacity : Nat} (h : UVHTTP_INLINE_HEADERS_CAPACITY ≤ headers_capacity) :
    UVHTTP_INLINE_HEADERS_CAPACITY < grown_capacity headers_capacity := by
  have hdouble : headers_capacity * 2 ≠ 0 := by
    rw [UVHTTP_INLINE_HEADERS_CAPACITY] at h
    omega
  rw [grown_capacity, if_neg hdouble, UVHTTP_MAX_HEADERS]
  rw [UVHTTP_INLINE_HEADERS_CAPACITY] at h ⊢
  omega

/-- The block that is freed before the first growth is never there. -/
theorem grow_response_headers_accounts (hr : r.Valid) : Accounts (grow_response_headers granted r) r.blocks
    fun p rs => rs.Perm p.2.blocks ∧ p.2.Valid := by
  have hkept : Accounts (pure (false, r)) r.blocks fun (p : Bool × ResponseMemory) rs =>
      rs.Perm p.2.blocks ∧ p.2.Valid := Accounts.pure ⟨List.Perm.refl _, hr⟩
  have hgrown (new_extra : Nat) : ({ r with
      headers_extra := some new_extra
      headers_capacity := grown_capacity r.headers_capacity } : ResponseMemory).Valid := by
    have hmore := grown_capacity_gt hr.capacity
    exact ⟨Nat.le_of_lt hmore, fun hsame => absurd hsame (Nat.ne_of_gt hmore)⟩
  rw [grow_response_headers]
  by_cases hfull : r.header_count ≥ r.headers_capacity
  · rw [if_pos hfull]
    dsimp only
    by_cases hmax : grown_capacity r.headers_capacity = r.headers_capacity
    · rw [if_pos hmax]
      exact hkept
    · rw [if_neg hmax]
      by_cases hfirst : r.headers_capacity ≤ UVHTTP_INLINE_HEADERS_CAPACITY
      · rw [if_pos hfirst, hr.inline (Nat.le_antisymm hfirst hr.capacity)]
        refine Accounts.acquire_bind (fun new_extra _ => ?_) (Accounts.release_all_bind (List.Perm.refl _) hkept)
        refine Accounts.release_all_bind (List.Perm.refl _) (Accounts.pure ⟨?_, hgrown new_extra⟩)
        grind [ResponseMemory.blocks, ResponseMemory.Valid]
      · rw [if_neg hfirst]
        have hperm : r.blocks.Perm (r.headers_extra.toList ++ (r.block :: r.body.toList)) := by
          grind [ResponseMemory.blocks]
        refine Accounts.reacquire_bind hperm (fun new_extra => Accounts.pure ⟨?_, hgrown new_extra⟩) hkept
        grind [ResponseMemory.blocks]
  · rw [if_neg hfull]
    exact Accounts.pure ⟨List.Perm.refl _, hr⟩

theorem set_header_accounts (hr : r.Valid) (valid copied : Bool) :
    Accounts (uvhttp_response_set_header granted valid copied r) r.blocks fun p rs =>
      rs.Perm p.2.blocks ∧ p.2.Valid := by
  rw [uvhttp_response_set_header]
  cases valid with
  | false => exact Accounts.pure ⟨List.Perm.refl _, hr⟩
  | true =>
  refine Accounts.touch_bind List.mem_cons_self ?_
  refine (grow_response_headers_accounts hr).bind ?_
  rintro ⟨grown, r'⟩ rs ⟨hrs, hvalid⟩
  refine Accounts.perm hrs ?_
  cases grown with
  | false => exact Accounts.pure ⟨List.Perm.refl _, hvalid⟩
  | true =>
    dsimp only [Bool.not_true]
    cases hheader : header_at r'.block r'.headers_extra r'.header_count with
    | none => exact Accounts.pure ⟨List.Perm.refl _, hvalid⟩
    | some header =>
      have hmem : header ∈ r'.blocks := by
        obtain rfl | hextra := header_at_mem hheader
        · exact List.mem_cons_self
        · simp [ResponseMemory.blocks, hextra]
      exact Accounts.touch_bind hmem (Accounts.pure ⟨List.Perm.refl _, hvalid.1, hvalid.2⟩)

theorem set_body_accounts (hr : r.Valid) (length : Nat) :
    Accounts (uvhttp_response_set_body granted length r) r.blocks fun p rs => rs.Perm p.2.blocks ∧ p.2.Valid := by
  rw [uvhttp_response_set_body]
  by_cases hlength : (length = 0 || length > UVHTTP_MAX_BODY_SIZE) = true
  · rw [if_pos hlength]
    exact Accounts.pure ⟨List.Perm.refl _, hr⟩
  · rw [if_neg hlength]
    have hperm : r.blocks.Perm (r.body.toList ++ (r.block :: r.headers_extra.toList)) := by
      grind [ResponseMemory.blocks]
    refine Accounts.release_all_bind hperm ?_
    refine Accounts.acquire_bind (fun body _ => ?_) (Accounts.pure ⟨List.Perm.refl _, hr.1, hr.2⟩)
    refine (memcpy_accounts fun _ => ⟨body, List.mem_cons_self, rfl⟩).kept_bind fun _ => ?_
    exact Accounts.pure ⟨List.Perm.swap _ _ _, hr.1, hr.2⟩

theorem compress_gzip_accounts (deflated : Bool) (input_len : Nat) :
    Accounts (uvhttp_compress_gzip granted deflated input_len) before fun compressed rs =>
      rs = compressed.toList ++ before := by
  rw [uvhttp_compress_gzip]
  by_cases hempty : input_len = 0
  · rw [if_pos hempty]
    exact Accounts.pure rfl
  · rw [if_neg hempty]
    refine Accounts.acquire_bind (fun buf _ => ?_) (Accounts.pure rfl)
    cases deflated with
    | true => exact Accounts.pure rfl
    | false => exact Accounts.release_bind (List.Perm.refl _) (Accounts.pure rfl)

theorem compress_body_accounts (hr : r.Valid) (o : BuildOutcome) : Accounts (compress_body granted o r) r.blocks
    fun p rs => rs.Perm (p.2.blocks ++ p.1.toList) ∧ p.2.Valid := by
  have hkept : Accounts (pure (none, r)) r.blocks fun (p : Option Nat × ResponseMemory) rs =>
      rs.Perm (p.2.blocks ++ p.1.toList) ∧ p.2.Valid :=
    Accounts.pure ⟨List.Perm.of_eq (List.append_nil _).symm, hr⟩
  rw [compress_body]
  cases hbody : r.body with
  | none => exact hkept
  | some body =>
  dsimp only
  by_cases hplain : (!r.compress || r.body_length < r.compress_threshold) = true
  · rw [if_pos hplain]
    exact hkept
  · rw [if_neg hplain]
    have hmem : body ∈ r.blocks := by simp [ResponseMemory.blocks, hbody]
    refine Accounts.touch_bind hmem ?_
    by_cases hcached : o.cached = true
    · rw [if_pos hcached]
      refine (set_header_accounts hr true true).bind ?_
      rintro ⟨set, r'⟩ rs ⟨hrs, hvalid⟩
      exact Accounts.pure ⟨hrs.trans (List.Perm.of_eq (List.append_nil _).symm), hvalid⟩
    · rw [if_neg hcached]
      refine (compress_gzip_accounts o.deflated r.body_length).bind ?_
      rintro compressed rs rfl
      cases compressed with
      | none => exact hkept
      | some compressed_body =>
      dsimp only
      by_cases hsmaller : o.smaller = true
      · rw [if_pos hsmaller]
        refine Accounts.perm List.perm_append_comm (((set_header_accounts hr true true).frame _).bind ?_)
        rintro ⟨set, r'⟩ - ⟨own, ⟨hown, hvalid⟩, rfl⟩
        exact Accounts.pure ⟨hown.append_right _, hvalid⟩
      · rw [if_neg hsmaller]
        exact Accounts.release_bind (List.Perm.refl _) hkept

theorem read_any_accounts {object : Option Nat} (hobject : object.toList ⊆ before) :
    Accounts (read_any object) before fun _ rs => rs = before := by
  cases object with
  | none => exact Accounts.pure rfl
  | some block => exact Accounts.touch (hobject List.mem_cons_self)

theorem read_headers_accounts (hblocks : r.blocks ⊆ before) :
    Accounts (build_response_headers r) before fun _ rs => rs = before := by
  refine Accounts.touch_bind (hblocks List.mem_cons_self) (read_any_accounts fun block hblock => hblocks ?_)
  exact List.mem_cons_of_mem _ (List.mem_append_right _ hblock)

theorem headers_buffer_accounts (o : BuildOutcome) (hblocks : r.blocks ⊆ before) :
    Accounts (build_headers_buffer granted o r) before fun buffer rs => rs = buffer.toList ++ before := by
  have hmore (buffer : Nat) : r.blocks ⊆ buffer :: before := fun _ h => List.mem_cons_of_mem _ (hblocks h)
  refine Accounts.acquire_bind (fun buffer _ => ?_) (Accounts.pure rfl)
  refine (read_headers_accounts (hmore buffer)).kept_bind fun _ => ?_
  cases o.long_headers with
  | false => exact Accounts.pure rfl
  | true =>
    refine Accounts.release_bind (List.Perm.refl _) ?_
    refine Accounts.acquire_bind (fun longer _ => ?_) (Accounts.pure rfl)
    exact (read_headers_accounts (hmore longer)).kept_bind fun _ => Accounts.pure rfl

/-- A compressed body is lost where the block for the whole response is refused, and nowhere else. -/
theorem build_data_accounts (hr : r.Valid) (o : BuildOutcome) :
    Accounts (uvhttp_response_build_data granted o r) r.blocks fun b rs =>
      rs.Perm (b.out_data.toList ++ (b.response.blocks ++ b.lost)) ∧ b.response.Valid ∧
        (b.ok = false → b.out_data = none) ∧ ((∀ n, granted n = true) → b.lost = []) := by
  have hend (response : ResponseMemory) : response.blocks.Perm (response.blocks ++ []) :=
    List.Perm.of_eq (List.append_nil _).symm
  rw [uvhttp_response_build_data]
  by_cases hsent : r.sent = true
  · rw [if_pos hsent]
    exact Accounts.pure ⟨hend r, hr, fun _ => rfl, fun _ => rfl⟩
  · rw [if_neg hsent]
    refine (compress_body_accounts hr o).bind ?_
    rintro ⟨compressed, r'⟩ rs ⟨hrs, hvalid⟩
    refine Accounts.perm hrs ?_
    refine (headers_buffer_accounts o (List.subset_append_left _ _)).bind ?_
    rintro buffer rs rfl
    cases buffer with
    | none =>
      have hperm : (r'.blocks ++ compressed.toList).Perm (compressed.toList ++ r'.blocks) := List.perm_append_comm
      exact Accounts.release_all_bind hperm (Accounts.pure ⟨hend r', hvalid, fun _ => rfl, fun _ => rfl⟩)
    | some headers_buffer =>
      refine Accounts.acquire_or_refused (fun response_data _ => ?_) fun hrefused => ?_
      · have hread : (compressed.or r'.body).toList ⊆
            response_data :: headers_buffer :: (r'.blocks ++ compressed.toList) := by
          intro block hblock
          cases compressed with
          | none => simp_all [ResponseMemory.blocks]
          | some compressed_body => simp_all
        refine (read_any_accounts hread).kept_bind fun _ => ?_
        have hperm : (response_data :: headers_buffer :: (r'.blocks ++ compressed.toList)).Perm
            (compressed.toList ++ headers_buffer :: response_data :: r'.blocks) := by grind
        refine Accounts.release_all_bind hperm (Accounts.release_bind (List.Perm.refl _) ?_)
        exact Accounts.pure ⟨(hend r').cons _, hvalid, Bool.noConfusion, fun _ => rfl⟩
      · refine Accounts.release_bind (List.Perm.refl _) ?_
        exact Accounts.pure ⟨List.Perm.refl _, hvalid, fun _ => rfl, fun hgranted => absurd hgranted hrefused⟩

end responses

section connections

variable {granted : Nat → Bool} {c : ConnectionMemory} {before : List Nat}

/-- What a call on a connection leaves: the blocks of the connection, those that it loses, and none of these
while no request for memory is refused. -/
def Left (granted : Nat → Bool) (result : ConnectionMemory × List Nat) (rs : List Nat) : Prop :=
  rs.Perm (result.1.blocks ++ result.2) ∧ result.1.Valid ∧ ((∀ n, granted n = true) → result.2 = [])

theorem left_nothing {rs : List Nat} (hperm : rs.Perm c.blocks) (hc : c.Valid) : Left granted (c, []) rs :=
  ⟨hperm.trans (List.Perm.of_eq (List.append_nil _).symm), hc, fun _ => rfl⟩

/-- What one pointer of a connection leads to is among its blocks. -/
theorem part_subset {part : List Nat} (i : Nat) (hpart : c.parts[i]? = some part) : part ⊆ c.blocks :=
  fun _ hblock => List.mem_flatten.mpr ⟨part, List.mem_of_getElem? hpart, hblock⟩

theorem block_mem : c.block ∈ c.blocks := List.mem_cons_self

theorem read_buffer_mem : c.read_buffer ∈ c.blocks := part_subset 1 rfl List.mem_cons_self

theorem request_subset : c.request.blocks ⊆ c.blocks := part_subset 3 rfl

theorem response_subset : c.response.blocks ⊆ c.blocks := part_subset 4 rfl

theorem ssl_mem {ssl : Nat} (hssl : c.ssl = some ssl) : ssl ∈ c.blocks :=
  part_subset 5 rfl (Option.mem_toList.mpr hssl)

/-- The request of a connection, in front of its other blocks. -/
theorem blocks_request (c : ConnectionMemory) (r : RequestMemory) :
    ({ c with request := r } : ConnectionMemory).blocks.Perm (r.blocks ++ (c.parts.set 3 []).flatten) :=
  @perm_part ({ c with request := r } : ConnectionMemory).parts 3 r.blocks rfl

theorem blocks_response (c : ConnectionMemory) (r : ResponseMemory) :
    ({ c with response := r } : ConnectionMemory).blocks.Perm (r.blocks ++ (c.parts.set 4 []).flatten) :=
  @perm_part ({ c with response := r } : ConnectionMemory).parts 4 r.blocks rfl

theorem blocks_ssl (c : ConnectionMemory) (ssl : Option Nat) :
    ({ c with ssl } : ConnectionMemory).blocks.Perm (ssl.toList ++ (c.parts.set 5 []).flatten) :=
  @perm_part ({ c with ssl } : ConnectionMemory).parts 5 ssl.toList rfl

theorem blocks_lifecycle (c : ConnectionMemory) (lifecycle : Option Nat) :
    ({ c with lifecycle } : ConnectionMemory).blocks.Perm (lifecycle.toList ++ (c.parts.set 6 []).flatten) :=
  @perm_part ({ c with lifecycle } : ConnectionMemory).parts 6 lifecycle.toList rfl

theorem blocks_writes (c : ConnectionMemory) (writes : List Nat) :
    ({ c with writes } : ConnectionMemory).blocks.Perm (writes ++ (c.parts.set 7 []).flatten) :=
  @perm_part ({ c with writes } : ConnectionMemory).parts 7 writes rfl

theorem on_request_accounts {α : Type} {call : RequestMemory → LedgerM (α × RequestMemory)} (hc : c.Valid)
    (h : Accounts (call c.request) c.request.blocks fun p rs => rs.Perm p.2.blocks ∧ p.2.Valid) :
    Accounts (on_request call c) c.blocks (Left granted) := by
  refine Accounts.map (Accounts.perm (blocks_request c c.request) ((h.frame _).mono ?_))
  rintro result - ⟨own, ⟨hown, hvalid⟩, rfl⟩
  exact left_nothing ((hown.append_right _).trans (blocks_request c result.2).symm) ⟨hvalid, hc.response⟩

theorem on_response_accounts {α : Type} {call : ResponseMemory → LedgerM (α × ResponseMemory)} (hc : c.Valid)
    (h : Accounts (call c.response) c.response.blocks fun p rs => rs.Perm p.2.blocks ∧ p.2.Valid) :
    Accounts (on_response call c) c.blocks (Left granted) := by
  refine Accounts.map (Accounts.perm (blocks_response c c.response) ((h.frame _).mono ?_))
  rintro result - ⟨own, ⟨hown, hvalid⟩, rfl⟩
  exact left_nothing ((hown.append_right _).trans (blocks_response c result.2).symm) ⟨hc.request, hvalid⟩

theorem keeping_accounts {call : ConnectionMemory → LedgerM ConnectionMemory}
    (h : Accounts (call c) c.blocks fun c' rs => rs.Perm c'.blocks ∧ c'.Valid) :
    Accounts (keeping call c) c.blocks (Left granted) :=
  Accounts.map (h.mono fun _ _ h => left_nothing h.1 h.2)

theorem input_buffer_mem : input_buffer c ∈ c.blocks := by
  rw [input_buffer]
  by_cases htls : (c.tls_enabled && c.ssl.isSome) = true
  · rw [if_pos htls]
    cases hcipher : c.tls_cipher_buf with
    | none => exact read_buffer_mem
    | some tls_cipher_buf => exact part_subset 2 rfl (Option.mem_toList.mpr hcipher)
  · rw [if_neg htls]
    exact read_buffer_mem

theorem on_read_accounts : Accounts (on_read c) c.blocks fun _ rs => rs = c.blocks := by
  have hparser : c.request.parser ∈ c.blocks := request_subset (List.mem_cons_of_mem _ List.mem_cons_self)
  refine Accounts.touch_bind block_mem (Accounts.touch_bind (request_subset List.mem_cons_self) ?_)
  refine Accounts.touch_bind input_buffer_mem ?_
  by_cases htls : (c.tls_enabled && c.ssl.isSome) = true
  · rw [if_pos htls]
    obtain ⟨ssl, hssl⟩ := Option.isSome_iff_exists.mp (Bool.and_eq_true_iff.mp htls).2
    rw [hssl]
    exact Accounts.touch_bind (ssl_mem hssl) (Accounts.touch_bind read_buffer_mem (Accounts.touch hparser))
  · rw [if_neg htls]
    exact Accounts.touch hparser

/-- A write that libuv takes is one more block of the connection, until it is complete. -/
theorem blocks_write (c : ConnectionMemory) (write_data : Nat) :
    (write_data :: c.blocks).Perm ({ c with writes := write_data :: c.writes } : ConnectionMemory).blocks :=
  ((blocks_writes c c.writes).cons write_data).trans (blocks_writes c (write_data :: c.writes)).symm

theorem send_raw_accounts (hc : c.Valid) (goes : Bool) (data : Option Nat) :
    Accounts (uvhttp_response_send_raw granted goes data c) (data.toList ++ c.blocks) fun p rs =>
      rs.Perm (data.toList ++ p.2.blocks) ∧ p.2.Valid := by
  cases data with
  | none => exact Accounts.pure ⟨List.Perm.refl _, hc⟩
  | some data =>
  have hkept (ok : Bool) : Accounts (pure (ok, c)) (data :: c.blocks) fun (p : Bool × ConnectionMemory) rs =>
      rs.Perm (data :: p.2.blocks) ∧ p.2.Valid := Accounts.pure ⟨List.Perm.refl _, hc⟩
  refine Accounts.acquire_bind (fun write_data _ => ?_) (hkept false)
  refine Accounts.touch_bind (List.mem_cons_of_mem _ List.mem_cons_self) ?_
  by_cases htls : (c.tls_enabled && c.ssl.isSome) = true
  · rw [if_pos htls]
    obtain ⟨ssl, hssl⟩ := Option.isSome_iff_exists.mp (Bool.and_eq_true_iff.mp htls).2
    rw [hssl]
    refine Accounts.touch_bind (List.mem_cons_of_mem _ (List.mem_cons_of_mem _ (ssl_mem hssl))) ?_
    exact Accounts.release_bind (List.Perm.refl _) (hkept goes)
  · rw [if_neg htls]
    cases goes with
    | false => exact Accounts.release_bind (List.Perm.refl _) (hkept false)
    | true =>
      exact Accounts.pure ⟨(List.Perm.swap _ _ _).trans ((blocks_write c write_data).cons data), hc.1, hc.2⟩

theorem send_accounts (hc : c.Valid) (o : BuildOutcome) (goes : Bool) :
    Accounts (uvhttp_response_send granted o goes c) c.blocks (Left granted) := by
  refine Accounts.touch_bind (response_subset List.mem_cons_self) ?_
  by_cases hsent : c.response.sent = true
  · rw [if_pos hsent]
    exact Accounts.pure (left_nothing (List.Perm.refl _) hc)
  · rw [if_neg hsent]
    refine Accounts.perm (blocks_response c c.response) (((build_data_accounts hc.response o).frame _).bind ?_)
    rintro b - ⟨own, ⟨hown, hvalid, hout, hlost⟩, rfl⟩
    have hblocks (response : ResponseMemory) (hsame : response.blocks = b.response.blocks) :
        (own ++ (c.parts.set 4 []).flatten).Perm
          (b.out_data.toList ++ ({ c with response } : ConnectionMemory).blocks ++ b.lost) := by
      have hresponse := blocks_response c response
      rw [hsame] at hresponse
      grind
    by_cases hok : b.ok = true
    · rw [hok]
      have hmarked : ({ c with response := { b.response with sent := true } } : ConnectionMemory).Valid :=
        ⟨hc.request, hvalid.1, hvalid.2⟩
      refine Accounts.perm (hblocks { b.response with sent := true } rfl) ?_
      refine ((send_raw_accounts hmarked goes b.out_data).frame b.lost).bind ?_
      rintro ⟨ok, c'⟩ - ⟨own', ⟨hown', hc'⟩, rfl⟩
      refine Accounts.perm (hown'.append_right _) ?_
      rw [List.append_assoc]
      exact Accounts.release_all_bind (List.Perm.refl _) (Accounts.pure ⟨List.Perm.refl _, hc', hlost⟩)
    · have hfailed : b.ok = false := Bool.not_eq_true _ ▸ hok
      rw [hfailed]
      refine Accounts.pure ⟨?_, ⟨hc.request, hvalid⟩, hlost⟩
      have hperm := hblocks b.response rfl
      rwa [hout hfailed] at hperm

theorem send_response_data_accounts (hc : c.Valid) (length : Nat) (goes : Bool) :
    Accounts (uvhttp_send_response_data granted length goes c) c.blocks fun c' rs => rs.Perm c'.blocks ∧ c'.Valid := by
  have hkept : Accounts (pure c) c.blocks fun (c' : ConnectionMemory) rs => rs.Perm c'.blocks ∧ c'.Valid :=
    Accounts.pure ⟨List.Perm.refl _, hc⟩
  rw [uvhttp_send_response_data]
  by_cases hlength : length = 0
  · rw [if_pos hlength]
    exact hkept
  · rw [if_neg hlength]
    refine Accounts.acquire_bind (fun write_data _ => ?_) hkept
    cases goes with
    | true => exact Accounts.pure ⟨blocks_write c write_data, hc.1, hc.2⟩
    | false => exact Accounts.release_bind (List.Perm.refl _) hkept

/-- A write that is complete is freed, and the connection is there when it is. -/
theorem free_write_data_accounts (hc : c.Valid) (i : Nat) : Accounts (uvhttp_free_write_data i c) c.blocks
    fun c' rs => rs.Perm c'.blocks ∧ c'.Valid ∧ c'.writes = c.writes.eraseIdx i := by
  rw [uvhttp_free_write_data]
  cases hwrite : c.writes[i]? with
  | none =>
    have hlength : c.writes.length ≤ i := List.getElem?_eq_none_iff.mp hwrite
    exact Accounts.pure ⟨List.Perm.refl _, hc, (List.eraseIdx_of_length_le hlength).symm⟩
  | some write_data =>
    refine Accounts.touch_bind (part_subset 7 rfl (List.mem_of_getElem? hwrite)) ?_
    refine Accounts.touch_bind (response_subset List.mem_cons_self) (Accounts.touch_bind block_mem ?_)
    have hfront : c.writes.Perm (write_data :: c.writes.eraseIdx i) := by
      obtain ⟨hi, rfl⟩ := List.getElem?_eq_some_iff.mp hwrite
      exact (List.getElem_cons_eraseIdx_perm hi).symm
    have hperm : c.blocks.Perm
        (write_data :: ({ c with writes := c.writes.eraseIdx i } : ConnectionMemory).blocks) :=
      (blocks_writes c c.writes).trans
        ((hfront.append_right _).trans ((blocks_writes c (c.writes.eraseIdx i)).symm.cons write_data))
    exact Accounts.release_bind hperm (Accounts.pure ⟨List.Perm.refl _, ⟨hc.1, hc.2⟩, rfl⟩)

/-- The body of a request is freed on its own. -/
theorem blocks_request_body (c : ConnectionMemory) {r : RequestMemory}
    (hr : c.request.blocks.Perm (c.request.body.toList ++ r.blocks)) :
    c.blocks.Perm (c.request.body.toList ++ ({ c with request := r } : ConnectionMemory).blocks) := by
  refine (blocks_request c c.request).trans ((hr.append_right _).trans ?_)
  rw [List.append_assoc]
  exact (blocks_request c r).symm.append_left _

theorem blocks_response_body (c : ConnectionMemory) {r : ResponseMemory}
    (hr : c.response.blocks.Perm (c.response.body.toList ++ r.blocks)) :
    c.blocks.Perm (c.response.body.toList ++ ({ c with response := r } : ConnectionMemory).blocks) := by
  refine (blocks_response c c.response).trans ((hr.append_right _).trans ?_)
  rw [List.append_assoc]
  exact (blocks_response c r).symm.append_left _

theorem restart_read_accounts (hc : c.Valid) : Accounts (uvhttp_connection_restart_read c) c.blocks
    fun c' rs => rs.Perm c'.blocks ∧ c'.Valid := by
  refine Accounts.touch_bind block_mem ?_
  by_cases hclosing : c.closing = true
  · rw [if_pos hclosing]
    exact Accounts.pure ⟨List.Perm.refl _, hc⟩
  · rw [if_neg hclosing]
    let request : RequestMemory := { c.request with
      header_count := 0, body := none, body_length := 0, body_capacity := 0 }
    let response : ResponseMemory := { c.response with
      sent := false, compress := false, compress_threshold := 1024, header_count := 0, body := none, body_length := 0 }
    have hrequest : c.request.blocks.Perm (c.request.body.toList ++ request.blocks) := by
      grind [RequestMemory.blocks]
    have hresponse : c.response.blocks.Perm (c.response.body.toList ++ response.blocks) := by
      grind [ResponseMemory.blocks]
    have hparser : c.request.parser ∈ ({ c with request } : ConnectionMemory).blocks :=
      request_subset (List.mem_cons_of_mem _ List.mem_cons_self)
    have hblock : c.response.block ∈ ({ c with request } : ConnectionMemory).blocks :=
      response_subset List.mem_cons_self
    refine Accounts.touch_bind (request_subset List.mem_cons_self) ?_
    refine Accounts.release_all_bind (blocks_request_body c hrequest) ?_
    refine Accounts.touch_bind hparser (Accounts.touch_bind hblock ?_)
    refine Accounts.release_all_bind (@blocks_response_body { c with request } response hresponse) ?_
    exact Accounts.pure ⟨List.Perm.refl _, fun _ => rfl, hc.response.1, hc.response.2⟩

theorem set_lifecycle_accounts (hc : c.Valid) : Accounts (uvhttp_connection_set_lifecycle granted c) c.blocks
    fun c' rs => rs.Perm c'.blocks ∧ c'.Valid := by
  rw [uvhttp_connection_set_lifecycle]
  cases hlifecycle : c.lifecycle with
  | some lifecycle =>
    refine Accounts.touch_bind (part_subset 6 rfl (Option.mem_toList.mpr hlifecycle)) ?_
    exact Accounts.pure ⟨List.Perm.refl _, hc⟩
  | none =>
    refine Accounts.acquire_bind (fun lifecycle _ => ?_) (Accounts.pure ⟨List.Perm.refl _, hc⟩)
    refine Accounts.touch_bind List.mem_cons_self (Accounts.pure ⟨?_, hc.1, hc.2⟩)
    have hold : c.blocks.Perm (c.lifecycle.toList ++ (c.parts.set 6 []).flatten) := blocks_lifecycle c c.lifecycle
    rw [hlifecycle] at hold
    exact (hold.cons lifecycle).trans (blocks_lifecycle c (some lifecycle)).symm

theorem create_ssl_accounts (setup : Bool) : Accounts (uvhttp_tls_create_ssl granted setup) before
    fun ssl rs => rs = ssl.toList ++ before := by
  refine Accounts.acquire_bind (fun ssl _ => ?_) (Accounts.pure rfl)
  cases setup with
  | true => exact Accounts.pure rfl
  | false => exact Accounts.release_bind (List.Perm.refl _) (Accounts.pure rfl)

theorem handshake_accounts (hc : c.Valid) (setup : Bool) :
    Accounts (uvhttp_connection_tls_handshake_func granted setup c) c.blocks fun c' rs =>
      rs.Perm c'.blocks ∧ c'.Valid := by
  rw [uvhttp_connection_tls_handshake_func]
  cases hssl : c.ssl with
  | some ssl => exact Accounts.touch_bind (ssl_mem hssl) (Accounts.pure ⟨List.Perm.refl _, hc⟩)
  | none =>
    refine (create_ssl_accounts setup).bind ?_
    rintro ssl rs rfl
    cases ssl with
    | none => exact Accounts.pure ⟨List.Perm.refl _, hc⟩
    | some ssl =>
      refine Accounts.touch_bind List.mem_cons_self (Accounts.pure ⟨?_, hc.1, hc.2⟩)
      have hold : c.blocks.Perm (c.ssl.toList ++ (c.parts.set 5 []).flatten) := blocks_ssl c c.ssl
      rw [hssl] at hold
      exact (hold.cons ssl).trans (blocks_ssl c (some ssl)).symm

theorem tls_cleanup_accounts (hc : c.Valid) : Accounts (uvhttp_connection_tls_cleanup c) c.blocks
    fun c' rs => rs.Perm c'.blocks ∧ c'.Valid :=
  Accounts.release_all_bind (blocks_ssl c c.ssl) (Accounts.pure ⟨(blocks_ssl c none).symm, hc.1, hc.2⟩)

theorem perform_accounts (hc : c.Valid) (call : ConnectionCall) :
    Accounts (call.perform granted c) c.blocks (Left granted) := by
  have hsame (r : ResponseMemory) (hblocks : r.blocks = c.response.blocks) (hr : r.Valid) :
      Left granted ({ c with response := r }, []) c.blocks := by
    refine left_nothing ((blocks_response c c.response).trans ?_) ⟨hc.request, hr⟩
    rw [← hblocks]
    exact (blocks_response c r).symm
  cases call with
  | on_read => exact Accounts.map (on_read_accounts.mono fun _ rs hrs => hrs ▸ left_nothing (List.Perm.refl _) hc)
  | on_body length => exact on_request_accounts hc (on_body_accounts hc.request length)
  | uvhttp_request_add_header => exact on_request_accounts hc (add_header_accounts hc.request)
  | uvhttp_response_set_header valid copied =>
    exact on_response_accounts hc (set_header_accounts hc.response valid copied)
  | uvhttp_response_set_body length => exact on_response_accounts hc (set_body_accounts hc.response length)
  | uvhttp_response_set_compress enable =>
    obtain ⟨hblocks, hvalid⟩ := set_compress_same c.response enable
    exact Accounts.pure (hsame _ hblocks (hvalid hc.response))
  | uvhttp_response_set_compress_threshold threshold =>
    obtain ⟨hblocks, hvalid⟩ := set_compress_threshold_same c.response threshold
    exact Accounts.pure (hsame _ hblocks (hvalid hc.response))
  | uvhttp_response_cleanup =>
    refine @on_response_accounts _ _ _ (fun r => Prod.mk () <$> uvhttp_response_cleanup r) hc (Accounts.map ?_)
    exact (response_cleanup_accounts hc.response).mono fun r' rs h => ⟨h.1 ▸ List.Perm.refl _, h.2.2⟩
  | uvhttp_response_send o goes => exact send_accounts hc o goes
  | uvhttp_send_response_data length goes => exact keeping_accounts (send_response_data_accounts hc length goes)
  | uvhttp_free_write_data i =>
    exact keeping_accounts ((free_write_data_accounts hc i).mono fun _ _ h => ⟨h.1, h.2.1⟩)
  | uvhttp_connection_restart_read => exact keeping_accounts (restart_read_accounts hc)
  | uvhttp_connection_set_lifecycle => exact keeping_accounts (set_lifecycle_accounts hc)
  | uvhttp_connection_tls_handshake_func setup => exact keeping_accounts (handshake_accounts hc setup)
  | uvhttp_connection_tls_cleanup => exact keeping_accounts (tls_cleanup_accounts hc)
  | uvhttp_connection_close => exact Accounts.pure (left_nothing (List.Perm.refl _) ⟨hc.1, hc.2⟩)

/-- Everything that a connection has is freed with it, and what libuv has is not. -/
theorem free_resources_accounts (hc : c.Valid) : Accounts (uvhttp_connection_free_resources c) c.blocks
    fun _ rs => rs = c.writes := by
  have hperm : c.blocks.Perm (c.read_buffer :: (c.tls_cipher_buf.toList ++ (c.request.blocks ++
      (c.response.blocks ++ (c.ssl.toList ++ (c.lifecycle.toList ++ c.block :: c.writes)))))) := by
    simp only [ConnectionMemory.blocks, ConnectionMemory.parts, List.flatten_cons, List.flatten_nil, List.append_nil,
      List.singleton_append]
    grind
  refine Accounts.touch_bind block_mem (Accounts.release_bind hperm ?_)
  refine Accounts.release_all_bind (List.Perm.refl _) (request_cleanup_accounts.bind ?_)
  rintro - rs rfl
  refine Accounts.release_bind (List.Perm.refl _) (((response_cleanup_accounts hc.response).frame _).bind ?_)
  rintro response - ⟨own, ⟨rfl, hblocks, -⟩, rfl⟩
  rw [hblocks]
  refine Accounts.release_bind (List.Perm.refl _) (Accounts.release_all_bind (List.Perm.refl _) ?_)
  exact Accounts.release_all_bind (List.Perm.refl _) Accounts.release

theorem connection_end_accounts (n : Nat) (hc : c.Valid) (hn : c.writes.length = n) :
    Accounts (connection_end n c) c.blocks fun _ rs => rs = [] := by
  induction n generalizing c with
  | zero =>
    have hnone : c.writes = [] := List.length_eq_zero_iff.mp hn
    exact hnone ▸ free_resources_accounts hc
  | succ n ih =>
    refine (free_write_data_accounts hc 0).bind fun c' rs ⟨hrs, hc', hwrites⟩ => Accounts.perm hrs (ih hc' ?_)
    rw [hwrites, List.length_eraseIdx_of_lt (by omega), hn]
    rfl

end connections

section creation

variable {granted : Nat → Bool}

/-- What a creation leaves: the blocks of the connection, or the ciphertext buffer of a failed one. -/
def Created (granted : Nat → Bool) (result : Option ConnectionMemory × List Nat) (rs : List Nat) : Prop :=
  rs.Perm (resources_of ConnectionMemory.blocks result.1 ++ result.2) ∧ (∀ c ∈ result.1, c.Valid) ∧
    ((∀ n, granted n = true) → result.2 = [])

theorem created_none {rs : List Nat} (hrs : ¬(∀ n, granted n = true) ∨ rs = []) : Created granted (none, rs) rs := by
  refine ⟨List.Perm.refl _, ?_, ?_⟩
  · intro c hc
    cases hc
  · intro hgranted
    obtain hrefused | hrs := hrs
    · exact absurd hgranted hrefused
    · exact hrs

theorem new_with_buffers_accounts (tls_enabled : Bool) (c read_buffer : Nat) (tls_cipher_buf : Option Nat) :
    Accounts (new_with_buffers granted tls_enabled c read_buffer tls_cipher_buf)
      (read_buffer :: c :: tls_cipher_buf.toList) (Created granted) := by
  have hfailed (hrefused : ¬∀ n, granted n = true) : Accounts (do
      release read_buffer
      release c
      pure (none, tls_cipher_buf.toList)) (read_buffer :: c :: tls_cipher_buf.toList) (Created granted) :=
    Accounts.release_bind (List.Perm.refl _) (Accounts.release_bind (List.Perm.refl _)
      (Accounts.pure (created_none (.inl hrefused))))
  refine Accounts.acquire_or_refused (fun request _ => ?_) hfailed
  refine request_init_accounts.bind ?_
  rintro r rs ⟨hrs, hvalid, hrefused⟩
  refine Accounts.perm hrs ?_
  cases r with
  | none => exact Accounts.release_bind (List.Perm.refl _) (hfailed (hrefused rfl))
  | some r =>
  refine Accounts.acquire_or_refused (fun response _ => ?_) fun hrefused => ?_
  · have hparser : r.parser ∈ response :: (r.blocks ++ (read_buffer :: c :: tls_cipher_buf.toList)) := by
      simp [RequestMemory.blocks]
    refine Accounts.touch_bind hparser (Accounts.pure ⟨?_, ?_, fun _ => rfl⟩)
    · change (response :: (r.blocks ++ read_buffer :: c :: tls_cipher_buf.toList)).Perm
        ([c] ++ ([read_buffer] ++ (tls_cipher_buf.toList ++ (r.blocks ++ ([response] ++ [])))) ++ [])
      grind
    · intro made hmade
      obtain rfl := Option.some.inj hmade
      exact ⟨(hvalid r rfl).1, response_init_valid response⟩
  · refine request_cleanup_accounts.bind ?_
    rintro - rs rfl
    rw [(hvalid r rfl).2]
    exact Accounts.release_bind (List.Perm.refl _) (hfailed hrefused)

theorem connection_new_accounts (handles tls_enabled : Bool) :
    Accounts (uvhttp_connection_new granted handles tls_enabled) [] (Created granted) := by
  have hnone : Accounts (pure (none, [])) [] (Created granted) := Accounts.pure (created_none (.inr rfl))
  refine Accounts.acquire_bind (fun c _ => ?_) hnone
  cases handles with
  | false => exact Accounts.release_bind (List.Perm.refl _) hnone
  | true =>
  refine Accounts.acquire_bind (fun read_buffer _ => ?_) (Accounts.release_bind (List.Perm.refl _) hnone)
  cases tls_enabled with
  | false => exact new_with_buffers_accounts false c read_buffer none
  | true =>
    refine Accounts.acquire_bind (fun tls_cipher_buf _ => ?_) ?_
    · have hperm : ([tls_cipher_buf] ++ [read_buffer, c]).Perm ([read_buffer, c] ++ [tls_cipher_buf]) :=
        List.perm_append_comm
      exact Accounts.perm hperm (new_with_buffers_accounts true c read_buffer (some tls_cipher_buf))
    · exact Accounts.release_bind (List.Perm.refl _) (Accounts.release_bind (List.Perm.refl _) hnone)

end creation

/-- The last block of a compressed response is refused: its compressed body is left. -/
example : connection_life (fun n => n != 10) true false
    [.on_read, .on_body 100, .uvhttp_response_set_compress true, .uvhttp_response_set_body 2000,
      .uvhttp_response_send ⟨false, true, true, false⟩ true, .uvhttp_connection_close] ⟨[], 0⟩ =
    some ([8], ⟨[8], 11⟩) := by decide +kernel

end uvhttp.connection_memory
