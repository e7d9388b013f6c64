import Uvhttp.Http.GzipCache
import Uvhttp.Http.Response

namespace uvhttp.gzip

open http

/-- `uvhttp_response_t` of a build with the compression feature. `gzip_cache` is
the cache borrowed from the server, `none` for a NULL pointer. -/
structure FullResponse extends Response where
  compress : Bool
  compress_algorithm : Int
  compress_threshold : Int
  gzip_cache : Option GzipCache
  deriving DecidableEq, Repr

/-- What compression takes from outside: zlib's bound on the size of its output,
its deflate stream and its CRC, and the hash that keys the cache. -/
structure Codec where
  compressBound : Nat → Nat
  deflate : List UInt8 → Option (List UInt8)
  crc32 : List UInt8 → Nat
  hash : List UInt8 → UInt64

/-- A 32-bit number, its low byte first. -/
def le32 (n : Nat) : List UInt8 :=
  [UInt8.ofNat n, UInt8.ofNat (n / 2 ^ 8), UInt8.ofNat (n / 2 ^ 16), UInt8.ofNat (n / 2 ^ 24)]

section operations

variable (alloc : Nat → Bool)

/-- A response as `uvhttp_response_init` leaves it, with the server's cache. -/
def uvhttp_response_init (gzip_cache : Option GzipCache) : FullResponse :=
  { http.uvhttp_response_init with
    compress := false
    compress_algorithm := 0
    compress_threshold := 0
    gzip_cache }

def uvhttp_response_set_status (r : FullResponse) (status_code : Int) : UvhttpError × FullResponse :=
  let set := http.uvhttp_response_set_status r.toResponse status_code
  (set.1, { r with toResponse := set.2 })

def uvhttp_response_set_header (r : FullResponse) (name value : List UInt8) : UvhttpError × FullResponse :=
  let set := http.uvhttp_response_set_header alloc r.toResponse name value
  (set.1, { r with toResponse := set.2 })

def uvhttp_response_set_body (r : FullResponse) (body : List UInt8) : UvhttpError × FullResponse :=
  let set := http.uvhttp_response_set_body alloc r.toResponse body
  (set.1, { r with toResponse := set.2 })

/-- `uvhttp_response_set_compress`. -/
def uvhttp_response_set_compress (r : FullResponse) (enable : Bool) : UvhttpError × FullResponse :=
  if !enable then (.OK, { r with compress := false, compress_algorithm := 0, compress_threshold := 0 })
  else (.OK, { r with
    compress := true
    compress_threshold := if r.compress_threshold = 0 then 1024 else r.compress_threshold })

/-- `uvhttp_compress_gzip`. zlib counts its input in 32 bits. -/
def uvhttp_compress_gzip (codec : Codec) (input : List UInt8) : Except UvhttpError (List UInt8) :=
  if input.length = 0 then .error .INVALID_PARAM
  else if !alloc (10 + codec.compressBound input.length + 8) then .error .OUT_OF_MEMORY
  else
    match codec.deflate (input.take (2 ^ 32 - 1)) with
    | none => .error .IO_ERROR
    | some deflated =>
      .ok ([0x1f, 0x8b, 0x08, 0x00, 0x00, 0x00, 0x00, 0x00, 0x00, 0xff] ++ deflated ++
        le32 (codec.crc32 input) ++ le32 input.length)

/-- The first step of `uvhttp_response_build_data`: the stream that is sent in
place of the body, if there is one, with the response after the lookup in the
cache, the new header and the entry put into the cache. -/
def compress_body (codec : Codec) (now : Int) (r : FullResponse) : Option (List UInt8) × FullResponse :=
  match r.body with
  | none => (none, r)
  | some body =>
    if r.compress && body.length ≥ size_t r.compress_threshold then
      let looked_up := (r.gzip_cache.map fun cache =>
        uvhttp_gzip_cache_find cache now (codec.hash body) body.length)
      let r := { r with gzip_cache := looked_up.map Prod.snd }
      match looked_up.bind Prod.fst with
      | some cached => (some cached, (uvhttp_response_set_header alloc r (bytes "Content-Encoding") (bytes "gzip")).2)
      | none =>
        match uvhttp_compress_gzip alloc codec body with
        | .error _ => (none, r)
        | .ok compressed =>
          if compressed.length < body.length then
            let r := (uvhttp_response_set_header alloc r (bytes "Content-Encoding") (bytes "gzip")).2
            (some compressed, { r with
              gzip_cache := r.gzip_cache.map fun cache =>
                (uvhttp_gzip_cache_put alloc cache now (codec.hash body) body.length compressed).2 })
          else (none, r)
    else (none, r)

/-- `uvhttp_response_build_data`, of a response that has not been sent. While the
headers are rendered for the first time, `body_length` is the length of what is
sent; it is the body's own length again before a second rendering. -/
def uvhttp_response_build_data (codec : Codec) (now : Int) (r : FullResponse) :
    Except UvhttpError (List UInt8) × FullResponse :=
  let (compressed, r) := compress_body alloc codec now r
  let body_to_send := if compressed.isSome then compressed else r.body
  let headers_size := UVHTTP_INITIAL_BUFFER_SIZE * 2
  if !alloc headers_size then (.error .OUT_OF_MEMORY, r)
  else
    let built := build_response_headers { r.toResponse with body := body_to_send } headers_size
    let rebuilt :=
      if built.2 ≥ headers_size then
        let headers_size := built.2 + UVHTTP_RESPONSE_HEADER_SAFETY_MARGIN
        if !alloc headers_size then none else some (build_response_headers r.toResponse headers_size)
      else some built
    match rebuilt with
    | none => (.error .OUT_OF_MEMORY, r)
    | some (headers_buffer, headers_length) =>
      let body := body_to_send.getD []
      if !alloc (headers_length + body.length + 1) then (.error .OUT_OF_MEMORY, r)
      else (.ok (headers_buffer.take headers_length ++ body), r)

end operations

/-- Without compression, the response is built as in the build that leaves the
feature out. -/
theorem build_data_uncompressed (alloc : Nat → Bool) (codec : Codec) (now : Int) {r : FullResponse}
    (hoff : r.compress = false) :
    uvhttp_response_build_data alloc codec now r = (http.uvhttp_response_build_data alloc r.toResponse, r) := by
  have hnone : compress_body alloc codec now r = (none, r) := by
    unfold compress_body
    cases r.body with
    | none => rfl
    | some body => simp [hoff]
  have hbody : { r.toResponse with body := r.body } = r.toResponse := rfl
  unfold uvhttp_response_build_data http.uvhttp_response_build_data
  rw [hnone]
  simp only [Option.isSome_none, Bool.false_eq_true, if_false, hbody]
  generalize (if (build_response_headers r.toResponse (UVHTTP_INITIAL_BUFFER_SIZE * 2)).2 ≥
    UVHTTP_INITIAL_BUFFER_SIZE * 2 then _ else _ : Option (List UInt8 × Nat)) = rebuilt
  cases alloc (UVHTTP_INITIAL_BUFFER_SIZE * 2) with
  | false => rfl
  | true =>
    cases rebuilt with
    | none => rfl
    | some built =>
      simp only [Bool.not_true, Bool.false_eq_true, if_false]
      cases alloc (built.2 + (r.body.getD []).length + 1) with
      | false => rfl
      | true => rfl

end uvhttp.gzip
