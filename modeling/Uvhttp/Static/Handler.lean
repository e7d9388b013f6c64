import Uvhttp.Connection.Output
import Uvhttp.Static.Path
import Uvhttp.Static.Sendfile

namespace uvhttp.static_files

open uvhttp.http hiding uvhttp_response_send uvhttp_response_send_raw
open uvhttp.output uvhttp.sendfile
open uvhttp.lru_cache (CacheManager CacheEntry PutAnswers Exceeds UVHTTP_MAX_FILE_PATH_SIZE)

def UVHTTP_STATIC_SMALL_FILE_THRESHOLD : Nat := 4096
def UVHTTP_FILE_CHUNK_SIZE : Nat := 64 * 1024

/-- What `stat` reports. -/
structure Stat where
  regular : Bool
  directory : Bool
  size : Nat
  mtime : Int
  deriving DecidableEq, Repr

/-- A file that was opened: whether seeking in it works, the size that it finds, and
the bytes that can be read. -/
structure OpenFile where
  seekable : Bool
  size : Nat
  readable : Bool
  content : List UInt8
  deriving DecidableEq, Repr

/-- The file system at one moment. `directory_listing` is the page that
`generate_directory_listing` makes of a directory for a request path. -/
structure FileSystem where
  realpath : List UInt8 → Option (List UInt8)
  stat : List UInt8 → Option Stat
  open_file : List UInt8 → Option OpenFile
  directory_listing : List UInt8 → List UInt8 → Option (List UInt8)

/-- The calls of a request to the file system and to the allocator. Between two of
them both may change. -/
inductive Moment where
  | resolve
  | file_info
  | directory
  | listing
  | index_info
  | gz_info
  | sendfile_stat
  | sendfile_context
  | sendfile_path
  | sendfile_open
  | sendfile_headers
  | sendfile_build
  | chunked_open
  | chunked_headers
  | chunked_build
  | read
  | headers
  | body
  deriving DecidableEq, Repr

/-- The code around a request: file system, allocator, the sends in their order, the
clock, the answers of a cache insertion and of libuv, and the functions for MIME
types and HTTP dates. -/
structure System where
  fs : Moment → FileSystem
  alloc : Moment → Nat → Bool
  transport : Nat → Transport
  now : Int
  put : PutAnswers
  exceeds : Exceeds
  uv_fileno : Bool
  uv_timer_init : Bool
  uv_fs_sendfile : Bool
  mime_type : List UInt8 → List UInt8
  http_date : Int → List UInt8
  parse_http_date : List UInt8 → Option Int

/-- A system in which nothing fails, around a file system that does not change. -/
def System.willing (fs : FileSystem) : System where
  fs := fun _ => fs
  alloc := fun _ _ => true
  transport := fun _ => .willing
  now := 0
  put := ⟨0, some 1, true⟩
  exceeds := fun sum max_memory_usage => 10 * sum.toNat > 9 * max_memory_usage.toNat
  uv_fileno := true
  uv_timer_init := true
  uv_fs_sendfile := true
  mime_type := fun _ => bytes "application/octet-stream"
  http_date := fun _ => bytes "Thu, 01 Jan 1970 00:00:00 GMT"
  parse_http_date := fun _ => none

/-- `uvhttp_static_config_t`, the fields that a request reads. -/
structure StaticConfig where
  root_directory : List UInt8
  index_file : List UInt8
  max_file_size : Nat
  enable_directory_listing : Bool
  sendfile : SendfileConfig
  deriving DecidableEq, Repr

/-- What was handed over for a request: a response or its headers, bytes of a file,
and whether all of them were taken, or a file that `uv_fs_sendfile` took. -/
inductive Handed where
  | response (data : List UInt8) (whole : Bool)
  | content (data : List UInt8) (whole : Bool)
  | transfer (file_path : List UInt8)
  deriving DecidableEq, Repr

/-- A request while it is answered: the response, the cache, what was handed over, the
canonical paths of the files whose content the response is made of, as they were when
the content was read, the writes to the socket, and the number of sends. -/
structure Exchange where
  response : Response
  cache : CacheManager
  handed : List Handed
  files : List (Option (List UInt8))
  socket : List SocketWrite
  sends : Nat

section headers

/-- `uvhttp_request_get_header`, for a name without illegal characters. -/
def uvhttp_request_get_header (request : Request) (name : List UInt8) : Option (List UInt8) :=
  (request.headers.find? fun h => strcasecmp h.name name).map Header.value

/-- `uvhttp_static_generate_etag`. -/
def uvhttp_static_generate_etag (last_modified : Int) (file_size : Nat) : List UInt8 :=
  bytes ("\"" ++ toString file_size ++ "-" ++ toString last_modified ++ "\"")

/-- `uvhttp_static_check_conditional_request`. -/
def uvhttp_static_check_conditional_request (sys : System) (request : Request) (etag : List UInt8)
    (last_modified : Int) : Bool :=
  (match uvhttp_request_get_header request (bytes "If-None-Match") with
    | some value => value = etag
    | none => false) ||
  (match uvhttp_request_get_header request (bytes "If-Modified-Since") with
    | some value =>
      last_modified > 0 &&
        (match sys.parse_http_date value with
          | some if_time => if_time ≥ last_modified
          | none => false)
    | none => false)

def set_status (status_code : Int) (r : Response) : Response := (uvhttp_response_set_status r status_code).2

def set_header (alloc : Nat → Bool) (name : String) (value : List UInt8) (r : Response) : Response :=
  (uvhttp_response_set_header alloc r (bytes name) value).2

/-- `uvhttp_static_set_response_headers`. The macro in the last header is not expanded
before it becomes a string. -/
def uvhttp_static_set_response_headers (sys : System) (alloc : Nat → Bool) (file_path : List UInt8) (file_size : Nat)
    (last_modified : Int) (etag : List UInt8) (r : Response) : Response :=
  let is_precompressed := file_path.length > 3 && (bytes ".gz").isSuffixOf file_path &&
    file_path.length - 3 < UVHTTP_MAX_FILE_PATH_SIZE
  let mime_source := if is_precompressed then file_path.take (file_path.length - 3) else file_path
  let r := set_header alloc "Content-Type" (sys.mime_type mime_source) r
  let r := if is_precompressed then set_header alloc "Content-Encoding" (bytes "gzip") r else r
  let r := set_header alloc "Content-Length" (bytes (toString file_size)) r
  let r := if last_modified > 0 then set_header alloc "Last-Modified" (sys.http_date last_modified) r else r
  let r := if etag ≠ [] then set_header alloc "ETag" etag r else r
  set_header alloc "Cache-Control" (bytes "public, max-age=UVHTTP_CACHE_DEFAULT_TTL") r

end headers

section files

/-- `get_file_info`: size and modification time of a regular file. -/
def get_file_info (fs : FileSystem) (file_path : List UInt8) : Option (Nat × Int) :=
  match fs.stat file_path with
  | none => none
  | some st => if st.regular then some (st.size, st.mtime) else none

/-- `read_file_content`. -/
def read_file_content (fs : FileSystem) (alloc : Nat → Bool) (file_path : List UInt8) : Option (List UInt8) :=
  match fs.open_file file_path with
  | none => none
  | some file =>
    if !file.seekable then none
    else if !alloc file.size then none
    else if !file.readable || file.content.length < file.size then none
    else some (file.content.take file.size)

/-- What a path stands for when it is not in the cache. -/
inductive Located where
  | refused (code : UvhttpError) (status : Int)
  | listing (html : List UInt8)
  | file (file_path : List UInt8) (file_size : Nat) (last_modified : Int)
  deriving DecidableEq, Repr

/-- The search for the file: the path itself, or the index file of a directory. -/
def locate (sys : System) (config : StaticConfig) (clean safe_path : List UInt8) : Located :=
  match get_file_info (sys.fs .file_info) safe_path with
  | some (file_size, last_modified) => .file safe_path file_size last_modified
  | none =>
    if ((sys.fs .directory).stat safe_path).any Stat.directory then
      match (if config.enable_directory_listing then (sys.fs .listing).directory_listing safe_path clean else none) with
      | some html => .listing html
      | none =>
        let index_path := safe_path ++ [SLASH] ++ config.index_file
        if index_path.length ≥ UVHTTP_MAX_FILE_PATH_SIZE then .refused .HEADER_TOO_LARGE 414
        else
          match get_file_info (sys.fs .index_info) index_path with
          | some (file_size, last_modified) => .file index_path file_size last_modified
          | none => .refused .NOT_FOUND 404
    else .refused .NOT_FOUND 404

def accepts_gzip (request : Request) : Bool :=
  (uvhttp_request_get_header request (bytes "Accept-Encoding")).any fun value => strstr value (bytes "gzip")

/-- The precompressed file that takes the place of a file, if there is one. -/
def select_gz (sys : System) (request : Request) (file_path : List UInt8) (file_size : Nat) (last_modified : Int) :
    List UInt8 × Nat × Int :=
  let gz_path := file_path ++ bytes ".gz"
  if file_size ≥ 512 ∧ accepts_gzip request = true ∧ gz_path.length < UVHTTP_MAX_FILE_PATH_SIZE then
    match get_file_info (sys.fs .gz_info) gz_path with
    | some (gz_size, gz_mtime) =>
      if gz_size > 0 then (gz_path, gz_size, gz_mtime) else (file_path, file_size, last_modified)
    | none => (file_path, file_size, last_modified)
  else (file_path, file_size, last_modified)

end files

section sends

variable (sys : System) (conn : Connection)

/-- `uvhttp_response_send_raw` for a request. `kind` says what is sent. -/
def send_raw (kind : List UInt8 → Bool → Handed) (data : List UInt8) (x : Exchange) : UvhttpError × Exchange :=
  let sent := uvhttp_response_send_raw conn (sys.transport x.sends) data
  (sent.code, { x with
    handed := x.handed ++ if sent.taken = [] then [] else [kind sent.taken (sent.code = .OK)]
    socket := x.socket ++ sent.socket
    sends := x.sends + 1 })

/-- `uvhttp_response_send` for a request, whose answer the handler ignores. -/
def send_response (x : Exchange) : Exchange :=
  let sent := uvhttp_response_send conn (sys.transport x.sends) x.response
  { x with
    response := sent.2
    handed := x.handed ++ if sent.1.taken = [] then [] else [.response sent.1.taken (sent.1.code = .OK)]
    socket := x.socket ++ sent.1.socket
    sends := x.sends + 1 }

/-- `uvhttp_response_build_data`, which finds nothing to build for a response that was
sent. -/
def build_data (alloc : Nat → Bool) (r : Response) : Except UvhttpError (List UInt8) :=
  if r.sent then .ok [] else uvhttp_response_build_data alloc r

/-- How much of a file `send_file_chunked` reads next. -/
def bytes_to_read (file_size bytes_sent : Nat) : Nat := min UVHTTP_FILE_CHUNK_SIZE (file_size - bytes_sent)

/-- What `fread` finds there. -/
def read_chunk (file : OpenFile) (file_size bytes_sent : Nat) : List UInt8 :=
  if file.readable then (file.content.drop bytes_sent).take (bytes_to_read file_size bytes_sent) else []

theorem bytes_to_read_pos {file_size bytes_sent : Nat} (h : bytes_sent < file_size) :
    0 < bytes_to_read file_size bytes_sent := by
  have hchunk : 0 < UVHTTP_FILE_CHUNK_SIZE := by decide
  exact lt_min hchunk (Nat.sub_pos_of_lt h)

/-- The loop of `send_file_chunked`. -/
def send_chunks (file : OpenFile) (file_size bytes_sent : Nat) (x : Exchange) : UvhttpError × Exchange :=
  if bytes_sent < file_size then
    if (read_chunk file file_size bytes_sent).length ≠ bytes_to_read file_size bytes_sent then (.IO_ERROR, x)
    else
      let sent := send_raw sys conn .content (read_chunk file file_size bytes_sent) x
      if sent.1 ≠ .OK then sent
      else send_chunks file file_size (bytes_sent + bytes_to_read file_size bytes_sent) sent.2
  else (.OK, x)
termination_by file_size - bytes_sent
decreasing_by
  have hpos : 0 < bytes_to_read file_size bytes_sent := bytes_to_read_pos (by assumption)
  omega

/-- `send_file_chunked`. -/
def send_file_chunked (file_path : List UInt8) (file_size : Nat) (last_modified : Int) (etag : List UInt8)
    (x : Exchange) : UvhttpError × Exchange :=
  match (sys.fs .chunked_open).open_file file_path with
  | none => (.NOT_FOUND, x)
  | some file =>
    if !sys.alloc .chunked_open UVHTTP_FILE_CHUNK_SIZE then (.OUT_OF_MEMORY, x)
    else
      let response := set_status 200 (uvhttp_static_set_response_headers sys (sys.alloc .chunked_headers) file_path
        file_size last_modified etag x.response)
      let x := { x with response, files := x.files ++ [(sys.fs .chunked_open).realpath file_path] }
      match build_data (sys.alloc .chunked_build) response with
      | .error err => (err, x)
      | .ok response_data =>
        let sent := send_raw sys conn .response response_data x
        if sent.1 ≠ .OK then sent else send_chunks sys conn file file_size 0 sent.2

/-- The branch of `uvhttp_static_sendfile_with_config` for a small file, which sets a
body and leaves sending it to its caller. -/
def sendfile_small (file_path : List UInt8) (file_size : Nat) (x : Exchange) : UvhttpError × Exchange :=
  match (sys.fs .sendfile_open).open_file file_path with
  | none => (.NOT_FOUND, x)
  | some file =>
    if !sys.alloc .sendfile_context (file_size + 1) then (.OUT_OF_MEMORY, x)
    else if !file.readable then (.RESPONSE_SEND, x)
    else
      let r := set_status 200 x.response
      let r := set_header (sys.alloc .sendfile_headers) "Content-Type" (sys.mime_type file_path) r
      let r := set_header (sys.alloc .sendfile_headers) "Content-Length" [] r
      let r := (uvhttp_response_set_body (sys.alloc .body) r (file.content.take file_size)).2
      (.OK, { x with response := r, files := x.files ++ [(sys.fs .sendfile_open).realpath file_path] })

/-- The response whose headers announce a file that goes out by sendfile. -/
def sendfile_response (file_path : List UInt8) (file_size : Nat) (r : Response) : Response :=
  let r := set_status 200 r
  let r := set_header (sys.alloc .sendfile_headers) "Content-Type" (sys.mime_type file_path) r
  set_header (sys.alloc .sendfile_headers) "Content-Length" (bytes (toString file_size)) r

/-- The headers go out, and libuv is given the file behind them. The context that this
leaves to libuv is modelled by itself. -/
def sendfile_transfer (config : StaticConfig) (file_path : List UInt8) (file_size : Nat) (header_data : List UInt8)
    (x : Exchange) : UvhttpError × Exchange :=
  let sent := send_raw sys conn .response header_data x
  if sent.1 ≠ .OK then sent
  else if !sys.uv_timer_init then (.SERVER_INIT, sent.2)
  else if !sys.uv_fs_sendfile then (.RESPONSE_SEND, sent.2)
  else
    let context := init_sendfile_config file_size (some config.sendfile)
    (.OK, { sent.2 with
      handed := sent.2.handed ++ [.transfer file_path]
      socket := sent.2.socket ++ [.uv_fs_sendfile file_path 0 context.chunk_size] })

/-- The two branches of `uvhttp_static_sendfile_with_config` for larger files, which
do the same. -/
def sendfile_async (config : StaticConfig) (file_path : List UInt8) (file_size : Nat) (x : Exchange) :
    UvhttpError × Exchange :=
  if !sys.alloc .sendfile_context 0 then (.OUT_OF_MEMORY, x)
  else if !sys.alloc .sendfile_path (file_path.length + 1) then (.OUT_OF_MEMORY, x)
  else if !sys.uv_fileno then (.SERVER_INIT, x)
  else if ((sys.fs .sendfile_open).open_file file_path).isNone then (.NOT_FOUND, x)
  else
    let response := sendfile_response sys file_path file_size x.response
    let x := { x with response, files := x.files ++ [(sys.fs .sendfile_open).realpath file_path] }
    match build_data (sys.alloc .sendfile_build) response with
    | .error err => (err, x)
    | .ok header_data => sendfile_transfer sys conn config file_path file_size header_data x

/-- `uvhttp_static_sendfile_with_config`. -/
def uvhttp_static_sendfile_with_config (config : StaticConfig) (file_path : List UInt8) (x : Exchange) :
    UvhttpError × Exchange :=
  match (sys.fs .sendfile_stat).stat file_path with
  | none => (.NOT_FOUND, x)
  | some st =>
    if st.size < UVHTTP_STATIC_SMALL_FILE_THRESHOLD then sendfile_small sys file_path st.size x
    else sendfile_async sys conn config file_path st.size x

end sends

section requests

/-- How a request will be answered: the decision before anything is sent. -/
inductive Plan where
  | refused (code : UvhttpError) (status : Int)
  | cached (entry : CacheEntry)
  | listing (html : List UInt8)
  | large (file_path : List UInt8) (file_size : Nat) (last_modified : Int)
  | small (file_path : List UInt8) (last_modified : Int)
  deriving DecidableEq, Repr

variable (sys : System) (conn : Connection) (config : StaticConfig) (request : Request)

/-- The way of a file by its size, once its precompressed form is looked for. -/
def plan_file (file_path : List UInt8) (file_size : Nat) (last_modified : Int) : Plan :=
  if file_size > config.max_file_size then .refused .FILE_TOO_LARGE 413
  else
    let (file_path, file_size, last_modified) := select_gz sys request file_path file_size last_modified
    if file_size > UVHTTP_SENDFILE_MIN_FILE_SIZE then .large file_path file_size last_modified
    else .small file_path last_modified

def plan_located : Located → Plan
  | .refused code status => .refused code status
  | .listing html => .listing html
  | .file file_path file_size last_modified => plan_file sys config request file_path file_size last_modified

/-- The plan for a request, with the cache after the lookup. `none` is a broken cache. -/
def plan (cache : CacheManager) : Option (Plan × CacheManager) :=
  match clean_path request.url config.index_file with
  | none => some (.refused .HEADER_TOO_LARGE 414, cache)
  | some clean =>
    match uvhttp_static_resolve_safe_path (sys.fs .resolve).realpath config.root_directory clean
        UVHTTP_MAX_FILE_PATH_SIZE with
    | none => some (.refused .NOT_FOUND 403, cache)
    | some safe_path =>
      match lru_cache.uvhttp_lru_cache_find sys.now cache safe_path with
      | none => none
      | some (none, cache) => some (plan_located sys config request (locate sys config clean safe_path), cache)
      | some (some p, cache) => (cache.entries p).map fun entry => (.cached entry, cache)

/-- The response for an entry of the cache. -/
def cached_response (entry : CacheEntry) (r : Response) : Response :=
  if uvhttp_static_check_conditional_request sys request entry.etag entry.last_modified then set_status 304 r
  else
    let r := uvhttp_static_set_response_headers sys (sys.alloc .headers) entry.file_path entry.content_length
      entry.last_modified entry.etag r
    let r :=
      match entry.content with
      | none => r
      | some content => (uvhttp_response_set_body (sys.alloc .body) r content).2
    set_status 200 r

/-- The answer from the cache. -/
def serve_cached (entry : CacheEntry) (x : Exchange) : UvhttpError × Exchange :=
  let files :=
    if uvhttp_static_check_conditional_request sys request entry.etag entry.last_modified || entry.content.isNone
    then x.files else x.files ++ [entry.origin]
  (.OK, send_response sys conn { x with response := cached_response sys request entry x.response, files })

/-- The answer to a request for a directory, which is not sent. -/
def serve_listing (html : List UInt8) (x : Exchange) : UvhttpError × Exchange :=
  let r := set_status 200 x.response
  let r := set_header (sys.alloc .headers) "Content-Type" (bytes "text/html") r
  (.OK, { x with response := (uvhttp_response_set_body (sys.alloc .body) r html).2 })

/-- The answer with a file above the sendfile threshold. -/
def serve_large (file_path : List UInt8) (file_size : Nat) (last_modified : Int) (x : Exchange) :
    UvhttpError × Exchange :=
  let etag := uvhttp_static_generate_etag last_modified file_size
  if uvhttp_static_check_conditional_request sys request etag last_modified then
    (.OK, { x with response := set_status 304 x.response })
  else
    let sendfile_result := uvhttp_static_sendfile_with_config sys conn config file_path x
    if sendfile_result.1 ≠ .OK then send_file_chunked sys conn file_path file_size last_modified etag sendfile_result.2
    else (.OK, sendfile_result.2)

/-- The response with the content of a file. -/
def small_response (file_path content : List UInt8) (last_modified : Int) (r : Response) : Response :=
  let etag := uvhttp_static_generate_etag last_modified content.length
  let r := uvhttp_static_set_response_headers sys (sys.alloc .headers) file_path content.length last_modified etag r
  set_status 200 (uvhttp_response_set_body (sys.alloc .body) r content).2

/-- The answer with a file that is read whole. Whether it could be cached makes no
difference. -/
def serve_small (file_path : List UInt8) (last_modified : Int) (x : Exchange) : Option (UvhttpError × Exchange) :=
  match read_file_content (sys.fs .read) (sys.alloc .read) file_path with
  | none => some (.IO_ERROR, { x with response := set_status 500 x.response })
  | some content =>
    let etag := uvhttp_static_generate_etag last_modified content.length
    if uvhttp_static_check_conditional_request sys request etag last_modified then
      some (.OK, { x with response := set_status 304 x.response })
    else
      let origin := (sys.fs .read).realpath file_path
      match lru_cache.uvhttp_lru_cache_put sys.exceeds sys.put x.cache
          ⟨file_path, content, some (sys.mime_type file_path), last_modified, some etag, origin⟩ with
      | none => none
      | some (_, cache) =>
        some (.OK, send_response sys conn { x with
          cache
          response := small_response sys file_path content last_modified x.response
          files := x.files ++ [origin] })

def execute (x : Exchange) : Plan → Option (UvhttpError × Exchange)
  | .refused code status => some (code, { x with response := set_status status x.response })
  | .cached entry => some (serve_cached sys conn request entry x)
  | .listing html => some (serve_listing sys html x)
  | .large file_path file_size last_modified =>
    some (serve_large sys conn config request file_path file_size last_modified x)
  | .small file_path last_modified => serve_small sys conn request file_path last_modified x

/-- `uvhttp_static_handle_request`: its return code and what it leaves. -/
def uvhttp_static_handle_request (cache : CacheManager) (response : Response) : Option (UvhttpError × Exchange) :=
  match plan sys config request cache with
  | none => none
  | some (plan, cache) => execute sys conn config request ⟨response, cache, [], [], [], 0⟩ plan

end requests

end uvhttp.static_files
