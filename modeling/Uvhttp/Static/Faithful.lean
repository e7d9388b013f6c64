import Uvhttp.Static.Prewarm
import Uvhttp.Static.ResponseHeaders

namespace uvhttp.static_files

open uvhttp.http hiding uvhttp_response_send uvhttp_response_send_raw
open uvhttp.output
open uvhttp.lru_cache (CacheManager CacheEntry UVHTTP_MAX_FILE_PATH_SIZE)
open uvhttp.sendfile (UVHTTP_SENDFILE_MIN_FILE_SIZE)

section responses

/-- What reading a file gives. -/
def file_content (fs : FileSystem) (file_path : List UInt8) : Option (List UInt8) :=
  read_file_content fs (fun _ => true) file_path

/-- A regular file that can be read, and its content. -/
structure Backed (fs : FileSystem) (file_path content : List UInt8) : Prop where
  regular : ∃ st, fs.stat file_path = some st ∧ st.regular = true
  content : file_content fs file_path = some content

/-- A response before anything is set. -/
structure Blank (r : Response) : Prop where
  table : ResponseTable r
  headers : r.headers = []
  body : r.body = none

/-- The response carries a content with its length, and announces it as compressed or
not. -/
structure Carries (content : List UInt8) (compressed : Bool) (r : Response) : Prop where
  body : r.body.getD [] = content
  length : header_values r.headers "Content-Length" = [bytes (toString content.length)]
  encoding : header_values r.headers "Content-Encoding" = if compressed then [bytes "gzip"] else []

/-- The response carries the file, or its precompressed form to a client that accepts
it. -/
def Faithful (fs : FileSystem) (request : Request) (file_path : List UInt8) (r : Response) : Prop :=
  (∃ content, file_content fs file_path = some content ∧ Carries content false r) ∨
    (accepts_gzip request = true ∧
      ∃ content, file_content fs (file_path ++ bytes ".gz") = some content ∧ Carries content true r)

/-- There is room for a body: it is within the limit of `uvhttp_response_set_body`, and
there is memory for it. -/
def BodyRoom (sys : System) (content : List UInt8) : Prop :=
  content.length ≤ UVHTTP_MAX_BODY_SIZE ∧ sys.alloc .body content.length = true

variable {sys : System} {fs : FileSystem} {request : Request} {r : Response} {file_path content : List UInt8}

theorem file_content_of_read {alloc : Nat → Bool} (h : read_file_content fs alloc file_path = some content) :
    file_content fs file_path = some content := by
  rw [file_content, read_file_content]
  rw [read_file_content] at h
  split at h
  · cases h
  rename_i file hopen
  split at h
  · cases h
  rename_i hseek
  split at h
  · cases h
  split at h
  · cases h
  rename_i hread
  simp only [if_neg hseek, if_neg hread]
  exact h

theorem set_body_getD (sys : System) (r : Response) (content : List UInt8) (hbody : r.body = none) :
    ((uvhttp_response_set_body (sys.alloc .body) r content).2.body.getD [] = content ↔
      content = [] ∨ BodyRoom sys content) := by
  rw [uvhttp_response_set_body, BodyRoom]
  by_cases hempty : content.length = 0
  · rw [if_pos hempty, hbody]
    have hnil := List.length_eq_zero_iff.mp hempty
    exact iff_of_true hnil.symm (.inl hnil)
  · have hnil : content ≠ [] := fun h => hempty (List.length_eq_zero_iff.mpr h)
    rw [if_neg hempty]
    by_cases hlarge : content.length > UVHTTP_MAX_BODY_SIZE
    · rw [if_pos hlarge, hbody]
      refine iff_of_false (fun h => hnil h.symm) ?_
      rintro (h | ⟨hle, -⟩)
      · exact hnil h
      · exact Nat.not_lt.mpr hle hlarge
    · rw [if_neg hlarge]
      cases halloc : sys.alloc .body content.length with
      | true => exact iff_of_true rfl (.inr ⟨Nat.not_lt.mp hlarge, rfl⟩)
      | false =>
        refine iff_of_false (fun h => hnil h.symm) ?_
        rintro (h | ⟨-, h⟩)
        · exact hnil h
        · cases h

/-- A response with headers for a file and, if there is one, a body. -/
def file_response (sys : System) (file_path : List UInt8) (file_size : Nat) (last_modified : Int) (etag : List UInt8)
    (stored : Option (List UInt8)) (r : Response) : Response :=
  let r := uvhttp_static_set_response_headers sys (sys.alloc .headers) file_path file_size last_modified etag r
  set_status 200 (stored.elim r fun content => (uvhttp_response_set_body (sys.alloc .body) r content).2)

theorem headers_set_status (status_code : Int) (r : Response) : (set_status status_code r).headers = r.headers := by
  rw [set_status, uvhttp_response_set_status]
  split <;> rfl

theorem body_set_status (status_code : Int) (r : Response) : (set_status status_code r).body = r.body := by
  rw [set_status, uvhttp_response_set_status]
  split <;> rfl

theorem headers_set_body (alloc : Nat → Bool) (r : Response) (content : List UInt8) :
    (uvhttp_response_set_body alloc r content).2.headers = r.headers := by
  rw [uvhttp_response_set_body]
  split_ifs <;> rfl

theorem body_set_headers {alloc : Nat → Bool} (calls : List (String × List UInt8)) (r : Response) :
    (set_headers alloc calls r).body = r.body := by
  induction calls generalizing r with
  | nil => rfl
  | cons call calls ih =>
    rw [set_headers, List.foldl_cons, ← set_headers, ih, set_header, uvhttp_response_set_header]
    have hwrite : ∀ r : Response, (write_header r (bytes call.1) call.2).2.body = r.body := by
      intro r
      rw [write_header]
      split <;> rfl
    split
    · rfl
    split
    · rfl
    split
    · split
      · rfl
      · split
        · rfl
        · exact hwrite _
    · exact hwrite _

theorem headers_file_response (sys : System) (file_path : List UInt8) (file_size : Nat) (last_modified : Int)
    (etag : List UInt8) (stored : Option (List UInt8)) (r : Response) :
    (file_response sys file_path file_size last_modified etag stored r).headers =
      (uvhttp_static_set_response_headers sys (sys.alloc .headers) file_path file_size last_modified etag r).headers := by
  rw [file_response, headers_set_status]
  cases stored with
  | none => rfl
  | some content => exact headers_set_body _ _ _

/-- The body is the content exactly when it is empty or was stored and finds room. -/
theorem body_file_response_iff (sys : System) (file_path : List UInt8) (file_size : Nat) (last_modified : Int)
    (etag : List UInt8) {stored : Option (List UInt8)} (hstored : stored = some content ∨ stored = none)
    (hbody : r.body = none) :
    (file_response sys file_path file_size last_modified etag stored r).body.getD [] = content ↔
      content = [] ∨ stored = some content ∧ BodyRoom sys content := by
  have hset : (uvhttp_static_set_response_headers sys (sys.alloc .headers) file_path file_size last_modified etag
      r).body = none := by
    rw [set_response_headers_eq, body_set_headers, hbody]
  rw [file_response, body_set_status]
  obtain rfl | rfl := hstored
  · rw [Option.elim_some, set_body_getD sys _ content hset]
    simp only [true_and]
  · rw [Option.elim_none, hset]
    refine ⟨fun h => .inl h.symm, ?_⟩
    rintro (h | ⟨h, -⟩)
    · exact h.symm
    · cases h

/-- What was stored of a content: all of it with its length, or nothing with the length of
the content or none. -/
inductive StoredOf (content : List UInt8) : Option (List UInt8) → Nat → Prop where
  | whole : StoredOf content (some content) content.length
  | lost {file_size : Nat} (h : file_size = 0 ∨ file_size = content.length) : StoredOf content none file_size

theorem StoredOf.cases {stored : Option (List UInt8)} {file_size : Nat} (h : StoredOf content stored file_size) :
    stored = some content ∨ stored = none := by
  cases h with
  | whole => exact .inl rfl
  | lost _ => exact .inr rfl

theorem StoredOf.forget {stored : Option (List UInt8)} {file_size : Nat} (h : StoredOf content stored file_size) :
    StoredOf content none file_size := by
  cases h with
  | whole => exact .lost (.inr rfl)
  | lost hsize => exact .lost hsize

/-- The announced length is that of a content that finds room or is empty. -/
theorem StoredOf.file_size_eq {stored : Option (List UInt8)} {file_size : Nat} (h : StoredOf content stored file_size)
    (hroom : content = [] ∨ stored = some content ∧ BodyRoom sys content) :
    file_size = content.length ∧ content.length ≤ UVHTTP_MAX_BODY_SIZE := by
  have hshort : content.length ≤ UVHTTP_MAX_BODY_SIZE := by
    rcases hroom with rfl | ⟨-, hroom⟩
    · exact Nat.zero_le _
    · exact hroom.1
  refine ⟨?_, hshort⟩
  cases h with
  | whole => rfl
  | lost hsize =>
    rcases hroom with rfl | ⟨h, -⟩
    · rcases hsize with hzero | hlength
      · exact hzero
      · exact hlength
    · cases h

/-- A response announces compression for a path that ends in `.gz`. -/
theorem encoding_file_response_iff (hblank : Blank r) (file_path : List UInt8) (file_size : Nat) (last_modified : Int)
    (etag : List UInt8) (stored : Option (List UInt8)) (compressed : Bool) :
    header_values (file_response sys file_path file_size last_modified etag stored r).headers "Content-Encoding" =
        (if compressed then [bytes "gzip"] else []) ↔ compressed = is_precompressed file_path := by
  rw [headers_file_response, content_encoding_values hblank.table hblank.headers]
  cases compressed <;> cases is_precompressed file_path <;> decide

/-- A response carries the content that was stored for it exactly when it is empty, or is
still there and finds room in the body. -/
theorem carries_file_response_iff (sys : System) (hblank : Blank r) (file_path : List UInt8)
    {stored : Option (List UInt8)} {file_size : Nat} (hstored : StoredOf content stored file_size)
    (last_modified : Int) (etag : List UInt8) :
    Carries content (is_precompressed file_path)
        (file_response sys file_path file_size last_modified etag stored r) ↔
      content = [] ∨ stored = some content ∧ BodyRoom sys content := by
  have hbody := body_file_response_iff sys file_path file_size last_modified etag hstored.cases hblank.body
  constructor
  · exact fun hcarries => hbody.mp hcarries.body
  · intro hroom
    obtain ⟨hsize, hshort⟩ := hstored.file_size_eq hroom
    refine ⟨hbody.mpr hroom, ?_, (encoding_file_response_iff hblank _ _ _ _ _ _).mpr rfl⟩
    rw [headers_file_response, hsize, content_length_values hblank.table hblank.headers hshort]

end responses

section caches

variable {sys : System} {conn : Connection} {config : StaticConfig} {request : Request}

theorem cache_send_chunks (file : OpenFile) (file_size bytes_sent : Nat) (x : Exchange) :
    (send_chunks sys conn file file_size bytes_sent x).2.cache = x.cache := by
  fun_induction send_chunks sys conn file file_size bytes_sent x with
  | case1 | case2 | case4 => rfl
  | case3 bytes_sent x hmore hread sent hsent ih => exact ih

theorem cache_send_file_chunked (file_path : List UInt8) (file_size : Nat) (last_modified : Int) (etag : List UInt8)
    (x : Exchange) :
    (send_file_chunked sys conn file_path file_size last_modified etag x).2.cache = x.cache := by
  rw [send_file_chunked]
  split
  · rfl
  split
  · rfl
  dsimp only
  split
  · rfl
  split
  · rfl
  · exact cache_send_chunks _ _ _ _

theorem cache_sendfile (config : StaticConfig) (file_path : List UInt8) (x : Exchange) :
    (uvhttp_static_sendfile_with_config sys conn config file_path x).2.cache = x.cache := by
  have htransfer : ∀ (file_size : Nat) (header_data : List UInt8) (x : Exchange),
      (sendfile_transfer sys conn config file_path file_size header_data x).2.cache = x.cache := by
    intro file_size header_data x
    rw [sendfile_transfer]
    dsimp only
    split_ifs <;> rfl
  rw [uvhttp_static_sendfile_with_config]
  split
  · rfl
  split
  · rw [sendfile_small]
    split
    · rfl
    · split_ifs <;> rfl
  · rw [sendfile_async]
    split
    · rfl
    split
    · rfl
    split
    · rfl
    split
    · rfl
    dsimp only
    split
    · rfl
    · exact htransfer _ _ _

/-- A request leaves the cache as the lookup left it, unless it stores a file that it
read. -/
theorem cache_execute {p : Plan} {x x' : Exchange} {code : UvhttpError}
    (h : execute sys conn config request x p = some (code, x')) :
    x'.cache = x.cache ∨ ∃ file_path last_modified content code, p = .small file_path last_modified ∧
      read_file_content (sys.fs .read) (sys.alloc .read) file_path = some content ∧
      lru_cache.uvhttp_lru_cache_put sys.exceeds sys.put x.cache
        ⟨file_path, content, some (sys.mime_type file_path), last_modified,
          some (uvhttp_static_generate_etag last_modified content.length),
          (sys.fs .read).realpath file_path⟩ = some (code, x'.cache) ∧
      (sys.fs .read).realpath file_path ∈ x'.files := by
  cases p with
  | refused code' status =>
    obtain ⟨-, rfl⟩ := Prod.mk.inj (Option.some.inj h)
    exact .inl rfl
  | cached entry =>
    obtain ⟨-, rfl⟩ := Prod.mk.inj (Option.some.inj h)
    exact .inl rfl
  | listing html =>
    obtain ⟨-, rfl⟩ := Prod.mk.inj (Option.some.inj h)
    exact .inl rfl
  | large file_path file_size last_modified =>
    left
    have hlarge : (serve_large sys conn config request file_path file_size last_modified x).2.cache = x.cache := by
      simp only [serve_large]
      split
      · rfl
      split
      · rw [cache_send_file_chunked, cache_sendfile]
      · exact cache_sendfile config file_path x
    rw [Option.some.inj h] at hlarge
    exact hlarge
  | small file_path last_modified =>
    rw [execute, serve_small] at h
    split at h
    · obtain ⟨-, rfl⟩ := Prod.mk.inj (Option.some.inj h)
      exact .inl rfl
    · rename_i content hread
      dsimp only at h
      split at h
      · obtain ⟨-, rfl⟩ := Prod.mk.inj (Option.some.inj h)
        exact .inl rfl
      · split at h
        · cases h
        · rename_i stored cache hput
          obtain ⟨-, rfl⟩ := Prod.mk.inj (Option.some.inj h)
          refine .inr ⟨file_path, last_modified, content, stored, rfl, hread, hput, ?_⟩
          exact List.mem_append_right _ (List.mem_singleton.mpr rfl)

end caches

section entries

variable {sys : System} {fs : FileSystem} {config : StaticConfig} {request : Request} {cache cache' : CacheManager}

/-- An entry has what its file has, unless it has lost it. -/
def Mirrors (fs : FileSystem) (e : CacheEntry) : Prop :=
  ∃ content, Backed fs e.file_path content ∧ StoredOf content e.content e.content_length

/-- An entry has a content that finds room in a body. -/
def HasBody (e : CacheEntry) : Prop := ∃ content, e.content = some content ∧ content.length ≤ UVHTTP_MAX_BODY_SIZE

theorem mirrors_lasting (fs : FileSystem) : lru_cache.Lasting (Mirrors fs) := ⟨fun _ _ h => h, fun _ _ h => h⟩

theorem hasBody_lasting : lru_cache.Lasting HasBody := ⟨fun _ _ h => h, fun _ _ h => h⟩

theorem mirrors_keeps {answers : lru_cache.PutAnswers} {put : lru_cache.PutRequest}
    (hbacked : Backed fs put.file_path put.content) : lru_cache.PutKeeps (Mirrors fs) answers put := by
  refine ⟨fun _ memory_usage e hpath => ?_, fun _ e h _ => ?_, fun _ => ?_⟩
  · refine ⟨put.content, ?_, .whole⟩
    rw [← hpath] at hbacked
    exact hbacked
  · obtain ⟨content, hcontent, hstored⟩ := h
    exact ⟨content, hcontent, hstored.forget⟩
  · exact ⟨put.content, hbacked, .lost (.inl rfl)⟩

theorem hasBody_keeps {answers : lru_cache.PutAnswers} {put : lru_cache.PutRequest} (hcontent : answers.content = true)
    (hlength : put.content.length ≤ UVHTTP_MAX_BODY_SIZE) : lru_cache.PutKeeps HasBody answers put := by
  refine ⟨fun _ memory_usage e _ => ⟨put.content, rfl, hlength⟩, fun hlost => ?_, fun hlost => ?_⟩
  all_goals
    rw [hcontent] at hlost
    cases hlost

/-- What prewarming stores is the content of its file. -/
theorem prewarm_stores (hfs : ∀ moment, sys.fs moment = fs) {file_path : List UInt8} {code : UvhttpError}
    (hprewarm : uvhttp_static_prewarm_cache sys config cache file_path = some (code, cache')) :
    cache' = cache ∨ ∃ st content, Backed fs (prewarm_key config file_path) content ∧
      lru_cache.uvhttp_lru_cache_put sys.exceeds sys.put cache (prewarm_request sys config file_path st content) =
        some (code, cache') := by
  obtain ⟨-, rfl⟩ | ⟨st, content, hstat, hregular, hread, hput⟩ := prewarm_puts hprewarm
  · exact .inl rfl
  · rw [hfs] at hstat hread
    exact .inr ⟨st, content, ⟨⟨st, hstat, hregular⟩, file_content_of_read hread⟩, hput⟩

end entries

section plans

variable {sys : System} {fs : FileSystem} {config : StaticConfig} {request : Request} {cache cache' : CacheManager}

def Located.file_path? : Located → Option (List UInt8)
  | .refused _ _ | .listing _ => none
  | .file file_path _ _ => some file_path

/-- The file that a request selects, before a precompressed form is looked for. -/
def selected_file (sys : System) (config : StaticConfig) (request : Request) : Option (List UInt8) :=
  (clean_path request.url config.index_file).bind fun clean =>
    (uvhttp_static_resolve_safe_path (sys.fs .resolve).realpath config.root_directory clean
      UVHTTP_MAX_FILE_PATH_SIZE).bind fun safe_path => (locate sys config clean safe_path).file_path?

theorem get_file_info_regular {file_path : List UInt8} {file_size : Nat} {last_modified : Int}
    (h : get_file_info fs file_path = some (file_size, last_modified)) :
    ∃ st, fs.stat file_path = some st ∧ st.regular = true := by
  rw [get_file_info] at h
  split at h
  · cases h
  · rename_i st hstat
    split at h
    · rename_i hregular
      exact ⟨st, hstat, hregular⟩
    · cases h

/-- A content is as long as the open file says, at most. -/
theorem file_content_size {file_path content : List UInt8} {file_size : Nat} {last_modified : Int}
    (hcontent : file_content fs file_path = some content)
    (hinfo : get_file_info fs file_path = some (file_size, last_modified)) :
    ∃ st file, fs.stat file_path = some st ∧ fs.open_file file_path = some file ∧ st.size = file_size ∧
      content.length ≤ file.size := by
  rw [get_file_info] at hinfo
  split at hinfo
  · cases hinfo
  rename_i st hstat
  split at hinfo
  · obtain ⟨hsize, -⟩ := Prod.mk.inj (Option.some.inj hinfo)
    rw [file_content, read_file_content] at hcontent
    split at hcontent
    · cases hcontent
    rename_i file hopen
    refine ⟨st, file, hstat, hopen, hsize, ?_⟩
    split at hcontent
    · cases hcontent
    split at hcontent
    · cases hcontent
    split at hcontent
    · cases hcontent
    obtain rfl := Option.some.inj hcontent
    exact List.length_take_le _ _
  · cases hinfo

theorem locate_info (hfs : ∀ moment, sys.fs moment = fs) {clean safe_path file_path : List UInt8} {file_size : Nat}
    {last_modified : Int} (h : locate sys config clean safe_path = .file file_path file_size last_modified) :
    get_file_info fs file_path = some (file_size, last_modified) := by
  obtain ⟨st, hfound, rfl, rfl⟩ := found_of_locate hfs h
  cases hfound with
  | itself hstat hregular => exact get_file_info_of_stat hstat hregular
  | index hdir hdirectory hunlisted hshort hstat hregular => exact get_file_info_of_stat hstat hregular

/-- A regular file is found under its own path. -/
theorem locate_of_regular (hfs : ∀ moment, sys.fs moment = fs) (clean : List UInt8) {safe_path : List UInt8}
    (hregular : ∃ st, fs.stat safe_path = some st ∧ st.regular = true) :
    (locate sys config clean safe_path).file_path? = some safe_path := by
  obtain ⟨st, hstat, hst⟩ := hregular
  rw [locate_of_found hfs (.itself hstat hst)]
  rfl

/-- The precompressed file takes the place of another for a client that accepts it. -/
theorem select_gz_cases (hfs : ∀ moment, sys.fs moment = fs) (request : Request) {file_path : List UInt8}
    {file_size : Nat} {last_modified : Int} (hinfo : get_file_info fs file_path = some (file_size, last_modified)) :
    ∃ path size modified, select_gz sys request file_path file_size last_modified = (path, size, modified) ∧
      get_file_info fs path = some (size, modified) ∧
        (path = file_path ∨ path = file_path ++ bytes ".gz" ∧ accepts_gzip request = true ∧
          (file_path ++ bytes ".gz").length < UVHTTP_MAX_FILE_PATH_SIZE) := by
  simp only [select_gz, hfs]
  split
  · rename_i hwanted
    split
    · rename_i hgz
      split
      · exact ⟨_, _, _, rfl, hgz, .inr ⟨rfl, hwanted.2.1, hwanted.2.2⟩⟩
      · exact ⟨_, _, _, rfl, hinfo, .inl rfl⟩
    · exact ⟨_, _, _, rfl, hinfo, .inl rfl⟩
  · exact ⟨_, _, _, rfl, hinfo, .inl rfl⟩

theorem plan_cached_entry {entry : CacheEntry} (hplan : plan sys config request cache = some (.cached entry, cache')) :
    ∃ q, cache'.entries q = some entry := by
  obtain ⟨-, code, status, hp⟩ | ⟨clean, safe_path, found, -, -, -, hp⟩ := plan_cases hplan
  · cases hp
  obtain ⟨-, hlocated⟩ | ⟨q, entry', -, hentry, hp⟩ := hp
  · exact absurd hlocated.symm (plan_located_ne_cached _ _)
  · obtain rfl := Plan.cached.inj hp
    exact ⟨q, hentry⟩

theorem every_plan {P : CacheEntry → Prop} (h : lru_cache.Every P cache) (hlasting : lru_cache.Lasting P) {p : Plan}
    (hplan : plan sys config request cache = some (p, cache')) : lru_cache.Every P cache' := by
  obtain ⟨rfl, -⟩ | ⟨clean, safe_path, found, -, -, hfind, -⟩ := plan_cases hplan
  · exact h
  · exact h.find hlasting hfind

/-- An entry that answers a request is that of the file that the request selects. -/
theorem selected_cached (hfs : ∀ moment, sys.fs moment = fs) (h : lru_cache.Every (Mirrors fs) cache)
    {entry : CacheEntry} (hplan : plan sys config request cache = some (.cached entry, cache')) :
    selected_file sys config request = some entry.file_path ∧ Mirrors fs entry := by
  obtain ⟨-, code, status, hp⟩ | ⟨clean, safe_path, found, hclean, hresolved, hfind, hp⟩ := plan_cases hplan
  · cases hp
  obtain ⟨-, hlocated⟩ | ⟨q, entry', rfl, hentry, hp⟩ := hp
  · exact absurd hlocated.symm (plan_located_ne_cached _ _)
  obtain rfl := Plan.cached.inj hp
  have hmirrors : Mirrors fs entry := h.find (mirrors_lasting fs) hfind q entry hentry
  have hpath : entry.file_path = safe_path := find_file_path hfind hentry
  obtain ⟨content, hbacked, -⟩ := id hmirrors
  refine ⟨?_, hmirrors⟩
  rw [selected_file, hclean, Option.bind_some, hresolved, Option.bind_some, hpath]
  exact locate_of_regular hfs clean (hpath ▸ hbacked.regular)

/-- A small file that answers a request is the one that it selects, or its precompressed
form. -/
theorem selected_small (hfs : ∀ moment, sys.fs moment = fs) {path : List UInt8} {last_modified : Int}
    (hplan : plan sys config request cache = some (.small path last_modified, cache')) :
    ∃ file_path file_size, selected_file sys config request = some file_path ∧
      get_file_info fs path = some (file_size, last_modified) ∧ file_size ≤ UVHTTP_SENDFILE_MIN_FILE_SIZE ∧
        (path = file_path ∨ path = file_path ++ bytes ".gz" ∧ accepts_gzip request = true ∧
          (file_path ++ bytes ".gz").length < UVHTTP_MAX_FILE_PATH_SIZE) := by
  obtain ⟨-, code, status, hp⟩ | ⟨clean, safe_path, found, hclean, hresolved, hfind, hp⟩ := plan_cases hplan
  · cases hp
  obtain ⟨-, hp⟩ | ⟨q, entry, -, -, hp⟩ := hp
  · cases hlocated : locate sys config clean safe_path with
    | refused code status =>
      rw [hlocated] at hp
      cases hp
    | listing html =>
      rw [hlocated] at hp
      cases hp
    | file file_path file_size modified =>
      have hselected : selected_file sys config request = some file_path := by
        rw [selected_file, hclean, Option.bind_some, hresolved, Option.bind_some, hlocated]
        rfl
      obtain ⟨path', size, modified', hgz, hinfo, hpath⟩ := select_gz_cases hfs request (locate_info hfs hlocated)
      rw [hlocated, plan_located, plan_file, hgz] at hp
      split at hp
      · cases hp
      dsimp only at hp
      split at hp
      · cases hp
      · rename_i hsize
        obtain ⟨rfl, rfl⟩ := Plan.small.inj hp
        exact ⟨file_path, size, hselected, hinfo, Nat.not_lt.mp hsize, hpath⟩
  · cases hp

theorem selected_file_ne_nil (hspec : RealpathSpec (sys.fs .resolve).realpath) {file_path : List UInt8}
    (hselected : selected_file sys config request = some file_path) : file_path ≠ [] := by
  obtain ⟨clean, -, hselected⟩ := Option.bind_eq_some_iff.mp hselected
  obtain ⟨safe_path, hresolved, hselected⟩ := Option.bind_eq_some_iff.mp hselected
  have hsafe : safe_path ≠ [] := by
    rintro rfl
    obtain ⟨htarget, -⟩ := resolve_within hresolved
    have hfixed := hspec.fixed _ _ htarget
    rw [hspec.empty] at hfixed
    cases hfixed
  cases hlocated : locate sys config clean safe_path with
  | refused code status =>
    rw [hlocated] at hselected
    cases hselected
  | listing html =>
    rw [hlocated] at hselected
    cases hselected
  | file path file_size last_modified =>
    rw [hlocated] at hselected
    obtain rfl := Option.some.inj hselected
    obtain rfl | rfl := locate_path hlocated
    · exact hsafe
    · simp

end plans

section answers

variable {sys : System} {conn : Connection} {fs : FileSystem} {config : StaticConfig} {request : Request}
  {cache cache' : CacheManager} {r : Response} {x x' : Exchange} {code : UvhttpError} {file_path content : List UInt8}

/-- Sending a response leaves its body and its headers. -/
theorem send_response_alike (sys : System) (conn : Connection) (x : Exchange) :
    (send_response sys conn x).response.body = x.response.body ∧
      (send_response sys conn x).response.headers = x.response.headers ∧
      (send_response sys conn x).response.status_code = x.response.status_code := by
  simp only [send_response, uvhttp_response_send]
  split
  · exact ⟨rfl, rfl, rfl⟩
  split
  · exact ⟨rfl, rfl, rfl⟩
  · exact ⟨rfl, rfl, rfl⟩

/-- Two responses with the same body and headers. -/
structure Alike (r r' : Response) : Prop where
  body : r.body = r'.body
  headers : r.headers = r'.headers

theorem Alike.carries_iff {r' : Response} (h : Alike r r') (compressed : Bool) :
    Carries content compressed r ↔ Carries content compressed r' := by
  constructor
  · rintro ⟨hbody, hlength, hencoding⟩
    rw [h.body] at hbody
    rw [h.headers] at hlength hencoding
    exact ⟨hbody, hlength, hencoding⟩
  · rintro ⟨hbody, hlength, hencoding⟩
    rw [← h.body] at hbody
    rw [← h.headers] at hlength hencoding
    exact ⟨hbody, hlength, hencoding⟩

theorem is_precompressed_eq_false (h : ¬ bytes ".gz" <:+ file_path) : is_precompressed file_path = false := by
  rw [← List.isSuffixOf_iff_suffix, Bool.not_eq_true] at h
  rw [is_precompressed, h, Bool.and_false, Bool.false_and]

theorem is_precompressed_gz (hne : file_path ≠ [])
    (hshort : (file_path ++ bytes ".gz").length < UVHTTP_MAX_FILE_PATH_SIZE) :
    is_precompressed (file_path ++ bytes ".gz") = true := by
  have hlength : (file_path ++ bytes ".gz").length = file_path.length + 3 := by
    rw [List.length_append]
    rfl
  have hpos : 0 < file_path.length := List.length_pos_iff.mpr hne
  have hsuffix : (bytes ".gz").isSuffixOf (file_path ++ bytes ".gz") = true :=
    List.isSuffixOf_iff_suffix.mpr (List.suffix_append _ _)
  rw [is_precompressed, hsuffix, Bool.and_true, Bool.and_eq_true, decide_eq_true_eq, decide_eq_true_eq, hlength]
  rw [hlength] at hshort
  omega

variable {stored : Option (List UInt8)} {file_size : Nat} {last_modified : Int} {etag : List UInt8} {made : Response}

/-- A response that was made for the file itself. -/
theorem faithful_plain_iff (hblank : Blank r) (hstored : StoredOf content stored file_size)
    (halike : Alike made (file_response sys file_path file_size last_modified etag stored r))
    (hcontent : file_content fs file_path = some content) (hplain : ¬ bytes ".gz" <:+ file_path) :
    Faithful fs request file_path made ↔ content = [] ∨ stored = some content ∧ BodyRoom sys content := by
  have hkind := is_precompressed_eq_false hplain
  have hcarries := carries_file_response_iff sys hblank file_path hstored last_modified etag
  rw [hkind, ← halike.carries_iff] at hcarries
  rw [← hcarries]
  constructor
  · rintro (⟨content', hcontent', h⟩ | ⟨-, content', -, h⟩)
    · obtain rfl := Option.some.inj (hcontent.symm.trans hcontent')
      exact h
    · have hencoding := (encoding_file_response_iff hblank _ _ _ _ _ true).mp ((halike.carries_iff true).mp h).encoding
      rw [hkind] at hencoding
      cases hencoding
  · exact fun h => .inl ⟨content, hcontent, h⟩

/-- A response that was made for the precompressed form of the file. -/
theorem faithful_compressed_iff (hblank : Blank r) (hstored : StoredOf content stored file_size)
    (halike : Alike made
      (file_response sys (file_path ++ bytes ".gz") file_size last_modified etag stored r))
    (hcontent : file_content fs (file_path ++ bytes ".gz") = some content) (haccepts : accepts_gzip request = true)
    (hkind : is_precompressed (file_path ++ bytes ".gz") = true) :
    Faithful fs request file_path made ↔ content = [] ∨ stored = some content ∧ BodyRoom sys content := by
  have hcarries := carries_file_response_iff sys hblank (file_path ++ bytes ".gz") hstored last_modified etag
  rw [hkind, ← halike.carries_iff] at hcarries
  rw [← hcarries]
  constructor
  · rintro (⟨content', -, h⟩ | ⟨-, content', hcontent', h⟩)
    · have hencoding := (encoding_file_response_iff hblank _ _ _ _ _ false).mp
        ((halike.carries_iff false).mp h).encoding
      rw [hkind] at hencoding
      cases hencoding
    · obtain rfl := Option.some.inj (hcontent.symm.trans hcontent')
      exact h
  · exact fun h => .inr ⟨haccepts, content, hcontent, h⟩

theorem status_not_modified (r : Response) : (set_status 304 r).status_code ≠ 200 := by
  show (304 : Int) ≠ 200
  decide

theorem status_failed (r : Response) : (set_status 500 r).status_code ≠ 200 := by
  show (500 : Int) ≠ 200
  decide

/-- A response with status 200 from the cache was made for the file of the entry. -/
theorem serve_cached_made {entry : CacheEntry}
    (hok : (serve_cached sys conn request entry x).2.response.status_code = 200) :
    Alike (serve_cached sys conn request entry x).2.response (file_response sys entry.file_path entry.content_length
      entry.last_modified entry.etag entry.content x.response) := by
  have hsent : (serve_cached sys conn request entry x).2.response.body =
        (cached_response sys request entry x.response).body ∧
      (serve_cached sys conn request entry x).2.response.headers =
        (cached_response sys request entry x.response).headers ∧
      (serve_cached sys conn request entry x).2.response.status_code =
        (cached_response sys request entry x.response).status_code := send_response_alike sys conn _
  obtain ⟨hbody, hheaders, hstatus⟩ := hsent
  rw [hstatus] at hok
  have hmade : cached_response sys request entry x.response = file_response sys entry.file_path entry.content_length
      entry.last_modified entry.etag entry.content x.response := by
    rw [cached_response] at hok ⊢
    split at hok
    · exact absurd hok (status_not_modified _)
    · rename_i hmodified
      rw [if_neg hmodified, file_response]
      cases entry.content <;> rfl
  rw [← hmade]
  exact ⟨hbody, hheaders⟩

/-- A request without validators is answered with status 200 from the cache. -/
theorem serve_cached_ok {entry : CacheEntry}
    (hmatch : uvhttp_request_get_header request (bytes "If-None-Match") = none)
    (hsince : uvhttp_request_get_header request (bytes "If-Modified-Since") = none) :
    (serve_cached sys conn request entry x).2.response.status_code = 200 := by
  have hmodified : uvhttp_static_check_conditional_request sys request entry.etag entry.last_modified = false := by
    rw [uvhttp_static_check_conditional_request, hmatch, hsince]
    rfl
  have hsent := (send_response_alike sys conn { x with
    response := cached_response sys request entry x.response
    files := if uvhttp_static_check_conditional_request sys request entry.etag entry.last_modified ||
      entry.content.isNone then x.files else x.files ++ [entry.origin] }).2.2
  rw [serve_cached, hsent, cached_response, hmodified]
  rfl

/-- A response with status 200 by the way of small files was made for the content that
was read. -/
theorem serve_small_made (h : serve_small sys conn request file_path last_modified x = some (code, x'))
    (hok : x'.response.status_code = 200) :
    ∃ content, read_file_content (sys.fs .read) (sys.alloc .read) file_path = some content ∧
      Alike x'.response (file_response sys file_path content.length last_modified
        (uvhttp_static_generate_etag last_modified content.length) (some content) x.response) := by
  rw [serve_small] at h
  split at h
  · obtain ⟨-, rfl⟩ := Prod.mk.inj (Option.some.inj h)
    exact absurd hok (status_failed _)
  · rename_i content hread
    refine ⟨content, hread, ?_⟩
    dsimp only at h
    split at h
    · obtain ⟨-, rfl⟩ := Prod.mk.inj (Option.some.inj h)
      exact absurd hok (status_not_modified _)
    · split at h
      · cases h
      · obtain ⟨-, rfl⟩ := Prod.mk.inj (Option.some.inj h)
        obtain ⟨hbody, hheaders, -⟩ := send_response_alike sys conn { x with
          cache := _
          response := small_response sys file_path content last_modified x.response
          files := x.files ++ [(sys.fs .read).realpath file_path] }
        exact ⟨hbody, hheaders⟩

/-- The content that a plan answers with, as it is at hand when the response is made. -/
inductive AtHand (fs : FileSystem) : Plan → List UInt8 → Option (List UInt8) → Prop where
  | cached {entry : CacheEntry} {content : List UInt8} (h : file_content fs entry.file_path = some content) :
    AtHand fs (.cached entry) content entry.content
  | small {file_path : List UInt8} {last_modified : Int} {content : List UInt8}
      (h : file_content fs file_path = some content) :
    AtHand fs (.small file_path last_modified) content (some content)

/-- The content that a plan answers with is empty, or it is at hand and finds room in the
body. -/
def Deliverable (sys : System) (fs : FileSystem) (p : Plan) : Prop :=
  ∀ content stored, AtHand fs p content stored → content = [] ∨ stored = some content ∧ BodyRoom sys content

theorem deliverable_iff {p : Plan} (h : AtHand fs p content stored) :
    Deliverable sys fs p ↔ content = [] ∨ stored = some content ∧ BodyRoom sys content := by
  refine ⟨fun hdeliverable => hdeliverable content stored h, fun hroom content' stored' h' => ?_⟩
  cases h with
  | cached hcontent =>
    cases h' with
    | cached hcontent' =>
      obtain rfl := Option.some.inj (hcontent.symm.trans hcontent')
      exact hroom
  | small hcontent =>
    cases h' with
    | small hcontent' =>
      obtain rfl := Option.some.inj (hcontent.symm.trans hcontent')
      exact hroom

/-- The plans of the claim: an entry of the cache, or a file that is read whole. -/
def Plan.FromMemory : Plan → Prop
  | .cached _ | .small _ _ => True
  | .refused _ _ | .listing _ | .large _ _ _ => False

instance : DecidablePred Plan.FromMemory
  | .cached _ => .isTrue trivial
  | .small _ _ => .isTrue trivial
  | .refused _ _ => .isFalse id
  | .listing _ => .isFalse id
  | .large _ _ _ => .isFalse id

/-- A response with status 200 that is made from the cache or from a small file is
faithful exactly when its content can be delivered. -/
theorem faithful_iff_deliverable (hfs : ∀ moment, sys.fs moment = fs) (hspec : RealpathSpec fs.realpath)
    (h : lru_cache.Every (Mirrors fs) cache) {response : Response} (hblank : Blank response) {p : Plan}
    (hplan : plan sys config request cache = some (p, cache'))
    (hexecute : execute sys conn config request ⟨response, cache', [], [], [], 0⟩ p = some (code, x))
    (hmemory : p.FromMemory) (hselected : selected_file sys config request = some file_path)
    (hplain : ¬ bytes ".gz" <:+ file_path) (hok : x.response.status_code = 200) :
    Faithful fs request file_path x.response ↔ Deliverable sys fs p := by
  cases p with
  | refused code status => exact hmemory.elim
  | listing html => exact hmemory.elim
  | large path file_size last_modified => exact hmemory.elim
  | cached entry =>
    obtain ⟨hselected', content, hbacked, hstored⟩ := selected_cached hfs h hplan
    obtain rfl := Option.some.inj (hselected'.symm.trans hselected)
    obtain ⟨-, rfl⟩ := Prod.mk.inj (Option.some.inj hexecute)
    rw [deliverable_iff (.cached hbacked.content)]
    exact faithful_plain_iff hblank hstored (serve_cached_made hok) hbacked.content hplain
  | small path last_modified =>
    obtain ⟨file_path', file_size, hselected', -, -, hpath⟩ := selected_small hfs hplan
    obtain rfl := Option.some.inj (hselected'.symm.trans hselected)
    obtain ⟨content, hread, halike⟩ := serve_small_made hexecute hok
    rw [hfs] at hread
    have hcontent := file_content_of_read hread
    rw [deliverable_iff (.small hcontent)]
    obtain rfl | ⟨rfl, haccepts, hshort⟩ := hpath
    · exact faithful_plain_iff hblank .whole halike hcontent hplain
    · have hne : file_path' ≠ [] := by
        apply selected_file_ne_nil _ hselected'
        rw [hfs]
        exact hspec
      exact faithful_compressed_iff hblank .whole halike hcontent haccepts (is_precompressed_gz hne hshort)

end answers

end uvhttp.static_files
