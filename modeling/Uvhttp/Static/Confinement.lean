import Uvhttp.Static.ExactlyOnce
import Uvhttp.Static.LruContents
import Uvhttp.Static.PathExact

namespace uvhttp.static_files

open uvhttp.http hiding uvhttp_response_send uvhttp_response_send_raw
open uvhttp.output tree_path
open uvhttp.lru_cache (CacheManager CacheEntry UVHTTP_MAX_FILE_PATH_SIZE)
open uvhttp.sendfile (UVHTTP_SENDFILE_MIN_FILE_SIZE)

/-- A file, by its canonical path, is the root directory or lies below it. -/
def Inside (fs : FileSystem) (root_directory : List UInt8) (file : Option (List UInt8)) : Prop :=
  ∃ root target, fs.realpath root_directory = some root ∧ file = some target ∧ Within root target

section selection

variable (fs : FileSystem) (config : StaticConfig) (request : Request)

/-- The request is for a path with the canonical path `safe_path`, which is accepted. -/
structure Requested (clean safe_path : List UInt8) : Prop where
  cleaned : clean_path request.url config.index_file = some clean
  valid : uvhttp_validate_url_path clean = true
  short : config.root_directory.length + clean.length + 2 < UVHTTP_MAX_FILE_PATH_SIZE
  canonical : fs.realpath (join_path config.root_directory clean) = some safe_path
  fits : safe_path.length < UVHTTP_MAX_FILE_PATH_SIZE
  inside : ∃ root, fs.realpath config.root_directory = some root ∧
    ∃ rest, Closed SLASH rest ∧ root ++ rest = safe_path

/-- The regular file that a canonical path stands for: the one there, or the index file
of a directory that is not listed. -/
inductive Found (clean safe_path : List UInt8) : List UInt8 → Stat → Prop where
  | itself {st : Stat} (hstat : fs.stat safe_path = some st) (hregular : st.regular = true) :
    Found clean safe_path safe_path st
  | index {dir st : Stat} (hdir : fs.stat safe_path = some dir)
      (hdirectory : dir.regular = false ∧ dir.directory = true)
      (hunlisted : config.enable_directory_listing = true → fs.directory_listing safe_path clean = none)
      (hshort : (safe_path ++ [SLASH] ++ config.index_file).length < UVHTTP_MAX_FILE_PATH_SIZE)
      (hstat : fs.stat (safe_path ++ [SLASH] ++ config.index_file) = some st) (hregular : st.regular = true) :
    Found clean safe_path (safe_path ++ [SLASH] ++ config.index_file) st

/-- The precompressed form of a file of 512 bytes or more, for a client that accepts it. -/
structure Precompressed (path : List UInt8) (st gz : Stat) : Prop where
  large : 512 ≤ st.size
  accepted : accepts_gzip request = true
  short : (path ++ bytes ".gz").length < UVHTTP_MAX_FILE_PATH_SIZE
  stat : fs.stat (path ++ bytes ".gz") = some gz
  regular : gz.regular = true
  nonempty : 0 < gz.size

/-- The file that is opened for a canonical path: the one found there, unless that is too
large, or its precompressed form. -/
inductive Selected (clean safe_path : List UInt8) : List UInt8 → Stat → Prop where
  | plain {path : List UInt8} {st : Stat} (hfound : Found fs config clean safe_path path st)
      (hsize : st.size ≤ config.max_file_size) (hnone : ∀ gz, ¬ Precompressed fs request path st gz) :
    Selected clean safe_path path st
  | gz {path : List UInt8} {st gz : Stat} (hfound : Found fs config clean safe_path path st)
      (hsize : st.size ≤ config.max_file_size) (hgz : Precompressed fs request path st gz) :
    Selected clean safe_path (path ++ bytes ".gz") gz

end selection

section delivery

variable (sys : System) (fs : FileSystem) (request : Request)

/-- Sendfile comes to open a file and puts it into the response. -/
def SendfileOpens (file_path : List UInt8) : Prop :=
  Shrunk sys file_path ∨
    ∃ st, (sys.fs .sendfile_stat).stat file_path = some st ∧ sendfile_ready sys file_path st = true

/-- The same for the chunks that are sent instead. -/
def ChunksOpen (file_path : List UInt8) : Prop :=
  ((sys.fs .chunked_open).open_file file_path).isSome = true ∧
    sys.alloc .chunked_open UVHTTP_FILE_CHUNK_SIZE = true

/-- The content of a file that is opened goes into the response: there is memory for it,
it can be read where it is read whole, and the client does not have it already. -/
def Opens (path : List UInt8) (st : Stat) : Prop :=
  if st.size > UVHTTP_SENDFILE_MIN_FILE_SIZE then
    uvhttp_static_check_conditional_request sys request (uvhttp_static_generate_etag st.mtime st.size) st.mtime =
      false ∧ (SendfileOpens sys path ∨ ChunksOpen sys path)
  else
    ∃ content, read_file_content (sys.fs .read) (sys.alloc .read) path = some content ∧
      uvhttp_static_check_conditional_request sys request (uvhttp_static_generate_etag st.mtime content.length)
        st.mtime = false

/-- The content of a cache entry goes into the response. -/
def Answers (entry : CacheEntry) : Prop :=
  entry.content.isSome = true ∧
    uvhttp_static_check_conditional_request sys request entry.etag entry.last_modified = false

/-- The content of a file goes into the response that is planned. -/
def Delivers (file : Option (List UInt8)) : Plan → Prop
  | .refused _ _ | .listing _ => False
  | .cached entry => file = entry.origin ∧ Answers sys request entry
  | .large path file_size last_modified =>
    file = fs.realpath path ∧
      uvhttp_static_check_conditional_request sys request (uvhttp_static_generate_etag last_modified file_size)
        last_modified = false ∧ (SendfileOpens sys path ∨ ChunksOpen sys path)
  | .small path last_modified =>
    file = fs.realpath path ∧ ∃ content, read_file_content (sys.fs .read) (sys.alloc .read) path = some content ∧
      uvhttp_static_check_conditional_request sys request (uvhttp_static_generate_etag last_modified content.length)
        last_modified = false

end delivery

section files

variable {sys : System} {fs : FileSystem} {conn : Connection} {config : StaticConfig} {request : Request}

theorem files_send_chunks (file : OpenFile) (file_size bytes_sent : Nat) (x : Exchange) :
    (send_chunks sys conn file file_size bytes_sent x).2.files = x.files := by
  fun_induction send_chunks sys conn file file_size bytes_sent x with
  | case1 | case2 | case4 => rfl
  | case3 bytes_sent x hmore hread sent hsent ih => exact ih

theorem files_send_file_chunked (hfs : ∀ moment, sys.fs moment = fs) (file_path : List UInt8) (file_size : Nat)
    (last_modified : Int) (etag : List UInt8) (x : Exchange) :
    (ChunksOpen sys file_path ∧ (send_file_chunked sys conn file_path file_size last_modified etag x).2.files =
      x.files ++ [fs.realpath file_path]) ∨
    (¬ ChunksOpen sys file_path ∧
      (send_file_chunked sys conn file_path file_size last_modified etag x).2.files = x.files) := by
  rw [send_file_chunked]
  cases hopen : (sys.fs .chunked_open).open_file file_path with
  | none => exact .inr ⟨fun h => by simp [ChunksOpen, hopen] at h, rfl⟩
  | some file =>
    cases halloc : sys.alloc .chunked_open UVHTTP_FILE_CHUNK_SIZE with
    | false => exact .inr ⟨fun h => by simp [ChunksOpen, halloc] at h, rfl⟩
    | true =>
      refine .inl ⟨⟨by simp [hopen], halloc⟩, ?_⟩
      simp only [Bool.not_true, Bool.false_eq_true, if_false, hfs]
      split
      · rfl
      · split
        · rfl
        · exact files_send_chunks _ _ _ _

/-- Sendfile puts the file into the response when it opens it, and fails when it does
not. -/
theorem files_sendfile (hfs : ∀ moment, sys.fs moment = fs) (config : StaticConfig) (file_path : List UInt8)
    (x : Exchange) :
    (SendfileOpens sys file_path ∧ (uvhttp_static_sendfile_with_config sys conn config file_path x).2.files =
      x.files ++ [fs.realpath file_path]) ∨
    (¬ SendfileOpens sys file_path ∧ (uvhttp_static_sendfile_with_config sys conn config file_path x).1 ≠ .OK ∧
      (uvhttp_static_sendfile_with_config sys conn config file_path x).2.files = x.files) := by
  have hcases := @sendfile_cases sys conn config file_path x
  generalize uvhttp_static_sendfile_with_config sys conn config file_path x = result at hcases ⊢
  rw [← hfs .sendfile_open]
  cases hcases with
  | stopped hcode hshrunk hready =>
    refine .inr ⟨?_, hcode, rfl⟩
    rintro (h | ⟨st, hstat, htrue⟩)
    · exact hshrunk h
    · exact absurd ((hready st hstat).symm.trans htrue) (by simp)
  | shrunk response h => exact .inl ⟨.inl h, rfl⟩
  | unbuilt hstat hready hbuild => exact .inl ⟨.inr ⟨_, hstat, hready⟩, rfl⟩
  | built hstat hready hbuild => exact .inl ⟨.inr ⟨_, hstat, hready⟩, (sendfile_transfer_leaves _ _ _ _ _).2.2⟩

theorem mem_files_large (hfs : ∀ moment, sys.fs moment = fs) {file : Option (List UInt8)} {file_path : List UInt8}
    {file_size : Nat} {last_modified : Int} {x : Exchange} (hfiles : x.files = []) :
    file ∈ (serve_large sys conn config request file_path file_size last_modified x).2.files ↔
      Delivers sys fs request file (.large file_path file_size last_modified) := by
  simp only [serve_large, Delivers]
  cases hcond : uvhttp_static_check_conditional_request sys request
      (uvhttp_static_generate_etag last_modified file_size) last_modified with
  | true => simp [hfiles]
  | false =>
    simp only [Bool.false_eq_true, if_false, true_and]
    obtain ⟨hopens, hsendfile⟩ | ⟨hopens, hcode, hsendfile⟩ := @files_sendfile sys fs conn hfs config file_path x
    · rw [hfiles, List.nil_append] at hsendfile
      split
      · obtain ⟨_, hchunks⟩ | ⟨_, hchunks⟩ := @files_send_file_chunked sys fs conn hfs file_path file_size last_modified
          (uvhttp_static_generate_etag last_modified file_size)
          (uvhttp_static_sendfile_with_config sys conn config file_path x).2
        · simp [hchunks, hsendfile, hopens]
        · simp [hchunks, hsendfile, hopens]
      · simp [hsendfile, hopens]
    · rw [if_pos hcode]
      obtain ⟨hopen, hchunks⟩ | ⟨hopen, hchunks⟩ := @files_send_file_chunked sys fs conn hfs file_path file_size
        last_modified (uvhttp_static_generate_etag last_modified file_size)
        (uvhttp_static_sendfile_with_config sys conn config file_path x).2
      · simp [hchunks, hsendfile, hfiles, hopen]
      · simp [hchunks, hsendfile, hfiles, hopens, hopen]

theorem mem_files_small (hfs : ∀ moment, sys.fs moment = fs) {file : Option (List UInt8)} {file_path : List UInt8}
    {last_modified : Int} {x : Exchange} (hfiles : x.files = []) {code : UvhttpError} {x' : Exchange}
    (h : serve_small sys conn request file_path last_modified x = some (code, x')) :
    file ∈ x'.files ↔ Delivers sys fs request file (.small file_path last_modified) := by
  rw [serve_small] at h
  simp only [Delivers]
  cases hread : read_file_content (sys.fs .read) (sys.alloc .read) file_path with
  | none =>
    simp only [hread] at h
    obtain ⟨_, rfl⟩ := Prod.mk.inj (Option.some.inj h)
    simp [hfiles]
  | some content =>
    simp only [hread] at h
    cases hcond : uvhttp_static_check_conditional_request sys request
        (uvhttp_static_generate_etag last_modified content.length) last_modified with
    | true =>
      simp only [hcond, if_true] at h
      obtain ⟨_, rfl⟩ := Prod.mk.inj (Option.some.inj h)
      simp [hfiles, hcond]
    | false =>
      simp only [hcond, Bool.false_eq_true, if_false] at h
      split at h
      · exact absurd h (by simp)
      · obtain ⟨_, rfl⟩ := Prod.mk.inj (Option.some.inj h)
        show file ∈ x.files ++ [(sys.fs .read).realpath file_path] ↔ _
        simp only [hfiles, hfs, List.nil_append, List.mem_singleton, Option.some.injEq, exists_eq_left', hcond,
          and_true]

theorem mem_files_cached {file : Option (List UInt8)} {entry : CacheEntry} {x : Exchange} (hfiles : x.files = []) :
    file ∈ (serve_cached sys conn request entry x).2.files ↔ Delivers sys fs request file (.cached entry) := by
  simp only [serve_cached, send_response, Delivers, Answers]
  cases hcond : uvhttp_static_check_conditional_request sys request entry.etag entry.last_modified with
  | true => simp [hfiles]
  | false =>
    cases hcontent : entry.content with
    | none => simp [hfiles]
    | some content => simp [hfiles]

/-- The files of an answer are those that the plan delivers. -/
theorem mem_files_execute (hfs : ∀ moment, sys.fs moment = fs) {file : Option (List UInt8)} {x : Exchange}
    (hfiles : x.files = []) {plan : Plan} {code : UvhttpError} {x' : Exchange}
    (h : execute sys conn config request x plan = some (code, x')) :
    file ∈ x'.files ↔ Delivers sys fs request file plan := by
  cases plan with
  | refused refusal status =>
    obtain ⟨_, rfl⟩ := Prod.mk.inj (Option.some.inj h)
    simp [Delivers, hfiles]
  | cached entry =>
    have hcached := @mem_files_cached sys fs conn request file entry x hfiles
    rw [Option.some.inj h] at hcached
    exact hcached
  | listing html =>
    obtain ⟨_, rfl⟩ := Prod.mk.inj (Option.some.inj h)
    simp [Delivers, hfiles]
  | large file_path file_size last_modified =>
    have hlarge := @mem_files_large sys fs conn config request hfs file file_path file_size last_modified x hfiles
    rw [Option.some.inj h] at hlarge
    exact hlarge
  | small file_path last_modified => exact mem_files_small hfs hfiles h

end files

section located

variable {sys : System} {fs : FileSystem} {config : StaticConfig} {request : Request}
  {clean safe_path path : List UInt8}

theorem get_file_info_eq_some_iff {file_path : List UInt8} {file_size : Nat} {last_modified : Int} :
    get_file_info fs file_path = some (file_size, last_modified) ↔
      ∃ st, fs.stat file_path = some st ∧ st.regular = true ∧ st.size = file_size ∧ st.mtime = last_modified := by
  rw [get_file_info]
  cases fs.stat file_path with
  | none => simp
  | some st =>
    dsimp only
    split
    · rename_i hregular
      simp [hregular]
    · rename_i hregular
      simp [hregular]

theorem get_file_info_of_stat {file_path : List UInt8} {st : Stat} (hstat : fs.stat file_path = some st)
    (hregular : st.regular = true) : get_file_info fs file_path = some (st.size, st.mtime) :=
  get_file_info_eq_some_iff.mpr ⟨st, hstat, hregular, rfl, rfl⟩

theorem locate_of_found (hfs : ∀ moment, sys.fs moment = fs) {st : Stat}
    (h : Found fs config clean safe_path path st) :
    locate sys config clean safe_path = .file path st.size st.mtime := by
  cases h with
  | itself hstat hregular => simp only [locate, hfs, get_file_info_of_stat hstat hregular]
  | @index dir _ hdir hdirectory hunlisted hshort hstat hregular =>
    have hnone : get_file_info fs safe_path = none := by
      rw [get_file_info, hdir]
      simp [hdirectory.1]
    have hlisting :
        (if config.enable_directory_listing then fs.directory_listing safe_path clean else none) = none := by
      split
      · rename_i henabled
        exact hunlisted henabled
      · rfl
    simp only [locate, hfs, hnone, hdir, Option.any_some, hdirectory.2, if_true, hlisting,
      if_neg (Nat.not_le.mpr hshort), get_file_info_of_stat hstat hregular]

theorem found_of_locate (hfs : ∀ moment, sys.fs moment = fs) {file_size : Nat} {last_modified : Int}
    (h : locate sys config clean safe_path = .file path file_size last_modified) :
    ∃ st, Found fs config clean safe_path path st ∧ st.size = file_size ∧ st.mtime = last_modified := by
  simp only [locate, hfs] at h
  split at h
  · rename_i hinfo
    obtain ⟨rfl, rfl, rfl⟩ := Located.file.inj h
    obtain ⟨st, hstat, hregular, hsize, hmtime⟩ := get_file_info_eq_some_iff.mp hinfo
    exact ⟨st, .itself hstat hregular, hsize, hmtime⟩
  · rename_i hinfo
    split at h
    · rename_i hdirectory
      obtain ⟨dir, hdir, hisdir⟩ := (Option.any_eq_true _ _).mp hdirectory
      split at h
      · cases h
      · rename_i hlisting
        split at h
        · cases h
        · rename_i hshort
          split at h
          · rename_i hindex
            obtain ⟨rfl, rfl, rfl⟩ := Located.file.inj h
            obtain ⟨st, hstat, hregular, hsize, hmtime⟩ := get_file_info_eq_some_iff.mp hindex
            refine ⟨st, .index hdir ⟨?_, hisdir⟩ ?_ (Nat.not_le.mp hshort) hstat hregular, hsize, hmtime⟩
            · by_contra hregular'
              rw [get_file_info_of_stat hdir (by simpa using hregular')] at hinfo
              cases hinfo
            · intro henabled
              rw [henabled] at hlisting
              exact hlisting
          · cases h
    · cases h

theorem locate_path {file_size : Nat} {last_modified : Int}
    (h : locate sys config clean safe_path = .file path file_size last_modified) :
    path = safe_path ∨ path = safe_path ++ [SLASH] ++ config.index_file := by
  rw [locate] at h
  split at h
  · exact .inl (Located.file.inj h).1.symm
  split at h
  · split at h
    · cases h
    · dsimp only at h
      split at h
      · cases h
      split at h
      · exact .inr (Located.file.inj h).1.symm
      · cases h
  · cases h

theorem select_gz_of_precompressed (hfs : ∀ moment, sys.fs moment = fs) {st gz : Stat}
    (h : Precompressed fs request path st gz) :
    select_gz sys request path st.size st.mtime = (path ++ bytes ".gz", gz.size, gz.mtime) := by
  simp only [select_gz, hfs, if_pos (And.intro h.large (And.intro h.accepted h.short)),
    get_file_info_of_stat h.stat h.regular, gt_iff_lt, if_pos h.nonempty]

theorem select_gz_of_none (hfs : ∀ moment, sys.fs moment = fs) {st : Stat}
    (h : ∀ gz, ¬ Precompressed fs request path st gz) :
    select_gz sys request path st.size st.mtime = (path, st.size, st.mtime) := by
  simp only [select_gz, hfs]
  split
  · rename_i hwanted
    split
    · rename_i hgz
      obtain ⟨gz, hstat, hregular, rfl, rfl⟩ := get_file_info_eq_some_iff.mp hgz
      rw [if_neg]
      intro hnonempty
      exact h gz ⟨hwanted.1, hwanted.2.1, hwanted.2.2, hstat, hregular, hnonempty⟩
    · rfl
  · rfl

/-- The plan for a file that is selected: the way that its size decides. -/
def plan_selected (path : List UInt8) (st : Stat) : Plan :=
  if st.size > UVHTTP_SENDFILE_MIN_FILE_SIZE then .large path st.size st.mtime else .small path st.mtime

theorem plan_of_selected (hfs : ∀ moment, sys.fs moment = fs) {st : Stat}
    (h : Selected fs config request clean safe_path path st) :
    plan_located sys config request (locate sys config clean safe_path) = plan_selected path st := by
  cases h with
  | plain hfound hsize hnone =>
    simp only [locate_of_found hfs hfound, plan_located, plan_file, if_neg (Nat.not_lt.mpr hsize),
      select_gz_of_none hfs hnone]
    rfl
  | gz hfound hsize hgz =>
    simp only [locate_of_found hfs hfound, plan_located, plan_file, if_neg (Nat.not_lt.mpr hsize),
      select_gz_of_precompressed hfs hgz]
    rfl

/-- Nothing is delivered without a file that is selected. -/
theorem selected_of_delivers (hfs : ∀ moment, sys.fs moment = fs) {file : Option (List UInt8)}
    (h : Delivers sys fs request file (plan_located sys config request (locate sys config clean safe_path))) :
    ∃ path st, Selected fs config request clean safe_path path st := by
  cases hlocated : locate sys config clean safe_path with
  | refused code status =>
    rw [hlocated] at h
    exact h.elim
  | listing html =>
    rw [hlocated] at h
    exact h.elim
  | file file_path file_size last_modified =>
    obtain ⟨st, hfound, rfl, rfl⟩ := found_of_locate hfs hlocated
    have hsize : st.size ≤ config.max_file_size := by
      by_contra hlarge
      rw [hlocated, plan_located, plan_file, if_pos (Nat.not_le.mp hlarge)] at h
      exact h
    by_cases hgz : ∃ gz, Precompressed fs request file_path st gz
    · obtain ⟨gz, hgz⟩ := hgz
      exact ⟨_, gz, .gz hfound hsize hgz⟩
    · exact ⟨_, st, .plain hfound hsize (not_exists.mp hgz)⟩

theorem delivers_selected_iff {file : Option (List UInt8)} {st : Stat} :
    Delivers sys fs request file (plan_selected path st) ↔ file = fs.realpath path ∧ Opens sys request path st := by
  unfold plan_selected Opens
  split
  · exact Iff.rfl
  · exact Iff.rfl

/-- What is delivered of a request that finds nothing in the cache. -/
theorem delivers_located_iff (hfs : ∀ moment, sys.fs moment = fs) {file : Option (List UInt8)} :
    Delivers sys fs request file (plan_located sys config request (locate sys config clean safe_path)) ↔
      ∃ path st, Selected fs config request clean safe_path path st ∧ Opens sys request path st ∧
        file = fs.realpath path := by
  constructor
  · intro h
    obtain ⟨path, st, hselected⟩ := selected_of_delivers hfs h
    rw [plan_of_selected hfs hselected, delivers_selected_iff] at h
    exact ⟨path, st, hselected, h.2, h.1⟩
  · rintro ⟨path, st, hselected, hopens, hfile⟩
    rw [plan_of_selected hfs hselected, delivers_selected_iff]
    exact ⟨hfile, hopens⟩

end located

section requests

variable {sys : System} {fs : FileSystem} {conn : Connection} {config : StaticConfig} {request : Request}
  {cache cache' : CacheManager} {clean safe_path : List UInt8}

/-- The path that a request is resolved to. -/
def requested_path (fs : FileSystem) (config : StaticConfig) (request : Request) : Option (List UInt8) :=
  (clean_path request.url config.index_file).bind fun clean =>
    uvhttp_static_resolve_safe_path fs.realpath config.root_directory clean lru_cache.UVHTTP_MAX_FILE_PATH_SIZE

/-- What `uvhttp_static_resolve_safe_path` accepts of a request. -/
theorem requested_iff :
    Requested fs config request clean safe_path ↔ clean_path request.url config.index_file = some clean ∧
      uvhttp_static_resolve_safe_path fs.realpath config.root_directory clean UVHTTP_MAX_FILE_PATH_SIZE =
        some safe_path := by
  rw [uvhttp_static_resolve_safe_path, if_neg (by decide)]
  constructor
  · rintro ⟨hclean, hvalid, hshort, hcanonical, hfits, root, hroot, hrest⟩
    obtain ⟨hbelow, hslash⟩ := (accepted_iff root safe_path).mpr hrest
    rw [if_neg (by simp [hvalid]), if_neg (Nat.not_le.mpr hshort), hcanonical, hroot]
    dsimp only
    rw [if_neg (by simp [hbelow]), if_neg hslash, if_neg (Nat.not_le.mpr hfits)]
    exact ⟨hclean, rfl⟩
  · rintro ⟨hclean, h⟩
    split at h
    · cases h
    rename_i hvalid
    split at h
    · cases h
    rename_i hshort
    split at h
    · rename_i target root htarget hroot
      split at h
      · cases h
      rename_i hbelow
      split at h
      · cases h
      rename_i hslash
      split at h
      · cases h
      rename_i hfits
      obtain rfl := Option.some.inj h
      exact ⟨hclean, by simpa using hvalid, Nat.not_le.mp hshort, htarget, Nat.not_le.mp hfits, root, hroot,
        (accepted_iff root target).mp ⟨by simpa using hbelow, hslash⟩⟩
    · cases h

theorem Requested.inside_root
    (hcanonical : ∀ path target, fs.realpath path = some target → fs.realpath target = some target)
    (h : Requested fs config request clean safe_path) : Inside fs config.root_directory (fs.realpath safe_path) := by
  obtain ⟨htarget, root, hroot, hwithin⟩ := resolve_within (requested_iff.mp h).2
  exact ⟨root, safe_path, hroot, hcanonical _ _ htarget, hwithin⟩

/-- The entry that a lookup finds: it has the key, and has not expired. -/
structure CachedAs (now : Int) (cache : CacheManager) (key : List UInt8) (entry : CacheEntry) : Prop where
  found : ∃ p, lru_cache.hash_find_str cache key = some p ∧ cache.entries p = some entry
  fresh : lru_cache.uvhttp_lru_cache_is_expired now entry cache.cache_ttl = false

/-- A lookup finds the entry, and notes when it was used. -/
theorem find_hit {now : Int} {key : List UInt8} {p : Nat}
    (h : lru_cache.uvhttp_lru_cache_find now cache key = some (some p, cache')) :
    ∃ entry, CachedAs now cache key entry ∧ cache'.entries p = some { entry with access_time := now } := by
  rw [lru_cache.uvhttp_lru_cache_find] at h
  split at h
  · cases h
  · rename_i q hfind
    obtain ⟨entry, hentry, h⟩ := Option.bind_eq_some_iff.mp h
    split at h
    · obtain ⟨removed, -, hmiss⟩ := Option.bind_eq_some_iff.mp h
      cases hmiss
    · rename_i hexpired
      obtain ⟨moved, hmove, hhit⟩ := Option.bind_eq_some_iff.mp h
      obtain ⟨hq, rfl⟩ := Prod.mk.inj (Option.some.inj hhit)
      obtain rfl : q = p := Option.some.inj hq
      refine ⟨entry, ⟨⟨q, hfind, hentry⟩, (Bool.not_eq_true _).mp hexpired⟩, ?_⟩
      show moved.entries q = _
      rw [lru_cache.entries_move_to_head hmove]
      exact Function.update_self _ _ _

theorem find_file_path {now : Int} {key : List UInt8} {p : Nat}
    (h : lru_cache.uvhttp_lru_cache_find now cache key = some (some p, cache')) {entry : CacheEntry}
    (hentry : cache'.entries p = some entry) : entry.file_path = key := by
  obtain ⟨found, ⟨⟨q, hfind, hfound⟩, -⟩, htouched⟩ := find_hit h
  obtain ⟨e, he, hpath⟩ := lru_cache.hash_find_str_path hfind
  obtain rfl := Option.some.inj (he.symm.trans hfound)
  obtain rfl := Option.some.inj (htouched.symm.trans hentry)
  exact hpath

theorem CachedAs.unique {now : Int} {key : List UInt8} {entry entry' : CacheEntry} (h : CachedAs now cache key entry)
    (h' : CachedAs now cache key entry') : entry = entry' := by
  obtain ⟨p, hfind, hentry⟩ := h.found
  obtain ⟨p', hfind', hentry'⟩ := h'.found
  obtain rfl := Option.some.inj (hfind.symm.trans hfind')
  exact Option.some.inj (hentry.symm.trans hentry')

/-- A lookup that finds nothing. -/
theorem find_miss {now : Int} {key : List UInt8}
    (h : lru_cache.uvhttp_lru_cache_find now cache key = some (none, cache')) (entry : CacheEntry) :
    ¬ CachedAs now cache key entry := by
  rintro ⟨⟨p, hfind, hentry⟩, hfresh⟩
  rw [lru_cache.uvhttp_lru_cache_find, hfind] at h
  simp only [hentry, Option.bind_eq_bind, Option.bind_some, hfresh, Bool.false_eq_true, if_false] at h
  obtain ⟨moved, -, hhit⟩ := Option.bind_eq_some_iff.mp h
  cases hhit

/-- The way from a request to its plan: the resolved path, and the lookup. -/
theorem plan_cases {p : Plan} (hplan : plan sys config request cache = some (p, cache')) :
    (cache' = cache ∧ ∃ code status, p = .refused code status) ∨
      ∃ clean safe_path found, clean_path request.url config.index_file = some clean ∧
        uvhttp_static_resolve_safe_path (sys.fs .resolve).realpath config.root_directory clean
          UVHTTP_MAX_FILE_PATH_SIZE = some safe_path ∧
        lru_cache.uvhttp_lru_cache_find sys.now cache safe_path = some (found, cache') ∧
        ((found = none ∧ p = plan_located sys config request (locate sys config clean safe_path)) ∨
          ∃ q entry, found = some q ∧ cache'.entries q = some entry ∧ p = .cached entry) := by
  rw [plan] at hplan
  split at hplan
  · obtain ⟨rfl, rfl⟩ := Prod.mk.inj (Option.some.inj hplan)
    exact .inl ⟨rfl, _, _, rfl⟩
  rename_i clean hclean
  split at hplan
  · obtain ⟨rfl, rfl⟩ := Prod.mk.inj (Option.some.inj hplan)
    exact .inl ⟨rfl, _, _, rfl⟩
  rename_i safe_path hresolved
  split at hplan
  · cases hplan
  · rename_i hfind
    obtain ⟨rfl, rfl⟩ := Prod.mk.inj (Option.some.inj hplan)
    exact .inr ⟨clean, safe_path, none, hclean, hresolved, hfind, .inl ⟨rfl, rfl⟩⟩
  · rename_i q cache₁ hfind
    obtain ⟨entry, hentry, heq⟩ := Option.map_eq_some_iff.mp hplan
    obtain ⟨rfl, rfl⟩ := Prod.mk.inj heq
    exact .inr ⟨clean, safe_path, some q, hclean, hresolved, hfind, .inr ⟨q, entry, rfl, hentry, rfl⟩⟩

theorem Requested.unique (h : Requested fs config request clean safe_path) {clean' safe_path' : List UInt8}
    (h' : Requested fs config request clean' safe_path') : clean' = clean ∧ safe_path' = safe_path := by
  obtain ⟨hclean, hresolved⟩ := requested_iff.mp h
  obtain ⟨hclean', hresolved'⟩ := requested_iff.mp h'
  obtain rfl := Option.some.inj (hclean.symm.trans hclean')
  exact ⟨rfl, Option.some.inj (hresolved'.symm.trans hresolved)⟩

/-- A request that is accepted is answered from the cache, or with a file that is looked
for. -/
theorem plan_requested (hfs : ∀ moment, sys.fs moment = fs) (h : Requested fs config request clean safe_path) {p : Plan}
    (hplan : plan sys config request cache = some (p, cache')) :
    (∃ entry, CachedAs sys.now cache safe_path entry ∧ p = .cached { entry with access_time := sys.now }) ∨
      ((∀ entry, ¬ CachedAs sys.now cache safe_path entry) ∧
        p = plan_located sys config request (locate sys config clean safe_path)) := by
  obtain ⟨hclean, hresolved⟩ := requested_iff.mp h
  simp only [plan, hclean, hfs, hresolved] at hplan
  split at hplan
  · cases hplan
  · rename_i hfind
    obtain ⟨rfl, -⟩ := Prod.mk.inj (Option.some.inj hplan)
    exact .inr ⟨find_miss hfind, rfl⟩
  · rename_i hfind
    obtain ⟨entry, hcached, hentry⟩ := find_hit hfind
    rw [hentry] at hplan
    obtain ⟨rfl, -⟩ := Prod.mk.inj (Option.some.inj hplan)
    exact .inl ⟨entry, hcached, rfl⟩

theorem requested_of_delivers (hfs : ∀ moment, sys.fs moment = fs) {p : Plan}
    (hplan : plan sys config request cache = some (p, cache')) {file : Option (List UInt8)}
    (h : Delivers sys fs request file p) : ∃ clean safe_path, Requested fs config request clean safe_path := by
  obtain ⟨-, code, status, rfl⟩ | ⟨clean, safe_path, found, hclean, hresolved, -, -⟩ := plan_cases hplan
  · exact h.elim
  · rw [hfs] at hresolved
    exact ⟨clean, safe_path, requested_iff.mpr ⟨hclean, hresolved⟩⟩

/-- A request for which every file that goes into the response lies within the root
directory. If the lookup finds an entry with a content to answer with, the content was
read there. Otherwise, if the file that is selected is not the requested one but the
index file or a precompressed form, and it is opened, its canonical path is there. -/
structure Confinable (sys : System) (fs : FileSystem) (config : StaticConfig) (request : Request)
    (cache : CacheManager) : Prop where
  cached : ∀ clean safe_path entry, Requested fs config request clean safe_path →
    CachedAs sys.now cache safe_path entry → Answers sys request entry → Inside fs config.root_directory entry.origin
  extended : ∀ clean safe_path path st, Requested fs config request clean safe_path →
    (∀ entry, ¬ CachedAs sys.now cache safe_path entry) → Selected fs config request clean safe_path path st →
    path ≠ safe_path → Opens sys request path st → Inside fs config.root_directory (fs.realpath path)

theorem Confinable.files_inside (hconfinable : Confinable sys fs config request cache)
    (hfs : ∀ moment, sys.fs moment = fs)
    (hcanonical : ∀ path target, fs.realpath path = some target → fs.realpath target = some target)
    {response : Response} {code : UvhttpError} {x : Exchange}
    (h : uvhttp_static_handle_request sys conn config request cache response = some (code, x)) :
    ∀ file ∈ x.files, Inside fs config.root_directory file := by
  rw [uvhttp_static_handle_request] at h
  split at h
  · cases h
  rename_i p cache' hplan
  intro file hfile
  have hdelivers := (mem_files_execute hfs rfl h).mp hfile
  obtain ⟨clean, safe_path, hrequested⟩ := requested_of_delivers hfs hplan hdelivers
  obtain ⟨entry, hcached, rfl⟩ | ⟨hmiss, rfl⟩ := plan_requested hfs hrequested hplan
  · obtain ⟨rfl, hanswers⟩ := hdelivers
    exact hconfinable.cached clean safe_path entry hrequested hcached hanswers
  · obtain ⟨path, st, hselected, hopens, rfl⟩ := (delivers_located_iff hfs).mp hdelivers
    by_cases hsame : path = safe_path
    · rw [hsame]
      exact hrequested.inside_root hcanonical
    · exact hconfinable.extended clean safe_path path st hrequested hmiss hselected hsame hopens

/-- Every file that a response is made of lies within the root directory exactly if the
cached content, the index file and the precompressed form that it is made of do. -/
theorem served_files_confined (hfs : ∀ moment, sys.fs moment = fs)
    (hcanonical : ∀ path target, fs.realpath path = some target → fs.realpath target = some target)
    {response : Response} {code : UvhttpError} {x : Exchange}
    (h : uvhttp_static_handle_request sys conn config request cache response = some (code, x)) :
    (∀ file ∈ x.files, Inside fs config.root_directory file) ↔ Confinable sys fs config request cache := by
  refine ⟨fun hinside => ?_, fun hconfinable => hconfinable.files_inside hfs hcanonical h⟩
  rw [uvhttp_static_handle_request] at h
  split at h
  · cases h
  rename_i p cache' hplan
  have hdelivered (file : Option (List UInt8)) (hdelivers : Delivers sys fs request file p) :
      Inside fs config.root_directory file := hinside file ((mem_files_execute hfs rfl h).mpr hdelivers)
  constructor
  · intro clean safe_path entry hrequested hcached hanswers
    obtain ⟨entry', hcached', rfl⟩ | ⟨hmiss, -⟩ := plan_requested hfs hrequested hplan
    · obtain rfl := hcached.unique hcached'
      exact hdelivered _ ⟨rfl, hanswers⟩
    · exact absurd hcached (hmiss entry)
  · intro clean safe_path path st hrequested hmiss hselected _ hopens
    obtain ⟨entry, hcached, -⟩ | ⟨-, rfl⟩ := plan_requested hfs hrequested hplan
    · exact absurd hcached (hmiss entry)
    · exact hdelivered _ ((delivers_located_iff hfs).mpr ⟨path, st, hselected, hopens, rfl⟩)

/-- Directories, files at their canonical paths, and links to files. -/
def linked (directories : List (List UInt8)) (files links : List (List UInt8 × List UInt8)) : FileSystem where
  realpath := fun path =>
    if directories.contains path || (files.lookup path).isSome then some path else links.lookup path
  stat := fun path =>
    if directories.contains path then some ⟨false, true, 4096, 0⟩
    else (files.lookup ((links.lookup path).getD path)).map fun content => ⟨true, false, content.length, 0⟩
  open_file := fun path =>
    (files.lookup ((links.lookup path).getD path)).map fun content => ⟨true, content.length, true, content⟩
  directory_listing := fun _ _ => none

theorem linked_canonical {directories : List (List UInt8)} {files links : List (List UInt8 × List UInt8)}
    (hlinks : ∀ link ∈ links, (files.lookup link.2).isSome = true)
    (path target : List UInt8) (h : (linked directories files links).realpath path = some target) :
    (linked directories files links).realpath target = some target := by
  simp only [linked] at h ⊢
  split at h
  · rename_i hplain
    obtain rfl := Option.some.inj h
    rw [if_pos hplain]
  · obtain ⟨before, after, rfl, -⟩ := List.lookup_eq_some_iff.mp h
    have htarget := hlinks (path, target) (List.mem_append_right _ List.mem_cons_self)
    rw [if_pos (by rw [htarget, Bool.or_true])]

/-- A site whose file `/b` has a link to a file elsewhere for its precompressed form. The
index file of its directory `/d` is a link there too, that of `/e` one to `/b`. -/
def linked_site : FileSystem :=
  linked [bytes "/srv", bytes "/srv/d", bytes "/srv/e"]
    [(bytes "/srv/b", List.replicate 512 98), (bytes "/etc/key", bytes "k")]
    [(bytes "/srv/b.gz", bytes "/etc/key"), (bytes "/srv/d/index.html", bytes "/etc/key"),
      (bytes "/srv/e/index.html", bytes "/srv/b")]

/-- The same site when the index file of `/d` is a file of its own. -/
def replaced_site : FileSystem :=
  linked [bytes "/srv", bytes "/srv/d", bytes "/srv/e"]
    [(bytes "/srv/b", List.replicate 512 98), (bytes "/etc/key", bytes "k"), (bytes "/srv/d/index.html", bytes "d")]
    [(bytes "/srv/b.gz", bytes "/etc/key"), (bytes "/srv/e/index.html", bytes "/srv/b")]

theorem linked_site_canonical (path target : List UInt8) (h : linked_site.realpath path = some target) :
    linked_site.realpath target = some target := linked_canonical (by decide +kernel) path target h

def linked_site_config : StaticConfig := { small_site_config with enable_directory_listing := false }

theorem not_cachedAs_create {cache : CacheManager}
    (hcreate : (lru_cache.uvhttp_lru_cache_create true 1000000 10 0).toOption = some cache) (now : Int)
    (key : List UInt8) (entry : CacheEntry) : ¬ CachedAs now cache key entry := by
  rintro ⟨⟨p, hfind, -⟩, -⟩
  obtain rfl := Option.some.inj hcreate
  cases hfind

/-- A request to the site whose answer is a small file, which is `/srv/b`. -/
theorem linked_site_inside {asked : Request} {clean safe_path selected : List UInt8} {last_modified : Int}
    (hasked : Requested linked_site linked_site_config asked clean safe_path)
    (hplan : plan_located (.willing linked_site) linked_site_config asked
      (locate (.willing linked_site) linked_site_config clean safe_path) = .small selected last_modified)
    (hlink : linked_site.realpath selected = some (bytes "/srv/b")) {clean' safe_path' path : List UInt8} {st : Stat}
    (hrequested : Requested linked_site linked_site_config asked clean' safe_path')
    (hselected : Selected linked_site linked_site_config asked clean' safe_path' path st) :
    Inside linked_site (bytes "/srv") (linked_site.realpath path) := by
  obtain ⟨rfl, rfl⟩ := hasked.unique hrequested
  have hselection := (plan_of_selected (fun _ => rfl) hselected).symm.trans hplan
  unfold plan_selected at hselection
  split at hselection
  · cases hselection
  · obtain rfl : path = selected := (Plan.small.inj hselection).1
    rw [hlink]
    exact ⟨bytes "/srv", bytes "/srv/b", by decide +kernel, rfl, .inr ⟨bytes "b", by decide +kernel⟩⟩

theorem requested_directory : Requested linked_site linked_site_config (get "/e" []) (bytes "/e") (bytes "/srv/e") := by
  rw [requested_iff]
  decide +kernel

theorem requested_file : Requested linked_site linked_site_config (get "/b" []) (bytes "/b") (bytes "/srv/b") := by
  rw [requested_iff]
  decide +kernel

/-- The index file of `/e` is opened through its link. -/
theorem directory_inside {clean safe_path path : List UInt8} {st : Stat}
    (hrequested : Requested linked_site linked_site_config (get "/e" []) clean safe_path)
    (hselected : Selected linked_site linked_site_config (get "/e" []) clean safe_path path st) :
    Inside linked_site (bytes "/srv") (linked_site.realpath path) := by
  have hplan : plan_located (.willing linked_site) linked_site_config (get "/e" [])
      (locate (.willing linked_site) linked_site_config (bytes "/e") (bytes "/srv/e")) =
        .small (bytes "/srv/e/index.html") 0 := by
    decide +kernel
  exact linked_site_inside requested_directory hplan (by decide +kernel) hrequested hselected

/-- A request for a directory whose index file is a link within the site, and one for the
file itself that is answered from the cache. -/
theorem served_files_confined_index :
    ∃ cache, (lru_cache.uvhttp_lru_cache_create true 1000000 10 0).toOption = some cache ∧
      (∃ code x, uvhttp_static_handle_request (.willing linked_site) ⟨false, false⟩ linked_site_config
          (get "/e" []) cache uvhttp_response_init = some (code, x) ∧ x.files = [some (bytes "/srv/b")] ∧
        ∀ file ∈ x.files, Inside linked_site (bytes "/srv") file) ∧
      ∃ first code x, uvhttp_static_handle_request (.willing linked_site) ⟨false, false⟩ linked_site_config
            (get "/b" []) cache uvhttp_response_init = some first ∧
        uvhttp_static_handle_request (.willing linked_site) ⟨false, false⟩ linked_site_config (get "/b" [])
          first.2.cache uvhttp_response_init = some (code, x) ∧ x.files = [some (bytes "/srv/b")] ∧
        ∀ file ∈ x.files, Inside linked_site (bytes "/srv") file := by
  have hcomputed : (lru_cache.uvhttp_lru_cache_create true 1000000 10 0).toOption.any (fun cache =>
      (uvhttp_static_handle_request (.willing linked_site) ⟨false, false⟩ linked_site_config (get "/e" []) cache
        uvhttp_response_init).any (fun result => result.2.files = [some (bytes "/srv/b")]) &&
      (uvhttp_static_handle_request (.willing linked_site) ⟨false, false⟩ linked_site_config (get "/b" []) cache
        uvhttp_response_init).any fun first =>
          (uvhttp_static_handle_request (.willing linked_site) ⟨false, false⟩ linked_site_config (get "/b" [])
            first.2.cache uvhttp_response_init).any (fun result => result.2.files = [some (bytes "/srv/b")]) &&
          (lru_cache.hash_find_str first.2.cache (bytes "/srv/b")).any fun p =>
            (first.2.cache.entries p).any fun entry => entry.origin = some (bytes "/srv/b") &&
              !lru_cache.uvhttp_lru_cache_is_expired 0 entry first.2.cache.cache_ttl) = true := by
    decide +kernel
  have hinside : Inside linked_site (bytes "/srv") (some (bytes "/srv/b")) :=
    ⟨bytes "/srv", bytes "/srv/b", by decide +kernel, rfl, .inr ⟨bytes "b", by decide +kernel⟩⟩
  simp only [Option.any_eq_true, Bool.and_eq_true, decide_eq_true_eq, Bool.not_eq_true'] at hcomputed
  obtain ⟨cache, hcache, ⟨⟨code, x⟩, hresult, hfiles⟩, first, hfirst, ⟨⟨code', x'⟩, hresult', hfiles'⟩, p, hfind, entry,
    hentry, horigin, hfresh⟩ := hcomputed
  refine ⟨cache, hcache, ⟨code, x, hresult, hfiles, ?_⟩, first, code', x', hfirst, hresult', hfiles', ?_⟩
  · refine (served_files_confined (fun _ => rfl) linked_site_canonical hresult).mpr ⟨?_, ?_⟩
    · intro clean safe_path entry _ hcached
      exact absurd hcached (not_cachedAs_create hcache _ _ _)
    · intro clean safe_path path st hrequested _ hselected _ _
      exact directory_inside hrequested hselected
  · have hhit : CachedAs 0 first.2.cache (bytes "/srv/b") entry := ⟨⟨p, hfind, hentry⟩, hfresh⟩
    refine (served_files_confined (fun _ => rfl) linked_site_canonical hresult').mpr ⟨?_, ?_⟩
    · intro clean safe_path entry' hrequested hcached _
      obtain ⟨rfl, rfl⟩ := requested_file.unique hrequested
      rw [← hhit.unique hcached, horigin]
      exact hinside
    · intro clean safe_path path st hrequested hmiss
      obtain ⟨rfl, rfl⟩ := requested_file.unique hrequested
      exact absurd hhit (hmiss entry)

/-- Files elsewhere are delivered: as the precompressed form, as the index file, and from
the cache when the link that they were read through is no longer there. -/
theorem linked_files_served :
    (∀ path target, linked_site.realpath path = some target → linked_site.realpath target = some target) ∧
    (∃ cache, (lru_cache.uvhttp_lru_cache_create true 1000000 10 0).toOption = some cache ∧
      (∃ x, uvhttp_static_handle_request (.willing linked_site) ⟨false, false⟩ linked_site_config
          (get "/b" [⟨bytes "Accept-Encoding", bytes "gzip"⟩]) cache uvhttp_response_init = some (.OK, x) ∧
        x.files = [some (bytes "/etc/key")]) ∧
      ∃ x y, uvhttp_static_handle_request (.willing linked_site) ⟨false, false⟩ linked_site_config (get "/d" []) cache
          uvhttp_response_init = some (.OK, x) ∧ x.files = [some (bytes "/etc/key")] ∧
        uvhttp_static_handle_request (.willing replaced_site) ⟨false, false⟩ linked_site_config
          (get "/d/index.html" []) x.cache uvhttp_response_init = some (.OK, y) ∧
        y.files = [some (bytes "/etc/key")]) ∧
    ∀ site ∈ [linked_site, replaced_site], ¬ Inside site (bytes "/srv") (some (bytes "/etc/key")) := by
  have hcomputed : (lru_cache.uvhttp_lru_cache_create true 1000000 10 0).toOption.any (fun cache =>
      (uvhttp_static_handle_request (.willing linked_site) ⟨false, false⟩ linked_site_config
        (get "/b" [⟨bytes "Accept-Encoding", bytes "gzip"⟩]) cache uvhttp_response_init).any (fun result =>
          result.1 = .OK && result.2.files = [some (bytes "/etc/key")]) &&
      (uvhttp_static_handle_request (.willing linked_site) ⟨false, false⟩ linked_site_config (get "/d" []) cache
        uvhttp_response_init).any fun result => result.1 = .OK && (result.2.files = [some (bytes "/etc/key")] &&
          (uvhttp_static_handle_request (.willing replaced_site) ⟨false, false⟩ linked_site_config
            (get "/d/index.html" []) result.2.cache uvhttp_response_init).any fun later =>
              later.1 = .OK && later.2.files = [some (bytes "/etc/key")])) = true := by
    decide +kernel
  have houtside : ¬ Within (bytes "/srv") (bytes "/etc/key") := by
    unfold Within
    decide +kernel
  simp only [Option.any_eq_true, Bool.and_eq_true, decide_eq_true_eq] at hcomputed
  obtain ⟨cache, hcache, ⟨⟨code, x⟩, hresult, rfl, hfiles⟩, ⟨code', x'⟩, hresult', rfl, hfiles', ⟨code'', y⟩,
    hlater, rfl, hcached⟩ := hcomputed
  refine ⟨linked_site_canonical, ⟨cache, hcache, ⟨x, hresult, hfiles⟩, x', y, hresult', hfiles', hlater, hcached⟩, ?_⟩
  rintro site hsite ⟨root, target, hroot, htarget, hwithin⟩
  obtain rfl := Option.some.inj htarget
  have hsame : site.realpath (bytes "/srv") = some (bytes "/srv") := by
    simp only [List.mem_cons, List.not_mem_nil, or_false] at hsite
    rcases hsite with rfl | rfl
    · decide +kernel
    · decide +kernel
  obtain rfl := Option.some.inj (hsame.symm.trans hroot)
  exact houtside hwithin

end requests

end uvhttp.static_files
