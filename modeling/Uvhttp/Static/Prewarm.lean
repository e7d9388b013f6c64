import Uvhttp.Static.Confinement
import Uvhttp.Static.LruPut

namespace uvhttp.static_files

open uvhttp.http
open uvhttp.lru_cache (CacheManager CacheEntry Holds Node UVHTTP_MAX_FILE_PATH_SIZE)

section prewarming

/-- The path that `uvhttp_static_prewarm_cache` builds, and the key of its entry. -/
def prewarm_key (config : StaticConfig) (file_path : List UInt8) : List UInt8 :=
  config.root_directory ++ [SLASH] ++ file_path

/-- `uvhttp_static_prewarm_cache`. -/
def uvhttp_static_prewarm_cache (sys : System) (config : StaticConfig) (cache : CacheManager) (file_path : List UInt8) :
    Option (UvhttpError × CacheManager) :=
  let full_path := prewarm_key config file_path
  if full_path.length ≥ UVHTTP_MAX_FILE_PATH_SIZE then some (.INVALID_PARAM, cache)
  else
    match (sys.fs .file_info).stat full_path with
    | none => some (.NOT_FOUND, cache)
    | some st =>
      if !st.regular then some (.NOT_FOUND, cache)
      else if st.size > config.max_file_size then some (.INVALID_PARAM, cache)
      else
        match read_file_content (sys.fs .read) (sys.alloc .read) full_path with
        | none => some (.SERVER_INIT, cache)
        | some content =>
          lru_cache.uvhttp_lru_cache_put sys.exceeds sys.put cache
            ⟨full_path, content, some (sys.mime_type full_path), st.mtime,
              some (uvhttp_static_generate_etag st.mtime content.length), (sys.fs .read).realpath full_path⟩

/-- The entry of a path is in the cache, and has not expired. -/
def Kept (now : Int) (cache : CacheManager) (file_path : List UInt8) : Prop :=
  ∃ nodes : List Node, Holds cache nodes ∧
    ∃ n ∈ nodes, n.2.file_path = file_path ∧ lru_cache.uvhttp_lru_cache_is_expired now n.2 cache.cache_ttl = false

/-- A request is answered from the entry with some key. -/
def Hit (sys : System) (config : StaticConfig) (request : Request) (cache : CacheManager) (key : List UInt8) : Prop :=
  ∃ entry cache', plan sys config request cache = some (.cached entry, cache') ∧ entry.file_path = key

variable {sys : System} {config : StaticConfig} {request : Request} {cache cache' : CacheManager}
  {file_path key : List UInt8}

/-- The entry that prewarming stores for the content of a file. -/
def prewarm_request (sys : System) (config : StaticConfig) (file_path : List UInt8) (st : Stat) (content : List UInt8) :
    lru_cache.PutRequest :=
  ⟨prewarm_key config file_path, content, some (sys.mime_type (prewarm_key config file_path)), st.mtime,
    some (uvhttp_static_generate_etag st.mtime content.length), (sys.fs .read).realpath (prewarm_key config file_path)⟩

/-- Prewarming fails, or it stores the content of a regular file that it has read. -/
theorem prewarm_puts {code : UvhttpError}
    (hprewarm : uvhttp_static_prewarm_cache sys config cache file_path = some (code, cache')) :
    (code ≠ .OK ∧ cache' = cache) ∨
      ∃ st content, (sys.fs .file_info).stat (prewarm_key config file_path) = some st ∧ st.regular = true ∧
        read_file_content (sys.fs .read) (sys.alloc .read) (prewarm_key config file_path) = some content ∧
        lru_cache.uvhttp_lru_cache_put sys.exceeds sys.put cache (prewarm_request sys config file_path st content) =
          some (code, cache') := by
  have hrefused : ∀ {e : UvhttpError}, e ≠ .OK → some (e, cache) = some (code, cache') → code ≠ .OK ∧ cache' = cache := by
    intro e he heq
    obtain ⟨rfl, rfl⟩ := Prod.mk.inj (Option.some.inj heq)
    exact ⟨he, rfl⟩
  simp only [uvhttp_static_prewarm_cache] at hprewarm
  split at hprewarm
  · exact .inl (hrefused (by decide) hprewarm)
  split at hprewarm
  · exact .inl (hrefused (by decide) hprewarm)
  rename_i st hstat
  split at hprewarm
  · exact .inl (hrefused (by decide) hprewarm)
  rename_i hregular
  split at hprewarm
  · exact .inl (hrefused (by decide) hprewarm)
  split at hprewarm
  · exact .inl (hrefused (by decide) hprewarm)
  rename_i content hread
  exact .inr ⟨st, content, hstat, by simpa using hregular, hread, hprewarm⟩

theorem prewarm_ok (hprewarm : uvhttp_static_prewarm_cache sys config cache file_path = some (.OK, cache')) :
    ∃ st content, (sys.fs .file_info).stat (prewarm_key config file_path) = some st ∧ st.regular = true ∧
      read_file_content (sys.fs .read) (sys.alloc .read) (prewarm_key config file_path) = some content ∧
      lru_cache.uvhttp_lru_cache_put sys.exceeds sys.put cache (prewarm_request sys config file_path st content) =
        some (.OK, cache') :=
  (prewarm_puts hprewarm).resolve_left fun hfailed => hfailed.1 rfl

theorem stored_entry_fresh (answers : lru_cache.PutAnswers) (request : lru_cache.PutRequest) (memory_usage : UInt64)
    (e : CacheEntry) (cache_ttl : Int) :
    lru_cache.uvhttp_lru_cache_is_expired answers.now (lru_cache.stored_entry answers request memory_usage e) cache_ttl =
      false := by
  have htime : (lru_cache.stored_entry answers request memory_usage e).cache_time = answers.now := rfl
  rw [lru_cache.uvhttp_lru_cache_is_expired, htime]
  split
  · rfl
  · rw [decide_eq_false_iff_not]
    omega

/-- A file that was prewarmed is in the cache under its key. -/
theorem kept_prewarmed {nodes : List Node} (h : Holds cache nodes)
    (hprewarm : uvhttp_static_prewarm_cache sys config cache file_path = some (.OK, cache')) :
    Kept sys.put.now cache' (prewarm_key config file_path) := by
  obtain ⟨st, content, -, -, -, hput⟩ := prewarm_ok hprewarm
  obtain ⟨kept, p, e, -, hpath, hholds, -⟩ := h.put_ok hput
  exact ⟨_, hholds, _, List.mem_cons_self, hpath, stored_entry_fresh _ _ _ _ _⟩

theorem plan_located_ne_cached (located : Located) (entry : CacheEntry) :
    plan_located sys config request located ≠ .cached entry := by
  cases located with
  | refused code status => exact Plan.noConfusion
  | listing html => exact Plan.noConfusion
  | file path file_size last_modified =>
    simp only [plan_located, plan_file]
    split_ifs <;> exact Plan.noConfusion

/-- An entry that is kept answers the requests that resolve to its key, and no others. -/
theorem hit_iff (hkept : Kept sys.now cache key) {safe_path : List UInt8}
    (hrequested : requested_path (sys.fs .resolve) config request = some safe_path) :
    Hit sys config request cache key ↔ safe_path = key := by
  obtain ⟨nodes, hholds, n, hn, hpath, hfresh⟩ := hkept
  obtain ⟨clean, hclean, hresolved⟩ := Option.bind_eq_some_iff.mp hrequested
  obtain ⟨result, hfind, hfound⟩ := hholds.find sys.now safe_path
  rw [Hit, plan, hclean]
  dsimp only
  rw [hresolved]
  dsimp only
  rw [hfind]
  cases hfound with
  | hit before after p e cache' hnodes hsame _ hholds' =>
    have hentry : cache'.entries p = some { e with access_time := sys.now } := hholds'.entry _ List.mem_cons_self
    simp only [hentry, Option.map_some, Option.some.injEq, Prod.mk.injEq, Plan.cached.injEq]
    constructor
    · rintro ⟨entry, cache'', ⟨rfl, rfl⟩, hkey⟩
      exact hsame.symm.trans hkey
    · rintro rfl
      exact ⟨_, _, ⟨rfl, rfl⟩, hsame⟩
  | expired before after m cache' hnodes hsame hold =>
    refine iff_of_false ?_ ?_
    · rintro ⟨entry, cache'', hplan, -⟩
      exact plan_located_ne_cached _ _ (Prod.mk.inj (Option.some.inj hplan)).1
    · rintro rfl
      have hm : m = n := hholds.eq_of_path (by rw [hnodes]; simp) hn (hsame.trans hpath.symm)
      rw [hm, hfresh] at hold
      cases hold
  | miss cache' habsent =>
    refine iff_of_false ?_ ?_
    · rintro ⟨entry, cache'', hplan, -⟩
      exact plan_located_ne_cached _ _ (Prod.mk.inj (Option.some.inj hplan)).1
    · rintro rfl
      exact habsent n hn hpath

/-- What `realpath` gives is canonical, its own canonical path, and nothing for the
empty path. -/
structure RealpathSpec (realpath : List UInt8 → Option (List UInt8)) : Prop where
  canonical : ∀ path resolved, realpath path = some resolved → Canonical resolved
  fixed : ∀ path resolved, realpath path = some resolved → realpath resolved = some resolved
  empty : realpath [] = none

theorem Canonical.ne_adjacent {path : List UInt8} (h : Canonical path) (front rest : List UInt8) :
    path ≠ front ++ SLASH :: SLASH :: rest := by
  obtain ⟨names, hnames, rfl⟩ := h
  exact tree_path.text_ne_adjacent (fun name hname => (hnames name hname).1) front rest

theorem Canonical.ne_append_slash {path front : List UInt8} (h : Canonical path) (hfront : front ≠ []) :
    path ≠ front ++ [SLASH] := by
  obtain ⟨names, hnames, rfl⟩ := h
  exact tree_path.text_ne_append_separator (fun name hname => (hnames name hname).1) hfront

/-- Where the key of a prewarmed file is a canonical path, a request for the file joins
the same path. -/
theorem join_path_of_canonical_key (hkey : Canonical (prewarm_key config file_path))
    (hroot : config.root_directory ≠ []) :
    join_path config.root_directory (SLASH :: file_path) = prewarm_key config file_path := by
  have hlast : config.root_directory.getLast? ≠ some SLASH := by
    intro h
    obtain ⟨front, hfront⟩ := List.getLast?_eq_some_iff.mp h
    apply hkey.ne_adjacent front file_path
    rw [prewarm_key, hfront]
    simp
  rw [join_path, if_pos ⟨hroot, hlast⟩, prewarm_key]
  rfl

/-- A file that was prewarmed stays in the cache under its key, and while it is there it
answers the requests for it exactly when this key is its canonical path. -/
theorem prewarmed_hit_iff {nodes : List Node} (h : Holds cache nodes)
    (hprewarm : uvhttp_static_prewarm_cache sys config cache file_path = some (.OK, cache')) :
    Kept sys.put.now cache' (prewarm_key config file_path) ∧
      ∀ (later : System) (request : Request) (cache'' : CacheManager) (safe_path : List UInt8),
        RealpathSpec (later.fs .resolve).realpath →
        Kept later.now cache'' (prewarm_key config file_path) →
        request.url.takeWhile (· != 63) = SLASH :: file_path →
        requested_path (later.fs .resolve) config request = some safe_path →
        (Hit later config request cache'' (prewarm_key config file_path) ↔
          (later.fs .resolve).realpath (prewarm_key config file_path) = some (prewarm_key config file_path)) := by
  refine ⟨kept_prewarmed h hprewarm, fun later request cache'' safe_path hspec hkept hurl hrequested => ?_⟩
  rw [hit_iff hkept hrequested]
  obtain ⟨clean, hclean, hresolved⟩ := Option.bind_eq_some_iff.mp hrequested
  obtain ⟨htarget, root, hroot, -⟩ := resolve_within hresolved
  constructor
  · intro hsame
    rw [hsame] at htarget
    exact hspec.fixed _ _ htarget
  · intro hkey
    have hcanonical := hspec.canonical _ _ hkey
    have hnonempty : config.root_directory ≠ [] := by
      intro hempty
      rw [hempty, hspec.empty] at hroot
      cases hroot
    have hname : file_path ≠ [] := by
      rintro rfl
      apply hcanonical.ne_append_slash hnonempty
      rw [prewarm_key, List.append_nil]
    have hplain : clean = SLASH :: file_path := by
      have hnotroot : ¬ SLASH :: file_path = [SLASH] := by
        intro heq
        exact hname (List.cons.inj heq).2
      rw [clean_path, hurl] at hclean
      simp only [if_neg hnotroot] at hclean
      split at hclean
      · cases hclean
      · exact (Option.some.inj hclean).symm
    rw [hplain, join_path_of_canonical_key hcanonical hnonempty, hkey] at htarget
    exact (Option.some.inj htarget).symm

end prewarming

section sites

theorem realpathSpec_plain {files : List (List UInt8)} (hfiles : ∀ file ∈ files, Canonical file) (hempty : [] ∉ files) :
    RealpathSpec (plain_realpath files) := by
  refine ⟨canonical_plain_realpath hfiles, fun path resolved h => ?_, if_neg hempty⟩
  rw [plain_realpath] at h
  split at h
  · rename_i hmem
    obtain rfl := Option.some.inj h
    exact if_pos hmem
  · cases h

/-- The site with the file `/srv/a`, without links. -/
def plain_site : FileSystem := { small_site with realpath := plain_realpath [bytes "/srv", bytes "/srv/a"] }

theorem prewarmed_hit_iff_plain :
    ∃ cache cache', lru_cache.uvhttp_lru_cache_create true 1000000 10 0 = .ok cache ∧
      uvhttp_static_prewarm_cache (.willing plain_site) small_site_config cache (bytes "a") = some (.OK, cache') ∧
      RealpathSpec plain_site.realpath ∧
      requested_path plain_site small_site_config (get "/a" []) = some (bytes "/srv/a") ∧
      Hit (.willing plain_site) small_site_config (get "/a" []) cache' (bytes "/srv/a") := by
  obtain ⟨cache, hcache⟩ : ∃ cache, lru_cache.uvhttp_lru_cache_create true 1000000 10 0 = .ok cache := ⟨_, rfl⟩
  have hcomputed : (uvhttp_static_prewarm_cache (.willing plain_site) small_site_config cache (bytes "a")).any
      (fun result => result.1 = .OK) = true := by
    cases hcache
    decide +kernel
  have hrequested : requested_path plain_site small_site_config (get "/a" []) = some (bytes "/srv/a") := by
    decide +kernel
  have hfiles : ∀ file ∈ [bytes "/srv", bytes "/srv/a"], Canonical file := by
    simp only [List.forall_mem_cons, List.not_mem_nil, false_implies, implies_true, and_true]
    exact ⟨⟨[bytes "srv"], by simp only [ProperName]; decide, rfl⟩,
      ⟨[bytes "srv", bytes "a"], by simp only [ProperName]; decide, rfl⟩⟩
  have hspec : RealpathSpec plain_site.realpath := realpathSpec_plain hfiles (by decide)
  simp only [Option.any_eq_true, decide_eq_true_eq] at hcomputed
  obtain ⟨⟨code, cache'⟩, hprewarm, rfl⟩ := hcomputed
  have hholds : Holds cache [] := (Holds.create hcache).1
  obtain ⟨hkept, hhit⟩ := prewarmed_hit_iff hholds hprewarm
  refine ⟨cache, cache', hcache, hprewarm, hspec, hrequested, ?_⟩
  exact (hhit (.willing plain_site) (get "/a" []) cache' _ hspec hkept (by decide) hrequested).mpr (by decide)

/-- The same site, configured by a path relative to the working directory. -/
def relative_site : FileSystem where
  realpath := fun path =>
    if path = bytes "srv" then some (bytes "/home/srv")
    else if path = bytes "srv/a" then some (bytes "/home/srv/a")
    else plain_realpath [bytes "/home/srv", bytes "/home/srv/a"] path
  stat := fun path => if path = bytes "srv/a" then some ⟨true, false, 1, 0⟩ else none
  open_file := fun path => if path = bytes "srv/a" then some ⟨true, 1, true, bytes "x"⟩ else none
  directory_listing := fun _ _ => none

def relative_site_config : StaticConfig := { small_site_config with root_directory := bytes "srv" }

/-- A file that was prewarmed below a relative root is not found again. -/
theorem prewarmed_missed :
    ∃ cache cache', lru_cache.uvhttp_lru_cache_create true 1000000 10 0 = .ok cache ∧
      uvhttp_static_prewarm_cache (.willing relative_site) relative_site_config cache (bytes "a") = some (.OK, cache') ∧
      requested_path relative_site relative_site_config (get "/a" []) = some (bytes "/home/srv/a") ∧
      Kept 0 cache' (bytes "srv/a") ∧
      ¬ Hit (.willing relative_site) relative_site_config (get "/a" []) cache' (bytes "srv/a") := by
  obtain ⟨cache, hcache⟩ : ∃ cache, lru_cache.uvhttp_lru_cache_create true 1000000 10 0 = .ok cache := ⟨_, rfl⟩
  have hcomputed : (uvhttp_static_prewarm_cache (.willing relative_site) relative_site_config cache (bytes "a")).any
      (fun result => result.1 = .OK) = true := by
    cases hcache
    decide +kernel
  have hrequested : requested_path relative_site relative_site_config (get "/a" []) = some (bytes "/home/srv/a") := by
    decide +kernel
  simp only [Option.any_eq_true, decide_eq_true_eq] at hcomputed
  obtain ⟨⟨code, cache'⟩, hprewarm, rfl⟩ := hcomputed
  have hholds : Holds cache [] := (Holds.create hcache).1
  have hkept : Kept 0 cache' (bytes "srv/a") := kept_prewarmed hholds hprewarm
  refine ⟨cache, cache', hcache, hprewarm, hrequested, hkept, fun hhit => ?_⟩
  have hiff : Hit (.willing relative_site) relative_site_config (get "/a" []) cache' (bytes "srv/a") ↔
      bytes "/home/srv/a" = bytes "srv/a" := hit_iff hkept hrequested
  exact absurd (hiff.mp hhit) (by decide)

end sites

end uvhttp.static_files
