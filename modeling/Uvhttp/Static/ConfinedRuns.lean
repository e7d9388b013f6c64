import Uvhttp.Static.FaithfulRuns

namespace uvhttp.static_files

open uvhttp.http hiding uvhttp_response_send uvhttp_response_send_raw
open uvhttp.output
open uvhttp.lru_cache (CacheManager CacheEntry UVHTTP_MAX_FILE_PATH_SIZE)

/-- The content of an entry, if it has one, was read within a directory. -/
def ReadWithin (root : List UInt8) (e : CacheEntry) : Prop :=
  e.content.isSome = true → ∃ target, e.origin = some target ∧ Within root target

theorem readWithin_lasting (root : List UInt8) : lru_cache.Lasting (ReadWithin root) :=
  ⟨fun _ _ h => h, fun _ _ h => h⟩

theorem readWithin_keeps {root target : List UInt8} {answers : lru_cache.PutAnswers} {put : lru_cache.PutRequest}
    (horigin : put.origin = some target) (hwithin : Within root target) :
    lru_cache.PutKeeps (ReadWithin root) answers put := by
  refine ⟨fun _ memory_usage e _ _ => ⟨target, horigin, hwithin⟩, fun _ e _ _ hcontent => ?_, fun _ hcontent => ?_⟩
  · cases hcontent
  · cases hcontent

/-- The event finds the root directory at its canonical path `root`, and what it reads
through an extended path lies there: for a request the index file or the precompressed
form of what it asks for, and the file that is prewarmed. -/
def Event.Encloses (root : List UInt8) (config : StaticConfig) : Event → Prop
  | .request sys _ asked _ => ∃ fs, (∀ moment, sys.fs moment = fs) ∧
      (∀ path target, fs.realpath path = some target → fs.realpath target = some target) ∧
      fs.realpath config.root_directory = some root ∧
      ∀ clean safe_path path st, Requested fs config asked clean safe_path →
        Selected fs config asked clean safe_path path st → path ≠ safe_path → Opens sys asked path st →
        Inside fs config.root_directory (fs.realpath path)
  | .prewarm sys file_path =>
    ∃ target, (sys.fs .read).realpath (prewarm_key config file_path) = some target ∧ Within root target
  | .cache _ op => lru_cache.Evicts op

section runs

variable {root : List UInt8} {config : StaticConfig} {cache cache' : CacheManager} {answers : List Answer}
  {sys : System} {conn : Connection} {request : Request} {response : Response} {code : UvhttpError} {x : Exchange}

/-- While the cache holds only what was read there, a request that encloses what it reads
delivers nothing else. -/
theorem request_files_within (hencloses : (Event.request sys conn request response).Encloses root config)
    (h : lru_cache.Every (ReadWithin root) cache)
    (hhandle : uvhttp_static_handle_request sys conn config request cache response = some (code, x)) :
    ∀ file ∈ x.files, ∃ target, file = some target ∧ Within root target := by
  obtain ⟨fs, hfs, hcanonical, hroot, hselected⟩ := hencloses
  have hconfinable : Confinable sys fs config request cache := by
    constructor
    · intro clean safe_path entry _ hcached hanswers
      obtain ⟨p, -, hentry⟩ := hcached.found
      obtain ⟨target, horigin, hwithin⟩ := h p entry hentry hanswers.1
      exact ⟨root, target, hroot, horigin, hwithin⟩
    · intro clean safe_path path st hrequested _ hselection hne hopens
      exact hselected clean safe_path path st hrequested hselection hne hopens
  intro file hfile
  obtain ⟨root', target, hroot', rfl, hwithin⟩ := hconfinable.files_inside hfs hcanonical hhandle file hfile
  obtain rfl := Option.some.inj (hroot.symm.trans hroot')
  exact ⟨target, rfl, hwithin⟩

/-- An event that encloses what it reads leaves a cache that holds only what was read
there. -/
theorem perform_readWithin {event : Event} (hencloses : event.Encloses root config)
    (h : lru_cache.Every (ReadWithin root) cache) (hperform : perform config cache event = some (cache', answers)) :
    lru_cache.Every (ReadWithin root) cache' := by
  cases event with
  | request sys conn request response =>
    obtain ⟨p, cache₁, code, x, hplan, hexecute, rfl, -⟩ := perform_request hperform
    have hlooked := every_plan h (readWithin_lasting root) hplan
    have hhandle : uvhttp_static_handle_request sys conn config request cache response = some (code, x) := by
      rw [uvhttp_static_handle_request, hplan]
      exact hexecute
    have hfiles := request_files_within hencloses h hhandle
    obtain hsame | ⟨path, last_modified, content, stored, -, -, hput, hmem⟩ := cache_execute hexecute
    · rw [hsame]
      exact hlooked
    · obtain ⟨target, horigin, hwithin⟩ := hfiles _ hmem
      exact hlooked.put (readWithin_keeps horigin hwithin) hput
  | prewarm sys file_path =>
    obtain ⟨⟨code, cache₁⟩, hprewarm, hdone⟩ := Option.map_eq_some_iff.mp hperform
    obtain ⟨rfl, -⟩ := Prod.mk.inj hdone
    obtain ⟨target, horigin, hwithin⟩ := hencloses
    obtain ⟨-, rfl⟩ | ⟨st, content, -, -, -, hput⟩ := prewarm_puts hprewarm
    · exact h
    · exact h.put (readWithin_keeps horigin hwithin) hput
  | cache exceeds op =>
    obtain ⟨cache₁, hstep, hdone⟩ := Option.map_eq_some_iff.mp hperform
    obtain ⟨rfl, -⟩ := Prod.mk.inj hdone
    exact h.step (readWithin_lasting root) hencloses hstep

/-- What every event keeps, a history keeps. -/
theorem history_keeps {Good : Event → Prop} {Inv : CacheManager → Prop}
    (hstep : ∀ event cache cache' answers, Good event → Inv cache →
      perform config cache event = some (cache', answers) → Inv cache')
    {events : List Event} (hgood : ∀ event ∈ events, Good event) (h : Inv cache)
    (hrun : history config cache events = some (cache', answers)) : Inv cache' := by
  induction events generalizing cache answers with
  | nil =>
    obtain ⟨rfl, -⟩ := Prod.mk.inj (Option.some.inj hrun)
    exact h
  | cons event events ih =>
    obtain ⟨hfirst, hrest⟩ := List.forall_mem_cons.mp hgood
    obtain ⟨⟨cache₁, first⟩, hperform, hrun⟩ := Option.bind_eq_some_iff.mp hrun
    obtain ⟨⟨cache₂, more⟩, hmore, hdone⟩ := Option.map_eq_some_iff.mp hrun
    obtain ⟨rfl, -⟩ := Prod.mk.inj hdone
    exact ih hrest (hstep event cache cache₁ first hfirst h hperform) hmore

/-- In a run from a new cache in which the canonical path of the root directory stays the
same and every event encloses what it reads, no request delivers a file from elsewhere,
also not from the cache. -/
theorem history_files_within {max_memory_usage : UInt64} {max_entries cache_ttl : Int}
    (hcreate : lru_cache.uvhttp_lru_cache_create true max_memory_usage max_entries cache_ttl = .ok cache)
    {events : List Event} (hencloses : ∀ event ∈ events, event.Encloses root config)
    (hrun : history config cache events = some (cache', answers))
    (hrequest : (Event.request sys conn request response).Encloses root config)
    (hhandle : uvhttp_static_handle_request sys conn config request cache' response = some (code, x)) :
    ∀ file ∈ x.files, ∃ target, file = some target ∧ Within root target := by
  have hkept := history_keeps (fun _ _ _ _ hevent h hperform => perform_readWithin hevent h hperform) hencloses
    (lru_cache.Every.create hcreate) hrun
  exact request_files_within hrequest hkept hhandle

end runs

/-- A request to the linked site for the directory `/e` or for the file `/b`. -/
theorem linked_request_encloses {sys : System} (hfs : ∀ moment, sys.fs moment = linked_site) {asked : Request}
    (hasked : asked = get "/e" [] ∨ asked = get "/b" []) :
    (Event.request sys ⟨false, false⟩ asked uvhttp_response_init).Encloses (bytes "/srv") linked_site_config := by
  refine ⟨linked_site, hfs, linked_site_canonical, by decide +kernel, ?_⟩
  intro clean safe_path path st hrequested hselected _ _
  obtain rfl | rfl := hasked
  · exact directory_inside hrequested hselected
  · have hplan : plan_located (.willing linked_site) linked_site_config (get "/b" [])
        (locate (.willing linked_site) linked_site_config (bytes "/b") (bytes "/srv/b")) =
          .small (bytes "/srv/b") 0 := by
      decide +kernel
    exact linked_site_inside requested_file hplan (by decide +kernel) hrequested hselected

/-- The linked site, with a place for the next entry of the cache. -/
def linked_system (place : Nat) : System := { System.willing linked_site with put := ⟨0, some place, true⟩ }

/-- Requests for a directory whose index file is a link within the site and for the file behind it, and once
more for that file, which is then in the cache. -/
theorem history_files_within_linked :
    let asks (place : Nat) (url : String) : Event :=
      .request (linked_system place) ⟨false, false⟩ (get url []) uvhttp_response_init
    ∃ cache cache' answers code x, (lru_cache.uvhttp_lru_cache_create true 1000000 10 0).toOption = some cache ∧
      history linked_site_config cache [asks 1 "/e", asks 2 "/b"] = some (cache', answers) ∧
      (lru_cache.hash_find_str cache' (bytes "/srv/b")).isSome = true ∧
      uvhttp_static_handle_request (linked_system 3) ⟨false, false⟩ linked_site_config (get "/b" []) cache'
        uvhttp_response_init = some (code, x) ∧ x.files = [some (bytes "/srv/b")] ∧
      ∀ file ∈ x.files, ∃ target, file = some target ∧ Within (bytes "/srv") target := by
  intro asks
  have hcomputed : (lru_cache.uvhttp_lru_cache_create true 1000000 10 0).toOption.any (fun cache =>
      (history linked_site_config cache [asks 1 "/e", asks 2 "/b"]).any fun ran =>
        (lru_cache.hash_find_str ran.1 (bytes "/srv/b")).isSome &&
          (uvhttp_static_handle_request (linked_system 3) ⟨false, false⟩ linked_site_config (get "/b" []) ran.1
            uvhttp_response_init).any fun result => result.2.files = [some (bytes "/srv/b")]) = true := by
    decide +kernel
  simp only [Option.any_eq_true, Bool.and_eq_true, decide_eq_true_eq] at hcomputed
  obtain ⟨cache, hcache, ⟨cache', answers⟩, hrun, hheld, ⟨code, x⟩, hresult, hfiles⟩ := hcomputed
  have hcreate : lru_cache.uvhttp_lru_cache_create true 1000000 10 0 = .ok cache :=
    congrArg Except.ok (Option.some.inj hcache)
  have hencloses : ∀ event ∈ [asks 1 "/e", asks 2 "/b"], event.Encloses (bytes "/srv") linked_site_config := by
    intro event hevent
    simp only [List.mem_cons, List.not_mem_nil, or_false] at hevent
    obtain rfl | rfl := hevent
    · exact linked_request_encloses (fun _ => rfl) (.inl rfl)
    · exact linked_request_encloses (fun _ => rfl) (.inr rfl)
  exact ⟨cache, cache', answers, code, x, hcache, hrun, hheld, hresult, hfiles,
    history_files_within hcreate hencloses hrun (linked_request_encloses (fun _ => rfl) (.inr rfl)) hresult⟩

end uvhttp.static_files
