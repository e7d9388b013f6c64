import Uvhttp.Static.Faithful

namespace uvhttp.static_files

open uvhttp.http hiding uvhttp_response_send uvhttp_response_send_raw
open uvhttp.output
open uvhttp.lru_cache (CacheManager CacheEntry UVHTTP_MAX_FILE_PATH_SIZE)
open uvhttp.sendfile (UVHTTP_SENDFILE_MIN_FILE_SIZE)

section histories

/-- What happens to the cache of a context: requests, prewarming, and the operations of
the cache itself. -/
inductive Event where
  | request (sys : System) (conn : Connection) (request : Request) (response : Response)
  | prewarm (sys : System) (file_path : List UInt8)
  | cache (exceeds : lru_cache.Exceeds) (op : lru_cache.Op)

/-- A request that was answered, with the plan for it and the response. -/
structure Answer where
  sys : System
  request : Request
  plan : Plan
  response : Response

def perform (config : StaticConfig) (cache : CacheManager) : Event → Option (CacheManager × List Answer)
  | .request sys conn request response =>
    (plan sys config request cache).bind fun planned =>
      (uvhttp_static_handle_request sys conn config request cache response).map fun answered =>
        (answered.2.cache, [⟨sys, request, planned.1, answered.2.response⟩])
  | .prewarm sys file_path => (uvhttp_static_prewarm_cache sys config cache file_path).map fun done => (done.2, [])
  | .cache exceeds op => (lru_cache.step exceeds cache op).map fun cache => (cache, [])

/-- One event after another, and the answers to the requests among them. -/
def history (config : StaticConfig) : CacheManager → List Event → Option (CacheManager × List Answer)
  | cache, [] => some (cache, [])
  | cache, event :: events =>
    (perform config cache event).bind fun done =>
      (history config done.1 events).map fun more => (more.1, done.2 ++ more.2)

/-- The event finds this file system, a response in which nothing is set, and a cache that
only static requests and prewarming store in. -/
def Event.Over (fs : FileSystem) : Event → Prop
  | .request sys _ _ response => (∀ moment, sys.fs moment = fs) ∧ Blank response
  | .prewarm sys _ => ∀ moment, sys.fs moment = fs
  | .cache _ op => lru_cache.Evicts op

/-- A response with status 200 from the cache or from a small file, to a request that
selects a file which is not compressed itself. -/
structure Answer.Concerns (config : StaticConfig) (answer : Answer) (file_path : List UInt8) : Prop where
  selected : selected_file answer.sys config answer.request = some file_path
  plain : ¬ bytes ".gz" <:+ file_path
  memory : answer.plan.FromMemory
  ok : answer.response.status_code = 200

/-- Every such response is faithful. -/
def AllFaithful (fs : FileSystem) (config : StaticConfig) (answers : List Answer) : Prop :=
  ∀ answer ∈ answers, ∀ file_path, answer.Concerns config file_path →
    Faithful fs answer.request file_path answer.response

/-- Every such response has a content that can be delivered. -/
def AllDeliverable (fs : FileSystem) (config : StaticConfig) (answers : List Answer) : Prop :=
  ∀ answer ∈ answers, ∀ file_path, answer.Concerns config file_path → Deliverable answer.sys fs answer.plan

/-- The memory that an event asks for a content or a body is there, and what is prewarmed
is within the limit of a body. -/
def Event.Roomy (fs : FileSystem) (config : StaticConfig) : Event → Prop
  | .request sys _ _ _ => sys.put.content = true ∧ ∀ length, sys.alloc .body length = true
  | .prewarm sys file_path =>
    sys.put.content = true ∧ ∀ content, file_content fs (prewarm_key config file_path) = some content →
      content.length ≤ UVHTTP_MAX_BODY_SIZE
  | .cache _ _ => True

/-- The size that is found in an open file is the one that `stat` reports. -/
def SizesAgree (fs : FileSystem) : Prop :=
  ∀ file_path st file, fs.stat file_path = some st → fs.open_file file_path = some file → file.size = st.size

variable {fs : FileSystem} {config : StaticConfig} {cache cache' : CacheManager} {answers : List Answer}

/-- What a request does to the cache, and the answer that is exact about it. -/
theorem perform_request {sys : System} {conn : Connection} {request : Request} {response : Response}
    (hperform : perform config cache (.request sys conn request response) = some (cache', answers)) :
    ∃ p cache₁ code x, plan sys config request cache = some (p, cache₁) ∧
      execute sys conn config request ⟨response, cache₁, [], [], [], 0⟩ p = some (code, x) ∧ cache' = x.cache ∧
        answers = [⟨sys, request, p, x.response⟩] := by
  obtain ⟨⟨p, cache₁⟩, hplan, hperform⟩ := Option.bind_eq_some_iff.mp hperform
  obtain ⟨⟨code, x⟩, hhandle, hdone⟩ := Option.map_eq_some_iff.mp hperform
  rw [uvhttp_static_handle_request, hplan] at hhandle
  obtain ⟨rfl, rfl⟩ := Prod.mk.inj hdone
  exact ⟨p, cache₁, code, x, hplan, hhandle, rfl, rfl⟩

/-- A small file that is read is a regular one. -/
theorem small_backed {sys : System} (hfs : ∀ moment, sys.fs moment = fs) {request : Request} {path : List UInt8}
    {last_modified : Int} {cache₁ : CacheManager}
    (hplan : plan sys config request cache = some (.small path last_modified, cache₁)) {content : List UInt8}
    (hread : read_file_content (sys.fs .read) (sys.alloc .read) path = some content) : Backed fs path content := by
  obtain ⟨file_path, file_size, -, hinfo, -, -⟩ := selected_small hfs hplan
  rw [hfs] at hread
  exact ⟨get_file_info_regular hinfo, file_content_of_read hread⟩

/-- A small file fits a body. -/
theorem small_file_le {sys : System} (hsizes : SizesAgree fs) (hfs : ∀ moment, sys.fs moment = fs) {request : Request}
    {path : List UInt8} {last_modified : Int} {cache₁ : CacheManager}
    (hplan : plan sys config request cache = some (.small path last_modified, cache₁)) {content : List UInt8}
    (hcontent : file_content fs path = some content) : content.length ≤ UVHTTP_MAX_BODY_SIZE := by
  obtain ⟨file_path, file_size, -, hinfo, hsmall, -⟩ := selected_small hfs hplan
  obtain ⟨st, file, hstat, hopen, hsize, hlength⟩ := file_content_size hcontent hinfo
  have hagree := hsizes path st file hstat hopen
  have hlimit : UVHTTP_SENDFILE_MIN_FILE_SIZE ≤ UVHTTP_MAX_BODY_SIZE := by decide
  omega

/-- A request that is answered from the cache. -/
theorem perform_hit {sys : System} (conn : Connection) {request : Request} {entry : CacheEntry}
    (hplan : plan sys config request cache = some (.cached entry, cache'))
    (response : Response) :
    let x : Exchange := (serve_cached sys conn request entry ⟨response, cache', [], [], [], 0⟩).2
    perform config cache (.request sys conn request response) =
      some (x.cache, [⟨sys, request, .cached entry, x.response⟩]) := by
  rw [perform, uvhttp_static_handle_request, hplan]
  rfl

/-- An answer of an event is the one to its request. -/
theorem perform_answer {event : Event} (hperform : perform config cache event = some (cache', answers))
    {answer : Answer} (hanswer : answer ∈ answers) :
    ∃ conn response cache₁ code x, event = .request answer.sys conn answer.request response ∧
      plan answer.sys config answer.request cache = some (answer.plan, cache₁) ∧
      execute answer.sys conn config answer.request ⟨response, cache₁, [], [], [], 0⟩ answer.plan = some (code, x) ∧
      answer.response = x.response := by
  cases event with
  | request sys conn request response =>
    obtain ⟨p, cache₁, code, x, hplan, hexecute, -, rfl⟩ := perform_request hperform
    obtain rfl := List.mem_singleton.mp hanswer
    exact ⟨conn, response, cache₁, code, x, rfl, hplan, hexecute, rfl⟩
  | prewarm sys file_path =>
    obtain ⟨done, -, hdone⟩ := Option.map_eq_some_iff.mp hperform
    obtain ⟨-, rfl⟩ := Prod.mk.inj hdone
    cases hanswer
  | cache exceeds op =>
    obtain ⟨done, -, hdone⟩ := Option.map_eq_some_iff.mp hperform
    obtain ⟨-, rfl⟩ := Prod.mk.inj hdone
    cases hanswer

/-- A content that an event stores: that of a regular file, and with memory for it one
that fits a body. -/
structure Stores (fs : FileSystem) (config : StaticConfig) (event : Event) (put_answers : lru_cache.PutAnswers)
    (put : lru_cache.PutRequest) : Prop where
  backed : Backed fs put.file_path put.content
  roomy : event.Roomy fs config → put_answers.content = true
  short : SizesAgree fs → event.Roomy fs config → put.content.length ≤ UVHTTP_MAX_BODY_SIZE

/-- What an event does to the cache: it looks up and evicts entries, and then it may store
a file. -/
theorem perform_stores {event : Event} (hover : event.Over fs)
    (hperform : perform config cache event = some (cache', answers)) :
    ∃ cache₁, (∀ P, lru_cache.Lasting P → lru_cache.Every P cache → lru_cache.Every P cache₁) ∧
      (cache' = cache₁ ∨ ∃ exceeds put_answers put code, Stores fs config event put_answers put ∧
        lru_cache.uvhttp_lru_cache_put exceeds put_answers cache₁ put = some (code, cache')) := by
  cases event with
  | request sys conn request response =>
    obtain ⟨p, cache₁, code, x, hplan, hexecute, rfl, -⟩ := perform_request hperform
    refine ⟨cache₁, fun P hlasting h => every_plan h hlasting hplan, ?_⟩
    obtain hsame | ⟨path, last_modified, content, stored, rfl, hread, hput, -⟩ := cache_execute hexecute
    · exact .inl hsame
    · have hbacked := small_backed hover.1 hplan hread
      have hshort : SizesAgree fs → content.length ≤ UVHTTP_MAX_BODY_SIZE :=
        fun hsizes => small_file_le hsizes hover.1 hplan hbacked.content
      exact .inr ⟨_, _, _, _, ⟨hbacked, fun hroomy => hroomy.1, fun hsizes _ => hshort hsizes⟩, hput⟩
  | prewarm sys file_path =>
    obtain ⟨⟨code, cache₁⟩, hprewarm, hdone⟩ := Option.map_eq_some_iff.mp hperform
    obtain ⟨rfl, -⟩ := Prod.mk.inj hdone
    refine ⟨cache, fun P _ h => h, ?_⟩
    obtain rfl | ⟨st, content, hbacked, hput⟩ := prewarm_stores hover hprewarm
    · exact .inl rfl
    · have hshort : (Event.prewarm sys file_path).Roomy fs config → content.length ≤ UVHTTP_MAX_BODY_SIZE :=
        fun hroomy => hroomy.2 content hbacked.content
      exact .inr ⟨_, _, _, _, ⟨hbacked, fun hroomy => hroomy.1, fun _ hroomy => hshort hroomy⟩, hput⟩
  | cache exceeds op =>
    obtain ⟨cache₁, hstep, hdone⟩ := Option.map_eq_some_iff.mp hperform
    obtain ⟨rfl, -⟩ := Prod.mk.inj hdone
    exact ⟨cache₁, fun P hlasting h => h.step hlasting hover hstep, .inl rfl⟩

/-- What holds of the entries is kept by an event, where it is of what the event stores. -/
theorem every_perform {P : CacheEntry → Prop} (hlasting : lru_cache.Lasting P) {event : Event} (hover : event.Over fs)
    (hkeeps : ∀ put_answers put, Stores fs config event put_answers put → lru_cache.PutKeeps P put_answers put)
    (h : lru_cache.Every P cache) (hperform : perform config cache event = some (cache', answers)) :
    lru_cache.Every P cache' := by
  obtain ⟨cache₁, hkept, hcache⟩ := perform_stores hover hperform
  have hfound := hkept P hlasting h
  obtain rfl | ⟨exceeds, put_answers, put, code, hstores, hput⟩ := hcache
  · exact hfound
  · exact hfound.put (hkeeps put_answers put hstores) hput

/-- Every entry has what its file has, or has lost it. -/
theorem perform_mirrors {event : Event} (hover : event.Over fs) (h : lru_cache.Every (Mirrors fs) cache)
    (hperform : perform config cache event = some (cache', answers)) : lru_cache.Every (Mirrors fs) cache' := by
  apply every_perform (mirrors_lasting fs) hover _ h hperform
  intro put_answers put hstores
  exact mirrors_keeps hstores.backed

/-- Without a failed allocation every entry has a content that finds room in a body. -/
theorem perform_hasBody (hsizes : SizesAgree fs) {event : Event} (hover : event.Over fs)
    (hroomy : event.Roomy fs config) (h : lru_cache.Every HasBody cache)
    (hperform : perform config cache event = some (cache', answers)) : lru_cache.Every HasBody cache' := by
  apply every_perform hasBody_lasting hover _ h hperform
  intro put_answers put hstores
  exact hasBody_keeps (hstores.roomy hroomy) (hstores.short hsizes hroomy)

/-- Every answer of an event is faithful exactly when its content can be delivered. -/
theorem perform_exact (hspec : RealpathSpec fs.realpath) {event : Event} (hover : event.Over fs)
    (h : lru_cache.Every (Mirrors fs) cache) (hperform : perform config cache event = some (cache', answers)) :
    ∀ answer ∈ answers, ∀ file_path, answer.Concerns config file_path →
      (Faithful fs answer.request file_path answer.response ↔ Deliverable answer.sys fs answer.plan) := by
  intro answer hanswer file_path hconcerns
  obtain ⟨conn, response, cache₁, code, x, rfl, hplan, hexecute, hresponse⟩ := perform_answer hperform hanswer
  have hok := hconcerns.ok
  rw [hresponse] at hok ⊢
  exact faithful_iff_deliverable hover.1 hspec h hover.2 hplan hexecute hconcerns.memory hconcerns.selected
    hconcerns.plain hok

/-- Without a failed allocation every answer of an event can be delivered. -/
theorem perform_deliverable (hsizes : SizesAgree fs) {event : Event} (hover : event.Over fs)
    (hroomy : event.Roomy fs config) (h : lru_cache.Every (Mirrors fs) cache) (hbody : lru_cache.Every HasBody cache)
    (hperform : perform config cache event = some (cache', answers)) :
    ∀ answer ∈ answers, Deliverable answer.sys fs answer.plan := by
  intro answer hanswer content stored hathand
  obtain ⟨conn, response, cache₁, code, x, rfl, hplan, -, -⟩ := perform_answer hperform hanswer
  generalize hp : answer.plan = p at hplan hathand
  cases hathand with
  | cached hcontent =>
    obtain ⟨q, hentry⟩ := plan_cached_entry hplan
    obtain ⟨content', hstored, hshort⟩ := every_plan hbody hasBody_lasting hplan q _ hentry
    obtain ⟨content'', hbacked, hmirrors⟩ := every_plan h (mirrors_lasting fs) hplan q _ hentry
    obtain rfl := Option.some.inj (hcontent.symm.trans hbacked.content)
    have hwhole := hmirrors.cases
    rw [hstored] at hwhole ⊢
    obtain hsame | hlost := hwhole
    · obtain rfl := Option.some.inj hsame
      exact .inr ⟨rfl, hshort, hroomy.2 _⟩
    · cases hlost
  | small hcontent => exact .inr ⟨rfl, small_file_le hsizes hover.1 hplan hcontent, hroomy.2 _⟩

/-- What an event keeps of the cache and says of its answers holds of all answers of a
history. -/
theorem history_answers {Good : Event → Prop} {Inv : CacheManager → Prop} {Says : Answer → Prop}
    (hstep : ∀ event cache cache' answers, Good event → Inv cache →
      perform config cache event = some (cache', answers) → Inv cache' ∧ ∀ answer ∈ answers, Says answer)
    {events : List Event} (hgood : ∀ event ∈ events, Good event) (h : Inv cache)
    (hrun : history config cache events = some (cache', answers)) : ∀ answer ∈ answers, Says answer := by
  induction events generalizing cache answers with
  | nil =>
    obtain ⟨-, rfl⟩ := Prod.mk.inj (Option.some.inj hrun)
    exact fun answer hanswer => by cases hanswer
  | cons event events ih =>
    obtain ⟨hfirst, hrest⟩ := List.forall_mem_cons.mp hgood
    obtain ⟨⟨cache₁, first⟩, hperform, hrun⟩ := Option.bind_eq_some_iff.mp hrun
    obtain ⟨⟨cache₂, more⟩, hmore, hdone⟩ := Option.map_eq_some_iff.mp hrun
    obtain ⟨rfl, rfl⟩ := Prod.mk.inj hdone
    obtain ⟨hkept, hsays⟩ := hstep event cache cache₁ first hfirst h hperform
    intro answer hanswer
    rcases List.mem_append.mp hanswer with hnow | hlater
    · exact hsays answer hnow
    · exact ih hrest hkept hmore answer hlater

theorem history_two {cache₁ cache₂ : CacheManager} {event event' : Event} {answers' : List Answer}
    (h : perform config cache event = some (cache₁, answers))
    (h' : perform config cache₁ event' = some (cache₂, answers')) :
    history config cache [event, event'] = some (cache₂, answers ++ (answers' ++ [])) := by
  rw [history, h, Option.bind_some, history, h', Option.bind_some]
  rfl

theorem history_exact (hspec : RealpathSpec fs.realpath) {events : List Event}
    (hover : ∀ event ∈ events, event.Over fs) (h : lru_cache.Every (Mirrors fs) cache)
    (hrun : history config cache events = some (cache', answers)) :
    ∀ answer ∈ answers, ∀ file_path, answer.Concerns config file_path →
      (Faithful fs answer.request file_path answer.response ↔ Deliverable answer.sys fs answer.plan) := by
  have hstep : ∀ (event : Event) (cache cache' : CacheManager) (answers : List Answer), event.Over fs →
      lru_cache.Every (Mirrors fs) cache → perform config cache event = some (cache', answers) →
      lru_cache.Every (Mirrors fs) cache' ∧ ∀ answer ∈ answers, ∀ file_path, answer.Concerns config file_path →
        (Faithful fs answer.request file_path answer.response ↔ Deliverable answer.sys fs answer.plan) :=
    fun event cache cache' answers hevent hmirrors hperform =>
      ⟨perform_mirrors hevent hmirrors hperform, perform_exact hspec hevent hmirrors hperform⟩
  exact history_answers hstep hover h hrun

theorem history_deliverable (hsizes : SizesAgree fs) {events : List Event}
    (hover : ∀ event ∈ events, event.Over fs) (hroomy : ∀ event ∈ events, event.Roomy fs config)
    (h : lru_cache.Every (Mirrors fs) cache) (hbody : lru_cache.Every HasBody cache)
    (hrun : history config cache events = some (cache', answers)) : AllDeliverable fs config answers := by
  have hgood : ∀ event ∈ events, event.Over fs ∧ event.Roomy fs config :=
    fun event hevent => ⟨hover event hevent, hroomy event hevent⟩
  have hstep : ∀ (event : Event) (cache cache' : CacheManager) (answers : List Answer),
      event.Over fs ∧ event.Roomy fs config →
      lru_cache.Every (Mirrors fs) cache ∧ lru_cache.Every HasBody cache →
      perform config cache event = some (cache', answers) →
      (lru_cache.Every (Mirrors fs) cache' ∧ lru_cache.Every HasBody cache') ∧
        ∀ answer ∈ answers, Deliverable answer.sys fs answer.plan := by
    rintro event cache cache' answers ⟨hevent, hroom⟩ ⟨hmirrors, hhas⟩ hperform
    exact ⟨⟨perform_mirrors hevent hmirrors hperform, perform_hasBody hsizes hevent hroom hhas hperform⟩,
      perform_deliverable hsizes hevent hroom hmirrors hhas hperform⟩
  exact fun answer hanswer _ _ => history_answers hstep hgood ⟨h, hbody⟩ hrun answer hanswer

/-- The responses of a history are faithful exactly when each finds its content at hand
and within the limit of a body, with memory for it. This is so when no allocation of a
content or a body fails and no larger file is prewarmed. -/
theorem faithful_history_iff (hspec : RealpathSpec fs.realpath) {alloc : Bool} {max_memory_usage : UInt64}
    {max_entries cache_ttl : Int}
    (hcreate : lru_cache.uvhttp_lru_cache_create alloc max_memory_usage max_entries cache_ttl = .ok cache)
    {events : List Event} (hover : ∀ event ∈ events, event.Over fs)
    (hrun : history config cache events = some (cache', answers)) :
    (AllFaithful fs config answers ↔ AllDeliverable fs config answers) ∧
      (SizesAgree fs → (∀ event ∈ events, event.Roomy fs config) → AllFaithful fs config answers) := by
  have hexact := history_exact hspec hover (lru_cache.Every.create hcreate) hrun
  have hiff : AllFaithful fs config answers ↔ AllDeliverable fs config answers :=
    ⟨fun h answer hanswer file_path hconcerns =>
        (hexact answer hanswer file_path hconcerns).mp (h answer hanswer file_path hconcerns),
      fun h answer hanswer file_path hconcerns =>
        (hexact answer hanswer file_path hconcerns).mpr (h answer hanswer file_path hconcerns)⟩
  refine ⟨hiff, fun hsizes hroomy => hiff.mpr ?_⟩
  exact history_deliverable hsizes hover hroomy (lru_cache.Every.create hcreate) (lru_cache.Every.create hcreate) hrun

end histories

section sites

/-- A site of regular files below `/srv`, without links. -/
def file_site (files : List (List UInt8 × List UInt8)) : FileSystem where
  realpath := plain_realpath (bytes "/srv" :: files.map Prod.fst)
  stat := fun path => (files.lookup path).map fun content => ⟨true, false, content.length, 0⟩
  open_file := fun path => (files.lookup path).map fun content => ⟨true, content.length, true, content⟩
  directory_listing := fun _ _ => none

theorem file_site_sizesAgree (files : List (List UInt8 × List UInt8)) : SizesAgree (file_site files) := by
  intro file_path st file hstat hopen
  obtain ⟨content, hlookup, rfl⟩ := Option.map_eq_some_iff.mp hstat
  obtain ⟨content', hlookup', rfl⟩ := Option.map_eq_some_iff.mp hopen
  obtain rfl := Option.some.inj (hlookup.symm.trans hlookup')
  rfl

theorem file_site_content {files : List (List UInt8 × List UInt8)} {file_path content : List UInt8}
    (hlookup : files.lookup file_path = some content) : file_content (file_site files) file_path = some content := by
  have hopen : (file_site files).open_file file_path = some ⟨true, content.length, true, content⟩ := by
    simp only [file_site, hlookup, Option.map_some]
  rw [file_content, read_file_content, hopen]
  simp

/-- A site with a file and its precompressed form. -/
def gzip_site : FileSystem := file_site [(bytes "/srv/b", List.replicate 512 98), (bytes "/srv/b.gz", bytes "k")]

/-- Clients that accept the precompressed form, and one that does not between them. -/
def gzip_events : List Event :=
  let gzip : List Header := [⟨bytes "Accept-Encoding", bytes "gzip"⟩]
  [(1, gzip), (2, []), (3, gzip)].map fun client =>
    .request { System.willing gzip_site with put := ⟨0, some client.1, true⟩ } ⟨false, false⟩ (get "/b" client.2)
      uvhttp_response_init

theorem faithful_history_iff_gzip :
    ∃ cache cache' answers, lru_cache.uvhttp_lru_cache_create true 1000000 10 0 = .ok cache ∧
      history linked_site_config cache gzip_events = some (cache', answers) ∧ answers.length = 3 ∧
        ∀ answer ∈ answers, Faithful gzip_site answer.request (bytes "/srv/b") answer.response := by
  obtain ⟨cache, hcreate⟩ : ∃ cache, lru_cache.uvhttp_lru_cache_create true 1000000 10 0 = .ok cache := ⟨_, rfl⟩
  have hcomputed : (history linked_site_config cache gzip_events).any (fun result =>
      result.2.length = 3 && result.2.all fun answer =>
        selected_file answer.sys linked_site_config answer.request = some (bytes "/srv/b") && answer.plan.FromMemory &&
          answer.response.status_code = 200) = true := by
    cases hcreate
    decide +kernel
  simp only [Option.any_eq_true, Bool.and_eq_true, List.all_eq_true, decide_eq_true_eq] at hcomputed
  obtain ⟨⟨cache', answers⟩, hrun, hcount, hall⟩ := hcomputed
  have hfiles : ∀ file ∈ [bytes "/srv", bytes "/srv/b", bytes "/srv/b.gz"], Canonical file := by
    simp only [List.forall_mem_cons, List.not_mem_nil, false_implies, implies_true, and_true]
    exact ⟨⟨[bytes "srv"], by simp only [ProperName]; decide, rfl⟩,
      ⟨[bytes "srv", bytes "b"], by simp only [ProperName]; decide, rfl⟩,
      ⟨[bytes "srv", bytes "b.gz"], by simp only [ProperName]; decide, rfl⟩⟩
  have hspec : RealpathSpec gzip_site.realpath := realpathSpec_plain hfiles (by decide)
  have hevents : ∀ event ∈ gzip_events, event.Over gzip_site ∧ event.Roomy gzip_site linked_site_config := by
    simp only [gzip_events, List.forall_mem_map]
    exact fun client _ => ⟨⟨fun _ => rfl, responseTable_init, rfl, rfl⟩, rfl, fun _ => rfl⟩
  have hfaithful := (faithful_history_iff hspec hcreate (fun event hevent => (hevents event hevent).1) hrun).2
    (file_site_sizesAgree _) fun event hevent => (hevents event hevent).2
  refine ⟨cache, cache', answers, hcreate, hrun, hcount, fun answer hanswer => ?_⟩
  obtain ⟨⟨hselected, hmemory⟩, hok⟩ := hall answer hanswer
  exact hfaithful answer hanswer _ ⟨hselected, by decide, hmemory, hok⟩

def oversize_site (content : List UInt8) : FileSystem := file_site [(bytes "/srv/b", content)]

def oversize_config : StaticConfig := { linked_site_config with max_file_size := 10485760 }

variable {content : List UInt8} {cache : CacheManager}

theorem oversize_realpathSpec (content : List UInt8) : RealpathSpec (oversize_site content).realpath := by
  have hfiles : ∀ file ∈ [bytes "/srv", bytes "/srv/b"], Canonical file := by
    simp only [List.forall_mem_cons, List.not_mem_nil, false_implies, implies_true, and_true]
    exact ⟨⟨[bytes "srv"], by simp only [ProperName]; decide, rfl⟩,
      ⟨[bytes "srv", bytes "b"], by simp only [ProperName]; decide, rfl⟩⟩
  have hempty : [] ∉ [bytes "/srv", bytes "/srv/b"] := by decide
  exact realpathSpec_plain hfiles hempty

/-- A file that is larger than a body goes into a new cache. -/
theorem oversize_prewarmed (hlength : content.length = UVHTTP_MAX_BODY_SIZE + 1)
    (hcreate : lru_cache.uvhttp_lru_cache_create true 104857600 10 0 = .ok cache) :
    ∃ cache', uvhttp_static_prewarm_cache (.willing (oversize_site content)) oversize_config cache (bytes "b") =
      some (.OK, cache') := by
  have hkey : prewarm_key oversize_config (bytes "b") = bytes "/srv/b" := by decide
  have hstat : (oversize_site content).stat (bytes "/srv/b") = some ⟨true, false, content.length, 0⟩ := rfl
  have hread : read_file_content (oversize_site content) (fun _ => true) (bytes "/srv/b") = some content :=
    file_site_content rfl
  have hmax : ¬ content.length > oversize_config.max_file_size := by
    rw [hlength]
    decide
  have hshort : ¬ (bytes "/srv/b").length ≥ UVHTTP_MAX_FILE_PATH_SIZE := by decide
  simp only [uvhttp_static_prewarm_cache, hkey, if_neg hshort, System.willing, hstat, Bool.not_true, Bool.false_eq_true,
    if_false, if_neg hmax, hread]
  apply lru_cache.put_new_ok hcreate
  · rw [lru_cache.TooLarge, hlength]
    cases hcreate
    decide
  · rw [lru_cache.needs_room, lru_cache.entry_usage, hlength]
    cases hcreate
    decide
  · rfl
  · rfl
  · exact Nat.not_le.mp hshort

theorem oversize_requested (content : List UInt8) (request : Request) (hurl : request.url = bytes "/b") :
    requested_path (oversize_site content) oversize_config request = some (bytes "/srv/b") := by
  rw [requested_path, hurl]
  show (clean_path (bytes "/b") (bytes "index.html")).bind (fun clean =>
    uvhttp_static_resolve_safe_path (plain_realpath [bytes "/srv", bytes "/srv/b"]) (bytes "/srv") clean
      UVHTTP_MAX_FILE_PATH_SIZE) = some (bytes "/srv/b")
  decide +kernel

/-- A file is prewarmed, and then requested. -/
def oversize_events (content : List UInt8) : List Event :=
  [.prewarm (.willing (oversize_site content)) (bytes "b"),
    .request (.willing (oversize_site content)) ⟨false, false⟩ (get "/b" []) uvhttp_response_init]

/-- A prewarmed file that is larger than a body is announced with its length, and its
response has no body. -/
theorem faithful_history_oversize :
    let content : List UInt8 := List.replicate (UVHTTP_MAX_BODY_SIZE + 1) 120
    ∃ cache cache' answers,
      RealpathSpec (oversize_site content).realpath ∧
        lru_cache.uvhttp_lru_cache_create true 104857600 10 0 = .ok cache ∧
        (∀ event ∈ oversize_events content, event.Over (oversize_site content)) ∧
        history oversize_config cache (oversize_events content) = some (cache', answers) ∧
        ¬ AllFaithful (oversize_site content) oversize_config answers := by
  intro content
  have hlength : content.length = UVHTTP_MAX_BODY_SIZE + 1 := List.length_replicate
  clear_value content
  obtain ⟨cache, hcreate⟩ : ∃ cache, lru_cache.uvhttp_lru_cache_create true 104857600 10 0 = .ok cache := ⟨_, rfl⟩
  obtain ⟨warm, hprewarm⟩ := oversize_prewarmed hlength hcreate
  have hspec := oversize_realpathSpec content
  have hover : ∀ event ∈ oversize_events content, event.Over (oversize_site content) := by
    simp only [oversize_events, List.forall_mem_cons, List.not_mem_nil, false_implies, implies_true, and_true]
    exact ⟨fun _ => rfl, fun _ => rfl, ⟨responseTable_init, rfl, rfl⟩⟩
  have hkept := kept_prewarmed (lru_cache.Holds.create hcreate).1 hprewarm
  have hhit : Hit (.willing (oversize_site content)) oversize_config (get "/b" []) warm (bytes "/srv/b") :=
    (hit_iff hkept (oversize_requested content _ rfl)).mpr rfl
  obtain ⟨entry, cache', hplan, hkey⟩ := hhit
  have hanswered := perform_hit ⟨false, false⟩ hplan uvhttp_response_init
  have hwarmed : perform oversize_config cache (.prewarm (.willing (oversize_site content)) (bytes "b")) =
      some (warm, []) := by
    rw [perform, hprewarm]
    rfl
  have hrun := history_two hwarmed hanswered
  refine ⟨cache, _, _, hspec, hcreate, hover, hrun, fun hall => ?_⟩
  have hwarm := perform_mirrors (List.forall_mem_cons.mp hover).1 (lru_cache.Every.create hcreate) hwarmed
  obtain ⟨hselected, -⟩ := selected_cached (fun _ => rfl) hwarm hplan
  rw [hkey] at hselected
  have hconcerns : Answer.Concerns oversize_config ⟨.willing (oversize_site content), get "/b" [], .cached entry,
      (serve_cached (.willing (oversize_site content)) ⟨false, false⟩ (get "/b" []) entry
        ⟨uvhttp_response_init, cache', [], [], [], 0⟩).2.response⟩ (bytes "/srv/b") :=
    ⟨hselected, by decide, trivial, serve_cached_ok rfl rfl⟩
  have hfaithful := hall _ (List.mem_singleton.mpr rfl) _ hconcerns
  have hdeliverable := (history_exact hspec hover (lru_cache.Every.create hcreate) hrun _ (List.mem_singleton.mpr rfl) _
    hconcerns).mp hfaithful
  have hathand : AtHand (oversize_site content) (.cached entry) content entry.content := by
    apply AtHand.cached
    rw [hkey]
    exact file_site_content rfl
  rcases hdeliverable content entry.content hathand with rfl | ⟨-, hshort, -⟩
  · cases hlength
  · rw [hlength] at hshort
    exact absurd hshort (by decide)

end sites

end uvhttp.static_files
