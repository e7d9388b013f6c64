import Uvhttp.Http.Framing
import Uvhttp.Http.GzipRefinement

namespace uvhttp.gzip

open http

/-- A response that the server builds: the allocator and the clock at that time,
and what the handler has set. -/
structure Build where
  alloc : Nat → Bool
  now : Int
  response : FullResponse

/-- The response with the cache that all responses of the server share. -/
def Build.on (b : Build) (cache : GzipCache) : FullResponse := { b.response with gzip_cache := some cache }

/-- The body, where compression is on and the body is long enough for it. -/
def Build.candidate (b : Build) : Option (List UInt8) :=
  b.response.body.filter fun body => b.response.compress && body.length ≥ size_t b.response.compress_threshold

/-- The shared cache after the response has been built. -/
def cache_after (codec : Codec) (cache : GzipCache) (b : Build) : GzipCache :=
  (uvhttp_response_build_data b.alloc codec b.now (b.on cache)).2.gzip_cache.getD cache

/-- If the response goes out with a gzip body, then that is its own body
compressed. -/
def OwnBody (codec : Codec) (gunzip : List UInt8 → Option (List UInt8)) (cache : GzipCache) (b : Build) : Prop :=
  ∀ data r', uvhttp_response_build_data b.alloc codec b.now (b.on cache) = (.ok data, r') →
    ∀ stream, replacement b.alloc codec b.now (b.on cache) = some stream →
      (∃ headers, data = headers ++ stream) ∧ gunzip stream = b.response.body

/-- Every response of the history has its own body. -/
def OwnBodies (codec : Codec) (gunzip : List UInt8 → Option (List UInt8)) (cache : GzipCache) : List Build → Prop
  | [] => True
  | b :: builds => OwnBody codec gunzip cache b ∧ OwnBodies codec gunzip (cache_after codec cache b) builds

/-- What is deflated and wrapped as `uvhttp_compress_gzip` does it can be unpacked
again. -/
def Codec.Correct (codec : Codec) (gunzip : List UInt8 → Option (List UInt8)) : Prop :=
  ∀ body deflated, codec.deflate body = some deflated →
    gunzip ([0x1f, 0x8b, 0x08, 0x00, 0x00, 0x00, 0x00, 0x00, 0x00, 0xff] ++ deflated ++ le32 (codec.crc32 body) ++
      le32 body.length) = some body

/-- Bodies that zlib can count, of which no two of the same length have the same
hash. -/
structure Separated (codec : Codec) (bodies : List (List UInt8)) : Prop where
  countable : ∀ body ∈ bodies, body.length < 2 ^ 32
  distinct : ∀ body ∈ bodies, ∀ other ∈ bodies, body.length = other.length → codec.hash body = codec.hash other →
    body = other

/-- The bodies of the history that are candidates for compression. -/
def candidates (builds : List Build) : List (List UInt8) := builds.filterMap Build.candidate

/-- Every stream in the cache is the compression of one of the bodies, under the
key of that body. -/
def Genuine (codec : Codec) (gunzip : List UInt8 → Option (List UInt8)) (bodies : List (List UInt8))
    (cache : GzipCache) : Prop :=
  ∃ log, cache.Matches log ∧ ∀ key held, contents log key = some held →
    ∃ body ∈ bodies, key = (codec.hash body, body.length) ∧ gunzip held.1 = some body

/-- What the map has after more events, it had before or was stored since. -/
theorem contents_append_cases {log events : List GzipEvent} {key : Key} {held : Held}
    (h : contents (log ++ events) key = some held) :
    contents log key = some held ∨ GzipEvent.stored key held.1 held.2 ∈ events := by
  induction events using List.reverseRecOn with
  | nil =>
    rw [List.append_nil] at h
    exact .inl h
  | append_singleton events event ih =>
    rw [← List.append_assoc, contents_append] at h
    have hbefore : contents (log ++ events) key = some held → contents log key = some held ∨
        GzipEvent.stored key held.1 held.2 ∈ events ++ [event] := by
      intro hheld
      exact (ih hheld).imp_right (List.mem_append_left _)
    cases event with
    | stored key' data' now =>
      simp only [GzipEvent.apply] at h
      split at h
      · rename_i hkey
        cases h
        right
        rw [hkey]
        exact List.mem_append_right _ List.mem_cons_self
      · exact hbefore h
    | evicted key' =>
      simp only [GzipEvent.apply] at h
      split at h
      · cases h
      · exact hbefore h
    | expired key' now cache_ttl =>
      simp only [GzipEvent.apply] at h
      split at h
      · cases h
      · exact hbefore h
    | cleared => cases h

section history

variable {codec : Codec} {gunzip : List UInt8 → Option (List UInt8)} {bodies : List (List UInt8)} {cache : GzipCache}

/-- A lookup leaves genuine streams, and finds one. -/
theorem Genuine.find (h : Genuine codec gunzip bodies cache) (hsound : cache.Sound) (now : Int) (hash : UInt64)
    (body_len : Nat) :
    (uvhttp_gzip_cache_find cache now hash body_len).2.Sound ∧
      Genuine codec gunzip bodies (uvhttp_gzip_cache_find cache now hash body_len).2 ∧
      ∀ data, (uvhttp_gzip_cache_find cache now hash body_len).1 = some data →
        ∃ body ∈ bodies, (hash, body_len) = (codec.hash body, body.length) ∧ gunzip data = some body := by
  obtain ⟨log, hmatches, hheld⟩ := h
  obtain ⟨events, hchanges, hexpired, -, hanswer⟩ := find_spec hsound now hash body_len
  have hafter : ∀ key held, contents (log ++ events) key = some held →
      ∃ body ∈ bodies, key = (codec.hash body, body.length) ∧ gunzip held.1 = some body := by
    intro key held hcontents
    rcases contents_append_cases hcontents with hbefore | hstored
    · exact hheld key held hbefore
    · obtain ⟨e, -, -, heq, -⟩ := hexpired _ hstored
      cases heq
  refine ⟨hchanges.sound hsound, ⟨log ++ events, hchanges.matches hsound hmatches, hafter⟩, ?_⟩
  intro data hdata
  rw [(hanswer log hmatches).1] at hdata
  obtain ⟨held, hcontents, rfl⟩ := Option.map_eq_some_iff.mp hdata
  exact hafter _ held hcontents

/-- Storing the compression of a body under its key leaves genuine streams. -/
theorem Genuine.put (h : Genuine codec gunzip bodies cache) (hsound : cache.Sound) (alloc : Nat → Bool) (now : Int)
    {body data : List UInt8} (hbody : body ∈ bodies) (hdata : gunzip data = some body) :
    (uvhttp_gzip_cache_put alloc cache now (codec.hash body) body.length data).2.Sound ∧
      Genuine codec gunzip bodies (uvhttp_gzip_cache_put alloc cache now (codec.hash body) body.length data).2 := by
  obtain ⟨log, hmatches, hheld⟩ := h
  obtain ⟨removed, hevicted, hput, -⟩ := put_spec alloc hsound now (codec.hash body) body.length data
  have hremoved : ∀ key other time, GzipEvent.stored key other time ∉ removed := by
    intro key other time hmem
    obtain ⟨key', heq⟩ := hevicted _ hmem
    cases heq
  cases hput with
  | stored hok hchanges =>
    refine ⟨hchanges.sound hsound, _, hchanges.matches hsound hmatches, ?_⟩
    intro key other hother
    rcases contents_append_cases hother with hbefore | hstored
    · exact hheld key other hbefore
    · rcases List.mem_append.mp hstored with hfirst | hlast
      · exact absurd hfirst (hremoved key other.1 other.2)
      · obtain ⟨rfl, rfl, -⟩ := GzipEvent.stored.inj (List.mem_singleton.mp hlast)
        exact ⟨body, hbody, rfl, hdata⟩
  | skipped hnot hchanges =>
    refine ⟨hchanges.sound hsound, _, hchanges.matches hsound hmatches, ?_⟩
    intro key other hother
    rcases contents_append_cases hother with hbefore | hstored
    · exact hheld key other hbefore
    · exact absurd hstored (hremoved key other.1 other.2)

/-- A body that zlib can count is compressed to a stream that unpacks to it. -/
theorem compress_gzip_right (hcodec : codec.Correct gunzip) {alloc : Nat → Bool} {body stream : List UInt8}
    (hlen : body.length < 2 ^ 32) (h : uvhttp_compress_gzip alloc codec body = .ok stream) :
    gunzip stream = some body := by
  unfold uvhttp_compress_gzip at h
  rw [List.take_of_length_le (by omega)] at h
  split at h
  · cases h
  · split at h
    · cases h
    · cases hdeflate : codec.deflate body with
      | none =>
        rw [hdeflate] at h
        cases h
      | some deflated =>
        rw [hdeflate] at h
        cases h
        exact hcodec body deflated hdeflate

/-- Building a response changes it in the compression step only. -/
theorem build_data_snd (alloc : Nat → Bool) (codec : Codec) (now : Int) (r : FullResponse) :
    (uvhttp_response_build_data alloc codec now r).2 = (compress_body alloc codec now r).2 := by
  unfold uvhttp_response_build_data
  rcases compress_body alloc codec now r with ⟨compressed, after⟩
  dsimp only
  generalize (if (build_response_headers _ _).2 ≥ _ then _ else _ : Option (List UInt8 × Nat)) = rebuilt
  generalize (if compressed.isSome = true then compressed else after.body) = body_to_send
  split
  · rfl
  · cases rebuilt with
    | none => rfl
    | some built =>
      dsimp only
      split
      · rfl
      · rfl

/-- The data of a response ends with the stream that goes out in place of the
body. -/
theorem build_data_suffix {alloc : Nat → Bool} {now : Int} {r r' : FullResponse} {data stream : List UInt8}
    (h : uvhttp_response_build_data alloc codec now r = (.ok data, r'))
    (hstream : replacement alloc codec now r = some stream) : ∃ headers, data = headers ++ stream := by
  have hcompressed := (compress_body_eq alloc codec now r).1.trans hstream
  unfold uvhttp_response_build_data at h
  generalize compress_body alloc codec now r = result at h hcompressed
  obtain ⟨compressed, after⟩ := result
  dsimp only at hcompressed
  subst hcompressed
  dsimp only [Option.isSome_some, Option.getD_some] at h
  split at h
  · cases h
  · generalize (if (build_response_headers _ _).2 ≥ _ then _ else some _) = rebuilt at h
    obtain ⟨built, -, heq⟩ := assembled alloc h
    exact ⟨_, heq⟩

/-- What the compression step does to the shared cache: a lookup, and a new entry
if the body has been compressed. -/
theorem compress_body_cache (alloc : Nat → Bool) (now : Int) {r : FullResponse} {body : List UInt8}
    (hcache : r.gzip_cache = some cache) (hbody : r.body = some body) :
    (compress_body alloc codec now r).2.gzip_cache = some (
      if r.compress && body.length ≥ size_t r.compress_threshold then
        let looked_up := uvhttp_gzip_cache_find cache now (codec.hash body) body.length
        match looked_up.1, uvhttp_compress_gzip alloc codec body with
        | none, .ok compressed =>
          if compressed.length < body.length then
            (uvhttp_gzip_cache_put alloc looked_up.2 now (codec.hash body) body.length compressed).2
          else looked_up.2
        | _, _ => looked_up.2
      else cache) := by
  unfold compress_body
  rw [hbody]
  dsimp only
  by_cases hon : (r.compress && body.length ≥ size_t r.compress_threshold) = true
  · rw [if_pos hon, if_pos hon, hcache]
    simp only [Option.map_some, Option.bind_some]
    rcases uvhttp_gzip_cache_find cache now (codec.hash body) body.length with ⟨found, after⟩
    cases found with
    | some cached => rfl
    | none =>
      cases uvhttp_compress_gzip alloc codec body with
      | error e => rfl
      | ok compressed =>
        dsimp only
        by_cases hshorter : compressed.length < body.length
        · rw [if_pos hshorter, if_pos hshorter]
          rfl
        · rw [if_neg hshorter, if_neg hshorter]
  · rw [if_neg hon, if_neg hon]
    exact hcache

/-- The compression of a body, where that is shorter. -/
def shorter_stream (alloc : Nat → Bool) (codec : Codec) (body : List UInt8) : Option (List UInt8) :=
  (uvhttp_compress_gzip alloc codec body).toOption.filter fun compressed => compressed.length < body.length

theorem shorter_stream_ok {alloc : Nat → Bool} {codec : Codec} {body compressed : List UInt8}
    (h : uvhttp_compress_gzip alloc codec body = .ok compressed) :
    shorter_stream alloc codec body = if compressed.length < body.length then some compressed else none := by
  rw [shorter_stream, h, Except.toOption, Option.filter_some]
  by_cases hshorter : compressed.length < body.length
  · rw [if_pos hshorter, if_pos (decide_eq_true hshorter)]
  · rw [if_neg hshorter, if_neg fun htrue => hshorter (of_decide_eq_true htrue)]

theorem shorter_stream_error {alloc : Nat → Bool} {codec : Codec} {body : List UInt8} {e : UvhttpError}
    (h : uvhttp_compress_gzip alloc codec body = .error e) : shorter_stream alloc codec body = none := by
  rw [shorter_stream, h, Except.toOption, Option.filter_none]

/-- What goes out in place of a body that is long enough: the stream cached under
its key, or else its compression, where that is shorter. -/
theorem replacement_eq (alloc : Nat → Bool) (codec : Codec) (now : Int) {r : FullResponse} {body : List UInt8}
    (hbody : r.body = some body) :
    replacement alloc codec now r =
      if r.compress && body.length ≥ size_t r.compress_threshold then
        (r.gzip_cache.bind fun cache => (uvhttp_gzip_cache_find cache now (codec.hash body) body.length).1).or
          (shorter_stream alloc codec body)
      else none := by
  unfold replacement
  rw [hbody]
  dsimp only
  split
  · cases r.gzip_cache.bind fun cache => (uvhttp_gzip_cache_find cache now (codec.hash body) body.length).1 with
    | some cached => exact Option.some_or.symm
    | none =>
      rw [Option.none_or]
      cases hcompress : uvhttp_compress_gzip alloc codec body with
      | error e => exact (shorter_stream_error hcompress).symm
      | ok compressed => exact (shorter_stream_ok hcompress).symm
  · rfl

/-- What building one response does to the shared cache, and what it sends. -/
theorem build_step (hcodec : codec.Correct gunzip) (hsep : Separated codec bodies) (hsound : cache.Sound)
    (hgenuine : Genuine codec gunzip bodies cache) {b : Build}
    (hcandidate : ∀ body, b.candidate = some body → body ∈ bodies) :
    OwnBody codec gunzip cache b ∧ (cache_after codec cache b).Sound ∧
      Genuine codec gunzip bodies (cache_after codec cache b) := by
  unfold OwnBody cache_after
  rw [build_data_snd]
  cases hbody : b.response.body with
  | none =>
    have hnone : compress_body b.alloc codec b.now (b.on cache) = (none, b.on cache) := by
      unfold compress_body
      rw [show (b.on cache).body = none from hbody]
    have hreplacement : replacement b.alloc codec b.now (b.on cache) = none := by
      rw [← (compress_body_eq b.alloc codec b.now (b.on cache)).1, hnone]
    rw [hnone, hreplacement]
    exact ⟨fun _ _ _ _ habsurd => (by cases habsurd), hsound, hgenuine⟩
  | some body =>
    have hmine : (b.on cache).body = some body := hbody
    rw [compress_body_cache b.alloc b.now rfl hmine, Option.getD_some]
    have hreplacement := replacement_eq b.alloc codec b.now hmine
    by_cases hon : ((b.on cache).compress && body.length ≥ size_t (b.on cache).compress_threshold) = true
    · have hlisted : body ∈ bodies := by
        apply hcandidate
        rw [Build.candidate, hbody, Option.filter_some]
        exact if_pos hon
      have hcount := hsep.countable body hlisted
      obtain ⟨hfound, hkept, hright⟩ := hgenuine.find hsound b.now (codec.hash body) body.length
      rw [if_pos hon] at hreplacement ⊢
      rw [show (b.on cache).gzip_cache = some cache from rfl, Option.bind_some] at hreplacement
      generalize uvhttp_gzip_cache_find cache b.now (codec.hash body) body.length = looked_up
        at hfound hkept hright hreplacement ⊢
      obtain ⟨found, after⟩ := looked_up
      dsimp only at hfound hkept hright hreplacement ⊢
      cases found with
      | some cached =>
        refine ⟨?_, hfound, hkept⟩
        intro data r' hbuilt stream hstream
        refine ⟨build_data_suffix hbuilt hstream, ?_⟩
        rw [hreplacement, Option.some_or] at hstream
        cases hstream
        obtain ⟨other, hother, hkey, hunpacked⟩ := hright cached rfl
        obtain ⟨hhash, hlength⟩ := Prod.mk.inj hkey
        rw [hunpacked, hsep.distinct body hlisted other hother hlength hhash]
      | none =>
        rw [Option.none_or] at hreplacement
        cases hcompress : uvhttp_compress_gzip b.alloc codec body with
        | error e =>
          rw [shorter_stream_error hcompress] at hreplacement
          refine ⟨?_, hfound, hkept⟩
          intro data r' hbuilt stream hstream
          rw [hreplacement] at hstream
          cases hstream
        | ok compressed =>
          rw [shorter_stream_ok hcompress] at hreplacement
          dsimp only
          have hunpacked := compress_gzip_right hcodec hcount hcompress
          by_cases hshorter : compressed.length < body.length
          · rw [if_pos hshorter] at hreplacement ⊢
            obtain ⟨hstored, hgenuine'⟩ := hkept.put hfound b.alloc b.now hlisted hunpacked
            refine ⟨?_, hstored, hgenuine'⟩
            intro data r' hbuilt stream hstream
            refine ⟨build_data_suffix hbuilt hstream, ?_⟩
            rw [hreplacement] at hstream
            cases hstream
            exact hunpacked
          · rw [if_neg hshorter] at hreplacement ⊢
            refine ⟨?_, hfound, hkept⟩
            intro data r' hbuilt stream hstream
            rw [hreplacement] at hstream
            cases hstream
    · rw [if_neg hon] at hreplacement ⊢
      refine ⟨?_, hsound, hgenuine⟩
      intro data r' hbuilt stream hstream
      rw [hreplacement] at hstream
      cases hstream

theorem ownBodies_of_genuine (hcodec : codec.Correct gunzip) (hsep : Separated codec bodies) {builds : List Build}
    (hsound : cache.Sound) (hgenuine : Genuine codec gunzip bodies cache)
    (hcandidates : candidates builds ⊆ bodies) : OwnBodies codec gunzip cache builds := by
  induction builds generalizing cache with
  | nil => trivial
  | cons b builds ih =>
    have hfirst : ∀ body, b.candidate = some body → body ∈ bodies := by
      intro body hbody
      apply hcandidates
      exact List.mem_filterMap.mpr ⟨b, List.mem_cons_self, hbody⟩
    obtain ⟨hown, hafter, hgenuine'⟩ := build_step hcodec hsep hsound hgenuine hfirst
    refine ⟨hown, ih hafter hgenuine' ?_⟩
    intro body hbody
    apply hcandidates
    obtain ⟨b', hb', hmine⟩ := List.mem_filterMap.mp hbody
    exact List.mem_filterMap.mpr ⟨b', List.mem_cons_of_mem b hb', hmine⟩

end history

/-- With a correct compressor, on every history
of responses that share one gzip cache: if no two of the bodies to be compressed
have the same length and the same hash without being equal, and none is too long
for zlib to count, then every gzip body that goes out unpacks to the body of its
own response. -/
theorem compressed_bodies_own {codec : Codec} {gunzip : List UInt8 → Option (List UInt8)}
    (hcodec : codec.Correct gunzip) (max_memory_usage : Nat) (max_entries cache_ttl : Int) {builds : List Build}
    (hsep : Separated codec (candidates builds)) :
    OwnBodies codec gunzip (uvhttp_gzip_cache_create max_memory_usage max_entries cache_ttl) builds := by
  obtain ⟨hsound, hinvalid⟩ := create_sound max_memory_usage max_entries cache_ttl
  apply ownBodies_of_genuine hcodec hsep hsound
  · refine ⟨[], ?_, ?_⟩
    · intro key data
      constructor
      · rintro ⟨⟩
      · rintro ⟨e, he, hvalid, -⟩
        rw [hinvalid e he] at hvalid
        cases hvalid
    · rintro key data ⟨⟩
  · exact fun body hbody => hbody

/-- A compressor that packs 1024 equal bytes into two and leaves other bodies as
they are, with a hash that is always the same. -/
def run_length : Codec where
  compressBound := fun length => length + 1
  deflate := fun body =>
    some (if body = List.replicate 1024 (body.headD 0) then [0, body.headD 0] else 1 :: body)
  crc32 := fun _ => 0
  hash := fun _ => 0

/-- The inverse of `run_length`. -/
def run_length_unpack (stream : List UInt8) : Option (List UInt8) :=
  match (stream.drop 10).take (stream.length - 18) with
  | [0, b] => some (List.replicate 1024 b)
  | 1 :: body => some body
  | _ => none

theorem run_length_correct : run_length.Correct run_length_unpack := by
  intro body deflated hdeflate
  cases hdeflate
  unfold run_length_unpack
  generalize hpacked : (if body = List.replicate 1024 (body.headD 0) then [0, body.headD 0] else 1 :: body) = packed
  have hinner : ∀ trailer : List UInt8, trailer.length = 8 →
      ((([0x1f, 0x8b, 0x08, 0x00, 0x00, 0x00, 0x00, 0x00, 0x00, 0xff] ++ packed ++ trailer).drop 10).take
        (([0x1f, 0x8b, 0x08, 0x00, 0x00, 0x00, 0x00, 0x00, 0x00, 0xff] ++ packed ++ trailer).length - 18)) =
        packed := by
    intro trailer htrailer
    rw [List.append_assoc, List.length_append, List.length_append, htrailer]
    change (packed ++ trailer).take (10 + (packed.length + 8) - 18) = packed
    rw [List.take_append_of_le_length (by omega), List.take_of_length_le (by omega)]
  rw [List.append_assoc _ (le32 _) (le32 _), hinner (le32 _ ++ le32 _) rfl]
  split at hpacked
  · rename_i hequal
    subst hpacked
    exact congrArg some hequal.symm
  · subst hpacked
    rfl

/-- A response whose body is this byte 1024 times, with compression on. -/
def uniform (byte : UInt8) : Build where
  alloc := fun _ => true
  now := 0
  response := { uvhttp_response_init none with
    body := some (List.replicate 1024 byte)
    compress := true
    compress_threshold := 1024 }

/-- The gzip stream of 1024 bytes that are deflated to these. -/
def gzip_stream (deflated : List UInt8) (crc32 : Nat) : List UInt8 :=
  [0x1f, 0x8b, 0x08, 0x00, 0x00, 0x00, 0x00, 0x00, 0x00, 0xff] ++ deflated ++ le32 crc32 ++ le32 1024

section letters

variable (as bs : List UInt8)

/-- zlib, and XXH64 with the seed of the server, on 1024 times the letter a and 1024
times the letter b. -/
def zlib_letters : Codec where
  compressBound := fun length => length + length / 2 ^ 12 + length / 2 ^ 14 + length / 2 ^ 25 + 13
  deflate := fun body =>
    if body = as then some [75, 76, 28, 5, 163, 96, 20, 140, 84, 0, 0]
    else if body = bs then some [75, 74, 26, 5, 163, 96, 20, 140, 84, 0, 0]
    else none
  crc32 := fun body => if body = as then 2085984185 else 1124928236
  hash := fun body => if body = as then 4067293312997846955 else 16997603887157619381

/-- gunzip on the streams of the two bodies. -/
def gunzip_letters (stream : List UInt8) : Option (List UInt8) :=
  if stream = gzip_stream [75, 76, 28, 5, 163, 96, 20, 140, 84, 0, 0] 2085984185 then some as
  else if stream = gzip_stream [75, 74, 26, 5, 163, 96, 20, 140, 84, 0, 0] 1124928236 then some bs
  else none

variable {as bs}

theorem zlib_letters_correct (has : as.length = 1024) (hbs : bs.length = 1024) :
    (zlib_letters as bs).Correct (gunzip_letters as bs) := by
  intro body deflated hdeflate
  dsimp only [zlib_letters] at hdeflate ⊢
  by_cases hfirst : body = as
  · rw [if_pos hfirst] at hdeflate ⊢
    cases hdeflate
    rw [hfirst, has]
    exact if_pos rfl
  · by_cases hsecond : body = bs
    · rw [if_neg hfirst, if_pos hsecond] at hdeflate
      cases hdeflate
      rw [if_neg hfirst, hsecond, hbs]
      exact (if_neg (by decide)).trans (if_pos rfl)
    · rw [if_neg hfirst, if_neg hsecond] at hdeflate
      cases hdeflate

theorem separated_letters (has : as.length = 1024) (hbs : bs.length = 1024) (hne : bs ≠ as) {bodies : List (List UInt8)}
    (hbodies : ∀ body ∈ bodies, body = as ∨ body = bs) : Separated (zlib_letters as bs) bodies := by
  refine ⟨fun body hbody => ?_, fun body hbody other hother _ hhash => ?_⟩
  · rcases hbodies body hbody with rfl | rfl
    · rw [has]
      decide
    · rw [hbs]
      decide
  · dsimp only [zlib_letters] at hhash
    rcases hbodies body hbody with rfl | rfl
    · rcases hbodies other hother with rfl | rfl
      · rfl
      · rw [if_pos rfl, if_neg hne] at hhash
        exact absurd hhash (by decide)
    · rcases hbodies other hother with rfl | rfl
      · rw [if_pos rfl, if_neg hne] at hhash
        exact absurd hhash (by decide)
      · rfl

end letters

/-- Three responses, of which the first and the last have the same body: the last one is
sent with the stream of the first, from the cache. -/
theorem compressed_bodies_own_letters :
    let codec := zlib_letters (List.replicate 1024 97) (List.replicate 1024 98)
    let cache := uvhttp_gzip_cache_create 0 0 0
    OwnBodies codec (gunzip_letters (List.replicate 1024 97) (List.replicate 1024 98)) cache
        [uniform 97, uniform 98, uniform 97] ∧
      replacement (uniform 97).alloc codec (uniform 97).now
          ((uniform 97).on (cache_after codec (cache_after codec cache (uniform 97)) (uniform 98))) =
        some (gzip_stream [75, 76, 28, 5, 163, 96, 20, 140, 84, 0, 0] 2085984185) := by
  intro codec cache
  have hlength (byte : UInt8) : (List.replicate 1024 byte).length = 1024 := List.length_replicate
  have hne : List.replicate 1024 (98 : UInt8) ≠ List.replicate 1024 97 := by
    intro hequal
    rcases (List.replicate_inj.mp hequal).2 with hempty | hbytes
    · exact absurd hempty (by decide)
    · exact absurd hbytes (by decide)
  have hcandidates : candidates [uniform 97, uniform 98, uniform 97] =
      [List.replicate 1024 97, List.replicate 1024 98, List.replicate 1024 97] := by
    decide +kernel
  refine ⟨compressed_bodies_own (zlib_letters_correct (hlength 97) (hlength 98)) 0 0 0
    (separated_letters (hlength 97) (hlength 98) hne ?_), ?_⟩
  · rw [hcandidates]
    intro body hbody
    rcases List.mem_cons.mp hbody with rfl | hbody
    · exact .inl rfl
    rcases List.mem_cons.mp hbody with rfl | hbody
    · exact .inr rfl
    · exact .inl (List.mem_singleton.mp hbody)
  · unfold cache_after
    rw [build_data_snd, compress_body_cache (uniform 98).alloc (uniform 98).now rfl rfl, build_data_snd,
      compress_body_cache (uniform 97).alloc (uniform 97).now rfl rfl]
    decide +kernel

/-- Two bodies of the same length and hash: the second response is sent with the
body of the first. -/
theorem collision_serves_other_body :
    run_length.Correct run_length_unpack ∧
      ¬ OwnBodies run_length run_length_unpack (uvhttp_gzip_cache_create 0 0 0) [uniform 97, uniform 98] := by
  refine ⟨run_length_correct, ?_⟩
  rintro ⟨-, hsecond, -⟩
  obtain ⟨data, r', hbuilt⟩ := build_data_granted run_length 0
    ((uniform 98).on (cache_after run_length (uvhttp_gzip_cache_create 0 0 0) (uniform 97)))
  have hstream : replacement (uniform 98).alloc run_length (uniform 98).now
      ((uniform 98).on (cache_after run_length (uvhttp_gzip_cache_create 0 0 0) (uniform 97))) =
        some ([0x1f, 0x8b, 0x08, 0x00, 0x00, 0x00, 0x00, 0x00, 0x00, 0xff] ++ [0, 97] ++ le32 0 ++ le32 1024) := by
    unfold cache_after
    rw [build_data_snd, compress_body_cache (uniform 97).alloc (uniform 97).now rfl rfl]
    decide +kernel
  have hown := (hsecond data r' hbuilt _ hstream).2
  have hfirst : run_length_unpack
      ([0x1f, 0x8b, 0x08, 0x00, 0x00, 0x00, 0x00, 0x00, 0x00, 0xff] ++ [0, 97] ++ le32 0 ++ le32 1024) =
        some (List.replicate 1024 97) := rfl
  rw [hfirst] at hown
  rcases (List.replicate_inj.mp (Option.some.inj hown)).2 with hempty | hbytes
  · exact absurd hempty (by decide)
  · exact absurd hbytes (by decide)

end uvhttp.gzip
