import Uvhttp.Http.SetHeader
import Uvhttp.Http.SharedCompression

namespace uvhttp.gzip

open http

section lookups

variable {hash : UInt64} {body_len : Nat}

/-- A second search stops at the slot where the first did. -/
theorem find_loop_again (cache_ttl now : Int) (tick tick' : Nat) (entries : List GzipEntry) (total total' : UInt64)
    (evictions evictions' : Int) :
    (find_loop cache_ttl now hash body_len tick' (find_loop cache_ttl now hash body_len tick entries total evictions).1
        total' evictions').2.2.2.map GzipEntry.compressed =
      (find_loop cache_ttl now hash body_len tick entries total evictions).2.2.2.map GzipEntry.compressed := by
  induction entries generalizing total total' evictions evictions' with
  | nil => rfl
  | cons e rest ih =>
    rw [find_loop]
    by_cases hexpired : (e.valid && cache_ttl > 0 && now - e.stored_at > cache_ttl) = true
    · rw [if_pos hexpired]
      have hcleared : e.cleared.valid = false := rfl
      have hkey : e.cleared.has_key hash body_len = false := rfl
      dsimp only
      rw [find_loop, hcleared, hkey]
      simp only [Bool.false_and, Bool.false_eq_true, if_false]
      exact ih _ _ _ _
    · rw [if_neg hexpired]
      by_cases hkey : e.has_key hash body_len = true
      · have hused : GzipEntry.has_key { e with last_used := tick + 1 } hash body_len = true := hkey
        rw [if_pos hkey]
        dsimp only
        rw [find_loop, if_neg hexpired, if_pos hused]
        rfl
      · rw [if_neg hkey]
        dsimp only
        rw [find_loop, if_neg hexpired, if_neg hkey]
        exact ih _ _ _ _

/-- A lookup that is repeated at once has the same answer. -/
theorem find_again (cache : GzipCache) (now : Int) :
    (uvhttp_gzip_cache_find (uvhttp_gzip_cache_find cache now hash body_len).2 now hash body_len).1 =
      (uvhttp_gzip_cache_find cache now hash body_len).1 := by
  obtain ⟨hfirst, hentries, httl, -⟩ := find_parts cache now hash body_len
  obtain ⟨hagain, -⟩ := find_parts (uvhttp_gzip_cache_find cache now hash body_len).2 now hash body_len
  rw [hagain, hfirst, hentries, httl, find_loop_again]

/-- Right after a lookup without an answer, storing a stream makes a lookup find
it or still nothing. -/
theorem find_after_put (alloc : Nat → Bool) {cache : GzipCache} (hsound : cache.Sound) (now : Int)
    (hmiss : (uvhttp_gzip_cache_find cache now hash body_len).1 = none) (data : List UInt8) :
    (uvhttp_gzip_cache_find (uvhttp_gzip_cache_put alloc (uvhttp_gzip_cache_find cache now hash body_len).2 now hash
        body_len data).2 now hash body_len).1 = none ∨
      (uvhttp_gzip_cache_find (uvhttp_gzip_cache_put alloc (uvhttp_gzip_cache_find cache now hash body_len).2 now hash
        body_len data).2 now hash body_len).1 = some data := by
  obtain ⟨expired, hfind, -, -, hanswer⟩ := find_spec hsound now hash body_len
  have hnone := Option.map_eq_none_iff.mp ((hanswer _ hsound.matches_stored).1.symm.trans hmiss)
  have hfound := hfind.sound hsound
  have hlog := hfind.matches hsound hsound.matches_stored
  generalize stored_events cache.entries ++ expired = log at hnone hlog
  obtain ⟨removed, hevicted, hput, -⟩ := put_spec alloc hfound now hash body_len data
  generalize uvhttp_gzip_cache_put alloc (uvhttp_gzip_cache_find cache now hash body_len).2 now hash body_len data =
    result at hput ⊢
  have hlater : ∀ events, Changes (uvhttp_gzip_cache_find cache now hash body_len).2 events result.2 →
      (∀ held, contents (log ++ events) (hash, body_len) = some held → held.1 = data) →
      (uvhttp_gzip_cache_find result.2 now hash body_len).1 = none ∨
        (uvhttp_gzip_cache_find result.2 now hash body_len).1 = some data := by
    intro events hchanges honly
    obtain ⟨expired', -, hexpired, -, hanswer'⟩ := find_spec (hchanges.sound hfound) now hash body_len
    rw [(hanswer' _ (hchanges.matches hfound hlog)).1]
    cases hheld : contents (log ++ events ++ expired') (hash, body_len) with
    | none => exact .inl rfl
    | some held =>
      right
      rcases contents_append_cases hheld with hbefore | hstored
      · rw [Option.map_some, honly held hbefore]
      · obtain ⟨e, -, -, habsurd, -⟩ := hexpired _ hstored
        cases habsurd
  have hremoved : ∀ held, contents (log ++ removed) (hash, body_len) = some held → held.1 = data := by
    intro held hheld
    rcases contents_append_cases hheld with hbefore | hstored
    · rw [hnone] at hbefore
      cases hbefore
    · obtain ⟨key, habsurd⟩ := hevicted _ hstored
      cases habsurd
  cases hput with
  | stored hok hchanges =>
    apply hlater _ hchanges
    intro held hheld
    rw [← List.append_assoc, contents_append] at hheld
    simp only [GzipEvent.apply, if_true, Option.some.injEq] at hheld
    rw [← hheld]
  | skipped hnot hchanges => exact hlater _ hchanges hremoved

end lookups

/-- What a call finds around it: the allocator and the clock. -/
structure Moment where
  alloc : Nat → Bool
  now : Int

/-- `uvhttp_response_build_data`, called at that moment. -/
def build_at (codec : Codec) (m : Moment) (r : FullResponse) : Except UvhttpError (List UInt8) × FullResponse :=
  uvhttp_response_build_data m.alloc codec m.now r

/-- What of a response a call should leave as it was: the status, the headers and
the body with its length. -/
structure Unchanged (r r' : FullResponse) : Prop where
  status_code : r'.status_code = r.status_code
  headers : r'.headers = r.headers
  body : r'.body = r.body

/-- Two calls in a row: where both return data it is the same data, and neither
changes the response, also where it fails. -/
structure Repeatable (codec : Codec) (first second : Moment) (r : FullResponse) : Prop where
  bytes : ∀ data data', (build_at codec first r).1 = .ok data →
    (build_at codec second (build_at codec first r).2).1 = .ok data' → data = data'
  once : Unchanged r (build_at codec first r).2
  twice : Unchanged r (build_at codec second (build_at codec first r).2).2

/-- The stream that goes out in place of the body. -/
def Moment.stream (codec : Codec) (m : Moment) (r : FullResponse) : Option (List UInt8) :=
  replacement m.alloc codec m.now r

section build

variable {codec : Codec} {m : Moment} {r : FullResponse}

/-- The text in front of what is sent, and the length it is taken to have. -/
def rendered (sent : Option (List UInt8)) (r : Response) : List UInt8 × Nat :=
  let built := build_response_headers { r with body := sent } (UVHTTP_INITIAL_BUFFER_SIZE * 2)
  if built.2 ≥ UVHTTP_INITIAL_BUFFER_SIZE * 2 then
    build_response_headers r (built.2 + UVHTTP_RESPONSE_HEADER_SAFETY_MARGIN)
  else built

/-- The data that is returned, whatever the allocator. -/
def response_data (stream : Option (List UInt8)) (r : Response) : List UInt8 :=
  let sent := if stream.isSome then stream else r.body
  (rendered sent r).1.take (rendered sent r).2 ++ sent.getD []

/-- The response after a call. -/
theorem build_at_response (codec : Codec) (m : Moment) (r : FullResponse) :
    (build_at codec m r).2.toResponse =
      if (m.stream codec r).isSome then encoded m.alloc r else r.toResponse := by
  rw [build_at, build_data_snd]
  exact (compress_body_eq m.alloc codec m.now r).2

/-- The bytes depend on the moment only through the stream. -/
theorem build_at_ok {data : List UInt8} (h : (build_at codec m r).1 = .ok data) :
    data = response_data (m.stream codec r) (build_at codec m r).2.toResponse := by
  have hpair : uvhttp_response_build_data m.alloc codec m.now r = (.ok data, (build_at codec m r).2) :=
    Prod.ext h rfl
  rw [build_at_response]
  obtain ⟨hfirst, hsecond⟩ := compress_body_eq m.alloc codec m.now r
  unfold Moment.stream
  generalize (build_at codec m r).2 = after at hpair
  unfold uvhttp_response_build_data at hpair
  generalize compress_body m.alloc codec m.now r = compressed at hpair hfirst hsecond
  obtain ⟨stream, response⟩ := compressed
  dsimp only at hpair hfirst hsecond
  rw [← hsecond, ← hfirst]
  unfold response_data
  dsimp only
  generalize (if stream.isSome = true then stream else response.body) = sent at hpair ⊢
  split at hpair
  · cases hpair
  · generalize hbuilt : (if (build_response_headers _ _).2 ≥ _ then _ else some _) = rebuilt at hpair
    obtain ⟨built, rfl, hdata⟩ := assembled m.alloc hpair
    rw [hdata, rendered]
    split at hbuilt
    · rename_i hlarge
      split at hbuilt
      · cases hbuilt
      · rw [if_pos hlarge, Option.some.inj hbuilt]
    · rename_i hsmall
      rw [if_neg hsmall, Option.some.inj hbuilt]

/-- The header that announces a compressed body, where it finds room. -/
theorem encoded_eq (alloc : Nat → Bool) (htable : ResponseTable r.toResponse) :
    encoded alloc r = if HeaderRoom alloc r.toResponse then
      with_header r.toResponse (bytes "Content-Encoding") (bytes "gzip") else r.toResponse := by
  have hvalid : ValidHeader (bytes "Content-Encoding") (bytes "gzip") := by decide
  rw [encoded, htable.set_header, if_pos hvalid]
  split
  · rfl
  · rfl

/-- A call changes the response exactly when it compresses the body and finds
room for the header that says so. -/
theorem unchanged_iff (codec : Codec) (m : Moment) (htable : ResponseTable r.toResponse) :
    Unchanged r (build_at codec m r).2 ↔ ¬ ((m.stream codec r).isSome ∧ HeaderRoom m.alloc r.toResponse) := by
  have hafter := build_at_response codec m r
  have hkeep : (build_at codec m r).2.toResponse = r.toResponse → Unchanged r (build_at codec m r).2 := by
    intro hsame
    exact ⟨congrArg Response.status_code hsame, congrArg Response.headers hsame, congrArg Response.body hsame⟩
  by_cases hstream : (m.stream codec r).isSome = true
  · rw [if_pos hstream, encoded_eq m.alloc htable] at hafter
    by_cases hroom : HeaderRoom m.alloc r.toResponse
    · rw [if_pos hroom] at hafter
      refine iff_of_false (fun h => ?_) fun h => h ⟨hstream, hroom⟩
      have hheaders := (congrArg Response.headers hafter).symm.trans h.headers
      have hlength := congrArg List.length hheaders
      rw [with_header, List.length_append, List.length_singleton] at hlength
      omega
    · rw [if_neg hroom] at hafter
      exact iff_of_true (hkeep hafter) fun h => hroom h.2
  · rw [if_neg hstream] at hafter
    exact iff_of_true (hkeep hafter) fun h => hstream h.1

end build

/-- What the compression step leaves alone. -/
theorem compress_body_keeps (alloc : Nat → Bool) (codec : Codec) (now : Int) (r : FullResponse) :
    (compress_body alloc codec now r).2.body = r.body ∧ (compress_body alloc codec now r).2.compress = r.compress ∧
      (compress_body alloc codec now r).2.compress_threshold = r.compress_threshold ∧
      (r.gzip_cache = none → (compress_body alloc codec now r).2.gzip_cache = none) := by
  refine ⟨?_, ?_⟩
  · have hresponse := congrArg Response.body (compress_body_eq alloc codec now r).2
    rw [hresponse]
    split
    · exact (set_header_keeps alloc r.toResponse _ _).2.2
    · rfl
  · unfold compress_body
    cases r.body with
    | none => exact ⟨rfl, rfl, id⟩
    | some body =>
      dsimp only
      split
      · split
        · refine ⟨rfl, rfl, fun hnone => ?_⟩
          rw [hnone]
          rfl
        · split
          · refine ⟨rfl, rfl, fun hnone => ?_⟩
            rw [hnone]
            rfl
          · split
            · refine ⟨rfl, rfl, fun hnone => ?_⟩
              rw [hnone]
              rfl
            · refine ⟨rfl, rfl, fun hnone => ?_⟩
              rw [hnone]
              rfl
      · exact ⟨rfl, rfl, id⟩

/-- At the same moment the compression step comes to the same stream again. -/
theorem replacement_again (alloc : Nat → Bool) (codec : Codec) (now : Int) {r : FullResponse}
    (hsound : ∀ cache ∈ r.gzip_cache, cache.Sound) :
    replacement alloc codec now (compress_body alloc codec now r).2 = replacement alloc codec now r := by
  obtain ⟨hbody, hcompress, hthreshold, hnocache⟩ := compress_body_keeps alloc codec now r
  cases hmine : r.body with
  | none =>
    rw [hmine] at hbody
    unfold replacement
    rw [hbody, hmine]
  | some body =>
    rw [hmine] at hbody
    rw [replacement_eq alloc codec now hbody, replacement_eq alloc codec now hmine, hcompress, hthreshold]
    cases hcache : r.gzip_cache with
    | none => rw [hnocache hcache]
    | some cache =>
      have hsafe : cache.Sound := hsound cache hcache
      rw [compress_body_cache alloc now hcache hmine]
      by_cases hon : (r.compress && body.length ≥ size_t r.compress_threshold) = true
      · rw [if_pos hon, if_pos hon, if_pos hon, Option.bind_some, Option.bind_some]
        have hagain := @find_again (codec.hash body) body.length cache now
        have hput := @find_after_put (codec.hash body) body.length alloc cache hsafe now
        generalize uvhttp_gzip_cache_find cache now (codec.hash body) body.length = looked_up at hagain hput ⊢
        obtain ⟨found, after⟩ := looked_up
        dsimp only at hagain hput ⊢
        cases found with
        | some cached => rw [hagain]
        | none =>
          cases hgzip : uvhttp_compress_gzip alloc codec body with
          | error e => rw [hagain]
          | ok compressed =>
            dsimp only
            by_cases hshorter : compressed.length < body.length
            · rw [if_pos hshorter, shorter_stream_ok hgzip, if_pos hshorter]
              rcases hput rfl compressed with hnone | hstored
              · rw [hnone]
              · rw [hstored, Option.some_or, Option.none_or]
            · rw [if_neg hshorter, hagain]
      · rw [if_neg hon, if_neg hon]

/-- A call that has no stream to send, or no room for its header, leaves the
response. -/
theorem build_at_same (codec : Codec) (m : Moment) {r : FullResponse} (htable : ResponseTable r.toResponse)
    (hnot : ¬ ((m.stream codec r).isSome ∧ HeaderRoom m.alloc r.toResponse)) :
    (build_at codec m r).2.toResponse = r.toResponse := by
  rw [build_at_response codec m r]
  split
  · rename_i hsome
    rw [encoded_eq m.alloc htable, if_neg fun hroom => hnot ⟨hsome, hroom⟩]
  · rfl

/-- The next call at the same moment comes to the same stream again. -/
theorem stream_again (codec : Codec) (m : Moment) {r : FullResponse} (hsound : ∀ cache ∈ r.gzip_cache, cache.Sound) :
    m.stream codec (build_at codec m r).2 = m.stream codec r := by
  rw [build_at, build_data_snd]
  exact replacement_again m.alloc codec m.now hsound

/-- A call after one that has left the response. -/
theorem unchanged_again (codec : Codec) (first m : Moment) {r : FullResponse} (htable : ResponseTable r.toResponse)
    (hsame : (build_at codec first r).2.toResponse = r.toResponse) :
    Unchanged r (build_at codec m (build_at codec first r).2).2 ↔
      ¬ ((m.stream codec (build_at codec first r).2).isSome ∧ HeaderRoom m.alloc r.toResponse) := by
  have hsecond := @unchanged_iff (build_at codec first r).2 codec m (by rw [hsame]; exact htable)
  rw [hsame] at hsecond
  rw [← hsecond]
  have hstatus := congrArg Response.status_code hsame
  have hheaders := congrArg Response.headers hsame
  have hbody := congrArg Response.body hsame
  constructor
  · exact fun h => ⟨h.status_code.trans hstatus.symm, h.headers.trans hheaders.symm, h.body.trans hbody.symm⟩
  · exact fun h => ⟨h.status_code.trans hstatus, h.headers.trans hheaders, h.body.trans hbody⟩

/-- While there is room for another header, two calls of
`uvhttp_response_build_data`, whatever the allocator and the clock at each, are
repeatable exactly when neither sends a stream in place of the body. Two calls
at the same moment are repeatable exactly when not both a stream is sent and
there is room for its header. -/
theorem build_data_repeatable_iff (codec : Codec) (first second : Moment) {r : FullResponse}
    (htable : ResponseTable r.toResponse) (hsound : ∀ cache ∈ r.gzip_cache, cache.Sound) :
    (HeaderRoom first.alloc r.toResponse → HeaderRoom second.alloc r.toResponse →
      (Repeatable codec first second r ↔
        first.stream codec r = none ∧ second.stream codec (build_at codec first r).2 = none)) ∧
    (Repeatable codec first first r ↔
      ¬ ((first.stream codec r).isSome ∧ HeaderRoom first.alloc r.toResponse)) := by
  have hfirst := unchanged_iff codec first htable
  have hresponse := build_at_response codec first r
  refine ⟨fun hroom hroom' => ?_, ?_⟩
  · constructor
    · intro h
      have hnone : first.stream codec r = none := by
        rw [← Option.not_isSome_iff_eq_none]
        exact fun hsome => hfirst.mp h.once ⟨hsome, hroom⟩
      rw [hnone] at hresponse
      refine ⟨hnone, ?_⟩
      rw [← Option.not_isSome_iff_eq_none]
      exact fun hsome => (unchanged_again codec first second htable hresponse).mp h.twice ⟨hsome, hroom'⟩
    · rintro ⟨hnone, hnone'⟩
      rw [hnone] at hresponse
      have htwice := (unchanged_again codec first second htable hresponse).mpr fun h => by
        rw [hnone'] at h
        exact absurd h.1 Bool.false_ne_true
      refine ⟨?_, hfirst.mpr ?_, htwice⟩
      · intro data data' hdata hdata'
        have hafter := build_at_response codec second (build_at codec first r).2
        rw [hnone'] at hafter
        rw [build_at_ok hdata, build_at_ok hdata', hnone, hnone', hafter]
        rfl
      · rw [hnone]
        exact fun h => absurd h.1 Bool.false_ne_true
  · refine ⟨fun h => hfirst.mp h.once, fun hnot => ?_⟩
    have hsame := build_at_same codec first htable hnot
    have hstream := stream_again codec first hsound
    have hagain : ¬ ((first.stream codec (build_at codec first r).2).isSome ∧
        HeaderRoom first.alloc (build_at codec first r).2.toResponse) := by
      rw [hstream, hsame]
      exact hnot
    have htable' : ResponseTable (build_at codec first r).2.toResponse := by
      rw [hsame]
      exact htable
    have hsame' := build_at_same codec first htable' hagain
    have htwice := (unchanged_again codec first first htable hsame).mpr (by rw [hstream]; exact hnot)
    refine ⟨?_, hfirst.mpr hnot, htwice⟩
    intro data data' hdata hdata'
    rw [build_at_ok hdata, build_at_ok hdata', hstream, hsame', hsame]

/-- A body of two thousand bytes, to be sent as it is. -/
def plain_response : FullResponse := { padded_response 0 with compress := false }

/-- Compression is off: a second call that finds no memory changes nothing either. -/
theorem build_data_repeatable_plain :
    Repeatable two_thousand_bs ⟨fun _ => true, 0⟩ ⟨fun _ => false, 5⟩ plain_response := by
  have hnocache : ∀ cache ∈ plain_response.gzip_cache, cache.Sound := fun cache hcache => by cases hcache
  have hroom : ∀ alloc, HeaderRoom alloc plain_response.toResponse := fun alloc => .inl (by decide)
  have hoff : ∀ m : Moment, m.stream two_thousand_bs plain_response = none := fun m => by
    unfold Moment.stream
    exact replacement_eq m.alloc two_thousand_bs m.now
      (show plain_response.body = some (List.replicate 2000 98) from rfl)
  apply ((build_data_repeatable_iff two_thousand_bs ⟨fun _ => true, 0⟩ ⟨fun _ => false, 5⟩
    ⟨by decide, .inl rfl⟩ hnocache).1 (hroom _) (hroom _)).mpr
  refine ⟨hoff _, ?_⟩
  rw [build_at, build_data_uncompressed _ _ _ rfl]
  exact hoff _

/-- A body that is compressed: the first call leaves a `Content-Encoding` header
behind. -/
theorem build_data_not_repeatable :
    ¬ Repeatable two_thousand_bs ⟨fun _ => true, 0⟩ ⟨fun _ => true, 0⟩ (padded_response 0) := by
  intro h
  have htable : ResponseTable (padded_response 0).toResponse := ⟨by decide, .inl rfl⟩
  apply (unchanged_iff two_thousand_bs ⟨fun _ => true, 0⟩ htable).mp h.once
  refine ⟨?_, .inl (by decide)⟩
  rw [Moment.stream, replacement_padded]
  rfl

end uvhttp.gzip
