import Uvhttp.Http.HeaderOverwrite
import Uvhttp.Http.RepeatedBuild

namespace uvhttp.gzip

open http machine header_block

/-- The line that announces a compressed body. -/
def encoding_line : List UInt8 := bytes "Content-Encoding: gzip"

/-- The data of a response is a header block and what is sent, and where that is a
gzip stream in place of the body the block has one `Content-Encoding` line, for
gzip, and otherwise none. -/
def EncodingMatches (alloc : Nat → Bool) (codec : Codec) (now : Int) (r : FullResponse) (data : List UInt8) : Prop :=
  ∃ lines sent, text_lines.block CR LF data = some (lines, sent) ∧
    sent = (replacement alloc codec now r).getD (r.body.getD []) ∧
    lines.filter (named (bytes "Content-Encoding")) =
      if (replacement alloc codec now r).isSome then [encoding_line] else []

/-- The call does not set a Content-Encoding header. -/
def Operation.NoEncoding : Operation → Prop
  | .set_header _ name _ => strcasecmp name (bytes "Content-Encoding") = false
  | _ => True

/-- What the calls keep that build up a response without a Content-Encoding header. -/
structure Unencoded (r : Response) : Prop where
  table : ResponseTable r
  fields : ∀ h ∈ r.headers, h.name ≠ [] ∧ CR ∉ h.name ∧ COLON ∉ h.name
  unset : ∀ h ∈ r.headers, strcasecmp h.name (bytes "Content-Encoding") = false
  body : (r.body.getD []).length ≤ UVHTTP_MAX_BODY_SIZE

section operations

variable {r : FullResponse}

/-- The name of a header that was accepted makes a field of its own. -/
theorem written_field {name value : List UInt8} (h : ValidHeader name value) :
    (written_header name value).name ≠ [] ∧ CR ∉ (written_header name value).name ∧
      COLON ∉ (written_header name value).name := name_cut_field h.1

theorem Unencoded.with_header (h : Unencoded r.toResponse) {alloc : Nat → Bool}
    (hroom : HeaderRoom alloc r.toResponse) {name value : List UInt8} (hvalid : ValidHeader name value)
    (hother : strcasecmp name (bytes "Content-Encoding") = false) :
    Unencoded (with_header r.toResponse name value) := by
  refine ⟨h.table.with_header name value hroom, ?_, ?_, h.body⟩
  · intro header hmem
    rcases List.mem_append.mp hmem with hold | hnew
    · exact h.fields header hold
    · rw [List.mem_singleton.mp hnew]
      exact written_field hvalid
  · intro header hmem
    rcases List.mem_append.mp hmem with hold | hnew
    · exact h.unset header hold
    · rw [List.mem_singleton.mp hnew]
      exact strcasecmp_take (by decide) hother

theorem operate_unencoded (h : Unencoded r.toResponse) {operation : Operation} (hoperation : operation.NoEncoding) :
    Unencoded (operate r operation).1.toResponse := by
  cases operation with
  | set_status status_code =>
    simp only [operate, uvhttp_response_set_status, http.uvhttp_response_set_status]
    split
    · exact h
    · exact ⟨⟨h.table.count, h.table.capacity⟩, h.fields, h.unset, h.body⟩
  | set_header alloc name value =>
    simp only [operate, uvhttp_response_set_header]
    rw [h.table.set_header]
    by_cases hvalid : ValidHeader name value
    · by_cases hroom : HeaderRoom alloc r.toResponse
      · rw [if_pos hvalid, if_pos hroom]
        exact h.with_header hroom hvalid hoperation
      · rw [if_pos hvalid, if_neg hroom]
        exact h
    · rw [if_neg hvalid]
      exact h
  | set_body alloc body =>
    simp only [operate, uvhttp_response_set_body, http.uvhttp_response_set_body]
    split
    · exact h
    · split
      · exact h
      · rename_i hlimit
        split
        · exact ⟨⟨h.table.count, h.table.capacity⟩, h.fields, h.unset, Nat.zero_le _⟩
        · exact ⟨⟨h.table.count, h.table.capacity⟩, h.fields, h.unset, Nat.le_of_not_lt hlimit⟩
  | set_compress enable =>
    simp only [operate, uvhttp_response_set_compress]
    split
    · exact h
    · exact h

theorem unencoded_run (h : Unencoded r.toResponse) {operations : List Operation}
    (hoperations : ∀ operation ∈ operations, operation.NoEncoding) :
    Unencoded (run operate r operations).toResponse := by
  induction operations generalizing r with
  | nil => exact h
  | cons operation operations ih =>
    obtain ⟨hfirst, hrest⟩ := List.forall_mem_cons.mp hoperations
    exact ih (operate_unencoded h hfirst) hrest

theorem Blank.unencoded (h : Blank r) (htable : ResponseTable r.toResponse) : Unencoded r.toResponse := by
  refine ⟨htable, ?_, ?_, ?_⟩
  · rw [h.headers]
    exact fun header hmem => by cases hmem
  · rw [h.headers]
    exact fun header hmem => by cases hmem
  · rw [h.body]
    exact Nat.zero_le _

end operations

section lines

variable {headers : List Header}

/-- The lines of headers that make fields are read back from the data. -/
theorem block_header_text (hfields : ∀ h ∈ headers, h.name ≠ [] ∧ CR ∉ h.name ∧ COLON ∉ h.name) (status_code : Int)
    (body : Option (List UInt8)) (keepalive : Bool) (sent : List UInt8) :
    text_lines.block CR LF (header_text status_code headers body keepalive ++ sent) =
      some (header_lines status_code headers body keepalive, sent) := by
  rw [header_text_eq, List.append_assoc]
  apply text_lines.block_render
  intro line hline
  rw [header_lines_eq, List.mem_append, List.mem_append] at hline
  rcases hline with (hstatus | hfield) | hdefault
  · rw [List.mem_singleton.mp hstatus]
    exact ⟨(plain_status_line status_code).nonempty, (plain_status_line status_code).cr⟩
  · obtain ⟨h, hmem, rfl⟩ := List.mem_map.mp hfield
    obtain ⟨⟨original, horiginal, hname⟩, hclean⟩ := mem_sent_headers hmem
    obtain ⟨hnonempty, hcr, -⟩ := hfields original horiginal
    rw [hname] at hnonempty hcr
    refine ⟨by simp [hnonempty], ?_⟩
    simp only [List.mem_append, not_or]
    exact ⟨⟨hcr, by decide⟩, cr_not_mem_value hclean⟩
  · obtain ⟨name, hname, value, -, heq⟩ := default_line_form hdefault
    refine ⟨?_, (printable_default_lines _ _ _ line hdefault).no_terminator.1⟩
    rw [heq]
    simp [bytes]

/-- The `Content-Encoding` lines are those of the headers that are sent. -/
theorem filter_encoding_lines (hfields : ∀ h ∈ headers, h.name ≠ [] ∧ CR ∉ h.name ∧ COLON ∉ h.name)
    (status_code : Int) (body : Option (List UInt8)) (keepalive : Bool) :
    (header_lines status_code headers body keepalive).filter (named (bytes "Content-Encoding")) =
      ((sent_headers headers).filter fun h => strcasecmp h.name (bytes "Content-Encoding")).map
        fun h => h.name ++ bytes ": " ++ h.value := by
  have haccepted : Accepted ⟨bytes "Content-Encoding", bytes "gzip"⟩ := ⟨by decide, by decide⟩
  have hstatus := named_status_line haccepted status_code
  have hdefault : (default_lines (sent_headers headers) body keepalive).filter (named (bytes "Content-Encoding")) =
      [] := by
    rw [List.filter_eq_nil_iff]
    intro line hline
    obtain ⟨name, hname, value, -, heq⟩ := default_line_form hline
    have hother : ∀ name ∈ [bytes "Content-Type", bytes "Content-Length", bytes "Connection", bytes "Keep-Alive"],
        COLON ∉ name ∧ strcasecmp name (bytes "Content-Encoding") = false := by decide
    rw [heq, named, field_name_append (hother name hname).1, (hother name hname).2]
    exact Bool.false_ne_true
  rw [header_lines_eq, List.filter_append, List.filter_append, hdefault, List.append_nil,
    List.filter_cons_of_neg (by rw [hstatus]; exact Bool.false_ne_true), List.filter_nil, List.nil_append,
    List.filter_map]
  congr 1
  apply List.filter_congr
  intro h hmem
  obtain ⟨⟨original, horiginal, hname⟩, -⟩ := mem_sent_headers hmem
  have hcolon := (hfields original horiginal).2.2
  rw [hname] at hcolon
  exact congrArg (strcasecmp · (bytes "Content-Encoding")) (field_name_append hcolon h.value)

/-- Without such a header there is no such line. -/
theorem filter_sent_unset (hunset : ∀ h ∈ headers, strcasecmp h.name (bytes "Content-Encoding") = false) :
    ((sent_headers headers).filter fun h => strcasecmp h.name (bytes "Content-Encoding")) = [] := by
  rw [List.filter_eq_nil_iff]
  intro h hmem
  obtain ⟨⟨original, horiginal, hname⟩, -⟩ := mem_sent_headers hmem
  rw [← hname, hunset original horiginal]
  exact Bool.false_ne_true

/-- A header that is added last is sent as it is, and is the only one of its name. -/
theorem filter_sent_added (hunset : ∀ h ∈ headers, strcasecmp h.name (bytes "Content-Encoding") = false) :
    ((sent_headers (headers ++ [⟨bytes "Content-Encoding", bytes "gzip"⟩])).filter fun h =>
      strcasecmp h.name (bytes "Content-Encoding")) = [⟨bytes "Content-Encoding", bytes "gzip"⟩] := by
  rw [sent_headers, List.mapIdx_append, List.filter_append, List.filter_append]
  have hfront : ((headers.mapIdx fun i h => (⟨h.name, header_value_at
      (headers ++ [⟨bytes "Content-Encoding", bytes "gzip"⟩]) i h⟩ : Header)).filter
      fun h => !contains_control_chars h.value).filter (fun h => strcasecmp h.name (bytes "Content-Encoding")) =
      [] := by
    rw [List.filter_eq_nil_iff]
    intro h hmem
    obtain ⟨i, hi, rfl⟩ := List.mem_mapIdx.mp (List.mem_filter.mp hmem).1
    rw [hunset _ (List.getElem_mem hi)]
    exact Bool.false_ne_true
  rw [hfront, List.nil_append]
  rfl

end lines

/-- What a response announces is in the `Content-Encoding` lines of the headers it was
rendered from. -/
theorem encoding_matches_iff {alloc : Nat → Bool} {codec : Codec} {now : Int} {response : FullResponse}
    {headers : List Header} (hfields : ∀ h ∈ headers, h.name ≠ [] ∧ CR ∉ h.name ∧ COLON ∉ h.name)
    {status_code : Int} {body : Option (List UInt8)} {keepalive : Bool} {data sent : List UInt8}
    (hdata : data = header_text status_code headers body keepalive ++ sent) :
    EncodingMatches alloc codec now response data ↔
      sent = (replacement alloc codec now response).getD (response.body.getD []) ∧
        (((sent_headers headers).filter fun h => strcasecmp h.name (bytes "Content-Encoding")).map
          fun h => h.name ++ bytes ": " ++ h.value) =
        if (replacement alloc codec now response).isSome then [encoding_line] else [] := by
  unfold EncodingMatches
  rw [hdata, block_header_text hfields]
  constructor
  · rintro ⟨lines, body, hblock, hbody, hlines⟩
    cases hblock
    rw [filter_encoding_lines hfields] at hlines
    exact ⟨hbody, hlines⟩
  · rintro ⟨hbody, hlines⟩
    refine ⟨_, _, rfl, hbody, ?_⟩
    rw [filter_encoding_lines hfields]
    exact hlines

/-- The headers with the one that announces the compressed body are fields as well. -/
theorem Unencoded.fields_encoded {r : Response} (h : Unencoded r) :
    ∀ header ∈ r.headers ++ [⟨bytes "Content-Encoding", bytes "gzip"⟩],
      header.name ≠ [] ∧ CR ∉ header.name ∧ COLON ∉ header.name := by
  intro header hmem
  rcases List.mem_append.mp hmem with hold | hnew
  · exact h.fields header hold
  · rw [List.mem_singleton.mp hnew]
    decide

/-- When Content-Encoding matches the body. Of a response built by any calls that
set no Content-Encoding, none of these calls writes outside the header arrays and
the bytes of `uvhttp_response_build_data` announce gzip exactly when a gzip stream
is sent, unless a header in the last slot of an array does not fit, or a stream is
sent and the table has no room for the header. -/
theorem content_encoding_iff {r : FullResponse} (hblank : Blank r) (htable : ResponseTable r.toResponse)
    {operations : List Operation} (hoperations : ∀ operation ∈ operations, operation.NoEncoding)
    (alloc : Nat → Bool) (codec : Codec) (now : Int) {data : List UInt8} {r' : FullResponse}
    (h : uvhttp_response_build_data alloc codec now (run operate r operations) = (.ok data, r')) :
    run_in_bounds r operations ≠ none ∧ EncodingMatches alloc codec now (run operate r operations) data ↔
      LastSlotsFit (run operate r operations).headers ∧
        ¬ ((replacement alloc codec now (run operate r operations)).isSome ∧
          ¬ HeaderRoom alloc (run operate r operations).toResponse) := by
  rw [run_in_bounds_ne_none hblank.lastSlotsFit operations]
  apply and_congr_right'
  have hplain := unencoded_run (hblank.unencoded htable) hoperations
  generalize run operate r operations = response at h hplain ⊢
  obtain ⟨rendered, hrendered, sent, hsent, hdata⟩ := build_data_eq alloc codec now hplain.body h
  cases hreplacement : replacement alloc codec now response with
  | none =>
    rw [hreplacement] at hsent hrendered
    have hbody : sent = response.body := hsent
    have hsame : rendered = response.toResponse := hrendered
    subst hsame
    rw [encoding_matches_iff hplain.fields hdata, filter_sent_unset hplain.unset, hreplacement, hbody]
    exact iff_of_true ⟨rfl, rfl⟩ fun habsurd => absurd habsurd.1 Bool.false_ne_true
  | some stream =>
    rw [hreplacement] at hsent hrendered
    have hbody : sent = some stream := hsent
    have hencoded : rendered = encoded alloc response := hrendered
    rw [encoded_eq alloc hplain.table] at hencoded
    by_cases hroom : HeaderRoom alloc response.toResponse
    · rw [if_pos hroom] at hencoded
      have hheaders : rendered.headers = response.headers ++ [⟨bytes "Content-Encoding", bytes "gzip"⟩] := by
        rw [hencoded, http.with_header, written_header_fits (by decide) (by decide)]
      rw [hheaders] at hdata
      rw [encoding_matches_iff hplain.fields_encoded hdata, filter_sent_added hplain.unset, hreplacement, hbody]
      refine iff_of_true ⟨rfl, ?_⟩ fun habsurd => habsurd.2 hroom
      rw [Option.isSome_some, if_pos rfl]
      decide
    · rw [if_neg hroom] at hencoded
      subst hencoded
      rw [encoding_matches_iff hplain.fields hdata, filter_sent_unset hplain.unset, hreplacement]
      refine iff_of_false (fun habsurd => ?_) fun hnot => hnot ⟨rfl, hroom⟩
      cases habsurd.2

/-- A response with this many short headers whose body is compressed. -/
def crowded (headers : Nat) : List Operation :=
  .set_compress true :: .set_body (fun _ => true) (List.replicate 2000 98) ::
    List.replicate headers (.set_header (fun _ => true) (bytes "X-A") (bytes "1"))

theorem crowded_no_encoding (headers : Nat) : ∀ operation ∈ crowded headers, operation.NoEncoding := by
  intro operation hmem
  rcases List.mem_cons.mp hmem with rfl | hmem
  · trivial
  · rcases List.mem_cons.mp hmem with rfl | hmem
    · trivial
    · rw [List.eq_of_mem_replicate hmem]
      exact (by decide : strcasecmp (bytes "X-A") (bytes "Content-Encoding") = false)

/-- What these calls build. -/
def crowded_response (headers : Nat) (headers_capacity : Nat) (headers_extra : Bool) : FullResponse :=
  { padded_response 0 with
    headers := List.replicate headers ⟨bytes "X-A", bytes "1"⟩
    headers_capacity
    headers_extra }

theorem run_crowded_few : run operate (uvhttp_response_init none) (crowded 3) = crowded_response 3 32 false := by
  decide +kernel

theorem run_crowded_full : run operate (uvhttp_response_init none) (crowded 64) = crowded_response 64 64 true := by
  decide +kernel

theorem replacement_crowded (headers headers_capacity : Nat) (headers_extra : Bool) :
    replacement (fun _ => true) two_thousand_bs 0 (crowded_response headers headers_capacity headers_extra) =
      some padded_stream := by
  have hbody : (crowded_response headers headers_capacity headers_extra).body = (padded_response 0).body := rfl
  have hcompress : (crowded_response headers headers_capacity headers_extra).compress =
    (padded_response 0).compress := rfl
  have hthreshold : (crowded_response headers headers_capacity headers_extra).compress_threshold =
    (padded_response 0).compress_threshold := rfl
  have hcache : (crowded_response headers headers_capacity headers_extra).gzip_cache =
    (padded_response 0).gzip_cache := rfl
  rw [← replacement_padded 0, replacement, replacement, hbody, hcompress, hthreshold, hcache]

/-- A compressed response with a few headers. -/
theorem content_encoding_few :
    ∃ data r', uvhttp_response_build_data (fun _ => true) two_thousand_bs 0
        (run operate (uvhttp_response_init none) (crowded 3)) = (.ok data, r') ∧
      run_in_bounds (uvhttp_response_init none) (crowded 3) ≠ none ∧
      EncodingMatches (fun _ => true) two_thousand_bs 0 (run operate (uvhttp_response_init none) (crowded 3)) data := by
  obtain ⟨data, r', hbuilt⟩ := build_data_granted two_thousand_bs 0
    (run operate (uvhttp_response_init none) (crowded 3))
  refine ⟨data, r', hbuilt, ?_⟩
  apply (content_encoding_iff (blank_init none) responseTable_init (crowded_no_encoding 3) _ _ _ hbuilt).mpr
  rw [run_crowded_few]
  refine ⟨?_, fun habsurd => habsurd.2 (.inl (by decide))⟩
  apply lastSlotsFit_of_values
  intro header hmem
  rw [List.eq_of_mem_replicate hmem]
  decide

/-- With 64 headers the compressed body goes out without its header. -/
theorem content_encoding_missing :
    (∀ operation ∈ crowded 64, operation.NoEncoding) ∧
      ∃ data r', uvhttp_response_build_data (fun _ => true) two_thousand_bs 0
          (run operate (uvhttp_response_init none) (crowded 64)) = (.ok data, r') ∧
        ¬ EncodingMatches (fun _ => true) two_thousand_bs 0
          (run operate (uvhttp_response_init none) (crowded 64)) data := by
  obtain ⟨data, r', hbuilt⟩ := build_data_granted two_thousand_bs 0
    (run operate (uvhttp_response_init none) (crowded 64))
  refine ⟨crowded_no_encoding 64, data, r', hbuilt, ?_⟩
  have hplain := unencoded_run ((blank_init none).unencoded responseTable_init) (crowded_no_encoding 64)
  rw [run_crowded_full] at hbuilt hplain ⊢
  rintro ⟨lines, sent, hblock, -, hlines⟩
  obtain ⟨rendered, hrendered, stream, -, hdata⟩ := build_data_eq _ _ _ hplain.body hbuilt
  rw [replacement_crowded] at hrendered hlines
  have hfull : ¬ HeaderRoom (fun _ => true) (crowded_response 64 64 true).toResponse := by decide
  have hsame : rendered = (crowded_response 64 64 true).toResponse := by
    rw [hrendered]
    exact (encoded_eq _ hplain.table).trans (if_neg hfull)
  subst hsame
  rw [hdata, block_header_text hplain.fields] at hblock
  cases hblock
  rw [filter_encoding_lines hplain.fields, filter_sent_unset hplain.unset] at hlines
  cases hlines

end uvhttp.gzip
