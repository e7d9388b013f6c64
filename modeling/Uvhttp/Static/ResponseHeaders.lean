import Uvhttp.Http.Framing
import Uvhttp.Http.SetHeader
import Uvhttp.Static.Handler

namespace uvhttp.static_files

open uvhttp.http hiding uvhttp_response_send uvhttp_response_send_raw
open uvhttp.lru_cache (UVHTTP_MAX_FILE_PATH_SIZE)

/-- A path that ends in `.gz`, as `uvhttp_static_set_response_headers` finds it. -/
def is_precompressed (file_path : List UInt8) : Bool :=
  file_path.length > 3 && (bytes ".gz").isSuffixOf file_path && file_path.length - 3 < UVHTTP_MAX_FILE_PATH_SIZE

/-- The headers that `uvhttp_static_set_response_headers` sets, in their order. -/
def static_headers (sys : System) (file_path : List UInt8) (file_size : Nat) (last_modified : Int) (etag : List UInt8) :
    List (String × List UInt8) :=
  [("Content-Type",
      sys.mime_type (if is_precompressed file_path then file_path.take (file_path.length - 3) else file_path))] ++
    (if is_precompressed file_path then [("Content-Encoding", bytes "gzip")] else []) ++
    [("Content-Length", bytes (toString file_size))] ++
    (if last_modified > 0 then [("Last-Modified", sys.http_date last_modified)] else []) ++
    (if etag ≠ [] then [("ETag", etag)] else []) ++
    [("Cache-Control", bytes "public, max-age=UVHTTP_CACHE_DEFAULT_TTL")]

/-- One header after the other. -/
def set_headers (alloc : Nat → Bool) (calls : List (String × List UInt8)) (r : Response) : Response :=
  calls.foldl (fun r call => set_header alloc call.1 call.2 r) r

section headers

variable {sys : System} {alloc : Nat → Bool} {file_path etag : List UInt8} {file_size : Nat} {last_modified : Int}
  {r : Response} {h : Header} {calls : List (String × List UInt8)}

theorem set_response_headers_eq :
    uvhttp_static_set_response_headers sys alloc file_path file_size last_modified etag r =
      set_headers alloc (static_headers sys file_path file_size last_modified etag) r := by
  have happend : ∀ (calls more : List (String × List UInt8)) (r : Response),
      set_headers alloc (calls ++ more) r = set_headers alloc more (set_headers alloc calls r) :=
    fun calls more r => List.foldl_append
  simp only [static_headers, happend]
  rw [uvhttp_static_set_response_headers, ← is_precompressed]
  have hencoding : ∀ r : Response,
      set_headers alloc (if is_precompressed file_path then [("Content-Encoding", bytes "gzip")] else []) r =
        if is_precompressed file_path then set_header alloc "Content-Encoding" (bytes "gzip") r else r := by
    intro r
    split <;> rfl
  have hmodified : ∀ r : Response,
      set_headers alloc (if last_modified > 0 then [("Last-Modified", sys.http_date last_modified)] else []) r =
        if last_modified > 0 then set_header alloc "Last-Modified" (sys.http_date last_modified) r else r := by
    intro r
    split <;> rfl
  have hetag : ∀ r : Response,
      set_headers alloc (if etag ≠ [] then [("ETag", etag)] else []) r =
        if etag ≠ [] then set_header alloc "ETag" etag r else r := by
    intro r
    split <;> rfl
  rw [hencoding, hmodified, hetag]
  rfl

/-- A header that is there afterwards was there before or is the new one. -/
theorem mem_set_header {name : String} {value : List UInt8} (hmem : h ∈ (set_header alloc name value r).headers) :
    h ∈ r.headers ∨ h = written_header (bytes name) value := by
  have hwrite : ∀ r' : Response, r'.headers = r.headers → h ∈ (write_header r' (bytes name) value).2.headers →
      h ∈ r.headers ∨ h = written_header (bytes name) value := by
    intro r' hsame hmem
    rw [write_header] at hmem
    split at hmem
    · rw [← hsame, ← List.mem_singleton (b := written_header (bytes name) value), ← List.mem_append]
      exact hmem
    · exact .inl (hsame ▸ hmem)
  rw [set_header, uvhttp_response_set_header] at hmem
  split at hmem
  · exact .inl hmem
  split at hmem
  · exact .inl hmem
  split at hmem
  · split at hmem
    · exact .inl hmem
    · split at hmem
      · exact .inl hmem
      · exact hwrite { r with headers_capacity := _, headers_extra := true } rfl hmem
  · exact hwrite r rfl hmem

theorem mem_set_headers (hmem : h ∈ (set_headers alloc calls r).headers) :
    h ∈ r.headers ∨ ∃ call ∈ calls, h = written_header (bytes call.1) call.2 := by
  induction calls generalizing r with
  | nil => exact .inl hmem
  | cons call calls ih =>
    rcases ih hmem with hfirst | ⟨later, hlater, heq⟩
    · rcases mem_set_header hfirst with hold | heq
      · exact .inl hold
      · exact .inr ⟨call, List.mem_cons_self, heq⟩
    · exact .inr ⟨later, List.mem_cons_of_mem call hlater, heq⟩

theorem mem_static_headers {call : String × List UInt8}
    (hcall : call ∈ static_headers sys file_path file_size last_modified etag) :
    (∃ mime_type, call = ("Content-Type", mime_type)) ∨
      (is_precompressed file_path = true ∧ call = ("Content-Encoding", bytes "gzip")) ∨
      call = ("Content-Length", bytes (toString file_size)) ∨
      (last_modified > 0 ∧ call = ("Last-Modified", sys.http_date last_modified)) ∨
      call = ("ETag", etag) ∨ call = ("Cache-Control", bytes "public, max-age=UVHTTP_CACHE_DEFAULT_TTL") := by
  simp only [static_headers, List.mem_append, List.mem_singleton] at hcall
  obtain (((((h | h) | h) | h) | h) | h) := hcall
  · exact .inl ⟨_, h⟩
  · split at h
    · rename_i hgz
      exact .inr (.inl ⟨hgz, List.mem_singleton.mp h⟩)
    · cases h
  · exact .inr (.inr (.inl h))
  · split at h
    · rename_i hpos
      exact .inr (.inr (.inr (.inl ⟨hpos, List.mem_singleton.mp h⟩)))
    · cases h
  · split at h
    · exact .inr (.inr (.inr (.inr (.inl (List.mem_singleton.mp h)))))
    · cases h
  · exact .inr (.inr (.inr (.inr (.inr h))))

theorem name_written_header (name value : List UInt8) :
    (written_header name value).name = name.take (UVHTTP_MAX_HEADER_NAME_SIZE - 1) := rfl

end headers

section values

variable {sys : System} {alloc : Nat → Bool} {r : Response} {calls : List (String × List UInt8)} {name : String}

/-- The values of the headers with a name. -/
def header_values (headers : List Header) (name : String) : List (List UInt8) :=
  (headers.filter fun h => strcasecmp h.name (bytes name)).map Header.value

/-- The headers that are written for calls, where there is room. -/
def written_headers (calls : List (String × List UInt8)) : List Header :=
  (calls.filter fun call => ValidHeader (bytes call.1) call.2).map fun call => written_header (bytes call.1) call.2

/-- While the inline slots last every valid header is set. -/
theorem headers_set_headers (htable : ResponseTable r) (hroom : r.headers.length + calls.length ≤ 32) :
    (set_headers alloc calls r).headers = r.headers ++ written_headers calls := by
  induction calls generalizing r with
  | nil => exact (List.append_nil _).symm
  | cons call calls ih =>
    rw [List.length_cons] at hroom
    have hspare : r.headers.length < r.headers_capacity := by
      rcases htable.capacity with hsmall | ⟨hlarge, -⟩
      · omega
      · omega
    have hfree : HeaderRoom alloc r := .inl hspare
    rw [set_headers, List.foldl_cons, ← set_headers, set_header, htable.set_header]
    by_cases hvalid : ValidHeader (bytes call.1) call.2
    · have hnext : (with_header r (bytes call.1) call.2).headers.length + calls.length ≤ 32 := by
        rw [with_header, List.length_append, List.length_singleton]
        omega
      rw [if_pos hvalid, if_pos hfree, ih (htable.with_header _ _ hfree) hnext, with_header, List.append_assoc,
        written_headers, written_headers, List.filter_cons_of_pos (by simpa using hvalid)]
      rfl
    · rw [if_neg hvalid, ih htable (by omega), written_headers, written_headers,
        List.filter_cons_of_neg (by simpa using hvalid)]

theorem header_values_append (headers more : List Header) :
    header_values (headers ++ more) name = header_values headers name ++ header_values more name := by
  rw [header_values, List.filter_append, List.map_append]
  rfl

theorem written_headers_append (more : List (String × List UInt8)) :
    written_headers (calls ++ more) = written_headers calls ++ written_headers more := by
  rw [written_headers, List.filter_append, List.map_append]
  rfl

/-- A header with another name adds no value. -/
theorem header_values_other {other : String} {value : List UInt8}
    (hother : strcasecmp ((bytes other).take (UVHTTP_MAX_HEADER_NAME_SIZE - 1)) (bytes name) = false) :
    header_values (written_headers [(other, value)]) name = [] := by
  rw [header_values, List.map_eq_nil_iff, List.filter_eq_nil_iff]
  intro h hmem
  obtain ⟨call, hcall, rfl⟩ := List.mem_map.mp hmem
  obtain rfl := List.mem_singleton.mp (List.mem_filter.mp hcall).1
  rw [name_written_header, hother]
  exact Bool.false_ne_true

theorem header_values_same {value : List UInt8} (hvalid : ValidHeader (bytes name) value)
    (hname : (bytes name).length < UVHTTP_HEADER_NAME_BUFFER_SIZE)
    (hvalue : value.length < UVHTTP_HEADER_VALUE_BUFFER_SIZE) :
    header_values (written_headers [(name, value)]) name = [value] := by
  have hwritten : written_headers [(name, value)] = [⟨bytes name, value⟩] := by
    rw [written_headers, List.filter_cons_of_pos (by simpa using hvalid), List.filter_nil, List.map_singleton,
      written_header_fits hname hvalue]
  have hsame : strcasecmp (bytes name) (bytes name) = true := decide_eq_true rfl
  rw [hwritten, header_values, List.filter_cons, if_pos hsame]
  rfl

theorem header_values_optional {c : Prop} [Decidable c] {other : String} {value : List UInt8}
    (hother : strcasecmp ((bytes other).take (UVHTTP_MAX_HEADER_NAME_SIZE - 1)) (bytes name) = false) :
    header_values (written_headers (if c then [(other, value)] else [])) name = [] := by
  split
  · exact header_values_other hother
  · rfl

theorem validHeader_content_length (length : Nat) (hlength : length ≤ UVHTTP_MAX_BODY_SIZE) :
    ValidHeader (bytes "Content-Length") (bytes (toString length)) := by
  apply validHeader_of_checks (by decide)
  rw [uvhttp_validate_header_value_safe, Bool.and_eq_true, decide_eq_true_eq, List.all_eq_true]
  constructor
  · exact (gzip.length_toString_le hlength).trans (by decide)
  · intro c hc
    obtain ⟨hlow, hhigh⟩ := gzip.digit_of_mem_bytes hc
    rw [Bool.not_eq_true', Bool.or_eq_false_iff, decide_eq_false_iff_not, decide_eq_false_iff_not,
      UInt8.lt_iff_toNat_lt, UInt8.ext_iff]
    constructor
    · exact Nat.not_lt.mpr (show 32 ≤ c.toNat by omega)
    · exact Nat.ne_of_lt (show c.toNat < 127 by omega)

variable {file_path etag : List UInt8} {file_size : Nat} {last_modified : Int}

theorem length_static_headers_le (sys : System) (file_path etag : List UInt8) (file_size : Nat) (last_modified : Int) :
    (static_headers sys file_path file_size last_modified etag).length ≤ 6 := by
  simp only [static_headers, List.length_append, List.length_singleton]
  split_ifs
  all_goals
    simp only [List.length_cons, List.length_nil]
    omega

theorem headers_set_response_headers (htable : ResponseTable r) (hempty : r.headers = []) :
    (uvhttp_static_set_response_headers sys alloc file_path file_size last_modified etag r).headers =
      written_headers (static_headers sys file_path file_size last_modified etag) := by
  have hlength := length_static_headers_le sys file_path etag file_size last_modified
  rw [set_response_headers_eq, headers_set_headers htable, hempty, List.nil_append]
  rw [hempty, List.length_nil]
  omega

/-- The announced length is the one that was given. -/
theorem content_length_values (htable : ResponseTable r) (hempty : r.headers = [])
    (hsize : file_size ≤ UVHTTP_MAX_BODY_SIZE) :
    header_values (uvhttp_static_set_response_headers sys alloc file_path file_size last_modified etag r).headers
      "Content-Length" = [bytes (toString file_size)] := by
  have hdigits := gzip.length_toString_le hsize
  rw [headers_set_response_headers htable hempty, static_headers]
  simp only [written_headers_append, header_values_append]
  rw [header_values_other (by decide), header_values_optional (by decide),
    header_values_same (validHeader_content_length file_size hsize) (by decide), header_values_optional (by decide),
    header_values_optional (by decide), header_values_other (by decide)]
  · rfl
  · exact Nat.lt_of_le_of_lt hdigits (by decide)

/-- The encoding is announced exactly for a path that ends in `.gz`. -/
theorem content_encoding_values (htable : ResponseTable r) (hempty : r.headers = []) :
    header_values (uvhttp_static_set_response_headers sys alloc file_path file_size last_modified etag r).headers
      "Content-Encoding" = if is_precompressed file_path then [bytes "gzip"] else [] := by
  have hvalid : ValidHeader (bytes "Content-Encoding") (bytes "gzip") := by decide
  have hgzip : header_values (written_headers [("Content-Encoding", bytes "gzip")]) "Content-Encoding" =
      [bytes "gzip"] := header_values_same hvalid (by decide) (by decide)
  rw [headers_set_response_headers htable hempty, static_headers]
  simp only [written_headers_append, header_values_append]
  cases is_precompressed file_path with
  | true =>
    simp only [if_true]
    rw [header_values_other (by decide), hgzip, header_values_other (by decide), header_values_optional (by decide),
      header_values_optional (by decide), header_values_other (by decide)]
    rfl
  | false =>
    simp only [Bool.false_eq_true, if_false]
    rw [header_values_other (by decide), header_values_other (by decide), header_values_optional (by decide),
      header_values_optional (by decide), header_values_other (by decide)]
    rfl

end values

end uvhttp.static_files
