import Uvhttp.Static.Handler
import Uvhttp.Static.LruInvariant

namespace uvhttp.static_files

open uvhttp.http hiding uvhttp_response_send uvhttp_response_send_raw
open uvhttp.output
open uvhttp.lru_cache (Holds Node)

def Handed.is_response : Handed → Bool
  | .response _ _ => true
  | .content _ _ | .transfer _ => false

/-- A request that was accepted has one response, with all its status line and headers
handed over, and for one that was refused nothing was. -/
structure AnsweredOnce (code : UvhttpError) (x : Exchange) : Prop where
  accepted : code = .OK →
    x.handed.countP Handed.is_response = 1 ∧ ∀ data whole, Handed.response data whole ∈ x.handed → whole = true
  refused : code ≠ .OK → x.handed = []

section mishaps

variable (sys : System) (conn : Connection) (request : Request)

/-- A send that fails after it has handed bytes over. -/
def Torn (t : Transport) (data : List UInt8) : Prop :=
  (uvhttp_response_send_raw conn t data).code ≠ .OK ∧ (uvhttp_response_send_raw conn t data).taken ≠ []

/-- The file has become small since it was found large, and is read at once. -/
def Shrunk (file_path : List UInt8) : Prop :=
  ∃ st file, (sys.fs .sendfile_stat).stat file_path = some st ∧ st.size < UVHTTP_STATIC_SMALL_FILE_THRESHOLD ∧
    (sys.fs .sendfile_open).open_file file_path = some file ∧
    sys.alloc .sendfile_context (st.size + 1) = true ∧ file.readable = true

/-- Sendfile comes to the point where it builds its headers. -/
def sendfile_ready (file_path : List UInt8) (st : Stat) : Bool :=
  UVHTTP_STATIC_SMALL_FILE_THRESHOLD ≤ st.size && sys.alloc .sendfile_context 0 &&
    sys.alloc .sendfile_path (file_path.length + 1) && sys.uv_fileno &&
    ((sys.fs .sendfile_open).open_file file_path).isSome

/-- The headers for which all is ready when a file goes out by sendfile. -/
def SendfileHeaders (file_path : List UInt8) (r : Response) (data : List UInt8) : Prop :=
  ∃ st, (sys.fs .sendfile_stat).stat file_path = some st ∧ sendfile_ready sys file_path st = true ∧
    build_data (sys.alloc .sendfile_build) (sendfile_response sys file_path st.size r) = .ok data

/-- A chunk of a file cannot be read, or is not taken. -/
def ChunkLost (file : OpenFile) (file_size bytes_sent sends : Nat) : Prop :=
  (read_chunk file file_size bytes_sent).length ≠ bytes_to_read file_size bytes_sent ∨
    (uvhttp_response_send_raw conn (sys.transport sends) (read_chunk file file_size bytes_sent)).code ≠ .OK

/-- The headers for which all is ready when a file goes out in chunks. -/
def ChunkedHeaders (file_path : List UInt8) (file_size : Nat) (last_modified : Int) (r : Response) (file : OpenFile)
    (data : List UInt8) : Prop :=
  (sys.fs .chunked_open).open_file file_path = some file ∧
    sys.alloc .chunked_open UVHTTP_FILE_CHUNK_SIZE = true ∧
    build_data (sys.alloc .chunked_build)
      (set_status 200 (uvhttp_static_set_response_headers sys (sys.alloc .chunked_headers) file_path file_size
        last_modified (uvhttp_static_generate_etag last_modified file_size) r)) = .ok data

/-- A file goes out in chunks, and the headers or a chunk are not taken as a whole.
`r` and `sends` are the response and the number of sends before. -/
def ChunkedMishap (file_path : List UInt8) (file_size : Nat) (last_modified : Int) (r : Response) (sends : Nat) :
    Prop :=
  ∃ file data, ChunkedHeaders sys file_path file_size last_modified r file data ∧
    (Torn conn (sys.transport sends) data ∨
      ((uvhttp_response_send_raw conn (sys.transport sends) data).code = .OK ∧
        ∃ i, i * UVHTTP_FILE_CHUNK_SIZE < file_size ∧
          ChunkLost sys conn file file_size (i * UVHTTP_FILE_CHUNK_SIZE) (sends + 1 + i)))

/-- The response and the number of sends with which the chunks start when sendfile
has failed: its headers stay in the response. -/
def after_failed_sendfile (file_path : List UInt8) (r : Response) (sends : Nat) : Response × Nat :=
  match (sys.fs .sendfile_stat).stat file_path with
  | none => (r, sends)
  | some st =>
    if sendfile_ready sys file_path st then
      let response := sendfile_response sys file_path st.size r
      match build_data (sys.alloc .sendfile_build) response with
      | .error _ => (response, sends)
      | .ok _ => (response, sends + 1)
    else (r, sends)

/-- What goes wrong with a file above the threshold that has been modified. -/
inductive LargeMishap (file_path : List UInt8) (file_size : Nat) (last_modified : Int) (r : Response) (sends : Nat) :
    Prop where
  | shrunk (h : Shrunk sys file_path)
  | headers_torn {data : List UInt8} (hheaders : SendfileHeaders sys file_path r data)
      (htorn : Torn conn (sys.transport sends) data)
  | transfer_refused {data : List UInt8} (hheaders : SendfileHeaders sys file_path r data)
      (hsent : (uvhttp_response_send_raw conn (sys.transport sends) data).code = .OK)
      (hrefused : sys.uv_timer_init = false ∨ sys.uv_fs_sendfile = false)
  | fallback
      (hheaders : ∀ data, SendfileHeaders sys file_path r data →
        (uvhttp_response_send_raw conn (sys.transport sends) data).code ≠ .OK)
      (hchunked : ChunkedMishap sys conn file_path file_size last_modified
        (after_failed_sendfile sys file_path r sends).1 (after_failed_sendfile sys file_path r sends).2)

/-- What goes wrong with a request: a directory page or a 304 for a file that is not
cached is not sent, a send that fails is not noticed, and a file that goes out in
pieces stops in between. -/
def Mishap (r : Response) : Plan → Prop
  | .refused _ _ => False
  | .cached entry =>
    (uvhttp_response_send conn (sys.transport 0) (cached_response sys request entry r)).1.code ≠ .OK
  | .listing _ => True
  | .large file_path file_size last_modified =>
    uvhttp_static_check_conditional_request sys request (uvhttp_static_generate_etag last_modified file_size)
        last_modified = true ∨
      LargeMishap sys conn file_path file_size last_modified r 0
  | .small file_path last_modified =>
    ∃ content, read_file_content (sys.fs .read) (sys.alloc .read) file_path = some content ∧
      (uvhttp_static_check_conditional_request sys request (uvhttp_static_generate_etag last_modified content.length)
          last_modified = true ∨
        (uvhttp_response_send conn (sys.transport 0)
          (small_response sys file_path content last_modified r)).1.code ≠ .OK)

end mishaps

section answers

/-- Whole headers, and behind them what belongs to the same response, are one answer. -/
theorem answered_once_whole {x : Exchange} {data : List UInt8} {rest : List Handed}
    (hhanded : x.handed = .response data true :: rest) (hrest : ∀ h ∈ rest, h.is_response = false) :
    AnsweredOnce .OK x := by
  refine ⟨fun _ => ⟨?_, ?_⟩, fun hne => absurd rfl hne⟩
  · rw [hhanded, List.countP_cons, List.countP_eq_zero.mpr (by simpa using hrest)]
    rfl
  · intro data' whole hmem
    rw [hhanded] at hmem
    obtain heq | hmem := List.mem_cons.mp hmem
    · exact (Handed.response.inj heq).2
    · exact absurd (hrest _ hmem) (by simp [Handed.is_response])

theorem answered_once_nothing {code : UvhttpError} {x : Exchange} (hcode : code ≠ .OK) (hhanded : x.handed = []) :
    AnsweredOnce code x :=
  ⟨fun heq => absurd heq hcode, fun _ => hhanded⟩

theorem not_answered_once_nothing {x : Exchange} (hhanded : x.handed = []) : ¬ AnsweredOnce .OK x := by
  intro h
  obtain ⟨hcount, _⟩ := h.accepted rfl
  rw [hhanded] at hcount
  exact absurd hcount (by simp)

theorem not_answered_once_torn {x : Exchange} {data : List UInt8} (hmem : .response data false ∈ x.handed) :
    ¬ AnsweredOnce .OK x := by
  intro h
  obtain ⟨_, hwhole⟩ := h.accepted rfl
  exact absurd (hwhole data false hmem) (by simp)

theorem not_answered_once_refused {code : UvhttpError} {x : Exchange} (hcode : code ≠ .OK) (hhanded : x.handed ≠ []) :
    ¬ AnsweredOnce code x :=
  fun h => hhanded (h.refused hcode)

end answers

section sends

variable {sys : System} {conn : Connection}

theorem send_raw_ok (kind : List UInt8 → Bool → Handed) {data : List UInt8} {x : Exchange}
    (h : (uvhttp_response_send_raw conn (sys.transport x.sends) data).code = .OK) :
    (send_raw sys conn kind data x).1 = .OK ∧
      (send_raw sys conn kind data x).2.handed = x.handed ++ [kind data true] := by
  obtain ⟨htaken, hdata⟩ := send_raw_taken h
  refine ⟨h, ?_⟩
  simp only [send_raw, htaken, h, hdata, if_false, decide_true]

theorem send_raw_failed (kind : List UInt8 → Bool → Handed) {data : List UInt8} {x : Exchange}
    (h : (uvhttp_response_send_raw conn (sys.transport x.sends) data).code ≠ .OK)
    (htorn : ¬ Torn conn (sys.transport x.sends) data) :
    (send_raw sys conn kind data x).1 ≠ .OK ∧ (send_raw sys conn kind data x).2.handed = x.handed := by
  refine ⟨h, ?_⟩
  have hnone : (uvhttp_response_send_raw conn (sys.transport x.sends) data).taken = [] := by
    by_contra hne
    exact htorn ⟨h, hne⟩
  simp only [send_raw, hnone, if_true, List.append_nil]

theorem send_raw_torn (kind : List UInt8 → Bool → Handed) {data : List UInt8} {x : Exchange}
    (h : Torn conn (sys.transport x.sends) data) :
    (send_raw sys conn kind data x).1 ≠ .OK ∧
      ∃ taken, (send_raw sys conn kind data x).2.handed = x.handed ++ [kind taken false] := by
  obtain ⟨hcode, htaken⟩ := h
  refine ⟨hcode, (uvhttp_response_send_raw conn (sys.transport x.sends) data).taken, ?_⟩
  simp only [send_raw, htaken, hcode, if_false, decide_false]

theorem build_data_failed {alloc : Nat → Bool} {r : Response} {e : UvhttpError} (h : build_data alloc r = .error e) :
    e ≠ .OK := by
  rw [build_data] at h
  split at h
  · exact absurd h (by simp)
  · rw [build_data_error h]
    simp

/-- The answer to a request whose response is sent once is whole when the send
succeeds, and only then. -/
theorem answered_once_send_response {x : Exchange} (hhanded : x.handed = []) (hsent : x.response.sent = false) :
    AnsweredOnce .OK (send_response sys conn x) ↔
      (uvhttp_response_send conn (sys.transport x.sends) x.response).1.code = .OK := by
  have hsplit : (send_response sys conn x).handed =
      if (uvhttp_response_send conn (sys.transport x.sends) x.response).1.taken = [] then []
      else [.response (uvhttp_response_send conn (sys.transport x.sends) x.response).1.taken
        ((uvhttp_response_send conn (sys.transport x.sends) x.response).1.code = .OK)] := by
    simp only [send_response, hhanded, List.nil_append]
  by_cases hcode : (uvhttp_response_send conn (sys.transport x.sends) x.response).1.code = .OK
  · refine iff_of_true ?_ hcode
    have htaken := response_send_taken hsent hcode
    rw [if_neg htaken, hcode] at hsplit
    exact answered_once_whole hsplit (by simp)
  · refine iff_of_false ?_ hcode
    split at hsplit
    · exact not_answered_once_nothing hsplit
    · apply not_answered_once_torn
      rw [hsplit, decide_eq_false hcode]
      exact List.mem_singleton.mpr rfl

theorem sends_send_raw (kind : List UInt8 → Bool → Handed) (data : List UInt8) (x : Exchange) :
    (send_raw sys conn kind data x).2.sends = x.sends + 1 := rfl

/-- A send adds at most one piece to what was handed over. -/
theorem handed_send_raw_content (data : List UInt8) (x : Exchange) :
    ∃ rest, (send_raw sys conn .content data x).2.handed = x.handed ++ rest ∧ ∀ h ∈ rest, h.is_response = false := by
  refine ⟨_, rfl, ?_⟩
  intro h hmem
  split at hmem
  · exact absurd hmem (by simp)
  · rw [List.mem_singleton.mp hmem]
    rfl

/-- The chunks from an offset on, and whether one of them is lost. -/
def LostFrom (sys : System) (conn : Connection) (file : OpenFile) (file_size bytes_sent sends : Nat) : Prop :=
  ∃ i, bytes_sent + i * UVHTTP_FILE_CHUNK_SIZE < file_size ∧
    ChunkLost sys conn file file_size (bytes_sent + i * UVHTTP_FILE_CHUNK_SIZE) (sends + i)

theorem lostFrom_iff {file : OpenFile} {file_size bytes_sent sends : Nat} (h : bytes_sent < file_size) :
    LostFrom sys conn file file_size bytes_sent sends ↔
      ChunkLost sys conn file file_size bytes_sent sends ∨
        LostFrom sys conn file file_size (bytes_sent + bytes_to_read file_size bytes_sent) (sends + 1) := by
  have hlater (i : Nat) : bytes_sent + (i + 1) * UVHTTP_FILE_CHUNK_SIZE =
      bytes_sent + UVHTTP_FILE_CHUNK_SIZE + i * UVHTTP_FILE_CHUNK_SIZE := by
    rw [Nat.succ_mul]
    omega
  have hread {i : Nat} (hi : bytes_sent + (i + 1) * UVHTTP_FILE_CHUNK_SIZE < file_size) :
      bytes_to_read file_size bytes_sent = UVHTTP_FILE_CHUNK_SIZE := by
    rw [hlater] at hi
    exact min_eq_left (by omega)
  constructor
  · rintro ⟨i, hi, hlost⟩
    cases i with
    | zero =>
      rw [Nat.zero_mul, Nat.add_zero, Nat.add_zero] at hlost
      exact .inl hlost
    | succ i =>
      refine .inr ⟨i, ?_⟩
      rw [hread hi, ← hlater, Nat.add_right_comm sends 1 i]
      exact ⟨hi, hlost⟩
  · rintro (hlost | ⟨i, hi, hlost⟩)
    · exact ⟨0, by omega, by simpa using hlost⟩
    · have hfull : bytes_to_read file_size bytes_sent = UVHTTP_FILE_CHUNK_SIZE := by
        have hchunk : 0 < UVHTTP_FILE_CHUNK_SIZE := by decide
        rw [bytes_to_read] at hi ⊢
        omega
      rw [hfull, ← hlater] at hi hlost
      refine ⟨i + 1, hi, ?_⟩
      rw [Nat.add_right_comm sends 1 i] at hlost
      exact hlost

/-- The loop hands pieces of the file over, and fails when one of them is lost. -/
theorem send_chunks_spec (file : OpenFile) (file_size bytes_sent : Nat) (x : Exchange) :
    (∃ rest, (send_chunks sys conn file file_size bytes_sent x).2.handed = x.handed ++ rest ∧
      ∀ h ∈ rest, h.is_response = false) ∧
      ((send_chunks sys conn file file_size bytes_sent x).1 ≠ .OK ↔
        LostFrom sys conn file file_size bytes_sent x.sends) := by
  fun_induction send_chunks sys conn file file_size bytes_sent x with
  | case1 bytes_sent x hmore hread =>
    refine ⟨⟨[], (List.append_nil _).symm, by simp⟩, iff_of_true (by simp) ?_⟩
    exact (lostFrom_iff hmore).mpr (.inl (.inl hread))
  | case2 bytes_sent x hmore hread sent hfailed =>
    refine ⟨handed_send_raw_content _ x, iff_of_true hfailed ?_⟩
    exact (lostFrom_iff hmore).mpr (.inl (.inr hfailed))
  | case3 bytes_sent x hmore hread sent hsent ih =>
    obtain ⟨⟨rest, hrest, hpieces⟩, hcode⟩ := ih
    obtain ⟨first, hfirst, hpiece⟩ := @handed_send_raw_content sys conn
      (read_chunk file file_size bytes_sent) x
    refine ⟨⟨first ++ rest, ?_, ?_⟩, ?_⟩
    · rw [hrest, hfirst, List.append_assoc]
    · intro h hmem
      obtain hmem | hmem := List.mem_append.mp hmem
      · exact hpiece h hmem
      · exact hpieces h hmem
    · have hkept : ¬ ChunkLost sys conn file file_size bytes_sent x.sends := by
        rintro (hshort | hrefused)
        · exact hread hshort
        · exact hsent hrefused
      rw [hcode, lostFrom_iff hmore, or_iff_right hkept]
      exact Iff.rfl
  | case4 bytes_sent x hdone =>
    refine ⟨⟨[], (List.append_nil _).symm, by simp⟩, iff_of_false (by simp) ?_⟩
    rintro ⟨i, hi, _⟩
    omega

/-- What `send_file_chunked` adds to what was handed over: nothing when it fails
before the headers, and a whole response when it succeeds. -/
inductive ChunkedAdds (code : UvhttpError) (added : List Handed) (mishap : Prop) : Prop where
  | nothing (hcode : code ≠ .OK) (hadded : added = []) (hmishap : ¬ mishap)
  | broken (hcode : code ≠ .OK) (hadded : added ≠ []) (hmishap : mishap)
  | whole {data : List UInt8} {rest : List Handed} (hcode : code = .OK) (hadded : added = .response data true :: rest)
      (hrest : ∀ h ∈ rest, h.is_response = false) (hmishap : ¬ mishap)

theorem ChunkedHeaders.unique {file_path : List UInt8} {file_size : Nat} {last_modified : Int} {r : Response}
    {file file' : OpenFile} {data data' : List UInt8}
    (h : ChunkedHeaders sys file_path file_size last_modified r file data)
    (h' : ChunkedHeaders sys file_path file_size last_modified r file' data') : file' = file ∧ data' = data := by
  obtain ⟨hopen, _, hbuild⟩ := h
  obtain ⟨hopen', _, hbuild'⟩ := h'
  exact ⟨Option.some.inj (hopen'.symm.trans hopen), Except.ok.inj (hbuild'.symm.trans hbuild)⟩

theorem lostFrom_zero {file : OpenFile} {file_size sends : Nat} :
    LostFrom sys conn file file_size 0 sends ↔ ∃ i, i * UVHTTP_FILE_CHUNK_SIZE < file_size ∧
      ChunkLost sys conn file file_size (i * UVHTTP_FILE_CHUNK_SIZE) (sends + i) := by
  simp only [LostFrom, Nat.zero_add]

/-- The headers that are ready, and the chunks behind them. -/
theorem chunked_headers_adds {file_path : List UInt8} {file_size : Nat} {last_modified : Int} {x : Exchange}
    {file : OpenFile} {data : List UInt8}
    (hheaders : ChunkedHeaders sys file_path file_size last_modified x.response file data) (response : Response)
    (files : List (Option (List UInt8))) {result : UvhttpError × Exchange}
    (hresult : result =
      if (send_raw sys conn .response data { x with response, files }).1 ≠ .OK then
        send_raw sys conn .response data { x with response, files }
      else send_chunks sys conn file file_size 0 (send_raw sys conn .response data { x with response, files }).2) :
    ∃ added, result.2.handed = x.handed ++ added ∧
      ChunkedAdds result.1 added (ChunkedMishap sys conn file_path file_size last_modified x.response x.sends) := by
  by_cases hcode : (uvhttp_response_send_raw conn (sys.transport x.sends) data).code = .OK
  · obtain ⟨hok, hadd⟩ := @send_raw_ok sys conn .response data { x with response, files } hcode
    rw [if_neg (not_not.mpr hok)] at hresult
    subst hresult
    obtain ⟨⟨rest, hrest, hpieces⟩, hlost⟩ := @send_chunks_spec sys conn file file_size 0
      (send_raw sys conn .response data { x with response, files }).2
    rw [hadd, List.append_assoc] at hrest
    refine ⟨_, hrest, ?_⟩
    rw [sends_send_raw, lostFrom_zero] at hlost
    by_cases hfailed : (send_chunks sys conn file file_size 0
        (send_raw sys conn .response data { x with response, files }).2).1 = .OK
    · refine .whole hfailed rfl hpieces ?_
      rintro ⟨file', data', hheaders', hmishap⟩
      obtain ⟨rfl, rfl⟩ := hheaders.unique hheaders'
      obtain htorn | ⟨_, hlost'⟩ := hmishap
      · exact htorn.1 hcode
      · exact hlost.mpr hlost' hfailed
    · exact .broken hfailed (by simp) ⟨file, data, hheaders, .inr ⟨hcode, hlost.mp hfailed⟩⟩
  · by_cases htorn : Torn conn (sys.transport x.sends) data
    · obtain ⟨hne, taken, hadd⟩ := @send_raw_torn sys conn .response data { x with response, files } htorn
      rw [if_pos hne] at hresult
      subst hresult
      exact ⟨_, hadd, .broken hne (by simp) ⟨file, data, hheaders, .inl htorn⟩⟩
    · obtain ⟨hne, hadd⟩ := @send_raw_failed sys conn .response data { x with response, files } hcode htorn
      rw [if_pos hne] at hresult
      subst hresult
      refine ⟨[], hadd.trans (List.append_nil _).symm, .nothing hne rfl ?_⟩
      rintro ⟨file', data', hheaders', hmishap⟩
      obtain ⟨rfl, rfl⟩ := hheaders.unique hheaders'
      obtain htorn' | ⟨hok, _⟩ := hmishap
      · exact htorn htorn'
      · exact hcode hok

theorem send_file_chunked_spec (file_path : List UInt8) (file_size : Nat) (last_modified : Int) (x : Exchange) :
    ∃ added, (send_file_chunked sys conn file_path file_size last_modified
        (uvhttp_static_generate_etag last_modified file_size) x).2.handed = x.handed ++ added ∧
      ChunkedAdds (send_file_chunked sys conn file_path file_size last_modified
        (uvhttp_static_generate_etag last_modified file_size) x).1 added
        (ChunkedMishap sys conn file_path file_size last_modified x.response x.sends) := by
  have hnothing : ∀ {result : UvhttpError × Exchange}, result.1 ≠ .OK → result.2.handed = x.handed →
      (∀ file data, ¬ ChunkedHeaders sys file_path file_size last_modified x.response file data) →
      ∃ added, result.2.handed = x.handed ++ added ∧
        ChunkedAdds result.1 added (ChunkedMishap sys conn file_path file_size last_modified x.response x.sends) := by
    intro result hcode hhanded hheaders
    refine ⟨[], hhanded.trans (List.append_nil _).symm, .nothing hcode rfl ?_⟩
    rintro ⟨file, data, h, _⟩
    exact hheaders file data h
  rw [send_file_chunked]
  cases hopen : (sys.fs .chunked_open).open_file file_path with
  | none =>
    apply hnothing (by simp) rfl
    rintro file data ⟨hsome, _⟩
    exact absurd (hopen.symm.trans hsome) (by simp)
  | some file =>
    cases halloc : sys.alloc .chunked_open UVHTTP_FILE_CHUNK_SIZE with
    | false =>
      apply hnothing (by simp) rfl
      rintro file data ⟨_, htrue, _⟩
      exact absurd (halloc.symm.trans htrue) (by simp)
    | true =>
      simp only [Bool.not_true, Bool.false_eq_true, if_false]
      split
      · rename_i err hbuild
        apply hnothing (build_data_failed hbuild) rfl
        rintro file' data ⟨_, _, hok⟩
        exact absurd (hbuild.symm.trans hok) (by simp)
      · rename_i data hbuild
        exact chunked_headers_adds ⟨hopen, halloc, hbuild⟩ _ _ rfl

theorem SendfileHeaders.unique {file_path : List UInt8} {r : Response} {data data' : List UInt8}
    (h : SendfileHeaders sys file_path r data) (h' : SendfileHeaders sys file_path r data') : data' = data := by
  obtain ⟨st, hstat, _, hbuild⟩ := h
  obtain ⟨st', hstat', _, hbuild'⟩ := h'
  obtain rfl : st' = st := Option.some.inj (hstat'.symm.trans hstat)
  exact Except.ok.inj (hbuild'.symm.trans hbuild)

theorem sendfile_ready_size {file_path : List UInt8} {st : Stat} (h : sendfile_ready sys file_path st = true) :
    UVHTTP_STATIC_SMALL_FILE_THRESHOLD ≤ st.size := by
  simp only [sendfile_ready, Bool.and_eq_true, decide_eq_true_eq] at h
  exact h.1.1.1.1

theorem not_shrunk_of_ready {file_path : List UInt8} {st : Stat}
    (hstat : (sys.fs .sendfile_stat).stat file_path = some st) (hready : sendfile_ready sys file_path st = true) :
    ¬ Shrunk sys file_path := by
  rintro ⟨st', _, hstat', hsmall, _⟩
  obtain rfl : st' = st := Option.some.inj (hstat'.symm.trans hstat)
  exact absurd (sendfile_ready_size hready) (not_le.mpr hsmall)

theorem SendfileHeaders.not_shrunk {file_path : List UInt8} {r : Response} {data : List UInt8}
    (h : SendfileHeaders sys file_path r data) : ¬ Shrunk sys file_path := by
  obtain ⟨st, hstat, hready, _⟩ := h
  exact not_shrunk_of_ready hstat hready

/-- What `uvhttp_static_sendfile_with_config` can do: stop before it builds headers,
read a file that has become small, fail to build the headers, or come to send them. -/
inductive SendfileCases (sys : System) (conn : Connection) (config : StaticConfig) (file_path : List UInt8)
    (x : Exchange) : UvhttpError × Exchange → Prop where
  | stopped {code : UvhttpError} (hcode : code ≠ .OK) (hshrunk : ¬ Shrunk sys file_path)
      (hready : ∀ st, (sys.fs .sendfile_stat).stat file_path = some st → sendfile_ready sys file_path st = false) :
      SendfileCases sys conn config file_path x (code, x)
  | shrunk (response : Response) (h : Shrunk sys file_path) :
      SendfileCases sys conn config file_path x
        (.OK, { x with response, files := x.files ++ [(sys.fs .sendfile_open).realpath file_path] })
  | unbuilt {st : Stat} {e : UvhttpError} (hstat : (sys.fs .sendfile_stat).stat file_path = some st)
      (hready : sendfile_ready sys file_path st = true)
      (hbuild : build_data (sys.alloc .sendfile_build) (sendfile_response sys file_path st.size x.response) =
        .error e) :
      SendfileCases sys conn config file_path x
        (e, { x with
          response := sendfile_response sys file_path st.size x.response
          files := x.files ++ [(sys.fs .sendfile_open).realpath file_path] })
  | built {st : Stat} {data : List UInt8} (hstat : (sys.fs .sendfile_stat).stat file_path = some st)
      (hready : sendfile_ready sys file_path st = true)
      (hbuild : build_data (sys.alloc .sendfile_build) (sendfile_response sys file_path st.size x.response) =
        .ok data) :
      SendfileCases sys conn config file_path x
        (sendfile_transfer sys conn config file_path st.size data
          { x with
            response := sendfile_response sys file_path st.size x.response
            files := x.files ++ [(sys.fs .sendfile_open).realpath file_path] })

theorem sendfile_small_cases (config : StaticConfig) {file_path : List UInt8} {x : Exchange} {st : Stat}
    (hstat : (sys.fs .sendfile_stat).stat file_path = some st)
    (hsmall : st.size < UVHTTP_STATIC_SMALL_FILE_THRESHOLD) :
    SendfileCases sys conn config file_path x (sendfile_small sys file_path st.size x) := by
  have hready : ∀ st', (sys.fs .sendfile_stat).stat file_path = some st' →
      sendfile_ready sys file_path st' = false := by
    intro st' hstat'
    obtain rfl : st' = st := Option.some.inj (hstat'.symm.trans hstat)
    refine Bool.eq_false_iff.mpr fun hready => ?_
    exact absurd (sendfile_ready_size hready) (not_le.mpr hsmall)
  have hshrunk : Shrunk sys file_path ↔ ∃ file, (sys.fs .sendfile_open).open_file file_path = some file ∧
      sys.alloc .sendfile_context (st.size + 1) = true ∧ file.readable = true := by
    constructor
    · rintro ⟨st', file, hstat', _, hopen, halloc, hread⟩
      obtain rfl : st' = st := Option.some.inj (hstat'.symm.trans hstat)
      exact ⟨file, hopen, halloc, hread⟩
    · rintro ⟨file, hopen, halloc, hread⟩
      exact ⟨st, file, hstat, hsmall, hopen, halloc, hread⟩
  rw [sendfile_small]
  cases hopen : (sys.fs .sendfile_open).open_file file_path with
  | none => exact .stopped (by simp) (by simp [hshrunk, hopen]) hready
  | some file =>
    cases halloc : sys.alloc .sendfile_context (st.size + 1) with
    | false => exact .stopped (by simp) (by simp [hshrunk, halloc]) hready
    | true =>
      cases hread : file.readable with
      | false =>
        simp only [hread]
        exact .stopped (by simp) (by simp [hshrunk, hopen, hread]) hready
      | true =>
        simp only [hread]
        exact .shrunk _ (hshrunk.mpr ⟨file, hopen, halloc, hread⟩)

theorem sendfile_async_cases {config : StaticConfig} {file_path : List UInt8} {x : Exchange} {st : Stat}
    (hstat : (sys.fs .sendfile_stat).stat file_path = some st)
    (hlarge : UVHTTP_STATIC_SMALL_FILE_THRESHOLD ≤ st.size) :
    SendfileCases sys conn config file_path x (sendfile_async sys conn config file_path st.size x) := by
  have hshrunk : ¬ Shrunk sys file_path := by
    rintro ⟨st', _, hstat', hsmall, _⟩
    obtain rfl : st' = st := Option.some.inj (hstat'.symm.trans hstat)
    omega
  have hstopped : ∀ {code : UvhttpError}, code ≠ .OK → sendfile_ready sys file_path st = false →
      SendfileCases sys conn config file_path x (code, x) := by
    intro code hcode hready
    refine .stopped hcode hshrunk fun st' hstat' => ?_
    obtain rfl : st' = st := Option.some.inj (hstat'.symm.trans hstat)
    exact hready
  rw [sendfile_async]
  cases hcontext : sys.alloc .sendfile_context 0 with
  | false => exact hstopped (by simp) (by simp [sendfile_ready, hcontext])
  | true =>
    cases hpath : sys.alloc .sendfile_path (file_path.length + 1) with
    | false => exact hstopped (by simp) (by simp [sendfile_ready, hpath])
    | true =>
      cases hfileno : sys.uv_fileno with
      | false => exact hstopped (by simp) (by simp [sendfile_ready, hfileno])
      | true =>
        cases hopen : (sys.fs .sendfile_open).open_file file_path with
        | none => exact hstopped (by simp) (by simp [sendfile_ready, hopen])
        | some file =>
          have hready : sendfile_ready sys file_path st = true := by
            simp [sendfile_ready, hlarge, hcontext, hpath, hfileno, hopen]
          simp only [Bool.not_true, Bool.false_eq_true, if_false, Option.isNone_some]
          split
          · rename_i e hbuild
            exact .unbuilt hstat hready hbuild
          · rename_i data hbuild
            exact .built hstat hready hbuild

theorem sendfile_cases (config : StaticConfig) (file_path : List UInt8) (x : Exchange) :
    SendfileCases sys conn config file_path x (uvhttp_static_sendfile_with_config sys conn config file_path x) := by
  rw [uvhttp_static_sendfile_with_config]
  cases hstat : (sys.fs .sendfile_stat).stat file_path with
  | none =>
    refine .stopped (by simp) ?_ (by simp [hstat])
    rintro ⟨st, _, hsome, _⟩
    exact absurd (hstat.symm.trans hsome) (by simp)
  | some st =>
    by_cases hsmall : st.size < UVHTTP_STATIC_SMALL_FILE_THRESHOLD
    · simp only [if_pos hsmall]
      exact sendfile_small_cases config hstat hsmall
    · simp only [if_neg hsmall]
      exact sendfile_async_cases hstat (not_lt.mp hsmall)

/-- How far `uvhttp_static_sendfile_with_config` comes with a file. -/
inductive SendfileAdds (sys : System) (conn : Connection) (file_path : List UInt8) (x : Exchange) (code : UvhttpError)
    (added : List Handed) : Prop where
  | shrunk (hcode : code = .OK) (hadded : added = []) (hshrunk : Shrunk sys file_path)
  | nothing (hcode : code ≠ .OK) (hadded : added = []) (hshrunk : ¬ Shrunk sys file_path)
      (hheaders : ∀ data, SendfileHeaders sys file_path x.response data →
        (uvhttp_response_send_raw conn (sys.transport x.sends) data).code ≠ .OK ∧
          ¬ Torn conn (sys.transport x.sends) data)
  | torn {data taken : List UInt8} (hcode : code ≠ .OK) (hadded : added = [.response taken false])
      (hheaders : SendfileHeaders sys file_path x.response data) (htorn : Torn conn (sys.transport x.sends) data)
  | refused {data : List UInt8} (hcode : code ≠ .OK) (hadded : added = [.response data true])
      (hheaders : SendfileHeaders sys file_path x.response data)
      (hsent : (uvhttp_response_send_raw conn (sys.transport x.sends) data).code = .OK)
      (hrefused : sys.uv_timer_init = false ∨ sys.uv_fs_sendfile = false)
  | accepted {data : List UInt8} (hcode : code = .OK) (hadded : added = [.response data true, .transfer file_path])
      (hheaders : SendfileHeaders sys file_path x.response data)
      (hsent : (uvhttp_response_send_raw conn (sys.transport x.sends) data).code = .OK)
      (htimer : sys.uv_timer_init = true) (haccepted : sys.uv_fs_sendfile = true)

/-- The headers that are ready, and the transfer behind them. -/
theorem sendfile_transfer_adds {config : StaticConfig} {file_path : List UInt8} {file_size : Nat} {x : Exchange}
    {data : List UInt8} (hheaders : SendfileHeaders sys file_path x.response data) (response : Response)
    (files : List (Option (List UInt8))) :
    ∃ added, (sendfile_transfer sys conn config file_path file_size data { x with response, files }).2.handed =
        x.handed ++ added ∧
      SendfileAdds sys conn file_path x
        (sendfile_transfer sys conn config file_path file_size data { x with response, files }).1 added := by
  rw [sendfile_transfer]
  by_cases hcode : (uvhttp_response_send_raw conn (sys.transport x.sends) data).code = .OK
  · obtain ⟨hok, hadd⟩ := @send_raw_ok sys conn .response data { x with response, files } hcode
    simp only [hok, ne_eq, not_true, if_false]
    cases htimer : sys.uv_timer_init with
    | false => exact ⟨_, hadd, .refused (by simp) rfl hheaders hcode (.inl htimer)⟩
    | true =>
      cases haccepted : sys.uv_fs_sendfile with
      | false => exact ⟨_, hadd, .refused (by simp) rfl hheaders hcode (.inr haccepted)⟩
      | true =>
        refine ⟨[.response data true, .transfer file_path], ?_, .accepted rfl rfl hheaders hcode htimer haccepted⟩
        show (send_raw sys conn .response data { x with response, files }).2.handed ++ _ = _
        rw [hadd, List.append_assoc]
        rfl
  · by_cases htorn : Torn conn (sys.transport x.sends) data
    · obtain ⟨hne, taken, hadd⟩ := @send_raw_torn sys conn .response data { x with response, files } htorn
      simp only [ne_eq, hne, not_false_eq_true, if_true]
      exact ⟨_, hadd, .torn hne rfl hheaders htorn⟩
    · obtain ⟨hne, hadd⟩ := @send_raw_failed sys conn .response data { x with response, files } hcode htorn
      simp only [ne_eq, hne, not_false_eq_true, if_true]
      refine ⟨[], hadd.trans (List.append_nil _).symm, .nothing hne rfl hheaders.not_shrunk ?_⟩
      intro data' hheaders'
      obtain rfl := hheaders.unique hheaders'
      exact ⟨hcode, htorn⟩

theorem sendfile_spec (config : StaticConfig) (file_path : List UInt8) (x : Exchange) :
    ∃ added, (uvhttp_static_sendfile_with_config sys conn config file_path x).2.handed = x.handed ++ added ∧
      SendfileAdds sys conn file_path x (uvhttp_static_sendfile_with_config sys conn config file_path x).1 added := by
  have hcases := @sendfile_cases sys conn config file_path x
  generalize uvhttp_static_sendfile_with_config sys conn config file_path x = result at hcases ⊢
  cases hcases with
  | stopped hcode hshrunk hready =>
    refine ⟨[], (List.append_nil _).symm, .nothing hcode rfl hshrunk ?_⟩
    rintro data ⟨st, hstat, htrue, _⟩
    exact absurd ((hready st hstat).symm.trans htrue) (by simp)
  | shrunk response h => exact ⟨[], (List.append_nil _).symm, .shrunk rfl rfl h⟩
  | unbuilt hstat hready hbuild =>
    refine ⟨[], (List.append_nil _).symm,
      .nothing (build_data_failed hbuild) rfl (not_shrunk_of_ready hstat hready) ?_⟩
    rintro data ⟨st, hstat', _, hok⟩
    obtain rfl := Option.some.inj (hstat'.symm.trans hstat)
    exact absurd (hbuild.symm.trans hok) (by simp)
  | built hstat hready hbuild => exact sendfile_transfer_adds ⟨_, hstat, hready, hbuild⟩ _ _

/-- Whatever becomes of the transfer, the headers are in the response and one send is
behind it. -/
theorem sendfile_transfer_leaves (config : StaticConfig) (file_path : List UInt8) (file_size : Nat) (data : List UInt8)
    (x : Exchange) :
    (sendfile_transfer sys conn config file_path file_size data x).2.response = x.response ∧
      (sendfile_transfer sys conn config file_path file_size data x).2.sends = x.sends + 1 ∧
      (sendfile_transfer sys conn config file_path file_size data x).2.files = x.files := by
  rw [sendfile_transfer]
  split
  · exact ⟨rfl, rfl, rfl⟩
  split
  · exact ⟨rfl, rfl, rfl⟩
  split
  · exact ⟨rfl, rfl, rfl⟩
  · exact ⟨rfl, rfl, rfl⟩

/-- What a failed attempt leaves of the response and of the sends. -/
theorem sendfile_failed_leaves {config : StaticConfig} {file_path : List UInt8} {x : Exchange}
    (hcode : (uvhttp_static_sendfile_with_config sys conn config file_path x).1 ≠ .OK) :
    ((uvhttp_static_sendfile_with_config sys conn config file_path x).2.response,
      (uvhttp_static_sendfile_with_config sys conn config file_path x).2.sends) =
      after_failed_sendfile sys file_path x.response x.sends := by
  have hcases := @sendfile_cases sys conn config file_path x
  generalize uvhttp_static_sendfile_with_config sys conn config file_path x = result at hcases hcode ⊢
  rw [after_failed_sendfile]
  cases hcases with
  | stopped _ _ hready =>
    split
    · rfl
    · rename_i st hstat
      rw [if_neg (Bool.eq_false_iff.mp (hready st hstat))]
  | shrunk response h => exact absurd rfl hcode
  | unbuilt hstat hready hbuild => simp only [hstat, hready, if_true, hbuild]
  | @built st data hstat hready hbuild =>
    obtain ⟨hresponse, hsends, _⟩ := @sendfile_transfer_leaves sys conn config file_path st.size data { x with
      response := sendfile_response sys file_path st.size x.response
      files := x.files ++ [(sys.fs .sendfile_open).realpath file_path] }
    simp only [hstat, hready, if_true, hbuild, hresponse, hsends]

end sends

section returns

variable {sys : System} {conn : Connection} {config : StaticConfig} {request : Request}
variable {cache : lru_cache.CacheManager} {response : Response} {nodes : List Node}

end returns

section requests

variable {sys : System} {conn : Connection} {config : StaticConfig} {request : Request}

/-- Two responses are no answer. -/
theorem not_answered_once_twice {code : UvhttpError} {x : Exchange} {first second : List UInt8} {rest : List Handed}
    (hhanded : x.handed = .response first true :: .response second true :: rest) : ¬ AnsweredOnce code x := by
  intro h
  by_cases hcode : code = .OK
  · obtain ⟨hcount, _⟩ := h.accepted hcode
    rw [hhanded, List.countP_cons, List.countP_cons] at hcount
    simp only [Handed.is_response, if_true] at hcount
    omega
  · exact absurd (h.refused hcode) (by simp [hhanded])

/-- Headers that were handed over before the fallback spoil the answer, whatever the
fallback does. -/
theorem not_answered_once_fallback {file_path : List UInt8} {file_size : Nat} {last_modified : Int} {x : Exchange}
    {data : List UInt8} {whole : Bool} (hhanded : x.handed = [.response data whole]) :
    ¬ AnsweredOnce (send_file_chunked sys conn file_path file_size last_modified
        (uvhttp_static_generate_etag last_modified file_size) x).1
      (send_file_chunked sys conn file_path file_size last_modified
        (uvhttp_static_generate_etag last_modified file_size) x).2 := by
  obtain ⟨added, hadd, hadds⟩ := @send_file_chunked_spec sys conn file_path file_size last_modified x
  rw [hhanded, List.singleton_append] at hadd
  cases hadds with
  | nothing hcode => exact not_answered_once_refused hcode (by simp [hadd])
  | broken hcode => exact not_answered_once_refused hcode (by simp [hadd])
  | whole hcode hadded =>
    rw [hadded] at hadd
    cases whole with
    | true => exact not_answered_once_twice hadd
    | false =>
      rw [hcode]
      apply not_answered_once_torn
      rw [hadd]
      exact List.mem_cons_self

/-- A fallback that starts from nothing answers once unless a mishap befalls it. -/
theorem answered_once_fallback {file_path : List UInt8} {file_size : Nat} {last_modified : Int} {x : Exchange}
    (hhanded : x.handed = []) :
    AnsweredOnce (send_file_chunked sys conn file_path file_size last_modified
        (uvhttp_static_generate_etag last_modified file_size) x).1
      (send_file_chunked sys conn file_path file_size last_modified
        (uvhttp_static_generate_etag last_modified file_size) x).2 ↔
      ¬ ChunkedMishap sys conn file_path file_size last_modified x.response x.sends := by
  obtain ⟨added, hadd, hadds⟩ := @send_file_chunked_spec sys conn file_path file_size last_modified x
  rw [hhanded, List.nil_append] at hadd
  cases hadds with
  | nothing hcode hadded hmishap => exact iff_of_true (answered_once_nothing hcode (hadd.trans hadded)) hmishap
  | broken hcode hadded hmishap =>
    refine iff_of_false (not_answered_once_refused hcode ?_) (not_not.mpr hmishap)
    rw [hadd]
    exact hadded
  | whole hcode hadded hrest hmishap =>
    rw [hcode]
    exact iff_of_true (answered_once_whole (hadd.trans hadded) hrest) hmishap

theorem answered_once_large {file_path : List UInt8} {file_size : Nat} {last_modified : Int} {x : Exchange}
    (hhanded : x.handed = []) (hsends : x.sends = 0) :
    AnsweredOnce (serve_large sys conn config request file_path file_size last_modified x).1
      (serve_large sys conn config request file_path file_size last_modified x).2 ↔
      ¬ Mishap sys conn request x.response (.large file_path file_size last_modified) := by
  simp only [serve_large, Mishap]
  by_cases hcond : uvhttp_static_check_conditional_request sys request
      (uvhttp_static_generate_etag last_modified file_size) last_modified = true
  · simp only [hcond, if_true]
    exact iff_of_false (not_answered_once_nothing hhanded) (by simp)
  · simp only [hcond, Bool.false_eq_true, if_false, false_or]
    obtain ⟨added, hadd, hadds⟩ := @sendfile_spec sys conn config file_path x
    rw [hhanded, List.nil_append] at hadd
    cases hadds with
    | shrunk hcode hadded hshrunk =>
      rw [if_neg (not_not.mpr hcode)]
      exact iff_of_false (not_answered_once_nothing (hadd.trans hadded)) (not_not.mpr (.shrunk hshrunk))
    | nothing hcode hadded hshrunk hheaders =>
      obtain ⟨hresponse, hcount⟩ := Prod.ext_iff.mp (sendfile_failed_leaves hcode)
      simp only [hsends] at hheaders hresponse hcount
      rw [if_pos hcode, answered_once_fallback (hadd.trans hadded), not_iff_not, hresponse, hcount]
      constructor
      · exact fun hmishap => .fallback (fun data h => (hheaders data h).1) hmishap
      · intro hmishap
        cases hmishap with
        | shrunk h => exact absurd h hshrunk
        | headers_torn h htorn => exact absurd htorn (hheaders _ h).2
        | transfer_refused h hsent _ => exact absurd hsent (hheaders _ h).1
        | fallback _ hchunked => exact hchunked
    | torn hcode hadded hheaders htorn =>
      rw [hsends] at htorn
      rw [if_pos hcode]
      exact iff_of_false (not_answered_once_fallback (hadd.trans hadded)) (not_not.mpr (.headers_torn hheaders htorn))
    | refused hcode hadded hheaders hsent hrefused =>
      rw [hsends] at hsent
      rw [if_pos hcode]
      exact iff_of_false (not_answered_once_fallback (hadd.trans hadded))
        (not_not.mpr (.transfer_refused hheaders hsent hrefused))
    | accepted hcode hadded hheaders hsent htimer haccepted =>
      rw [hsends] at hsent
      rw [if_neg (not_not.mpr hcode)]
      apply iff_of_true (answered_once_whole (hadd.trans hadded) (by simp [Handed.is_response]))
      intro hmishap
      cases hmishap with
      | shrunk h => exact hheaders.not_shrunk h
      | headers_torn h htorn =>
        obtain rfl := hheaders.unique h
        exact htorn.1 hsent
      | transfer_refused _ _ hrefused => simp [htimer, haccepted] at hrefused
      | fallback hfailed _ => exact hfailed _ hheaders hsent

theorem sent_set_status (status_code : Int) (r : Response) : (set_status status_code r).sent = r.sent := by
  rw [set_status, uvhttp_response_set_status]
  split <;> rfl

theorem sent_write_header (r : Response) (name value : List UInt8) : (write_header r name value).2.sent = r.sent := by
  rw [write_header]
  split <;> rfl

theorem sent_set_header (alloc : Nat → Bool) (name : String) (value : List UInt8) (r : Response) :
    (set_header alloc name value r).sent = r.sent := by
  rw [set_header, uvhttp_response_set_header]
  split
  · rfl
  split
  · rfl
  split
  · split
    · rfl
    · split
      · rfl
      · exact sent_write_header _ _ _
  · exact sent_write_header _ _ _

theorem sent_set_body (alloc : Nat → Bool) (r : Response) (body : List UInt8) :
    (uvhttp_response_set_body alloc r body).2.sent = r.sent := by
  rw [uvhttp_response_set_body]
  split
  · rfl
  split
  · rfl
  split <;> rfl

theorem sent_set_response_headers (alloc : Nat → Bool) (file_path : List UInt8) (file_size : Nat) (last_modified : Int)
    (etag : List UInt8) (r : Response) :
    (uvhttp_static_set_response_headers sys alloc file_path file_size last_modified etag r).sent = r.sent := by
  have hoptional {condition : Prop} [Decidable condition] (name : String) (value : List UInt8) (r : Response) :
      (if condition then set_header alloc name value r else r).sent = r.sent := by
    split
    · exact sent_set_header alloc name value r
    · rfl
  simp only [uvhttp_static_set_response_headers]
  rw [sent_set_header, hoptional, hoptional, sent_set_header, hoptional, sent_set_header]

theorem sent_cached_response (entry : lru_cache.CacheEntry) (r : Response) :
    (cached_response sys request entry r).sent = r.sent := by
  rw [cached_response]
  split
  · exact sent_set_status _ _
  · simp only [sent_set_status]
    split
    · exact sent_set_response_headers _ _ _ _ _ _
    · rw [sent_set_body, sent_set_response_headers]

theorem sent_small_response (file_path content : List UInt8) (last_modified : Int) (r : Response) :
    (small_response sys file_path content last_modified r).sent = r.sent := by
  simp only [small_response]
  rw [sent_set_status, sent_set_body, sent_set_response_headers]

theorem answered_once_small {file_path : List UInt8} {last_modified : Int} {x : Exchange} (hhanded : x.handed = [])
    (hsent : x.response.sent = false) (hsends : x.sends = 0) {code : UvhttpError} {x' : Exchange}
    (h : serve_small sys conn request file_path last_modified x = some (code, x')) :
    AnsweredOnce code x' ↔ ¬ Mishap sys conn request x.response (.small file_path last_modified) := by
  rw [serve_small] at h
  simp only [Mishap]
  cases hread : read_file_content (sys.fs .read) (sys.alloc .read) file_path with
  | none =>
    simp only [hread] at h
    obtain ⟨rfl, rfl⟩ := Prod.mk.inj (Option.some.inj h)
    exact iff_of_true (answered_once_nothing (by simp) hhanded) (by simp)
  | some content =>
    simp only [hread] at h
    simp only [Option.some.injEq, exists_eq_left']
    by_cases hcond : uvhttp_static_check_conditional_request sys request
        (uvhttp_static_generate_etag last_modified content.length) last_modified = true
    · simp only [hcond, if_true] at h
      obtain ⟨rfl, rfl⟩ := Prod.mk.inj (Option.some.inj h)
      exact iff_of_false (not_answered_once_nothing hhanded) (by simp [hcond])
    · simp only [hcond, Bool.false_eq_true, if_false] at h
      simp only [hcond, Bool.false_eq_true, false_or, not_not]
      split at h
      · exact absurd h (by simp)
      · rename_i cache _
        obtain ⟨rfl, rfl⟩ := Prod.mk.inj (Option.some.inj h)
        have hanswered := @answered_once_send_response sys conn { x with
          cache
          response := small_response sys file_path content last_modified x.response
          files := x.files ++ [(sys.fs .read).realpath file_path] } hhanded ((sent_small_response _ _ _ _).trans hsent)
        rw [← hsends]
        exact hanswered

theorem answered_once_cached {entry : lru_cache.CacheEntry} {x : Exchange} (hhanded : x.handed = [])
    (hsent : x.response.sent = false) (hsends : x.sends = 0) :
    AnsweredOnce (serve_cached sys conn request entry x).1 (serve_cached sys conn request entry x).2 ↔
      ¬ Mishap sys conn request x.response (.cached entry) := by
  simp only [serve_cached, Mishap, not_not, ← hsends]
  exact answered_once_send_response hhanded ((sent_cached_response _ _).trans hsent)

theorem answered_once_execute {x : Exchange} (hhanded : x.handed = []) (hsent : x.response.sent = false)
    (hsends : x.sends = 0) {plan : Plan} (hplan : ∀ status, plan ≠ .refused .OK status) {code : UvhttpError}
    {x' : Exchange} (h : execute sys conn config request x plan = some (code, x')) :
    AnsweredOnce code x' ↔ ¬ Mishap sys conn request x.response plan := by
  cases plan with
  | refused refusal status =>
    obtain ⟨rfl, rfl⟩ := Prod.mk.inj (Option.some.inj h)
    refine iff_of_true (answered_once_nothing ?_ hhanded) not_false
    rintro rfl
    exact hplan status rfl
  | cached entry =>
    have hcached := @answered_once_cached sys conn request entry x hhanded hsent hsends
    rw [Option.some.inj h] at hcached
    exact hcached
  | listing html =>
    obtain ⟨rfl, rfl⟩ := Prod.mk.inj (Option.some.inj h)
    exact iff_of_false (not_answered_once_nothing hhanded) (not_not.mpr trivial)
  | large file_path file_size last_modified =>
    have hlarge := @answered_once_large sys conn config request file_path file_size last_modified x hhanded hsends
    rw [Option.some.inj h] at hlarge
    exact hlarge
  | small file_path last_modified => exact answered_once_small hhanded hsent hsends h

theorem locate_refused (clean safe_path : List UInt8) (status : Int) :
    locate sys config clean safe_path ≠ .refused .OK status := by
  rw [locate]
  split
  · simp
  split
  · split
    · simp
    · dsimp only
      split
      · simp
      · split <;> simp
  · simp

theorem plan_located_refused {located : Located} (hlocated : ∀ status, located ≠ .refused .OK status) (status : Int) :
    plan_located sys config request located ≠ .refused .OK status := by
  cases located with
  | refused code status' =>
    intro heq
    obtain ⟨rfl, rfl⟩ := Plan.refused.inj heq
    exact hlocated _ rfl
  | listing html => exact Plan.noConfusion
  | file file_path file_size last_modified =>
    simp only [plan_located, plan_file]
    split
    · simp
    split <;> simp

/-- No request is refused with success. -/
theorem plan_refused {cache cache' : lru_cache.CacheManager} {p : Plan}
    (h : plan sys config request cache = some (p, cache')) (status : Int) : p ≠ .refused .OK status := by
  rw [plan] at h
  split at h
  · obtain ⟨rfl, _⟩ := Prod.mk.inj (Option.some.inj h)
    simp
  split at h
  · obtain ⟨rfl, _⟩ := Prod.mk.inj (Option.some.inj h)
    simp
  split at h
  · exact absurd h (by simp)
  · obtain ⟨rfl, _⟩ := Prod.mk.inj (Option.some.inj h)
    exact plan_located_refused (locate_refused _ _) status
  · obtain ⟨entry, _, heq⟩ := Option.map_eq_some_iff.mp h
    obtain ⟨rfl, _⟩ := Prod.mk.inj heq
    simp

variable {cache : lru_cache.CacheManager} {response : Response} {code : UvhttpError} {x : Exchange}

/-- The handler answers a request exactly once, or leaves it to its caller untouched,
unless one of the mishaps befalls it. -/
theorem handle_request_answered_once (hsent : response.sent = false)
    (h : uvhttp_static_handle_request sys conn config request cache response = some (code, x)) :
    AnsweredOnce code x ↔
      ∀ p cache', plan sys config request cache = some (p, cache') → ¬ Mishap sys conn request response p := by
  rw [uvhttp_static_handle_request] at h
  cases hplan : plan sys config request cache with
  | none =>
    rw [hplan] at h
    exact absurd h (by simp)
  | some planned =>
    obtain ⟨p, cache'⟩ := planned
    rw [hplan] at h
    have hanswered := answered_once_execute rfl hsent rfl (plan_refused hplan) h
    constructor
    · intro honce p' cache'' heq
      obtain ⟨rfl, _⟩ := Prod.mk.inj (Option.some.inj heq)
      exact hanswered.mp honce
    · exact fun hnone => hanswered.mpr (hnone p cache' rfl)

/-- A site with a file `/a`, and with a directory `/d` that may be listed. -/
def small_site : FileSystem where
  realpath := some
  stat := fun path =>
    if path = bytes "/srv/a" then some ⟨true, false, 1, 0⟩
    else if path = bytes "/srv/d" then some ⟨false, true, 4096, 0⟩
    else none
  open_file := fun path => if path = bytes "/srv/a" then some ⟨true, 1, true, bytes "x"⟩ else none
  directory_listing := fun _ _ => some (bytes "<html></html>")

def small_site_config : StaticConfig := ⟨bytes "/srv", bytes "index.html", 1048576, true, ⟨2, 65536⟩⟩

def get (url : String) (headers : List Header) : Request := { uvhttp_request_init with url := bytes url, headers }

/-- A request for the file, on a connection without TLS. -/
theorem handle_request_answered_once_file :
    ∃ cache code x, (lru_cache.uvhttp_lru_cache_create true 1000000 10 0).toOption = some cache ∧
      uvhttp_static_handle_request (.willing small_site) ⟨false, false⟩ small_site_config (get "/a" []) cache
        uvhttp_response_init = some (code, x) ∧ AnsweredOnce code x := by
  have hcomputed : (lru_cache.uvhttp_lru_cache_create true 1000000 10 0).toOption.any (fun cache =>
      (uvhttp_static_handle_request (.willing small_site) ⟨false, false⟩ small_site_config (get "/a" []) cache
        uvhttp_response_init).isSome &&
      (plan (.willing small_site) small_site_config (get "/a" []) cache).all fun planned =>
        planned.1 = .small (bytes "/srv/a") 0) = true := by
    decide +kernel
  have hsent : (uvhttp_response_send ⟨false, false⟩ ((System.willing small_site).transport 0)
      (small_response (.willing small_site) (bytes "/srv/a") (bytes "x") 0 uvhttp_response_init)).1.code = .OK := by
    decide +kernel
  simp only [Option.any_eq_true, Bool.and_eq_true] at hcomputed
  obtain ⟨cache, hcache, hsome, hplan⟩ := hcomputed
  obtain ⟨⟨code, x⟩, hresult⟩ := Option.isSome_iff_exists.mp hsome
  refine ⟨cache, code, x, hcache, hresult, (handle_request_answered_once rfl hresult).mpr ?_⟩
  intro p cache' hp
  rw [hp] at hplan
  obtain rfl : p = .small (bytes "/srv/a") 0 := by simpa using hplan
  rintro ⟨content, hread, hmishap⟩
  obtain rfl : content = bytes "x" := by
    have hcontent : read_file_content small_site (fun _ => true) (bytes "/srv/a") = some (bytes "x") := by
      decide +kernel
    exact Option.some.inj (hread.symm.trans hcontent)
  obtain hcond | hfailed := hmishap
  · exact absurd hcond (by decide +kernel)
  · exact hfailed hsent

/-- Nobody sends the page of a directory, nor the 304 for a file that is not cached. -/
theorem handle_request_unanswered :
    ∃ cache, (lru_cache.uvhttp_lru_cache_create true 1000000 10 0).toOption = some cache ∧
      ∀ request ∈ [get "/d" [], get "/a" [⟨bytes "If-None-Match", bytes "\"1-0\""⟩]],
        ∃ x, uvhttp_static_handle_request (.willing small_site) ⟨false, false⟩ small_site_config request cache
          uvhttp_response_init = some (.OK, x) ∧ x.handed = [] ∧ ¬ AnsweredOnce .OK x := by
  have hcomputed : (lru_cache.uvhttp_lru_cache_create true 1000000 10 0).toOption.any (fun cache =>
      [get "/d" [], get "/a" [⟨bytes "If-None-Match", bytes "\"1-0\""⟩]].all fun request =>
        (uvhttp_static_handle_request (.willing small_site) ⟨false, false⟩ small_site_config request cache
          uvhttp_response_init).any fun result => result.1 = .OK && result.2.handed = []) = true := by
    decide +kernel
  simp only [Option.any_eq_true, List.all_eq_true, Bool.and_eq_true, decide_eq_true_eq] at hcomputed
  obtain ⟨cache, hcache, hall⟩ := hcomputed
  refine ⟨cache, hcache, fun request hrequest => ?_⟩
  obtain ⟨⟨code, x⟩, hresult, rfl, hhanded⟩ := hall request hrequest
  exact ⟨x, hresult, hhanded, not_answered_once_nothing hhanded⟩

end requests

end uvhttp.static_files
