import Uvhttp.Http.Framing
import Uvhttp.Http.SetHeader

namespace uvhttp.header_block

open http gzip machine

/-- A call of `uvhttp_response_set_header`, with the allocator at that time. -/
structure HeaderCall where
  alloc : Nat → Bool
  name : List UInt8
  value : List UInt8

def header_step (r : Response) (call : HeaderCall) : Response × UvhttpError :=
  let set := http.uvhttp_response_set_header call.alloc r call.name call.value
  (set.2, set.1)

/-- Name and value fit their fields, with the terminators. -/
def HeaderCall.Fits (call : HeaderCall) : Prop :=
  call.name.length < UVHTTP_HEADER_NAME_BUFFER_SIZE ∧ call.value.length < UVHTTP_HEADER_VALUE_BUFFER_SIZE

/-- The headers of the calls that succeed. -/
def accepted_headers (r : Response) : List HeaderCall → List Header
  | [] => []
  | call :: calls =>
    (if (header_step r call).2 = .OK then [⟨call.name, call.value⟩] else []) ++
      accepted_headers (header_step r call).1 calls

/-- Some of the headers has this name, ignoring case. -/
def names (headers : List Header) (name : List UInt8) : Bool := headers.any fun h => strcasecmp h.name name

/-- The default lines, for the names that are not set. `Keep-Alive` goes with
`Connection`. -/
def default_lines (headers : List Header) (body : Option (List UInt8)) (keepalive : Bool) : List (List UInt8) :=
  (if names headers (bytes "Content-Type") then [] else [bytes "Content-Type: text/plain"]) ++
    (if names headers (bytes "Content-Length") then []
      else [bytes "Content-Length: " ++ bytes (toString (body.getD []).length)]) ++
    (if names headers (bytes "Connection") then []
      else if keepalive then
        [bytes "Connection: keep-alive", bytes "Keep-Alive: timeout=" ++
          bytes (toString UVHTTP_DEFAULT_KEEP_ALIVE_TIMEOUT) ++ bytes ", max=" ++
          bytes (toString UVHTTP_DEFAULT_KEEP_ALIVE_MAX)]
      else [bytes "Connection: close"])

/-- The lines of a header block: the status line, a line for each header, the
default lines and an empty line. -/
def block_lines (status_code : Int) (headers : List Header) (body : Option (List UInt8)) (keepalive : Bool) :
    List (List UInt8) :=
  [bytes "HTTP/1.1 " ++ bytes (toString status_code) ++ bytes " " ++ get_status_text status_code] ++
    (headers.map fun h => h.name ++ bytes ": " ++ h.value) ++ default_lines headers body keepalive ++ [[]]

/-- Every byte is a blank or stands behind it in ASCII. -/
def Printable (line : List UInt8) : Prop := ∀ b ∈ line, 32 ≤ b

theorem Printable.append {front back : List UInt8} (hfront : Printable front) (hback : Printable back) :
    Printable (front ++ back) := by
  intro b hb
  rcases List.mem_append.mp hb with hmem | hmem
  · exact hfront b hmem
  · exact hback b hmem

theorem Printable.no_terminator {line : List UInt8} (h : Printable line) : CR ∉ line ∧ LF ∉ line :=
  ⟨fun hmem => absurd (h CR hmem) (by decide), fun hmem => absurd (h LF hmem) (by decide)⟩

instance (line : List UInt8) : Decidable (Printable line) := List.decidableBAll _ line

theorem printable_digits (n : Nat) : Printable (bytes (toString n)) := by
  intro b hb
  have hdigit := digit_of_mem_bytes hb
  rw [UInt8.le_iff_toNat_le]
  exact Nat.le_trans (by decide) hdigit.1

theorem printable_status_code (status_code : Int) : Printable (bytes (toString status_code)) := by
  cases status_code with
  | ofNat n => exact printable_digits n
  | negSucc n =>
    have heq : bytes (toString (Int.negSucc n)) = [45] ++ bytes (toString (n + 1)) := by
      rw [bytes, show toString (Int.negSucc n) = "-" ++ toString (n + 1) from rfl, String.toList_append]
      rfl
    rw [heq]
    exact Printable.append (by decide) (printable_digits (n + 1))

theorem printable_ite {p : Prop} [Decidable p] {yes no : List UInt8} (hyes : Printable yes) (hno : Printable no) :
    Printable (if p then yes else no) := by
  split
  · exact hyes
  · exact hno

theorem printable_status_text (status_code : Int) : Printable (get_status_text status_code) := by
  unfold get_status_text
  iterate 14 refine printable_ite (by decide) ?_
  decide

/-- A header as it is accepted: it passed the checks and fits its fields. -/
structure Accepted (h : Header) : Prop where
  valid : ValidHeader h.name h.value
  fits : h.name.length < UVHTTP_HEADER_NAME_BUFFER_SIZE ∧ h.value.length < UVHTTP_HEADER_VALUE_BUFFER_SIZE

theorem Accepted.printable {h : Header} (haccepted : Accepted h) : Printable (h.name ++ bytes ": " ++ h.value) := by
  obtain ⟨hname, hvalue, -⟩ := haccepted.valid
  simp only [uvhttp_validate_header_name, uvhttp_validate_header_value_safe, Bool.and_eq_true, List.all_eq_true]
    at hname hvalue
  refine Printable.append (Printable.append ?_ (by decide)) ?_
  · intro b hb
    have hchar := hname.2 b hb
    simp only [isalnum, Bool.or_eq_true, Bool.and_eq_true, decide_eq_true_eq, UInt8.le_iff_toNat_le] at hchar ⊢
    rcases hchar with ((hdigit | hupper) | hlower) | rfl
    · exact Nat.le_trans (by decide) hdigit.1
    · exact Nat.le_trans (by decide) hupper.1
    · exact Nat.le_trans (by decide) hlower.1
    · decide
  · intro b hb
    have hchar := hvalue.2 b hb
    simp only [Bool.not_eq_true', Bool.or_eq_false_iff, decide_eq_false_iff_not] at hchar
    exact UInt8.not_lt.mp hchar.1

theorem sent_headers_accepted {headers : List Header} (h : ∀ header ∈ headers, Accepted header) :
    sent_headers headers = headers :=
  sent_headers_eq fun header hmem => ⟨(h header hmem).fits.2, (h header hmem).valid.2.2⟩

theorem header_lines_eq (status_code : Int) (headers : List Header) (body : Option (List UInt8)) (keepalive : Bool) :
    header_lines status_code headers body keepalive =
      [bytes "HTTP/1.1 " ++ bytes (toString status_code) ++ bytes " " ++ get_status_text status_code] ++
        ((sent_headers headers).map fun h => h.name ++ bytes ": " ++ h.value) ++
        default_lines (sent_headers headers) body keepalive := by
  rw [header_lines, default_lines]
  simp [names, List.append_assoc]

theorem header_text_accepted {headers : List Header} (h : ∀ header ∈ headers, Accepted header) (status_code : Int)
    (body : Option (List UInt8)) (keepalive : Bool) :
    header_text status_code headers body keepalive =
      text_lines.render CR LF (block_lines status_code headers body keepalive) := by
  have hend : text_lines.render CR LF [[]] = [CR, LF] := rfl
  rw [header_text_eq, header_lines_eq, sent_headers_accepted h, ← hend, ← text_lines.render_append, block_lines]

/-- A default line is a field with a printable value. -/
theorem default_line_form {headers : List Header} {body : Option (List UInt8)} {keepalive : Bool} {line : List UInt8}
    (hline : line ∈ default_lines headers body keepalive) :
    ∃ name ∈ [bytes "Content-Type", bytes "Content-Length", bytes "Connection", bytes "Keep-Alive"],
      ∃ value, Printable value ∧ line = name ++ bytes ": " ++ value := by
  rw [default_lines, List.mem_append, List.mem_append] at hline
  rcases hline with (htype | hlength) | hconnection
  · split at htype
    · cases htype
    · rw [List.mem_singleton.mp htype]
      exact ⟨bytes "Content-Type", by decide, bytes "text/plain", by decide, by decide⟩
  · split at hlength
    · cases hlength
    · rw [List.mem_singleton.mp hlength]
      exact ⟨bytes "Content-Length", by decide, _, printable_digits _, rfl⟩
  · split at hconnection
    · cases hconnection
    · split at hconnection
      · rcases List.mem_cons.mp hconnection with rfl | hkeep
        · exact ⟨bytes "Connection", by decide, bytes "keep-alive", by decide, by decide⟩
        · rw [List.mem_singleton.mp hkeep]
          exact ⟨bytes "Keep-Alive", by decide, bytes "timeout=30, max=100", by decide, by decide⟩
      · rw [List.mem_singleton.mp hconnection]
        exact ⟨bytes "Connection", by decide, bytes "close", by decide, by decide⟩

theorem printable_default_lines (headers : List Header) (body : Option (List UInt8)) (keepalive : Bool) :
    ∀ line ∈ default_lines headers body keepalive, Printable line := by
  intro line hline
  obtain ⟨name, hname, value, hvalue, rfl⟩ := default_line_form hline
  have hprintable : ∀ name ∈ [bytes "Content-Type", bytes "Content-Length", bytes "Connection", bytes "Keep-Alive"],
      Printable name := by decide
  exact Printable.append (Printable.append (hprintable name hname) (by decide)) hvalue

theorem printable_block_lines {headers : List Header} (h : ∀ header ∈ headers, Accepted header) (status_code : Int)
    (body : Option (List UInt8)) (keepalive : Bool) :
    ∀ line ∈ block_lines status_code headers body keepalive, Printable line := by
  intro line hline
  rw [block_lines, List.mem_append, List.mem_append, List.mem_append] at hline
  rcases hline with ((hstatus | hheader) | hdefault) | hend
  · rw [List.mem_singleton.mp hstatus]
    refine Printable.append (Printable.append (Printable.append ?_ (printable_status_code _)) ?_)
      (printable_status_text _)
    · decide
    · decide
  · obtain ⟨header, hmem, rfl⟩ := List.mem_map.mp hheader
    exact (h header hmem).printable
  · exact printable_default_lines headers body keepalive line hdefault
  · rw [List.mem_singleton.mp hend]
    exact fun b hb => (by cases hb)

section calls

variable {r : Response}

/-- One call: the header is added, or nothing changes. -/
theorem header_step_cases (h : ResponseTable r) (call : HeaderCall) :
    (ValidHeader call.name call.value ∧ HeaderRoom call.alloc r ∧
      header_step r call = (with_header r call.name call.value, .OK)) ∨
    ∃ code, code ≠ .OK ∧ header_step r call = (r, code) := by
  unfold header_step
  rw [h.set_header]
  by_cases hvalid : ValidHeader call.name call.value
  · by_cases hroom : HeaderRoom call.alloc r
    · rw [if_pos hvalid, if_pos hroom]
      exact .inl ⟨hvalid, hroom, rfl⟩
    · rw [if_pos hvalid, if_neg hroom]
      exact .inr ⟨.OUT_OF_MEMORY, by decide, rfl⟩
  · rw [if_neg hvalid]
    exact .inr ⟨.INVALID_PARAM, by decide, rfl⟩

/-- What any calls leave: the headers of those that succeeded behind the ones
that were there, and nothing else changed. -/
theorem run_headers (h : ResponseTable r) {calls : List HeaderCall} (hfits : ∀ call ∈ calls, call.Fits) :
    ResponseTable (run header_step r calls) ∧
      (run header_step r calls).headers = r.headers ++ accepted_headers r calls ∧
      (run header_step r calls).status_code = r.status_code ∧ (run header_step r calls).body = r.body ∧
      (run header_step r calls).keepalive = r.keepalive ∧ ∀ header ∈ accepted_headers r calls, Accepted header := by
  induction calls generalizing r with
  | nil =>
    rw [accepted_headers, List.append_nil]
    exact ⟨h, rfl, rfl, rfl, rfl, fun header hheader => by cases hheader⟩
  | cons call calls ih =>
    obtain ⟨hfirst, hrest⟩ := List.forall_mem_cons.mp hfits
    rw [machine.run, accepted_headers]
    rcases header_step_cases h call with ⟨hvalid, hroom, heq⟩ | ⟨code, hcode, heq⟩
    · obtain ⟨htable, hheaders, hstatus, hbody, hkeepalive, haccepted⟩ := ih (h.with_header _ _ hroom) hrest
      rw [heq, if_pos rfl]
      refine ⟨htable, ?_, hstatus, hbody, hkeepalive, ?_⟩
      · rw [hheaders, with_header, written_header_fits hfirst.1 hfirst.2, List.append_assoc]
      · rw [List.singleton_append, List.forall_mem_cons]
        exact ⟨⟨hvalid, hfirst⟩, haccepted⟩
    · rw [heq, if_neg hcode, List.nil_append]
      exact ih h hrest

end calls

/-- The text of the headers after any calls that fit their fields. -/
theorem header_text_run {r : Response} (htable : ResponseTable r) (hempty : r.headers = []) {calls : List HeaderCall}
    (hfits : ∀ call ∈ calls, call.Fits) :
    header_text (run header_step r calls).status_code (run header_step r calls).headers
        (run header_step r calls).body (run header_step r calls).keepalive =
      text_lines.render CR LF (block_lines r.status_code (accepted_headers r calls) r.body r.keepalive) := by
  obtain ⟨-, hheaders, hstatus, hbody, hkeepalive, haccepted⟩ := run_headers htable hfits
  rw [hempty, List.nil_append] at hheaders
  rw [hheaders, hstatus, hbody, hkeepalive, header_text_accepted haccepted]

/-- After any calls of `uvhttp_response_set_header` with names and values that
fit their fields, on a response without headers, the block that
`build_response_headers` writes to a buffer that is large enough is, cut at
CRLF, the status line, a line for each header accepted, in order, the default
lines for names that were not set, and an empty line; and no CR or LF stands
alone in it. -/
theorem no_response_splitting {r : Response} (htable : ResponseTable r) (hempty : r.headers = [])
    {calls : List HeaderCall} (hfits : ∀ call ∈ calls, call.Fits) {length : Nat}
    (hbuffer : (build_response_headers (run header_step r calls) length).2 < length) :
    text_lines.lines CR LF (build_response_headers (run header_step r calls) length).1 =
        some (block_lines r.status_code (accepted_headers r calls) r.body r.keepalive) ∧
      text_lines.paired CR LF (build_response_headers (run header_step r calls) length).1 = true := by
  obtain ⟨-, -, -, -, -, haccepted⟩ := run_headers htable hfits
  have hprintable := printable_block_lines haccepted r.status_code r.body r.keepalive
  have hblock : (build_response_headers (run header_step r calls) length).1 =
      text_lines.render CR LF (block_lines r.status_code (accepted_headers r calls) r.body r.keepalive) := by
    rw [build_response_headers] at hbuffer ⊢
    dsimp only at hbuffer ⊢
    rw [if_pos hbuffer, header_text_run htable hempty hfits]
  rw [hblock]
  exact ⟨text_lines.lines_render fun line hline => (hprintable line hline).no_terminator.1,
    text_lines.paired_render (fun line hline => (hprintable line hline).no_terminator.1)
      fun line hline => (hprintable line hline).no_terminator.2⟩

/-- A header, and another one whose value tries to break out of its line. -/
def breakout_calls : List HeaderCall :=
  [⟨fun _ => true, bytes "X-Id", bytes "7"⟩, ⟨fun _ => true, bytes "X-Id", bytes "7\r\nSet-Cookie: a=b"⟩]

/-- The second header is not accepted and leaves no trace. -/
theorem no_response_splitting_breakout :
    text_lines.lines CR LF (build_response_headers (run header_step http.uvhttp_response_init breakout_calls) 16384).1 =
        some (block_lines 200 [⟨bytes "X-Id", bytes "7"⟩] none true) ∧
      text_lines.paired CR LF
        (build_response_headers (run header_step http.uvhttp_response_init breakout_calls) 16384).1 = true := by
  have hsplit := @no_response_splitting http.uvhttp_response_init responseTable_init rfl breakout_calls
    (by
      intro call hcall
      rcases List.mem_cons.mp hcall with rfl | hlast
      · exact ⟨by decide, by decide⟩
      · rw [List.mem_singleton.mp hlast]
        exact ⟨by decide, by decide⟩)
    16384 (by decide +kernel)
  rwa [show accepted_headers http.uvhttp_response_init breakout_calls = [⟨bytes "X-Id", bytes "7"⟩] by
    decide +kernel] at hsplit

end uvhttp.header_block
