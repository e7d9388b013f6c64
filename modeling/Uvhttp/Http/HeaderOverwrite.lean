import Uvhttp.Http.HeaderBlock

namespace uvhttp.header_block

open http gzip machine

/-- The header of a call. -/
def HeaderCall.header (call : HeaderCall) : Header := ⟨call.name, call.value⟩

/-- The stored headers as they are read. -/
def read_headers (r : Response) : List Header := r.headers.mapIdx fun i h => ⟨h.name, header_value_at r.headers i h⟩

/-- The value of the last call for a name, ignoring case. -/
def last_value (calls : List HeaderCall) (name : List UInt8) : Option (List UInt8) :=
  (calls.reverse.find? fun call => strcasecmp call.name name).map HeaderCall.value

/-- A line of a header block for a name, ignoring case. -/
def named (name line : List UInt8) : Bool := strcasecmp (field_name line) name

/-- What overwriting would leave: for each name that was set one stored header,
with the value of the last call, and not two lines of the header block. -/
structure Overwrites (r : Response) (calls : List HeaderCall) : Prop where
  stored : ∀ call ∈ calls, ∃ header,
    ((read_headers r).filter fun h => strcasecmp h.name call.name) = [header] ∧
      last_value calls call.name = some header.value
  emitted : ∃ lines, text_lines.lines CR LF (header_text r.status_code r.headers r.body r.keepalive) = some lines ∧
    ∀ call ∈ calls, (lines.filter (named call.name)).length ≤ 1

/-- No name is set twice. -/
def SetOnce (calls : List HeaderCall) : Prop := calls.Pairwise fun a b => strcasecmp a.name b.name = false

/-- The default `Keep-Alive` line is written although the name is set: it asks
only for `Connection`. -/
def KeepAliveTwice (r : Response) (calls : List HeaderCall) : Prop :=
  r.keepalive = true ∧ (∃ call ∈ calls, strcasecmp call.name (bytes "Keep-Alive") = true) ∧
    ∀ call ∈ calls, strcasecmp call.name (bytes "Connection") = false

section names

variable {a b c : List UInt8}

theorem strcasecmp_refl (a : List UInt8) : strcasecmp a a = true := decide_eq_true rfl

theorem strcasecmp_symm (h : strcasecmp a b = true) : strcasecmp b a = true :=
  decide_eq_true (of_decide_eq_true h).symm

theorem strcasecmp_comm (a b : List UInt8) : strcasecmp a b = strcasecmp b a := by
  rw [Bool.eq_iff_iff]
  exact ⟨strcasecmp_symm, strcasecmp_symm⟩

end names

section duplicates

variable {α : Type} {same : α → α → Bool} {l : List α}

/-- An element that is like no other one is alone among its like. -/
theorem filter_of_pairwise (hrefl : ∀ a, same a a = true) (hcomm : ∀ a b, same a b = same b a)
    (h : l.Pairwise fun a b => same a b = false) {a : α} (hmem : a ∈ l) : (l.filter fun b => same b a) = [a] := by
  induction l with
  | nil => cases hmem
  | cons b l ih =>
    obtain ⟨hhead, htail⟩ := List.pairwise_cons.mp h
    rcases List.mem_cons.mp hmem with rfl | hlater
    · rw [List.filter_cons, if_pos (hrefl a), List.filter_eq_nil_iff.mpr]
      intro c hc
      rw [hcomm, hhead c hc]
      exact Bool.false_ne_true
    · rw [List.filter_cons_of_neg, ih htail hlater]
      rw [hhead a hlater]
      exact Bool.false_ne_true

/-- Elements that are alone among their like are pairwise different. -/
theorem pairwise_of_filter (hrefl : ∀ a, same a a = true)
    (h : ∀ a ∈ l, (l.filter fun b => same b a).length ≤ 1) : l.Pairwise fun a b => same a b = false := by
  induction l with
  | nil => exact List.Pairwise.nil
  | cons b l ih =>
    rw [List.pairwise_cons]
    refine ⟨fun a ha => ?_, ih fun a ha => ?_⟩
    · by_contra hsame
      rw [Bool.not_eq_false] at hsame
      have htwo := h a (List.mem_cons_of_mem b ha)
      have hself : a ∈ l.filter fun c => same c a := List.mem_filter.mpr ⟨ha, hrefl a⟩
      have hpos := List.length_pos_of_mem hself
      rw [List.filter_cons, if_pos hsame, List.length_cons] at htwo
      omega
    · refine Nat.le_trans ?_ (h a (List.mem_cons_of_mem b ha))
      exact ((List.sublist_cons_self b l).filter _).length_le

end duplicates

section lines

variable {headers : List Header} {header : Header}

/-- A name passed the check when it was set. -/
theorem Accepted.name_chars (h : Accepted header) :
    header.name ≠ [] ∧ ∀ c ∈ header.name, isalnum c = true ∨ c = 45 := by
  have hvalid := h.valid.1
  simp only [uvhttp_validate_header_name, Bool.and_eq_true, decide_eq_true_eq, List.all_eq_true, Bool.or_eq_true]
    at hvalid
  refine ⟨?_, hvalid.2⟩
  intro hnil
  have hlength := hvalid.1.1
  rw [hnil] at hlength
  exact absurd hlength (by decide)

/-- The status line is no header line: a slash stands in it. -/
theorem named_status_line (h : Accepted header) (status_code : Int) :
    named header.name
      (bytes "HTTP/1.1 " ++ bytes (toString status_code) ++ bytes " " ++ get_status_text status_code) = false := by
  rw [List.append_assoc, List.append_assoc]
  generalize bytes (toString status_code) ++ (bytes " " ++ get_status_text status_code) = rest
  have hfront : field_name (bytes "HTTP/1.1 " ++ rest) = bytes "HTTP/1.1 " ++ field_name rest := by
    have hcolon : (bytes "HTTP/1.1 ").all (· != COLON) = true := by decide
    rw [field_name, List.takeWhile_append_of_pos (List.all_eq_true.mp hcolon)]
    rfl
  rw [named, hfront, strcasecmp, decide_eq_false_iff_not]
  intro hsame
  have hslash : (47 : UInt8) ∈ (bytes "HTTP/1.1 " ++ field_name rest).map
      fun c => if 65 ≤ c && c ≤ 90 then c + 32 else c := by
    rw [List.map_append]
    exact List.mem_append_left _ (by decide)
  rw [hsame] at hslash
  obtain ⟨c, hc, hlower⟩ := List.mem_map.mp hslash
  have hchar := h.name_chars.2 c hc
  split at hlower
  · rename_i hupper
    simp only [Bool.and_eq_true, decide_eq_true_eq, UInt8.le_iff_toNat_le] at hupper
    have hvalue := congrArg UInt8.toNat hlower
    rw [UInt8.toNat_add] at hvalue
    simp only [UInt8.reduceToNat] at hupper hvalue
    omega
  · subst hlower
    exact absurd hchar (by decide)

theorem named_header_line (h : Accepted header) (name : List UInt8) :
    named name (header.name ++ bytes ": " ++ header.value) = strcasecmp header.name name := by
  rw [named, field_name_append]
  intro hcolon
  exact absurd (h.name_chars.2 COLON hcolon) (by decide)

theorem names_of_mem (hmem : header ∈ headers) {name : List UInt8} (h : strcasecmp name header.name = true) :
    names headers name = true := List.any_eq_true.mpr ⟨header, hmem, strcasecmp_symm h⟩

/-- A default line is not written for a name that is set. -/
theorem filter_default (hmem : header ∈ headers) {name line : List UInt8} (hfield : field_name line = name) :
    ((if names headers name then [] else [line]).filter (named header.name)) = [] := by
  split
  · rfl
  · rename_i hunset
    rw [List.filter_cons_of_neg, List.filter_nil]
    rw [named, hfield]
    exact fun h => hunset (names_of_mem hmem h)

/-- Of the default lines only `Keep-Alive` can be for a name that is set. -/
theorem filter_default_lines (hmem : header ∈ headers) (body : Option (List UInt8)) (keepalive : Bool) :
    ((default_lines headers body keepalive).filter (named header.name)).length =
      if keepalive = true ∧ strcasecmp (bytes "Keep-Alive") header.name = true ∧
        names headers (bytes "Connection") = false then 1 else 0 := by
  have htype : field_name (bytes "Content-Type: text/plain") = bytes "Content-Type" := by decide
  have hlength : field_name (bytes "Content-Length: " ++ bytes (toString (body.getD []).length)) =
      bytes "Content-Length" :=
    @field_name_append (bytes "Content-Length") (by decide) _
  have hclose : field_name (bytes "Connection: close") = bytes "Connection" := by decide
  have hkeep : field_name (bytes "Connection: keep-alive") = bytes "Connection" := by decide
  have hkeepalive : field_name (bytes "Keep-Alive: timeout=" ++ bytes (toString UVHTTP_DEFAULT_KEEP_ALIVE_TIMEOUT) ++
      bytes ", max=" ++ bytes (toString UVHTTP_DEFAULT_KEEP_ALIVE_MAX)) = bytes "Keep-Alive" := by decide
  rw [default_lines, List.filter_append, List.filter_append, filter_default hmem htype, filter_default hmem hlength,
    List.nil_append, List.nil_append]
  generalize bytes "Keep-Alive: timeout=" ++ bytes (toString UVHTTP_DEFAULT_KEEP_ALIVE_TIMEOUT) ++ bytes ", max=" ++
    bytes (toString UVHTTP_DEFAULT_KEEP_ALIVE_MAX) = line at hkeepalive ⊢
  cases hconnection : names headers (bytes "Connection") with
  | true => simp
  | false =>
    have hunset : strcasecmp (bytes "Connection") header.name = false := by
      rw [← Bool.not_eq_true]
      intro h
      rw [names_of_mem hmem h] at hconnection
      cases hconnection
    cases keepalive with
    | false => simp [named, hclose, hunset]
    | true =>
      cases hsame : strcasecmp (bytes "Keep-Alive") header.name with
      | false => simp [named, hkeep, hkeepalive, hunset, hsame]
      | true => simp [named, hkeep, hkeepalive, hunset, hsame]

/-- The lines for a name that is set: one for each header with it, and perhaps
the default `Keep-Alive` line. -/
theorem filter_block_lines (h : ∀ header ∈ headers, Accepted header) (hmem : header ∈ headers) (status_code : Int)
    (body : Option (List UInt8)) (keepalive : Bool) :
    ((block_lines status_code headers body keepalive).filter (named header.name)).length =
      (headers.filter fun other => strcasecmp other.name header.name).length +
        if keepalive = true ∧ strcasecmp (bytes "Keep-Alive") header.name = true ∧
          names headers (bytes "Connection") = false then 1 else 0 := by
  have hend : named header.name [] = false := by
    obtain ⟨c, rest, hcons⟩ := List.exists_cons_of_ne_nil (h header hmem).name_chars.1
    rw [named, hcons]
    rfl
  have hfields : ((headers.map fun h => h.name ++ bytes ": " ++ h.value).filter (named header.name)).length =
      (headers.filter fun other => strcasecmp other.name header.name).length := by
    rw [List.filter_map, List.length_map]
    congr 1
    apply List.filter_congr
    intro other hother
    exact named_header_line (h other hother) header.name
  rw [block_lines, List.filter_append, List.filter_append, List.filter_append, List.length_append, List.length_append,
    List.length_append, hfields, filter_default_lines hmem,
    List.filter_cons_of_neg (by rw [named_status_line (h header hmem)]; exact Bool.false_ne_true),
    List.filter_cons_of_neg (by rw [hend]; exact Bool.false_ne_true), List.filter_nil, List.length_nil, Nat.zero_add,
    Nat.add_zero]

end lines

section calls

variable {r : Response} {calls : List HeaderCall}

/-- Calls that all succeed are all accepted. -/
theorem accepted_headers_of_answers (hsuccess : ∀ code ∈ answers header_step r calls, code = .OK) :
    accepted_headers r calls = calls.map HeaderCall.header := by
  induction calls generalizing r with
  | nil => rfl
  | cons call calls ih =>
    rw [answers, List.forall_mem_cons] at hsuccess
    rw [accepted_headers, if_pos hsuccess.1, ih hsuccess.2, List.map_cons]
    rfl

theorem read_headers_accepted (h : ∀ header ∈ r.headers, Accepted header) : read_headers r = r.headers :=
  header_values_fit fun header hmem => (h header hmem).fits.2

theorem names_map_header (name : List UInt8) :
    names (calls.map HeaderCall.header) name = false ↔ ∀ call ∈ calls, strcasecmp call.name name = false := by
  rw [names, List.any_map, List.any_eq_false]
  apply forall₂_congr
  intro call _
  rw [Bool.not_eq_true]
  rfl

/-- The calls for a name and the headers they set. -/
theorem filter_map_header (name : List UInt8) :
    ((calls.map HeaderCall.header).filter fun h => strcasecmp h.name name) =
      (calls.filter fun call => strcasecmp call.name name).map HeaderCall.header := List.filter_map

theorem last_value_of_filter {call : HeaderCall} {name : List UInt8}
    (h : (calls.filter fun call => strcasecmp call.name name) = [call]) : last_value calls name = some call.value := by
  rw [last_value, ← List.head?_filter, List.filter_reverse, h]
  rfl

/-- The header block after successful calls, line by line. -/
theorem lines_run (htable : ResponseTable r) (hempty : r.headers = [])
    (hsuccess : ∀ code ∈ answers header_step r calls, code = .OK) (hfits : ∀ call ∈ calls, call.Fits) :
    text_lines.lines CR LF (header_text (run header_step r calls).status_code
      (run header_step r calls).headers (run header_step r calls).body (run header_step r calls).keepalive) =
      some (block_lines r.status_code (calls.map HeaderCall.header) r.body r.keepalive) := by
  obtain ⟨-, -, -, -, -, haccepted⟩ := run_headers htable hfits
  have htext := header_text_run htable hempty hfits
  rw [accepted_headers_of_answers hsuccess] at haccepted htext
  have hprintable := printable_block_lines haccepted r.status_code r.body r.keepalive
  rw [htext]
  exact text_lines.lines_render fun line hline => (hprintable line hline).no_terminator.1

/-- How often a name that was set stands in the header block. -/
theorem length_filter_block_lines (haccepted : ∀ header ∈ calls.map HeaderCall.header, Accepted header)
    {call : HeaderCall} (hcall : call ∈ calls) (status_code : Int) (body : Option (List UInt8)) (keepalive : Bool) :
    ((block_lines status_code (calls.map HeaderCall.header) body keepalive).filter (named call.name)).length =
      (calls.filter fun other => strcasecmp other.name call.name).length +
        if keepalive = true ∧ strcasecmp (bytes "Keep-Alive") call.name = true ∧
          names (calls.map HeaderCall.header) (bytes "Connection") = false then 1 else 0 := by
  have hmem : call.header ∈ calls.map HeaderCall.header := List.mem_map_of_mem hcall
  have hnamed := filter_block_lines haccepted hmem status_code body keepalive
  rw [filter_map_header, List.length_map] at hnamed
  exact hnamed

/-- After successful calls of `uvhttp_response_set_header`, with names and
values that fit their fields, each name has one stored header, with its last
value, and one line of the header block exactly when no name was set twice and
no `Keep-Alive` header stands beside the default one. -/
theorem overwrites_iff (htable : ResponseTable r) (hempty : r.headers = [])
    (hsuccess : ∀ code ∈ answers header_step r calls, code = .OK) (hfits : ∀ call ∈ calls, call.Fits) :
    Overwrites (run header_step r calls) calls ↔ SetOnce calls ∧ ¬ KeepAliveTwice r calls := by
  obtain ⟨-, hheaders, -, -, -, haccepted⟩ := run_headers htable hfits
  rw [hempty, List.nil_append] at hheaders
  have hread := @read_headers_accepted (run header_step r calls) (by rw [hheaders]; exact haccepted)
  rw [accepted_headers_of_answers hsuccess] at hheaders haccepted
  rw [hheaders] at hread
  have hlines := lines_run htable hempty hsuccess hfits
  constructor
  · intro h
    have honce : SetOnce calls := by
      apply @pairwise_of_filter HeaderCall (fun a b => strcasecmp a.name b.name) calls
      · exact fun call => strcasecmp_refl call.name
      · intro call hcall
        obtain ⟨header, hfilter, -⟩ := h.stored call hcall
        have hone := congrArg List.length hfilter
        rw [hread, filter_map_header, List.length_map] at hone
        exact hone.le
    refine ⟨honce, ?_⟩
    rintro ⟨hkeepalive, ⟨call, hcall, hname⟩, hconnection⟩
    obtain ⟨lines, hcut, hone⟩ := h.emitted
    rw [hlines] at hcut
    cases hcut
    have htwo := hone call hcall
    have hself : call ∈ calls.filter fun other => strcasecmp other.name call.name :=
      List.mem_filter.mpr ⟨hcall, strcasecmp_refl call.name⟩
    have hpos := List.length_pos_of_mem hself
    rw [length_filter_block_lines haccepted hcall,
      if_pos ⟨hkeepalive, strcasecmp_symm hname, (names_map_header _).mpr hconnection⟩] at htwo
    omega
  · rintro ⟨honce, hkeep⟩
    have hfilter : ∀ call ∈ calls, (calls.filter fun other => strcasecmp other.name call.name) = [call] := by
      intro call hcall
      exact @filter_of_pairwise HeaderCall (fun a b => strcasecmp a.name b.name) calls
        (fun call => strcasecmp_refl call.name) (fun a b => strcasecmp_comm a.name b.name) honce _ hcall
    refine ⟨fun call hcall => ⟨call.header, ?_, ?_⟩, _, hlines, fun call hcall => ?_⟩
    · rw [hread, filter_map_header, hfilter call hcall]
      rfl
    · exact last_value_of_filter (hfilter call hcall)
    · rw [length_filter_block_lines haccepted hcall, hfilter call hcall, if_neg]
      · exact Nat.le_refl 1
      · rintro ⟨hkeepalive, hname, hconnection⟩
        exact hkeep ⟨hkeepalive, ⟨call, hcall, strcasecmp_symm hname⟩, (names_map_header _).mp hconnection⟩

end calls

/-- Two names, the second with another case than the default header has. -/
def distinct_calls : List HeaderCall :=
  [⟨fun _ => true, bytes "X-Id", bytes "7"⟩, ⟨fun _ => true, bytes "content-type", bytes "text/html"⟩]

theorem overwrites_distinct : Overwrites (run header_step http.uvhttp_response_init distinct_calls) distinct_calls := by
  apply (overwrites_iff responseTable_init rfl _ _).mpr
  · refine ⟨?_, ?_⟩
    · apply List.pairwise_pair.mpr
      decide
    · rintro ⟨-, ⟨call, hcall, hname⟩, -⟩
      rcases List.mem_cons.mp hcall with rfl | hlast
      · exact absurd hname (by decide)
      · rw [List.mem_singleton.mp hlast] at hname
        exact absurd hname (by decide)
  · decide +kernel
  · intro call hcall
    rcases List.mem_cons.mp hcall with rfl | hlast
    · exact ⟨by decide, by decide⟩
    · rw [List.mem_singleton.mp hlast]
      exact ⟨by decide, by decide⟩

/-- A handler that sets a header again. -/
def repeated_calls : List HeaderCall :=
  [⟨fun _ => true, bytes "X-Id", bytes "7"⟩, ⟨fun _ => true, bytes "X-Id", bytes "8"⟩]

/-- Both calls succeed, and both headers are stored. -/
theorem repeated_not_overwritten :
    (∀ code ∈ answers header_step http.uvhttp_response_init repeated_calls, code = .OK) ∧
      ¬ Overwrites (run header_step http.uvhttp_response_init repeated_calls) repeated_calls := by
  refine ⟨by decide +kernel, fun h => ?_⟩
  obtain ⟨header, hfilter, -⟩ := h.stored ⟨fun _ => true, bytes "X-Id", bytes "7"⟩ List.mem_cons_self
  have htwo : ((read_headers (run header_step http.uvhttp_response_init repeated_calls)).filter
      fun h => strcasecmp h.name (bytes "X-Id")).length = 2 := by
    decide +kernel
  rw [hfilter] at htwo
  cases htwo

end uvhttp.header_block
