import Uvhttp.Lib.Lines
import Uvhttp.Lib.Machine
import Uvhttp.Http.Compression
import Uvhttp.Http.SetHeader

namespace uvhttp.gzip

open http machine

/-- The bytes of CR and LF, and the colon behind a field name. -/
def CR : UInt8 := 13
def LF : UInt8 := 10
def COLON : UInt8 := 58

/-- The field name of a header line. -/
def field_name (line : List UInt8) : List UInt8 := line.takeWhile (· != COLON)

/-- The field value of a header line, without the blanks in front of it. -/
def field_value (line : List UInt8) : List UInt8 :=
  (line.drop ((field_name line).length + 1)).dropWhile (· = 32)

def is_content_length (line : List UInt8) : Bool := strcasecmp (field_name line) (bytes "Content-Length")

/-- The number that decimal digits spell. -/
def decimal (digits : List UInt8) : Option Nat :=
  if digits ≠ [] ∧ digits.all (fun c => 48 ≤ c && c ≤ 57) = true then
    some (digits.foldl (fun sofar c => 10 * sofar + (c.toNat - 48)) 0)
  else none

/-- A header block that an empty line ends, with exactly one Content-Length line,
whose value is the number of bytes that follow the block. -/
def Framed (data : List UInt8) : Prop :=
  ∃ lines body line, text_lines.block CR LF data = some (lines, body) ∧
    lines.filter is_content_length = [line] ∧ decimal (field_value line) = some body.length

/-- The lines of the header text. -/
def header_lines (status_code : Int) (headers : List Header) (body : Option (List UInt8)) (keepalive : Bool) :
    List (List UInt8) :=
  let sent := sent_headers headers
  (bytes "HTTP/1.1 " ++ bytes (toString status_code) ++ bytes " " ++ get_status_text status_code) ::
    (sent.map fun h => h.name ++ bytes ": " ++ h.value) ++
    (if sent.any fun h => strcasecmp h.name (bytes "Content-Type") then [] else [bytes "Content-Type: text/plain"]) ++
    (if sent.any fun h => strcasecmp h.name (bytes "Content-Length") then []
      else [bytes "Content-Length: " ++ bytes (toString (body.getD []).length)]) ++
    (if sent.any fun h => strcasecmp h.name (bytes "Connection") then []
      else if keepalive then
        [bytes "Connection: keep-alive", bytes "Keep-Alive: timeout=" ++
          bytes (toString UVHTTP_DEFAULT_KEEP_ALIVE_TIMEOUT) ++ bytes ", max=" ++
          bytes (toString UVHTTP_DEFAULT_KEEP_ALIVE_MAX)]
      else [bytes "Connection: close"])

theorem header_text_eq (status_code : Int) (headers : List Header) (body : Option (List UInt8)) (keepalive : Bool) :
    header_text status_code headers body keepalive =
      text_lines.render CR LF (header_lines status_code headers body keepalive) ++ [CR, LF] := by
  have hend : bytes "\r\n" = [CR, LF] := by decide
  have htype : bytes "Content-Type: text/plain\r\n" = bytes "Content-Type: text/plain" ++ [CR, LF] := by decide
  have hkeep : bytes "Connection: keep-alive\r\n" = bytes "Connection: keep-alive" ++ [CR, LF] := by decide
  have hclose : bytes "Connection: close\r\n" = bytes "Connection: close" ++ [CR, LF] := by decide
  have hfields : text_lines.render CR LF ((sent_headers headers).map fun h => h.name ++ bytes ": " ++ h.value) =
      (sent_headers headers).flatMap fun h => h.name ++ bytes ": " ++ h.value ++ [CR, LF] := by
    rw [text_lines.render, List.flatMap_map]
  unfold header_text header_lines
  simp only [text_lines.render_append, text_lines.render_cons, hfields, hend, htype, hkeep, hclose]
  generalize (sent_headers headers).any (fun h => strcasecmp h.name (bytes "Content-Type")) = typed
  generalize (sent_headers headers).any (fun h => strcasecmp h.name (bytes "Content-Length")) = measured
  generalize (sent_headers headers).any (fun h => strcasecmp h.name (bytes "Connection")) = connected
  generalize bytes (toString (body.getD []).length) = content_length
  cases typed <;> cases measured <;> cases connected <;> cases keepalive <;> simp

section numbers

theorem isDigit_of_mem_toString {n : Nat} {c : Char} (h : c ∈ (toString n).toList) : c.isDigit := by
  rw [show toString n = n.repr from rfl, Nat.toList_repr] at h
  exact Nat.isDigit_of_mem_toDigits (by decide) (by decide) h

theorem toNat_of_isDigit {c : Char} (h : c.isDigit = true) :
    48 ≤ c.toNat ∧ c.toNat ≤ 57 ∧ (UInt8.ofNat c.toNat).toNat = c.toNat := by
  simp only [Char.isDigit, Bool.and_eq_true, decide_eq_true_eq, ge_iff_le, UInt32.le_iff_toNat_le] at h
  obtain ⟨hlow, hhigh⟩ := h
  change 48 ≤ c.toNat at hlow
  change c.toNat ≤ 57 at hhigh
  refine ⟨hlow, hhigh, ?_⟩
  rw [UInt8.toNat_ofNat']
  omega

theorem digit_of_mem_bytes {n : Nat} {b : UInt8} (h : b ∈ bytes (toString n)) : 48 ≤ b.toNat ∧ b.toNat ≤ 57 := by
  obtain ⟨c, hc, rfl⟩ := List.mem_map.mp h
  obtain ⟨hlow, hhigh, heq⟩ := toNat_of_isDigit (isDigit_of_mem_toString hc)
  omega

theorem bytes_toString_ne_nil (n : Nat) : bytes (toString n) ≠ [] := by
  rw [bytes, show toString n = n.repr from rfl, Nat.toList_repr]
  simp [Nat.toDigits_ne_nil]

/-- A printed number reads back. -/
theorem decimal_toString (n : Nat) : decimal (bytes (toString n)) = some n := by
  have hdigits : (bytes (toString n)).all (fun c => 48 ≤ c && c ≤ 57) = true := by
    rw [List.all_eq_true]
    intro b hb
    obtain ⟨hlow, hhigh⟩ := digit_of_mem_bytes hb
    simp only [Bool.and_eq_true, decide_eq_true_eq, UInt8.le_iff_toNat_le]
    exact ⟨hlow, hhigh⟩
  have hvalue : ∀ (chars : List Char) (sofar : Nat), (∀ c ∈ chars, c.isDigit = true) →
      (chars.map fun c => UInt8.ofNat c.toNat).foldl (fun sofar c => 10 * sofar + (c.toNat - 48)) sofar =
        Nat.ofDigitChars 10 chars sofar := by
    intro chars
    induction chars with
    | nil =>
      intro sofar _
      rw [List.map_nil, List.foldl_nil, Nat.ofDigitChars_nil]
    | cons c chars ih =>
      intro sofar hall
      rw [List.map_cons, List.foldl_cons, Nat.ofDigitChars_cons,
        (toNat_of_isDigit (hall c List.mem_cons_self)).2.2]
      exact ih _ fun d hd => hall d (List.mem_cons_of_mem c hd)
  rw [decimal, if_pos ⟨bytes_toString_ne_nil n, hdigits⟩, bytes,
    hvalue _ 0 fun c hc => isDigit_of_mem_toString hc, show toString n = n.repr from rfl, Nat.toList_repr,
    Nat.ofDigitChars_ten_toDigits]

theorem not_mem_bytes_toString (n : Nat) {b : UInt8} (hb : b.toNat < 48 ∨ 57 < b.toNat) :
    b ∉ bytes (toString n) := by
  intro hmem
  have hdigit := digit_of_mem_bytes hmem
  omega

theorem cr_not_mem_status (status_code : Int) : CR ∉ bytes (toString status_code) := by
  cases status_code with
  | ofNat n => exact not_mem_bytes_toString n (.inl (by decide))
  | negSucc n =>
    have heq : bytes (toString (Int.negSucc n)) = 45 :: bytes (toString (n + 1)) := by
      rw [bytes, show toString (Int.negSucc n) = "-" ++ toString (n + 1) from rfl, String.toList_append]
      rfl
    rw [heq, List.mem_cons, not_or]
    exact ⟨by decide, not_mem_bytes_toString (n + 1) (.inl (by decide))⟩

end numbers

/-- A header name that makes a line of its own, and not a Content-Length line. -/
structure CleanName (name : List UInt8) : Prop where
  nonempty : name ≠ []
  cr : CR ∉ name
  colon : COLON ∉ name
  other : strcasecmp name (bytes "Content-Length") = false

theorem field_name_append {name : List UInt8} (hcolon : COLON ∉ name) (value : List UInt8) :
    field_name (name ++ bytes ": " ++ value) = name := by
  have htext : name ++ bytes ": " ++ value = name ++ COLON :: 32 :: value := by
    rw [show bytes ": " = [COLON, 32] by decide, List.append_assoc]
    rfl
  have hall : ∀ c ∈ name, (c != COLON) = true := by
    intro c hc
    rw [bne_iff_ne]
    exact fun heq => hcolon (heq ▸ hc)
  rw [htext, field_name, List.takeWhile_append_of_pos hall, List.takeWhile_cons_of_neg (by simp), List.append_nil]

/-- Values that fit their fields are read back as they were set. -/
theorem header_values_fit {headers : List Header}
    (h : ∀ header ∈ headers, header.value.length < UVHTTP_HEADER_VALUE_BUFFER_SIZE) :
    (headers.mapIdx fun i header => (⟨header.name, header_value_at headers i header⟩ : Header)) = headers := by
  apply List.ext_getElem
  · rw [List.length_mapIdx]
  · intro i hi hi'
    rw [List.getElem_mapIdx, header_value_at, if_pos (h _ (List.getElem_mem hi'))]

/-- Headers that fit their fields are all sent as they were set. -/
theorem sent_headers_eq {headers : List Header}
    (h : ∀ header ∈ headers, header.value.length < UVHTTP_HEADER_VALUE_BUFFER_SIZE ∧
      contains_control_chars header.value = false) : sent_headers headers = headers := by
  rw [sent_headers, header_values_fit fun header hmem => (h header hmem).1, List.filter_eq_self]
  intro header hmem
  rw [(h header hmem).2]
  rfl

theorem mem_sent_headers {headers : List Header} {h : Header} (hmem : h ∈ sent_headers headers) :
    (∃ original ∈ headers, original.name = h.name) ∧ contains_control_chars h.value = false := by
  rw [sent_headers, List.mem_filter] at hmem
  obtain ⟨hindexed, hclean⟩ := hmem
  obtain ⟨i, hi, heq⟩ := List.mem_mapIdx.mp hindexed
  refine ⟨⟨headers[i], List.getElem_mem hi, by rw [← heq]⟩, ?_⟩
  simpa using hclean

theorem cr_not_mem_value {value : List UInt8} (h : contains_control_chars value = false) : CR ∉ value := by
  intro hmem
  rw [contains_control_chars, List.any_eq_false] at h
  exact h CR hmem (by decide)

section lines

variable {headers : List Header} (hheaders : ∀ h ∈ headers, CleanName h.name)

include hheaders in
theorem clean_of_mem_sent {h : Header} (hmem : h ∈ sent_headers headers) : CleanName h.name := by
  obtain ⟨⟨original, horiginal, hname⟩, -⟩ := mem_sent_headers hmem
  rw [← hname]
  exact hheaders original horiginal

include hheaders in
theorem no_content_length_sent :
    ((sent_headers headers).any fun h => strcasecmp h.name (bytes "Content-Length")) = false := by
  rw [List.any_eq_false]
  intro h hmem
  rw [(clean_of_mem_sent hheaders hmem).other]
  exact Bool.false_ne_true

/-- The line that announces the length of what follows the headers. -/
def content_length_line (length : Nat) : List UInt8 := bytes "Content-Length: " ++ bytes (toString length)

theorem content_length_line_value (length : Nat) :
    is_content_length (content_length_line length) = true ∧
      decimal (field_value (content_length_line length)) = some length := by
  have hname : field_name (content_length_line length) = bytes "Content-Length" := by
    have hline : content_length_line length =
        bytes "Content-Length" ++ bytes ": " ++ bytes (toString length) := rfl
    rw [hline, field_name_append (by decide)]
  have hvalue : field_value (content_length_line length) = bytes (toString length) := by
    have hdrop : (content_length_line length).drop ((field_name (content_length_line length)).length + 1) =
        32 :: bytes (toString length) := by
      rw [hname]
      rfl
    obtain ⟨c, rest, hcons⟩ := List.exists_cons_of_ne_nil (bytes_toString_ne_nil length)
    have hdigit := digit_of_mem_bytes (n := length) (b := c) (by rw [hcons]; exact List.mem_cons_self)
    have hblank : c ≠ 32 := by
      rintro rfl
      exact absurd hdigit.1 (by decide)
    rw [field_value, hdrop, List.dropWhile_cons_of_pos (by decide), hcons,
      List.dropWhile_cons_of_neg (by simpa using hblank)]
  refine ⟨?_, by rw [hvalue, decimal_toString]⟩
  rw [is_content_length, hname]
  decide

theorem cr_not_mem_ite {p : Prop} [Decidable p] {yes no : List UInt8} (hyes : CR ∉ yes) (hno : CR ∉ no) :
    CR ∉ if p then yes else no := by
  split
  · exact hyes
  · exact hno

theorem cr_not_mem_status_text (status_code : Int) : CR ∉ get_status_text status_code := by
  unfold get_status_text
  iterate 14 refine cr_not_mem_ite (by decide) ?_
  decide

/-- What the lines are besides the one with the length: none of them is a
Content-Length line. -/
structure PlainLine (line : List UInt8) : Prop where
  nonempty : line ≠ []
  cr : CR ∉ line
  other : is_content_length line = false

theorem plain_status_line (status_code : Int) :
    PlainLine (bytes "HTTP/1.1 " ++ bytes (toString status_code) ++ bytes " " ++ get_status_text status_code) := by
  refine ⟨by simp [bytes], ?_, ?_⟩
  · simp only [List.mem_append, not_or]
    exact ⟨⟨⟨by decide, cr_not_mem_status status_code⟩, by decide⟩, cr_not_mem_status_text status_code⟩
  · have hfront : ∀ rest : List UInt8, is_content_length (bytes "HTTP/1.1 " ++ rest) = false := by
      intro rest
      have hname : field_name (bytes "HTTP/1.1 " ++ rest) = bytes "HTTP/1.1 " ++ field_name rest := by
        have hcolon : (bytes "HTTP/1.1 ").all (· != COLON) = true := by decide
        rw [field_name, List.takeWhile_append_of_pos (List.all_eq_true.mp hcolon)]
        rfl
      rw [is_content_length, hname, strcasecmp, List.map_append]
      simp [bytes]
    rw [List.append_assoc, List.append_assoc]
    exact hfront _

include hheaders in
theorem plain_header_line {h : Header} (hmem : h ∈ sent_headers headers) :
    PlainLine (h.name ++ bytes ": " ++ h.value) := by
  have hclean := clean_of_mem_sent hheaders hmem
  refine ⟨by simp [hclean.nonempty], ?_, ?_⟩
  · simp only [List.mem_append, not_or]
    exact ⟨⟨hclean.cr, by decide⟩, cr_not_mem_value (mem_sent_headers hmem).2⟩
  · rw [is_content_length, field_name_append hclean.colon, hclean.other]

include hheaders in
/-- The header lines are plain lines around the one that announces the length. -/
theorem header_lines_split (status_code : Int) (body : Option (List UInt8)) (keepalive : Bool) :
    ∃ before after, header_lines status_code headers body keepalive =
        before ++ content_length_line (body.getD []).length :: after ∧
      (∀ line ∈ before, PlainLine line) ∧ ∀ line ∈ after, PlainLine line := by
  unfold header_lines
  simp only [no_content_length_sent hheaders, Bool.false_eq_true, if_false]
  refine ⟨_, _, (List.append_cons ..).symm, ?_, ?_⟩
  · intro line hline
    rcases List.mem_append.mp hline with hfront | htype
    · rcases List.mem_cons.mp hfront with rfl | hfield
      · exact plain_status_line status_code
      · obtain ⟨h, hmem, rfl⟩ := List.mem_map.mp hfield
        exact plain_header_line hheaders hmem
    · split at htype
      · cases htype
      · rw [List.mem_singleton.mp htype]
        exact ⟨by decide, by decide, by decide⟩
  · intro line hline
    split at hline
    · cases hline
    · split at hline
      · rcases List.mem_cons.mp hline with rfl | hkeep
        · exact ⟨by decide, by decide, by decide⟩
        · rw [List.mem_singleton.mp hkeep]
          exact ⟨by decide, by decide, by decide⟩
      · rw [List.mem_singleton.mp hline]
        exact ⟨by decide, by decide, by decide⟩

include hheaders in
/-- A header text followed by some bytes is framed exactly when the length
it announces is theirs. -/
theorem framed_header_text (status_code : Int) (body : Option (List UInt8)) (keepalive : Bool) (sent : List UInt8) :
    Framed (header_text status_code headers body keepalive ++ sent) ↔ (body.getD []).length = sent.length := by
  obtain ⟨before, after, hlines, hbefore, hafter⟩ := header_lines_split hheaders status_code body keepalive
  have hlength := content_length_line_value (body.getD []).length
  have hclean : ∀ line ∈ header_lines status_code headers body keepalive, line ≠ [] ∧ CR ∉ line := by
    intro line hline
    rw [hlines, List.mem_append, List.mem_cons] at hline
    rcases hline with hfront | rfl | hback
    · exact ⟨(hbefore line hfront).nonempty, (hbefore line hfront).cr⟩
    · refine ⟨by simp [content_length_line, bytes], ?_⟩
      rw [content_length_line, List.mem_append, not_or]
      exact ⟨by decide, not_mem_bytes_toString _ (.inl (by decide))⟩
    · exact ⟨(hafter line hback).nonempty, (hafter line hback).cr⟩
  have hblock : text_lines.block CR LF (header_text status_code headers body keepalive ++ sent) =
      some (header_lines status_code headers body keepalive, sent) := by
    rw [header_text_eq, List.append_assoc]
    exact text_lines.block_render hclean sent
  have hnone : ∀ {others : List (List UInt8)}, (∀ line ∈ others, PlainLine line) →
      others.filter is_content_length = [] := by
    intro others hothers
    rw [List.filter_eq_nil_iff]
    intro line hline
    rw [(hothers line hline).other]
    exact Bool.false_ne_true
  have hfilter : (header_lines status_code headers body keepalive).filter is_content_length =
      [content_length_line (body.getD []).length] := by
    rw [hlines, List.filter_append, List.filter_cons_of_pos hlength.1, hnone hbefore, hnone hafter]
    rfl
  refine ⟨?_, fun heq => ⟨_, _, _, hblock, hfilter, by rw [hlength.2, heq]⟩⟩
  rintro ⟨lines, body', line, hparsed, hone, hvalue⟩
  rw [hblock] at hparsed
  cases hparsed
  rw [hfilter] at hone
  cases hone
  rw [hlength.2] at hvalue
  exact Option.some_inj.mp hvalue

end lines

/-- A call that builds up a response, with the allocator as that call finds it. -/
inductive Operation where
  | set_status (status_code : Int)
  | set_header (alloc : Nat → Bool) (name value : List UInt8)
  | set_body (alloc : Nat → Bool) (body : List UInt8)
  | set_compress (enable : Bool)

/-- One call, with its return code. -/
def operate (r : FullResponse) (operation : Operation) : FullResponse × UvhttpError :=
  let result :=
    match operation with
    | .set_status status_code => uvhttp_response_set_status r status_code
    | .set_header alloc name value => uvhttp_response_set_header alloc r name value
    | .set_body alloc body => uvhttp_response_set_body alloc r body
    | .set_compress enable => uvhttp_response_set_compress r enable
  (result.2, result.1)

/-- One call, `none` when it writes outside the arrays of the headers. -/
def operate_in_bounds (r : FullResponse) (operation : Operation) : Option FullResponse :=
  match operation with
  | .set_header alloc name value =>
    (set_header_in_bounds alloc r.toResponse name value).map fun result => { r with toResponse := result.2 }
  | operation => some (operate r operation).1

/-- Calls one after the other, up to one that writes outside the arrays. -/
def run_in_bounds : FullResponse → List Operation → Option FullResponse
  | r, [] => some r
  | r, operation :: operations => (operate_in_bounds r operation).bind fun r => run_in_bounds r operations

section bounds

variable {r : FullResponse}

theorem operate_in_bounds_eq (h : LastSlotsFit r.headers) (operation : Operation) :
    operate_in_bounds r operation = some (operate r operation).1 ∧ LastSlotsFit (operate r operation).1.headers ∨
      operate_in_bounds r operation = none ∧ ¬ LastSlotsFit (operate r operation).1.headers := by
  cases operation with
  | set_status status_code =>
    refine .inl ⟨rfl, ?_⟩
    simp only [operate, uvhttp_response_set_status, http.uvhttp_response_set_status]
    split
    · exact h
    · exact h
  | set_header alloc name value =>
    rcases @set_header_in_bounds_eq alloc r.toResponse h name value with ⟨hset, hfits⟩ | ⟨hset, hover⟩
    · exact .inl ⟨by rw [operate_in_bounds, hset]; rfl, hfits⟩
    · exact .inr ⟨by rw [operate_in_bounds, hset]; rfl, hover⟩
  | set_body alloc body =>
    refine .inl ⟨rfl, ?_⟩
    simp only [operate, uvhttp_response_set_body, http.uvhttp_response_set_body]
    split
    · exact h
    · split
      · exact h
      · split
        · exact h
        · exact h
  | set_compress enable =>
    refine .inl ⟨rfl, ?_⟩
    simp only [operate, uvhttp_response_set_compress]
    split
    · exact h
    · exact h

/-- The headers before a call are the first after it. -/
theorem operate_headers (r : FullResponse) (operation : Operation) :
    r.headers <+: (operate r operation).1.headers := by
  cases operation with
  | set_status status_code =>
    simp only [operate, uvhttp_response_set_status, http.uvhttp_response_set_status]
    split
    · exact List.prefix_refl _
    · exact List.prefix_refl _
  | set_header alloc name value =>
    rcases set_header_headers alloc r.toResponse name value with ⟨-, hheaders⟩ | ⟨-, hheaders⟩
    · exact ⟨_, hheaders.symm⟩
    · exact ⟨[], (List.append_nil _).trans hheaders.symm⟩
  | set_body alloc body =>
    simp only [operate, uvhttp_response_set_body, http.uvhttp_response_set_body]
    split
    · exact List.prefix_refl _
    · split
      · exact List.prefix_refl _
      · split
        · exact List.prefix_refl _
        · exact List.prefix_refl _
  | set_compress enable =>
    simp only [operate, uvhttp_response_set_compress]
    split
    · exact List.prefix_refl _
    · exact List.prefix_refl _

theorem run_headers (r : FullResponse) (operations : List Operation) :
    r.headers <+: (run operate r operations).headers := by
  induction operations generalizing r with
  | nil => exact List.prefix_refl _
  | cons operation operations ih => exact (operate_headers r operation).trans (ih _)

theorem LastSlotsFit.earlier {few many : List Header} (hfits : LastSlotsFit many) (h : few <+: many) :
    LastSlotsFit few := by
  obtain ⟨rest, rfl⟩ := h
  intro index header hlast hheader
  apply hfits index header hlast
  rw [List.getElem?_append_left (List.getElem?_eq_some_iff.mp hheader).1]
  exact hheader

/-- Calls stay within the arrays exactly when the headers after them fit. -/
theorem run_in_bounds_eq (h : LastSlotsFit r.headers) (operations : List Operation) :
    run_in_bounds r operations = some (run operate r operations) ∧ LastSlotsFit (run operate r operations).headers ∨
      run_in_bounds r operations = none ∧ ¬ LastSlotsFit (run operate r operations).headers := by
  induction operations generalizing r with
  | nil => exact .inl ⟨rfl, h⟩
  | cons operation operations ih =>
    have hrun : run operate r (operation :: operations) = run operate (operate r operation).1 operations := rfl
    rw [run_in_bounds, hrun]
    rcases operate_in_bounds_eq h operation with ⟨hcall, hfits⟩ | ⟨hcall, hover⟩
    · rw [hcall]
      exact ih hfits
    · rw [hcall]
      refine .inr ⟨rfl, fun hfits => hover ?_⟩
      exact LastSlotsFit.earlier hfits (run_headers _ operations)

theorem run_in_bounds_ne_none (h : LastSlotsFit r.headers) (operations : List Operation) :
    run_in_bounds r operations ≠ none ↔ LastSlotsFit (run operate r operations).headers := by
  rcases run_in_bounds_eq h operations with ⟨hrun, hfits⟩ | ⟨hrun, hover⟩
  · rw [hrun]
    exact iff_of_true (Option.some_ne_none _) hfits
  · rw [hrun]
    exact iff_of_false (fun hsome => hsome rfl) hover

end bounds

/-- The call does not set a Content-Length header. -/
def Operation.NoContentLength : Operation → Prop
  | .set_header _ name _ => strcasecmp name (bytes "Content-Length") = false
  | _ => True

/-- What every call keeps: the headers have clean names, and the body is within
the limit of `uvhttp_response_set_body`. -/
structure Wellbuilt (r : Response) : Prop where
  headers : ∀ h ∈ r.headers, CleanName h.name
  body : (r.body.getD []).length ≤ UVHTTP_MAX_BODY_SIZE

/-- A name that passed its check makes a field, also when it is cut. -/
theorem name_cut_field {name : List UInt8} (hvalid : uvhttp_validate_header_name name = true) :
    name.take (UVHTTP_MAX_HEADER_NAME_SIZE - 1) ≠ [] ∧ CR ∉ name.take (UVHTTP_MAX_HEADER_NAME_SIZE - 1) ∧
      COLON ∉ name.take (UVHTTP_MAX_HEADER_NAME_SIZE - 1) := by
  simp only [uvhttp_validate_header_name, Bool.and_eq_true, decide_eq_true_eq, List.all_eq_true] at hvalid
  obtain ⟨⟨hpos, -⟩, hall⟩ := hvalid
  refine ⟨fun hnil => ?_, fun hmem => ?_, fun hmem => ?_⟩
  · have hlength := congrArg List.length hnil
    rw [List.length_take, List.length_nil] at hlength
    unfold UVHTTP_MAX_HEADER_NAME_SIZE at hlength
    omega
  · exact absurd (hall CR (List.mem_of_mem_take hmem)) (by decide)
  · exact absurd (hall COLON (List.mem_of_mem_take hmem)) (by decide)

/-- A name that is cut does not become a short one. -/
theorem strcasecmp_take {name target : List UInt8} (hshort : target.length < UVHTTP_MAX_HEADER_NAME_SIZE - 1)
    (h : strcasecmp name target = false) :
    strcasecmp (name.take (UVHTTP_MAX_HEADER_NAME_SIZE - 1)) target = false := by
  by_cases hle : name.length ≤ UVHTTP_MAX_HEADER_NAME_SIZE - 1
  · rw [List.take_of_length_le hle]
    exact h
  · rw [strcasecmp, decide_eq_false_iff_not]
    intro hsame
    have hlength := congrArg List.length hsame
    rw [List.length_map, List.length_map, List.length_take] at hlength
    omega

theorem clean_of_validated {name : List UInt8} (hvalid : uvhttp_validate_header_name name = true)
    (hother : strcasecmp name (bytes "Content-Length") = false) :
    CleanName (name.take (UVHTTP_MAX_HEADER_NAME_SIZE - 1)) := by
  obtain ⟨hnonempty, hcr, hcolon⟩ := name_cut_field hvalid
  exact ⟨hnonempty, hcr, hcolon, strcasecmp_take (by decide) hother⟩

theorem write_header_wellbuilt {r : Response} (h : Wellbuilt r) {name : List UInt8}
    (hname : CleanName (name.take (UVHTTP_MAX_HEADER_NAME_SIZE - 1))) (value : List UInt8) :
    Wellbuilt (write_header r name value).2 := by
  unfold write_header
  split
  · refine ⟨?_, h.body⟩
    intro other hother
    rcases List.mem_append.mp hother with hold | hnew
    · exact h.headers other hold
    · rw [List.mem_singleton.mp hnew]
      exact hname
  · exact h

theorem set_header_wellbuilt (alloc : Nat → Bool) {r : Response} (h : Wellbuilt r) {name : List UInt8}
    (hother : strcasecmp name (bytes "Content-Length") = false) (value : List UInt8) :
    Wellbuilt (http.uvhttp_response_set_header alloc r name value).2 := by
  unfold http.uvhttp_response_set_header
  split
  · exact h
  · rename_i hvalid
    simp only [Bool.or_eq_true, not_or, Bool.not_eq_true', Bool.not_eq_false] at hvalid
    have hname := clean_of_validated hvalid.1 hother
    split
    · exact h
    · split
      · split
        · exact h
        · split
          · exact h
          · exact write_header_wellbuilt (r := { r with headers_capacity := _, headers_extra := true })
              ⟨h.headers, h.body⟩ hname value
      · exact write_header_wellbuilt h hname value

theorem operate_wellbuilt {r : FullResponse} (h : Wellbuilt r.toResponse) {operation : Operation}
    (hoperation : operation.NoContentLength) : Wellbuilt (operate r operation).1.toResponse := by
  cases operation with
  | set_status status_code =>
    simp only [operate, uvhttp_response_set_status, http.uvhttp_response_set_status]
    split
    · exact h
    · exact ⟨h.headers, h.body⟩
  | set_header alloc name value => exact set_header_wellbuilt alloc h hoperation value
  | set_body alloc body =>
    simp only [operate, uvhttp_response_set_body, http.uvhttp_response_set_body]
    split
    · exact h
    · split
      · exact h
      · rename_i hlimit
        split
        · exact ⟨h.headers, Nat.zero_le _⟩
        · exact ⟨h.headers, Nat.le_of_not_lt hlimit⟩
  | set_compress enable =>
    simp only [operate, uvhttp_response_set_compress]
    split
    · exact ⟨h.headers, h.body⟩
    · exact ⟨h.headers, h.body⟩

theorem wellbuilt_run {r : FullResponse} (h : Wellbuilt r.toResponse) {operations : List Operation}
    (hoperations : ∀ operation ∈ operations, operation.NoContentLength) :
    Wellbuilt (run operate r operations).toResponse := by
  induction operations generalizing r with
  | nil => exact h
  | cons operation operations ih =>
    apply ih (operate_wellbuilt h (hoperations operation List.mem_cons_self))
    exact fun later hlater => hoperations later (List.mem_cons_of_mem operation hlater)

/-- A response before the first call: as `uvhttp_response_init` or a restart for
the next request leaves it. -/
structure Blank (r : FullResponse) : Prop where
  headers : r.headers = []
  body : r.body = none

theorem blank_init (gzip_cache : Option GzipCache) : Blank (uvhttp_response_init gzip_cache) := ⟨rfl, rfl⟩

theorem Blank.lastSlotsFit {r : FullResponse} (h : Blank r) : LastSlotsFit r.headers := by
  rw [h.headers]
  intro index header _ hheader
  cases hheader

theorem Blank.wellbuilt {r : FullResponse} (h : Blank r) : Wellbuilt r.toResponse := by
  refine ⟨?_, ?_⟩
  · rw [h.headers]
    intro header hmem
    cases hmem
  · rw [h.body]
    exact Nat.zero_le _

section build

variable (alloc : Nat → Bool) (codec : Codec) (now : Int) (r : FullResponse)

/-- The stream that goes out in place of the body: the one cached under its key,
or else its compression, where that is shorter. -/
def replacement : Option (List UInt8) :=
  match r.body with
  | none => none
  | some body =>
    if r.compress && body.length ≥ size_t r.compress_threshold then
      match r.gzip_cache.bind fun cache => (uvhttp_gzip_cache_find cache now (codec.hash body) body.length).1 with
      | some cached => some cached
      | none =>
        match uvhttp_compress_gzip alloc codec body with
        | .error _ => none
        | .ok compressed => if compressed.length < body.length then some compressed else none
    else none

/-- The response with the header that announces a compressed body. -/
def encoded : Response :=
  (http.uvhttp_response_set_header alloc r.toResponse (bytes "Content-Encoding") (bytes "gzip")).2

/-- A stream of another length than the body goes out in its place, behind
headers that do not fit into the first buffer. -/
def Misrendered : Prop :=
  ∃ sent, replacement alloc codec now r = some sent ∧ sent.length ≠ (r.body.getD []).length ∧
    UVHTTP_INITIAL_BUFFER_SIZE * 2 ≤
      (header_text r.status_code (encoded alloc r).headers (some sent) r.keepalive).length

theorem compress_body_eq :
    (compress_body alloc codec now r).1 = replacement alloc codec now r ∧
      (compress_body alloc codec now r).2.toResponse =
        if (replacement alloc codec now r).isSome then encoded alloc r else r.toResponse := by
  unfold compress_body replacement
  cases hbody : r.body with
  | none => exact ⟨rfl, rfl⟩
  | some body =>
    dsimp only
    split
    · have hbind : ((r.gzip_cache.map fun cache =>
          uvhttp_gzip_cache_find cache now (codec.hash body) body.length).bind Prod.fst) =
          r.gzip_cache.bind fun cache =>
            (uvhttp_gzip_cache_find cache now (codec.hash body) body.length).1 := by
        cases r.gzip_cache with
        | none => rfl
        | some cache => rfl
      rw [hbind]
      generalize (r.gzip_cache.bind fun cache =>
        (uvhttp_gzip_cache_find cache now (codec.hash body) body.length).1) = cached
      cases cached with
      | some cached => exact ⟨rfl, rfl⟩
      | none =>
        cases uvhttp_compress_gzip alloc codec body with
        | error e => exact ⟨rfl, rfl⟩
        | ok compressed =>
          dsimp only
          split
          · exact ⟨rfl, rfl⟩
          · exact ⟨rfl, rfl⟩
    · exact ⟨rfl, rfl⟩

theorem encoded_wellbuilt {r : FullResponse} (h : Wellbuilt r.toResponse) : Wellbuilt (encoded alloc r) :=
  set_header_wellbuilt alloc h (by decide) _

theorem set_header_keeps (r : Response) (name value : List UInt8) :
    (http.uvhttp_response_set_header alloc r name value).2.status_code = r.status_code ∧
      (http.uvhttp_response_set_header alloc r name value).2.keepalive = r.keepalive ∧
      (http.uvhttp_response_set_header alloc r name value).2.body = r.body := by
  have hwrite : ∀ r : Response, (write_header r name value).2.status_code = r.status_code ∧
      (write_header r name value).2.keepalive = r.keepalive ∧ (write_header r name value).2.body = r.body := by
    intro r
    unfold write_header
    split
    · exact ⟨rfl, rfl, rfl⟩
    · exact ⟨rfl, rfl, rfl⟩
  unfold http.uvhttp_response_set_header
  split
  · exact ⟨rfl, rfl, rfl⟩
  · split
    · exact ⟨rfl, rfl, rfl⟩
    · split
      · split
        · exact ⟨rfl, rfl, rfl⟩
        · split
          · exact ⟨rfl, rfl, rfl⟩
          · exact hwrite _
      · exact hwrite r

theorem length_toString_le {n : Nat} (h : n ≤ UVHTTP_MAX_BODY_SIZE) : (bytes (toString n)).length ≤ 7 := by
  rw [bytes, List.length_map, show toString n = n.repr from rfl, Nat.toList_repr,
    Nat.length_toDigits_le_iff (by decide) (by decide)]
  unfold UVHTTP_MAX_BODY_SIZE at h
  omega

/-- Header texts that differ in the announced length differ in size by its
digits. -/
theorem length_header_text_le (status_code : Int) (headers : List Header) (body body' : Option (List UInt8))
    (keepalive : Bool) :
    (header_text status_code headers body keepalive).length ≤
      (header_text status_code headers body' keepalive).length +
        (bytes (toString (body.getD []).length)).length := by
  unfold header_text
  dsimp only
  cases (sent_headers headers).any fun h => strcasecmp h.name (bytes "Content-Length") with
  | false =>
    simp only [Bool.false_eq_true, if_false, List.length_append]
    omega
  | true =>
    simp only [if_true, List.length_append]
    omega

theorem build_response_headers_eq {r : Response} {length : Nat}
    (hfits : (header_text r.status_code r.headers r.body r.keepalive).length < length) :
    ((build_response_headers r length).1.take (build_response_headers r length).2) =
      header_text r.status_code r.headers r.body r.keepalive := by
  rw [build_response_headers]
  dsimp only
  rw [if_pos hfits, List.take_length]

/-- Where the response data is returned, it is the rendered headers and the body. -/
theorem assembled {rebuilt : Option (List UInt8 × Nat)} {body data : List UInt8} {after r' : FullResponse}
    (h : (match rebuilt with
      | none => (Except.error UvhttpError.OUT_OF_MEMORY, after)
      | some (headers_buffer, headers_length) =>
        if !alloc (headers_length + body.length + 1) then (.error .OUT_OF_MEMORY, after)
        else (.ok (headers_buffer.take headers_length ++ body), after)) = (.ok data, r')) :
    ∃ built, rebuilt = some built ∧ data = built.1.take built.2 ++ body := by
  cases rebuilt with
  | none => cases h
  | some built =>
    refine ⟨built, rfl, ?_⟩
    dsimp only at h
    split at h
    · cases h
    · exact (Except.ok.inj (congrArg Prod.fst h)).symm

/-- The text that ends up in front of the body: with the length of what is sent
where that fits into the first buffer, else with the length of the body. -/
theorem build_data_eq {r : FullResponse} (hbody : (r.body.getD []).length ≤ UVHTTP_MAX_BODY_SIZE) {data : List UInt8}
    {r' : FullResponse} (h : uvhttp_response_build_data alloc codec now r = (.ok data, r')) :
    ∃ response : Response, response = (if (replacement alloc codec now r).isSome then encoded alloc r
        else r.toResponse) ∧
      ∃ sent : Option (List UInt8), sent = (if (replacement alloc codec now r).isSome then
          replacement alloc codec now r else r.body) ∧
      data = header_text r.status_code response.headers
        (if UVHTTP_INITIAL_BUFFER_SIZE * 2 ≤
          (header_text r.status_code response.headers sent r.keepalive).length then r.body else sent)
        r.keepalive ++ sent.getD [] := by
  obtain ⟨hfirst, hsecond⟩ := compress_body_eq alloc codec now r
  refine ⟨_, rfl, _, rfl, ?_⟩
  have hkeeps := set_header_keeps alloc r.toResponse (bytes "Content-Encoding") (bytes "gzip")
  generalize hresponse : (if (replacement alloc codec now r).isSome then encoded alloc r else r.toResponse) =
    response at hsecond ⊢
  have hsame : response.status_code = r.status_code ∧ response.keepalive = r.keepalive ∧
      response.body = r.body := by
    rw [← hresponse]
    split
    · exact hkeeps
    · exact ⟨rfl, rfl, rfl⟩
  unfold uvhttp_response_build_data at h
  generalize compress_body alloc codec now r = compressed at h hfirst hsecond
  obtain ⟨stream, after⟩ := compressed
  dsimp only at hfirst hsecond h
  rw [hfirst, hsecond, hsame.2.2] at h
  generalize (if (replacement alloc codec now r).isSome then replacement alloc codec now r else r.body) = sent
    at h ⊢
  rw [← hsame.1, ← hsame.2.1]
  have hlength : (build_response_headers { response with body := sent } (UVHTTP_INITIAL_BUFFER_SIZE * 2)).2 =
      (header_text response.status_code response.headers sent response.keepalive).length := rfl
  by_cases hlarge : UVHTTP_INITIAL_BUFFER_SIZE * 2 ≤
      (header_text response.status_code response.headers sent response.keepalive).length
  · rw [if_pos hlarge]
    rw [hlength, if_pos (show _ ≥ _ from hlarge)] at h
    have hdigits := length_toString_le hbody
    have hbound := length_header_text_le response.status_code response.headers r.body sent response.keepalive
    have hfits : (header_text response.status_code response.headers response.body response.keepalive).length <
        (header_text response.status_code response.headers sent response.keepalive).length +
          UVHTTP_RESPONSE_HEADER_SAFETY_MARGIN := by
      rw [hsame.2.2]
      unfold UVHTTP_RESPONSE_HEADER_SAFETY_MARGIN
      omega
    split at h
    · cases h
    · generalize hbuilt : (if !alloc _ then none else some _) = rebuilt at h
      obtain ⟨built, rfl, hdata⟩ := assembled alloc h
      split at hbuilt
      · cases hbuilt
      · rw [hdata, ← Option.some.inj hbuilt, build_response_headers_eq hfits, hsame.2.2]
  · rw [if_neg hlarge]
    rw [hlength, if_neg (show ¬ _ ≥ _ from hlarge)] at h
    split at h
    · cases h
    · obtain ⟨built, hbuilt, hdata⟩ := @assembled alloc (some (build_response_headers
        { response with body := sent } (UVHTTP_INITIAL_BUFFER_SIZE * 2))) _ _ _ _ h
      rw [hdata, ← Option.some.inj hbuilt,
        build_response_headers_eq (r := { response with body := sent }) (Nat.lt_of_not_le hlarge)]

end build

/-- With an allocator that grants everything, response data is returned. -/
theorem build_data_granted (codec : Codec) (now : Int) (r : FullResponse) :
    ∃ data r', uvhttp_response_build_data (fun _ => true) codec now r = (.ok data, r') := by
  unfold uvhttp_response_build_data
  simp only [Bool.not_true, Bool.false_eq_true, if_false, ← apply_ite some]
  exact ⟨_, _, rfl⟩

/-- When a response is framed. Of a response built by any calls that set no
Content-Length, none of these calls writes outside the header arrays and the
bytes of `uvhttp_response_build_data` announce their own length exactly when the
headers in the last slots of the arrays fit and it is not the case that a stream
of another length than the body replaces it behind headers that outgrow the
first buffer. -/
theorem build_data_framed_iff {r : FullResponse} (hblank : Blank r) {operations : List Operation}
    (hoperations : ∀ operation ∈ operations, operation.NoContentLength) (alloc : Nat → Bool) (codec : Codec)
    (now : Int) {data : List UInt8} {r' : FullResponse}
    (h : uvhttp_response_build_data alloc codec now (run operate r operations) = (.ok data, r')) :
    run_in_bounds r operations ≠ none ∧ Framed data ↔
      LastSlotsFit (run operate r operations).headers ∧ ¬ Misrendered alloc codec now (run operate r operations) := by
  have hbounds : run_in_bounds r operations ≠ none ↔ LastSlotsFit (run operate r operations).headers :=
    run_in_bounds_ne_none hblank.lastSlotsFit operations
  rw [hbounds]
  apply and_congr_right'
  have hwell := wellbuilt_run hblank.wellbuilt hoperations
  generalize run operate r operations = response at h hwell ⊢
  obtain ⟨rendered, hrendered, sent, hsent, hdata⟩ := build_data_eq alloc codec now hwell.body h
  have hheaders : ∀ header ∈ rendered.headers, CleanName header.name := by
    rw [hrendered]
    split
    · exact (encoded_wellbuilt alloc hwell).headers
    · exact hwell.headers
  rw [hdata, framed_header_text hheaders]
  unfold Misrendered
  cases hreplacement : replacement alloc codec now response with
  | none =>
    rw [hreplacement] at hsent
    have hbody : sent = response.body := hsent
    rw [hbody, ite_self]
    apply iff_of_true rfl
    rintro ⟨stream, hstream, -⟩
    cases hstream
  | some stream =>
    rw [hreplacement] at hsent hrendered
    have hstream : sent = some stream := hsent
    have hencoded : rendered = encoded alloc response := hrendered
    rw [hstream, hencoded]
    by_cases hlarge : UVHTTP_INITIAL_BUFFER_SIZE * 2 ≤
        (header_text response.status_code (encoded alloc response).headers (some stream)
          response.keepalive).length
    · rw [if_pos hlarge]
      refine ⟨?_, ?_⟩
      · rintro hsame ⟨other, hother, hdiffers, -⟩
        cases hother
        exact hdiffers hsame.symm
      · intro hnot
        by_contra hdiffers
        exact hnot ⟨stream, rfl, fun heq => hdiffers heq.symm, hlarge⟩
    · rw [if_neg hlarge]
      apply iff_of_true rfl
      rintro ⟨other, hother, -, hreach⟩
      cases hother
      exact hlarge hreach

/-- zlib on two thousand times the letter b: the stream it deflates them to. -/
def two_thousand_bs : Codec where
  compressBound := fun length => length + length / 2 ^ 12 + length / 2 ^ 14 + length / 2 ^ 25 + 13
  deflate := fun _ => some [75, 74, 26, 5, 163, 96, 20, 140, 130, 81, 48, 10, 70, 193, 80, 7, 0]
  crc32 := fun _ => 1608492904
  hash := fun _ => 0

/-- A compressed response with this many headers of two thousand bytes each. -/
def padded (headers : Nat) : List Operation :=
  .set_compress true :: .set_body (fun _ => true) (List.replicate 2000 98) ::
    List.replicate headers (.set_header (fun _ => true) (bytes "X-Pad") (List.replicate 2000 97))

theorem padded_no_content_length (headers : Nat) : ∀ operation ∈ padded headers, operation.NoContentLength := by
  intro operation hmem
  rcases List.mem_cons.mp hmem with rfl | hmem
  · trivial
  · rcases List.mem_cons.mp hmem with rfl | hmem
    · trivial
    · rw [List.eq_of_mem_replicate hmem]
      exact (by decide : strcasecmp (bytes "X-Pad") (bytes "Content-Length") = false)

/-- The response that these calls build. -/
def padded_response (headers : Nat) : FullResponse :=
  { uvhttp_response_init none with
    headers := List.replicate headers ⟨bytes "X-Pad", List.replicate 2000 97⟩
    body := some (List.replicate 2000 98)
    compress := true
    compress_threshold := 1024 }

theorem run_padded_one : run operate (uvhttp_response_init none) (padded 1) = padded_response 1 := by decide +kernel

theorem run_padded_nine : run operate (uvhttp_response_init none) (padded 9) = padded_response 9 := by decide +kernel

/-- The gzip stream of the body. -/
def padded_stream : List UInt8 :=
  [0x1f, 0x8b, 0x08, 0x00, 0x00, 0x00, 0x00, 0x00, 0x00, 0xff] ++
    [75, 74, 26, 5, 163, 96, 20, 140, 130, 81, 48, 10, 70, 193, 80, 7, 0] ++ le32 1608492904 ++ le32 2000

theorem replacement_padded (headers : Nat) :
    replacement (fun _ => true) two_thousand_bs 0 (padded_response headers) = some padded_stream := by
  have hgzip : uvhttp_compress_gzip (fun _ => true) two_thousand_bs (List.replicate 2000 98) =
      .ok padded_stream := by
    unfold uvhttp_compress_gzip
    rw [List.length_replicate]
    rfl
  have hshort : padded_stream.length < (List.replicate 2000 (98 : UInt8)).length := by
    rw [List.length_replicate]
    decide
  have hlong : ((padded_response headers).compress && decide ((List.replicate 2000 (98 : UInt8)).length ≥
      size_t (padded_response headers).compress_threshold)) = true := by
    rw [List.length_replicate]
    rfl
  have hbody : (padded_response headers).body = some (List.replicate 2000 98) := rfl
  have hcache : (padded_response headers).gzip_cache = none := rfl
  unfold replacement
  rw [hbody]
  dsimp only
  rw [if_pos hlong, hcache, hgzip]
  simp only [Option.bind_none, if_pos hshort]

theorem encoded_padded {headers : Nat} (hheaders : headers < UVHTTP_INLINE_HEADERS_CAPACITY) :
    (encoded (fun _ => true) (padded_response headers)).headers =
      List.replicate headers ⟨bytes "X-Pad", List.replicate 2000 97⟩ ++
        [⟨bytes "Content-Encoding", bytes "gzip"⟩] := by
  have hcount : (padded_response headers).headers.length = headers := List.length_replicate
  unfold encoded http.uvhttp_response_set_header
  rw [if_neg (by decide), if_neg (by decide), if_neg (by rw [hcount]; exact Nat.not_le_of_lt hheaders),
    write_header, hcount]
  simp only [hheaders]
  rfl

theorem length_header_text_padded {headers : Nat} (hheaders : headers < UVHTTP_INLINE_HEADERS_CAPACITY) :
    2009 * headers ≤ (header_text (padded_response headers).status_code
      (encoded (fun _ => true) (padded_response headers)).headers (some padded_stream)
      (padded_response headers).keepalive).length := by
  have hclean : contains_control_chars (List.replicate 2000 97) = false := by
    rw [contains_control_chars, List.any_replicate]
    decide
  have hsent : sent_headers (encoded (fun _ => true) (padded_response headers)).headers =
      (encoded (fun _ => true) (padded_response headers)).headers := by
    apply sent_headers_eq
    intro header hmem
    rw [encoded_padded hheaders] at hmem
    rcases List.mem_append.mp hmem with hpad | hencoding
    · rw [List.eq_of_mem_replicate hpad, List.length_replicate]
      exact ⟨by decide, hclean⟩
    · rw [List.mem_singleton.mp hencoding]
      exact ⟨by decide, by decide⟩
  have hfields : 2009 * headers ≤ ((encoded (fun _ => true) (padded_response headers)).headers.flatMap fun h =>
      h.name ++ bytes ": " ++ h.value ++ bytes "\r\n").length := by
    have hline : (bytes "X-Pad" ++ bytes ": " ++ List.replicate 2000 97 ++ bytes "\r\n").length = 2009 := by
      simp only [List.length_append, List.length_replicate]
      decide
    rw [encoded_padded hheaders, List.flatMap_append, List.length_append, List.length_flatMap,
      List.map_replicate, hline, List.sum_replicate, smul_eq_mul]
    omega
  unfold header_text
  rw [hsent]
  simp only [List.length_append] at hfields ⊢
  omega

/-- A compressed response whose headers fit the first buffer is framed. -/
theorem build_data_framed_compressed :
    ∃ data r', uvhttp_response_build_data (fun _ => true) two_thousand_bs 0
        (run operate (uvhttp_response_init none) (padded 1)) = (.ok data, r') ∧
      run_in_bounds (uvhttp_response_init none) (padded 1) ≠ none ∧ Framed data := by
  obtain ⟨data, r', hbuilt⟩ := build_data_granted two_thousand_bs 0
    (run operate (uvhttp_response_init none) (padded 1))
  refine ⟨data, r', hbuilt, ?_⟩
  refine (build_data_framed_iff (blank_init none) (padded_no_content_length 1) _ _ _ hbuilt).mpr ⟨?_, ?_⟩
  · rw [run_padded_one]
    apply lastSlotsFit_of_values
    intro header hmem
    rw [List.eq_of_mem_replicate hmem, List.length_replicate]
    decide
  rw [run_padded_one]
  rintro ⟨sent, hsent, -, hlarge⟩
  rw [replacement_padded] at hsent
  cases hsent
  have hsmall : (header_text (padded_response 1).status_code (encoded (fun _ => true) (padded_response 1)).headers
      (some padded_stream) (padded_response 1).keepalive).length < UVHTTP_INITIAL_BUFFER_SIZE * 2 := by
    decide +kernel
  exact absurd hlarge (Nat.not_le_of_lt hsmall)

/-- With nine such headers the text outgrows the first buffer, and its second
rendering announces the two thousand bytes that are not sent. -/
theorem build_data_misframed :
    (∀ operation ∈ padded 9, operation.NoContentLength) ∧
      ∃ data r', uvhttp_response_build_data (fun _ => true) two_thousand_bs 0
        (run operate (uvhttp_response_init none) (padded 9)) = (.ok data, r') ∧ ¬ Framed data := by
  obtain ⟨data, r', hbuilt⟩ := build_data_granted two_thousand_bs 0
    (run operate (uvhttp_response_init none) (padded 9))
  refine ⟨padded_no_content_length 9, data, r', hbuilt, ?_⟩
  have hwell := wellbuilt_run (blank_init none).wellbuilt (padded_no_content_length 9)
  rw [run_padded_nine] at hwell hbuilt
  obtain ⟨rendered, hrendered, sent, hsent, hdata⟩ := build_data_eq _ _ _ hwell.body hbuilt
  rw [replacement_padded] at hrendered hsent
  have hencoded : rendered = encoded (fun _ => true) (padded_response 9) := hrendered
  have hstream : sent = some padded_stream := hsent
  have hlarge : UVHTTP_INITIAL_BUFFER_SIZE * 2 ≤ (header_text (padded_response 9).status_code
      (encoded (fun _ => true) (padded_response 9)).headers (some padded_stream)
      (padded_response 9).keepalive).length :=
    Nat.le_trans (by decide) (length_header_text_padded (by decide))
  have hbody : ((padded_response 9).body.getD []).length = 2000 := List.length_replicate
  rw [hencoded, hstream, if_pos hlarge] at hdata
  rw [hdata, framed_header_text (encoded_wellbuilt _ hwell).headers, hbody]
  decide

end uvhttp.gzip
