import Uvhttp.Lib.Machine
import Uvhttp.Http.SetHeader
import Uvhttp.Http.Spans

namespace uvhttp.http

/-- The request and the response of a connection. -/
structure Exchange where
  parsing : HttpParsing
  response : Response
  deriving DecidableEq, Repr

/-- As `uvhttp_connection_new` sets them up. -/
def exchange_new : Exchange := ⟨parsing_new, uvhttp_response_init⟩

/-- As `uvhttp_connection_restart_read` leaves them. -/
def exchange_restart (e : Exchange) : Exchange := ⟨parsing_restart e.parsing, response_restart e.response⟩

/-- What a handler and the parser do to them. -/
inductive Operation where
  | set_status (status_code : Int)
  | set_header (name value : List UInt8)
  | set_body (body : List UInt8)
  | send
  | callback (cb : ParserCallback)
  deriving DecidableEq

/-- What can be observed of an operation: the return code with the bytes handed
to `uv_write`, or whether a parser callback succeeded with the requests it
dispatched. -/
inductive Answer where
  | returned (code : UvhttpError) (written : List UInt8)
  | parsed (ok : Bool) (seen : List Seen)
  deriving DecidableEq

section operations

variable (alloc : Nat → Bool) (uv_write : List UInt8 → Bool)

/-- One operation. A parser callback that fails leaves the request as it is. -/
def operate (e : Exchange) : Operation → Exchange × Answer
  | .set_status status_code =>
    let set := uvhttp_response_set_status e.response status_code
    ({ e with response := set.2 }, .returned set.1 [])
  | .set_header name value =>
    let set := uvhttp_response_set_header alloc e.response name value
    ({ e with response := set.2 }, .returned set.1 [])
  | .set_body body =>
    let set := uvhttp_response_set_body alloc e.response body
    ({ e with response := set.2 }, .returned set.1 [])
  | .send =>
    let sending := uvhttp_response_send alloc uv_write e.response
    ({ e with response := sending.response }, .returned sending.code sending.written)
  | .callback cb =>
    let called := callback alloc e.parsing cb
    ({ e with parsing := called.1.getD e.parsing }, .parsed called.1.isSome called.2)

/-- The past of a connection: operations, and restarts (`none`) at any time. -/
def history_step (e : Exchange) : Option Operation → Exchange × Unit
  | none => (exchange_restart e, ())
  | some op => ((operate alloc uv_write e op).1, ())

end operations

/-- The status codes that `uvhttp_response_set_status` accepts. -/
def ValidStatus (status_code : Int) : Prop :=
  UVHTTP_STATUS_MIN_CONTINUE ≤ status_code ∧ status_code ≤ UVHTTP_STATUS_MAX

instance (status_code : Int) : Decidable (ValidStatus status_code) := inferInstanceAs (Decidable (_ ∧ _))

/-- No response is sent before a valid status has been set. -/
def StatusBeforeSend : List Operation → Prop
  | [] => True
  | .send :: _ => False
  | .set_status status_code :: ops => ValidStatus status_code ∨ StatusBeforeSend ops
  | _ :: ops => StatusBeforeSend ops

/-- Of the body spans, a buffer that starts with capacity `a` and one that
starts with capacity `b` take the same ones, with `body_length` bytes in both
so far. -/
def BodiesAgree (a b body_length : Nat) : List Operation → Prop
  | [] => True
  | .callback (.body span) :: ops =>
    match grow_body a body_length span.length, grow_body b body_length span.length with
    | some a, some b => BodiesAgree a b (body_length + span.length) ops
    | none, none => BodiesAgree a b body_length ops
    | _, _ => False
  | _ :: ops => BodiesAgree a b body_length ops

section tables

variable {alloc : Nat → Bool}

theorem store_header_table {request request' : Request} {name value : List UInt8}
    (hcapacity : request.headers_capacity = 32 ∨ request.headers_capacity = 64 ∧ request.headers_extra = true)
    (hroom : request.headers.length < request.headers_capacity)
    (hstore : store_header request name value = .ok request') : HeaderTable request' := by
  unfold store_header at hstore
  split at hstore
  · cases hstore
    exact ⟨by simpa using hroom, hcapacity⟩
  · cases hstore

/-- Whether or not allocations succeed, a header table stays one. -/
theorem add_header_table {request request' : Request} (h : HeaderTable request) {name value : List UInt8}
    (hadd : uvhttp_request_add_header alloc request name value = .ok request') : HeaderTable request' := by
  unfold uvhttp_request_add_header at hadd
  by_cases hfull : request.headers.length ≥ request.headers_capacity
  · rw [if_pos hfull] at hadd
    rcases h.capacity with hsmall | ⟨hlarge, -⟩
    · have hgrow : grow_headers request.headers_capacity = some 64 := by
        rw [hsmall]
        rfl
      rw [hgrow] at hadd
      dsimp only at hadd
      split at hadd
      · cases hadd
      · have hcount := h.count
        refine store_header_table (.inr ⟨rfl, rfl⟩) ?_ hadd
        dsimp only
        omega
    · have hgrow : grow_headers request.headers_capacity = none := by
        rw [hlarge]
        rfl
      rw [hgrow] at hadd
      cases hadd
  · rw [if_neg hfull] at hadd
    exact store_header_table h.capacity (Nat.lt_of_not_le hfull) hadd

theorem callback_table {c c' : HttpParsing} (h : HeaderTable c.request) {cb : ParserCallback} {seen : List Seen}
    (hcallback : callback alloc c cb = (some c', seen)) : HeaderTable c'.request := by
  cases cb with
  | message_begin =>
    have hbegin : some (on_message_begin c) = some c' := (Prod.mk.inj hcallback).1
    cases hbegin
    exact h
  | url span =>
    have hurl : on_url c span = some c' := (Prod.mk.inj hcallback).1
    unfold on_url at hurl
    split at hurl
    · cases hurl
    · cases hurl
      exact ⟨h.count, h.capacity⟩
  | header_field span =>
    have hfield : on_header_field c span = some c' := (Prod.mk.inj hcallback).1
    unfold on_header_field at hfield
    split at hfield
    · cases hfield
    · cases hfield
      exact h
  | header_value span =>
    have hvalue : on_header_value alloc c span = some c' := (Prod.mk.inj hcallback).1
    unfold on_header_value at hvalue
    split at hvalue
    · cases hvalue
    · split at hvalue
      · cases hvalue
      · split at hvalue
        · cases hvalue
        · rename_i request hadd
          cases hvalue
          exact add_header_table h hadd
  | body span =>
    have hbody : on_body alloc c span = some c' := (Prod.mk.inj hcallback).1
    unfold on_body at hbody
    dsimp only at hbody
    split at hbody
    · cases hbody
    · split at hbody
      · cases hbody
        exact ⟨h.count, h.capacity⟩
      · split at hbody
        · cases hbody
        · cases hbody
          exact ⟨h.count, h.capacity⟩
  | message_complete method =>
    have hcomplete : some (on_message_complete c method).1 = some c' := (Prod.mk.inj hcallback).1
    unfold on_message_complete at hcomplete
    split at hcomplete
    · cases hcomplete
      exact h
    · obtain ⟨url, hurl⟩ := ensure_valid_url_eq { c.request with method := llhttp_method_to_uvhttp method }
      cases hcomplete
      dsimp only
      rw [hurl]
      exact ⟨h.count, h.capacity⟩

variable (alloc) in
/-- `uvhttp_response_set_header`: the header is refused as invalid, or refused
for want of a slot or of memory, or written behind the others. -/
theorem set_header_spec {r : Response} (h : ResponseTable r) (name value : List UInt8) :
    ¬ ValidHeader name value ∧ uvhttp_response_set_header alloc r name value = (.INVALID_PARAM, r) ∨
    ValidHeader name value ∧ (UVHTTP_MAX_HEADERS ≤ r.headers.length ∨ ∃ size, alloc size = false) ∧
      uvhttp_response_set_header alloc r name value = (.OUT_OF_MEMORY, r) ∨
    ValidHeader name value ∧ r.headers.length < UVHTTP_MAX_HEADERS ∧ ∃ headers_capacity headers_extra,
      uvhttp_response_set_header alloc r name value = (.OK, { r with
        headers := r.headers ++ [written_header name value], headers_capacity, headers_extra }) ∧
      ResponseTable { r with
        headers := r.headers ++ [written_header name value], headers_capacity, headers_extra } := by
  rw [h.set_header]
  by_cases hvalid : ValidHeader name value
  · rw [if_pos hvalid]
    by_cases hroom : HeaderRoom alloc r
    · rw [if_pos hroom]
      refine .inr (.inr ⟨hvalid, ?_, _, _, rfl, h.with_header name value hroom⟩)
      have hcount := (h.with_header name value hroom).count_le
      rw [http.with_header, List.length_append] at hcount
      exact hcount
    · rw [if_neg hroom]
      refine .inr (.inl ⟨hvalid, ?_, rfl⟩)
      obtain ⟨hfull, halloc⟩ := not_or.mp hroom
      rcases h.capacity with hsmall | ⟨hlarge, -⟩
      · exact .inr ⟨_, (Bool.not_eq_true _).mp fun hgranted => halloc ⟨hsmall, hgranted⟩⟩
      · exact .inl (hlarge.ge.trans (Nat.not_lt.mp hfull))
  · exact .inl ⟨hvalid, if_neg hvalid⟩

/-- The tables of an exchange. -/
structure Tables (e : Exchange) : Prop where
  request : HeaderTable e.parsing.request
  response : ResponseTable e.response

theorem operate_tables {uv_write : List UInt8 → Bool} {e : Exchange} (h : Tables e) (op : Operation) :
    Tables (operate alloc uv_write e op).1 := by
  cases op with
  | set_status status_code =>
    refine ⟨h.request, ?_⟩
    change ResponseTable (uvhttp_response_set_status e.response status_code).2
    unfold uvhttp_response_set_status
    split
    · exact h.response
    · exact ⟨h.response.count, h.response.capacity⟩
  | set_header name value =>
    refine ⟨h.request, ?_⟩
    change ResponseTable (uvhttp_response_set_header alloc e.response name value).2
    rcases set_header_spec alloc h.response name value with
      ⟨-, heq⟩ | ⟨-, -, heq⟩ | ⟨-, -, headers_capacity, headers_extra, heq, htable⟩
    · rw [heq]
      exact h.response
    · rw [heq]
      exact h.response
    · rw [heq]
      exact htable
  | set_body body =>
    refine ⟨h.request, ?_⟩
    have hsame : ∀ b, ResponseTable { e.response with body := b } :=
      fun _ => ⟨h.response.count, h.response.capacity⟩
    change ResponseTable (uvhttp_response_set_body alloc e.response body).2
    unfold uvhttp_response_set_body
    split
    · exact h.response
    · split
      · exact h.response
      · split
        · exact hsame none
        · exact hsame (some body)
  | send =>
    refine ⟨h.request, ?_⟩
    change ResponseTable (uvhttp_response_send alloc uv_write e.response).response
    unfold uvhttp_response_send
    split
    · exact h.response
    · split
      · exact h.response
      · exact ⟨h.response.count, h.response.capacity⟩
  | callback cb =>
    refine ⟨?_, h.response⟩
    change HeaderTable ((callback alloc e.parsing cb).1.getD e.parsing).request
    cases hcallback : callback alloc e.parsing cb with
    | mk parsing seen =>
      cases parsing with
      | none => exact h.request
      | some parsing => exact callback_table h.request hcallback

variable (alloc) in
theorem history_tables (uv_write : List UInt8 → Bool) (history : List (Option Operation)) :
    Tables (machine.run (history_step alloc uv_write) exchange_new history) := by
  refine machine.run_invariant (fun e event h => ?_) ⟨between_new.table, ⟨Nat.zero_le _, .inl rfl⟩⟩ history
  cases event with
  | none => exact ⟨(between_restart h.request).table, ⟨Nat.zero_le _, h.response.capacity⟩⟩
  | some op => exact operate_tables h op

end tables

section bytes_sent

variable {alloc : Nat → Bool} (halloc : ∀ size, alloc size = true)

theorem build_response_headers_eq {r : Response} {length : Nat}
    (h : (header_text r.status_code r.headers r.body r.keepalive).length < length) :
    build_response_headers r length = (header_text r.status_code r.headers r.body r.keepalive,
      (header_text r.status_code r.headers r.body r.keepalive).length) := by
  unfold build_response_headers
  dsimp only
  rw [if_pos h]

include halloc in
/-- When its allocations succeed, `uvhttp_response_build_data` returns the whole
header text, however long, and the body. -/
theorem build_data_eq (r : Response) :
    uvhttp_response_build_data alloc r =
      .ok (header_text r.status_code r.headers r.body r.keepalive ++ r.body.getD []) := by
  unfold uvhttp_response_build_data
  simp only [halloc, Bool.not_true, Bool.false_eq_true, if_false]
  by_cases hlong : (header_text r.status_code r.headers r.body r.keepalive).length < UVHTTP_INITIAL_BUFFER_SIZE * 2
  · rw [build_response_headers_eq hlong]
    dsimp only
    rw [if_neg (Nat.not_le.mpr hlong)]
    dsimp only
    rw [List.take_length]
  · have hlength : (build_response_headers r (UVHTTP_INITIAL_BUFFER_SIZE * 2)).2 =
        (header_text r.status_code r.headers r.body r.keepalive).length := rfl
    rw [hlength, if_pos (Nat.le_of_not_lt hlong),
      build_response_headers_eq (Nat.lt_add_of_pos_right (by decide))]
    dsimp only
    rw [List.take_length]

include halloc in
/-- The first send of a response hands over its bytes, whatever `uv_write` makes
of them. -/
theorem send_eq (uv_write : List UInt8 → Bool) {r : Response} (hsent : r.sent = false) :
    let data := header_text r.status_code r.headers r.body r.keepalive ++ r.body.getD []
    uvhttp_response_send alloc uv_write r =
      ⟨if uv_write data then .OK else .RESPONSE_SEND, data,
        { r with sent := true, finished := r.finished || uv_write data }⟩ := by
  intro data
  have hpos : data.length ≠ 0 := by
    simp [data, header_text, bytes]
  have hraw : uvhttp_response_send_raw alloc uv_write data =
      (if uv_write data then .OK else .RESPONSE_SEND, data) := by
    rw [uvhttp_response_send_raw, if_neg hpos]
    simp only [halloc, Bool.not_true, Bool.false_eq_true, if_false]
    cases uv_write data with
    | true => rfl
    | false => rfl
  unfold uvhttp_response_send
  rw [hsent, build_data_eq halloc]
  simp only [Bool.false_eq_true, if_false]
  rw [hraw]
  cases uv_write data with
  | true => rfl
  | false => rfl

/-- The status line tells 0 from 200. -/
theorem header_text_ne (headers : List Header) (body : Option (List UInt8)) (keepalive : Bool)
    (rest rest' : List UInt8) :
    header_text 0 headers body keepalive ++ rest ≠ header_text UVHTTP_STATUS_OK headers body keepalive ++ rest' := by
  intro h
  have hfirst := congrArg (List.take 10) h
  unfold header_text at hfirst
  simp only [List.append_assoc] at hfirst
  have hzero : ∀ tail, (bytes "HTTP/1.1 " ++ (bytes (toString (0 : Int)) ++ tail)).take 10 = bytes "HTTP/1.1 0" :=
    fun _ => rfl
  have hok : ∀ tail, (bytes "HTTP/1.1 " ++ (bytes (toString UVHTTP_STATUS_OK) ++ tail)).take 10 =
      bytes "HTTP/1.1 2" := fun _ => rfl
  rw [hzero, hok] at hfirst
  exact absurd hfirst (by decide)

end bytes_sent

section comparison

/-- What is known of a restarted and a new connection: whether a status has been
set on both, the capacities of their body buffers and the bytes in them. -/
structure Gap where
  status_set : Bool
  restarted_capacity : Nat
  new_capacity : Nat
  body_length : Nat

/-- The operations that a restarted and a new connection answer alike. -/
def Gap.Agree (k : Gap) : Operation → Prop
  | .send => k.status_set = true
  | .callback (.body span) =>
    (grow_body k.restarted_capacity k.body_length span.length).isSome =
      (grow_body k.new_capacity k.body_length span.length).isSome
  | _ => True

def Gap.next (k : Gap) : Operation → Gap
  | .set_status status_code => if ValidStatus status_code then { k with status_set := true } else k
  | .callback (.body span) =>
    match grow_body k.restarted_capacity k.body_length span.length,
      grow_body k.new_capacity k.body_length span.length with
    | some restarted_capacity, some new_capacity =>
      { k with restarted_capacity, new_capacity, body_length := k.body_length + span.length }
    | _, _ => k
  | _ => k

/-- The parse states of the two: the same but for the method, which is set before
it is read, the sizes of their tables and their body buffers. -/
structure SameParsing (k : Gap) (a b : HttpParsing) : Prop where
  complete : a.parsing_complete = b.parsing_complete
  field : a.current_header_field = b.current_header_field
  url : a.request.url = b.request.url
  headers : a.request.headers = b.request.headers
  body : a.request.body.getD [] = b.request.body.getD []
  body_length : (b.request.body.getD []).length = k.body_length
  restarted_capacity : a.request.body_capacity = k.restarted_capacity
  new_capacity : b.request.body_capacity = k.new_capacity
  restarted_table : HeaderTable a.request
  new_table : HeaderTable b.request
  restarted_buffer : BodyBuffer a.request
  new_buffer : BodyBuffer b.request

/-- The responses of the two: the same but for the status, while none is set,
and the sizes of their tables. -/
structure SameResponse (k : Gap) (a b : Response) : Prop where
  status : k.status_set = true → a.status_code = b.status_code
  unset : k.status_set = false → a.status_code = 0 ∧ b.status_code = UVHTTP_STATUS_OK ∧ b.sent = false
  sent : a.sent = b.sent
  keepalive : a.keepalive = b.keepalive
  headers : a.headers = b.headers
  body : a.body = b.body
  restarted_table : ResponseTable a
  new_table : ResponseTable b

structure SameExchange (k : Gap) (a b : Exchange) : Prop where
  parsing : SameParsing k a.parsing b.parsing
  response : SameResponse k a.response b.response

theorem alike_iff (k : Gap) (ops : List Operation) :
    machine.Alike Gap.Agree Gap.next k ops ↔
      (k.status_set = true ∨ StatusBeforeSend ops) ∧
        BodiesAgree k.restarted_capacity k.new_capacity k.body_length ops := by
  induction ops generalizing k with
  | nil => simp [machine.Alike, StatusBeforeSend, BodiesAgree]
  | cons op ops ih =>
    rw [machine.Alike, ih]
    cases op with
    | set_status status_code =>
      by_cases hvalid : ValidStatus status_code
      · simp [Gap.Agree, Gap.next, StatusBeforeSend, BodiesAgree, hvalid]
      · simp [Gap.Agree, Gap.next, StatusBeforeSend, BodiesAgree, hvalid]
    | set_header name value => simp [Gap.Agree, Gap.next, StatusBeforeSend, BodiesAgree]
    | set_body body => simp [Gap.Agree, Gap.next, StatusBeforeSend, BodiesAgree]
    | send =>
      simp only [Gap.Agree, Gap.next, StatusBeforeSend, BodiesAgree]
      tauto
    | callback cb =>
      cases cb with
      | body span =>
        cases hrestarted : grow_body k.restarted_capacity k.body_length span.length with
        | none =>
          cases hnew : grow_body k.new_capacity k.body_length span.length with
          | none => simp [Gap.Agree, Gap.next, StatusBeforeSend, BodiesAgree, hrestarted, hnew]
          | some capacity => simp [Gap.Agree, Gap.next, StatusBeforeSend, BodiesAgree, hrestarted, hnew]
        | some restarted =>
          cases hnew : grow_body k.new_capacity k.body_length span.length with
          | none => simp [Gap.Agree, Gap.next, StatusBeforeSend, BodiesAgree, hrestarted, hnew]
          | some capacity => simp [Gap.Agree, Gap.next, StatusBeforeSend, BodiesAgree, hrestarted, hnew]
      | message_begin => simp [Gap.Agree, Gap.next, StatusBeforeSend, BodiesAgree]
      | url span => simp [Gap.Agree, Gap.next, StatusBeforeSend, BodiesAgree]
      | header_field span => simp [Gap.Agree, Gap.next, StatusBeforeSend, BodiesAgree]
      | header_value span => simp [Gap.Agree, Gap.next, StatusBeforeSend, BodiesAgree]
      | message_complete method => simp [Gap.Agree, Gap.next, StatusBeforeSend, BodiesAgree]

theorem SameResponse.set_status {k : Gap} {a b : Response} (h : SameResponse k a b) (status_code : Int) :
    (uvhttp_response_set_status a status_code).1 = (uvhttp_response_set_status b status_code).1 ∧
      SameResponse (k.next (.set_status status_code)) (uvhttp_response_set_status a status_code).2
        (uvhttp_response_set_status b status_code).2 := by
  unfold uvhttp_response_set_status
  by_cases hvalid : ValidStatus status_code
  · have haccepted : ¬ (status_code < UVHTTP_STATUS_MIN_CONTINUE ∨ status_code > UVHTTP_STATUS_MAX) := by
      rintro (hlow | hhigh)
      · exact absurd hvalid.1 (Int.not_le.mpr hlow)
      · exact absurd hvalid.2 (Int.not_le.mpr hhigh)
    rw [if_neg haccepted, if_neg haccepted, Gap.next, if_pos hvalid]
    exact ⟨rfl, {
      status := fun _ => rfl
      unset := fun hunset => (by cases hunset)
      sent := h.sent
      keepalive := h.keepalive
      headers := h.headers
      body := h.body
      restarted_table := ⟨h.restarted_table.count, h.restarted_table.capacity⟩
      new_table := ⟨h.new_table.count, h.new_table.capacity⟩ }⟩
  · have hrefused : status_code < UVHTTP_STATUS_MIN_CONTINUE ∨ status_code > UVHTTP_STATUS_MAX := by
      by_contra hnone
      push Not at hnone
      exact hvalid hnone
    rw [if_pos hrefused, if_pos hrefused, Gap.next, if_neg hvalid]
    exact ⟨rfl, h⟩

theorem SameResponse.set_body {k : Gap} {a b : Response} (h : SameResponse k a b) (alloc : Nat → Bool)
    (body : List UInt8) :
    (uvhttp_response_set_body alloc a body).1 = (uvhttp_response_set_body alloc b body).1 ∧
      SameResponse k (uvhttp_response_set_body alloc a body).2 (uvhttp_response_set_body alloc b body).2 := by
  have hwith : ∀ stored, SameResponse k { a with body := stored } { b with body := stored } := fun stored => {
    status := h.status
    unset := h.unset
    sent := h.sent
    keepalive := h.keepalive
    headers := h.headers
    body := rfl
    restarted_table := ⟨h.restarted_table.count, h.restarted_table.capacity⟩
    new_table := ⟨h.new_table.count, h.new_table.capacity⟩ }
  unfold uvhttp_response_set_body
  split
  · exact ⟨rfl, h⟩
  · split
    · exact ⟨rfl, h⟩
    · split
      · exact ⟨rfl, hwith none⟩
      · exact ⟨rfl, hwith (some body)⟩

variable {alloc : Nat → Bool} (halloc : ∀ size, alloc size = true)

include halloc in
theorem SameResponse.set_header {k : Gap} {a b : Response} (h : SameResponse k a b) (name value : List UInt8) :
    (uvhttp_response_set_header alloc a name value).1 = (uvhttp_response_set_header alloc b name value).1 ∧
      SameResponse k (uvhttp_response_set_header alloc a name value).2
        (uvhttp_response_set_header alloc b name value).2 := by
  have hmemory : ¬ ∃ size, alloc size = false := by
    rintro ⟨size, hfails⟩
    exact Bool.noConfusion ((halloc size).symm.trans hfails)
  have hlength := congrArg List.length h.headers
  rcases set_header_spec alloc h.restarted_table name value with
    ⟨hinvalid, ha⟩ | ⟨hvalid, hfull, ha⟩ | ⟨hvalid, hroom, capacity, extra, ha, htable⟩
  · rcases set_header_spec alloc h.new_table name value with ⟨-, hb⟩ | ⟨hvalid, -⟩ | ⟨hvalid, -⟩
    · rw [ha, hb]
      exact ⟨rfl, h⟩
    · exact absurd hvalid hinvalid
    · exact absurd hvalid hinvalid
  · rcases set_header_spec alloc h.new_table name value with ⟨hinvalid, -⟩ | ⟨-, -, hb⟩ | ⟨-, hroom, -⟩
    · exact absurd hvalid hinvalid
    · rw [ha, hb]
      exact ⟨rfl, h⟩
    · have hcount := hfull.resolve_right hmemory
      omega
  · rcases set_header_spec alloc h.new_table name value with
      ⟨hinvalid, -⟩ | ⟨-, hfull, -⟩ | ⟨-, -, capacity', extra', hb, htable'⟩
    · exact absurd hvalid hinvalid
    · have hcount := hfull.resolve_right hmemory
      omega
    · rw [ha, hb]
      exact ⟨rfl, {
        status := h.status
        unset := h.unset
        sent := h.sent
        keepalive := h.keepalive
        headers := congrArg (· ++ [written_header name value]) h.headers
        body := h.body
        restarted_table := htable
        new_table := htable' }⟩

include halloc in
/-- Once a status has been set, both send the same bytes. -/
theorem SameResponse.send {k : Gap} {a b : Response} (h : SameResponse k a b) (uv_write : List UInt8 → Bool)
    (hset : k.status_set = true) :
    (uvhttp_response_send alloc uv_write a).code = (uvhttp_response_send alloc uv_write b).code ∧
      (uvhttp_response_send alloc uv_write a).written = (uvhttp_response_send alloc uv_write b).written ∧
      SameResponse k (uvhttp_response_send alloc uv_write a).response
        (uvhttp_response_send alloc uv_write b).response := by
  cases hsent : b.sent with
  | true =>
    have hagain : ∀ r : Response, r.sent = true → uvhttp_response_send alloc uv_write r = ⟨.OK, [], r⟩ := by
      intro r hr
      rw [uvhttp_response_send, if_pos hr]
    rw [hagain a (h.sent.trans hsent), hagain b hsent]
    exact ⟨rfl, rfl, h⟩
  | false =>
    rw [send_eq halloc uv_write hsent, send_eq halloc uv_write (h.sent.trans hsent), h.status hset, h.headers, h.body,
      h.keepalive]
    exact ⟨rfl, rfl, {
      status := fun _ => rfl
      unset := fun hunset => Bool.noConfusion (hset.symm.trans hunset)
      sent := rfl
      keepalive := rfl
      headers := rfl
      body := rfl
      restarted_table := ⟨h.headers ▸ h.restarted_table.count, h.restarted_table.capacity⟩
      new_table := ⟨h.new_table.count, h.new_table.capacity⟩ }⟩

include halloc in
/-- Before, they do not: one has status 0 and the other 200. -/
theorem SameResponse.send_differs {k : Gap} {a b : Response} (h : SameResponse k a b)
    (uv_write : List UInt8 → Bool) (hset : k.status_set = false) :
    (uvhttp_response_send alloc uv_write a).written ≠ (uvhttp_response_send alloc uv_write b).written := by
  obtain ⟨hzero, hok, hsent⟩ := h.unset hset
  rw [send_eq halloc uv_write hsent, send_eq halloc uv_write (h.sent.trans hsent), hzero, hok, h.headers, h.body,
    h.keepalive]
  exact header_text_ne b.headers b.body b.keepalive _ _

/-- One parser callback on both: both succeed or both fail, dispatch the same
requests, and stay the same. -/
structure SameCallback (k : Gap) (alloc : Nat → Bool) (cb : ParserCallback) (a b : HttpParsing) : Prop where
  succeeds : (callback alloc a cb).1.isSome = (callback alloc b cb).1.isSome
  seen : (callback alloc a cb).2 = (callback alloc b cb).2
  parsing : SameParsing (k.next (.callback cb)) ((callback alloc a cb).1.getD a) ((callback alloc b cb).1.getD b)

theorem SameCallback.of_some {k : Gap} {alloc : Nat → Bool} {cb : ParserCallback} {a b a' b' : HttpParsing}
    {seen : List Seen} (ha : callback alloc a cb = (some a', seen)) (hb : callback alloc b cb = (some b', seen))
    (h : SameParsing (k.next (.callback cb)) a' b') : SameCallback k alloc cb a b := by
  refine ⟨?_, ?_, ?_⟩
  · rw [ha, hb]
    rfl
  · rw [ha, hb]
  · rw [ha, hb]
    exact h

theorem SameCallback.of_none {k : Gap} {alloc : Nat → Bool} {cb : ParserCallback} {a b : HttpParsing}
    {seen : List Seen} (ha : callback alloc a cb = (none, seen)) (hb : callback alloc b cb = (none, seen))
    (h : SameParsing (k.next (.callback cb)) a b) : SameCallback k alloc cb a b := by
  refine ⟨?_, ?_, ?_⟩
  · rw [ha, hb]
  · rw [ha, hb]
  · rw [ha, hb]
    exact h

theorem SameParsing.on_url {k : Gap} {a b : HttpParsing} (h : SameParsing k a b) (alloc : Nat → Bool)
    (span : List UInt8) : SameCallback k alloc (.url span) a b := by
  by_cases hlong : span.length ≥ MAX_URL_LEN
  · have hrefused : ∀ c, callback alloc c (.url span) = (none, []) := by
      intro c
      rw [callback, http.on_url, if_pos hlong]
    exact .of_none (hrefused a) (hrefused b) h
  · have htaken : ∀ c, callback alloc c (.url span) =
        (some { c with request := { c.request with url := span } }, []) := by
      intro c
      rw [callback, http.on_url, if_neg hlong]
    exact .of_some (htaken a) (htaken b) { h with
      url := rfl
      restarted_table := ⟨h.restarted_table.count, h.restarted_table.capacity⟩
      new_table := ⟨h.new_table.count, h.new_table.capacity⟩ }

theorem SameParsing.on_header_field {k : Gap} {a b : HttpParsing} (h : SameParsing k a b) (alloc : Nat → Bool)
    (span : List UInt8) : SameCallback k alloc (.header_field span) a b := by
  by_cases hlong : span.length ≥ UVHTTP_MAX_HEADER_NAME_SIZE
  · have hrefused : ∀ c, callback alloc c (.header_field span) = (none, []) := by
      intro c
      rw [callback, http.on_header_field, if_pos hlong]
    exact .of_none (hrefused a) (hrefused b) h
  · have htaken : ∀ c, callback alloc c (.header_field span) = (some { c with current_header_field := span }, []) := by
      intro c
      rw [callback, http.on_header_field, if_neg hlong]
    exact .of_some (htaken a) (htaken b) { h with field := rfl }

include halloc in
theorem SameParsing.on_header_value {k : Gap} {a b : HttpParsing} (h : SameParsing k a b) (span : List UInt8) :
    SameCallback k alloc (.header_value span) a b := by
  have ha := on_header_value_spec halloc h.restarted_table span
  have hb := on_header_value_spec halloc h.new_table span
  rw [h.field, h.headers] at ha
  by_cases hok : span.length < UVHTTP_MAX_HEADER_VALUE_SIZE ∧ b.current_header_field ≠ [] ∧
      b.request.headers.length < UVHTTP_MAX_HEADERS
  · rw [if_pos hok] at ha hb
    obtain ⟨capacity, extra, ha, htable⟩ := ha
    obtain ⟨capacity', extra', hb, htable'⟩ := hb
    refine .of_some (congrArg (·, []) ha) (congrArg (·, []) hb) { h with
      field := rfl
      headers := rfl
      restarted_table := htable
      new_table := htable' }
  · rw [if_neg hok] at ha hb
    exact .of_none (congrArg (·, []) ha) (congrArg (·, []) hb) h

theorem SameParsing.on_message_complete {k : Gap} {a b : HttpParsing} (h : SameParsing k a b) (alloc : Nat → Bool)
    (method : LlhttpMethod) : SameCallback k alloc (.message_complete method) a b := by
  have hcalled : ∀ c, callback alloc c (.message_complete method) =
      (some (http.on_message_complete c method).1, (http.on_message_complete c method).2) := fun _ => rfl
  cases hcomplete : b.parsing_complete with
  | true =>
    have hagain : ∀ c : HttpParsing, c.parsing_complete = true →
        callback alloc c (.message_complete method) = (some c, []) := by
      intro c hc
      rw [hcalled, http.on_message_complete, if_pos hc]
    exact .of_some (hagain a (h.complete.trans hcomplete)) (hagain b hcomplete) h
  | false =>
    have hfirst : ∀ c : HttpParsing, c.parsing_complete = false →
        callback alloc c (.message_complete method) =
          (some { c with
            request := ensure_valid_url { c.request with method := llhttp_method_to_uvhttp method }
            parsing_complete := true },
          [⟨llhttp_method_to_uvhttp method, read_url c.request.url, c.request.headers, c.request.body.getD []⟩]) := by
      intro c hc
      rw [hcalled, http.on_message_complete, hc]
      simp only [Bool.false_eq_true, if_false]
      rw [ensure_valid_url_seen]
    have ha := hfirst a (h.complete.trans hcomplete)
    rw [h.url, h.headers, h.body] at ha
    refine .of_some ha (hfirst b hcomplete) ?_
    unfold ensure_valid_url
    dsimp only
    rw [h.url]
    have htables : HeaderTable { a.request with method := llhttp_method_to_uvhttp method } ∧
        HeaderTable { b.request with method := llhttp_method_to_uvhttp method } :=
      ⟨⟨h.restarted_table.count, h.restarted_table.capacity⟩, ⟨h.new_table.count, h.new_table.capacity⟩⟩
    split
    · exact { h with
        complete := rfl
        url := rfl
        restarted_table := ⟨htables.1.count, htables.1.capacity⟩
        new_table := ⟨htables.2.count, htables.2.capacity⟩ }
    · exact { h with
        complete := rfl
        url := rfl
        restarted_table := ⟨htables.1.count, htables.1.capacity⟩
        new_table := ⟨htables.2.count, htables.2.capacity⟩ }

include halloc in
theorem SameParsing.on_body {k : Gap} {a b : HttpParsing} (h : SameParsing k a b) (span : List UInt8) :
    (callback alloc a (.body span)).1.isSome = (grow_body k.restarted_capacity k.body_length span.length).isSome ∧
    (callback alloc b (.body span)).1.isSome = (grow_body k.new_capacity k.body_length span.length).isSome ∧
    (k.Agree (.callback (.body span)) → SameCallback k alloc (.body span) a b) := by
  have ha := on_body_spec halloc h.restarted_buffer span
  have hb := on_body_spec halloc h.new_buffer span
  rw [h.restarted_capacity, h.body, h.body_length] at ha
  rw [h.new_capacity, h.body_length] at hb
  cases hrestarted : grow_body k.restarted_capacity k.body_length span.length with
  | none =>
    cases hnew : grow_body k.new_capacity k.body_length span.length with
    | none =>
      rw [hrestarted] at ha
      rw [hnew] at hb
      dsimp only at ha hb
      refine ⟨congrArg Option.isSome ha, congrArg Option.isSome hb, fun _ => ?_⟩
      refine .of_none (congrArg (·, []) ha) (congrArg (·, []) hb) ?_
      simpa only [Gap.next, hrestarted, hnew] using h
    | some capacity =>
      rw [hrestarted] at ha
      rw [hnew] at hb
      obtain ⟨body, hb, -⟩ := hb
      dsimp only at ha
      refine ⟨congrArg Option.isSome ha, congrArg Option.isSome hb, fun hagree => ?_⟩
      simp [Gap.Agree, hrestarted, hnew] at hagree
  | some restarted =>
    rw [hrestarted] at ha
    obtain ⟨body, ha, hbody, hbuffer⟩ := ha
    cases hnew : grow_body k.new_capacity k.body_length span.length with
    | none =>
      rw [hnew] at hb
      dsimp only at hb
      refine ⟨congrArg Option.isSome ha, congrArg Option.isSome hb, fun hagree => ?_⟩
      simp [Gap.Agree, hrestarted, hnew] at hagree
    | some capacity =>
      rw [hnew] at hb
      obtain ⟨body', hb, hbody', hbuffer'⟩ := hb
      refine ⟨congrArg Option.isSome ha, congrArg Option.isSome hb, fun _ => ?_⟩
      refine .of_some (congrArg (·, []) ha) (congrArg (·, []) hb) ?_
      simp only [Gap.next, hrestarted, hnew]
      exact { h with
        body := hbody.trans hbody'.symm
        body_length := by
          dsimp only
          rw [hbody', List.length_append, h.body_length]
        restarted_capacity := rfl
        new_capacity := rfl
        restarted_table := ⟨h.restarted_table.count, h.restarted_table.capacity⟩
        new_table := ⟨h.new_table.count, h.new_table.capacity⟩
        restarted_buffer := hbuffer
        new_buffer := hbuffer' }

include halloc in
theorem SameParsing.callback {k : Gap} {a b : HttpParsing} (h : SameParsing k a b) (cb : ParserCallback)
    (hagree : k.Agree (.callback cb)) : SameCallback k alloc cb a b := by
  cases cb with
  | message_begin => exact .of_some rfl rfl { h with complete := rfl }
  | url span => exact h.on_url alloc span
  | header_field span => exact h.on_header_field alloc span
  | header_value span => exact h.on_header_value halloc span
  | body span => exact (h.on_body halloc span).2.2 hagree
  | message_complete method => exact h.on_message_complete alloc method

theorem SameParsing.next_set_status {k : Gap} {a b : HttpParsing} (h : SameParsing k a b) (status_code : Int) :
    SameParsing (k.next (.set_status status_code)) a b := by
  rw [Gap.next]
  split
  · exact { h with }
  · exact h

theorem SameResponse.next_callback {k : Gap} {a b : Response} (h : SameResponse k a b) (cb : ParserCallback) :
    SameResponse (k.next (.callback cb)) a b := by
  cases cb with
  | body span =>
    rw [Gap.next]
    split
    · exact { h with }
    · exact h
  | message_begin => exact h
  | url span => exact h
  | header_field span => exact h
  | header_value span => exact h
  | message_complete method => exact h

include halloc in
/-- A restarted and a new connection, one operation at a time. -/
theorem exchange_comparison (uv_write : List UInt8 → Bool) :
    machine.Comparison (operate alloc uv_write) SameExchange Gap.Agree Gap.next where
  alike := by
    intro k a b h op hagree
    cases op with
    | set_status status_code => exact congrArg (Answer.returned · []) (h.response.set_status status_code).1
    | set_header name value => exact congrArg (Answer.returned · []) (h.response.set_header halloc name value).1
    | set_body body => exact congrArg (Answer.returned · []) (h.response.set_body alloc body).1
    | send =>
      obtain ⟨hcode, hwritten, -⟩ := h.response.send halloc uv_write hagree
      exact congrArg₂ Answer.returned hcode hwritten
    | callback cb =>
      have hsame := h.parsing.callback halloc cb hagree
      exact congrArg₂ Answer.parsed hsame.succeeds hsame.seen
  stays := by
    intro k a b h op hagree
    cases op with
    | set_status status_code =>
      exact ⟨h.parsing.next_set_status status_code, (h.response.set_status status_code).2⟩
    | set_header name value => exact ⟨h.parsing, (h.response.set_header halloc name value).2⟩
    | set_body body => exact ⟨h.parsing, (h.response.set_body alloc body).2⟩
    | send => exact ⟨h.parsing, (h.response.send halloc uv_write hagree).2.2⟩
    | callback cb => exact ⟨(h.parsing.callback halloc cb hagree).parsing, h.response.next_callback cb⟩
  differs := by
    intro k a b h op hagree hsame
    cases op with
    | set_status status_code => exact hagree trivial
    | set_header name value => exact hagree trivial
    | set_body body => exact hagree trivial
    | send =>
      have hset : k.status_set = false := Bool.eq_false_iff.mpr hagree
      exact h.response.send_differs halloc uv_write hset (Answer.returned.inj hsame).2
    | callback cb =>
      cases cb with
      | body span =>
        obtain ⟨hrestarted, hnew, -⟩ := h.parsing.on_body halloc span
        exact hagree (hrestarted.symm.trans ((Answer.parsed.inj hsame).1.trans hnew))
      | message_begin => exact hagree trivial
      | url span => exact hagree trivial
      | header_field span => exact hagree trivial
      | header_value span => exact hagree trivial
      | message_complete method => exact hagree trivial

theorem same_after_restart {e : Exchange} (h : Tables e) :
    SameExchange ⟨false, 0, UVHTTP_INITIAL_BUFFER_SIZE, 0⟩ (exchange_restart e) exchange_new where
  parsing :=
    { complete := rfl
      field := rfl
      url := rfl
      headers := rfl
      body := rfl
      body_length := rfl
      restarted_capacity := rfl
      new_capacity := rfl
      restarted_table := (between_restart h.request).table
      new_table := between_new.table
      restarted_buffer := (between_restart h.request).buffer
      new_buffer := between_new.buffer }
  response :=
    { status := fun hset => (by cases hset)
      unset := fun _ => ⟨rfl, rfl, rfl⟩
      sent := rfl
      keepalive := rfl
      headers := rfl
      body := rfl
      restarted_table := ⟨Nat.zero_le _, h.response.capacity⟩
      new_table := ⟨Nat.zero_le _, .inl rfl⟩ }

include halloc in
/-- Whatever happened on the connection before, with or without failing
allocations and writes: after `uvhttp_connection_restart_read` a sequence of
operations is answered as on a new connection exactly when no response is sent
before a valid status has been set and the body spans are taken alike by a buffer
that starts empty and by one that starts with `UVHTTP_INITIAL_BUFFER_SIZE`. -/
theorem restart_like_new_iff (alloc_before : Nat → Bool) (uv_write_before uv_write : List UInt8 → Bool)
    (history : List (Option Operation)) (ops : List Operation) :
    machine.answers (operate alloc uv_write)
        (exchange_restart (machine.run (history_step alloc_before uv_write_before) exchange_new history)) ops =
      machine.answers (operate alloc uv_write) exchange_new ops ↔
    StatusBeforeSend ops ∧ BodiesAgree 0 UVHTTP_INITIAL_BUFFER_SIZE 0 ops := by
  have hsame := same_after_restart (history_tables alloc_before uv_write_before history)
  rw [(exchange_comparison halloc uv_write).answers_eq_iff hsame ops, alike_iff]
  simp

end comparison

/-- A second request with a body, answered with a status of its own. -/
theorem restart_like_new_status_set :
    let history : List (Option Operation) :=
      [some (.set_status 404), some (.set_header (bytes "X-Trace") (bytes "1")), some .send]
    let ops : List Operation :=
      [.callback .message_begin, .callback (.url (bytes "/b")), .callback (.body (bytes "x=1")),
        .callback (.message_complete .HTTP_POST), .set_status 200, .set_body (bytes "ok"), .send]
    machine.answers (operate (fun _ => true) (fun _ => true))
        (exchange_restart (machine.run (history_step (fun _ => true) fun _ => true) exchange_new history)) ops =
      machine.answers (operate (fun _ => true) (fun _ => true)) exchange_new ops := by
  intro history ops
  refine (restart_like_new_iff (fun _ => rfl) (fun _ => true) (fun _ => true) (fun _ => true) history ops).mpr ⟨?_, ?_⟩
  · exact .inl (by decide)
  · trivial

/-- A response that is sent without setting a status: "HTTP/1.1 0 Unknown" after
a restart, "HTTP/1.1 200 OK" on a new connection. -/
theorem restart_unlike_new_default_status :
    machine.answers (operate (fun _ => true) (fun _ => true))
        (exchange_restart (machine.run (history_step (fun _ => true) fun _ => true) exchange_new
          [some (.set_status 200), some .send])) [.send] ≠
      machine.answers (operate (fun _ => true) (fun _ => true)) exchange_new [.send] := by
  intro hsame
  have hanswer := (List.cons.inj hsame).1
  have hrel := same_after_restart (history_tables (fun _ => true) (fun _ => true) [some (.set_status 200), some .send])
  exact (exchange_comparison (fun _ => rfl) fun _ => true).differs hrel .send (by simp [Gap.Agree]) hanswer

end uvhttp.http
