import Uvhttp.Http.Pipeline
import Uvhttp.Http.Restart

namespace uvhttp.http

/-- What a request handler does with the response it is given. -/
inductive HandlerCall where
  | set_status (status_code : Int)
  | set_header (name value : List UInt8)
  | set_body (body : List UInt8)
  | send
  deriving DecidableEq, Repr

def HandlerCall.operation : HandlerCall → Operation
  | set_status status_code => .set_status status_code
  | set_header name value => .set_header name value
  | set_body body => .set_body body
  | send => .send

/-- The calls send the response, and a valid status is set before. -/
def Responds : List HandlerCall → Prop
  | [] => False
  | .set_status status_code :: calls => ValidStatus status_code ∧ .send ∈ calls ∨ Responds calls
  | .send :: _ => False
  | _ :: calls => Responds calls

/-- The requests that find a response which has not been sent: the first one on a connection,
and each one before which a restart has run. -/
def answered (unsent : Bool) : List Turn → List Turn
  | [] => []
  | t :: turns => if unsent || 0 < t.restarts then t :: answered false turns else answered false turns

section serve

variable (alloc : Nat → Bool) (uv_write : List UInt8 → Bool) (handler : Seen → List HandlerCall)

/-- One call of a handler: the response after it, and the bytes it hands to `uv_write`. -/
def HandlerCall.perform (r : Response) : HandlerCall → Response × List UInt8
  | .set_status status_code => ((uvhttp_response_set_status r status_code).2, [])
  | .set_header name value => ((uvhttp_response_set_header alloc r name value).2, [])
  | .set_body body => ((uvhttp_response_set_body alloc r body).2, [])
  | .send =>
    let sending := uvhttp_response_send alloc uv_write r
    (sending.response, sending.written)

def respond (r : Response) : List HandlerCall → Response × List UInt8
  | [] => (r, [])
  | call :: calls =>
    let first := call.perform alloc uv_write r
    let rest := respond first.1 calls
    (rest.1, first.2 ++ rest.2)

/-- The handler runs for each request that is dispatched. -/
def respond_all (r : Response) : List Seen → Response × List UInt8
  | [] => (r, [])
  | seen :: later =>
    let first := respond alloc uv_write r (handler seen)
    let rest := respond_all first.1 later
    (rest.1, first.2 ++ rest.2)

/-- The callbacks and restarts (`none`) on a connection, in the order in which they happen, up to
the first error: the bytes handed to `uv_write`. -/
def serve (e : Exchange) : List (Option ParserCallback) → Option Exchange × List UInt8
  | [] => (some e, [])
  | none :: events => serve (exchange_restart e) events
  | some cb :: events =>
    let called := callback alloc e.parsing cb
    let responded := respond_all alloc uv_write handler e.response called.2
    match called.1 with
    | none => (none, responded.2)
    | some parsing =>
      let later := serve ⟨parsing, responded.1⟩ events
      (later.1, responded.2 ++ later.2)

/-- The response to a request that arrives alone on a new connection. -/
def response_alone (request : SpannedRequest) : List UInt8 :=
  (respond alloc uv_write uvhttp_response_init (handler request.delivered)).2

end serve

section handler

variable {alloc : Nat → Bool} {uv_write : List UInt8 → Bool} {r : Response}

theorem HandlerCall.perform_eq (e : Exchange) (call : HandlerCall) :
    (operate alloc uv_write e call.operation).1.response = (call.perform alloc uv_write e.response).1 := by
  cases call with
  | set_status status_code => rfl
  | set_header name value => rfl
  | set_body body => rfl
  | send => rfl

theorem HandlerCall.perform_table (h : ResponseTable r) (call : HandlerCall) :
    ResponseTable (call.perform alloc uv_write r).1 := by
  have htables : Tables ⟨parsing_new, r⟩ := ⟨between_new.table, h⟩
  rw [← HandlerCall.perform_eq ⟨parsing_new, r⟩]
  exact (operate_tables htables call.operation).response

theorem respond_table (h : ResponseTable r) (calls : List HandlerCall) :
    ResponseTable (respond alloc uv_write r calls).1 := by
  induction calls generalizing r with
  | nil => exact h
  | cons call calls ih => exact ih (call.perform_table h)

/-- A response that has been sent stays sent, and hands over nothing. -/
theorem HandlerCall.perform_sent (h : ResponseTable r) (hsent : r.sent = true) (call : HandlerCall) :
    (call.perform alloc uv_write r).1.sent = true ∧ (call.perform alloc uv_write r).2 = [] := by
  cases call with
  | set_status status_code =>
    refine ⟨?_, rfl⟩
    change (uvhttp_response_set_status r status_code).2.sent = true
    unfold uvhttp_response_set_status
    split
    · exact hsent
    · exact hsent
  | set_header name value =>
    refine ⟨?_, rfl⟩
    change (uvhttp_response_set_header alloc r name value).2.sent = true
    rcases set_header_spec alloc h name value with ⟨-, heq⟩ | ⟨-, -, heq⟩ | ⟨-, -, capacity, extra, heq, -⟩
    · rw [heq]
      exact hsent
    · rw [heq]
      exact hsent
    · rw [heq]
      exact hsent
  | set_body body =>
    refine ⟨?_, rfl⟩
    change (uvhttp_response_set_body alloc r body).2.sent = true
    unfold uvhttp_response_set_body
    split
    · exact hsent
    · split
      · exact hsent
      · split
        · exact hsent
        · exact hsent
  | send =>
    have hagain : uvhttp_response_send alloc uv_write r = ⟨.OK, [], r⟩ := by
      rw [uvhttp_response_send, if_pos hsent]
    rw [HandlerCall.perform, hagain]
    exact ⟨hsent, rfl⟩

theorem respond_sent (h : ResponseTable r) (hsent : r.sent = true) (calls : List HandlerCall) :
    (respond alloc uv_write r calls).1.sent = true ∧ (respond alloc uv_write r calls).2 = [] := by
  induction calls generalizing r with
  | nil => exact ⟨hsent, rfl⟩
  | cons call calls ih =>
    obtain ⟨hfirst, hnothing⟩ := @HandlerCall.perform_sent alloc uv_write _ h hsent call
    obtain ⟨hrest, hempty⟩ := ih (call.perform_table h) hfirst
    refine ⟨hrest, ?_⟩
    rw [respond, hnothing, hempty]
    rfl

theorem Responds.sends {calls : List HandlerCall} (h : Responds calls) : .send ∈ calls := by
  induction calls with
  | nil => exact h.elim
  | cons call calls ih =>
    apply List.mem_cons_of_mem
    cases call with
    | set_status status_code =>
      cases h with
      | inl hset => exact hset.2
      | inr hlater => exact ih hlater
    | set_header name value => exact ih h
    | set_body body => exact ih h
    | send => exact h.elim

variable (halloc : ∀ size, alloc size = true)

include halloc in
/-- Calls that send leave the response sent. -/
theorem respond_sends (h : ResponseTable r) {calls : List HandlerCall} (hsend : .send ∈ calls) :
    (respond alloc uv_write r calls).1.sent = true := by
  induction calls generalizing r with
  | nil => cases hsend
  | cons call calls ih =>
    have htable := @HandlerCall.perform_table alloc uv_write _ h call
    by_cases hlater : .send ∈ calls
    · exact ih htable hlater
    · obtain rfl := (List.mem_cons.mp hsend).resolve_right hlater
      refine (respond_sent htable ?_ calls).1
      cases hsent : r.sent with
      | true => exact (HandlerCall.perform_sent h hsent .send).1
      | false =>
        rw [HandlerCall.perform, send_eq halloc uv_write hsent]

include halloc in
/-- Responses that differ in nothing but an unset status and the size of their tables are
handed over alike, if a status is set before the send. -/
theorem respond_same {k : Gap} {a b : Response} (h : SameResponse k a b) {calls : List HandlerCall}
    (hcalls : k.status_set = true ∨ Responds calls) :
    (respond alloc uv_write a calls).2 = (respond alloc uv_write b calls).2 := by
  induction calls generalizing k a b with
  | nil => rfl
  | cons call calls ih =>
    rw [respond, respond]
    cases call with
    | set_status status_code =>
      have hnext := (h.set_status status_code).2
      refine congrArg ([] ++ ·) (ih hnext ?_)
      by_cases hvalid : ValidStatus status_code
      · left
        rw [Gap.next, if_pos hvalid]
      · rw [Gap.next, if_neg hvalid]
        cases hcalls with
        | inl hset => exact .inl hset
        | inr hresponds => exact .inr (hresponds.resolve_left fun hset => hvalid hset.1)
    | set_header name value => exact congrArg ([] ++ ·) (ih (h.set_header halloc name value).2 hcalls)
    | set_body body => exact congrArg ([] ++ ·) (ih (h.set_body alloc body).2 hcalls)
    | send =>
      have hset : k.status_set = true := hcalls.resolve_right fun hnone => hnone
      obtain ⟨-, hwritten, hrest⟩ := h.send halloc uv_write hset
      exact congrArg₂ (· ++ ·) hwritten (ih hrest (.inl hset))

end handler

section events

variable {alloc : Nat → Bool} {uv_write : List UInt8 → Bool} {handler : Seen → List HandlerCall}

theorem respond_all_append (r : Response) (first later : List Seen) :
    respond_all alloc uv_write handler r (first ++ later) =
      ((respond_all alloc uv_write handler (respond_all alloc uv_write handler r first).1 later).1,
        (respond_all alloc uv_write handler r first).2 ++
          (respond_all alloc uv_write handler (respond_all alloc uv_write handler r first).1 later).2) := by
  induction first generalizing r with
  | nil => rfl
  | cons seen first ih =>
    rw [List.cons_append, respond_all, ih]
    simp only [respond_all, List.append_assoc]

/-- The responses do not touch what is being parsed. -/
theorem serve_callbacks (e : Exchange) (callbacks : List ParserCallback) (events : List (Option ParserCallback)) :
    serve alloc uv_write handler e (callbacks.map some ++ events) =
      let executed := execute alloc e.parsing callbacks
      let responded := respond_all alloc uv_write handler e.response executed.2
      match executed.1 with
      | none => (none, responded.2)
      | some parsing =>
        ((serve alloc uv_write handler ⟨parsing, responded.1⟩ events).1,
          responded.2 ++ (serve alloc uv_write handler ⟨parsing, responded.1⟩ events).2) := by
  induction callbacks generalizing e with
  | nil => rfl
  | cons cb callbacks ih =>
    rw [List.map_cons, List.cons_append, serve]
    rcases hcb : callback alloc e.parsing cb with ⟨next, seen⟩
    cases next with
    | none =>
      rw [execute_cons_none hcb]
    | some next =>
      rw [execute_cons hcb]
      dsimp only
      rw [ih, respond_all_append]
      rcases execute alloc next callbacks with ⟨last, later⟩
      cases last with
      | none => rfl
      | some last =>
        dsimp only
        rw [List.append_assoc]

theorem serve_restarts (e : Exchange) (count : Nat) (events : List (Option ParserCallback)) :
    serve alloc uv_write handler e (List.replicate count none ++ events) =
      serve alloc uv_write handler (if 0 < count then exchange_restart e else e) events := by
  induction count generalizing e with
  | zero => rfl
  | succ count ih =>
    rw [List.replicate_succ, List.cons_append, serve, ih, if_pos (Nat.succ_pos count)]
    by_cases hpos : 0 < count
    · rw [if_pos hpos]
      rfl
    · rw [if_neg hpos]

variable (alloc uv_write) in
/-- A connection that waits for a request: nothing is left of an earlier one, and the response
will be handed over as that of a new connection. -/
structure Waits (e : Exchange) : Prop where
  between : Between e.parsing
  headers : e.parsing.request.headers = []
  body : e.parsing.request.body.getD [] = []
  table : ResponseTable e.response
  like_new : ∀ calls, Responds calls →
    (respond alloc uv_write e.response calls).2 = (respond alloc uv_write uvhttp_response_init calls).2

/-- A connection on which the response has been sent and no restart has run. -/
structure HasSent (e : Exchange) : Prop where
  between : Between e.parsing
  table : ResponseTable e.response
  sent : e.response.sent = true

theorem waits_new : Waits alloc uv_write exchange_new where
  between := between_new
  headers := rfl
  body := rfl
  table := responseTable_init
  like_new := fun _ _ => rfl

variable (halloc : ∀ size, alloc size = true)

include halloc in
theorem waits_restart {e : Exchange} (h : Tables e) : Waits alloc uv_write (exchange_restart e) where
  between := between_restart h.request
  headers := rfl
  body := rfl
  table := h.response.restart
  like_new := fun _ hcalls => respond_same halloc (same_after_restart h).response (.inr hcalls)

include halloc in
/-- One request, behind the restarts that run before it: the connection fails without output, or
it has sent the response to the request, or to an earlier one. -/
theorem serve_turn (hhandler : ∀ seen, Responds (handler seen)) {e : Exchange} {unsent : Bool}
    (he : if unsent then Waits alloc uv_write e else HasSent e) (t : Turn) (events : List (Option ParserCallback)) :
    serve alloc uv_write handler e (t.tape ++ events) = (none, []) ∨
      ∃ e', HasSent e' ∧ serve alloc uv_write handler e (t.tape ++ events) =
        ((serve alloc uv_write handler e' events).1,
          (if unsent || 0 < t.restarts then response_alone alloc uv_write handler t.request else []) ++
            (serve alloc uv_write handler e' events).2) := by
  have htables : Tables e := by
    cases unsent with
    | false => exact ⟨he.between.table, he.table⟩
    | true => exact ⟨he.between.table, he.table⟩
  rw [Turn.tape, List.append_assoc, serve_restarts]
  generalize hstart : (if 0 < t.restarts then exchange_restart e else e) = start
  have hready : if unsent || 0 < t.restarts then Waits alloc uv_write start else HasSent start := by
    rw [← hstart]
    by_cases hpos : 0 < t.restarts
    · simpa [hpos] using waits_restart halloc htables
    · simpa [hpos] using he
  rw [serve_callbacks]
  have hbetween : Between start.parsing := by
    split at hready
    · exact hready.between
    · exact hready.between
  have hrequest := execute_request halloc hbetween t.request
  split at hrequest
  · obtain ⟨parsing, hexecute, hafter, -⟩ := hrequest
    right
    rw [hexecute]
    dsimp only [respond_all]
    split at hready
    · rename_i hwaits
      rw [hready.headers, hready.body]
      have hsends := (hhandler t.request.delivered).sends
      refine ⟨⟨parsing, (respond alloc uv_write start.response (handler t.request.delivered)).1⟩,
        ⟨hafter, respond_table hready.table _, respond_sends halloc hready.table hsends⟩, ?_⟩
      rw [hready.like_new _ (hhandler _), List.append_nil, if_pos hwaits]
      rfl
    · rename_i hanswered
      generalize hcalls : handler (t.request.delivered_onto start.parsing.request.headers
        (start.parsing.request.body.getD [])) = calls
      obtain ⟨hsent, hnothing⟩ := @respond_sent alloc uv_write _ hready.table hready.sent calls
      refine ⟨⟨parsing, (respond alloc uv_write start.response calls).1⟩,
        ⟨hafter, respond_table hready.table _, hsent⟩, ?_⟩
      rw [hnothing, if_neg hanswered]
      rfl
  · left
    rw [hrequest]
    rfl

include halloc in
/-- The requests of a run, from any connection that waits or has sent. The induction is on the
requests: each finds the connection as the one before it has left it. -/
theorem serve_turns (hhandler : ∀ seen, Responds (handler seen)) (turns : List Turn) (trailing : Nat) {e : Exchange}
    {unsent : Bool} (he : if unsent then Waits alloc uv_write e else HasSent e) :
    ∃ served ≤ turns.length,
      ((serve alloc uv_write handler e (turns.flatMap Turn.tape ++ List.replicate trailing none)).1.isSome ↔
        served = turns.length) ∧
      (serve alloc uv_write handler e (turns.flatMap Turn.tape ++ List.replicate trailing none)).2 =
        (answered unsent (turns.take served)).flatMap fun t => response_alone alloc uv_write handler t.request := by
  induction turns generalizing e unsent with
  | nil =>
    refine ⟨0, le_refl _, ?_, ?_⟩
    · rw [List.flatMap_nil, List.nil_append, ← List.append_nil (List.replicate trailing none), serve_restarts]
      simp [serve]
    · rw [List.flatMap_nil, List.nil_append, ← List.append_nil (List.replicate trailing none), serve_restarts]
      rfl
  | cons t turns ih =>
    rw [List.flatMap_cons, List.append_assoc]
    cases serve_turn halloc hhandler he t (turns.flatMap Turn.tape ++ List.replicate trailing none) with
    | inl hfails =>
      refine ⟨0, Nat.zero_le _, ?_, ?_⟩
      · rw [hfails]
        simp
      · rw [hfails]
        rfl
    | inr hserved =>
      obtain ⟨e', hsent, hserve⟩ := hserved
      obtain ⟨served, hle, hall, hwritten⟩ := @ih e' false hsent
      refine ⟨served + 1, Nat.succ_le_succ hle, ?_, ?_⟩
      · rw [hserve, List.length_cons, Nat.add_right_cancel_iff]
        exact hall
      · rw [hserve, hwritten, List.take_succ_cons, answered]
        split
        · rw [List.flatMap_cons]
        · rw [List.nil_append]

include halloc in
/-- Requests arrive in reads of any size, with restarts running between them. The bytes that are
written are, in the order of the requests, the responses that each of them would get alone on a
new connection: one for the first request and for each behind a restart, and none for a request
that comes before the restart. Where a request fails to parse, those before it have been answered
and nothing follows. -/
theorem keep_alive_responses (uv_write : List UInt8 → Bool) {handler : Seen → List HandlerCall}
    (hhandler : ∀ seen, Responds (handler seen)) {turns : List Turn} {steps : List Step} {trailing : Nat}
    (hsteps : tape steps = turns.flatMap Turn.tape ++ List.replicate trailing none) :
    ∃ served ≤ turns.length,
      ((serve alloc uv_write handler exchange_new (tape steps)).1.isSome ↔ served = turns.length) ∧
      (serve alloc uv_write handler exchange_new (tape steps)).2 =
        (answered true (turns.take served)).flatMap fun t => response_alone alloc uv_write handler t.request := by
  rw [hsteps]
  exact @serve_turns alloc uv_write handler halloc hhandler turns trailing exchange_new true waits_new

end events

/-- A handler that answers with the path of the request. -/
def echo_path (seen : Seen) : List HandlerCall :=
  [.set_status 200, .set_header (bytes "Content-Type") (bytes "text/plain"), .set_body seen.url, .send]

/-- Three requests, the second in the same read as the first and the third behind a restart: the
second one gets no response. -/
theorem keep_alive_responses_three :
    let first : SpannedRequest := ⟨.HTTP_GET, ⟨[bytes "/a"], by decide⟩, [], []⟩
    let second : SpannedRequest := ⟨.HTTP_GET, ⟨[bytes "/b"], by decide⟩, [], []⟩
    let third : SpannedRequest := ⟨.HTTP_GET, ⟨[bytes "/c"], by decide⟩, [], []⟩
    let steps : List Step := [.read (first.callbacks ++ second.callbacks), .restart, .read third.callbacks]
    ∃ served ≤ 3,
      ((serve (fun _ => true) (fun _ => true) echo_path exchange_new (tape steps)).1.isSome ↔ served = 3) ∧
      (serve (fun _ => true) (fun _ => true) echo_path exchange_new (tape steps)).2 =
        (answered true ([⟨0, first⟩, ⟨0, second⟩, ⟨1, third⟩].take served)).flatMap fun t =>
          response_alone (fun _ => true) (fun _ => true) echo_path t.request := by
  intro first second third steps
  have hsteps : tape steps = [(⟨0, first⟩ : Turn), ⟨0, second⟩, ⟨1, third⟩].flatMap Turn.tape ++
      List.replicate 0 none := rfl
  have hhandler : ∀ seen, Responds (echo_path seen) := fun seen => .inl ⟨by decide, by simp⟩
  exact keep_alive_responses (fun _ => rfl) (fun _ => true) hhandler hsteps

end uvhttp.http
