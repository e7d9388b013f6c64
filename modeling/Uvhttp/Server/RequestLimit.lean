import Uvhttp.Http.KeepAlive
import Uvhttp.Server.RateLimit
import Uvhttp.Server.Whitelist

open uvhttp.http (HandlerCall)

namespace uvhttp.server

/-- What `check_rate_limit_whitelist` reads of a server. -/
structure LimitedServer where
  rate : RateLimit
  whitelist : Whitelist
  deriving DecidableEq, Repr

/-- The answer to a request that is over the limit. -/
def too_many_requests : List HandlerCall :=
  [.set_status 429, .set_header (bytes "Content-Type") (bytes "text/plain"),
    .set_header (bytes "Retry-After") (bytes "60"), .set_body (bytes "Too many requests"), .send]

/-- `is_client_whitelisted`, for the address that `uv_tcp_getpeername` finds. -/
def peer_whitelisted (w : Whitelist) : Option (List UInt8) → Bool
  | none => false
  | some client_ip => is_client_whitelisted w client_ip

/-- `check_rate_limit_whitelist`: whether the request is over the limit, what is done with its response, and
the server afterwards. -/
def check_rate_limit_whitelist (s : LimitedServer) (peer : Option (List UInt8)) (now : UInt64) :
    Bool × List HandlerCall × LimitedServer :=
  if !s.rate.enabled then (false, [], s)
  else if peer_whitelisted s.whitelist peer then (false, [], s)
  else
    let (err, rate) := uvhttp_server_check_rate_limit s.rate now
    if err ≠ .OK then (true, too_many_requests, { s with rate })
    else (false, [], { s with rate })

/-- What happens on a server with a limit: a request is complete, an address is added to the whitelist. -/
inductive LimitEvent where
  | request (peer : Option (List UInt8)) (now : UInt64)
  | whitelist (call : AddCall)
  deriving DecidableEq, Repr

/-- A request and what became of it, with the window and the count that it leaves. -/
structure Arrival where
  peer : Option (List UInt8)
  now : UInt64
  exempt : Bool
  limited : Bool
  reply : List HandlerCall
  window : UInt64
  count : Int
  deriving DecidableEq, Repr

inductive LimitEntry where
  | request (arrival : Arrival)
  | added (result : UvhttpError) (client_ip : List UInt8)
  deriving DecidableEq, Repr

section events

variable (inet_pton : AddressFamily → List UInt8 → Bool)

def limit_step (s : LimitedServer) : LimitEvent → Option (LimitedServer × LimitEntry)
  | .request peer now =>
    let (limited, reply, after) := check_rate_limit_whitelist s peer now
    some (after, .request ⟨peer, now, peer_whitelisted s.whitelist peer, limited, reply, after.rate.window_start_time,
      after.rate.request_count⟩)
  | .whitelist call =>
    (uvhttp_server_add_rate_limit_whitelist inet_pton s.whitelist call).map fun added =>
      ({ s with whitelist := added.2 }, .added added.1 call.client_ip)

/-- A run with its log. `none` is an access to a whitelist array that was released. -/
def limit_run : LimitedServer → List LimitEvent → Option (LimitedServer × List LimitEntry)
  | s, [] => some (s, [])
  | s, event :: events =>
    (limit_step inet_pton s event).bind fun next =>
      (limit_run next.1 events).map fun rest => (rest.1, next.2 :: rest.2)

end events

def LimitEvent.time : LimitEvent → Option UInt64
  | request _ now => some now
  | whitelist _ => none

/-- An address that the whitelist can hold, and an array that is not released behind a failed allocation. -/
def LimitEvent.Fits : LimitEvent → Prop
  | request _ _ => True
  | whitelist call => call.client_ip.length < INET_ADDRSTRLEN ∧ call.shrink = true

instance (event : LimitEvent) : Decidable event.Fits :=
  match event with
  | .request _ _ => inferInstanceAs (Decidable True)
  | .whitelist _ => inferInstanceAs (Decidable (_ ∧ _))

/-- The check of a request that is not exempt. -/
def LimitEntry.check : LimitEntry → Option Check
  | request a =>
    if a.exempt then none
    else some ⟨a.now, if a.limited then .RATE_LIMIT_EXCEEDED else .OK, a.window, a.count⟩
  | added _ _ => none

def checks_of (log : List LimitEntry) : List Check := log.filterMap LimitEntry.check

/-- A request is exempt exactly if its address has been added; an exempt request is never over the limit, and
the reply is made for the others that are. -/
structure Arrival.Fair (a : Arrival) (before : List LimitEntry) : Prop where
  exempt : a.exempt = true ↔ ∃ client_ip, a.peer = some client_ip ∧ .added .OK client_ip ∈ before
  admitted : a.exempt = true → a.limited = false
  reply : a.reply = if a.limited then too_many_requests else []

def AllFair (log : List LimitEntry) : Prop :=
  ∀ before a after, log = before ++ .request a :: after → a.Fair before

/-- The server behind a log. -/
structure Enforces (max_requests window_seconds : Int) (s : LimitedServer) (log : List LimitEntry) : Prop where
  limiting : Limiting max_requests window_seconds s.rate (checks_of log)
  whitelist : ∃ addresses, WhitelistSet s.whitelist addresses ∧
    ∀ address, address ∈ addresses ↔ .added .OK address ∈ log
  fair : AllFair log

section limits

variable {inet_pton : AddressFamily → List UInt8 → Bool} {max_requests window_seconds : Int} {s : LimitedServer}
  {log : List LimitEntry}

theorem checks_of_append (log later : List LimitEntry) : checks_of (log ++ later) = checks_of log ++ checks_of later :=
  List.filterMap_append ..

theorem AllFair.append {entry : LimitEntry} (h : AllFair log) (hlast : ∀ a, entry = .request a → a.Fair log) :
    AllFair (log ++ [entry]) := by
  intro before a after heq
  obtain rfl | ⟨after', last, rfl⟩ := List.eq_nil_or_concat after
  · obtain ⟨rfl, hentry⟩ := List.append_inj' heq rfl
    exact hlast a (List.cons.inj hentry).1
  · rw [List.concat_eq_append, ← List.cons_append, ← List.append_assoc] at heq
    exact h before a after' (List.append_inj' heq rfl).1

/-- An address is found exactly if it is in the set. -/
theorem WhitelistSet.whitelisted_iff {w : Whitelist} {addresses : List (List UInt8)} (h : WhitelistSet w addresses)
    (client_ip : List UInt8) : is_client_whitelisted w client_ip = true ↔ client_ip ∈ addresses := by
  refine ⟨fun hfound => ?_, h.found client_ip⟩
  rw [is_client_whitelisted] at hfound
  split at hfound
  · cases hfound
  · exact (h.keys client_ip).mp (List.contains_iff_mem.mp hfound)

theorem mem_after_call {addresses : List (List UInt8)} {client_ip address : List UInt8} {err : UvhttpError} :
    address ∈ after_call addresses client_ip err ↔ address ∈ addresses ∨ err = .OK ∧ address = client_ip := by
  rw [after_call]
  by_cases hold : err ≠ .OK ∨ addresses.contains client_ip = true
  · rw [if_pos hold]
    refine ⟨.inl, ?_⟩
    rintro (hmem | ⟨hok, rfl⟩)
    · exact hmem
    · exact List.contains_iff_mem.mp (hold.resolve_left fun herr => herr hok)
  · rw [if_neg hold]
    rw [not_or, Classical.not_not] at hold
    simp [hold.1]

/-- An added address counts from the next request on. -/
theorem Enforces.add (h : Enforces max_requests window_seconds s log) {call : AddCall}
    (hfits : (LimitEvent.whitelist call).Fits) :
    ∃ s' entry, limit_step inet_pton s (.whitelist call) = some (s', entry) ∧
      Enforces max_requests window_seconds s' (log ++ [entry]) ∧ s'.rate = s.rate := by
  obtain ⟨addresses, hset, hmem⟩ := h.whitelist
  obtain ⟨err, w', hcall, hset'⟩ := (@WhitelistSet.call_iff inet_pton s.whitelist addresses hset call).mpr
    fun _ => ⟨fun _ _ => hfits.1, fun _ _ => hfits.2⟩
  refine ⟨{ s with whitelist := w' }, .added err call.client_ip, ?_, ⟨?_, ⟨_, hset', fun address => ?_⟩, ?_⟩, rfl⟩
  · rw [limit_step, hcall]
    rfl
  · rw [checks_of_append]
    change Limiting max_requests window_seconds s.rate (checks_of log ++ [])
    rw [List.append_nil]
    exact h.limiting
  · rw [mem_after_call, hmem, List.mem_append, List.mem_singleton]
    grind
  · exact h.fair.append fun a ha => by cases ha

theorem check_rate_limit_result (rate : RateLimit) (now : UInt64) :
    (uvhttp_server_check_rate_limit rate now).1 = .OK ∨
      (uvhttp_server_check_rate_limit rate now).1 = .RATE_LIMIT_EXCEEDED := by
  rw [uvhttp_server_check_rate_limit]
  by_cases hdisabled : (!rate.enabled) = true
  · rw [if_pos hdisabled]
    exact .inl rfl
  · rw [if_neg hdisabled]
    by_cases hfull : (current_window rate now).request_count ≥ (current_window rate now).max_requests
    · rw [if_pos hfull]
      exact .inr rfl
    · rw [if_neg hfull]
      exact .inl rfl

/-- The address of the peer is found exactly if it has been added. -/
theorem Enforces.exempt_iff (h : Enforces max_requests window_seconds s log) (peer : Option (List UInt8)) :
    peer_whitelisted s.whitelist peer = true ↔ ∃ client_ip, peer = some client_ip ∧ .added .OK client_ip ∈ log := by
  obtain ⟨addresses, hset, hmem⟩ := h.whitelist
  cases peer with
  | none =>
    refine iff_of_false Bool.false_ne_true ?_
    rintro ⟨client_ip, hnone, -⟩
    cases hnone
  | some client_ip =>
    rw [peer_whitelisted, hset.whitelisted_iff, hmem]
    refine ⟨fun hadded => ⟨client_ip, rfl, hadded⟩, ?_⟩
    rintro ⟨_, hsame, hadded⟩
    rwa [Option.some.inj hsame]

/-- A request leaves the whitelist as it is, and adds its check to those before it. -/
theorem Enforces.request_logged (h : Enforces max_requests window_seconds s log) {a : Arrival} (ha : a.Fair log)
    {rate : RateLimit}
    (hlimiting : Limiting max_requests window_seconds rate (checks_of log ++ (LimitEntry.request a).check.toList)) :
    Enforces max_requests window_seconds { s with rate } (log ++ [.request a]) := by
  obtain ⟨addresses, hset, hmem⟩ := h.whitelist
  refine ⟨?_, ⟨addresses, hset, fun address => ?_⟩, h.fair.append fun a' ha' => ?_⟩
  · have hlast : checks_of [.request a] = (LimitEntry.request a).check.toList := by
      rw [checks_of]
      cases hcheck : (LimitEntry.request a).check with
      | none => exact List.filterMap_cons_none hcheck
      | some check => exact List.filterMap_cons_some hcheck
    rw [checks_of_append, hlast]
    exact hlimiting
  · rw [hmem, List.mem_append, List.mem_singleton]
    exact ⟨.inl, fun hadded => hadded.resolve_right fun hrequest => by cases hrequest⟩
  · rwa [← LimitEntry.request.inj ha']

/-- A request is let through as exempt, or it is checked. -/
theorem Enforces.request (h : Enforces max_requests window_seconds s log)
    (hwindow : 0 < window_seconds ∧ window_seconds ≤ MAX_RATE_LIMIT_WINDOW_SECONDS) {now : UInt64}
    (hclock : s.rate.window_start_time ≤ now) (peer : Option (List UInt8)) :
    ∃ s' entry, limit_step inet_pton s (.request peer now) = some (s', entry) ∧
      Enforces max_requests window_seconds s' (log ++ [entry]) ∧ s'.rate.window_start_time ≤ now := by
  have hexempt := h.exempt_iff peer
  by_cases hfound : peer_whitelisted s.whitelist peer = true
  · refine ⟨s, .request ⟨peer, now, true, false, [], s.rate.window_start_time, s.rate.request_count⟩, ?_, ?_, hclock⟩
    · rw [limit_step, check_rate_limit_whitelist, h.limiting.enabled, if_neg (by decide), if_pos hfound, hfound]
    · have hfair : Arrival.Fair ⟨peer, now, true, false, [], s.rate.window_start_time, s.rate.request_count⟩ log :=
        ⟨hfound ▸ hexempt, fun _ => rfl, rfl⟩
      refine h.request_logged hfair ?_
      change Limiting max_requests window_seconds s.rate (checks_of log ++ [])
      rw [List.append_nil]
      exact h.limiting
  · have hmissed : peer_whitelisted s.whitelist peer = false := Bool.not_eq_true _ ▸ hfound
    obtain ⟨hlimiting, hstarted⟩ := h.limiting.check_step hwindow hclock
    let checked := uvhttp_server_check_rate_limit s.rate now
    have hstep (limited : Bool) (reply : List HandlerCall)
        (hchecked : check_rate_limit_whitelist s peer now = (limited, reply, { s with rate := checked.2 }))
        (hresult : checked.1 = if limited then .RATE_LIMIT_EXCEEDED else .OK)
        (hreply : reply = if limited then too_many_requests else []) :
        ∃ s' entry, limit_step inet_pton s (.request peer now) = some (s', entry) ∧
          Enforces max_requests window_seconds s' (log ++ [entry]) ∧ s'.rate.window_start_time ≤ now := by
      refine ⟨{ s with rate := checked.2 }, .request ⟨peer, now, false, limited, reply, checked.2.window_start_time,
        checked.2.request_count⟩, ?_, h.request_logged ⟨?_, Bool.noConfusion, hreply⟩ ?_, hstarted⟩
      · rw [limit_step, hchecked, hmissed]
      · exact hmissed ▸ hexempt
      · change Limiting max_requests window_seconds checked.2 (checks_of log ++
          [⟨now, if limited then .RATE_LIMIT_EXCEEDED else .OK, checked.2.window_start_time, checked.2.request_count⟩])
        rw [← hresult]
        exact hlimiting
    have hcheck : check_rate_limit_whitelist s peer now =
        if checked.1 ≠ .OK then (true, too_many_requests, { s with rate := checked.2 })
        else (false, [], { s with rate := checked.2 }) := by
      rw [check_rate_limit_whitelist, h.limiting.enabled, if_neg (by decide), if_neg hfound]
    obtain hok | hover : checked.1 = .OK ∨ checked.1 = .RATE_LIMIT_EXCEEDED := check_rate_limit_result s.rate now
    · exact hstep false [] (by rw [hcheck, hok, if_neg (by decide)]) hok rfl
    · exact hstep true too_many_requests (by rw [hcheck, hover, if_pos (by decide)]) hover rfl

theorem Enforces.run (h : Enforces max_requests window_seconds s log)
    (hwindow : 0 < window_seconds ∧ window_seconds ≤ MAX_RATE_LIMIT_WINDOW_SECONDS) {events : List LimitEvent}
    (hclock : (s.rate.window_start_time :: events.filterMap LimitEvent.time).Pairwise (· ≤ ·))
    (hfits : ∀ event ∈ events, event.Fits) :
    ∃ s' later, limit_run inet_pton s events = some (s', later) ∧
      Enforces max_requests window_seconds s' (log ++ later) := by
  induction events generalizing s log with
  | nil => exact ⟨s, [], rfl, by rwa [List.append_nil]⟩
  | cons event events ih =>
    obtain ⟨hfirst, hrest⟩ := List.forall_mem_cons.mp hfits
    have hnext : ∃ s' entry, limit_step inet_pton s event = some (s', entry) ∧
        Enforces max_requests window_seconds s' (log ++ [entry]) ∧
        (s'.rate.window_start_time :: events.filterMap LimitEvent.time).Pairwise (· ≤ ·) := by
      cases event with
      | request peer now =>
        obtain ⟨hstart, hlater⟩ := List.pairwise_cons.mp hclock
        obtain ⟨s', entry, hstep, henforces, hstarted⟩ := h.request hwindow (hstart now List.mem_cons_self) peer
        obtain ⟨hnow, hpairs⟩ := List.pairwise_cons.mp hlater
        refine ⟨s', entry, hstep, henforces, List.pairwise_cons.mpr ⟨fun time htime => ?_, hpairs⟩⟩
        exact UInt64.le_trans hstarted (hnow time htime)
      | whitelist call =>
        obtain ⟨s', entry, hstep, henforces, hrate⟩ := @Enforces.add inet_pton _ _ _ _ h call hfirst
        exact ⟨s', entry, hstep, henforces, hrate ▸ hclock⟩
    obtain ⟨s', entry, hstep, henforces, hclock'⟩ := hnext
    obtain ⟨last, later, hrun, hlast⟩ := ih henforces hclock' hrest
    refine ⟨last, entry :: later, ?_, ?_⟩
    · rw [limit_run, hstep, Option.bind_some, hrun]
      rfl
    · rwa [List.append_assoc] at hlast

end limits

theorem enabled_eq {server : RateLimit} {max_requests window_seconds : Int}
    (henable : (uvhttp_server_enable_rate_limit server max_requests window_seconds).1 = .OK) :
    (uvhttp_server_enable_rate_limit server max_requests window_seconds).2 =
        ⟨true, max_requests, window_seconds, 0, 0⟩ ∧
      0 < max_requests ∧ 0 < window_seconds ∧ window_seconds ≤ MAX_RATE_LIMIT_WINDOW_SECONDS := by
  rw [uvhttp_server_enable_rate_limit] at henable ⊢
  by_cases hmax : max_requests ≤ 0 ∨ max_requests > MAX_RATE_LIMIT_REQUESTS
  · rw [if_pos hmax] at henable
    cases henable
  · rw [if_neg hmax] at henable ⊢
    by_cases hwindow : window_seconds ≤ 0 ∨ window_seconds > MAX_RATE_LIMIT_WINDOW_SECONDS
    · rw [if_pos hwindow] at henable
      cases henable
    · rw [if_neg hwindow]
      exact ⟨rfl, by omega, by omega, by omega⟩

/-- A limiter that has just been enabled has no checks behind it. -/
theorem limiting_enabled {server : RateLimit} {max_requests window_seconds : Int}
    (henable : (uvhttp_server_enable_rate_limit server max_requests window_seconds).1 = .OK) :
    0 < max_requests ∧ (0 < window_seconds ∧ window_seconds ≤ MAX_RATE_LIMIT_WINDOW_SECONDS) ∧
      Limiting max_requests window_seconds
        (uvhttp_server_enable_rate_limit server max_requests window_seconds).2 [] := by
  obtain ⟨heq, hmax, hwindow⟩ := enabled_eq henable
  have hnil : ∀ {P : Check → Prop}, ∀ check ∈ ([] : List Check), P check :=
    fun check hcheck => absurd hcheck List.not_mem_nil
  refine ⟨hmax, hwindow, ?_⟩
  rw [heq]
  refine ⟨rfl, rfl, rfl, rfl, hnil, hnil, hnil, fun window => Int.le_of_lt hmax, hnil, ?_⟩
  intro before check after hsplit
  exact absurd hsplit.symm (List.append_ne_nil_of_right_ne_nil before (List.cons_ne_nil check after))

/-- A server whose limit is enabled, in every run of complete requests and additions to its whitelist: exactly
the requests from addresses that have been added are exempt, they are never over the limit and never count; of
the others a window lets as many through as the limit says, an interval of that length at most twice as many,
and one is answered with 429 only when its window is full. -/
theorem request_limit_exact {inet_pton : AddressFamily → List UInt8 → Bool} {server : RateLimit}
    {max_requests window_seconds : Int}
    (henable : (uvhttp_server_enable_rate_limit server max_requests window_seconds).1 = .OK) {events : List LimitEvent}
    (hclock : (events.filterMap LimitEvent.time).Pairwise (· ≤ ·)) (hfits : ∀ event ∈ events, event.Fits) :
    ∃ s log, limit_run inet_pton
        ⟨(uvhttp_server_enable_rate_limit server max_requests window_seconds).2, whitelist_new⟩ events = some (s, log) ∧
      AllFair log ∧
      (∀ window, (passed window (checks_of log) : Int) ≤ max_requests) ∧
      (∀ start, (passed_within start (window_ms window_seconds) (checks_of log) : Int) ≤ 2 * max_requests) ∧
      ∀ before check after, checks_of log = before ++ check :: after → check.result ≠ .OK →
        (passed check.window before : Int) = max_requests := by
  obtain ⟨hmax, hwindow, hlimiting⟩ := limiting_enabled henable
  have hfair : AllFair [] := fun before a after heq => by simp at heq
  have hstart : Enforces max_requests window_seconds
      ⟨(uvhttp_server_enable_rate_limit server max_requests window_seconds).2, whitelist_new⟩ [] :=
    ⟨hlimiting, ⟨[], whitelistSet_new, fun address => by simp⟩, hfair⟩
  have hzero : (uvhttp_server_enable_rate_limit server max_requests window_seconds).2.window_start_time = 0 := by
    rw [(enabled_eq henable).1]
  obtain ⟨s, log, hrun, hlast⟩ := @Enforces.run inet_pton _ _ _ _ hstart hwindow events
    (List.pairwise_cons.mpr ⟨fun time _ => hzero ▸ UInt64.zero_le, hclock⟩) hfits
  refine ⟨s, log, hrun, hlast.fair, hlast.limiting.bounded, ?_, hlast.limiting.refused⟩
  exact hlast.limiting.passed_within_le (Int.le_of_lt hmax)

/-- Two requests a second: an address that is added in between is let through, and another one is not. -/
def monitored : List LimitEvent :=
  [.request (some (bytes "10.0.0.1")) 5000, .whitelist ⟨bytes "10.0.0.2", true, true, true, true⟩,
    .request (some (bytes "10.0.0.3")) 5100, .request (some (bytes "10.0.0.2")) 5200,
    .request (some (bytes "10.0.0.3")) 5300]

def ipv4_pton : AddressFamily → List UInt8 → Bool := fun family ip =>
  family = .AF_INET && ip = bytes "10.0.0.2"

theorem request_limit_exact_monitored :
    (limit_run ipv4_pton ⟨(uvhttp_server_enable_rate_limit ⟨false, 0, 0, 0, 0⟩ 2 1).2, whitelist_new⟩ monitored).map
        (fun result => (checks_of result.2).map Check.result) = some [.OK, .OK, .RATE_LIMIT_EXCEEDED] ∧
      ∃ s log, limit_run ipv4_pton
        ⟨(uvhttp_server_enable_rate_limit ⟨false, 0, 0, 0, 0⟩ 2 1).2, whitelist_new⟩ monitored = some (s, log) ∧
          AllFair log := by
  refine ⟨by decide +kernel, ?_⟩
  obtain ⟨s, log, hrun, hfair, -⟩ := @request_limit_exact ipv4_pton ⟨false, 0, 0, 0, 0⟩ 2 1 (by decide +kernel)
    monitored (by decide +kernel) (by decide +kernel)
  exact ⟨s, log, hrun, hfair⟩

end uvhttp.server
