import Uvhttp.Static.SendfileLifetime

namespace uvhttp.sendfile

section steps

/-- How the loop stands after a completion: it tries again, it asks for the next part,
or the file is closed. -/
inductive Outcome (t t' : Transfer) (result : SendfileResult) : Prop where
  | again (hroom : t.context.retry_count < t.context.max_retry)
      (hretry : t'.context.retry_count = t.context.retry_count + 1) (hcount : count result = 0)
      (hreq : t'.sendfile_req = some (next_request t'.context)) (hcompleted : t'.context.completed = false)
      (hclose : t'.close_reqs = t.close_reqs) (hfd : t'.fd_closes = t.fd_closes)
  | onward {n : Nat} (hsent : result = .sent n) (hretry : t'.context.retry_count = t.context.retry_count)
      (hinside : t.context.offset + n < t.context.file_size)
      (hreq : t'.sendfile_req = some (next_request t'.context)) (hcompleted : t'.context.completed = false)
      (hclose : t'.close_reqs = t.close_reqs) (hfd : t'.fd_closes = t.fd_closes)
  | closed (hreq : t'.sendfile_req = none) (hfd : 0 < t'.fd_closes)
      (hretry : t.context.retry_count ≤ t'.context.retry_count)
      (hroom : t'.context.retry_count = t.context.retry_count ∨ t'.context.retry_count ≤ t.context.max_retry)

/-- What a completion that is told of does. -/
structure Moved (t t' : Transfer) (result : SendfileResult) : Prop where
  size : t'.context.file_size = t.context.file_size
  chunk : t'.context.chunk_size = t.context.chunk_size
  limit : t'.context.max_retry = t.context.max_retry
  offset : t'.context.offset = t.context.offset + count result
  bytes : t'.context.bytes_sent = t.context.bytes_sent + count result
  frees : t'.frees = t.frees
  outcome : Outcome t t' result

theorem moved_error {t : Transfer} (hreq : t.sendfile_req = none) (hcompleted : t.context.completed = false)
    {result : SendfileResult} (hcount : count result = 0) (retriable accepted : Bool) :
    Moved t (sendfile_error retriable accepted t) result := by
  have hsame (n : Nat) : n = n + count result := by rw [hcount, Nat.add_zero]
  rw [sendfile_error]
  split
  · rename_i hretry
    rw [resend]
    split
    · exact ⟨rfl, rfl, rfl, hsame _, hsame _, rfl, .again hretry.1 rfl hcount rfl hcompleted rfl rfl⟩
    · exact ⟨rfl, rfl, rfl, hsame _, hsame _, rfl, .closed hreq (Nat.succ_pos _) (Nat.le_succ _) (.inr hretry.1)⟩
  · exact ⟨rfl, rfl, rfl, hsame _, hsame _, rfl, .closed hreq (Nat.succ_pos _) le_rfl (.inl rfl)⟩

theorem moved_progress {t : Transfer} (hreq : t.sendfile_req = none) (hcompleted : t.context.completed = false)
    (htimer : uv_is_closing t.context.timeout_timer = true) (n : Nat) (accepted : Bool) :
    Moved t (sendfile_progress n accepted t) (.sent n) := by
  simp only [sendfile_progress]
  rw [close_timer_of_closing (by exact htimer)]
  split
  · exact ⟨rfl, rfl, rfl, rfl, rfl, rfl, .closed hreq (Nat.succ_pos _) le_rfl (.inl rfl)⟩
  · rename_i hinside
    cases accepted with
    | true =>
      simp only [resend, if_true]
      rw [restart_timer_of_closing (by exact htimer)]
      exact ⟨rfl, rfl, rfl, rfl, rfl, rfl, .onward rfl rfl (not_le.mp hinside) rfl hcompleted rfl rfl⟩
    | false => exact ⟨rfl, rfl, rfl, rfl, rfl, rfl, .closed hreq (Nat.succ_pos _) le_rfl (.inl rfl)⟩

theorem close_timer_eq (c : SendfileContext) : ∃ timer, close_timer c = { c with timeout_timer := timer } := by
  rw [close_timer]
  split
  · exact ⟨c.timeout_timer, rfl⟩
  · exact ⟨.closing, rfl⟩

/-- Neither the request that was completed nor the timer matters to the loop. -/
theorem Moved.of_timer {t t' : Transfer} {result : SendfileResult} {timer : TimerHandle}
    (h : Moved { t with sendfile_req := none, context := { t.context with timeout_timer := timer } } t' result) :
    Moved t t' result := by
  obtain ⟨hsize, hchunk, hlimit, hoffset, hbytes, hfrees, houtcome⟩ := h
  refine ⟨hsize, hchunk, hlimit, hoffset, hbytes, hfrees, ?_⟩
  cases houtcome with
  | again hroom hretry hcount hreq hcompleted hclose hfd =>
    exact .again hroom hretry hcount hreq hcompleted hclose hfd
  | onward hsent hretry hinside hreq hcompleted hclose hfd =>
    exact .onward hsent hretry hinside hreq hcompleted hclose hfd
  | closed hreq hfd hretry hroom => exact .closed hreq hfd hretry hroom

theorem complete_moved {t : Transfer} (hfrees : t.frees = 0) (hcompleted : t.context.completed = false)
    (result : SendfileResult) (accepted : Bool) : Moved t (on_sendfile_complete result accepted t) result := by
  have hclosing := uv_is_closing_close_timer t.context
  obtain ⟨timer, htimer⟩ := close_timer_eq t.context
  rw [htimer] at hclosing
  let told : Transfer := { t with sendfile_req := none, context := { t.context with timeout_timer := timer } }
  have hmoved : Moved told (on_sendfile_complete result accepted t) result := by
    have hkept : ¬ 0 < t.frees := by omega
    have hopen : ¬ t.context.completed = true := by simp [hcompleted]
    simp only [on_sendfile_complete, if_neg hkept, if_neg hopen, htimer]
    cases result with
    | sent n => exact moved_progress (t := told) rfl hcompleted hclosing n accepted
    | UV_EAGAIN => exact moved_error (t := told) rfl hcompleted rfl true accepted
    | UV_EINTR => exact moved_error (t := told) rfl hcompleted rfl true accepted
    | failed => exact moved_error (t := told) rfl hcompleted rfl false accepted
  exact hmoved.of_timer

/-- A completion that comes when the transfer has ended only is no longer outstanding. -/
theorem complete_ended {t : Transfer} (h : 0 < t.frees ∨ t.context.completed = true) (result : SendfileResult)
    (accepted : Bool) :
    ∃ dangling, on_sendfile_complete result accepted t = { t with sendfile_req := none, dangling := dangling } := by
  by_cases hfrees : 0 < t.frees
  · exact ⟨true, if_pos hfrees⟩
  · refine ⟨t.dangling, ?_⟩
    have hcompleted := h.resolve_left hfrees
    simp only [on_sendfile_complete, if_neg hfrees, if_pos hcompleted]

/-- The other events do not touch the loop. -/
theorem step_other {t : Transfer} {event : Event} (h : event.is_complete = false) :
    (step t event).1.sendfile_req = t.sendfile_req ∧
      ∃ completed timer, (step t event).1.context =
        { t.context with completed := completed, timeout_timer := timer } := by
  cases event with
  | sendfile_complete result accepted => cases h
  | sendfile_timeout =>
    simp only [step, on_sendfile_timeout]
    split_ifs
    · exact ⟨rfl, _, _, rfl⟩
    · exact ⟨rfl, _, _, rfl⟩
    · exact ⟨rfl, _, _, rfl⟩
  | file_close => exact ⟨rfl, _, _, rfl⟩
  | closing_phase => exact ⟨rfl, _, _, rfl⟩

end steps

section runs

/-- A completion that reports no byte and no error. -/
def Event.is_zero : Event → Bool
  | .sendfile_complete (.sent 0) _ => true
  | _ => false

/-- The bytes that an event reports. -/
def Event.reported : Event → Nat
  | .sendfile_complete result _ => count result
  | _ => 0

/-- What is left to the loop: bytes, retries and the outstanding request. -/
def remaining_work (t : Transfer) : Nat :=
  (t.context.file_size - t.context.offset) + (t.context.max_retry - t.context.retry_count) +
    t.sendfile_req.elim 0 fun _ => 1

/-- A completion uses up what is left, unless it reports no byte. -/
theorem remaining_work_step (t : Transfer) (event : Event) (h : event.Possible t) :
    remaining_work (step t event).1 + event.is_complete.toNat ≤ remaining_work t + event.is_zero.toNat := by
  by_cases hcomplete : event.is_complete = true
  · cases event with
    | sendfile_complete result accepted =>
      obtain ⟨r, hr⟩ := Option.isSome_iff_exists.mp h
      simp only [step, Event.is_complete, Bool.toNat_true, remaining_work, hr, Option.elim_some]
      by_cases hended : 0 < t.frees ∨ t.context.completed = true
      · obtain ⟨dangling, hleft⟩ := complete_ended hended result accepted
        simp only [hleft, Option.elim_none]
        omega
      · push Not at hended
        have hmoved := complete_moved (Nat.le_zero.mp hended.1) (eq_false_of_ne_true hended.2) result accepted
        obtain ⟨hsize, -, hlimit, hoffset, -, -, houtcome⟩ := hmoved
        rw [hsize, hlimit, hoffset]
        cases houtcome with
        | again hroom hretry hcount hreq =>
          rw [hretry, hcount, hreq, Option.elim_some]
          omega
        | @onward n hsent hretry hinside hreq =>
          subst hsent
          rw [hretry, hreq, Option.elim_some]
          cases n with
          | zero =>
            simp only [count, Event.is_zero, Bool.toNat_true]
            omega
          | succ n =>
            simp only [count]
            omega
        | closed hreq hfd hretry =>
          rw [hreq, Option.elim_none]
          omega
    | sendfile_timeout => cases hcomplete
    | file_close => cases hcomplete
    | closing_phase => cases hcomplete
  · obtain ⟨hreq, completed, timer, hcontext⟩ := step_other (t := t) (eq_false_of_ne_true hcomplete)
    simp only [remaining_work, hcontext, hreq, eq_false_of_ne_true hcomplete, Bool.toNat_false]
    omega

/-- The start of a transfer whose first request libuv took. -/
def started (file_size : Nat) (config : Option SendfileConfig) : Transfer := start file_size config .accepted

/-- The completions of a run are bounded by the size of the file, the retries and the
completions that report no byte. -/
theorem completions_le (file_size : Nat) (config : Option SendfileConfig) {events : List Event}
    (hpossible : Possible (started file_size config) events) :
    events.countP Event.is_complete ≤
      file_size + (init_sendfile_config file_size config).max_retry + 1 + events.countP Event.is_zero := by
  have hbudget := machine.run_budget remaining_work Event.is_complete Event.is_zero remaining_work_step hpossible
  have hstart : remaining_work (started file_size config) =
      file_size + (init_sendfile_config file_size config).max_retry + 1 := rfl
  omega

/-- What holds of the loop in every state: what it counts, and that the file is closed
when nothing is outstanding. -/
structure Steady (file_size max_retry : Nat) (t : Transfer) : Prop where
  size : t.context.file_size = file_size
  limit : t.context.max_retry = max_retry
  same : t.context.offset = t.context.bytes_sent
  retries : t.context.retry_count ≤ max_retry
  ended : 0 < t.frees ∨ t.context.completed = true → 0 < t.fd_closes
  closing : 0 < t.close_reqs → 0 < t.fd_closes
  outstanding : t.sendfile_req.isSome = true ∨ 0 < t.fd_closes

theorem steady_started (file_size : Nat) (config : Option SendfileConfig) :
    Steady file_size (init_sendfile_config file_size config).max_retry (started file_size config) :=
  ⟨rfl, rfl, rfl, Nat.zero_le _, by simp [started, start, init_sendfile_config], by simp [started, start],
    .inl rfl⟩

theorem Steady.complete {file_size max_retry : Nat} {t : Transfer} (h : Steady file_size max_retry t)
    (result : SendfileResult) (accepted : Bool) :
    Steady file_size max_retry (on_sendfile_complete result accepted t) := by
  by_cases hended : 0 < t.frees ∨ t.context.completed = true
  · obtain ⟨dangling, hleft⟩ := complete_ended hended result accepted
    rw [hleft]
    exact ⟨h.size, h.limit, h.same, h.retries, h.ended, h.closing, .inr (h.ended hended)⟩
  push Not at hended
  have hfrees := Nat.le_zero.mp hended.1
  obtain ⟨hsize, -, hlimit, hoffset, hbytes, hkept, houtcome⟩ :=
    complete_moved hfrees (eq_false_of_ne_true hended.2) result accepted
  have hsame := h.same
  have hretries := h.retries
  have hmax := h.limit
  refine ⟨hsize.trans h.size, hlimit.trans h.limit, by omega, ?_, ?_, ?_, ?_⟩
  · cases houtcome with
    | again hroom hretry => omega
    | onward _ hretry => omega
    | closed _ _ _ hroom => omega
  · cases houtcome with
    | again _ _ _ _ hcompleted => simp [hkept, hfrees, hcompleted]
    | onward _ _ _ _ hcompleted => simp [hkept, hfrees, hcompleted]
    | closed _ hfd => exact fun _ => hfd
  · cases houtcome with
    | again _ _ _ _ _ hclose hfd =>
      rw [hclose, hfd]
      exact h.closing
    | onward _ _ _ _ _ hclose hfd =>
      rw [hclose, hfd]
      exact h.closing
    | closed _ hfd => exact fun _ => hfd
  · cases houtcome with
    | again _ _ _ hreq => exact .inl (by rw [hreq]; rfl)
    | onward _ _ _ hreq => exact .inl (by rw [hreq]; rfl)
    | closed _ hfd => exact .inr hfd

theorem Steady.step {file_size max_retry : Nat} {t : Transfer} (h : Steady file_size max_retry t) (event : Event)
    (hpossible : event.Possible t) : Steady file_size max_retry (step t event).1 := by
  cases event with
  | sendfile_complete result accepted => exact h.complete result accepted
  | sendfile_timeout =>
    simp only [sendfile.step, on_sendfile_timeout]
    split_ifs with hfrees hcompleted
    · exact ⟨h.size, h.limit, h.same, h.retries, h.ended, h.closing, h.outstanding⟩
    · exact ⟨h.size, h.limit, h.same, h.retries, h.ended, h.closing, h.outstanding⟩
    · have hfd : 0 < t.fd_closes + 1 := Nat.succ_pos _
      exact ⟨h.size, h.limit, h.same, h.retries, fun _ => hfd, fun _ => hfd, .inr hfd⟩
  | file_close =>
    have hclose : 0 < t.fd_closes := h.closing hpossible
    exact ⟨h.size, h.limit, h.same, h.retries, fun _ => hclose, fun _ => hclose, .inr hclose⟩
  | closing_phase => exact ⟨h.size, h.limit, h.same, h.retries, h.ended, h.closing, h.outstanding⟩

/-- The outstanding request stays within the file, and so does the next one. -/
def Within (t : Transfer) : Prop :=
  ∀ r, t.sendfile_req = some r → t.context.offset ≤ t.context.file_size ∧ r.offset + r.length ≤ t.context.file_size

theorem next_request_within {c : SendfileContext} (h : c.offset ≤ c.file_size) :
    (next_request c).offset + (next_request c).length ≤ c.file_size := by
  simp only [next_request]
  split <;> omega

theorem Within.complete {t : Transfer} (h : Within t) (hreq : t.sendfile_req.isSome = true) (result : SendfileResult)
    (accepted : Bool) : Within (on_sendfile_complete result accepted t) := by
  by_cases hended : 0 < t.frees ∨ t.context.completed = true
  · obtain ⟨dangling, hleft⟩ := complete_ended hended result accepted
    rw [hleft]
    intro r hr
    cases hr
  push Not at hended
  obtain ⟨first, hfirst⟩ := Option.isSome_iff_exists.mp hreq
  have hoffset := (h first hfirst).1
  have hmoved := complete_moved (Nat.le_zero.mp hended.1) (eq_false_of_ne_true hended.2) result accepted
  intro r hr
  have hinside : (on_sendfile_complete result accepted t).sendfile_req =
        some (next_request (on_sendfile_complete result accepted t).context) ∧
      (on_sendfile_complete result accepted t).context.offset ≤
        (on_sendfile_complete result accepted t).context.file_size := by
    rw [hmoved.offset, hmoved.size]
    cases hmoved.outcome with
    | again _ _ hcount hnext => exact ⟨hnext, by omega⟩
    | onward hsent _ hbelow hnext =>
      subst hsent
      exact ⟨hnext, hbelow.le⟩
    | closed hnone => rw [hnone] at hr; cases hr
  obtain rfl := Option.some.inj (hinside.1.symm.trans hr)
  exact ⟨hinside.2, next_request_within hinside.2⟩

theorem Within.step {t : Transfer} (h : Within t) (event : Event) (hpossible : event.Possible t) :
    Within (step t event).1 := by
  by_cases hcomplete : event.is_complete = true
  · cases event with
    | sendfile_complete result accepted => exact h.complete hpossible result accepted
    | sendfile_timeout => cases hcomplete
    | file_close => cases hcomplete
    | closing_phase => cases hcomplete
  · obtain ⟨hreq, completed, timer, hcontext⟩ := step_other (t := t) (eq_false_of_ne_true hcomplete)
    intro r hr
    rw [hreq] at hr
    rw [hcontext]
    exact h r hr

/-- A transfer that no timeout has ended waits for its request or for nothing, and has
counted all that was reported. -/
structure Counted (t : Transfer) (events : List Event) : Prop where
  live : t.sendfile_req.isSome = true → t.frees = 0 ∧ t.context.completed = false ∧ t.close_reqs = 0
  sum : t.context.offset = (events.map Event.reported).sum

theorem Counted.step {t : Transfer} {events : List Event} (h : Counted t events) {event : Event}
    (hpossible : event.Possible t) (htimeout : event ≠ .sendfile_timeout) :
    Counted (step t event).1 (events ++ [event]) := by
  have hsum : ((events ++ [event]).map Event.reported).sum = t.context.offset + event.reported := by
    rw [List.map_append, List.sum_append, ← h.sum]
    simp
  cases event with
  | sendfile_complete result accepted =>
    obtain ⟨hfrees, hcompleted, hclose⟩ := h.live hpossible
    have hmoved := complete_moved hfrees hcompleted result accepted
    refine ⟨fun hreq => ?_, hmoved.offset.trans hsum.symm⟩
    have hkept : (on_sendfile_complete result accepted t).frees = 0 := hmoved.frees.trans hfrees
    cases hmoved.outcome with
    | again _ _ _ _ hopen hcloses => exact ⟨hkept, hopen, hcloses.trans hclose⟩
    | onward _ _ _ _ hopen hcloses => exact ⟨hkept, hopen, hcloses.trans hclose⟩
    | closed hnone =>
      rw [sendfile.step, hnone] at hreq
      cases hreq
  | sendfile_timeout => exact absurd rfl htimeout
  | file_close =>
    refine ⟨fun hreq => ?_, hsum.symm⟩
    have hclose := (h.live hreq).2.2
    have hpos : 0 < t.close_reqs := hpossible
    omega
  | closing_phase => exact ⟨h.live, hsum.symm⟩

theorem counted_run (file_size : Nat) (config : Option SendfileConfig) {events : List Event}
    (hpossible : Possible (started file_size config) events) (htimeout : .sendfile_timeout ∉ events) :
    Counted (machine.run step (started file_size config) events) events := by
  have hnone : ∀ e ∈ events, e ≠ .sendfile_timeout := by
    rintro e he rfl
    exact htimeout he
  have hstart : Counted (started file_size config) [] := ⟨fun _ => ⟨rfl, rfl, rfl⟩, rfl⟩
  exact machine.history_invariant (fun t es _ => Counted t es) hstart
    (fun t es _ e h he => h.step he.1 he.2) (machine.enabled_and hpossible (machine.enabled_of_mem hnone _))

end runs

/-- The transfer loop stays in range and ends: in every state of a run. -/
structure LoopSound (file_size : Nat) (config : Option SendfileConfig) (events : List Event) : Prop where
  in_range : ∀ before, before <+: events → ∀ r,
    (machine.run step (started file_size config) before).sendfile_req = some r → r.offset + r.length ≤ file_size
  same : ∀ before, before <+: events →
    (machine.run step (started file_size config) before).context.offset =
      (machine.run step (started file_size config) before).context.bytes_sent
  sum : ∀ before, before <+: events → .sendfile_timeout ∉ before →
    (machine.run step (started file_size config) before).context.offset = (before.map Event.reported).sum
  retries : ∀ before, before <+: events →
    (machine.run step (started file_size config) before).context.retry_count ≤
      (init_sendfile_config file_size config).max_retry
  closed : ∀ before, before <+: events →
    (machine.run step (started file_size config) before).sendfile_req.isSome = true ∨
      0 < (machine.run step (started file_size config) before).fd_closes
  ends : events.countP Event.is_complete ≤ file_size + (init_sendfile_config file_size config).max_retry + 1

/-- A run in which no completion reports zero bytes stays in range and ends exactly when
the first request does not ask for more than the file. -/
theorem sendfile_loop_exact (file_size : Nat) (config : Option SendfileConfig) {events : List Event}
    (hpossible : Possible (started file_size config) events) (hprogress : ∀ e ∈ events, e.is_zero = false) :
    LoopSound file_size config events ↔ (init_sendfile_config file_size config).chunk_size ≤ file_size := by
  constructor
  · intro h
    have hfirst : 0 + (init_sendfile_config file_size config).chunk_size ≤ file_size :=
      h.in_range [] List.nil_prefix ⟨0, (init_sendfile_config file_size config).chunk_size⟩ rfl
    omega
  · intro hchunk
    have hsteady : ∀ before, before <+: events →
        Steady file_size (init_sendfile_config file_size config).max_retry
          (machine.run step (started file_size config) before) :=
      @machine.prefix_invariant _ _ _ step (fun t e => e.Possible t) (Steady file_size _)
        (fun t e h he => h.step e he) _ (steady_started file_size config) _ hpossible
    have hstart : Within (started file_size config) := by
      intro r hr
      obtain rfl := Option.some.inj hr
      exact ⟨Nat.zero_le _, by rw [Nat.zero_add]; exact hchunk⟩
    have hwithin : ∀ before, before <+: events → Within (machine.run step (started file_size config) before) :=
      @machine.prefix_invariant _ _ _ step (fun t e => e.Possible t) Within (fun t e h he => h.step e he) _ hstart _
        hpossible
    refine ⟨fun before hbefore r hr => ?_, fun before hbefore => (hsteady before hbefore).same,
      fun before hbefore htimeout => ?_, fun before hbefore => (hsteady before hbefore).retries,
      fun before hbefore => (hsteady before hbefore).outstanding, ?_⟩
    · rw [← (hsteady before hbefore).size]
      exact (hwithin before hbefore r hr).2
    · obtain ⟨after, rfl⟩ := hbefore
      exact (counted_run file_size config (machine.enabled_append.mp hpossible).1 htimeout).sum
    · have hzero : events.countP Event.is_zero = 0 := by
        rw [List.countP_eq_zero]
        intro e he
        simp [hprogress e he]
      have hcount := completions_le file_size config hpossible
      omega

theorem sendfile_loop_exact_retry :
    let events : List Event := [.sendfile_complete (.sent 65536) true, .sendfile_complete .UV_EAGAIN true,
      .sendfile_complete (.sent 34464) true, .closing_phase, .file_close]
    Possible (started 100000 none) events ∧ (∀ e ∈ events, e.is_zero = false) ∧ LoopSound 100000 none events := by
  intro events
  have hpossible : Possible (started 100000 none) events := by decide
  have hprogress : ∀ e ∈ events, e.is_zero = false := by decide
  exact ⟨hpossible, hprogress, (sendfile_loop_exact 100000 none hpossible hprogress).mpr (by decide)⟩

/-- After a first completion that reports no byte, each further one leaves the transfer
as it is. -/
theorem run_zeros (n : Nat) :
    machine.run step (started 100000 none) (List.replicate (n + 1) (.sendfile_complete (.sent 0) true)) =
      (step (started 100000 none) (.sendfile_complete (.sent 0) true)).1 := by
  have hfixed : (step (step (started 100000 none) (.sendfile_complete (.sent 0) true)).1
      (.sendfile_complete (.sent 0) true)).1 =
        (step (started 100000 none) (.sendfile_complete (.sent 0) true)).1 := by decide
  induction n with
  | zero => rfl
  | succ n ih => rw [List.replicate_succ', machine.run_append, ih, machine.run, machine.run, hfixed]

/-- With a chunk larger than the file the first request reaches beyond it, and a file
that became shorter is asked for without end. -/
theorem sendfile_loop_endless :
    (started 100000 (some ⟨2, 262144⟩)).sendfile_req = some ⟨0, 262144⟩ ∧
      ¬ LoopSound 100000 (some ⟨2, 262144⟩) [] ∧
      ∀ n, Possible (started 100000 none) (List.replicate n (.sendfile_complete (.sent 0) true)) ∧
        (List.replicate n (.sendfile_complete (.sent 0) true)).countP Event.is_complete = n := by
  refine ⟨rfl, fun h => ?_, fun n => ⟨?_, ?_⟩⟩
  · have hfirst : 0 + 262144 ≤ 100000 := h.in_range [] List.nil_prefix ⟨0, 262144⟩ rfl
    omega
  · apply machine.enabled_replicate
    intro m _
    cases m with
    | zero => exact rfl
    | succ m =>
      rw [run_zeros]
      exact rfl
  · rw [List.countP_replicate]
    rfl

end uvhttp.sendfile
