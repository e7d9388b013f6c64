import Uvhttp.Server.RateLimit

namespace uvhttp.server

/-- `uvhttp_server_disable_rate_limit`. -/
def uvhttp_server_disable_rate_limit (s : RateLimit) : RateLimit :=
  { s with enabled := false, request_count := 0, window_start_time := 0 }

/-- `uvhttp_server_clear_rate_limit_all`. -/
def uvhttp_server_clear_rate_limit_all (s : RateLimit) : RateLimit :=
  { s with request_count := 0, window_start_time := 0 }

/-- `uvhttp_server_reset_rate_limit_client`, for any client. -/
def uvhttp_server_reset_rate_limit_client (s : RateLimit) (current_time : UInt64) : RateLimit :=
  { s with request_count := 0, window_start_time := current_time }

/-- What `uvhttp_server_get_rate_limit_status` writes. -/
structure RateLimitStatus where
  remaining : Int
  reset_time : Option UInt64
  deriving DecidableEq, Repr

/-- `uvhttp_server_get_rate_limit_status`. -/
def uvhttp_server_get_rate_limit_status (s : RateLimit) : RateLimitStatus :=
  if !s.enabled then ⟨-1, none⟩
  else ⟨s.max_requests - s.request_count, some (s.window_start_time + window_duration s)⟩

/-- The limiter of a new server. -/
def rate_limit_new : RateLimit := ⟨false, 0, 0, 0, 0⟩

/-- The calls that change a limiter. -/
inductive RateLimitCall where
  | enable (max_requests window_seconds : Int)
  | disable
  | check (now : UInt64)
  | clear_all
  | reset_client (now : UInt64)
  deriving DecidableEq, Repr

def rate_limit_call (s : RateLimit) : RateLimitCall → RateLimit
  | .enable max_requests window_seconds => (uvhttp_server_enable_rate_limit s max_requests window_seconds).2
  | .disable => uvhttp_server_disable_rate_limit s
  | .check now => (uvhttp_server_check_rate_limit s now).2
  | .clear_all => uvhttp_server_clear_rate_limit_all s
  | .reset_client now => uvhttp_server_reset_rate_limit_client s now

/-- The limiter after calls on a new server. -/
def rate_limit_after (calls : List RateLimitCall) : RateLimit := calls.foldl rate_limit_call rate_limit_new

/-- The results of so many checks at one time. -/
def checks_at (now : UInt64) : Nat → RateLimit → List UvhttpError
  | 0, _ => []
  | count + 1, s =>
    (uvhttp_server_check_rate_limit s now).1 :: checks_at now count (uvhttp_server_check_rate_limit s now).2

/-- So many requests pass at a time, and the next one does not. -/
structure Predicts (s : RateLimit) (now : UInt64) (remaining : Int) : Prop where
  nonneg : 0 ≤ remaining
  checks : checks_at now (remaining.toNat + 1) s = List.replicate remaining.toNat .OK ++ [.RATE_LIMIT_EXCEEDED]

/-- The window has run out at this time. -/
def WindowExpired (s : RateLimit) (now : UInt64) : Prop := now - s.window_start_time ≥ window_duration s

/-- What a limiter keeps: its parameters were accepted, and the counter is within them. -/
structure RateLimitValid (s : RateLimit) : Prop where
  max_requests : s.enabled = true → 0 < s.max_requests
  window : s.enabled = true → 0 < s.window_seconds ∧ s.window_seconds ≤ MAX_RATE_LIMIT_WINDOW_SECONDS
  count : s.enabled = true → 0 ≤ s.request_count ∧ s.request_count ≤ s.max_requests

section valid

variable {s : RateLimit} {now : UInt64}

theorem rateLimitValid_disabled (h : s.enabled = false) : RateLimitValid s := by
  have hoff : s.enabled = true → False := fun hon => Bool.false_ne_true (h.symm.trans hon)
  exact ⟨fun hon => (hoff hon).elim, fun hon => (hoff hon).elim, fun hon => (hoff hon).elim⟩

theorem RateLimitValid.restart (h : RateLimitValid s) (window_start_time : UInt64) :
    RateLimitValid { s with request_count := 0, window_start_time } := by
  refine ⟨h.max_requests, h.window, fun hon => ⟨Int.le_refl 0, ?_⟩⟩
  have hmax := h.max_requests hon
  dsimp only
  omega

theorem RateLimitValid.current_window (h : RateLimitValid s) (now : UInt64) :
    RateLimitValid (current_window s now) := by
  rw [server.current_window]
  split
  · exact h.restart now
  · exact h

theorem current_window_enabled (s : RateLimit) (now : UInt64) : (current_window s now).enabled = s.enabled := by
  rw [current_window]
  split <;> rfl

theorem RateLimitValid.check (h : RateLimitValid s) (now : UInt64) :
    RateLimitValid (uvhttp_server_check_rate_limit s now).2 := by
  rw [uvhttp_server_check_rate_limit]
  split
  · exact h
  · have hcurrent := h.current_window now
    dsimp only
    split
    · exact hcurrent
    · rename_i hroom
      refine ⟨hcurrent.max_requests, hcurrent.window, fun hon => ?_⟩
      have hcount := hcurrent.count hon
      dsimp only
      omega

theorem RateLimitValid.call (h : RateLimitValid s) (call : RateLimitCall) :
    RateLimitValid (rate_limit_call s call) := by
  cases call with
  | enable max_requests window_seconds =>
    rw [rate_limit_call, uvhttp_server_enable_rate_limit]
    split
    · exact h
    split
    · exact h
    · refine ⟨fun _ => ?_, fun _ => ?_, fun _ => ⟨Int.le_refl 0, ?_⟩⟩
      · dsimp only
        omega
      · dsimp only
        omega
      · dsimp only
        omega
  | disable => exact rateLimitValid_disabled rfl
  | check now => exact h.check now
  | clear_all => exact h.restart 0
  | reset_client now => exact h.restart now

theorem rateLimitValid_after (calls : List RateLimitCall) : RateLimitValid (rate_limit_after calls) := by
  have hrun : ∀ (calls : List RateLimitCall) (s : RateLimit), RateLimitValid s →
      RateLimitValid (calls.foldl rate_limit_call s) := by
    intro calls
    induction calls with
    | nil => exact fun s h => h
    | cons call calls ih => exact fun s h => ih _ (h.call call)
  exact hrun calls rate_limit_new (rateLimitValid_disabled rfl)

end valid

section predictions

variable {s : RateLimit} {now : UInt64}

theorem window_duration_pos (h : 0 < s.window_seconds ∧ s.window_seconds ≤ MAX_RATE_LIMIT_WINDOW_SECONDS) :
    0 < (window_duration s).toNat := by
  rw [window_duration_toNat h rfl, window_ms]
  omega

/-- The window that a check finds goes on. -/
theorem not_expired_current_window
    (hwindow : 0 < s.window_seconds ∧ s.window_seconds ≤ MAX_RATE_LIMIT_WINDOW_SECONDS) (now : UInt64) :
    ¬ WindowExpired (current_window s now) now := by
  rw [current_window]
  split
  · have hpos : 0 < (window_duration s).toNat := window_duration_pos hwindow
    have hsame : window_duration { s with request_count := 0, window_start_time := now } = window_duration s := rfl
    rw [WindowExpired, hsame, UInt64.sub_self, ge_iff_le, UInt64.le_iff_toNat_le]
    exact Nat.not_le.mpr hpos
  · assumption

theorem current_window_of_current (hcurrent : ¬ WindowExpired s now) : current_window s now = s := if_neg hcurrent

/-- A check in a window that goes on. -/
theorem check_current (henabled : s.enabled = true) (hcurrent : ¬ WindowExpired s now) :
    uvhttp_server_check_rate_limit s now =
      if s.request_count ≥ s.max_requests then (.RATE_LIMIT_EXCEEDED, s)
      else (.OK, { s with request_count := s.request_count + 1 }) := by
  have hon : ¬ (!s.enabled) = true := by rw [henabled]; exact Bool.false_ne_true
  rw [uvhttp_server_check_rate_limit, if_neg hon, current_window_of_current hcurrent]

/-- In a window that goes on, the counter says how many checks pass. -/
theorem checks_at_current (henabled : s.enabled = true) (hcurrent : ¬ WindowExpired s now) (room : Nat)
    (hroom : s.max_requests - s.request_count = room) :
    checks_at now (room + 1) s = List.replicate room .OK ++ [.RATE_LIMIT_EXCEEDED] := by
  induction room generalizing s with
  | zero =>
    have hfull : s.request_count ≥ s.max_requests := by omega
    rw [checks_at, check_current henabled hcurrent, if_pos hfull]
    rfl
  | succ room ih =>
    have hnotfull : ¬ s.request_count ≥ s.max_requests := by omega
    have hnext : checks_at now (room + 1) { s with request_count := s.request_count + 1 } =
        List.replicate room .OK ++ [.RATE_LIMIT_EXCEEDED] := by
      apply ih
      · exact henabled
      · exact hcurrent
      · dsimp only
        omega
    rw [checks_at, check_current henabled hcurrent, if_neg hnotfull, hnext]
    rfl

/-- A check is one in the window that it finds. -/
theorem check_eq_current (henabled : s.enabled = true)
    (hwindow : 0 < s.window_seconds ∧ s.window_seconds ≤ MAX_RATE_LIMIT_WINDOW_SECONDS) (now : UInt64) :
    uvhttp_server_check_rate_limit s now = uvhttp_server_check_rate_limit (current_window s now) now := by
  have hagain := current_window_of_current (not_expired_current_window hwindow now)
  rw [uvhttp_server_check_rate_limit, uvhttp_server_check_rate_limit, current_window_enabled, hagain]
  have hon : ¬ (!s.enabled) = true := by rw [henabled]; exact Bool.false_ne_true
  rw [if_neg hon, if_neg hon]

theorem take_checks_at {count more : Nat} (h : count ≤ more) (s : RateLimit) (now : UInt64) :
    (checks_at now more s).take count = checks_at now count s := by
  induction count generalizing more s with
  | zero => rfl
  | succ count ih =>
    obtain ⟨more, rfl⟩ : ∃ m, more = m + 1 := ⟨more - 1, by omega⟩
    rw [checks_at, checks_at, List.take_succ_cons, ih (by omega)]

/-- There is one right prediction. -/
theorem Predicts.unique {remaining other : Int} (h : Predicts s now remaining) (h' : Predicts s now other) :
    remaining = other := by
  have hle : ∀ {m n : Int}, Predicts s now m → Predicts s now n → n ≤ m := by
    intro m n hm hn
    by_contra hlt
    have hcounts : m.toNat + 1 ≤ n.toNat := by
      have hm' := hm.nonneg
      omega
    have htake := take_checks_at (Nat.le_succ_of_le hcounts) s now
    rw [hn.checks, hm.checks, List.take_append_of_le_length (by rw [List.length_replicate]; exact hcounts),
      List.take_replicate, Nat.min_eq_left hcounts, List.replicate_succ'] at htake
    have hlast := List.append_inj_right htake rfl
    cases hlast
  exact Int.le_antisymm (hle h' h) (hle h h')

/-- What a limiter should report: the requests of the window that a check finds. -/
theorem predicts_current (hvalid : RateLimitValid s) (henabled : s.enabled = true) (now : UInt64) :
    Predicts s now (s.max_requests - (current_window s now).request_count) := by
  have hwindow := hvalid.window henabled
  have hon : (current_window s now).enabled = true := (current_window_enabled s now).trans henabled
  have hmax : (current_window s now).max_requests = s.max_requests := by
    rw [current_window]
    split <;> rfl
  have hcount := (hvalid.current_window now).count hon
  rw [hmax] at hcount
  obtain ⟨room, hroom⟩ : ∃ room : Nat, s.max_requests - (current_window s now).request_count = room :=
    ⟨(s.max_requests - (current_window s now).request_count).toNat, by omega⟩
  have hchecks : checks_at now (room + 1) s = checks_at now (room + 1) (current_window s now) := by
    rw [checks_at, checks_at, check_eq_current henabled hwindow]
  refine ⟨by omega, ?_⟩
  rw [hroom, Int.toNat_natCast, hchecks]
  apply checks_at_current hon (not_expired_current_window hwindow now)
  rw [hmax, hroom]

end predictions

/-- The status of a limiter predicts the next checks, unless the window has run out with
requests in it. -/
theorem rate_limit_status_exact (calls : List RateLimitCall) (henabled : (rate_limit_after calls).enabled = true)
    (now : UInt64) :
    Predicts (rate_limit_after calls) now (uvhttp_server_get_rate_limit_status (rate_limit_after calls)).remaining ↔
      ¬ WindowExpired (rate_limit_after calls) now ∨ (rate_limit_after calls).request_count = 0 := by
  have hvalid := rateLimitValid_after calls
  generalize rate_limit_after calls = s at henabled hvalid
  have hpredicts := predicts_current hvalid henabled now
  have hremaining : (uvhttp_server_get_rate_limit_status s).remaining = s.max_requests - s.request_count := by
    rw [uvhttp_server_get_rate_limit_status, henabled]
    rfl
  rw [hremaining]
  by_cases hexpired : WindowExpired s now
  · have hcount : (current_window s now).request_count = 0 := by
      rw [current_window]
      exact congrArg RateLimit.request_count (if_pos hexpired)
    rw [hcount] at hpredicts
    constructor
    · intro h
      have hsame := h.unique hpredicts
      exact .inr (by omega)
    · rintro (hcurrent | hzero)
      · exact absurd hexpired hcurrent
      · rw [hzero]
        exact hpredicts
  · rw [current_window_of_current hexpired] at hpredicts
    exact iff_of_true hpredicts (.inl hexpired)

/-- Two requests a second, and one of them was made. -/
def two_requests : List RateLimitCall := [.enable 2 1, .check 5000]

theorem rate_limit_status_exact_two :
    (rate_limit_after two_requests).enabled = true ∧
      Predicts (rate_limit_after two_requests) 5400
        (uvhttp_server_get_rate_limit_status (rate_limit_after two_requests)).remaining := by
  have henabled : (rate_limit_after two_requests).enabled = true := by decide +kernel
  refine ⟨henabled, (rate_limit_status_exact two_requests henabled 5400).mpr (.inl ?_)⟩
  unfold WindowExpired
  decide +kernel

/-- When the window has run out, the requests in it still count. -/
theorem rate_limit_status_stale :
    (uvhttp_server_get_rate_limit_status (rate_limit_after two_requests)).remaining = 1 ∧
      checks_at 6000 3 (rate_limit_after two_requests) = [.OK, .OK, .RATE_LIMIT_EXCEEDED] ∧
      ¬ Predicts (rate_limit_after two_requests) 6000
        (uvhttp_server_get_rate_limit_status (rate_limit_after two_requests)).remaining := by
  have hremaining : (uvhttp_server_get_rate_limit_status (rate_limit_after two_requests)).remaining = 1 := by
    decide +kernel
  have hchecks : checks_at 6000 3 (rate_limit_after two_requests) = [.OK, .OK, .RATE_LIMIT_EXCEEDED] := by
    decide +kernel
  refine ⟨hremaining, hchecks, fun h => ?_⟩
  have hpredicted := h.checks
  rw [hremaining] at hpredicted
  have htwo : checks_at 6000 2 (rate_limit_after two_requests) = [.OK, .OK] := by
    rw [← take_checks_at (by decide : 2 ≤ 3), hchecks]
    rfl
  cases htwo.symm.trans hpredicted

end uvhttp.server
