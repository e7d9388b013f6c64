import Uvhttp.Lib.Machine
import Uvhttp.Basic

open machine

namespace uvhttp.server

def MAX_RATE_LIMIT_REQUESTS : Int := 1000000

def MAX_RATE_LIMIT_WINDOW_SECONDS : Int := 86400

/-- The rate limiting fields of `uvhttp_server_t`; times are in milliseconds. -/
structure RateLimit where
  enabled : Bool
  max_requests : Int
  window_seconds : Int
  request_count : Int
  window_start_time : UInt64
  deriving DecidableEq, Repr

/-- `uvhttp_server_enable_rate_limit`. -/
def uvhttp_server_enable_rate_limit (s : RateLimit) (max_requests window_seconds : Int) : UvhttpError × RateLimit :=
  if max_requests ≤ 0 ∨ max_requests > MAX_RATE_LIMIT_REQUESTS then (.INVALID_PARAM, s)
  else if window_seconds ≤ 0 ∨ window_seconds > MAX_RATE_LIMIT_WINDOW_SECONDS then (.INVALID_PARAM, s)
  else (.OK, ⟨true, max_requests, window_seconds, 0, 0⟩)

/-- The length of a window. -/
def window_duration (s : RateLimit) : UInt64 := UInt64.ofInt (s.window_seconds * 1000)

/-- The counters for a call at this time: a window that has expired is left for a
new one. -/
def current_window (s : RateLimit) (current_time : UInt64) : RateLimit :=
  if current_time - s.window_start_time ≥ window_duration s then
    { s with request_count := 0, window_start_time := current_time }
  else s

/-- `uvhttp_server_check_rate_limit`. -/
def uvhttp_server_check_rate_limit (s : RateLimit) (current_time : UInt64) : UvhttpError × RateLimit :=
  if !s.enabled then (.OK, s)
  else
    let s := current_window s current_time
    if s.request_count ≥ s.max_requests then (.RATE_LIMIT_EXCEEDED, s)
    else (.OK, { s with request_count := s.request_count + 1 })

/-- A check: when it was made, its result, and the window and the count it leaves. -/
structure Check where
  now : UInt64
  result : UvhttpError
  window : UInt64
  count : Int
  deriving DecidableEq, Repr

/-- One check. -/
def check_step (s : RateLimit) (now : UInt64) : RateLimit × Check :=
  let (result, s) := uvhttp_server_check_rate_limit s now
  (s, ⟨now, result, s.window_start_time, s.request_count⟩)

/-- The checks of a window that let their request pass. -/
def passed (window : UInt64) (checks : List Check) : Nat :=
  checks.countP fun check => check.result = .OK ∧ check.window = window

/-- The checks of an interval of that length that let their request pass. -/
def passed_within (start length : Nat) (checks : List Check) : Nat :=
  checks.countP fun check => check.result = .OK ∧ start ≤ check.now.toNat ∧ check.now.toNat < start + length

/-- The length of a window in milliseconds. -/
def window_ms (window_seconds : Int) : Nat := (window_seconds * 1000).toNat

/-- A limiter with the checks it has made. -/
structure Limiting (max_requests window_seconds : Int) (s : RateLimit) (checks : List Check) : Prop where
  enabled : s.enabled = true
  max_requests_eq : s.max_requests = max_requests
  window_seconds_eq : s.window_seconds = window_seconds
  count : s.request_count = passed s.window_start_time checks
  inside : ∀ check ∈ checks, check.window.toNat ≤ check.now.toNat ∧
    check.now.toNat < check.window.toNat + window_ms window_seconds
  spaced : ∀ check ∈ checks, check.window = s.window_start_time ∨
    check.window.toNat + window_ms window_seconds ≤ s.window_start_time.toNat
  apart : ∀ check ∈ checks, ∀ other ∈ checks, check.window.toNat < other.window.toNat →
    check.window.toNat + window_ms window_seconds ≤ other.window.toNat
  bounded : ∀ window, (passed window checks : Int) ≤ max_requests
  counts : ∀ check ∈ checks, 0 ≤ check.count ∧ check.count ≤ max_requests
  refused : ∀ before check after, checks = before ++ check :: after → check.result ≠ .OK →
    (passed check.window before : Int) = max_requests

theorem passed_append (window : UInt64) (checks later : List Check) :
    passed window (checks ++ later) = passed window checks + passed window later := by
  rw [passed, List.countP_append]
  rfl

section limiting

variable {max_requests window_seconds : Int} {s : RateLimit} {checks : List Check}

theorem window_duration_toNat (hwindow : 0 < window_seconds ∧ window_seconds ≤ MAX_RATE_LIMIT_WINDOW_SECONDS)
    (h : s.window_seconds = window_seconds) : (window_duration s).toNat = window_ms window_seconds := by
  have hupper : window_seconds ≤ 86400 := hwindow.2
  rw [window_duration, h, window_ms]
  apply toNat_ofInt
  · omega
  · omega

/-- A new window has no checks yet. -/
theorem passed_new {window : UInt64} (h : ∀ check ∈ checks, check.window ≠ window) : passed window checks = 0 := by
  rw [passed, List.countP_eq_zero]
  intro check hcheck
  rw [decide_eq_true_iff]
  exact fun hpassed => h check hcheck hpassed.2

/-- A call in a window that has expired starts the next one. -/
theorem Limiting.current_window (h : Limiting max_requests window_seconds s checks)
    (hwindow : 0 < window_seconds ∧ window_seconds ≤ MAX_RATE_LIMIT_WINDOW_SECONDS) {now : UInt64}
    (hclock : s.window_start_time ≤ now) :
    Limiting max_requests window_seconds (current_window s now) checks ∧
      (current_window s now).window_start_time.toNat ≤ now.toNat ∧
      now.toNat < (current_window s now).window_start_time.toNat + window_ms window_seconds := by
  have hduration := window_duration_toNat hwindow h.window_seconds_eq
  have helapsed : (now - s.window_start_time).toNat = now.toNat - s.window_start_time.toNat :=
    UInt64.toNat_sub_of_le now s.window_start_time hclock
  have hpositive : 0 < window_ms window_seconds := by
    rw [window_ms]
    omega
  rw [UInt64.le_iff_toNat_le] at hclock
  unfold server.current_window
  split
  · rename_i hexpired
    rw [ge_iff_le, UInt64.le_iff_toNat_le, hduration, helapsed] at hexpired
    have hbefore : ∀ check ∈ checks, check.window.toNat + window_ms window_seconds ≤ now.toNat := by
      intro check hcheck
      rcases h.spaced check hcheck with heq | hle
      · rw [heq]
        omega
      · omega
    refine ⟨⟨h.enabled, h.max_requests_eq, h.window_seconds_eq, ?_, h.inside, ?_, h.apart, h.bounded, h.counts,
      h.refused⟩, ?_, ?_⟩
    · have hnone : passed now checks = 0 := by
        apply passed_new
        rintro check hcheck rfl
        have hle := hbefore check hcheck
        omega
      dsimp only
      rw [hnone]
      rfl
    · exact fun check hcheck => .inr (hbefore check hcheck)
    · exact Nat.le_refl _
    · dsimp only
      omega
  · rename_i hcurrent
    rw [ge_iff_le, UInt64.le_iff_toNat_le, hduration, helapsed] at hcurrent
    exact ⟨h, hclock, by omega⟩

/-- A further check in the current window. -/
theorem Limiting.append (h : Limiting max_requests window_seconds s checks) {s' : RateLimit} {check : Check}
    (hsame : s'.enabled = s.enabled ∧ s'.max_requests = s.max_requests ∧ s'.window_seconds = s.window_seconds ∧
      s'.window_start_time = s.window_start_time)
    (hwindow : check.window = s.window_start_time) (hcheck : check.count = s'.request_count)
    (hinside : s.window_start_time.toNat ≤ check.now.toNat ∧
      check.now.toNat < s.window_start_time.toNat + window_ms window_seconds)
    (hcount : s'.request_count = s.request_count + passed s.window_start_time [check])
    (hbound : s'.request_count ≤ max_requests)
    (hrefused : check.result ≠ .OK → s.request_count = max_requests) :
    Limiting max_requests window_seconds s' (checks ++ [check]) := by
  obtain ⟨henabled, hmax, hseconds, hstart⟩ := hsame
  have hmem : ∀ {P : Check → Prop}, (∀ other ∈ checks, P other) → P check → ∀ other ∈ checks ++ [check], P other := by
    intro P hold hnew other hother
    rcases List.mem_append.mp hother with hmem | hmem
    · exact hold other hmem
    · rw [List.mem_singleton.mp hmem]
      exact hnew
  have htotal : s'.request_count = passed s.window_start_time (checks ++ [check]) := by
    rw [hcount, h.count, passed_append]
    push_cast
    ring
  refine ⟨henabled.trans h.enabled, hmax.trans h.max_requests_eq, hseconds.trans h.window_seconds_eq,
    ?_, ?_, ?_, ?_, ?_, ?_, ?_⟩
  · rw [hstart]
    exact htotal
  · apply hmem h.inside
    rw [hwindow]
    exact hinside
  · rw [hstart]
    exact hmem h.spaced (.inl hwindow)
  · apply hmem
    · intro other hother
      refine hmem (h.apart other hother) fun hlt => ?_
      rw [hwindow] at hlt ⊢
      rcases h.spaced other hother with heq | hle
      · rw [heq] at hlt
        omega
      · exact hle
    · refine hmem (fun other hother hlt => ?_) fun hlt => absurd hlt (Nat.lt_irrefl _)
      rw [hwindow] at hlt ⊢
      rcases h.spaced other hother with heq | hle
      · rw [heq] at hlt
        omega
      · omega
  · intro window
    by_cases hcurrent : window = s.window_start_time
    · rw [hcurrent, ← htotal]
      exact hbound
    · have hother : passed window [check] = 0 := by
        apply passed_new
        intro other hother
        rw [List.mem_singleton.mp hother, hwindow]
        exact fun heq => hcurrent heq.symm
      rw [passed_append, hother, Nat.add_zero]
      exact h.bounded window
  · apply hmem h.counts
    rw [hcheck]
    refine ⟨?_, hbound⟩
    rw [htotal]
    exact Int.natCast_nonneg _
  · intro before other after heq hresult
    rcases List.eq_nil_or_concat after with rfl | ⟨after, last, rfl⟩
    · obtain ⟨rfl, hlast⟩ := List.append_inj' heq rfl
      obtain rfl := List.singleton_inj.mp hlast
      rw [hwindow, ← h.count]
      exact hrefused hresult
    · have hinit : checks = before ++ other :: after := by
        rw [List.concat_eq_append, ← List.cons_append, ← List.append_assoc] at heq
        exact (List.append_inj' heq rfl).1
      exact h.refused before other after hinit hresult

/-- One check keeps the books. -/
theorem Limiting.check_step (h : Limiting max_requests window_seconds s checks)
    (hwindow : 0 < window_seconds ∧ window_seconds ≤ MAX_RATE_LIMIT_WINDOW_SECONDS) {now : UInt64}
    (hclock : s.window_start_time ≤ now) :
    Limiting max_requests window_seconds (check_step s now).1 (checks ++ [(check_step s now).2]) ∧
      (server.check_step s now).1.window_start_time ≤ now := by
  obtain ⟨hcurrent, hstarted, hinside⟩ := h.current_window hwindow hclock
  have hcount : (server.current_window s now).request_count ≤ max_requests := by
    rw [hcurrent.count]
    exact hcurrent.bounded _
  unfold server.check_step uvhttp_server_check_rate_limit
  rw [h.enabled, if_neg (by decide)]
  dsimp only
  by_cases hfull : (server.current_window s now).request_count ≥ (server.current_window s now).max_requests
  · rw [if_pos hfull]
    refine ⟨hcurrent.append ⟨rfl, rfl, rfl, rfl⟩ rfl rfl ⟨hstarted, hinside⟩ ?_ hcount ?_, hstarted⟩
    · simp [passed]
    · rw [hcurrent.max_requests_eq] at hfull
      exact fun _ => by omega
  · rw [if_neg hfull]
    rw [hcurrent.max_requests_eq] at hfull
    refine ⟨hcurrent.append ⟨rfl, rfl, rfl, rfl⟩ rfl rfl ⟨hstarted, hinside⟩ ?_ ?_ ?_, hstarted⟩
    · simp [passed]
    · dsimp only
      omega
    · exact fun hrefused => absurd rfl hrefused

theorem limiting_run (hwindow : 0 < window_seconds ∧ window_seconds ≤ MAX_RATE_LIMIT_WINDOW_SECONDS)
    (hstart : Limiting max_requests window_seconds s []) (hzero : s.window_start_time = 0) {times : List UInt64}
    (hclock : times.Pairwise (· ≤ ·)) :
    Limiting max_requests window_seconds (run check_step s times) (answers check_step s times) ∧
      ∀ later, (∀ time ∈ times, time ≤ later) → (run check_step s times).window_start_time ≤ later := by
  induction times using List.reverseRecOn with
  | nil =>
    refine ⟨hstart, fun later _ => ?_⟩
    rw [run, hzero]
    exact UInt64.zero_le
  | append_singleton times now ih =>
    obtain ⟨hbefore, -, hlast⟩ := List.pairwise_append.mp hclock
    obtain ⟨hlimiting, hstarted⟩ := ih hbefore
    have hnow := hstarted now fun time htime => hlast time htime now (List.mem_singleton_self now)
    obtain ⟨hchecked, hafter⟩ := hlimiting.check_step hwindow hnow
    rw [run_append, answers_append]
    refine ⟨hchecked, fun later hlater => ?_⟩
    apply UInt64.le_trans hafter
    exact hlater now (List.mem_append_right times (List.mem_singleton_self now))

/-- Checks that all belong to one window are at most as many as it lets pass. -/
theorem Limiting.countP_le (h : Limiting max_requests window_seconds s checks) (hmax : 0 ≤ max_requests)
    {p : Check → Bool} (hpassed : ∀ check ∈ checks, p check = true → check.result = .OK)
    (hone : ∀ check ∈ checks, p check = true → ∀ other ∈ checks, p other = true → check.window = other.window) :
    (checks.countP p : Int) ≤ max_requests := by
  by_cases hany : ∃ check ∈ checks, p check = true
  · obtain ⟨check, hcheck, hp⟩ := hany
    have hle : checks.countP p ≤ passed check.window checks := by
      apply List.countP_mono_left
      intro other hother hp'
      rw [decide_eq_true_iff]
      exact ⟨hpassed other hother hp', hone other hother hp' check hcheck hp⟩
    have hbound := h.bounded check.window
    omega
  · have hnone : checks.countP p = 0 := by
      rw [List.countP_eq_zero]
      exact fun check hcheck hp => hany ⟨check, hcheck, hp⟩
    rw [hnone]
    exact hmax

/-- Of the checks in an interval, those in windows that have started when it begins, or
those in windows that start in it: they all belong to one window. -/
theorem Limiting.half_le (h : Limiting max_requests window_seconds s checks) (hmax : 0 ≤ max_requests)
    (start : Nat) (started : Bool) :
    (checks.countP (fun check => decide (check.result = .OK ∧ start ≤ check.now.toNat ∧
      check.now.toNat < start + window_ms window_seconds) && decide (check.window.toNat ≤ start) == started) : Int) ≤
        max_requests := by
  apply h.countP_le hmax
  · intro check _ hp
    rw [Bool.and_eq_true, decide_eq_true_iff] at hp
    exact hp.1.1
  · intro check hcheck hp other hother hp'
    rw [Bool.and_eq_true, decide_eq_true_iff, beq_iff_eq] at hp hp'
    have hinside := h.inside check hcheck
    have hinside' := h.inside other hother
    have hapart := h.apart check hcheck other hother
    have hapart' := h.apart other hother check hcheck
    have hsame : check.window.toNat ≤ start ↔ other.window.toNat ≤ start := by
      rw [← decide_eq_decide, hp.2, hp'.2]
    apply UInt64.toNat.inj
    omega

/-- An interval of the length of a window meets at most two of them. -/
theorem Limiting.passed_within_le (h : Limiting max_requests window_seconds s checks) (hmax : 0 ≤ max_requests)
    (start : Nat) : (passed_within start (window_ms window_seconds) checks : Int) ≤ 2 * max_requests := by
  have hearly := h.half_le hmax start true
  have hlate := h.half_le hmax start false
  rw [passed_within, List.countP_eq_countP_filter_add checks _ fun check => decide (check.window.toNat ≤ start),
    List.countP_filter, List.countP_filter]
  simp only [beq_true, beq_false] at hearly hlate
  push_cast
  omega

end limiting

/-- The bounds of a run of checks: in every window, in every interval of its length, of
the counter, and when a request is refused. -/
theorem rate_limit_bound {server : RateLimit} {max_requests window_seconds : Int}
    (henable : (uvhttp_server_enable_rate_limit server max_requests window_seconds).1 = .OK) {times : List UInt64}
    (hclock : times.Pairwise (· ≤ ·)) :
    let checks := answers check_step (uvhttp_server_enable_rate_limit server max_requests window_seconds).2 times
    (∀ check ∈ checks, check.window.toNat ≤ check.now.toNat ∧
      check.now.toNat < check.window.toNat + window_ms window_seconds) ∧
    (∀ window, (passed window checks : Int) ≤ max_requests) ∧
    (∀ start, (passed_within start (window_ms window_seconds) checks : Int) ≤ 2 * max_requests) ∧
    (∀ check ∈ checks, 0 ≤ check.count ∧ check.count ≤ max_requests) ∧
    ∀ before check after, checks = before ++ check :: after → check.result ≠ .OK →
      (passed check.window before : Int) = max_requests := by
  intro checks
  have hvalid : (0 < max_requests ∧ max_requests ≤ MAX_RATE_LIMIT_REQUESTS) ∧
      0 < window_seconds ∧ window_seconds ≤ MAX_RATE_LIMIT_WINDOW_SECONDS := by
    unfold uvhttp_server_enable_rate_limit at henable
    split at henable
    · cases henable
    · split at henable
      · cases henable
      · omega
  obtain ⟨hmax, hwindow⟩ := hvalid
  have henabled : (uvhttp_server_enable_rate_limit server max_requests window_seconds).2 =
      ⟨true, max_requests, window_seconds, 0, 0⟩ := by
    unfold uvhttp_server_enable_rate_limit
    rw [if_neg (by omega), if_neg (by omega)]
  have hnil : ∀ {P : Check → Prop}, ∀ check ∈ ([] : List Check), P check :=
    fun check hcheck => absurd hcheck List.not_mem_nil
  have hnew : Limiting max_requests window_seconds ⟨true, max_requests, window_seconds, 0, 0⟩ [] := by
    refine ⟨rfl, rfl, rfl, rfl, hnil, hnil, hnil, fun window => ?_, hnil, ?_⟩
    · change (0 : Int) ≤ max_requests
      omega
    · intro before check after heq
      exact absurd heq.symm (List.append_ne_nil_of_right_ne_nil before (List.cons_ne_nil check after))
  obtain ⟨hrun, -⟩ := limiting_run hwindow hnew rfl hclock
  rw [← henabled] at hrun
  exact ⟨hrun.inside, hrun.bounded, hrun.passed_within_le (by omega), hrun.counts, hrun.refused⟩

/-- Two requests a second: the third of a window is refused. -/
theorem rate_limit_bound_two :
    (answers check_step (uvhttp_server_enable_rate_limit ⟨false, 0, 0, 0, 0⟩ 2 1).2 [5000, 5400, 5900, 6000]).map
        Check.result = [.OK, .OK, .RATE_LIMIT_EXCEEDED, .OK] ∧
      passed 5000 (answers check_step (uvhttp_server_enable_rate_limit ⟨false, 0, 0, 0, 0⟩ 2 1).2
        [5000, 5400, 5900, 6000]) ≤ 2 := by
  refine ⟨by decide +kernel, ?_⟩
  have hbound := (rate_limit_bound (by decide +kernel : (uvhttp_server_enable_rate_limit ⟨false, 0, 0, 0, 0⟩ 2 1).1 =
    .OK) (by decide : ([5000, 5400, 5900, 6000] : List UInt64).Pairwise (· ≤ ·))).2.1 5000
  exact_mod_cast hbound

end uvhttp.server
