import Uvhttp.WebSocket.Sending

namespace uvhttp.websocket

section answers

variable (env : WsEnv) (calls len : Nat)

/-- The bytes that `mbedtls_ssl_write` has taken with its first answers, when it is asked
for all that is left of a frame of that length each time. -/
def ssl_taken : Nat → Nat
  | 0 => 0
  | k + 1 =>
    match env.ssl_write (calls + k) (len - ssl_taken k) with
    | .wrote count => ssl_taken k + count
    | _ => ssl_taken k

/-- An answer of `mbedtls_ssl_write`. -/
def ssl_answer (k : Nat) : SslWrite := env.ssl_write (calls + k) (len - ssl_taken env calls len k)

/-- How many answers right before one ask to wait. -/
def ssl_waits : Nat → Nat
  | 0 => 0
  | k + 1 => if ssl_answer env calls len k = .want then ssl_waits k + 1 else 0

/-- An answer after which nothing more is written: an error, nothing taken, or the
101st in a row that asks to wait. -/
def GivesUp (k : Nat) : Prop :=
  match ssl_answer env calls len k with
  | .wrote count => count = 0
  | .want => 100 ≤ ssl_waits env calls len k
  | .failed => True

/-- TLS takes all of a frame, or nothing. A frame that it takes is counted in an
`int`. -/
structure TlsWhole : Prop where
  unbroken : ∀ k, (∀ j < k, ¬ GivesUp env calls len j) → GivesUp env calls len k →
    ssl_taken env calls len k = 0 ∨ len ≤ ssl_taken env calls len k
  counted : ∀ k, (∀ j < k, ¬ GivesUp env calls len j) → len ≤ ssl_taken env calls len k → len < 2 ^ 31

/-- `send` takes all of a frame, or fails. A count that is negative as an `int` is
taken for a failure. -/
def PlainWhole : Prop := ∀ count, env.send calls len = some count → int count < 0 ∨ (count = len ∧ len < 2 ^ 31)

end answers

/-- The transports never take more than they are given. -/
structure WsEnv.Counts (env : WsEnv) : Prop where
  ssl_write : ∀ calls len count, env.ssl_write calls len = .wrote count → count ≤ len
  send : ∀ calls len count, env.send calls len = some count → count ≤ len

/-- If the call succeeds, then the transport has taken the whole frame, and it is
counted. -/
def AllOrError (env : WsEnv) (conn : WsConnection) (data : List UInt8) (opcode : UInt8) : Prop :=
  (uvhttp_ws_send_frame env conn data opcode).1 = .OK →
    ∃ frame, uvhttp_ws_build_frame (env.random (conn.calls + 1)) (10 + data.length + 4) data opcode (!conn.is_server)
        true = .ok frame ∧
      emitted (uvhttp_ws_send_frame env conn data opcode).2.2 = frame ∧
      (uvhttp_ws_send_frame env conn data opcode).2.1.bytes_sent = (conn.bytes_sent + frame.length) % 2 ^ 64

/-- The call gets as far as the transport, with this frame. -/
structure Reaches (env : WsEnv) (conn : WsConnection) (data : List UInt8) (opcode : UInt8) (frame : List UInt8) :
    Prop where
  state : conn.state = .OPEN
  length : data.length ≤ SIZE_MAX - 14
  alloc : env.alloc conn.calls (10 + data.length + 4) = true
  build : uvhttp_ws_build_frame (env.random (conn.calls + 1)) (10 + data.length + 4) data opcode (!conn.is_server)
    true = .ok frame
  size : frame.length < 2 ^ 63

section loop

variable {env : WsEnv} {calls len : Nat}

theorem ssl_taken_succ (k : Nat) : ssl_taken env calls len (k + 1) =
    match ssl_answer env calls len k with
    | .wrote count => ssl_taken env calls len k + count
    | _ => ssl_taken env calls len k :=
  rfl

theorem ssl_taken_le (henv : env.Counts) (k : Nat) : ssl_taken env calls len k ≤ len := by
  induction k with
  | zero => exact Nat.zero_le len
  | succ k ih =>
    rw [ssl_taken_succ]
    cases hanswer : ssl_answer env calls len k with
    | wrote count =>
      have hcount := henv.ssl_write _ _ _ hanswer
      change ssl_taken env calls len k + count ≤ len
      exact Nat.add_le_of_le_sub' ih hcount
    | want => exact ih
    | failed => exact ih

theorem ssl_taken_mono : Monotone (ssl_taken env calls len) := by
  apply monotone_nat_of_le_succ
  intro k
  rw [ssl_taken_succ]
  cases ssl_answer env calls len k with
  | wrote count => exact Nat.le_add_right _ count
  | want => exact Nat.le_refl _
  | failed => exact Nat.le_refl _

/-- The loop that has had `k` answers ends with so many bytes taken: all is written, or an
answer gives up. -/
def Ends (env : WsEnv) (calls len k sent : Nat) : Prop :=
  ∃ m, k ≤ m ∧ sent = ssl_taken env calls len m ∧ (∀ j, k ≤ j → j < m → ¬ GivesUp env calls len j) ∧
    (len ≤ ssl_taken env calls len m ∨ GivesUp env calls len m)

theorem Ends.here {k sent : Nat} (hsent : sent = ssl_taken env calls len k)
    (hend : len ≤ ssl_taken env calls len k ∨ GivesUp env calls len k) : Ends env calls len k sent :=
  ⟨k, Nat.le_refl k, hsent, fun _ hle hlt => absurd hlt (Nat.not_lt.mpr hle), hend⟩

theorem Ends.later {k sent : Nat} (hgoes : ¬ GivesUp env calls len k) (h : Ends env calls len (k + 1) sent) :
    Ends env calls len k sent := by
  obtain ⟨m, hle, hsent, hbefore, hend⟩ := h
  refine ⟨m, by omega, hsent, fun j hj hlt => ?_, hend⟩
  rcases Nat.eq_or_lt_of_le hj with rfl | hnext
  · exact hgoes
  · exact hbefore j hnext hlt

theorem ssl_write_loop_ends (frame_len sent want_retries at_call k : Nat) (hlen : frame_len = len)
    (hsent : sent = ssl_taken env calls len k) (hwaits : want_retries = ssl_waits env calls len k)
    (hcall : at_call = calls + k) :
    Ends env calls len k (ssl_write_loop env frame_len sent want_retries at_call).1 := by
  have hanswer : ∀ {answer : SslWrite}, env.ssl_write (calls + k) (len - ssl_taken env calls len k) = answer →
      ssl_answer env calls len k = answer := id
  fun_induction ssl_write_loop env frame_len sent want_retries at_call generalizing k with
  | case1 sent want_retries at_call hmore count hwrote hsome ih =>
    rw [hcall, hsent, hlen] at hwrote
    have hcurrent := hanswer hwrote
    have hgoes : ¬ GivesUp env calls len k := by
      rw [GivesUp, hcurrent]
      exact Nat.ne_of_gt hsome
    apply Ends.later hgoes
    apply ih (k + 1)
    · rw [ssl_taken_succ, hcurrent, hsent]
    · rw [ssl_waits, if_neg (by rw [hcurrent]; exact nofun)]
    · rw [hcall, Nat.add_assoc]
    · exact id
  | case2 sent want_retries at_call hmore count hwrote hnone =>
    rw [hcall, hsent, hlen] at hwrote
    apply Ends.here hsent
    right
    rw [GivesUp, hanswer hwrote]
    exact Nat.eq_zero_of_not_pos hnone
  | case3 sent want_retries at_call hmore hwant hmany =>
    rw [hcall, hsent, hlen] at hwant
    apply Ends.here hsent
    right
    rw [GivesUp, hanswer hwant, ← hwaits]
    exact Nat.lt_succ_iff.mp hmany
  | case4 sent want_retries at_call hmore hwant hfew ih =>
    rw [hcall, hsent, hlen] at hwant
    have hcurrent := hanswer hwant
    have hgoes : ¬ GivesUp env calls len k := by
      rw [GivesUp, hcurrent, ← hwaits]
      dsimp only
      omega
    apply Ends.later hgoes
    apply ih (k + 1)
    · rw [ssl_taken_succ, hcurrent, hsent]
    · rw [ssl_waits, if_pos hcurrent, hwaits]
    · rw [hcall, Nat.add_assoc]
    · exact id
  | case5 sent want_retries at_call hmore hfailed =>
    rw [hcall, hsent, hlen] at hfailed
    apply Ends.here hsent
    right
    rw [GivesUp, hanswer hfailed]
    exact trivial
  | case6 sent want_retries at_call hdone =>
    apply Ends.here hsent
    left
    omega

/-- What the loop for a new frame ends with. -/
theorem ssl_write_loop_new (env : WsEnv) (calls len : Nat) :
    Ends env calls len 0 (ssl_write_loop env len 0 0 calls).1 :=
  ssl_write_loop_ends len 0 0 calls 0 rfl rfl rfl rfl

/-- The count that is added is right for a frame whose size an `int` holds. -/
theorem count_sent_iff {bytes_sent count : Nat} (hcount : count < 2 ^ 63) :
    count_sent bytes_sent (int count) = (bytes_sent + count) % 2 ^ 64 ↔ count < 2 ^ 31 := by
  unfold count_sent int
  omega

/-- What was taken of a frame is the whole of it, and counted right. -/
theorem sent_whole_iff {frame : List UInt8} {bytes_sent count : Nat} (hsize : frame.length < 2 ^ 63)
    (hle : count ≤ frame.length) :
    (frame.take count = frame ∧ count_sent bytes_sent (int count) = (bytes_sent + frame.length) % 2 ^ 64) ↔
      count = frame.length ∧ frame.length < 2 ^ 31 := by
  rw [List.take_eq_self_iff]
  constructor
  · rintro ⟨hall, hcount⟩
    have hlen := Nat.le_antisymm hle hall
    rw [hlen, count_sent_iff hsize] at hcount
    exact ⟨hlen, hcount⟩
  · rintro ⟨hlen, hshort⟩
    rw [hlen]
    exact ⟨Nat.le_refl _, (count_sent_iff hsize).mpr hshort⟩

/-- TLS takes everything or nothing exactly when what the loop ends with is nothing, or
all of a frame that can be counted. -/
theorem tls_whole_iff (henv : env.Counts) (hpos : 0 < len) :
    TlsWhole env calls len ↔ ((ssl_write_loop env len 0 0 calls).1 ≠ 0 →
      (ssl_write_loop env len 0 0 calls).1 = len ∧ len < 2 ^ 31) := by
  obtain ⟨m, -, hsent, hbefore, hend⟩ := ssl_write_loop_new env calls len
  have hgoes : ∀ j < m, ¬ GivesUp env calls len j := fun j hj => hbefore j (Nat.zero_le j) hj
  have hbound := @ssl_taken_le env calls len henv m
  rw [hsent]
  constructor
  · rintro ⟨hunbroken, hcounted⟩ hsome
    have hall : len ≤ ssl_taken env calls len m := by
      rcases hend with hall | hgives
      · exact hall
      · exact (hunbroken m hgoes hgives).resolve_left hsome
    exact ⟨Nat.le_antisymm hbound hall, hcounted m hgoes hall⟩
  · intro hwhole
    have hafter : ∀ k, (∀ j < k, ¬ GivesUp env calls len j) → m < k → len ≤ ssl_taken env calls len m :=
      fun k hk hlt => hend.resolve_right (hk m hlt)
    refine ⟨fun k hk hgives => ?_, fun k hk hall => ?_⟩
    · rcases Nat.lt_trichotomy k m with hlt | rfl | hgt
      · exact absurd hgives (hgoes k hlt)
      · by_cases hzero : ssl_taken env calls len k = 0
        · exact .inl hzero
        · exact .inr (Nat.le_of_eq (hwhole hzero).1.symm)
      · right
        exact Nat.le_trans (hafter k hk hgt) (ssl_taken_mono (Nat.le_of_lt hgt))
    · have hdone : len ≤ ssl_taken env calls len m := by
        rcases Nat.lt_or_ge m k with hlt | hge
        · exact hafter k hk hlt
        · exact Nat.le_trans hall (ssl_taken_mono hge)
      exact (hwhole (by omega)).2

end loop

/-- The call that gets as far as the transport. -/
theorem send_frame_eq {env : WsEnv} {conn : WsConnection} {data frame : List UInt8} {opcode : UInt8}
    (h : Reaches env conn data opcode frame) :
    uvhttp_ws_send_frame env conn data opcode =
      if conn.ssl then
        let loop := ssl_write_loop env frame.length 0 0 (conn.calls + 2)
        if loop.1 = 0 then (.INVALID_PARAM, { conn with calls := loop.2 }, [])
        else
          (.OK, { conn with
            calls := loop.2
            bytes_sent := count_sent conn.bytes_sent (int loop.1)
            frames_sent := conn.frames_sent + 1 }, [.frame_sent (frame.take loop.1)])
      else
        match env.send (conn.calls + 2) frame.length with
        | none => (.CONNECTION_BROKEN, { conn with calls := conn.calls + 3 }, [])
        | some sent =>
          if int sent < 0 then
            (.CONNECTION_BROKEN, { conn with calls := conn.calls + 3 }, [.frame_sent (frame.take sent)])
          else
            (.OK, { conn with
              calls := conn.calls + 3
              bytes_sent := count_sent conn.bytes_sent (int sent)
              frames_sent := conn.frames_sent + 1 }, [.frame_sent (frame.take sent)]) := by
  unfold uvhttp_ws_send_frame
  rw [if_neg (not_not.mpr h.state), if_neg (Nat.not_lt.mpr h.length)]
  dsimp only
  rw [if_neg (by rw [h.alloc]; decide), h.build]
  dsimp only
  exact if_neg (Nat.not_le.mpr h.size)

/-- A call that succeeds has got as far as the transport. -/
theorem reaches_of_ok {env : WsEnv} {conn : WsConnection} {data : List UInt8} {opcode : UInt8}
    (h : (uvhttp_ws_send_frame env conn data opcode).1 = .OK) : ∃ frame, Reaches env conn data opcode frame := by
  unfold uvhttp_ws_send_frame at h
  split at h
  · cases h
  · rename_i hopen
    split at h
    · cases h
    · rename_i hlength
      dsimp only at h
      split at h
      · cases h
      · rename_i halloc
        split at h
        · cases h
        · rename_i frame hbuild
          split at h
          · cases h
          · rename_i hsize
            rw [Bool.not_eq_true, Bool.not_eq_eq_eq_not, Bool.not_false] at halloc
            exact ⟨frame, not_not.mp hopen, Nat.not_lt.mp hlength, halloc, hbuild, Nat.not_le.mp hsize⟩

theorem build_frame_pos {random : Option (List UInt8)} {buffer_size : Nat} {payload frame : List UInt8}
    {opcode : UInt8} {mask fin : Bool}
    (h : uvhttp_ws_build_frame random buffer_size payload opcode mask fin = .ok frame) : 0 < frame.length := by
  have hheader : 0 < (frame_header_bytes payload.length opcode mask fin).length := by
    rw [length_frame_header_bytes, frame_header_size]
    split
    · decide
    · split <;> decide
  unfold uvhttp_ws_build_frame at h
  cases mask with
  | false =>
    simp only [Bool.false_eq_true, if_false] at h
    split at h
    · cases h
    · split at h
      · cases h
      · cases h
        rw [List.length_append]
        omega
  | true =>
    simp only [if_true] at h
    split at h
    · cases h
    · split at h
      · cases h
      · cases hkey : random with
        | none =>
          rw [hkey] at h
          cases h
        | some key =>
          rw [hkey] at h
          cases h
          rw [List.length_append, List.length_append]
          omega

/-- A frame is sent and counted whole by a call that succeeds exactly when the transport, if
it is reached, takes it whole or fails at once, and it is shorter than 2 GiB. -/
theorem all_or_error_iff {env : WsEnv} (henv : env.Counts) (conn : WsConnection) (data : List UInt8) (opcode : UInt8) :
    AllOrError env conn data opcode ↔ ∀ frame, Reaches env conn data opcode frame →
      if conn.ssl then TlsWhole env (conn.calls + 2) frame.length else PlainWhole env (conn.calls + 2) frame.length := by
  have hframe : ∀ {frame}, Reaches env conn data opcode frame →
      (AllOrError env conn data opcode ↔ ((uvhttp_ws_send_frame env conn data opcode).1 = .OK →
        emitted (uvhttp_ws_send_frame env conn data opcode).2.2 = frame ∧
        (uvhttp_ws_send_frame env conn data opcode).2.1.bytes_sent = (conn.bytes_sent + frame.length) % 2 ^ 64)) := by
    intro frame hreach
    refine imp_congr_right fun _ => ⟨?_, fun h => ⟨frame, hreach.build, h⟩⟩
    rintro ⟨built, hbuilt, hsent⟩
    rw [hreach.build] at hbuilt
    cases hbuilt
    exact hsent
  by_cases hany : ∃ frame, Reaches env conn data opcode frame
  · obtain ⟨frame, hreach⟩ := hany
    have honly : ∀ {P : List UInt8 → Prop}, (∀ other, Reaches env conn data opcode other → P other) ↔ P frame := by
      refine ⟨fun h => h frame hreach, fun h other hother => ?_⟩
      have hsame := hother.build
      rw [hreach.build] at hsame
      cases hsame
      exact h
    have hpos := build_frame_pos hreach.build
    have hsize := hreach.size
    rw [honly, hframe hreach, send_frame_eq hreach]
    cases hssl : conn.ssl with
    | true =>
      simp only [if_true]
      rw [tls_whole_iff henv hpos]
      have hle : (ssl_write_loop env frame.length 0 0 (conn.calls + 2)).1 ≤ frame.length := by
        obtain ⟨m, -, hsent, -, -⟩ := ssl_write_loop_new env (conn.calls + 2) frame.length
        rw [hsent]
        exact ssl_taken_le henv m
      generalize ssl_write_loop env frame.length 0 0 (conn.calls + 2) = loop at hle ⊢
      by_cases hzero : loop.1 = 0
      · rw [if_pos hzero]
        exact iff_of_true (by rintro ⟨⟩) fun h => absurd hzero h
      · rw [if_neg hzero]
        simp only [emitted, List.map_cons, List.map_nil, List.flatten_cons, List.flatten_nil, List.append_nil,
          forall_const]
        rw [imp_iff_right hzero]
        exact sent_whole_iff hsize hle
    | false =>
      simp only [Bool.false_eq_true, if_false, PlainWhole]
      cases hsend : env.send (conn.calls + 2) frame.length with
      | none =>
        apply iff_of_true (by rintro ⟨⟩)
        intro sent hsome
        cases hsome
      | some sent =>
        have hle := henv.send _ _ _ hsend
        simp only [Option.some.injEq, forall_eq']
        by_cases hnegative : int sent < 0
        · rw [if_pos hnegative]
          exact iff_of_true (by rintro ⟨⟩) (.inl hnegative)
        · rw [if_neg hnegative]
          simp only [emitted, List.map_cons, List.map_nil, List.flatten_cons, List.flatten_nil, List.append_nil,
            forall_const, hnegative, false_or]
          exact sent_whole_iff hsize hle
  · refine iff_of_true (fun hok => absurd (reaches_of_ok hok) hany) fun frame hreach => absurd ⟨frame, hreach⟩ hany

/-- A transport that takes every frame whole. -/
theorem WsEnv.obliging_counts : WsEnv.obliging.Counts := by
  refine ⟨fun calls len count h => ?_, fun calls len count h => ?_⟩
  · cases h
    exact Nat.le_refl _
  · cases h
    exact Nat.le_refl _

/-- A greeting over a transport that takes it whole. -/
theorem all_or_error_greeting : AllOrError .obliging (opened 1024 1024) (bytes "hello") OPCODE_TEXT := by
  refine (all_or_error_iff WsEnv.obliging_counts _ _ _).mpr fun frame hreach count hcount => ?_
  have hbuilt := hreach.build
  cases hcount
  cases hbuilt
  exact .inr ⟨rfl, by decide⟩

/-- A transport that takes two bytes of a frame and then breaks. -/
def breaking_env : WsEnv :=
  { WsEnv.obliging with
    ssl_write := fun calls _ => if calls = 2 then .wrote 2 else .failed
    send := fun _ _ => some 2 }

/-- The first two bytes of a frame are reported as success, over TLS and without. -/
theorem truncated_frame_reported :
    ¬ AllOrError breaking_env { opened 1024 1024 with ssl := true } (bytes "hello") OPCODE_TEXT ∧
      ¬ AllOrError breaking_env (opened 1024 1024) (bytes "hello") OPCODE_TEXT := by
  constructor
  · have hreach : Reaches breaking_env { opened 1024 1024 with ssl := true } (bytes "hello") OPCODE_TEXT
        [0x81, 5, 104, 101, 108, 108, 111] := by
      refine ⟨rfl, by decide, rfl, by decide +kernel, by decide⟩
    have hloop : ssl_write_loop breaking_env 7 0 0 2 = (2, 4) := by
      simp [ssl_write_loop, breaking_env]
    have hsent : (uvhttp_ws_send_frame breaking_env { opened 1024 1024 with ssl := true } (bytes "hello")
        OPCODE_TEXT).1 = .OK ∧ emitted (uvhttp_ws_send_frame breaking_env { opened 1024 1024 with ssl := true }
          (bytes "hello") OPCODE_TEXT).2.2 = [0x81, 5] := by
      rw [send_frame_eq hreach, if_pos rfl]
      have hcalls : ssl_write_loop breaking_env ([0x81, 5, 104, 101, 108, 108, 111] : List UInt8).length 0 0
          ((opened 1024 1024).calls + 2) = (2, 4) := hloop
      dsimp only
      rw [hcalls]
      exact ⟨rfl, rfl⟩
    intro hall
    obtain ⟨frame, hbuilt, hemitted, -⟩ := hall hsent.1
    rw [hsent.2] at hemitted
    rw [← hemitted] at hbuilt
    exact absurd hbuilt (by decide +kernel)
  · intro hall
    obtain ⟨frame, hbuilt, hemitted, -⟩ := hall (by decide +kernel)
    rw [← hemitted] at hbuilt
    exact absurd hbuilt (by decide +kernel)

end uvhttp.websocket
