import Uvhttp.WebSocket.FrameLog

open incremental

namespace uvhttp.websocket

/-- Subtraction of `size_t` values, nothing if it wraps around. -/
def checked_sub (a b : Nat) : Option Nat := if b ≤ a then some (a - b) else none

/-- Addition of `size_t` values, nothing if it wraps around. -/
def checked_add (a b : Nat) : Option Nat := if a + b ≤ SIZE_MAX then some (a + b) else none

/-- Doubling of a `size_t` value, nothing if it wraps around. -/
def checked_double (a : Nat) : Option Nat := if a * 2 ≤ SIZE_MAX then some (a * 2) else none

/-- The growth loop of `uvhttp_ws_fragment_append`: nothing if a computation
wraps around or the loop is not left within `fuel` turns, `some none` if it
returns an error. -/
def grow_checked (required : Nat) : Nat → Nat → Option (Option Nat)
  | 0, _ => none
  | fuel + 1, new_capacity =>
    if new_capacity < required then
      if new_capacity > SIZE_MAX / 2 then some none
      else (checked_double new_capacity).bind (grow_checked required fuel)
    else some (some new_capacity)

/-- The size computations of `uvhttp_ws_fragment_append` in the order of the
source: nothing if one wraps around or the loop goes on, `some none` if the
fragment is refused, otherwise the new size and capacity. -/
def append_checked (fuel max_message_size fragmented_size fragmented_capacity payload_len : Nat) :
    Option (Option (Nat × Nat)) := do
  let exceeds ←
    if max_message_size > 0 then
      if fragmented_size > max_message_size then some true
      else (checked_sub max_message_size fragmented_size).map fun room => decide (payload_len > room)
    else some false
  if exceeds then some none
  else
    let spare ← checked_sub fragmented_capacity fragmented_size
    if payload_len > spare then
      let required ← checked_add fragmented_size payload_len
      let new_capacity ←
        if fragmented_capacity = 0 then some (some required) else grow_checked required fuel fragmented_capacity
      match new_capacity with
      | none => some none
      | some new_capacity =>
        let fragmented_size ← checked_add fragmented_size payload_len
        some (some (fragmented_size, new_capacity))
    else
      let fragmented_size ← checked_add fragmented_size payload_len
      some (some (fragmented_size, fragmented_capacity))

/-- The same computations on unbounded numbers. -/
def append_sizes (max_message_size fragmented_size fragmented_capacity payload_len : Nat) : Option (Nat × Nat) :=
  if max_message_size > 0 ∧
      (fragmented_size > max_message_size ∨ payload_len > max_message_size - fragmented_size) then none
  else if payload_len > fragmented_capacity - fragmented_size then
    (fragment_capacity (fragmented_size + payload_len) fragmented_capacity).map fun new_capacity =>
      (fragmented_size + payload_len, new_capacity)
  else some (fragmented_size + payload_len, fragmented_capacity)

/-- `uvhttp_ws_fragment_append` takes its sizes from there. -/
theorem fragment_append_sizes (env : WsEnv) (conn : WsConnection) (payload : List UInt8) :
    match append_sizes (size_t conn.max_message_size) conn.fragmented_size conn.fragmented_capacity
        payload.length with
    | none => uvhttp_ws_fragment_append env conn payload = (.INVALID_PARAM, conn)
    | some (size, capacity) =>
      uvhttp_ws_fragment_append env conn payload = (.INVALID_PARAM, { conn with calls := conn.calls + 1 }) ∨
        ∃ message calls, uvhttp_ws_fragment_append env conn payload =
          (.OK, { conn with fragmented_message := message, fragmented_size := size,
                            fragmented_capacity := capacity, calls }) ∧
          message = if payload.length > conn.fragmented_capacity - conn.fragmented_size then
            some (conn.fragmented_message.getD [] ++ payload) else conn.fragmented_message.map (· ++ payload) := by
  unfold append_sizes uvhttp_ws_fragment_append
  by_cases hover : size_t conn.max_message_size > 0 ∧ (conn.fragmented_size > size_t conn.max_message_size ∨
      payload.length > size_t conn.max_message_size - conn.fragmented_size)
  · simp only [if_pos hover]
  · simp only [if_neg hover]
    by_cases hgrow : payload.length > conn.fragmented_capacity - conn.fragmented_size
    · simp only [if_pos hgrow]
      cases fragment_capacity (conn.fragmented_size + payload.length) conn.fragmented_capacity with
      | none => rfl
      | some capacity =>
        dsimp only [Option.map_some]
        cases env.alloc conn.calls capacity with
        | false => exact .inl rfl
        | true => exact .inr ⟨_, _, rfl, rfl⟩
    · simp only [if_neg hgrow]
      exact .inr ⟨_, _, rfl, rfl⟩

/-- The growth loop is left: a capacity that is not zero doubles until it is
large enough, or the overflow guard ends it. -/
theorem grow_checked_eq {required fuel new_capacity : Nat} (hpos : 0 < new_capacity)
    (hrequired : required ≤ new_capacity * 2 ^ fuel) :
    grow_checked required (fuel + 1) new_capacity = some (double_until required new_capacity) := by
  induction fuel generalizing new_capacity with
  | zero =>
    rw [grow_checked, double_until, if_neg (by omega), if_neg (by omega)]
  | succ fuel ih =>
    rw [grow_checked, double_until]
    by_cases hshort : new_capacity < required
    · rw [if_pos hshort, if_pos hshort]
      by_cases hguard : new_capacity > SIZE_MAX / 2
      · rw [if_pos hguard, if_pos hguard]
      · have hdouble : checked_double new_capacity = some (new_capacity * 2) := if_pos (by omega)
        rw [if_neg hguard, if_neg hguard, if_pos hpos, hdouble, Option.bind_some]
        apply ih
        · omega
        · rw [Nat.pow_succ'] at hrequired
          rw [Nat.mul_assoc]
          exact hrequired
    · rw [if_neg hshort, if_neg hshort]

/-- With the invariant of the three sizes no computation wraps around and the
loop is left, so the machine computes what the unbounded numbers give. -/
theorem append_checked_eq {max_message_size fragmented_size fragmented_capacity payload_len : Nat}
    (hmax : 0 < max_message_size) (hint : max_message_size < 2 ^ 31) (hsize : fragmented_size ≤ max_message_size)
    (hcapacity : fragmented_size ≤ fragmented_capacity) :
    append_checked 32 max_message_size fragmented_size fragmented_capacity payload_len =
      some (append_sizes max_message_size fragmented_size fragmented_capacity payload_len) := by
  have hroom : checked_sub max_message_size fragmented_size = some (max_message_size - fragmented_size) :=
    if_pos hsize
  have hspare : checked_sub fragmented_capacity fragmented_size = some (fragmented_capacity - fragmented_size) :=
    if_pos hcapacity
  unfold append_checked append_sizes
  rw [if_pos hmax, if_neg (by omega), hroom]
  simp only [Option.map_some, Option.bind_eq_bind, Option.bind_some, decide_eq_true_eq]
  by_cases hover : payload_len > max_message_size - fragmented_size
  · rw [if_pos hover, if_pos ⟨hmax, .inr hover⟩]
  · have hadd : checked_add fragmented_size payload_len = some (fragmented_size + payload_len) :=
      if_pos (by unfold SIZE_MAX; omega)
    rw [if_neg hover, if_neg (by omega), hspare]
    simp only [Option.bind_some, hadd]
    by_cases hgrow : payload_len > fragmented_capacity - fragmented_size
    · rw [if_pos hgrow, if_pos hgrow, fragment_capacity]
      by_cases hzero : fragmented_capacity = 0
      · rw [if_pos hzero, if_pos hzero]
        rfl
      · have hloop : grow_checked (fragmented_size + payload_len) 32 fragmented_capacity =
            some (double_until (fragmented_size + payload_len) fragmented_capacity) := by
          apply grow_checked_eq
          · omega
          · omega
        rw [if_neg hzero, if_neg hzero, hloop, Option.bind_some]
        cases double_until (fragmented_size + payload_len) fragmented_capacity with
        | none => rfl
        | some new_capacity => rfl
    · rw [if_neg hgrow, if_neg hgrow]

/-- The limits are those of an accepted configuration, and the three sizes of the
collected message fit together. -/
structure WsConnection.Bounded (conn : WsConnection) : Prop where
  frame_pos : 0 < conn.max_frame_size
  frame_le : conn.max_frame_size ≤ conn.max_message_size
  message_int : conn.max_message_size < 2 ^ 31
  size_le_capacity : conn.fragmented_size ≤ conn.fragmented_capacity
  size_le_limit : (conn.fragmented_size : Int) ≤ conn.max_message_size
  idle : conn.fragmented_message = none → conn.fragmented_size = 0 ∧ conn.fragmented_capacity = 0
  collected : ∀ message, conn.fragmented_message = some message → message.length = conn.fragmented_size

theorem WsConnection.Bounded.limit_eq {conn : WsConnection} (h : conn.Bounded) :
    size_t conn.max_message_size = conn.max_message_size.toNat := by
  have hpos := h.frame_pos
  have hle := h.frame_le
  have hint := h.message_int
  unfold size_t
  omega

/-- The receive buffer has no part in it. -/
theorem WsConnection.Bounded.received {conn : WsConnection} (h : conn.Bounded) (recv_buffer : List UInt8)
    (recv_stale : Nat → UInt8) (recv_buffer_size calls : Nat) :
    WsConnection.Bounded { conn with recv_buffer, recv_stale, recv_buffer_size, calls } :=
  ⟨h.frame_pos, h.frame_le, h.message_int, h.size_le_capacity, h.size_le_limit, h.idle, h.collected⟩

theorem Undisturbed.bounded {conn conn' : WsConnection} (h : Undisturbed conn conn') (hbounded : conn.Bounded) :
    conn'.Bounded := by
  constructor
  · rw [h.max_frame_size]
    exact hbounded.frame_pos
  · rw [h.max_frame_size, h.max_message_size]
    exact hbounded.frame_le
  · rw [h.max_message_size]
    exact hbounded.message_int
  · rw [h.fragmented_size, h.fragmented_capacity]
    exact hbounded.size_le_capacity
  · rw [h.fragmented_size, h.max_message_size]
    exact hbounded.size_le_limit
  · rw [h.fragmented_message, h.fragmented_size, h.fragmented_capacity]
    exact hbounded.idle
  · rw [h.fragmented_message, h.fragmented_size]
    exact hbounded.collected

/-- A connection that collects nothing is bounded by its limits alone. -/
theorem WsConnection.Bounded.of_idle {conn conn' : WsConnection} (h : conn.Bounded)
    (hframe : conn'.max_frame_size = conn.max_frame_size) (hmessage : conn'.max_message_size = conn.max_message_size)
    (hnone : conn'.fragmented_message = none) (hsize : conn'.fragmented_size = 0)
    (hcapacity : conn'.fragmented_capacity = 0) : conn'.Bounded := by
  have hpos := h.frame_pos
  have hle := h.frame_le
  constructor
  · rw [hframe]
    exact hpos
  · rw [hframe, hmessage]
    exact hle
  · rw [hmessage]
    exact h.message_int
  · rw [hsize]
    exact Nat.zero_le _
  · rw [hsize, hmessage]
    omega
  · exact fun _ => ⟨hsize, hcapacity⟩
  · rw [hnone]
    rintro message ⟨⟩

/-- Sizes that have been computed are within the message limit and the capacity. -/
theorem append_sizes_some {max_message_size fragmented_size fragmented_capacity payload_len size capacity : Nat}
    (hmax : 0 < max_message_size) (hcapacity : fragmented_size ≤ fragmented_capacity)
    (h : append_sizes max_message_size fragmented_size fragmented_capacity payload_len = some (size, capacity)) :
    size = fragmented_size + payload_len ∧ size ≤ max_message_size ∧ size ≤ capacity ∧
      (payload_len ≤ fragmented_capacity - fragmented_size → capacity = fragmented_capacity) := by
  unfold append_sizes at h
  split at h
  · cases h
  · split at h
    · unfold fragment_capacity at h
      split at h
      · cases h
        refine ⟨rfl, by omega, Nat.le_refl _, fun hfits => by omega⟩
      · have hdouble := double_until_spec (fragmented_size + payload_len)
          (show 0 < fragmented_capacity by omega)
        split at hdouble
        · obtain ⟨doubled, heq, hrequired, -, -⟩ := hdouble
          rw [heq] at h
          cases h
          refine ⟨rfl, by omega, hrequired, fun hfits => by omega⟩
        · rw [hdouble] at h
          cases h
    · cases h
      refine ⟨rfl, by omega, by omega, fun _ => rfl⟩

/-- Collecting a fragment keeps the sizes in order, whether it succeeds or not. -/
theorem WsConnection.Bounded.append {conn : WsConnection} (h : conn.Bounded) (env : WsEnv) (payload : List UInt8) :
    (uvhttp_ws_fragment_append env conn payload).2.Bounded := by
  have hsizes := fragment_append_sizes env conn payload
  have hlimit := h.limit_eq
  have hpos := h.frame_pos
  have hle := h.frame_le
  cases hcomputed : append_sizes (size_t conn.max_message_size) conn.fragmented_size conn.fragmented_capacity
      payload.length with
  | none =>
    rw [hcomputed] at hsizes
    rw [hsizes]
    exact h
  | some sizes =>
    obtain ⟨size, capacity⟩ := sizes
    rw [hcomputed] at hsizes
    rcases hsizes with hfailed | ⟨message, calls, hdone, hmessage⟩
    · rw [hfailed]
      exact h.received conn.recv_buffer conn.recv_stale conn.recv_buffer_size (conn.calls + 1)
    · obtain ⟨hsize, hwithin, hroom, hsame⟩ := append_sizes_some (by omega) h.size_le_capacity hcomputed
      rw [hdone]
      refine ⟨hpos, hle, h.message_int, hroom, ?_, ?_, ?_⟩
      · dsimp only
        omega
      · intro hnone
        dsimp only at hnone ⊢
        rw [hmessage] at hnone
        split at hnone
        · cases hnone
        · rename_i hfits
          obtain ⟨hempty, hzero⟩ := h.idle (Option.map_eq_none_iff.mp hnone)
          have hcapacity := hsame (by omega)
          omega
      · intro whole hwhole
        dsimp only at hwhole ⊢
        rw [hmessage] at hwhole
        split at hwhole
        · cases hwhole
          cases hcollected : conn.fragmented_message with
          | none =>
            have hempty := (h.idle hcollected).1
            rw [Option.getD_none, List.nil_append]
            omega
          | some collected =>
            have hlength := h.collected collected hcollected
            rw [Option.getD_some, List.length_append]
            omega
        · obtain ⟨collected, hcollected, rfl⟩ := Option.map_eq_some_iff.mp hwhole
          have hlength := h.collected collected hcollected
          rw [List.length_append]
          omega

/-- Messages passed to `on_message` are within the limit. -/
def WithinBound (max_message_size : Int) (events : List WsEvent) : Prop :=
  ∀ opcode data, WsEvent.on_message opcode data ∈ events → (data.length : Int) ≤ max_message_size

/-- What a turn of the receive loop leaves behind is bounded. -/
def FrameStep.Bounded (max_message_size : Int) : FrameStep → Prop
  | .stop => True
  | .fail conn events => conn.Bounded ∧ conn.max_message_size = max_message_size ∧ WithinBound max_message_size events
  | .next conn events => conn.Bounded ∧ conn.max_message_size = max_message_size ∧ WithinBound max_message_size events

theorem WithinBound.nil (max_message_size : Int) : WithinBound max_message_size [] :=
  fun _ _ hmem => absurd hmem List.not_mem_nil

theorem WithinBound.append {max_message_size : Int} {events later : List WsEvent}
    (h : WithinBound max_message_size events) (hlater : WithinBound max_message_size later) :
    WithinBound max_message_size (events ++ later) := by
  intro opcode data hmem
  rcases List.mem_append.mp hmem with hfirst | hsecond
  · exact h opcode data hfirst
  · exact hlater opcode data hsecond

/-- Events without callbacks pass no message. -/
theorem WithinBound.of_callbacks {max_message_size : Int} {events : List WsEvent} (h : callbacks events = []) :
    WithinBound max_message_size events := by
  intro opcode data hmem
  have hmade : WsEvent.on_message opcode data ∈ callbacks events := List.mem_filter.mpr ⟨hmem, rfl⟩
  rw [h] at hmade
  exact absurd hmade List.not_mem_nil

theorem deliver_message_within (env : WsEnv) (conn : WsConnection) (opcode : UInt8) {data : List UInt8}
    {max_message_size : Int} (h : (data.length : Int) ≤ max_message_size) :
    WithinBound max_message_size (deliver_message env conn opcode data).2 := by
  unfold deliver_message
  split
  · intro opcode' data' hmem
    rw [List.mem_singleton] at hmem
    cases hmem
    exact h
  · exact .nil _

/-- The connection with which `uvhttp_ws_fragment_append` is called for a frame,
if it is. -/
def append_call (conn : WsConnection) (header : FrameHeader) : Option WsConnection :=
  if is_data header.opcode then
    match conn.fragmented_message with
    | none =>
      if header.opcode = OPCODE_CONTINUATION then none
      else if !header.fin then
        some { conn with
          fragmented_opcode := header.opcode
          fragmented_size := 0
          fragmented_capacity := 0
          fragmented_message := none }
      else none
    | some _ => if header.opcode ≠ OPCODE_CONTINUATION then none else some conn
  else none

/-- What the data branch does when the fragment has been collected, or not. -/
def finish_append (env : WsEnv) (fin : Bool) : UvhttpError × WsConnection → FrameStep
  | (.OK, conn) =>
    if fin then
      let (conn, events) := deliver_message env conn conn.fragmented_opcode (conn.fragmented_message.getD [])
      .next { conn with
        fragmented_message := none
        fragmented_size := 0
        fragmented_capacity := 0 } events
    else .next conn []
  | (_, conn) => .fail conn []

/-- The data branch either calls `uvhttp_ws_fragment_append` as told, or refuses
the frame, or delivers it on its own. -/
theorem process_data_frame_cases (env : WsEnv) (conn : WsConnection) {header : FrameHeader}
    (hdata : is_data header.opcode) (payload : List UInt8) :
    match append_call conn header with
    | some called =>
      process_data_frame env conn header payload =
        finish_append env header.fin (uvhttp_ws_fragment_append env called payload)
    | none =>
      process_data_frame env conn header payload = .fail conn [] ∨
        process_data_frame env conn header payload =
          .next (deliver_message env conn header.opcode payload).1
            (deliver_message env conn header.opcode payload).2 := by
  unfold append_call process_data_frame
  rw [if_pos hdata]
  cases conn.fragmented_message with
  | none =>
    dsimp only
    by_cases hcont : header.opcode = OPCODE_CONTINUATION
    · simp only [if_pos hcont]
      exact .inl trivial
    · simp only [if_neg hcont]
      cases header.fin with
      | false =>
        simp only [Bool.not_false, if_true]
        generalize uvhttp_ws_fragment_append env _ payload = result
        obtain ⟨error, appended⟩ := result
        cases error <;> rfl
      | true => exact .inr rfl
  | some message =>
    dsimp only
    by_cases hcont : header.opcode = OPCODE_CONTINUATION
    · simp only [hcont, ne_eq, not_true, if_false]
      generalize uvhttp_ws_fragment_append env conn payload = result
      obtain ⟨error, appended⟩ := result
      cases error <;> rfl
    · simp only [ne_eq, hcont, not_false_eq_true, if_true]
      exact .inl trivial

theorem append_call_bounded {conn called : WsConnection} (h : conn.Bounded) {header : FrameHeader}
    (hcall : append_call conn header = some called) :
    called.Bounded ∧ called.max_message_size = conn.max_message_size := by
  unfold append_call at hcall
  split at hcall
  · split at hcall
    · split at hcall
      · cases hcall
      · split at hcall
        · cases hcall
          exact ⟨h.of_idle rfl rfl rfl rfl rfl, rfl⟩
        · cases hcall
    · split at hcall
      · cases hcall
      · cases hcall
        exact ⟨h, rfl⟩
  · cases hcall

theorem finish_append_bounded {env : WsEnv} (henv : env.Discreet) (fin : Bool) {error : UvhttpError}
    {conn : WsConnection} (h : conn.Bounded) :
    (finish_append env fin (error, conn)).Bounded conn.max_message_size := by
  have hfail : FrameStep.Bounded conn.max_message_size (.fail conn []) := ⟨h, rfl, .nil _⟩
  by_cases hok : error = .OK
  · subst hok
    cases fin with
    | false => exact ⟨h, rfl, .nil _⟩
    | true =>
      have hsame := deliver_message_undisturbed henv conn conn.fragmented_opcode (conn.fragmented_message.getD [])
      refine ⟨(hsame.bounded h).of_idle rfl rfl rfl rfl rfl, hsame.max_message_size, ?_⟩
      apply deliver_message_within
      cases hmessage : conn.fragmented_message with
      | none =>
        have hpos := h.frame_pos
        have hle := h.frame_le
        rw [Option.getD_none, List.length_nil]
        omega
      | some message =>
        rw [Option.getD_some, h.collected message hmessage]
        exact h.size_le_limit
  · cases error <;> first | exact hfail | exact absurd rfl hok

theorem process_data_frame_bounded {env : WsEnv} (henv : env.Discreet) {conn : WsConnection} (h : conn.Bounded)
    {header : FrameHeader} (hdata : is_data header.opcode) {payload : List UInt8}
    (hpayload : (payload.length : Int) ≤ conn.max_frame_size) :
    (process_data_frame env conn header payload).Bounded conn.max_message_size := by
  have hcases := process_data_frame_cases env conn hdata payload
  cases hcall : append_call conn header with
  | some called =>
    rw [hcall] at hcases
    obtain ⟨hcalled, hmax⟩ := append_call_bounded h hcall
    have happend := hcalled.append env payload
    have hkept := (fragment_append_kept env called payload).1.max_message_size
    rw [hcases, ← hmax, ← hkept]
    generalize uvhttp_ws_fragment_append env called payload = result at happend ⊢
    obtain ⟨error, appended⟩ := result
    exact finish_append_bounded henv header.fin happend
  | none =>
    rw [hcall] at hcases
    rcases hcases with hrefused | hdelivered
    · rw [hrefused]
      exact ⟨h, rfl, .nil _⟩
    · have hsame := deliver_message_undisturbed henv conn header.opcode payload
      rw [hdelivered]
      refine ⟨hsame.bounded h, hsame.max_message_size, ?_⟩
      apply deliver_message_within
      have hle := h.frame_le
      omega

theorem process_frame_bounded {env : WsEnv} (henv : env.Discreet) {conn : WsConnection} (h : conn.Bounded)
    {header : FrameHeader} {payload : List UInt8} (hpayload : (payload.length : Int) ≤ conn.max_frame_size)
    (following : List UInt8) :
    (process_frame env conn header payload following).Bounded conn.max_message_size := by
  unfold process_frame
  split
  · rename_i hdata
    exact process_data_frame_bounded henv h hdata hpayload
  · split
    · have hdelivered := deliver_close_undisturbed henv conn payload following
      obtain ⟨hmoves, hsent⟩ := echo_close_moves env conn.user_data (deliver_close env conn payload following).1 payload
      have hall := (hdelivered.trans hmoves.undisturbed).trans (.with_state _ .CLOSED)
      refine ⟨hall.bounded h, hall.max_message_size, ?_⟩
      apply WithinBound.append
      · intro opcode data hmem
        unfold deliver_close at hmem
        dsimp only at hmem
        split at hmem
        · rw [List.mem_singleton] at hmem
          cases hmem
        · exact absurd hmem List.not_mem_nil
      · exact .of_callbacks hsent
    · split
      · split
        · obtain ⟨hmoves, hsent⟩ := send_frame_moves env conn payload OPCODE_PONG
          exact ⟨hmoves.undisturbed.bounded h, hmoves.undisturbed.max_message_size, .of_callbacks hsent⟩
        · exact ⟨h, rfl, .nil _⟩
      · exact ⟨h, rfl, .nil _⟩

/-- A frame is handled only with a payload within the frame limit. -/
theorem decoder_payload_limit {is_server : Bool} {max_frame_size : Int} {buffer : List UInt8} {frame : Frame}
    {total : Nat} (h : (decoder is_server max_frame_size).next buffer = .frame frame total) :
    frame.2.length ≤ size_t max_frame_size := by
  simp only [decoder, next_frame] at h
  split at h
  · cases h
  · split at h
    · split at h <;> cases h
    · split at h
      · cases h
      · rename_i haccepted
        split at h
        · cases h
        · rename_i hcomplete
          cases h
          unfold header_refused at haccepted
          rw [length_frame_payload (by omega)]
          omega

theorem process_step_bounded {env : WsEnv} (henv : env.Discreet) {conn : WsConnection} (h : conn.Bounded)
    (hlen : 2 ≤ conn.recv_buffer.length) : (process_step env conn).Bounded conn.max_message_size := by
  have hpos := h.frame_pos
  have hle := h.frame_le
  have hint := h.message_int
  rw [process_step_eq env hlen]
  cases hnext : conn.profile.decoder.next conn.recv_buffer with
  | more => trivial
  | bad => exact ⟨h, rfl, .nil _⟩
  | frame frame total =>
    obtain ⟨header, payload⟩ := frame
    have hpayload : (payload.length : Int) ≤ conn.max_frame_size := by
      have hlimit := decoder_payload_limit hnext
      unfold size_t at hlimit
      dsimp only at hlimit
      omega
    have hunmasked : (unmask_frame conn payload total).Bounded := h.received _ _ _ _
    have hframe := @process_frame_bounded env henv _ hunmasked header payload hpayload (conn.recv_buffer.drop total)
    dsimp only
    cases hstep : process_frame env (unmask_frame conn payload total) header payload
        (conn.recv_buffer.drop total) with
    | stop => trivial
    | fail failed events =>
      rw [hstep] at hframe
      exact hframe
    | next after events =>
      rw [hstep] at hframe
      exact ⟨hframe.1.received _ _ _ _, hframe.2⟩

/-- The turns of the receive loop that have a complete frame before them, for at
most `fuel` of them. -/
def process_turns (env : WsEnv) : Nat → WsConnection → List (WsConnection × Frame)
  | 0, _ => []
  | fuel + 1, conn =>
    if conn.recv_buffer.length < 2 then []
    else
      match next_frame conn.is_server conn.max_frame_size conn.recv_buffer with
      | .frame (header, payload) total =>
        (unmask_frame conn payload total, header, payload) ::
          match process_step env conn with
          | .next conn _ => process_turns env fuel conn
          | _ => []
      | _ => []

/-- The turns of the receive loop in one call of `uvhttp_ws_process_data`. -/
def process_data_turns (env : WsEnv) (conn : WsConnection) (data : List UInt8) : List (WsConnection × Frame) :=
  match grow_recv_buffer env conn data.length with
  | (.OK, conn) =>
    let received := { conn with recv_buffer := conn.recv_buffer ++ data }
    process_turns env received.recv_buffer.length received
  | _ => []

/-- A stretch of receiving: the connection after it, the events and the turns. -/
structure Reception where
  conn : WsConnection
  events : List WsEvent
  turns : List (WsConnection × Frame)

/-- Pass chunks to `uvhttp_ws_process_data` one after another, also after an
error. -/
def receive_chunks (env : WsEnv) (conn : WsConnection) : List (List UInt8) → Reception
  | [] => ⟨conn, [], []⟩
  | chunk :: chunks =>
    let called := uvhttp_ws_process_data env conn chunk
    let later := receive_chunks env called.2.1 chunks
    ⟨later.conn, called.2.2 ++ later.events, process_data_turns env conn chunk ++ later.turns⟩

/-- The call of `uvhttp_ws_fragment_append` in this turn, if there is one, computes
its sizes without wrapping around and leaves its loop. -/
def AppendExact (turn : WsConnection × Frame) : Prop :=
  ∀ called, append_call turn.1 turn.2.1 = some called →
    append_checked 32 (size_t called.max_message_size) called.fragmented_size called.fragmented_capacity
        turn.2.2.length =
      some (append_sizes (size_t called.max_message_size) called.fragmented_size called.fragmented_capacity
        turn.2.2.length)

theorem WsConnection.Bounded.append_exact {conn : WsConnection} (h : conn.Bounded) (frame : Frame) :
    AppendExact (conn, frame) := by
  intro called hcall
  obtain ⟨hcalled, -⟩ := append_call_bounded h hcall
  have hlimit := hcalled.limit_eq
  have hpos := hcalled.frame_pos
  have hle := hcalled.frame_le
  have hint := hcalled.message_int
  have hsize := hcalled.size_le_limit
  apply append_checked_eq
  · omega
  · omega
  · omega
  · exact hcalled.size_le_capacity

/-- A stretch of receiving that keeps the bounds. -/
structure Reception.Bounded (max_message_size : Int) (reception : Reception) : Prop where
  conn : reception.conn.Bounded
  limit : reception.conn.max_message_size = max_message_size
  events : WithinBound max_message_size reception.events
  turns : ∀ turn ∈ reception.turns, AppendExact turn

theorem process_frames_bounded {env : WsEnv} (henv : env.Discreet) (fuel : Nat) {conn : WsConnection}
    (h : conn.Bounded) :
    Reception.Bounded conn.max_message_size
      ⟨(process_frames env fuel conn).2.1, (process_frames env fuel conn).2.2, process_turns env fuel conn⟩ := by
  have hnone : ∀ turn ∈ ([] : List (WsConnection × Frame)), AppendExact turn :=
    fun turn hmem => absurd hmem List.not_mem_nil
  induction fuel generalizing conn with
  | zero => exact ⟨h, rfl, .nil _, hnone⟩
  | succ fuel ih =>
    rw [process_frames, process_turns]
    by_cases hshort : conn.recv_buffer.length < 2
    · rw [if_pos hshort, if_pos hshort]
      exact ⟨h, rfl, .nil _, hnone⟩
    · rw [if_neg hshort, if_neg hshort]
      have hstep := process_step_bounded henv h (by omega)
      have hturns : ∀ later : List (WsConnection × Frame), (∀ turn ∈ later, AppendExact turn) →
          ∀ turn ∈ (match next_frame conn.is_server conn.max_frame_size conn.recv_buffer with
            | .frame (header, payload) total => (unmask_frame conn payload total, header, payload) :: later
            | _ => []), AppendExact turn := by
        intro later hlater turn hmem
        split at hmem
        · rcases List.mem_cons.mp hmem with rfl | hrest
          · exact WsConnection.Bounded.append_exact (h.received _ _ _ _) _
          · exact hlater turn hrest
        · exact absurd hmem List.not_mem_nil
      cases hresult : process_step env conn with
      | stop => exact ⟨h, rfl, .nil _, hturns [] hnone⟩
      | fail failed events =>
        rw [hresult] at hstep
        exact ⟨hstep.1, hstep.2.1, hstep.2.2, hturns [] hnone⟩
      | next after events =>
        rw [hresult] at hstep
        obtain ⟨hafter, hmax, hevents⟩ := hstep
        have hlater := ih hafter
        rw [hmax] at hlater
        exact ⟨hlater.conn, hlater.limit, hevents.append hlater.events, hturns _ hlater.turns⟩

theorem process_data_bounded {env : WsEnv} (henv : env.Discreet) {conn : WsConnection} (h : conn.Bounded)
    (data : List UInt8) :
    Reception.Bounded conn.max_message_size
      ⟨(uvhttp_ws_process_data env conn data).2.1, (uvhttp_ws_process_data env conn data).2.2,
        process_data_turns env conn data⟩ := by
  obtain ⟨stale, size, calls, hgrown⟩ := grow_recv_buffer_writes env conn data.length
  unfold uvhttp_ws_process_data process_data_turns
  generalize grow_recv_buffer env conn data.length = result at hgrown ⊢
  obtain ⟨error, grown⟩ := result
  dsimp only at hgrown
  subst hgrown
  by_cases hok : error = .OK
  · subst hok
    exact process_frames_bounded henv _ (h.received (conn.recv_buffer ++ data) stale size calls)
  · have hsame : Reception.Bounded conn.max_message_size
        ⟨{ conn with recv_stale := stale, recv_buffer_size := size, calls }, [], []⟩ :=
      ⟨h.received _ _ _ _, rfl, .nil _, fun turn hmem => absurd hmem List.not_mem_nil⟩
    cases error <;> first | exact hsame | exact absurd rfl hok

/-- What one call keeps, a whole stretch of receiving keeps. -/
theorem receive_chunks_bounded {env : WsEnv} (henv : env.Discreet) {conn : WsConnection} (h : conn.Bounded)
    (chunks : List (List UInt8)) : (receive_chunks env conn chunks).Bounded conn.max_message_size := by
  induction chunks generalizing conn with
  | nil => exact ⟨h, rfl, .nil _, fun turn hmem => absurd hmem List.not_mem_nil⟩
  | cons chunk chunks ih =>
    obtain ⟨hconn, hmax, hevents, hturns⟩ := process_data_bounded henv h chunk
    have hlater := ih hconn
    dsimp only at hconn hmax hevents hturns
    rw [hmax] at hlater
    refine ⟨hlater.conn, hlater.limit, hevents.append hlater.events, ?_⟩
    intro turn hmem
    rcases List.mem_append.mp hmem with hfirst | hrest
    · exact hturns turn hfirst
    · exact hlater.turns turn hrest

/-- Under an accepted configuration, whatever bytes arrive in whatever chunks and
whatever allocations fail: every message passed to `on_message` is within
`max_message_size`, between calls the collected size is within capacity and
limit, and every call of `uvhttp_ws_fragment_append` leaves its growth loop and
computes its sizes without wrapping around. -/
theorem message_bound {env : WsEnv} (henv : env.Discreet) {conn : WsConnection} (hpos : 0 < conn.max_frame_size)
    (hle : conn.max_frame_size ≤ conn.max_message_size) (hint : conn.max_message_size < 2 ^ 31)
    (hmessage : conn.fragmented_message = none) (hsize : conn.fragmented_size = 0)
    (hcapacity : conn.fragmented_capacity = 0) (chunks : List (List UInt8)) :
    let reception := receive_chunks env conn chunks
    (∀ opcode data, WsEvent.on_message opcode data ∈ reception.events →
        (data.length : Int) ≤ conn.max_message_size) ∧
      reception.conn.fragmented_size ≤ reception.conn.fragmented_capacity ∧
      (reception.conn.fragmented_size : Int) ≤ conn.max_message_size ∧
      ∀ turn ∈ reception.turns, AppendExact turn := by
  intro reception
  have hbounded : conn.Bounded := by
    refine ⟨hpos, hle, hint, by omega, by omega, fun _ => ⟨hsize, hcapacity⟩, ?_⟩
    rw [hmessage]
    rintro message ⟨⟩
  have hrun := receive_chunks_bounded henv hbounded chunks
  refine ⟨hrun.events, hrun.conn.size_le_capacity, ?_, hrun.turns⟩
  have hlimit := hrun.conn.size_le_limit
  rw [hrun.limit] at hlimit
  exact hlimit

/-- Two fragments of one byte each, in one chunk. -/
theorem message_bound_two :
    let reception := receive_chunks .obliging (opened 1 2)
      [[0x01, 0x81, 0, 0, 0, 0, 0x61, 0x80, 0x81, 0, 0, 0, 0, 0x62]]
    (∀ opcode data, WsEvent.on_message opcode data ∈ reception.events → (data.length : Int) ≤ 2) ∧
      reception.conn.fragmented_size ≤ reception.conn.fragmented_capacity ∧
      (reception.conn.fragmented_size : Int) ≤ 2 ∧ ∀ turn ∈ reception.turns, AppendExact turn :=
  message_bound WsEnv.obliging_quiet.tame.discreet (by decide) (by decide) (by decide) rfl rfl rfl _

end uvhttp.websocket
