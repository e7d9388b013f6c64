import Uvhttp.WebSocket.Reassembly

open incremental

namespace uvhttp.websocket

/-- The opcodes of frames that carry a message. -/
abbrev is_data (opcode : UInt8) : Prop :=
  opcode = OPCODE_TEXT ∨ opcode = OPCODE_BINARY ∨ opcode = OPCODE_CONTINUATION

/-- A message of that length is above the limit, where there is one. -/
abbrev over_limit (max_message_size : Int) (len : Nat) : Prop :=
  0 < size_t max_message_size ∧ size_t max_message_size < len

/-- What the order of frames forbids when `pending` bytes of a message have been
collected: a continuation of nothing, another message before the end of this one,
and fragments that together are too long. -/
def breaks_sequence (max_message_size : Int) (pending : Option Nat) (header : FrameHeader) (len : Nat) : Prop :=
  (header.opcode = OPCODE_CONTINUATION ∧ pending = none) ∨
    ((header.opcode = OPCODE_TEXT ∨ header.opcode = OPCODE_BINARY) ∧ pending ≠ none) ∨
    (is_data header.opcode ∧ ¬ (header.fin = true ∧ pending = none) ∧
      over_limit max_message_size (pending.getD 0 + len))

instance (max_message_size : Int) (pending : Option Nat) (header : FrameHeader) (len : Nat) :
    Decidable (breaks_sequence max_message_size pending header len) := by
  unfold breaks_sequence
  infer_instance

/-- What is collected after a frame. -/
def pending_after (pending : Option Nat) (header : FrameHeader) (len : Nat) : Option Nat :=
  if is_data header.opcode then if header.fin then none else some (pending.getD 0 + len) else pending

/-- A message of which no byte has come is not told from none. -/
def started (pending : Option Nat) : Option Nat := pending.filter fun len => 0 < len

/-- What the receive loop makes of a frame when it has collected these bytes. -/
def judge (max_message_size : Int) (pending : Option Nat) (frame : Frame) : Option (Option Nat × List WsEvent) :=
  if breaks_sequence max_message_size pending frame.1 frame.2.length then none
  else some (started (pending_after pending frame.1 frame.2.length), [])

/-- A frame adds no more than its payload to what is collected. -/
theorem judge_le {max_message_size : Int} {pending pending' : Option Nat} {frame : Frame} {events : List WsEvent}
    (h : judge max_message_size pending frame = some (pending', events)) :
    pending'.getD 0 ≤ pending.getD 0 + frame.2.length := by
  unfold judge at h
  split at h
  · cases h
  · cases h
    unfold started pending_after
    split
    · split
      · exact Nat.zero_le _
      · rw [Option.filter_some]
        split
        · exact Nat.le_refl _
        · exact Nat.zero_le _
    · cases pending with
      | none => exact Nat.zero_le _
      | some len =>
        rw [Option.filter_some]
        split
        · exact Nat.le_add_right _ _
        · exact Nat.zero_le _

/-- The limits and the receive buffer are the same. -/
structure Kept (conn conn' : WsConnection) : Prop where
  is_server : conn'.is_server = conn.is_server
  max_frame_size : conn'.max_frame_size = conn.max_frame_size
  max_message_size : conn'.max_message_size = conn.max_message_size
  recv_buffer : conn'.recv_buffer = conn.recv_buffer
  recv_buffer_size : conn'.recv_buffer_size = conn.recv_buffer_size

/-- Receiving can go on as if nothing had happened. -/
structure Undisturbed (conn conn' : WsConnection) : Prop extends Kept conn conn' where
  fragmented_message : conn'.fragmented_message = conn.fragmented_message
  fragmented_size : conn'.fragmented_size = conn.fragmented_size
  fragmented_capacity : conn'.fragmented_capacity = conn.fragmented_capacity

/-- Callbacks leave receiving alone: they may send frames and close the
connection. -/
structure WsEnv.Discreet (env : WsEnv) : Prop where
  message_callback : ∀ conn opcode data, Undisturbed conn (env.message_callback conn opcode data)
  close_callback : ∀ conn code reason, Undisturbed conn (env.close_callback conn code reason)

/-- Allocations succeed and callbacks leave receiving alone: they may send
frames and close the connection. -/
structure WsEnv.Tame (env : WsEnv) : Prop where
  alloc : ∀ calls size, env.alloc calls size = true
  message_callback : ∀ conn opcode data, Undisturbed conn (env.message_callback conn opcode data)
  close_callback : ∀ conn code reason, Undisturbed conn (env.close_callback conn code reason)

theorem WsEnv.Tame.discreet {env : WsEnv} (h : env.Tame) : env.Discreet := ⟨h.message_callback, h.close_callback⟩

theorem Kept.trans {conn conn' conn'' : WsConnection} (h : Kept conn conn') (h' : Kept conn' conn'') :
    Kept conn conn'' :=
  ⟨h'.is_server.trans h.is_server, h'.max_frame_size.trans h.max_frame_size,
    h'.max_message_size.trans h.max_message_size, h'.recv_buffer.trans h.recv_buffer,
    h'.recv_buffer_size.trans h.recv_buffer_size⟩

theorem Undisturbed.refl (conn : WsConnection) : Undisturbed conn conn :=
  ⟨⟨rfl, rfl, rfl, rfl, rfl⟩, rfl, rfl, rfl⟩

theorem Undisturbed.trans {conn conn' conn'' : WsConnection} (h : Undisturbed conn conn')
    (h' : Undisturbed conn' conn'') : Undisturbed conn conn'' :=
  ⟨h.toKept.trans h'.toKept, h'.fragmented_message.trans h.fragmented_message,
    h'.fragmented_size.trans h.fragmented_size, h'.fragmented_capacity.trans h.fragmented_capacity⟩

theorem Undisturbed.with_state (conn : WsConnection) (state : WsState) : Undisturbed conn { conn with state } :=
  ⟨⟨rfl, rfl, rfl, rfl, rfl⟩, rfl, rfl, rfl⟩

theorem WsEnv.Quiet.tame {env : WsEnv} (h : env.Quiet) : env.Tame := by
  refine ⟨h.alloc, ?_, ?_⟩
  · intro conn opcode data
    rw [h.message_callback]
    exact .refl conn
  · intro conn code reason
    rw [h.close_callback]
    exact .refl conn

theorem Moves.kept {conn conn' : WsConnection} {r : Receiver} (h : Moves conn r conn') : Kept conn conn' := by
  obtain ⟨calls, bytes_sent, frames_sent, rfl⟩ := h
  exact ⟨rfl, rfl, rfl, rfl, rfl⟩

theorem Moves.undisturbed {conn conn' : WsConnection} (h : Moves conn conn.receiver conn') :
    Undisturbed conn conn' := by
  obtain ⟨calls, bytes_sent, frames_sent, rfl⟩ := h
  exact ⟨⟨rfl, rfl, rfl, rfl, rfl⟩, rfl, rfl, rfl⟩

/-- The connection has collected these bytes of a message. -/
inductive Holds (conn : WsConnection) : Option Nat → Prop where
  | idle : conn.fragmented_message = none → Holds conn none
  | collecting {message : List UInt8} : conn.receiver.Collecting message → message ≠ [] →
      Holds conn (some message.length)

theorem Undisturbed.holds {conn conn' : WsConnection} (h : Undisturbed conn conn') {pending : Option Nat}
    (hholds : Holds conn pending) : Holds conn' pending := by
  cases hholds with
  | idle hnone => exact .idle (h.fragmented_message.trans hnone)
  | collecting hcollecting hne =>
    refine .collecting ⟨?_, ?_, ?_, ?_⟩ hne
    · exact h.fragmented_message.trans hcollecting.message_eq
    · exact h.fragmented_size.trans hcollecting.size_eq
    · simpa only [WsConnection.receiver, h.fragmented_capacity] using hcollecting.room
    · simpa only [WsConnection.receiver, h.fragmented_capacity] using hcollecting.capacity_pos

theorem deliver_message_undisturbed {env : WsEnv} (henv : env.Discreet) (conn : WsConnection) (opcode : UInt8)
    (data : List UInt8) : Undisturbed conn (deliver_message env conn opcode data).1 := by
  unfold deliver_message
  split
  · exact henv.message_callback conn opcode data
  · exact .refl conn

theorem deliver_close_undisturbed {env : WsEnv} (henv : env.Discreet) (conn : WsConnection)
    (payload following : List UInt8) : Undisturbed conn (deliver_close env conn payload following).1 := by
  unfold deliver_close
  dsimp only
  split
  · exact henv.close_callback conn _ _
  · exact .refl conn

/-- How a turn of the receive loop matches the judgement of its frame. -/
inductive StepJudged (conn : WsConnection) : Option (Option Nat × List WsEvent) → FrameStep → Prop where
  | refused (conn' : WsConnection) (events : List WsEvent) : StepJudged conn none (.fail conn' events)
  | accepted {conn' : WsConnection} {pending : Option Nat} {events : List WsEvent} :
      Kept conn conn' → Holds conn' pending → StepJudged conn (some (pending, [])) (.next conn' events)

/-- A fragment that is too long is refused. -/
theorem fragment_append_over {env : WsEnv} {conn : WsConnection} {payload : List UInt8}
    (hover : over_limit conn.max_message_size (conn.fragmented_size + payload.length)) :
    uvhttp_ws_fragment_append env conn payload = (.INVALID_PARAM, conn) := by
  unfold uvhttp_ws_fragment_append
  rw [if_pos ⟨hover.1, by have := hover.2; omega⟩]

/-- A fragment within the limit is collected. -/
theorem fragment_append_within {env : WsEnv} (halloc : ∀ calls size, env.alloc calls size = true)
    {conn : WsConnection} {pending : Option Nat} (h : Holds conn pending)
    (hfresh : pending = none → conn.fragmented_size = 0 ∧ conn.fragmented_capacity = 0) {payload : List UInt8}
    (hobject : pending.getD 0 + payload.length ≤ 2 ^ 63)
    (hwithin : ¬ over_limit conn.max_message_size (pending.getD 0 + payload.length)) :
    ∃ conn', uvhttp_ws_fragment_append env conn payload = (.OK, conn') ∧ Kept conn conn' ∧
      Holds conn' (started (some (pending.getD 0 + payload.length))) := by
  have happend := fragment_append_refines halloc conn payload
  have hlimit : WithinMessageLimit conn.max_message_size (pending.getD 0 + payload.length) := by
    refine ⟨hobject, fun hsome => ?_⟩
    by_contra hlong
    exact hwithin ⟨hsome, by omega⟩
  cases h with
  | idle hnone =>
    obtain ⟨hsize, hcapacity⟩ := hfresh rfl
    rw [Option.getD_none, Nat.zero_add] at hlimit ⊢
    by_cases hempty : payload = []
    · subst hempty
      rw [append_empty_fragment conn.max_message_size hnone hsize] at happend
      generalize uvhttp_ws_fragment_append env conn [] = result at happend ⊢
      cases happend with
      | moved hmoves => exact ⟨_, rfl, hmoves.kept, hmoves.undisturbed.holds (.idle hnone)⟩
    · rw [append_first_fragment hnone hsize hcapacity hempty hlimit] at happend
      generalize uvhttp_ws_fragment_append env conn payload = result at happend ⊢
      have hpos := List.length_pos_iff.mpr hempty
      cases happend with
      | @moved conn' _ hmoves =>
        refine ⟨_, rfl, hmoves.kept, ?_⟩
        rw [started, Option.filter_some, if_pos (by simpa using hpos)]
        refine .collecting ?_ hempty
        rw [hmoves.receiver]
        exact ⟨rfl, rfl, Nat.le_refl _, hpos⟩
  | @collecting message hcollecting hne =>
    rw [Option.getD_some, ← List.length_append] at hlimit
    obtain ⟨capacity, heq, hafter⟩ := hcollecting.append hlimit
    rw [heq] at happend
    generalize uvhttp_ws_fragment_append env conn payload = result at happend ⊢
    have hpos := List.length_pos_iff.mpr hne
    cases happend with
    | @moved conn' _ hmoves =>
      refine ⟨_, rfl, hmoves.kept, ?_⟩
      rw [Option.getD_some, ← List.length_append, started, Option.filter_some,
        if_pos (by simp; omega)]
      refine .collecting ?_ (by simp [hne])
      rw [hmoves.receiver]
      exact hafter

/-- The data branch of the receive loop keeps the order of frames. -/
theorem process_data_frame_judged {env : WsEnv} (henv : env.Tame) {conn : WsConnection} {pending : Option Nat}
    (h : Holds conn pending) {header : FrameHeader} (hdata : is_data header.opcode) {payload : List UInt8}
    (hobject : pending.getD 0 + payload.length ≤ 2 ^ 63) :
    StepJudged conn (judge conn.max_message_size pending (header, payload))
      (process_data_frame env conn header payload) := by
  unfold judge process_data_frame
  cases h with
  | idle hnone =>
    rw [hnone]
    dsimp only
    by_cases hcont : header.opcode = OPCODE_CONTINUATION
    · rw [if_pos (.inl ⟨hcont, rfl⟩), if_pos hcont]
      exact .refused conn []
    · rw [if_neg hcont]
      cases hfin : header.fin with
      | false =>
        simp only [Bool.not_false, if_true]
        rw [Option.getD_none] at hobject
        by_cases hover : over_limit conn.max_message_size (0 + payload.length)
        · rw [if_pos (.inr (.inr ⟨hdata, by simp [hfin], hover⟩)), fragment_append_over hover]
          exact .refused _ []
        · rw [if_neg (by rintro (⟨h, -⟩ | ⟨-, h⟩ | ⟨-, -, h⟩); exacts [hcont h, h rfl, hover h])]
          obtain ⟨conn', heq, hkept, hholds⟩ := @fragment_append_within env henv.alloc
            { conn with fragmented_opcode := header.opcode, fragmented_size := 0, fragmented_capacity := 0,
                        fragmented_message := none } _
            (.idle rfl) (fun _ => ⟨rfl, rfl⟩) payload hobject hover
          rw [heq]
          refine .accepted ⟨hkept.is_server, hkept.max_frame_size, hkept.max_message_size, hkept.recv_buffer,
            hkept.recv_buffer_size⟩ ?_
          rw [pending_after, if_pos hdata, hfin]
          exact hholds
      | true =>
        simp only [Bool.not_true, Bool.false_eq_true, if_false]
        rw [if_neg (by rintro (⟨h, -⟩ | ⟨-, h⟩ | ⟨-, h, -⟩); exacts [hcont h, h rfl, h ⟨hfin, rfl⟩])]
        have hsame := deliver_message_undisturbed henv.discreet conn header.opcode payload
        refine .accepted hsame.toKept ?_
        rw [pending_after, if_pos hdata, hfin]
        exact hsame.holds (.idle hnone)
  | @collecting message hcollecting hne =>
    have hmessage : conn.fragmented_message = some message := hcollecting.message_eq
    rw [hmessage]
    dsimp only
    by_cases hcont : header.opcode = OPCODE_CONTINUATION
    · rw [if_neg (not_not_intro hcont)]
      by_cases hover : over_limit conn.max_message_size (message.length + payload.length)
      · have hsize : conn.fragmented_size = message.length := hcollecting.size_eq
        rw [if_pos (.inr (.inr ⟨hdata, by simp, hover⟩)), fragment_append_over (by rw [hsize]; exact hover)]
        exact .refused conn []
      · rw [if_neg (by
          rintro (⟨-, h⟩ | ⟨h, -⟩ | ⟨-, -, h⟩)
          · cases h
          · rw [hcont] at h
            revert h
            decide
          · exact hover h)]
        obtain ⟨conn', heq, hkept, hholds⟩ := fragment_append_within henv.alloc (.collecting hcollecting hne)
          (fun h => by cases h) hobject hover
        rw [heq]
        cases hfin : header.fin with
        | false =>
          refine .accepted hkept ?_
          rw [pending_after, if_pos hdata, hfin]
          exact hholds
        | true =>
          have hsame := deliver_message_undisturbed henv.discreet conn' conn'.fragmented_opcode
            (conn'.fragmented_message.getD [])
          have hall := hkept.trans hsame.toKept
          refine .accepted ⟨hall.is_server, hall.max_frame_size, hall.max_message_size, hall.recv_buffer,
            hall.recv_buffer_size⟩ ?_
          rw [pending_after, if_pos hdata, hfin]
          exact .idle rfl
    · have hother : header.opcode = OPCODE_TEXT ∨ header.opcode = OPCODE_BINARY := by tauto
      rw [if_pos hcont, if_pos (.inr (.inl ⟨hother, by simp⟩))]
      exact .refused conn []

/-- A complete frame is accepted or refused as it is judged. -/
theorem process_frame_judged {env : WsEnv} (henv : env.Tame) {conn : WsConnection} {pending : Option Nat}
    (h : Holds conn pending) {header : FrameHeader} {payload : List UInt8} (following : List UInt8)
    (hobject : pending.getD 0 + payload.length ≤ 2 ^ 63) :
    StepJudged conn (judge conn.max_message_size pending (header, payload))
      (process_frame env conn header payload following) := by
  unfold process_frame
  by_cases hdata : is_data header.opcode
  · rw [if_pos hdata]
    exact process_data_frame_judged henv h hdata hobject
  · have hsame : started pending = pending := by
      cases h with
      | idle hnone => rfl
      | collecting hcollecting hne =>
        rw [started, Option.filter_some, if_pos (by simpa using List.length_pos_iff.mpr hne)]
    have hjudge : judge conn.max_message_size pending (header, payload) = some (pending, []) := by
      rw [judge, if_neg (by
        rintro (⟨h, -⟩ | ⟨h, -⟩ | ⟨h, -⟩)
        · exact hdata (.inr (.inr h))
        · exact hdata (h.imp id .inl)
        · exact hdata h), pending_after, if_neg hdata, hsame]
    rw [if_neg hdata, hjudge]
    split
    · have hclosed := ((deliver_close_undisturbed henv.discreet conn payload following).trans
        (echo_close_moves env conn.user_data (deliver_close env conn payload following).1 payload).1.undisturbed).trans
        (.with_state _ .CLOSED)
      exact .accepted hclosed.toKept (hclosed.holds h)
    · split
      · split
        · have hpong := (send_frame_moves env conn payload OPCODE_PONG).1.undisturbed
          exact .accepted hpong.toKept (hpong.holds h)
        · exact .accepted (Undisturbed.refl conn).toKept h
      · exact .accepted (Undisturbed.refl conn).toKept h

/-- Removing a processed frame leaves what followed it in the buffer. -/
theorem remove_frame_kept {conn conn' : WsConnection} {payload : List UInt8} {total : Nat}
    (h : Kept (unmask_frame conn payload total) conn') (hpayload : payload.length ≤ total)
    (htotal : total ≤ conn.recv_buffer.length) :
    (remove_frame conn' total).recv_buffer = conn.recv_buffer.drop total := by
  rw [remove_frame]
  dsimp only
  rw [h.recv_buffer, unmask_frame]
  dsimp only
  rw [List.drop_append_of_le_length, List.drop_eq_nil_of_le, List.nil_append]
  · rw [List.length_append, List.length_take]
    omega
  · rw [List.length_append, List.length_take]
    omega

/-- The limits and the room for received bytes are the same. -/
structure SameRoom (conn conn' : WsConnection) : Prop where
  is_server : conn'.is_server = conn.is_server
  max_frame_size : conn'.max_frame_size = conn.max_frame_size
  max_message_size : conn'.max_message_size = conn.max_message_size
  recv_limit : conn'.recv_limit = conn.recv_limit
  size_pos : 0 < conn.recv_buffer_size → 0 < conn'.recv_buffer_size

theorem SameRoom.refl (conn : WsConnection) : SameRoom conn conn := ⟨rfl, rfl, rfl, rfl, id⟩

theorem SameRoom.trans {conn conn' conn'' : WsConnection} (h : SameRoom conn conn') (h' : SameRoom conn' conn'') :
    SameRoom conn conn'' :=
  ⟨h'.is_server.trans h.is_server, h'.max_frame_size.trans h.max_frame_size,
    h'.max_message_size.trans h.max_message_size, h'.recv_limit.trans h.recv_limit, h'.size_pos ∘ h.size_pos⟩

theorem Kept.remove_frame_same_room {conn conn' : WsConnection} {payload : List UInt8} {total : Nat}
    (h : Kept (unmask_frame conn payload total) conn') : SameRoom conn (remove_frame conn' total) := by
  have hsize : (remove_frame conn' total).recv_buffer_size = conn.recv_buffer_size := h.recv_buffer_size
  have hmax : (remove_frame conn' total).max_frame_size = conn.max_frame_size := h.max_frame_size
  refine ⟨h.is_server, hmax, h.max_message_size, ?_, fun hpos => by rw [hsize]; exact hpos⟩
  rw [WsConnection.recv_limit, hsize, hmax, WsConnection.recv_limit]

/-- How the result of a call matches the judgement of the received bytes: what
is collected, and what is left in the buffer. -/
inductive RunJudged (conn : WsConnection) :
    Option (Option Nat × List UInt8) → UvhttpError × WsConnection × List WsEvent → Prop where
  | refused {error : UvhttpError} (conn' : WsConnection) (events : List WsEvent) : error ≠ .OK →
      RunJudged conn none (error, conn', events)
  | accepted {conn' : WsConnection} {pending : Option Nat} {events : List WsEvent} :
      SameRoom conn conn' → Holds conn' pending →
        RunJudged conn (some (pending, conn'.recv_buffer)) (.OK, conn', events)

/-- The receive loop judges the frames in its buffer. -/
theorem process_frames_judged {env : WsEnv} (henv : env.Tame) {fuel : Nat} {conn : WsConnection}
    {pending : Option Nat} (h : Holds conn pending) (hfuel : conn.recv_buffer.length ≤ fuel)
    (hobject : pending.getD 0 + conn.recv_buffer.length ≤ 2 ^ 63) :
    RunJudged conn (decode (decoder conn.is_server conn.max_frame_size) (judge conn.max_message_size) pending
      conn.recv_buffer).final (process_frames env fuel conn) := by
  induction fuel generalizing conn pending with
  | zero =>
    have hnil : conn.recv_buffer = [] := List.length_eq_zero_iff.mp (by omega)
    rw [decode_more (by rw [hnil]; exact Decoder.next_nil _)]
    exact .accepted (.refl conn) h
  | succ fuel ih =>
    rw [process_frames]
    by_cases hshort : conn.recv_buffer.length < 2
    · rw [if_pos hshort, decode_more (by
        simp only [decoder, next_frame]
        rw [if_pos hshort])]
      exact .accepted (.refl conn) h
    · rw [if_neg hshort, process_step_eq env (by omega),
        show conn.profile.decoder = decoder conn.is_server conn.max_frame_size from rfl]
      cases hnext : (decoder conn.is_server conn.max_frame_size).next conn.recv_buffer with
      | more =>
        rw [decode_more hnext]
        exact .accepted (.refl conn) h
      | bad =>
        rw [decode_bad hnext]
        exact .refused conn [] (by decide)
      | frame frame total =>
        obtain ⟨header, payload⟩ := frame
        dsimp only
        have hle := (decoder conn.is_server conn.max_frame_size).size_le hnext
        have hpos := (decoder conn.is_server conn.max_frame_size).size_pos hnext
        have hpayload : payload.length ≤ total := decoder_payload_le hnext
        have hunmasked : Holds (unmask_frame conn payload total) pending := by
          cases h with
          | idle hnone => exact .idle hnone
          | collecting hcollecting hne => exact .collecting hcollecting hne
        have hstep := @process_frame_judged env henv _ _ hunmasked header payload
          (conn.recv_buffer.drop total) (by omega)
        change StepJudged _ (judge conn.max_message_size pending (header, payload)) _ at hstep
        cases hjudge : judge conn.max_message_size pending (header, payload) with
        | none =>
          rw [decode_refused hnext hjudge]
          rw [hjudge] at hstep
          generalize process_frame env (unmask_frame conn payload total) header payload
            (conn.recv_buffer.drop total) = result at hstep ⊢
          cases hstep with
          | refused conn' events => exact .refused conn' events (by decide)
        | some next =>
          obtain ⟨pending', made⟩ := next
          rw [decode_frame hnext hjudge, Outcome.after_final]
          rw [hjudge] at hstep
          generalize process_frame env (unmask_frame conn payload total) header payload
            (conn.recv_buffer.drop total) = result at hstep ⊢
          cases hstep with
          | @accepted conn' _ events hkept hholds =>
            have hbuffer := remove_frame_kept hkept hpayload hle
            have hremoved : Holds (remove_frame conn' total) pending' := by
              cases hholds with
              | idle hnone => exact .idle hnone
              | collecting hcollecting hne => exact .collecting hcollecting hne
            have hgrown : pending'.getD 0 ≤ pending.getD 0 + payload.length := judge_le hjudge
            have hlater := ih hremoved (by rw [hbuffer, List.length_drop]; omega)
              (by rw [hbuffer, List.length_drop]; omega)
            rw [hbuffer] at hlater
            have hroom := hkept.remove_frame_same_room
            rw [hroom.is_server, hroom.max_frame_size, hroom.max_message_size] at hlater
            dsimp only [FrameStep.consume]
            generalize process_frames env fuel (remove_frame conn' total) = result at hlater ⊢
            generalize (decode (decoder conn.is_server conn.max_frame_size) (judge conn.max_message_size) pending'
              (conn.recv_buffer.drop total)).final = final at hlater ⊢
            cases hlater with
            | refused conn'' later herror => exact .refused conn'' _ herror
            | accepted hsame hafter => exact .accepted (hroom.trans hsame) hafter

/-- A call judges what is buffered together with the new bytes. -/
theorem process_data_judged {env : WsEnv} (henv : env.Tame) {conn : WsConnection} {pending : Option Nat}
    (h : Holds conn pending) (hpos : 0 < conn.recv_buffer_size) {data : List UInt8}
    (hroom : conn.recv_buffer.length + data.length ≤ conn.recv_limit)
    (hobject : pending.getD 0 + (conn.recv_buffer ++ data).length ≤ 2 ^ 63) :
    RunJudged conn (decode (decoder conn.is_server conn.max_frame_size) (judge conn.max_message_size) pending
      (conn.recv_buffer ++ data)).final (uvhttp_ws_process_data env conn data) := by
  have hgrow := grow_recv_buffer_spec henv.alloc hpos data.length
  rw [if_pos hroom] at hgrow
  obtain ⟨grown, heq, hreceiver, hprofile, hbuffer, -, hgrown, hlimit⟩ := hgrow
  have hsame : SameRoom conn { grown with recv_buffer := grown.recv_buffer ++ data } :=
    ⟨congrArg Profile.is_server hprofile, congrArg Profile.max_frame_size hprofile,
      congrArg Profile.max_message_size hprofile, hlimit, fun _ => hgrown⟩
  have hholds : Holds { grown with recv_buffer := grown.recv_buffer ++ data } pending := by
    cases h with
    | idle hnone => exact .idle ((congrArg Receiver.message hreceiver).trans hnone)
    | collecting hcollecting hne =>
      rw [← hreceiver] at hcollecting
      exact .collecting hcollecting hne
  unfold uvhttp_ws_process_data
  rw [heq]
  dsimp only
  have hdata : grown.recv_buffer ++ data = conn.recv_buffer ++ data := by rw [hbuffer]
  generalize hreceived : ({ grown with recv_buffer := grown.recv_buffer ++ data } : WsConnection) = received
    at hsame hholds ⊢
  have hbytes : received.recv_buffer = conn.recv_buffer ++ data := by rw [← hreceived, hdata]
  have hframes := process_frames_judged henv hholds (Nat.le_refl _) (by rw [hbytes]; exact hobject)
  rw [hsame.is_server, hsame.max_frame_size, hsame.max_message_size, hbytes] at hframes
  rw [hdata]
  generalize process_frames env _ _ = result at hframes ⊢
  generalize (decode _ _ _ _).final = final at hframes ⊢
  cases hframes with
  | refused conn' events herror => exact .refused conn' events herror
  | accepted hroom' hafter => exact .accepted (hsame.trans hroom') hafter

/-- Bytes that are judged are collected at most once. -/
theorem decode_judge_le {is_server : Bool} {max_frame_size max_message_size : Int} {pending pending' : Option Nat}
    {buffer rest : List UInt8}
    (h : (decode (decoder is_server max_frame_size) (judge max_message_size) pending buffer).final =
      some (pending', rest)) :
    pending'.getD 0 + rest.length ≤ pending.getD 0 + buffer.length := by
  induction pending, buffer using
    decode_induction (decoder is_server max_frame_size) (judge max_message_size) with
  | more pending buffer hnext =>
    rw [decode_more hnext] at h
    cases h
    exact Nat.le_refl _
  | bad pending buffer hnext =>
    rw [decode_bad hnext] at h
    cases h
  | refused pending buffer frame total hnext hjudge =>
    rw [decode_refused hnext hjudge] at h
    cases h
  | frame pending buffer frame total after events hnext hjudge ih =>
    rw [decode_frame hnext hjudge, Outcome.after_final] at h
    have hlater := ih h
    have hcollected := judge_le hjudge
    have hpayload := decoder_payload_le hnext
    have hle := (decoder is_server max_frame_size).size_le hnext
    rw [List.length_drop] at hlater
    omega

/-- Every chunk finds room in the receive buffer when it arrives. -/
def FitsBuffer (env : WsEnv) (conn : WsConnection) : List (List UInt8) → Prop
  | [] => True
  | chunk :: chunks => conn.recv_buffer.length + chunk.length ≤ conn.recv_limit ∧
      ((uvhttp_ws_process_data env conn chunk).1 = .OK →
        FitsBuffer env (uvhttp_ws_process_data env conn chunk).2.1 chunks)

theorem process_chunks_judged {env : WsEnv} (henv : env.Tame) {conn : WsConnection} {pending : Option Nat}
    (h : Holds conn pending) (hpos : 0 < conn.recv_buffer_size)
    (hdrained : (decoder conn.is_server conn.max_frame_size).next conn.recv_buffer = .more)
    {chunks : List (List UInt8)} (hfits : FitsBuffer env conn chunks)
    (hobject : pending.getD 0 + (conn.recv_buffer ++ chunks.flatten).length ≤ 2 ^ 63) :
    (process_chunks env conn chunks).1 ≠ .OK ↔
      (decode (decoder conn.is_server conn.max_frame_size) (judge conn.max_message_size) pending
        (conn.recv_buffer ++ chunks.flatten)).final = none := by
  induction chunks generalizing conn pending with
  | nil =>
    rw [List.flatten_nil, List.append_nil, decode_more hdrained, process_chunks]
    simp
  | cons chunk chunks ih =>
    obtain ⟨hroom, hlater⟩ := hfits
    rw [List.flatten_cons, ← List.append_assoc] at hobject ⊢
    have hdata := process_data_judged henv h hpos hroom (by rw [List.length_append] at hobject; omega)
    rw [decode_append, process_chunks]
    generalize hfinal : (decode (decoder conn.is_server conn.max_frame_size) (judge conn.max_message_size) pending
      (conn.recv_buffer ++ chunk)).final = final at hdata
    generalize uvhttp_ws_process_data env conn chunk = result at hdata hlater ⊢
    cases hdata with
    | @refused error conn' events herror =>
      rw [Outcome.andThen_none hfinal, hfinal]
      refine iff_of_true ?_ rfl
      cases error <;> first | exact herror | exact absurd rfl herror
    | @accepted conn' pending' events hsame hholds =>
      have hle := decode_judge_le hfinal
      have hmore := (decode_final hfinal).1
      rw [Outcome.andThen_some hfinal, Outcome.after_final]
      have hrest := ih hholds (hsame.size_pos hpos)
        (by rw [hsame.is_server, hsame.max_frame_size]; exact hmore) (hlater rfl) (by
          simp only [List.length_append] at hobject hle ⊢
          omega)
      rw [hsame.is_server, hsame.max_frame_size, hsame.max_message_size] at hrest
      exact hrest

end uvhttp.websocket
