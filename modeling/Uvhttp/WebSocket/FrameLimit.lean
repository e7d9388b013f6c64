import Uvhttp.WebSocket.Chunking

open incremental

namespace uvhttp.websocket

/-- A server connection that has received nothing since its handshake. -/
structure WsConnection.Fresh (conn : WsConnection) : Prop where
  state : conn.state = .OPEN
  server : conn.is_server = true
  callback : conn.on_message = true
  buffer : conn.recv_buffer = []
  buffer_size : conn.recv_buffer_size = 64 * 1024
  idle : conn.fragmented_message = none

/-- The message of the frame has been passed to `on_message`. -/
def Delivered (result : UvhttpError × WsConnection × List WsEvent) (f : WireFrame) : Prop :=
  WsEvent.on_message f.opcode f.payload ∈ result.2.2

/-- The connection while a frame arrives: it looks as it did when the frame
began, except for the received bytes. -/
structure Arriving (conn : WsConnection) (front : List UInt8) (conn' : WsConnection) : Prop where
  well : conn'.WellFormed
  buffer : conn'.recv_buffer = front
  receiver : conn'.receiver = conn.receiver
  profile : conn'.profile = conn.profile
  limit : conn'.recv_limit = conn.recv_limit

section arriving

variable {env : WsEnv} (halloc : ∀ calls size, env.alloc calls size = true) {conn conn' : WsConnection}
  {front : List UInt8} (h : Arriving conn front conn') {data : List UInt8}

include halloc h

/-- A chunk beyond the limit of the receive buffer is refused. -/
theorem Arriving.overflow (hroom : conn.recv_limit < front.length + data.length) :
    uvhttp_ws_process_data env conn' data = (.INVALID_PARAM, conn', []) := by
  have hgrow := grow_recv_buffer_spec halloc h.well.size_pos data.length
  rw [h.buffer, h.limit, if_neg (by omega)] at hgrow
  unfold uvhttp_ws_process_data
  rw [hgrow]

/-- A chunk that finds room is appended before the receive loop runs. -/
theorem Arriving.received (hroom : front.length + data.length ≤ conn.recv_limit) :
    ∃ received : WsConnection,
      uvhttp_ws_process_data env conn' data = process_frames env received.recv_buffer.length received ∧
        received.recv_buffer = front ++ data ∧ received.receiver = conn.receiver ∧
        received.profile = conn.profile ∧ received.recv_limit = conn.recv_limit ∧
        received.recv_buffer.length ≤ received.recv_buffer_size ∧ 0 < received.recv_buffer_size := by
  have hgrow := grow_recv_buffer_spec halloc h.well.size_pos data.length
  rw [h.buffer, h.limit, if_pos hroom] at hgrow
  obtain ⟨grown, heq, hreceiver, hprofile, hbuffer, hfits, hpos, hlimit⟩ := hgrow
  refine ⟨{ grown with recv_buffer := grown.recv_buffer ++ data }, ?_, ?_, ?_, ?_, hlimit, ?_, hpos⟩
  · unfold uvhttp_ws_process_data
    rw [heq]
  · rw [hbuffer]
  · exact hreceiver.trans h.receiver
  · exact hprofile.trans h.profile
  · simp only [hbuffer, List.length_append]
    exact hfits

/-- Bytes that do not complete a frame are kept and make no callback. -/
theorem Arriving.more (hroom : front.length + data.length ≤ conn.recv_limit)
    (hnext : conn.profile.decoder.next (front ++ data) = .more) :
    ∃ conn'', uvhttp_ws_process_data env conn' data = (.OK, conn'', []) ∧ Arriving conn (front ++ data) conn'' := by
  obtain ⟨received, heq, hbuffer, hreceiver, hprofile, hlimit, hfits, hpos⟩ := h.received halloc hroom
  have hmore : received.profile.decoder.next received.recv_buffer = .more := by
    rw [hprofile, hbuffer]
    exact hnext
  refine ⟨received, ?_, ⟨⟨hpos, hfits, hmore⟩, hbuffer, hreceiver, hprofile, hlimit⟩⟩
  rw [heq]
  cases received.recv_buffer.length with
  | zero => rfl
  | succ fuel =>
    rw [process_frames]
    by_cases hshort : received.recv_buffer.length < 2
    · rw [if_pos hshort]
    · rw [if_neg hshort, process_step_eq env (by omega), hmore]

/-- Bytes that the decoder refuses end the connection without a callback. -/
theorem Arriving.refused (hroom : front.length + data.length ≤ conn.recv_limit)
    (hnext : conn.profile.decoder.next (front ++ data) = .bad) :
    ∃ conn'', uvhttp_ws_process_data env conn' data = (.INVALID_PARAM, conn'', []) := by
  obtain ⟨received, heq, hbuffer, -, hprofile, -, -, -⟩ := h.received halloc hroom
  have hbad : received.profile.decoder.next received.recv_buffer = .bad := by
    rw [hprofile, hbuffer]
    exact hnext
  have hlen : 2 ≤ received.recv_buffer.length := by
    by_contra hshort
    simp only [Profile.decoder, websocket.decoder, next_frame] at hbad
    rw [if_pos (by omega)] at hbad
    cases hbad
  refine ⟨received, ?_⟩
  obtain ⟨fuel, hfuel⟩ := Nat.exists_eq_add_of_le' (Nat.le_of_lt hlen)
  rw [heq, hfuel, process_frames, if_neg (by omega), process_step_eq env hlen, hbad]

/-- The last byte of a whole text or binary frame delivers its message, whatever
the callback does then. -/
theorem Arriving.delivered {f : WireFrame} (hcallback : conn.on_message = true)
    (hidle : conn.fragmented_message = none) (hopcode : f.opcode = OPCODE_TEXT ∨ f.opcode = OPCODE_BINARY)
    (hfin : f.fin = true) (hroom : front.length + data.length ≤ conn.recv_limit)
    (hnext : conn.profile.decoder.next (front ++ data) = .frame f.frame f.bytes.length) :
    Delivered (uvhttp_ws_process_data env conn' data) f := by
  obtain ⟨received, heq, hbuffer, hreceiver, hprofile, -, -, -⟩ := h.received halloc hroom
  have hframe : received.profile.decoder.next received.recv_buffer = .frame f.frame f.bytes.length := by
    rw [hprofile, hbuffer]
    exact hnext
  have hlen : 2 ≤ received.recv_buffer.length := by
    by_contra hshort
    simp only [Profile.decoder, websocket.decoder, next_frame] at hframe
    rw [if_pos (by omega)] at hframe
    cases hframe
  have hmasked : f.opcode &&& 0x0F = f.opcode := by
    rcases hopcode with htext | hbinary
    · rw [htext]
      decide
    · rw [hbinary]
      decide
  have hnew : f.opcode ≠ OPCODE_CONTINUATION := by
    rcases hopcode with htext | hbinary
    · rw [htext]
      decide
    · rw [hbinary]
      decide
  have hon : received.on_message = true := (congrArg Profile.on_message hprofile).trans hcallback
  have hnone : received.fragmented_message = none := (congrArg Receiver.message hreceiver).trans hidle
  obtain ⟨fuel, hfuel⟩ := Nat.exists_eq_add_of_le' (Nat.le_of_lt hlen)
  have hstep : ∃ next, process_step env received = .next next [.on_message f.opcode f.payload] := by
    rw [process_step_eq env hlen, hframe]
    simp only [WireFrame.frame, process_frame, built_header, hmasked]
    rw [if_pos (hopcode.elim .inl fun hbinary => .inr (.inl hbinary))]
    simp only [process_data_frame, unmask_frame, hnone, hnew, if_false, hfin, Bool.not_true, Bool.false_eq_true,
      deliver_message, hon, if_true, FrameStep.consume]
    exact ⟨_, rfl⟩
  obtain ⟨next, hstep⟩ := hstep
  unfold Delivered
  rw [heq, hfuel, process_frames, if_neg (by omega), hstep]
  exact List.mem_append_left _ List.mem_cons_self

end arriving

section chunks

variable {env : WsEnv} (halloc : ∀ calls size, env.alloc calls size = true) {conn : WsConnection} {f : WireFrame}

/-- Later chunks do not take back what an earlier one has delivered. -/
theorem Delivered.chunks {conn' : WsConnection} {chunk : List UInt8}
    (h : Delivered (uvhttp_ws_process_data env conn' chunk) f) (chunks : List (List UInt8)) :
    Delivered (process_chunks env conn' (chunk :: chunks)) f := by
  rw [process_chunks]
  generalize uvhttp_ws_process_data env conn' chunk = result at h ⊢
  obtain ⟨error, after, events⟩ := result
  cases error <;> first | exact h | exact List.mem_append_left _ h

include halloc

/-- An accepted frame that fits the receive buffer is delivered, however it is
cut. -/
theorem delivered_of_fits (hcallback : conn.on_message = true) (hidle : conn.fragmented_message = none)
    (hopcode : f.opcode = OPCODE_TEXT ∨ f.opcode = OPCODE_BINARY) (hfin : f.fin = true)
    (haccepted : f.Accepted conn.is_server conn.max_frame_size) (hfits : f.bytes.length ≤ conn.recv_limit)
    {chunks : List (List UInt8)} {front : List UInt8} {conn' : WsConnection} (harriving : Arriving conn front conn')
    (hbytes : front ++ chunks.flatten = f.bytes) (hpart : front.length < f.bytes.length) :
    Delivered (process_chunks env conn' chunks) f := by
  induction chunks generalizing front conn' with
  | nil =>
    rw [List.flatten_nil, List.append_nil] at hbytes
    rw [hbytes] at hpart
    exact absurd hpart (Nat.lt_irrefl _)
  | cons chunk chunks ih =>
    rw [List.flatten_cons, ← List.append_assoc] at hbytes
    have hlength := congrArg List.length hbytes
    simp only [List.length_append] at hlength
    have hroom : front.length + chunk.length ≤ conn.recv_limit := by omega
    by_cases hwhole : front.length + chunk.length = f.bytes.length
    · have hlast : front ++ chunk = f.bytes := by
        apply List.IsPrefix.eq_of_length ⟨chunks.flatten, hbytes⟩
        rw [List.length_append]
        exact hwhole
      have hnext := haccepted.encodes []
      rw [List.append_nil, ← hlast] at hnext
      apply Delivered.chunks
      apply harriving.delivered halloc hcallback hidle hopcode hfin hroom
      rw [← hlast]
      exact hnext
    · have hnext : conn.profile.decoder.next (front ++ chunk) = .more := by
        have htake := haccepted.encodes.next_of_lt
          (show (front ++ chunk).length < f.bytes.length by rw [List.length_append]; omega)
        rw [← hbytes, List.take_left] at htake
        exact htake
      obtain ⟨conn'', heq, hnow⟩ := harriving.more halloc hroom hnext
      have hlater := ih hnow hbytes (by rw [List.length_append]; omega)
      rw [process_chunks, heq]
      exact hlater

/-- A stream none of whose beginnings that fit the receive buffer holds a frame
makes no callback, however it is cut. -/
theorem silent_of_no_frame {stream : List UInt8}
    (hnone : ∀ front, front <+: stream → front.length ≤ conn.recv_limit →
      ∀ frame size, conn.profile.decoder.next front ≠ .frame frame size)
    {chunks : List (List UInt8)} {front : List UInt8} {conn' : WsConnection} (harriving : Arriving conn front conn')
    (hbytes : front ++ chunks.flatten = stream) : (process_chunks env conn' chunks).2.2 = [] := by
  induction chunks generalizing front conn' with
  | nil => rfl
  | cons chunk chunks ih =>
    rw [List.flatten_cons, ← List.append_assoc] at hbytes
    rw [process_chunks]
    by_cases hroom : front.length + chunk.length ≤ conn.recv_limit
    · have hfirst := hnone (front ++ chunk) ⟨chunks.flatten, hbytes⟩
        (by rw [List.length_append]; exact hroom)
      cases hnext : conn.profile.decoder.next (front ++ chunk) with
      | more =>
        obtain ⟨conn'', heq, hnow⟩ := harriving.more halloc hroom hnext
        rw [heq]
        exact ih hnow hbytes
      | bad =>
        obtain ⟨conn'', heq⟩ := harriving.refused halloc hroom hnext
        rw [heq]
      | frame frame size => exact absurd hnext (hfirst frame size)
    · rw [harriving.overflow halloc (by omega)]

end chunks

/-- What a fresh connection can receive at a time. -/
theorem WsConnection.Fresh.recv_limit_eq {conn : WsConnection} (h : conn.Fresh) (hpos : 0 < conn.max_frame_size)
    (hint : conn.max_frame_size < 2 ^ 31) : conn.recv_limit = max (64 * 1024) conn.max_frame_size.toNat := by
  have hdoubling : largest_doubling (64 * 1024) = 2 ^ 63 := by
    have hlog : Nat.log2 (64 * 1024) = 16 := by decide
    rw [largest_doubling, hlog]
    rfl
  have hsize : size_t conn.max_frame_size = conn.max_frame_size.toNat := by
    unfold size_t
    omega
  rw [WsConnection.recv_limit, h.buffer_size, hdoubling, hsize]
  omega

theorem WsConnection.Fresh.arriving {conn : WsConnection} (h : conn.Fresh) : Arriving conn [] conn := by
  refine ⟨⟨?_, ?_, ?_⟩, h.buffer, rfl, rfl, rfl⟩
  · rw [h.buffer_size]
    exact Nat.succ_pos _
  · rw [h.buffer]
    exact Nat.zero_le _
  · rw [h.buffer]
    exact Decoder.next_nil _

/-- A fresh server connection is sent one whole masked text or binary frame in
chunks of any size. Being delivered and having a payload within `max_frame_size`
are the same exactly when the payload is too long, or the frame with its header
and masking key still fits a receive buffer of 64 KiB or `max_frame_size` bytes,
whichever is more. -/
theorem frame_limit_exact_iff {env : WsEnv} (halloc : ∀ calls size, env.alloc calls size = true)
    {conn : WsConnection} (hconn : conn.Fresh) (hpos : 0 < conn.max_frame_size)
    (hint : conn.max_frame_size < 2 ^ 31) {f : WireFrame}
    (hopcode : f.opcode = OPCODE_TEXT ∨ f.opcode = OPCODE_BINARY) (hfin : f.fin = true) (hmask : f.mask = true)
    (hlen : f.payload.length < 2 ^ 63) {chunks : List (List UInt8)} (hchunks : chunks.flatten = f.bytes) :
    (Delivered (process_chunks env conn chunks) f ↔ (f.payload.length : Int) ≤ conn.max_frame_size) ↔
      conn.max_frame_size < f.payload.length ∨
        ((frame_header_size f.payload.length + 4 + f.payload.length : Nat) : Int) ≤
          max (64 * 1024) conn.max_frame_size := by
  have hlimit := hconn.recv_limit_eq hpos hint
  have hbytes : f.bytes.length = frame_header_size f.payload.length + 4 + f.payload.length := by
    rw [f.length_bytes, total_frame_size]
    simp only [built_header, hmask, if_true]
    omega
  have hsize : size_t conn.max_frame_size = conn.max_frame_size.toNat := by
    unfold size_t
    omega
  have hstart : [] ++ chunks.flatten = f.bytes := hchunks
  by_cases hlarge : conn.max_frame_size < f.payload.length
  · have hrefused : conn.profile.decoder.next f.bytes = .bad := by
      have hnext := f.next_bytes conn.is_server conn.max_frame_size hlen []
      rw [List.append_nil, if_pos (.inr (.inr (.inr (by
        rw [hsize]
        change f.payload.length > _
        omega))))] at hnext
      exact hnext
    have hsilent : (process_chunks env conn chunks).2.2 = [] := by
      apply silent_of_no_frame halloc _ hconn.arriving hstart
      rintro front ⟨rest, hrest⟩ - frame size hframe
      have hwhole := conn.profile.decoder.frame_append rest hframe
      rw [hrest, hrefused] at hwhole
      cases hwhole
    have hnot : ¬ Delivered (process_chunks env conn chunks) f := by
      unfold Delivered
      rw [hsilent]
      exact List.not_mem_nil
    refine ⟨fun _ => .inl hlarge, fun _ => ⟨fun h => absurd h hnot, fun h => by omega⟩⟩
  · have haccepted : f.Accepted conn.is_server conn.max_frame_size := by
      refine ⟨?_, ?_, fun _ => hmask, by omega, hlen⟩
      · rcases hopcode with htext | hbinary
        · rw [htext]
          decide
        · rw [hbinary]
          decide
      · intro hcontrol
        rcases hopcode with htext | hbinary
        · rw [htext] at hcontrol
          exact absurd hcontrol (by decide)
        · rw [hbinary] at hcontrol
          exact absurd hcontrol (by decide)
    by_cases hfits : f.bytes.length ≤ conn.recv_limit
    · have hdelivered : Delivered (process_chunks env conn chunks) f :=
        delivered_of_fits halloc hconn.callback hconn.idle hopcode hfin haccepted hfits hconn.arriving hstart (by
          rw [hbytes, List.length_nil]
          omega)
      refine ⟨fun _ => .inr (by omega), fun _ => ⟨fun _ => by omega, fun _ => hdelivered⟩⟩
    · have hsilent : (process_chunks env conn chunks).2.2 = [] := by
        apply silent_of_no_frame halloc _ hconn.arriving hstart
        rintro front hprefix hroom frame size hframe
        have htake := haccepted.encodes.next_of_lt (show front.length < f.bytes.length by omega)
        rw [← List.prefix_iff_eq_take.mp hprefix] at htake
        change conn.profile.decoder.next front = .more at htake
        rw [htake] at hframe
        cases hframe
      have hnot : ¬ Delivered (process_chunks env conn chunks) f := by
        unfold Delivered
        rw [hsilent]
        exact List.not_mem_nil
      refine ⟨fun h => absurd (h.mpr (by omega)) hnot, fun h => ?_⟩
      rcases h with htoo | hroom
      · exact absurd htoo hlarge
      · exact absurd hroom (by omega)

theorem opened_fresh (max_frame_size max_message_size : Int) : (opened max_frame_size max_message_size).Fresh :=
  ⟨rfl, rfl, rfl, rfl, rfl, rfl⟩

/-- A text frame of one byte, in two pieces. -/
theorem frame_limit_exact_text :
    let f : WireFrame := ⟨true, OPCODE_TEXT, true, [0, 0, 0, 0], [0x61], rfl⟩
    Delivered (process_chunks .obliging (opened 1024 1024) [[0x81, 0x81, 0, 0], [0, 0, 0x61]]) f ↔
      (f.payload.length : Int) ≤ 1024 := by
  apply (frame_limit_exact_iff WsEnv.obliging_quiet.alloc (opened_fresh 1024 1024) (by decide) (by decide)
    (.inl rfl) rfl rfl (by decide) (by decide)).mpr
  right
  decide

/-- A frame whose payload is exactly as long as allowed is refused: the receive
buffer may grow to `max_frame_size` bytes, and header and key do not fit. -/
theorem frame_limit_payload_refused :
    let f : WireFrame := ⟨true, OPCODE_BINARY, true, [0, 0, 0, 0], List.replicate 100000 0, rfl⟩
    (f.payload.length : Int) ≤ 100000 ∧
      ¬ Delivered (process_chunks .obliging (opened 100000 1000000) [f.bytes]) f := by
  intro f
  have hpayload : f.payload.length = 100000 := List.length_replicate
  have hmask : f.mask = true := rfl
  clear_value f
  refine ⟨by omega, ?_⟩
  have hsize : f.bytes.length = 100014 := by
    rw [f.length_bytes, total_frame_size, built_header, hpayload, hmask]
    rfl
  have hlimit : (opened 100000 1000000).recv_limit = 100000 :=
    (opened_fresh 100000 1000000).recv_limit_eq (by decide) (by decide)
  have hoverflow := (opened_fresh 100000 1000000).arriving.overflow WsEnv.obliging_quiet.alloc
    (show (opened 100000 1000000).recv_limit < [].length + f.bytes.length by rw [hlimit, hsize]; decide)
  unfold Delivered
  rw [process_chunks, hoverflow]
  exact List.not_mem_nil

end uvhttp.websocket
