import Uvhttp.WebSocket.Refinement

open incremental

namespace uvhttp.websocket

def Profile.decoder (p : Profile) : Decoder UInt8 Frame := websocket.decoder p.is_server p.max_frame_size

/-- What a caller sees of a result: whether the connection lives on, in which
receiver state and with which bytes left, and the callbacks made. -/
def observe (result : UvhttpError × WsConnection × List WsEvent) : Outcome UInt8 Receiver WsEvent where
  final := if result.1 = .OK then some (result.2.1.receiver, result.2.1.recv_buffer) else none
  events := callbacks result.2.2

/-- The largest size that doubling reaches without overflow. -/
def largest_doubling (size : Nat) : Nat := size * 2 ^ (63 - Nat.log2 size)

/-- The most bytes the receive buffer can be made to hold. -/
def WsConnection.recv_limit (conn : WsConnection) : Nat :=
  max conn.recv_buffer_size (min (size_t conn.max_frame_size) (largest_doubling conn.recv_buffer_size))

theorem le_largest_doubling (size : Nat) : size ≤ largest_doubling size :=
  Nat.le_mul_of_pos_right size (Nat.two_pow_pos _)

theorem largest_doubling_double {size : Nat} (hpos : 0 < size) (hsmall : size ≤ SIZE_MAX / 2) :
    largest_doubling (size * 2) = largest_doubling size := by
  have hlog : Nat.log2 (size * 2) = Nat.log2 size + 1 := by
    rw [Nat.mul_comm, Nat.log2_two_mul (by omega)]
  have hbound : Nat.log2 size < 63 := (Nat.log2_lt (by omega)).mpr (by
    unfold SIZE_MAX at hsmall
    omega)
  unfold largest_doubling
  rw [hlog, Nat.mul_assoc, ← Nat.pow_succ']
  congr 2
  omega

theorem largest_doubling_of_large {size : Nat} (hlarge : SIZE_MAX / 2 < size) :
    largest_doubling size = size := by
  have hlog : 63 ≤ Nat.log2 size := (Nat.le_log2 (by omega)).mpr (by
    unfold SIZE_MAX at hlarge
    omega)
  rw [largest_doubling, Nat.sub_eq_zero_of_le hlog, Nat.pow_zero, Nat.mul_one]

/-- Doubling reaches every size up to the largest doubling, and nothing more. -/
theorem double_until_spec (required : Nat) {capacity : Nat} (hpos : 0 < capacity) :
    if required ≤ largest_doubling capacity then
      ∃ doubled, double_until required capacity = some doubled ∧ required ≤ doubled ∧ capacity ≤ doubled ∧
        largest_doubling doubled = largest_doubling capacity
    else double_until required capacity = none := by
  fun_induction double_until required capacity with
  | case1 capacity hshort hlarge =>
    rw [largest_doubling_of_large hlarge, if_neg (by omega)]
  | case2 capacity hshort hsmall _ ih =>
    rw [← largest_doubling_double hpos (by omega)]
    specialize ih (by omega)
    split at ih
    · rename_i hreach
      obtain ⟨doubled, heq, hrequired, hle, hsame⟩ := ih
      rw [if_pos hreach]
      exact ⟨doubled, heq, hrequired, by omega, hsame⟩
    · rename_i hreach
      rw [if_neg hreach]
      exact ih
  | case3 capacity hshort hsmall hzero => exact absurd hpos hzero
  | case4 capacity henough =>
    rw [if_pos (by have := le_largest_doubling capacity; omega)]
    exact ⟨capacity, rfl, by omega, Nat.le_refl _, rfl⟩

/-- Between two calls the buffer holds its bytes, none of them a complete
frame. -/
structure WsConnection.WellFormed (conn : WsConnection) : Prop where
  size_pos : 0 < conn.recv_buffer_size
  within : conn.recv_buffer.length ≤ conn.recv_buffer_size
  drained : conn.profile.decoder.next conn.recv_buffer = .more

/-- The receive buffer can be grown exactly up to its limit, which growing does
not change. -/
theorem grow_recv_buffer_spec {env : WsEnv} (halloc : ∀ calls size, env.alloc calls size = true)
    {conn : WsConnection} (hpos : 0 < conn.recv_buffer_size) (len : Nat) :
    if conn.recv_buffer.length + len ≤ conn.recv_limit then
      ∃ conn', grow_recv_buffer env conn len = (.OK, conn') ∧ conn'.receiver = conn.receiver ∧
        conn'.profile = conn.profile ∧ conn'.recv_buffer = conn.recv_buffer ∧
        conn.recv_buffer.length + len ≤ conn'.recv_buffer_size ∧ 0 < conn'.recv_buffer_size ∧
        conn'.recv_limit = conn.recv_limit
    else grow_recv_buffer env conn len = (.INVALID_PARAM, conn) := by
  unfold grow_recv_buffer
  have hlargest := le_largest_doubling conn.recv_buffer_size
  by_cases hfull : conn.recv_buffer.length + len > conn.recv_buffer_size
  · rw [if_pos hfull]
    by_cases hlarge : conn.recv_buffer_size > SIZE_MAX / 2
    · rw [if_pos hlarge]
      have hlimit : conn.recv_limit = conn.recv_buffer_size := by
        rw [WsConnection.recv_limit, largest_doubling_of_large hlarge]
        omega
      rw [if_neg (by omega)]
    · rw [if_neg hlarge]
      have hdouble := double_until_spec (conn.recv_buffer.length + len)
        (show 0 < conn.recv_buffer_size * 2 by omega)
      rw [largest_doubling_double hpos (by omega)] at hdouble
      split at hdouble
      · obtain ⟨doubled, heq, hrequired, hle, hsame⟩ := hdouble
        simp only [heq]
        by_cases hcapped : doubled > size_t conn.max_frame_size
        · simp only [hcapped, if_true, true_and]
          by_cases hover : conn.recv_buffer.length + len > size_t conn.max_frame_size
          · rw [if_pos hover, if_neg (by unfold WsConnection.recv_limit; omega)]
          · rw [if_neg hover, if_pos (by unfold WsConnection.recv_limit; omega)]
            simp only [halloc, Bool.not_true, Bool.false_eq_true, if_false]
            refine ⟨_, rfl, rfl, rfl, rfl, ?_, ?_, ?_⟩
            · dsimp only
              omega
            · dsimp only
              omega
            · dsimp only [WsConnection.recv_limit]
              have := le_largest_doubling (size_t conn.max_frame_size)
              have := le_largest_doubling doubled
              omega
        · simp only [hcapped, if_false, false_and]
          rw [if_pos (by unfold WsConnection.recv_limit; omega)]
          simp only [halloc, Bool.not_true, Bool.false_eq_true, if_false]
          refine ⟨_, rfl, rfl, rfl, rfl, hrequired, ?_, ?_⟩
          · dsimp only
            omega
          · dsimp only [WsConnection.recv_limit]
            have := le_largest_doubling doubled
            omega
      · rw [if_neg (by unfold WsConnection.recv_limit; omega)]
        simp only [hdouble]
  · rw [if_neg hfull, if_pos (by unfold WsConnection.recv_limit; omega)]
    exact ⟨conn, rfl, rfl, rfl, rfl, by omega, hpos, rfl⟩

/-- A turn of the receive loop looks at the buffer as the decoder does. -/
theorem process_step_eq (env : WsEnv) {conn : WsConnection} (hlen : 2 ≤ conn.recv_buffer.length) :
    process_step env conn =
      match conn.profile.decoder.next conn.recv_buffer with
      | .more => .stop
      | .bad => .fail conn []
      | .frame (header, payload) total =>
        (process_frame env (unmask_frame conn payload total) header payload
          (conn.recv_buffer.drop total)).consume total := by
  simp only [process_step, Profile.decoder, websocket.decoder, next_frame]
  rw [if_neg (show ¬ conn.recv_buffer.length < 2 by omega)]
  cases uvhttp_ws_parse_frame_header conn.recv_buffer with
  | error e =>
    by_cases hneed : conn.recv_buffer.length < header_need conn.recv_buffer
    · simp only [if_pos hneed]
    · simp only [if_neg hneed]
  | ok parsed =>
    obtain ⟨header, header_size⟩ := parsed
    by_cases hrefused : header_refused conn.is_server conn.max_frame_size header
    · simp only [if_pos hrefused]
      unfold header_refused at hrefused
      split
      · rfl
      · split
        · rfl
        · split
          · rfl
          · rw [if_pos (by tauto)]
    · simp only [if_neg hrefused]
      unfold header_refused at hrefused
      rw [if_neg (by tauto), if_neg (by tauto), if_neg (by tauto), if_neg (by tauto)]
      by_cases hshort : conn.recv_buffer.length < total_frame_size header header_size
      · simp only [if_pos hshort]
      · simp only [if_neg hshort]

/-- What a decoded frame is: its payload has the announced length and lies
inside the bytes taken. -/
theorem decoder_payload_le {is_server : Bool} {max_frame_size : Int} {buffer : List UInt8} {frame : Frame}
    {total : Nat} (h : (decoder is_server max_frame_size).next buffer = .frame frame total) :
    frame.2.length ≤ total := by
  simp only [decoder, next_frame] at h
  split at h
  · cases h
  · split at h
    · split at h <;> cases h
    · split at h
      · cases h
      · split at h
        · cases h
        · rename_i hcomplete
          cases h
          rw [length_frame_payload (by omega), total_frame_size]
          omega

/-- Removing a processed frame leaves what followed it in the buffer. -/
theorem remove_frame_moves {conn conn' : WsConnection} {payload : List UInt8} {total : Nat} {r : Receiver}
    (h : Moves (unmask_frame conn payload total) r conn') (hpayload : payload.length ≤ total)
    (htotal : total ≤ conn.recv_buffer.length) :
    (remove_frame conn' total).receiver = r ∧ (remove_frame conn' total).profile = conn.profile ∧
      (remove_frame conn' total).recv_buffer = conn.recv_buffer.drop total ∧
      (remove_frame conn' total).recv_buffer_size = conn.recv_buffer_size := by
  obtain ⟨calls, bytes_sent, frames_sent, rfl⟩ := h
  refine ⟨rfl, rfl, ?_, rfl⟩
  simp only [remove_frame, WsConnection.moved, unmask_frame]
  rw [List.drop_append_of_le_length, List.drop_eq_nil_of_le, List.nil_append]
  · rw [List.length_append, List.length_take]
    omega
  · rw [List.length_append, List.length_take]
    omega

theorem handle_frame_close {p : Profile} {r : Receiver} {frame : Frame} (h : frame.1.opcode = OPCODE_CLOSE) :
    handle_frame p r frame = some ({ r with state := .CLOSED }, close_events p frame.2) := by
  unfold handle_frame
  rw [h, if_neg (by decide), if_pos rfl]

/-- The receive loop decodes the buffer. -/
theorem process_frames_refines {env : WsEnv} (henv : env.Quiet) {fuel : Nat} (conn : WsConnection)
    (hfuel : conn.recv_buffer.length ≤ fuel)
    (hclose : ∀ frame ∈ handled conn.profile.decoder (handle_frame conn.profile) conn.receiver conn.recv_buffer,
      CloseTerminated conn.profile frame) :
    observe (process_frames env fuel conn) =
        decode conn.profile.decoder (handle_frame conn.profile) conn.receiver conn.recv_buffer ∧
      ((process_frames env fuel conn).1 = .OK →
        (process_frames env fuel conn).2.1.profile = conn.profile ∧
          (process_frames env fuel conn).2.1.recv_buffer_size = conn.recv_buffer_size) := by
  induction fuel generalizing conn with
  | zero =>
    have hnil : conn.recv_buffer = [] := List.length_eq_zero_iff.mp (by omega)
    rw [decode_more (by rw [hnil]; exact Decoder.next_nil _)]
    exact ⟨rfl, fun _ => ⟨rfl, rfl⟩⟩
  | succ fuel ih =>
    rw [process_frames]
    by_cases hshort : conn.recv_buffer.length < 2
    · rw [if_pos hshort, decode_more (by
        simp only [Profile.decoder, websocket.decoder, next_frame]
        rw [if_pos hshort])]
      exact ⟨rfl, fun _ => ⟨rfl, rfl⟩⟩
    · rw [if_neg hshort, process_step_eq env (by omega)]
      cases hnext : conn.profile.decoder.next conn.recv_buffer with
      | more =>
        rw [decode_more hnext]
        exact ⟨rfl, fun _ => ⟨rfl, rfl⟩⟩
      | bad =>
        rw [decode_bad hnext]
        exact ⟨rfl, fun herror => by cases herror⟩
      | frame frame total =>
        obtain ⟨header, payload⟩ := frame
        dsimp only
        have hle := conn.profile.decoder.size_le hnext
        have hterminated : CloseTerminated (unmask_frame conn payload total).profile (header, payload) :=
          fun hcallback hopcode => hclose (header, payload)
            (by rw [handled_frame hnext (handle_frame_close hopcode)]; exact List.mem_cons_self) hcallback hopcode
        have hstep := process_frame_refines henv (unmask_frame conn payload total)
          (conn.recv_buffer.drop total) hterminated
        cases hhandle : handle_frame conn.profile conn.receiver (header, payload) with
        | none =>
          rw [decode_refused hnext hhandle]
          change StepRefines _ (handle_frame conn.profile conn.receiver (header, payload)) _ at hstep
          rw [hhandle] at hstep
          generalize process_frame env (unmask_frame conn payload total) header payload
            (conn.recv_buffer.drop total) = result at hstep ⊢
          cases hstep
          exact ⟨rfl, fun herror => by cases herror⟩
        | some next =>
          obtain ⟨r, made⟩ := next
          rw [decode_frame hnext hhandle]
          change StepRefines _ (handle_frame conn.profile conn.receiver (header, payload)) _ at hstep
          rw [hhandle] at hstep
          generalize process_frame env (unmask_frame conn payload total) header payload
            (conn.recv_buffer.drop total) = result at hstep ⊢
          cases hstep with
          | @moved conn' _ events _ hmoves hmade =>
            obtain ⟨hreceiver, hprofile, hbuffer, hsize⟩ :=
              remove_frame_moves hmoves (decoder_payload_le hnext) hle
            have hdrop : (remove_frame conn' total).recv_buffer.length ≤ fuel := by
              have hpos := conn.profile.decoder.size_pos hnext
              rw [hbuffer, List.length_drop]
              omega
            have hlater := ih (remove_frame conn' total) hdrop (by
              rw [hprofile, hreceiver, hbuffer]
              intro frame hframe
              apply hclose
              rw [handled_frame hnext hhandle]
              exact List.mem_cons_of_mem _ hframe)
            rw [hprofile, hreceiver, hbuffer, hsize] at hlater
            obtain ⟨hobserve, hkept⟩ := hlater
            refine ⟨?_, hkept⟩
            rw [← hobserve, ← hmade]
            exact Outcome.ext rfl (callbacks_append _ _)

/-- One call of `uvhttp_ws_process_data` is one chunk fed to the decoder, and
leaves a well-formed connection when it succeeds. -/
theorem process_data_refines {env : WsEnv} (henv : env.Quiet) {conn : WsConnection} (hconn : conn.WellFormed)
    {data : List UInt8}
    (hclose : ∀ frame ∈ handled conn.profile.decoder (handle_frame conn.profile) conn.receiver
      (conn.recv_buffer ++ data), CloseTerminated conn.profile frame) :
    observe (uvhttp_ws_process_data env conn data) =
        feed conn.profile.decoder (handle_frame conn.profile) conn.recv_limit conn.receiver conn.recv_buffer data ∧
      ((uvhttp_ws_process_data env conn data).1 = .OK →
        (uvhttp_ws_process_data env conn data).2.1.profile = conn.profile ∧
          (uvhttp_ws_process_data env conn data).2.1.recv_limit = conn.recv_limit ∧
          (uvhttp_ws_process_data env conn data).2.1.WellFormed) := by
  have hgrow := grow_recv_buffer_spec henv.alloc hconn.size_pos data.length
  unfold uvhttp_ws_process_data feed
  split at hgrow
  · rename_i hroom
    obtain ⟨grown, heq, hreceiver, hprofile, hbuffer, hfits, hpos, hlimit⟩ := hgrow
    rw [if_pos hroom, heq]
    dsimp only
    have hframes : ∀ frame ∈ handled grown.profile.decoder (handle_frame grown.profile) grown.receiver
        (grown.recv_buffer ++ data), CloseTerminated grown.profile frame := by
      rw [hprofile, hreceiver, hbuffer]
      exact hclose
    obtain ⟨hobserve, hkept⟩ := process_frames_refines henv
      { grown with recv_buffer := grown.recv_buffer ++ data } (Nat.le_refl _) hframes
    generalize hresult : process_frames env _ { grown with recv_buffer := grown.recv_buffer ++ data } = result
      at hobserve hkept ⊢
    change observe result = decode grown.profile.decoder (handle_frame grown.profile) grown.receiver
      (grown.recv_buffer ++ data) at hobserve
    rw [hprofile, hreceiver, hbuffer] at hobserve
    refine ⟨hobserve, ?_⟩
    intro hok
    obtain ⟨hsame, hsize⟩ := hkept hok
    change result.2.1.profile = grown.profile at hsame
    change result.2.1.recv_buffer_size = grown.recv_buffer_size at hsize
    have hfinal : (decode conn.profile.decoder (handle_frame conn.profile) conn.receiver
        (conn.recv_buffer ++ data)).final = some (result.2.1.receiver, result.2.1.recv_buffer) := by
      rw [← hobserve, observe]
      simp only [hok, if_true]
    obtain ⟨hmore, hle⟩ := decode_final hfinal
    rw [List.length_append] at hle
    refine ⟨hsame.trans hprofile, ?_, ⟨by omega, by omega, ?_⟩⟩
    · have hmax : result.2.1.max_frame_size = grown.max_frame_size := congrArg Profile.max_frame_size hsame
      rw [← hlimit, WsConnection.recv_limit, hsize, hmax, WsConnection.recv_limit]
    · rw [hsame, hprofile]
      exact hmore
  · rename_i hroom
    rw [if_neg hroom, hgrow]
    exact ⟨rfl, fun herror => by cases herror⟩

/-- Deliver chunks one after another and stop at the first error. -/
def process_chunks (env : WsEnv) (conn : WsConnection) :
    List (List UInt8) → UvhttpError × WsConnection × List WsEvent
  | [] => (.OK, conn, [])
  | chunk :: chunks =>
    match uvhttp_ws_process_data env conn chunk with
    | (.OK, conn, events) =>
      let (error, conn, later) := process_chunks env conn chunks
      (error, conn, events ++ later)
    | failed => failed

/-- Delivering chunks is feeding them to the decoder. -/
theorem process_chunks_refines {env : WsEnv} (henv : env.Quiet) {conn : WsConnection} (hconn : conn.WellFormed)
    {chunks : List (List UInt8)}
    (hclose : ∀ frame ∈ handled conn.profile.decoder (handle_frame conn.profile) conn.receiver
      (conn.recv_buffer ++ chunks.flatten), CloseTerminated conn.profile frame) :
    observe (process_chunks env conn chunks) =
      feedAll conn.profile.decoder (handle_frame conn.profile) conn.recv_limit conn.receiver conn.recv_buffer
        chunks := by
  induction chunks generalizing conn with
  | nil => rfl
  | cons chunk chunks ih =>
    rw [List.flatten_cons, ← List.append_assoc] at hclose
    obtain ⟨hfront, hrest⟩ := mem_handled_append conn.profile.decoder (handle_frame conn.profile)
      conn.receiver (conn.recv_buffer ++ chunk) chunks.flatten
    obtain ⟨hobserve, hkept⟩ := process_data_refines henv hconn fun frame hframe =>
      hclose frame (hfront frame hframe)
    rw [feedAll, process_chunks, ← hobserve]
    rcases hresult : uvhttp_ws_process_data env conn chunk with ⟨error, conn', events⟩
    rw [hresult] at hobserve hkept
    by_cases hok : error = .OK
    · subst hok
      obtain ⟨hprofile, hlimit, hwell⟩ := hkept rfl
      have hfinal : (observe (.OK, conn', events)).final = some (conn'.receiver, conn'.recv_buffer) := rfl
      have hfed : (decode conn.profile.decoder (handle_frame conn.profile) conn.receiver
          (conn.recv_buffer ++ chunk)).final = some (conn'.receiver, conn'.recv_buffer) := by
        rw [hobserve, feed] at hfinal
        split at hfinal
        · exact hfinal
        · cases hfinal
      have hlater := ih hwell (by
        rw [hprofile]
        intro frame hframe
        exact hclose frame (hrest _ _ hfed frame hframe))
      dsimp only at hprofile hlimit
      rw [hprofile, hlimit] at hlater
      rw [Outcome.andThen_some hfinal, ← hlater]
      exact Outcome.ext rfl (callbacks_append _ _)
    · have hfailed : (observe (error, conn', events)).final = none := if_neg hok
      rw [Outcome.andThen_none hfailed]
      cases error <;> first | rfl | exact absurd rfl hok

/-- If the reason of every close frame handled is a C string inside its
payload, all ways of delivering the stream have the same outcome exactly when
the receive buffer can hold the stream as a whole or the stream is refused
before the first callback. -/
theorem process_chunks_same_iff {env : WsEnv} (henv : env.Quiet) {conn : WsConnection} (hconn : conn.WellFormed)
    {stream : List UInt8}
    (hclose : ∀ frame ∈ handled conn.profile.decoder (handle_frame conn.profile) conn.receiver
      (conn.recv_buffer ++ stream), CloseTerminated conn.profile frame) :
    (∀ chunks chunks' : List (List UInt8), chunks.flatten = stream → chunks'.flatten = stream →
        (∀ chunk ∈ chunks, chunk ≠ []) → (∀ chunk ∈ chunks', chunk ≠ []) →
        observe (process_chunks env conn chunks) = observe (process_chunks env conn chunks')) ↔
      conn.recv_buffer.length + stream.length ≤ conn.recv_limit ∨
        Rejected conn.profile.decoder (handle_frame conn.profile) conn.recv_limit conn.receiver
          (conn.recv_buffer ++ stream) := by
  have hwithin : conn.recv_buffer.length ≤ conn.recv_limit :=
    Nat.le_trans hconn.within (Nat.le_max_left _ _)
  rw [← chunking_invisible_iff hconn.drained hwithin]
  have hrun : ∀ chunks : List (List UInt8), chunks.flatten = stream →
      observe (process_chunks env conn chunks) =
        feedAll conn.profile.decoder (handle_frame conn.profile) conn.recv_limit conn.receiver
          conn.recv_buffer chunks := by
    rintro chunks rfl
    exact process_chunks_refines henv hconn hclose
  refine forall_congr' fun chunks => forall_congr' fun chunks' => forall_congr' fun hflatten =>
    forall_congr' fun hflatten' => ?_
  rw [hrun chunks hflatten, hrun chunks' hflatten']

/-- A server connection after the handshake, with a message callback. -/
def opened (max_frame_size max_message_size : Int) : WsConnection :=
  { uvhttp_ws_connection_create false true max_frame_size max_message_size (fun _ => 0) with
    state := .OPEN
    on_message := true }

theorem opened_wellFormed (max_frame_size max_message_size : Int) :
    (opened max_frame_size max_message_size).WellFormed :=
  ⟨Nat.succ_pos _, Nat.zero_le _, Decoder.next_nil _⟩

theorem opened_closeTerminated (max_frame_size max_message_size : Int) (frame : Frame) :
    CloseTerminated (opened max_frame_size max_message_size).profile frame := by
  intro hcallback
  cases hcallback

/-- A text frame of one byte, delivered to a fresh connection at once or in two
pieces. -/
theorem process_chunks_same_text :
    observe (process_chunks .obliging (opened 1024 1024) [[0x81, 0x81, 0, 0], [0, 0, 0x61]]) =
      observe (process_chunks .obliging (opened 1024 1024) [[0x81, 0x81, 0, 0, 0, 0, 0x61]]) := by
  have hfits : (opened 1024 1024).recv_buffer.length + [0x81, 0x81, 0, 0, 0, 0, (0x61 : UInt8)].length ≤
      (opened 1024 1024).recv_limit := Nat.le_trans (by decide) (Nat.le_max_left _ _)
  refine (process_chunks_same_iff WsEnv.obliging_quiet (opened_wellFormed 1024 1024)
    fun frame _ => opened_closeTerminated 1024 1024 frame).mpr (.inl hfits) _ _ rfl rfl ?_ ?_
  · decide
  · decide

/-- Two frames that together exceed the buffer limit: as one chunk they are an
error, as two chunks two messages. -/
theorem process_chunks_visible_cut :
    let frame : WireFrame := ⟨true, OPCODE_BINARY, true, [0, 0, 0, 0], List.replicate 40000 0, rfl⟩
    observe (process_chunks .obliging (opened 65536 65536) [frame.bytes ++ frame.bytes]) ≠
      observe (process_chunks .obliging (opened 65536 65536) [frame.bytes, frame.bytes]) := by
  intro frame
  have hpayload : frame.payload.length = 40000 := List.length_replicate
  have hopcode : frame.opcode = OPCODE_BINARY := rfl
  have hmask : frame.mask = true := rfl
  have hfin : frame.fin = true := rfl
  clear_value frame
  have hsize : frame.bytes.length = 40008 := by
    rw [WireFrame.length_bytes, total_frame_size, built_header, hpayload, hmask]
    rfl
  have haccepted : frame.Accepted true 65536 := by
    have hcap : size_t 65536 = 65536 := by decide
    refine ⟨by rw [hopcode]; decide, fun h => ?_, fun _ => hmask, by omega, by omega⟩
    rw [hopcode] at h
    exact absurd h (by decide)
  have hlimit : (opened 65536 65536).recv_limit = 65536 := by
    have hle : (65536 : Nat) ≤ largest_doubling 65536 := le_largest_doubling 65536
    change max 65536 (min (size_t 65536) (largest_doubling 65536)) = 65536
    have hcap : size_t 65536 = 65536 := by decide
    omega
  have hhandle : ∀ r : Receiver, r.message = none →
      handle_frame (opened 65536 65536).profile r frame.frame =
        some (r, [.on_message OPCODE_BINARY frame.payload]) := by
    intro r hnone
    simp only [handle_frame, WireFrame.frame, built_header, hopcode, handle_data, hnone, hfin]
    rfl
  have hdecode : decode (opened 65536 65536).profile.decoder (handle_frame (opened 65536 65536).profile)
      (opened 65536 65536).receiver frame.bytes =
        ⟨some ((opened 65536 65536).receiver, []), [.on_message OPCODE_BINARY frame.payload]⟩ := by
    have hnext := haccepted.encodes []
    rw [List.append_nil] at hnext
    have hstep := decode_frame hnext (hhandle (opened 65536 65536).receiver rfl)
    rw [List.drop_length, decode_more (Decoder.next_nil _)] at hstep
    exact hstep
  have hbuffer : (opened 65536 65536).recv_buffer = [] := rfl
  rw [process_chunks_refines WsEnv.obliging_quiet (opened_wellFormed 65536 65536)
      fun frame _ => opened_closeTerminated 65536 65536 frame,
    process_chunks_refines WsEnv.obliging_quiet (opened_wellFormed 65536 65536)
      fun frame _ => opened_closeTerminated 65536 65536 frame, hlimit, hbuffer]
  have hwhole : (feedAll (opened 65536 65536).profile.decoder (handle_frame (opened 65536 65536).profile) 65536
      (opened 65536 65536).receiver [] [frame.bytes ++ frame.bytes]).final = none := by
    rw [feedAll, feed, if_neg (by rw [List.length_append, hsize]; decide)]
    rfl
  have hcut : (feedAll (opened 65536 65536).profile.decoder (handle_frame (opened 65536 65536).profile) 65536
      (opened 65536 65536).receiver [] [frame.bytes, frame.bytes]).final ≠ none := by
    have hfed : feed (opened 65536 65536).profile.decoder (handle_frame (opened 65536 65536).profile) 65536
        (opened 65536 65536).receiver [] frame.bytes =
          ⟨some ((opened 65536 65536).receiver, []), [.on_message OPCODE_BINARY frame.payload]⟩ := by
      rw [feed, if_pos (by rw [hsize]; decide), List.nil_append, hdecode]
    rw [feedAll, hfed, Outcome.andThen_some rfl, feedAll, hfed]
    exact Option.some_ne_none _
  intro hsame
  rw [hsame] at hwhole
  exact hcut hwhole

end uvhttp.websocket
