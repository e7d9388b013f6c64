import Uvhttp.WebSocket.Chunking

open incremental

namespace uvhttp.websocket

/-- One fragment of a message, with the control frames sent right before it. -/
structure Fragment where
  controls : List WireFrame
  mask : Bool
  masking_key : List UInt8
  payload : List UInt8
  key_length : masking_key.length = 4

/-- The frames of a message: the first carries the opcode, the others continue
it, the last has FIN set. -/
def message_frames (opcode : UInt8) : List Fragment → List WireFrame
  | [] => []
  | f :: rest =>
    f.controls ++ ⟨rest.isEmpty, opcode, f.mask, f.masking_key, f.payload, f.key_length⟩ ::
      message_frames OPCODE_CONTINUATION rest

def message_payload (fragments : List Fragment) : List UInt8 := (fragments.map Fragment.payload).flatten

def WireFrame.IsPingPong (f : WireFrame) : Prop := f.opcode = OPCODE_PING ∨ f.opcode = OPCODE_PONG

/-- The message is an object in memory and, where there is a limit, within it. -/
def WithinMessageLimit (max_message_size : Int) (len : Nat) : Prop :=
  len ≤ 2 ^ 63 ∧ (0 < size_t max_message_size → len ≤ size_t max_message_size)

theorem WithinMessageLimit.mono {max_message_size : Int} {len len' : Nat}
    (h : WithinMessageLimit max_message_size len) (hle : len' ≤ len) :
    WithinMessageLimit max_message_size len' :=
  ⟨Nat.le_trans hle h.1, fun hpos => Nat.le_trans hle (h.2 hpos)⟩

/-- No message is being collected any more. -/
def Receiver.reset (r : Receiver) : Receiver := { r with message := none, size := 0, capacity := 0 }

/-- A message is being collected: its bytes are counted and have room. -/
structure Receiver.Collecting (r : Receiver) (message : List UInt8) : Prop where
  message_eq : r.message = some message
  size_eq : r.size = message.length
  room : message.length ≤ r.capacity
  capacity_pos : 0 < r.capacity

theorem two_pow_le_largest_doubling {size : Nat} (hpos : 0 < size) : 2 ^ 63 ≤ largest_doubling size := by
  by_cases hlarge : SIZE_MAX / 2 < size
  · rw [largest_doubling_of_large hlarge]
    unfold SIZE_MAX at hlarge
    omega
  · have hlog : Nat.log2 size ≤ 63 := by
      have hlt : Nat.log2 size < 64 := (Nat.log2_lt (by omega)).mpr (by
        unfold SIZE_MAX at hlarge
        omega)
      omega
    calc 2 ^ 63 = 2 ^ Nat.log2 size * 2 ^ (63 - Nat.log2 size) := by
          rw [← Nat.pow_add, Nat.add_sub_cancel' hlog]
      _ ≤ size * 2 ^ (63 - Nat.log2 size) := Nat.mul_le_mul_right _ (Nat.log2_self_le (by omega))

/-- A fragment within the message limit is collected. -/
theorem Receiver.Collecting.append {r : Receiver} {message : List UInt8} (h : r.Collecting message)
    {max_message_size : Int} {payload : List UInt8}
    (hlimit : WithinMessageLimit max_message_size (message ++ payload).length) :
    ∃ capacity, append_fragment max_message_size r payload =
        some { r with message := some (message ++ payload), size := (message ++ payload).length, capacity } ∧
      Receiver.Collecting
        { r with message := some (message ++ payload), size := (message ++ payload).length, capacity }
        (message ++ payload) := by
  obtain ⟨hmessage, hsize, hroom, hpos⟩ := h
  obtain ⟨hobject, hbound⟩ := hlimit
  rw [List.length_append] at hobject hbound ⊢
  unfold append_fragment
  rw [if_neg (by rw [hsize]; rintro ⟨hsome, hover⟩; have := hbound hsome; omega), hsize]
  by_cases hgrow : payload.length > r.capacity - message.length
  · have hdouble := double_until_spec (message.length + payload.length) hpos
    rw [if_pos (Nat.le_trans hobject (two_pow_le_largest_doubling hpos))] at hdouble
    obtain ⟨capacity, heq, hrequired, hle, -⟩ := hdouble
    refine ⟨capacity, ?_, ⟨rfl, by rw [List.length_append], by rw [List.length_append]; exact hrequired, ?_⟩⟩
    · rw [if_pos hgrow, fragment_capacity, if_neg (by omega), heq, hmessage]
      rfl
    · dsimp only
      omega
  · refine ⟨r.capacity, ?_, ⟨rfl, by rw [List.length_append], ?_, hpos⟩⟩
    · rw [if_neg hgrow, hmessage]
      rfl
    · rw [List.length_append]
      dsimp only
      omega

/-- A first fragment that is not empty starts collecting. -/
theorem append_first_fragment {r : Receiver} {max_message_size : Int} {payload : List UInt8}
    (hmessage : r.message = none) (hsize : r.size = 0) (hcapacity : r.capacity = 0) (hpayload : payload ≠ [])
    (hlimit : WithinMessageLimit max_message_size payload.length) :
    append_fragment max_message_size r payload =
      some { r with message := some payload, size := payload.length, capacity := payload.length } := by
  have hpos := List.length_pos_iff.mpr hpayload
  unfold append_fragment
  rw [hsize, hcapacity, hmessage, if_neg (by rintro ⟨hsome, hover⟩; have := hlimit.2 hsome; omega),
    if_pos (by omega), fragment_capacity, if_pos rfl, Nat.zero_add]
  rfl

/-- An empty first fragment leaves no trace but the opcode. -/
theorem append_empty_fragment (max_message_size : Int) {r : Receiver} (hmessage : r.message = none)
    (hsize : r.size = 0) : append_fragment max_message_size r [] = some r := by
  unfold append_fragment
  obtain ⟨state, message, size, capacity, opcode⟩ := r
  cases hmessage
  cases hsize
  rw [if_neg (by rintro ⟨_, hover⟩; simp at hover), if_neg (by simp)]
  rfl

theorem handle_frame_ping_pong {p : Profile} (r : Receiver) {f : WireFrame} (h : f.IsPingPong) :
    handle_frame p r f.frame = some (r, []) := by
  have hopcode : f.frame.1.opcode = OPCODE_PING ∨ f.frame.1.opcode = OPCODE_PONG := by
    rw [WireFrame.frame_opcode]
    rcases h with hping | hpong
    · rw [hping]
      decide
    · rw [hpong]
      decide
  unfold handle_frame
  rcases hopcode with hping | hpong
  · rw [hping, if_neg (by decide), if_neg (by decide)]
  · rw [hpong, if_neg (by decide), if_neg (by decide)]

/-- Ping and Pong frames in a row change nothing. -/
theorem handleAll_ping_pong {p : Profile} (r : Receiver) {controls : List WireFrame}
    (h : ∀ f ∈ controls, f.IsPingPong) (frames : List Frame) :
    handleAll (handle_frame p) r (controls.map WireFrame.frame ++ frames) =
      handleAll (handle_frame p) r frames := by
  apply handleAll_skip
  intro frame hframe
  obtain ⟨f, hf, rfl⟩ := List.mem_map.mp hframe
  exact handle_frame_ping_pong r (h f hf)

theorem handleAll_only_ping_pong {p : Profile} (r : Receiver) {controls : List WireFrame}
    (h : ∀ f ∈ controls, f.IsPingPong) :
    handleAll (handle_frame p) r (controls.map WireFrame.frame) = some (r, []) := by
  have hskip := handleAll_ping_pong (p := p) r h []
  rw [List.append_nil] at hskip
  exact hskip

theorem handle_frame_data {p : Profile} (r : Receiver) {f : WireFrame}
    (h : f.opcode = OPCODE_TEXT ∨ f.opcode = OPCODE_BINARY ∨ f.opcode = OPCODE_CONTINUATION) :
    handle_frame p r f.frame = handle_data p r { f.frame.1 with opcode := f.opcode } f.payload := by
  have hopcode : f.opcode &&& 0x0F = f.opcode := by
    rcases h with htext | hbinary | hcontinuation
    · rw [htext]
      decide
    · rw [hbinary]
      decide
    · rw [hcontinuation]
      decide
  unfold handle_frame
  rw [WireFrame.frame_opcode, hopcode, if_pos h, ← hopcode, ← WireFrame.frame_opcode]
  rfl

/-- A continuation frame extends the collected message, and its FIN bit
delivers it. -/
theorem Receiver.Collecting.step {r : Receiver} {message : List UInt8} (h : r.Collecting message)
    {p : Profile} {f : WireFrame} (hopcode : f.opcode = OPCODE_CONTINUATION)
    (hlimit : WithinMessageLimit p.max_message_size (message ++ f.payload).length) :
    ∃ r' : Receiver, r'.Collecting (message ++ f.payload) ∧ r'.reset = r.reset ∧ handle_frame p r f.frame =
      some (if f.fin then (r.reset, message_events p r.opcode (message ++ f.payload)) else (r', [])) := by
  obtain ⟨capacity, happend, hcollecting⟩ := h.append hlimit
  refine ⟨_, hcollecting, rfl, ?_⟩
  rw [handle_frame_data r (.inr (.inr hopcode)), hopcode, handle_data, h.message_eq]
  simp only [ne_eq, not_true, if_false, happend, Option.map_some, WireFrame.frame_fin]
  rfl

theorem message_payload_cons (f : Fragment) (rest : List Fragment) :
    message_payload (f :: rest) = f.payload ++ message_payload rest := by
  rw [message_payload, List.map_cons, List.flatten_cons, message_payload]

/-- The rest of a message completes what has been collected. -/
theorem handleAll_continuation {p : Profile} {r : Receiver} {message : List UInt8} (h : r.Collecting message)
    {fragments : List Fragment} (hfragments : fragments ≠ [])
    (hcontrols : ∀ f ∈ fragments, ∀ c ∈ f.controls, c.IsPingPong)
    (hlimit : WithinMessageLimit p.max_message_size (message ++ message_payload fragments).length)
    {trailing : List WireFrame} (htrailing : ∀ f ∈ trailing, f.IsPingPong) :
    handleAll (handle_frame p) r
        ((message_frames OPCODE_CONTINUATION fragments ++ trailing).map WireFrame.frame) =
      some (r.reset, message_events p r.opcode (message ++ message_payload fragments)) := by
  induction fragments generalizing r message with
  | nil => exact absurd rfl hfragments
  | cons f rest ih =>
    rw [message_payload_cons, ← List.append_assoc] at hlimit ⊢
    have hstep := h.step (p := p)
      (f := ⟨rest.isEmpty, OPCODE_CONTINUATION, f.mask, f.masking_key, f.payload, f.key_length⟩) rfl
      (hlimit.mono (by simp only [List.length_append]; omega))
    obtain ⟨r', hcollecting, hreset, hhandle⟩ := hstep
    rw [message_frames, List.append_assoc, List.map_append, List.cons_append, List.map_cons,
      handleAll_ping_pong r (hcontrols f List.mem_cons_self)]
    cases rest with
    | nil =>
      rw [handleAll_cons hhandle, message_frames, List.nil_append, handleAll_only_ping_pong _ htrailing]
      simp [message_payload]
    | cons g rest =>
      have hopcode : r'.reset.opcode = r.reset.opcode := congrArg Receiver.opcode hreset
      change r'.opcode = r.opcode at hopcode
      rw [handleAll_cons hhandle, ih hcollecting (List.cons_ne_nil g rest)
        (fun f' hf' => hcontrols f' (List.mem_cons_of_mem f hf')) hlimit, hreset, hopcode]
      rfl

section message

variable {p : Profile} {r : Receiver} (hmessage : r.message = none) (hsize : r.size = 0) {opcode : UInt8}
  (hopcode : opcode = OPCODE_TEXT ∨ opcode = OPCODE_BINARY) {first : Fragment} {rest : List Fragment}
  (hcontrols : ∀ f ∈ first :: rest, ∀ c ∈ f.controls, c.IsPingPong) {trailing : List WireFrame}

include hmessage hopcode in
/-- What the first frame of a message does to an idle receiver. -/
theorem handle_first_frame {f : WireFrame} (hf : f.opcode = opcode) :
    handle_frame p r f.frame =
      if f.fin then some (r, message_events p opcode f.payload)
      else (append_fragment p.max_message_size { r.reset with opcode } f.payload).map fun r => (r, []) := by
  have hdata : f.opcode = OPCODE_TEXT ∨ f.opcode = OPCODE_BINARY ∨ f.opcode = OPCODE_CONTINUATION := by
    rw [hf]
    exact hopcode.elim .inl fun h => .inr (.inl h)
  have hnew : opcode ≠ OPCODE_CONTINUATION := by
    rcases hopcode with rfl | rfl
    · decide
    · decide
  rw [handle_frame_data r hdata, hf, handle_data, hmessage]
  by_cases hfin : f.fin = true
  · simp [hnew, hfin]
  · simp [hnew, hfin, Receiver.reset]

include hmessage hsize hopcode hcontrols in
/-- A message in one frame, or whose first fragment is not empty, is delivered
whole and leaves the receiver idle. -/
theorem handleAll_message (hfirst : rest = [] ∨ first.payload ≠ [])
    (hlimit : WithinMessageLimit p.max_message_size (message_payload (first :: rest)).length)
    (htrailing : ∀ f ∈ trailing, f.IsPingPong) :
    ∃ r' : Receiver, r'.message = none ∧ r'.size = 0 ∧
      handleAll (handle_frame p) r ((message_frames opcode (first :: rest) ++ trailing).map WireFrame.frame) =
        some (r', message_events p opcode (message_payload (first :: rest))) := by
  have hstep := handle_first_frame (p := p) hmessage hopcode
    (f := ⟨rest.isEmpty, opcode, first.mask, first.masking_key, first.payload, first.key_length⟩) rfl
  rw [message_frames, List.append_assoc, List.map_append, List.cons_append, List.map_cons,
    handleAll_ping_pong r (hcontrols first List.mem_cons_self)]
  rw [message_payload_cons] at hlimit ⊢
  cases rest with
  | nil =>
    refine ⟨r, hmessage, hsize, ?_⟩
    rw [handleAll_cons hstep, message_frames, List.nil_append, handleAll_only_ping_pong _ htrailing]
    simp [message_payload]
  | cons g rest =>
    have hpayload := hfirst.resolve_left (List.cons_ne_nil g rest)
    have happend := append_first_fragment (r := { r.reset with opcode }) rfl rfl rfl hpayload
      (hlimit.mono (by rw [List.length_append]; omega))
    simp only [List.isEmpty_cons, Bool.false_eq_true, if_false, happend, Option.map_some] at hstep
    have hcollecting : Receiver.Collecting
        { r.reset with opcode, message := some first.payload, size := first.payload.length,
                       capacity := first.payload.length } first.payload :=
      ⟨rfl, rfl, Nat.le_refl _, List.length_pos_iff.mpr hpayload⟩
    refine ⟨{ r.reset with opcode }, rfl, rfl, ?_⟩
    simp only [List.isEmpty_cons]
    rw [handleAll_cons hstep, handleAll_continuation hcollecting (List.cons_ne_nil g rest)
      (fun f hf => hcontrols f (List.mem_cons_of_mem first hf)) hlimit htrailing]
    rfl

include hmessage hopcode hcontrols in
/-- An empty first fragment of several is forgotten, and the continuation that
follows it is refused. -/
theorem handleAll_message_refused (trailing : List WireFrame) (hrest : rest ≠ []) (hfirst : first.payload = []) :
    handleAll (handle_frame p) r ((message_frames opcode (first :: rest) ++ trailing).map WireFrame.frame) =
      none := by
  have hstep := handle_first_frame (p := p) hmessage hopcode
    (f := ⟨rest.isEmpty, opcode, first.mask, first.masking_key, first.payload, first.key_length⟩) rfl
  rw [message_frames, List.append_assoc, List.map_append, List.cons_append, List.map_cons,
    handleAll_ping_pong r (hcontrols first List.mem_cons_self)]
  cases rest with
  | nil => exact absurd rfl hrest
  | cons g rest =>
    have happend := append_empty_fragment p.max_message_size (r := { r.reset with opcode }) rfl rfl
    simp only [List.isEmpty_cons, Bool.false_eq_true, if_false, hfirst, happend, Option.map_some] at hstep
    simp only [List.isEmpty_cons, hfirst]
    rw [handleAll_cons hstep, message_frames, List.append_assoc, List.map_append, List.cons_append,
      List.map_cons, handleAll_ping_pong _ (hcontrols g (by simp)), handleAll_refused]
    · rfl
    · rw [handle_frame_data _ (.inr (.inr rfl))]
      rfl

end message

/-- The message was received: no call failed, `on_message` was called once with
the message, and no fragment state is left behind. -/
def Received (result : UvhttpError × WsConnection × List WsEvent) (opcode : UInt8) (payload : List UInt8) :
    Prop :=
  result.1 = .OK ∧ callbacks result.2.2 = [.on_message opcode payload] ∧
    result.2.1.fragmented_message = none ∧ result.2.1.fragmented_size = 0

theorem received_iff_observe {result : UvhttpError × WsConnection × List WsEvent} {opcode : UInt8}
    {payload : List UInt8} :
    Received result opcode payload ↔ ∃ r rest, r.message = none ∧ r.size = 0 ∧
      observe result = ⟨some (r, rest), [.on_message opcode payload]⟩ := by
  obtain ⟨error, conn, events⟩ := result
  unfold Received observe
  refine ⟨?_, ?_⟩
  · rintro ⟨hok, hevents, hmessage, hsize⟩
    refine ⟨conn.receiver, conn.recv_buffer, hmessage, hsize, ?_⟩
    rw [if_pos hok]
    exact Outcome.ext rfl hevents
  · rintro ⟨r, rest, hmessage, hsize, heq⟩
    obtain ⟨hfinal, hevents⟩ := Outcome.ext_iff.mp heq
    dsimp only at hfinal hevents
    by_cases hok : error = .OK
    · rw [if_pos hok] at hfinal
      cases hfinal
      exact ⟨hok, hevents, hmessage, hsize⟩
    · rw [if_neg hok] at hfinal
      cases hfinal

theorem WireFrame.IsPingPong.closeTerminated (p : Profile) {f : WireFrame} (h : f.IsPingPong) :
    CloseTerminated p f.frame := by
  intro _ hclose
  rw [WireFrame.frame_opcode] at hclose
  rcases h with hping | hpong
  · rw [hping] at hclose
    exact absurd hclose (by decide)
  · rw [hpong] at hclose
    exact absurd hclose (by decide)

/-- The frames of a message are not close frames. -/
theorem closeTerminated_of_mem (p : Profile) {opcode : UInt8}
    (hopcode : opcode = OPCODE_TEXT ∨ opcode = OPCODE_BINARY ∨ opcode = OPCODE_CONTINUATION)
    {fragments : List Fragment} (hcontrols : ∀ f ∈ fragments, ∀ c ∈ f.controls, c.IsPingPong)
    {f : WireFrame} (hf : f ∈ message_frames opcode fragments) : CloseTerminated p f.frame := by
  induction fragments generalizing opcode with
  | nil => cases hf
  | cons g rest ih =>
    rw [message_frames] at hf
    rcases List.mem_append.mp hf with hcontrol | hdata
    · exact (hcontrols g List.mem_cons_self f hcontrol).closeTerminated p
    · rcases List.mem_cons.mp hdata with rfl | hlater
      · intro _ hclose
        rw [WireFrame.frame_opcode] at hclose
        rcases hopcode with rfl | rfl | rfl
        · exact absurd hclose (show ¬ OPCODE_TEXT &&& 0x0F = OPCODE_CLOSE by decide)
        · exact absurd hclose (show ¬ OPCODE_BINARY &&& 0x0F = OPCODE_CLOSE by decide)
        · exact absurd hclose (show ¬ OPCODE_CONTINUATION &&& 0x0F = OPCODE_CLOSE by decide)
      · exact ih (.inr (.inr rfl)) (fun f' hf' => hcontrols f' (List.mem_cons_of_mem g hf')) hlater

/-- An idle connection is sent the well-formed frames of a message, with Ping
and Pong frames anywhere among them, in chunks of any size. The message is
received exactly when it is not split behind an empty first fragment and every
chunk finds room in the receive buffer behind the frame that is still
incomplete. -/
theorem received_iff {env : WsEnv} (henv : env.Quiet) {conn : WsConnection} (hconn : conn.WellFormed)
    (hbuffer : conn.recv_buffer = []) (hmessage : conn.fragmented_message = none)
    (hsize : conn.fragmented_size = 0) (hcallback : conn.on_message = true) {opcode : UInt8}
    (hopcode : opcode = OPCODE_TEXT ∨ opcode = OPCODE_BINARY) {first : Fragment} {rest : List Fragment}
    {trailing : List WireFrame} (hcontrols : ∀ f ∈ first :: rest, ∀ c ∈ f.controls, c.IsPingPong)
    (htrailing : ∀ f ∈ trailing, f.IsPingPong)
    (haccepted : ∀ f ∈ message_frames opcode (first :: rest) ++ trailing,
      f.Accepted conn.is_server conn.max_frame_size)
    (hlimit : WithinMessageLimit conn.max_message_size (message_payload (first :: rest)).length)
    {chunks : List (List UInt8)}
    (hchunks : chunks.flatten =
      ((message_frames opcode (first :: rest) ++ trailing).map WireFrame.bytes).flatten) :
    Received (process_chunks env conn chunks) opcode (message_payload (first :: rest)) ↔
      (rest = [] ∨ first.payload ≠ []) ∧
        ChunksFit conn.recv_limit
          ((message_frames opcode (first :: rest) ++ trailing).map fun f => f.bytes.length) 0 chunks := by
  generalize hframes : message_frames opcode (first :: rest) ++ trailing = frames at haccepted hchunks ⊢
  have hwire : ∀ q ∈ frames.map fun f => (f.bytes, f.frame), Encodes conn.profile.decoder q.1 q.2 := by
    intro q hq
    obtain ⟨f, hf, rfl⟩ := List.mem_map.mp hq
    exact (haccepted f hf).encodes
  have hbytes : ((frames.map fun f => (f.bytes, f.frame)).map Prod.fst).flatten = chunks.flatten := by
    rw [hchunks, List.map_map]
    rfl
  have hdecoded : (frames.map fun f => (f.bytes, f.frame)).map Prod.snd = frames.map WireFrame.frame := by
    rw [List.map_map]
    rfl
  have hrun : observe (process_chunks env conn chunks) =
      feedAll conn.profile.decoder (handle_frame conn.profile) conn.recv_limit conn.receiver [] chunks := by
    rw [process_chunks_refines henv hconn, hbuffer]
    intro frame hframe
    rw [hbuffer, List.nil_append, ← hbytes] at hframe
    have hmem := mem_of_mem_handled hwire hframe
    rw [hdecoded] at hmem
    obtain ⟨f, hf, rfl⟩ := List.mem_map.mp hmem
    rw [← hframes] at hf
    rcases List.mem_append.mp hf with hmine | hafter
    · exact closeTerminated_of_mem conn.profile (hopcode.elim .inl fun h => .inr (.inl h)) hcontrols hmine
    · exact (htrailing f hafter).closeTerminated conn.profile
  have hempty : conn.profile.decoder.next [] = .more := Decoder.next_nil _
  have hevents : ∀ data, message_events conn.profile opcode data = [.on_message opcode data] :=
    fun data => if_pos hcallback
  rw [received_iff_observe, hrun]
  by_cases hfirst : rest = [] ∨ first.payload ≠ []
  · obtain ⟨r', hidle, hnothing, hall⟩ := handleAll_message (p := conn.profile) (r := conn.receiver) hmessage
      hsize hopcode hcontrols hfirst hlimit htrailing
    rw [hframes, ← hdecoded, hevents] at hall
    have hfits : Fits conn.profile.decoder (handle_frame conn.profile) conn.recv_limit conn.receiver [] chunks ↔
        ChunksFit conn.recv_limit (frames.map fun f => f.bytes.length) 0 chunks := by
      have hlengths : (frames.map fun f => f.bytes.length) =
          (frames.map fun f => (f.bytes, f.frame)).map fun q => q.1.length := by
        rw [List.map_map]
        rfl
      rw [hlengths]
      exact fits_iff_chunksFit hwire (by rw [hall]; rfl) [] hbytes (by rw [decode_more hempty])
    refine ⟨?_, ?_⟩
    · rintro ⟨r, left, -, -, heq⟩
      refine ⟨hfirst, hfits.mp (.of_feedAll ?_)⟩
      rw [heq]
      exact Option.some_ne_none _
    · rintro ⟨-, hroom⟩
      refine ⟨r', [], hidle, hnothing, ?_⟩
      rw [feedAll_eq_decode hempty (hfits.mpr hroom), List.nil_append, ← hbytes, decode_encoded hwire hall]
  · refine ⟨?_, fun h => absurd h.1 hfirst⟩
    rintro ⟨r, left, -, -, heq⟩
    have hnone := handleAll_message_refused (p := conn.profile) (r := conn.receiver) hmessage hopcode hcontrols
      trailing (fun h => hfirst (.inl h)) (not_not.mp fun h => hfirst (.inr h))
    rw [hframes, ← hdecoded] at hnone
    have hfinal := decode_encoded_refused hwire hnone
    have hfits : Fits conn.profile.decoder (handle_frame conn.profile) conn.recv_limit conn.receiver [] chunks :=
      .of_feedAll (by rw [heq]; exact Option.some_ne_none _)
    rw [hbytes, ← List.nil_append chunks.flatten, ← feedAll_eq_decode hempty hfits, heq] at hfinal
    cases hfinal

/-- A two-fragment message with a Ping between its fragments, one frame a chunk. -/
theorem received_two_fragments :
    let ping : WireFrame := ⟨true, OPCODE_PING, true, [1, 2, 3, 4], [], rfl⟩
    let first : Fragment := ⟨[], true, [1, 2, 3, 4], [0x61], rfl⟩
    let second : Fragment := ⟨[ping], true, [5, 6, 7, 8], [0x62], rfl⟩
    Received (process_chunks .obliging (opened 1024 1024)
      ((message_frames OPCODE_TEXT [first, second]).map WireFrame.bytes)) OPCODE_TEXT [0x61, 0x62] := by
  intro ping first second
  have haccepted : ∀ f ∈ message_frames OPCODE_TEXT [first, second] ++ [],
      f.Accepted (opened 1024 1024).is_server (opened 1024 1024).max_frame_size := by
    intro f hf
    change f ∈ [_, ping, _] at hf
    simp only [List.mem_cons, List.not_mem_nil, or_false] at hf
    rcases hf with rfl | rfl | rfl
    · exact ⟨by decide, by decide, fun _ => rfl, by decide, by decide⟩
    · exact ⟨by decide, by decide, fun _ => rfl, by decide, by decide⟩
    · exact ⟨by decide, by decide, fun _ => rfl, by decide, by decide⟩
  have hcontrols : ∀ f ∈ [first, second], ∀ c ∈ f.controls, c.IsPingPong := by
    intro f hf c hc
    simp only [List.mem_cons, List.not_mem_nil, or_false] at hf
    rcases hf with rfl | rfl
    · cases hc
    · exact .inl (by rw [List.mem_singleton.mp hc])
  have hroom : ∀ len, len ≤ 65536 → len ≤ (opened 1024 1024).recv_limit :=
    fun len hlen => Nat.le_trans hlen (Nat.le_max_left _ _)
  refine (received_iff WsEnv.obliging_quiet (opened_wellFormed 1024 1024) rfl rfl rfl rfl (.inl rfl)
    hcontrols (fun f hf => (by cases hf)) haccepted ⟨by decide, by decide⟩ rfl).mpr ⟨.inr (by decide), ?_⟩
  exact ⟨hroom _ (by decide), hroom _ (by decide), hroom _ (by decide), trivial⟩

/-- An empty first fragment, then the rest of the message: the continuation is
taken for a protocol error. -/
theorem not_received_empty_first_fragment :
    let first : Fragment := ⟨[], true, [1, 2, 3, 4], [], rfl⟩
    let second : Fragment := ⟨[], true, [5, 6, 7, 8], [0x61], rfl⟩
    ¬ Received (process_chunks .obliging (opened 1024 1024)
      ((message_frames OPCODE_TEXT [first, second]).map WireFrame.bytes)) OPCODE_TEXT [0x61] := by
  intro first second hreceived
  have herror : (process_chunks .obliging (opened 1024 1024)
      ((message_frames OPCODE_TEXT [first, second]).map WireFrame.bytes)).1 = .INVALID_PARAM := by decide
  rw [hreceived.1] at herror
  cases herror

end uvhttp.websocket
