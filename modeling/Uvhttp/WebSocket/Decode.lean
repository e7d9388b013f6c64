import Uvhttp.Lib.Wire
import Uvhttp.WebSocket.Connection

open incremental

namespace uvhttp.websocket

/-- A complete frame as the receive loop sees it, its payload unmasked. -/
abbrev Frame := FrameHeader × List UInt8

/-- The header checks of the receive loop that refuse a frame. -/
def header_refused (is_server : Bool) (max_frame_size : Int) (header : FrameHeader) : Prop :=
  (header.rsv1 || header.rsv2 || header.rsv3) = true ∨
    (header.opcode ≥ OPCODE_CLOSE ∧ (header.payload_length > 125 ∨ !header.fin)) ∨
    (is_server && !header.mask) = true ∨ header.payload_length > size_t max_frame_size

instance (is_server : Bool) (max_frame_size : Int) (header : FrameHeader) :
    Decidable (header_refused is_server max_frame_size header) := by
  unfold header_refused
  infer_instance

/-- What the receive loop makes of the buffered bytes. -/
def next_frame (is_server : Bool) (max_frame_size : Int) (buffer : List UInt8) : Next Frame :=
  if buffer.length < 2 then .more
  else
    match uvhttp_ws_parse_frame_header buffer with
    | .error _ => if buffer.length < header_need buffer then .more else .bad
    | .ok (header, header_size) =>
      if header_refused is_server max_frame_size header then .bad
      else if buffer.length < total_frame_size header header_size then .more
      else .frame (header, frame_payload buffer header header_size) (total_frame_size header header_size)

/-- A header is parsed from exactly the bytes its length code calls for. -/
theorem parse_frame_header_ok {buffer : List UInt8} {header : FrameHeader} {header_size : Nat}
    (h : uvhttp_ws_parse_frame_header buffer = .ok (header, header_size)) :
    2 ≤ header_size ∧ header_size ≤ buffer.length ∧
      ∀ more, uvhttp_ws_parse_frame_header (buffer ++ more) = .ok (header, header_size) := by
  match buffer with
  | [] => cases h
  | [b0] => cases h
  | b0 :: b1 :: rest =>
    simp only [uvhttp_ws_parse_frame_header] at h
    simp only [List.cons_append, uvhttp_ws_parse_frame_header, List.length_cons]
    by_cases h126 : (parse_first_bytes b0 b1).payload_len = 126
    · rw [if_pos h126] at h
      by_cases hshort : rest.length < 2
      · rw [if_pos hshort] at h
        cases h
      · rw [if_neg hshort] at h
        cases h
        refine ⟨by omega, by omega, fun more => ?_⟩
        rw [if_pos h126, if_neg (by rw [List.length_append]; omega),
          List.take_append_of_le_length (by omega)]
    · rw [if_neg h126] at h
      by_cases h127 : (parse_first_bytes b0 b1).payload_len = 127
      · rw [if_pos h127] at h
        by_cases hshort : rest.length < 8
        · rw [if_pos hshort] at h
          cases h
        · rw [if_neg hshort] at h
          by_cases hhuge : 2 ^ 63 ≤ be_value (rest.take 8)
          · rw [if_pos hhuge] at h
            cases h
          · rw [if_neg hhuge] at h
            cases h
            refine ⟨by omega, by omega, fun more => ?_⟩
            rw [if_neg h126, if_pos h127, if_neg (by rw [List.length_append]; omega),
              List.take_append_of_le_length (by omega), if_neg hhuge]
      · rw [if_neg h127] at h
        cases h
        refine ⟨by omega, by omega, fun more => ?_⟩
        rw [if_neg h126, if_neg h127]

/-- A header that is refused with all its bytes present stays refused. -/
theorem parse_frame_header_error {buffer : List UInt8} {error : UvhttpError}
    (h : uvhttp_ws_parse_frame_header buffer = .error error) (hlen : 2 ≤ buffer.length)
    (hneed : header_need buffer ≤ buffer.length) (more : List UInt8) :
    uvhttp_ws_parse_frame_header (buffer ++ more) = .error error := by
  match buffer with
  | [] => simp at hlen
  | [b0] => simp at hlen
  | b0 :: b1 :: rest =>
    simp only [uvhttp_ws_parse_frame_header] at h
    simp only [List.cons_append, uvhttp_ws_parse_frame_header]
    simp only [header_need, List.getD_cons_succ, List.getD_cons_zero, List.length_cons] at hneed
    have hcode : (parse_first_bytes b0 b1).payload_len = b1 &&& 0x7F := rfl
    by_cases h126 : (parse_first_bytes b0 b1).payload_len = 126
    · rw [if_pos h126] at h
      rw [← hcode, if_pos h126] at hneed
      rw [if_neg (by omega)] at h
      cases h
    · rw [if_neg h126] at h
      by_cases h127 : (parse_first_bytes b0 b1).payload_len = 127
      · rw [if_pos h127] at h
        rw [← hcode, if_neg h126, if_pos h127] at hneed
        rw [if_neg (by omega)] at h
        rw [if_neg h126, if_pos h127, if_neg (by rw [List.length_append]; omega),
          List.take_append_of_le_length (by omega)]
        exact h
      · rw [if_neg h127] at h
        cases h

theorem frame_payload_append {buffer : List UInt8} {header : FrameHeader} {header_size : Nat}
    (hlen : total_frame_size header header_size ≤ buffer.length) (more : List UInt8) :
    frame_payload (buffer ++ more) header header_size = frame_payload buffer header header_size := by
  unfold total_frame_size at hlen
  unfold frame_payload
  by_cases hmask : header.mask = true
  · simp only [hmask, if_true] at hlen ⊢
    rw [List.drop_append_of_le_length (by omega), List.drop_append_of_le_length (by omega),
      List.take_append_of_le_length (by rw [List.length_drop]; omega),
      List.take_append_of_le_length (by rw [List.length_drop]; omega)]
  · simp only [hmask] at hlen ⊢
    rw [if_neg (by simp), List.drop_append_of_le_length (by simp at hlen; omega),
      List.take_append_of_le_length (by rw [List.length_drop]; simp at hlen; omega), if_neg (by simp)]

theorem length_frame_payload {buffer : List UInt8} {header : FrameHeader} {header_size : Nat}
    (hlen : total_frame_size header header_size ≤ buffer.length) :
    (frame_payload buffer header header_size).length = header.payload_length := by
  unfold total_frame_size at hlen
  unfold frame_payload
  by_cases hmask : header.mask = true
  · simp only [hmask, if_true] at hlen ⊢
    rw [length_apply_mask, List.length_take, List.length_drop]
    omega
  · simp only [hmask] at hlen ⊢
    rw [if_neg (by simp), List.length_take, List.length_drop]
    simp at hlen
    omega

/-- The framing of the receive loop as a decoder: what the loop has decided
about its buffer does not change when more bytes arrive. -/
def decoder (is_server : Bool) (max_frame_size : Int) : Decoder UInt8 Frame where
  next := next_frame is_server max_frame_size
  next_nil := rfl
  size_pos := by
    intro buf f n h
    unfold next_frame at h
    split at h
    · cases h
    · split at h
      · split at h <;> cases h
      · rename_i header header_size hparse
        split at h
        · cases h
        · split at h
          · cases h
          · cases h
            have hpos := (parse_frame_header_ok hparse).1
            unfold total_frame_size
            omega
  size_le := by
    intro buf f n h
    unfold next_frame at h
    split at h
    · cases h
    · split at h
      · split at h <;> cases h
      · split at h
        · cases h
        · split at h
          · cases h
          · cases h
            omega
  frame_append := by
    intro buf f n more h
    unfold next_frame at h ⊢
    split at h
    · cases h
    · rename_i hlen
      rw [if_neg (by rw [List.length_append]; omega)]
      split at h
      · split at h <;> cases h
      · rename_i header header_size hparse
        rw [(parse_frame_header_ok hparse).2.2 more]
        split at h
        · cases h
        · rename_i haccepted
          split at h
          · cases h
          · rename_i hcomplete
            cases h
            simp only [if_neg haccepted]
            rw [if_neg (by rw [List.length_append]; omega), frame_payload_append (by omega)]
  bad_append := by
    intro buf more h
    unfold next_frame at h ⊢
    split at h
    · cases h
    · rename_i hlen
      rw [if_neg (by rw [List.length_append]; omega)]
      split at h
      · rename_i error hparse
        split at h
        · cases h
        · rename_i hneed
          rw [parse_frame_header_error hparse (by omega) (by omega) more]
          have hsame : header_need (buf ++ more) = header_need buf := by
            unfold header_need
            rw [List.getD_eq_getElem?_getD, List.getElem?_append_left (by omega),
              List.getD_eq_getElem?_getD]
          simp only [hsame]
          rw [if_neg (by rw [List.length_append]; omega)]
      · rename_i header header_size hparse
        rw [(parse_frame_header_ok hparse).2.2 more]
        split at h
        · rename_i hrefused
          simp only [if_pos hrefused]
        · split at h <;> cases h

/-- A frame as `uvhttp_ws_build_frame` puts it on the wire. -/
structure WireFrame where
  fin : Bool
  opcode : UInt8
  mask : Bool
  masking_key : List UInt8
  payload : List UInt8
  key_length : masking_key.length = 4

namespace WireFrame

def bytes (f : WireFrame) : List UInt8 :=
  frame_header_bytes f.payload.length f.opcode f.mask f.fin ++
    if f.mask then f.masking_key ++ uvhttp_ws_apply_mask f.payload f.masking_key else f.payload

/-- What the receive loop sees of the frame. -/
def frame (f : WireFrame) : Frame := (built_header f.payload.length f.opcode f.mask f.fin, f.payload)

@[simp] theorem frame_opcode (f : WireFrame) : f.frame.1.opcode = f.opcode &&& 0x0F := rfl

@[simp] theorem frame_fin (f : WireFrame) : f.frame.1.fin = f.fin := rfl

/-- The frame passes the header checks: its opcode has four bits, control
frames are whole and short, a server gets masked frames only and the payload
is within the limit. -/
structure Accepted (is_server : Bool) (max_frame_size : Int) (f : WireFrame) : Prop where
  opcode : f.opcode &&& 0x0F = f.opcode
  control : f.opcode ≥ OPCODE_CLOSE → f.payload.length ≤ 125 ∧ f.fin = true
  masked : is_server = true → f.mask = true
  payload_le : f.payload.length ≤ size_t max_frame_size
  payload_lt : f.payload.length < 2 ^ 63

theorem length_bytes (f : WireFrame) :
    f.bytes.length = total_frame_size (built_header f.payload.length f.opcode f.mask f.fin)
      (frame_header_size f.payload.length) := by
  rw [bytes, List.length_append, length_frame_header_bytes, total_frame_size]
  simp only [built_header]
  cases f.mask with
  | false => simp only [Bool.false_eq_true, if_false, Nat.add_zero]
  | true =>
    simp only [if_true]
    rw [List.length_append, f.key_length, length_apply_mask]
    omega

theorem frame_payload_bytes (f : WireFrame) (rest : List UInt8) :
    frame_payload (f.bytes ++ rest) (built_header f.payload.length f.opcode f.mask f.fin)
      (frame_header_size f.payload.length) = f.payload := by
  have hheader := length_frame_header_bytes f.payload.length f.opcode f.mask f.fin
  unfold frame_payload bytes
  simp only [built_header]
  cases hmask : f.mask with
  | false =>
    rw [hmask] at hheader
    simp only [Bool.false_eq_true, if_false]
    rw [List.append_assoc, ← hheader, List.drop_left, List.take_left]
  | true =>
    rw [hmask] at hheader
    simp only [if_true]
    rw [← List.drop_drop, List.append_assoc, ← hheader, List.drop_left, List.append_assoc,
      ← f.key_length, List.drop_left, List.take_left,
      show f.payload.length = (uvhttp_ws_apply_mask f.payload f.masking_key).length by rw [length_apply_mask],
      List.take_left, apply_mask_apply_mask]

/-- What the decoder makes of the bytes of a frame, whatever follows. -/
theorem next_bytes (is_server : Bool) (max_frame_size : Int) (f : WireFrame) (hlen : f.payload.length < 2 ^ 63)
    (rest : List UInt8) :
    (decoder is_server max_frame_size).next (f.bytes ++ rest) =
      if header_refused is_server max_frame_size f.frame.1 then .bad else .frame f.frame f.bytes.length := by
  have hparse : uvhttp_ws_parse_frame_header (f.bytes ++ rest) =
      .ok (f.frame.1, frame_header_size f.payload.length) := by
    rw [bytes, List.append_assoc]
    exact parse_frame_header_bytes hlen f.opcode f.mask f.fin _
  have htotal : total_frame_size f.frame.1 (frame_header_size f.payload.length) = f.bytes.length :=
    f.length_bytes.symm
  have hsize : 2 ≤ f.bytes.length := by
    rw [f.length_bytes, total_frame_size, frame_header_size]
    split
    · omega
    · split <;> omega
  simp only [decoder, next_frame, hparse]
  rw [if_neg (by rw [List.length_append]; omega)]
  split
  · rfl
  · rw [htotal, if_neg (by rw [List.length_append]; omega)]
    congr 2
    exact f.frame_payload_bytes rest

/-- An accepted frame is recognised on the wire. -/
theorem Accepted.encodes {is_server : Bool} {max_frame_size : Int} {f : WireFrame}
    (h : f.Accepted is_server max_frame_size) : Encodes (decoder is_server max_frame_size) f.bytes f.frame := by
  intro rest
  have haccepted : ¬ header_refused is_server max_frame_size f.frame.1 := by
    have hpayload := h.payload_le
    simp only [header_refused, frame, built_header, h.opcode, Bool.or_self, Bool.false_eq_true, false_or]
    rintro (⟨hcontrol, hlong | hfin⟩ | hmask | hlarge)
    · have := (h.control hcontrol).1
      omega
    · rw [(h.control hcontrol).2] at hfin
      cases hfin
    · cases is_server with
      | false => cases hmask
      | true =>
        rw [h.masked rfl] at hmask
        cases hmask
    · omega
  rw [f.next_bytes is_server max_frame_size h.payload_lt, if_neg haccepted]

end WireFrame

end uvhttp.websocket
