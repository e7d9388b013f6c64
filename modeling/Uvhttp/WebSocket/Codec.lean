import Uvhttp.WebSocket.Decode

namespace uvhttp.websocket

/-- Conversion of a `size_t` to `long`: values from `2 ^ 63` on wrap around. -/
def long (value : Nat) : Int := if value < 2 ^ 63 then value else value - 2 ^ 64

/-- What `uvhttp_ws_build_frame` returns: the size of the frame, or an error code. -/
def build_frame_return (random : Option (List UInt8)) (buffer_size : Nat) (payload : List UInt8) (opcode : UInt8)
    (mask fin : Bool) : Int :=
  match uvhttp_ws_build_frame random buffer_size payload opcode mask fin with
  | .ok _ => long (frame_header_size payload.length + payload.length + if mask then 4 else 0)
  | .error _ => -1

/-- A frame that is built and read back: its header from every prefix that has it, in no
shorter one, and the payload from what stands behind header and key. -/
structure Recovered (masking_key : List UInt8) (buffer_size : Nat) (payload : List UInt8) (opcode : UInt8)
    (mask fin : Bool) (frame : List UInt8) : Prop where
  built : uvhttp_ws_build_frame (some masking_key) buffer_size payload opcode mask fin = .ok frame
  parsed : ∀ n, frame_header_size payload.length ≤ n →
    ∃ header, uvhttp_ws_parse_frame_header (frame.take n) = .ok (header, frame_header_size payload.length) ∧
      header.fin = fin ∧ header.opcode = opcode ∧ header.mask = mask ∧ header.payload_length = payload.length ∧
      header.rsv1 = false ∧ header.rsv2 = false ∧ header.rsv3 = false
  short : ∀ n, 2 ≤ n → n < frame_header_size payload.length →
    uvhttp_ws_parse_frame_header (frame.take n) = .error .INVALID_PARAM
  unmasked : (if mask then uvhttp_ws_apply_mask (frame.drop (frame_header_size payload.length + 4)) masking_key
    else frame.drop (frame_header_size payload.length)) = payload

/-- A length code that calls for more bytes than there are. -/
theorem parse_frame_header_short {opcode code : UInt8} {mask fin : Bool} {rest : List UInt8}
    (hcode : (code = 126 ∧ rest.length < 2) ∨ (code = 127 ∧ rest.length < 8)) :
    uvhttp_ws_parse_frame_header (((if fin then 0x80 else 0x00) ||| (opcode &&& 0x0F)) ::
      ((if mask then 0x80 else 0x00) ||| code) :: rest) = .error .INVALID_PARAM := by
  unfold uvhttp_ws_parse_frame_header
  rcases hcode with ⟨rfl, hshort⟩ | ⟨rfl, hshort⟩
  · dsimp only
    rw [parse_first_bytes_eq opcode mask fin (by decide), if_pos rfl, if_pos hshort]
  · dsimp only
    rw [parse_first_bytes_eq opcode mask fin (by decide), if_neg (show (127 : UInt8) ≠ 126 by decide), if_pos rfl,
      if_pos hshort]

/-- A prefix that ends inside the header. -/
theorem parse_frame_header_take {payload_len n : Nat} (opcode : UInt8) (mask fin : Bool) (hlong : 2 ≤ n)
    (hshort : n < frame_header_size payload_len) :
    uvhttp_ws_parse_frame_header ((frame_header_bytes payload_len opcode mask fin).take n) =
      .error .INVALID_PARAM := by
  obtain ⟨n, rfl⟩ : ∃ m, n = m + 2 := ⟨n - 2, by omega⟩
  unfold frame_header_size at hshort
  unfold frame_header_bytes
  dsimp only
  split at hshort
  · omega
  · rename_i hsmall
    rw [if_neg hsmall]
    split at hshort
    · rename_i hmedium
      rw [if_pos hmedium, List.take_succ_cons, List.take_succ_cons]
      apply parse_frame_header_short
      left
      refine ⟨rfl, ?_⟩
      rw [List.length_take]
      omega
    · rename_i hmedium
      rw [if_neg hmedium, List.take_succ_cons, List.take_succ_cons]
      apply parse_frame_header_short
      right
      refine ⟨rfl, ?_⟩
      rw [List.length_take]
      omega

/-- Every frame makes the round trip, and its size is returned if it fits a `long`. -/
theorem frame_round_trip {masking_key : List UInt8} (hkey : masking_key.length = 4) {buffer_size : Nat}
    {payload : List UInt8} (hlen : payload.length < 2 ^ 63) {opcode : UInt8} (hopcode : opcode < 16) (mask fin : Bool)
    (hbuffer : frame_header_size payload.length + payload.length + (if mask then 4 else 0) ≤ buffer_size) :
    ∃ frame, Recovered masking_key buffer_size payload opcode mask fin frame ∧ (frame.length < 2 ^ 63 →
      build_frame_return (some masking_key) buffer_size payload opcode mask fin = frame.length) := by
  have hfour : opcode &&& 0x0F = opcode := by
    have hall : ∀ b : BitVec 8, UInt8.ofBitVec b < 16 → UInt8.ofBitVec b &&& 0x0F = UInt8.ofBitVec b := by
      decide +kernel
    exact hall opcode.toBitVec hopcode
  have hheader := length_frame_header_bytes payload.length opcode mask fin
  have hsmall : frame_header_size payload.length ≤ 10 := by
    unfold frame_header_size
    split
    · omega
    · split <;> omega
  have hmax : SIZE_MAX = 2 ^ 64 - 1 := rfl
  generalize hwire : (⟨fin, opcode, mask, masking_key, payload, hkey⟩ : WireFrame) = wire
  have hbytes : wire.bytes = frame_header_bytes payload.length opcode mask fin ++
      if mask then masking_key ++ uvhttp_ws_apply_mask payload masking_key else payload := by
    rw [← hwire]
    rfl
  have hbuilt : uvhttp_ws_build_frame (some masking_key) buffer_size payload opcode mask fin = .ok wire.bytes := by
    unfold uvhttp_ws_build_frame
    dsimp only
    rw [hbytes, if_neg (by cases mask <;> simp only [Bool.false_eq_true, if_true, if_false] <;> omega),
      if_neg (by omega)]
    cases mask with
    | false => rfl
    | true =>
      simp only [if_true, List.append_assoc]
  have htotal : wire.bytes.length = frame_header_size payload.length + payload.length + if mask then 4 else 0 := by
    rw [wire.length_bytes, ← hwire]
    rfl
  refine ⟨wire.bytes, ⟨hbuilt, ?_, ?_, ?_⟩, ?_⟩
  · intro n hn
    refine ⟨built_header payload.length opcode mask fin, ?_, rfl, hfour, rfl, rfl, rfl, rfl, rfl⟩
    rw [hbytes, List.take_append, List.take_of_length_le (by omega)]
    exact parse_frame_header_bytes hlen opcode mask fin _
  · intro n hlong hshort
    rw [hbytes, List.take_append_of_le_length (by omega)]
    exact parse_frame_header_take opcode mask fin hlong hshort
  · rw [hbytes]
    cases mask with
    | false =>
      simp only [Bool.false_eq_true, if_false]
      rw [← hheader, List.drop_left]
    | true =>
      simp only [if_true]
      rw [← List.drop_drop, ← hheader, List.drop_left, ← hkey, List.drop_left, apply_mask_apply_mask]
  · intro hsize
    rw [htotal] at hsize
    rw [build_frame_return, hbuilt, htotal]
    exact if_pos hsize

/-- A masked text frame with a payload of 126 bytes. -/
theorem frame_round_trip_126 :
    ∃ frame, Recovered [1, 2, 3, 4] 134 (List.replicate 126 104) OPCODE_TEXT true true frame ∧ (frame.length < 2 ^ 63 →
      build_frame_return (some [1, 2, 3, 4]) 134 (List.replicate 126 104) OPCODE_TEXT true true = frame.length) :=
  frame_round_trip rfl (by rw [List.length_replicate]; decide) (by decide) true true
    (by rw [List.length_replicate]; decide)

/-- With the longest payload the size of the frame does not fit a `long`. -/
theorem frame_size_overflow :
    ¬ ∃ frame, Recovered [1, 2, 3, 4] (2 ^ 63 + 13) (List.replicate (2 ^ 63 - 1) 104) OPCODE_TEXT true true frame ∧
      build_frame_return (some [1, 2, 3, 4]) (2 ^ 63 + 13) (List.replicate (2 ^ 63 - 1) 104) OPCODE_TEXT true true =
        frame.length := by
  rintro ⟨frame, hframe, hreturned⟩
  rw [build_frame_return, hframe.built, List.length_replicate] at hreturned
  have hnegative : long (frame_header_size (2 ^ 63 - 1) + (2 ^ 63 - 1) + if true then 4 else 0) < 0 := by
    decide +kernel
  dsimp only at hreturned
  omega

end uvhttp.websocket
