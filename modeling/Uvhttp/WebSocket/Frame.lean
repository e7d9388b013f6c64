import Uvhttp.Basic

namespace uvhttp.websocket

/-- The values of `uvhttp_ws_opcode_t`. -/
def OPCODE_CONTINUATION : UInt8 := 0x0
def OPCODE_TEXT : UInt8 := 0x1
def OPCODE_BINARY : UInt8 := 0x2
def OPCODE_CLOSE : UInt8 := 0x8
def OPCODE_PING : UInt8 := 0x9
def OPCODE_PONG : UInt8 := 0xA

/-- `uvhttp_ws_frame_header_t`. The raw length code is `payload_len`, the
actual length `payload_length`. -/
structure FrameHeader where
  fin : Bool
  rsv1 : Bool
  rsv2 : Bool
  rsv3 : Bool
  opcode : UInt8
  mask : Bool
  payload_len : UInt8
  payload_length : Nat
  deriving DecidableEq, Repr

/-- The number that big-endian bytes spell. -/
def be_value (digits : List UInt8) : Nat := digits.foldl (fun acc b => acc * 256 + b.toNat) 0

/-- The header fields that the first two bytes carry. -/
def parse_first_bytes (b0 b1 : UInt8) : FrameHeader where
  fin := b0 &&& 0x80 != 0
  rsv1 := b0 &&& 0x40 != 0
  rsv2 := b0 &&& 0x20 != 0
  rsv3 := b0 &&& 0x10 != 0
  opcode := b0 &&& 0x0F
  mask := b1 &&& 0x80 != 0
  payload_len := b1 &&& 0x7F
  payload_length := (b1 &&& 0x7F).toNat

/-- `uvhttp_ws_parse_frame_header`: the header and the number of bytes it
takes. A 64-bit length with its top bit set is an error. -/
def uvhttp_ws_parse_frame_header (data : List UInt8) : Except UvhttpError (FrameHeader × Nat) :=
  match data with
  | b0 :: b1 :: rest =>
    let header := parse_first_bytes b0 b1
    if header.payload_len = 126 then
      if rest.length < 2 then .error .INVALID_PARAM
      else .ok ({ header with payload_length := be_value (rest.take 2) }, 4)
    else if header.payload_len = 127 then
      if rest.length < 8 then .error .INVALID_PARAM
      else if 2 ^ 63 ≤ be_value (rest.take 8) then .error .INVALID_PARAM
      else .ok ({ header with payload_length := be_value (rest.take 8) }, 10)
    else .ok (header, 2)
  | _ => .error .INVALID_PARAM

/-- `uvhttp_ws_apply_mask`. -/
def uvhttp_ws_apply_mask (data masking_key : List UInt8) : List UInt8 :=
  data.mapIdx fun i b => b ^^^ masking_key.getD (i % 4) 0

/-- The header size that the payload length calls for. -/
def frame_header_size (payload_len : Nat) : Nat :=
  if payload_len < 126 then 2 else if payload_len < 65536 then 4 else 10

/-- The header bytes written by `uvhttp_ws_build_frame`. -/
def frame_header_bytes (payload_len : Nat) (opcode : UInt8) (mask fin : Bool) : List UInt8 :=
  let first : UInt8 := (if fin then 0x80 else 0x00) ||| (opcode &&& 0x0F)
  let masked : UInt8 := if mask then 0x80 else 0x00
  if payload_len < 126 then [first, masked ||| UInt8.ofNat payload_len]
  else if payload_len < 65536 then
    [first, masked ||| 126, UInt8.ofNat (payload_len / 2 ^ 8), UInt8.ofNat payload_len]
  else
    [first, masked ||| 127, UInt8.ofNat (payload_len / 2 ^ 56), UInt8.ofNat (payload_len / 2 ^ 48),
      UInt8.ofNat (payload_len / 2 ^ 40), UInt8.ofNat (payload_len / 2 ^ 32),
      UInt8.ofNat (payload_len / 2 ^ 24), UInt8.ofNat (payload_len / 2 ^ 16),
      UInt8.ofNat (payload_len / 2 ^ 8), UInt8.ofNat payload_len]

/-- `uvhttp_ws_build_frame`: the bytes written to the buffer. `random` is the
answer of `uvhttp_ws_random_bytes`, asked for only when the frame is masked. -/
def uvhttp_ws_build_frame (random : Option (List UInt8)) (buffer_size : Nat) (payload : List UInt8)
    (opcode : UInt8) (mask fin : Bool) : Except UvhttpError (List UInt8) :=
  let header_size := frame_header_size payload.length
  let key_size := if mask then 4 else 0
  if payload.length > SIZE_MAX - header_size - key_size then .error .INVALID_PARAM
  else if buffer_size < header_size + payload.length + key_size then .error .INVALID_PARAM
  else
    let header := frame_header_bytes payload.length opcode mask fin
    if mask then
      match random with
      | none => .error .INVALID_PARAM
      | some masking_key => .ok (header ++ masking_key ++ uvhttp_ws_apply_mask payload masking_key)
    else .ok (header ++ payload)

theorem length_frame_header_bytes (payload_len : Nat) (opcode : UInt8) (mask fin : Bool) :
    (frame_header_bytes payload_len opcode mask fin).length = frame_header_size payload_len := by
  simp only [frame_header_bytes, frame_header_size]
  by_cases hsmall : payload_len < 126
  · simp [hsmall]
  · by_cases hmedium : payload_len < 65536
    · simp [hsmall, hmedium]
    · simp [hsmall, hmedium]

@[simp] theorem length_apply_mask (data masking_key : List UInt8) :
    (uvhttp_ws_apply_mask data masking_key).length = data.length := by
  simp [uvhttp_ws_apply_mask]

/-- Masking is its own inverse. -/
theorem apply_mask_apply_mask (data masking_key : List UInt8) :
    uvhttp_ws_apply_mask (uvhttp_ws_apply_mask data masking_key) masking_key = data := by
  apply List.ext_getElem
  · simp
  · intro i hi hi'
    simp only [uvhttp_ws_apply_mask, List.getElem_mapIdx]
    rw [UInt8.xor_assoc, UInt8.xor_self, UInt8.xor_zero]

/-- The first byte carries the FIN bit and the opcode, and nothing else. -/
private theorem first_byte_fields (fin : Bool) (opcode : UInt8) :
    let first : UInt8 := (if fin then 0x80 else 0x00) ||| (opcode &&& 0x0F)
    (first &&& 0x80 != 0) = fin ∧ (first &&& 0x40 != 0) = false ∧ (first &&& 0x20 != 0) = false ∧
      (first &&& 0x10 != 0) = false ∧ first &&& 0x0F = opcode &&& 0x0F := by
  have h : ∀ (fin : Bool) (b : BitVec 8),
      let first : UInt8 := (if fin then 0x80 else 0x00) ||| (UInt8.ofBitVec b &&& 0x0F)
      (first &&& 0x80 != 0) = fin ∧ (first &&& 0x40 != 0) = false ∧ (first &&& 0x20 != 0) = false ∧
        (first &&& 0x10 != 0) = false ∧ first &&& 0x0F = UInt8.ofBitVec b &&& 0x0F := by decide +kernel
  exact h fin opcode.toBitVec

/-- The second byte carries the mask bit and the length code. -/
theorem second_byte_fields (mask : Bool) {code : UInt8} (hcode : code < 128) :
    let second : UInt8 := (if mask then 0x80 else 0x00) ||| code
    (second &&& 0x80 != 0) = mask ∧ second &&& 0x7F = code := by
  have h : ∀ (mask : Bool) (b : BitVec 8), UInt8.ofBitVec b < 128 →
      let second : UInt8 := (if mask then 0x80 else 0x00) ||| UInt8.ofBitVec b
      (second &&& 0x80 != 0) = mask ∧ second &&& 0x7F = UInt8.ofBitVec b := by decide +kernel
  exact h mask code.toBitVec hcode

/-- The header that a frame built from these arguments has. -/
def built_header (payload_len : Nat) (opcode : UInt8) (mask fin : Bool) : FrameHeader where
  fin := fin
  rsv1 := false
  rsv2 := false
  rsv3 := false
  opcode := opcode &&& 0x0F
  mask := mask
  payload_len := if payload_len < 126 then UInt8.ofNat payload_len
    else if payload_len < 65536 then 126 else 127
  payload_length := payload_len

theorem parse_first_bytes_eq (opcode : UInt8) (mask fin : Bool) {code : UInt8} (hcode : code < 128) :
    parse_first_bytes ((if fin then 0x80 else 0x00) ||| (opcode &&& 0x0F))
        ((if mask then 0x80 else 0x00) ||| code) =
      { fin, rsv1 := false, rsv2 := false, rsv3 := false, opcode := opcode &&& 0x0F, mask,
        payload_len := code, payload_length := code.toNat } := by
  obtain ⟨hfin, h1, h2, h3, hop⟩ := first_byte_fields fin opcode
  obtain ⟨hmask, hlen⟩ := second_byte_fields mask hcode
  simp only [parse_first_bytes, hfin, h1, h2, h3, hop, hmask, hlen]

theorem be_value_two {n : Nat} (hn : n < 2 ^ 16) :
    be_value [UInt8.ofNat (n / 2 ^ 8), UInt8.ofNat n] = n := by
  simp only [be_value, List.foldl_cons, List.foldl_nil, UInt8.toNat_ofNat']
  omega

theorem be_value_eight {n : Nat} (hn : n < 2 ^ 64) :
    be_value [UInt8.ofNat (n / 2 ^ 56), UInt8.ofNat (n / 2 ^ 48), UInt8.ofNat (n / 2 ^ 40),
      UInt8.ofNat (n / 2 ^ 32), UInt8.ofNat (n / 2 ^ 24), UInt8.ofNat (n / 2 ^ 16),
      UInt8.ofNat (n / 2 ^ 8), UInt8.ofNat n] = n := by
  simp only [be_value, List.foldl_cons, List.foldl_nil, UInt8.toNat_ofNat']
  omega

/-- Parsing recovers the header of a built frame from its header bytes, whatever
follows them. -/
theorem parse_frame_header_bytes {payload_len : Nat} (hlen : payload_len < 2 ^ 63) (opcode : UInt8)
    (mask fin : Bool) (rest : List UInt8) :
    uvhttp_ws_parse_frame_header (frame_header_bytes payload_len opcode mask fin ++ rest) =
      .ok (built_header payload_len opcode mask fin, frame_header_size payload_len) := by
  simp only [frame_header_bytes, frame_header_size, built_header]
  by_cases hsmall : payload_len < 126
  · have hval : (UInt8.ofNat payload_len).toNat = payload_len := by
      rw [UInt8.toNat_ofNat']
      omega
    have hcode : UInt8.ofNat payload_len < 128 := by
      rw [UInt8.lt_iff_toNat_lt, hval]
      exact Nat.lt_trans hsmall (by decide)
    have h126 : UInt8.ofNat payload_len ≠ 126 := fun h => by
      rw [h] at hval
      exact absurd hsmall (by rw [← hval]; decide)
    have h127 : UInt8.ofNat payload_len ≠ 127 := fun h => by
      rw [h] at hval
      exact absurd hsmall (by rw [← hval]; decide)
    simp only [hsmall, if_true, List.cons_append, List.nil_append, uvhttp_ws_parse_frame_header,
      parse_first_bytes_eq opcode mask fin hcode, h126, h127, if_false, hval]
  · by_cases hmedium : payload_len < 65536
    · simp only [hsmall, hmedium, if_true, if_false, List.cons_append, List.nil_append,
        uvhttp_ws_parse_frame_header, parse_first_bytes_eq opcode mask fin (show (126 : UInt8) < 128 by decide),
        List.length_cons, List.take_succ_cons, List.take_zero, be_value_two hmedium]
      rw [if_neg (by omega)]
    · simp only [hsmall, hmedium, if_true, if_false, List.cons_append, List.nil_append,
        uvhttp_ws_parse_frame_header, parse_first_bytes_eq opcode mask fin (show (127 : UInt8) < 128 by decide),
        List.length_cons, List.take_succ_cons, List.take_zero,
        be_value_eight (show payload_len < 2 ^ 64 by omega)]
      rw [if_neg (by decide), if_neg (by omega), if_neg (by omega)]

end uvhttp.websocket
