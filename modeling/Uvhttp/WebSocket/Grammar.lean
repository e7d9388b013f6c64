import Uvhttp.WebSocket.Verdict

open incremental

namespace uvhttp.websocket

/-- Where a frame spells the length of its payload: in the second byte, or in
the two or eight bytes behind it. -/
inductive LengthCode where
  | short
  | medium
  | long
  deriving DecidableEq, Repr

namespace LengthCode

/-- The first length that cannot be spelled. -/
def bound : LengthCode → Nat
  | short => 126
  | medium => 2 ^ 16
  | long => 2 ^ 64

/-- The length code of the second byte. -/
def code (declared : Nat) : LengthCode → UInt8
  | short => UInt8.ofNat declared
  | medium => 126
  | long => 127

/-- The bytes of the extended length. -/
def bytes (declared : Nat) : LengthCode → List UInt8
  | short => []
  | medium => [UInt8.ofNat (declared / 2 ^ 8), UInt8.ofNat declared]
  | long =>
    [UInt8.ofNat (declared / 2 ^ 56), UInt8.ofNat (declared / 2 ^ 48), UInt8.ofNat (declared / 2 ^ 40),
      UInt8.ofNat (declared / 2 ^ 32), UInt8.ofNat (declared / 2 ^ 24), UInt8.ofNat (declared / 2 ^ 16),
      UInt8.ofNat (declared / 2 ^ 8), UInt8.ofNat declared]

end LengthCode

/-- Any frame a peer may send, well formed or not. Its payload has the declared
length, unless the top bit of a 64-bit length is set: no payload is that long. -/
structure RawFrame where
  fin : Bool
  rsv1 : Bool
  rsv2 : Bool
  rsv3 : Bool
  opcode : Fin 16
  masking_key : Option (List UInt8)
  length_code : LengthCode
  declared : Nat
  payload : List UInt8
  key_length : ∀ key ∈ masking_key, key.length = 4
  declared_lt : declared < length_code.bound
  complete : declared < 2 ^ 63 → payload.length = declared

namespace RawFrame

def first_byte (f : RawFrame) : UInt8 :=
  (if f.fin then 0x80 else 0x00) ||| (if f.rsv1 then 0x40 else 0x00) ||| (if f.rsv2 then 0x20 else 0x00) |||
    (if f.rsv3 then 0x10 else 0x00) ||| UInt8.ofNat f.opcode

/-- The masking key, if there is one, and the payload as it is sent. -/
def body (f : RawFrame) : List UInt8 :=
  match f.masking_key with
  | none => f.payload
  | some key => key ++ uvhttp_ws_apply_mask f.payload key

/-- The header bytes. -/
def head (f : RawFrame) : List UInt8 :=
  f.first_byte :: ((if f.masking_key.isSome then 0x80 else 0x00) ||| f.length_code.code f.declared) ::
    f.length_code.bytes f.declared

def bytes (f : RawFrame) : List UInt8 := f.head ++ f.body

/-- What `uvhttp_ws_parse_frame_header` makes of the header bytes. -/
def header (f : RawFrame) : FrameHeader where
  fin := f.fin
  rsv1 := f.rsv1
  rsv2 := f.rsv2
  rsv3 := f.rsv3
  opcode := UInt8.ofNat f.opcode
  mask := f.masking_key.isSome
  payload_len := f.length_code.code f.declared
  payload_length := f.declared

theorem first_byte_fields (f : RawFrame) :
    (f.first_byte &&& 0x80 != 0) = f.fin ∧ (f.first_byte &&& 0x40 != 0) = f.rsv1 ∧
      (f.first_byte &&& 0x20 != 0) = f.rsv2 ∧ (f.first_byte &&& 0x10 != 0) = f.rsv3 ∧
      f.first_byte &&& 0x0F = UInt8.ofNat f.opcode := by
  have h : ∀ (fin rsv1 rsv2 rsv3 : Bool) (opcode : Fin 16),
      let first : UInt8 := (if fin then 0x80 else 0x00) ||| (if rsv1 then 0x40 else 0x00) |||
        (if rsv2 then 0x20 else 0x00) ||| (if rsv3 then 0x10 else 0x00) ||| UInt8.ofNat opcode
      (first &&& 0x80 != 0) = fin ∧ (first &&& 0x40 != 0) = rsv1 ∧ (first &&& 0x20 != 0) = rsv2 ∧
        (first &&& 0x10 != 0) = rsv3 ∧ first &&& 0x0F = UInt8.ofNat opcode := by decide +kernel
  exact h f.fin f.rsv1 f.rsv2 f.rsv3 f.opcode

theorem code_lt (f : RawFrame) : f.length_code.code f.declared < 128 := by
  have hlt := f.declared_lt
  cases hcode : f.length_code with
  | short =>
    rw [hcode, LengthCode.bound] at hlt
    rw [LengthCode.code, UInt8.lt_iff_toNat_lt, UInt8.toNat_ofNat', show (128 : UInt8).toNat = 128 from rfl]
    omega
  | medium => exact (by decide : (126 : UInt8) < 128)
  | long => exact (by decide : (127 : UInt8) < 128)

/-- The first two bytes carry the header but for an extended length. -/
theorem parse_head (f : RawFrame) :
    parse_first_bytes f.first_byte ((if f.masking_key.isSome then 0x80 else 0x00) ||| f.length_code.code f.declared) =
      { f.header with payload_length := (f.length_code.code f.declared).toNat } := by
  obtain ⟨hfin, h1, h2, h3, hop⟩ := f.first_byte_fields
  obtain ⟨hmask, hlen⟩ := second_byte_fields f.masking_key.isSome f.code_lt
  simp only [parse_first_bytes, hfin, h1, h2, h3, hop, hmask, hlen, header]

theorem length_head (f : RawFrame) : f.head.length = 2 + (f.length_code.bytes f.declared).length := by
  rw [head, List.length_cons, List.length_cons]
  omega

/-- The header of a frame is parsed, whatever follows, unless its length has the
top bit set. -/
theorem parse_bytes (f : RawFrame) (rest : List UInt8) :
    uvhttp_ws_parse_frame_header (f.bytes ++ rest) =
      if 2 ^ 63 ≤ f.declared then .error .INVALID_PARAM else .ok (f.header, f.head.length) := by
  have hlt := f.declared_lt
  rw [length_head, bytes, head, List.append_assoc, List.cons_append, List.cons_append, uvhttp_ws_parse_frame_header,
    parse_head]
  cases hcode : f.length_code with
  | short =>
    rw [hcode, LengthCode.bound] at hlt
    have hval : (UInt8.ofNat f.declared).toNat = f.declared := by
      rw [UInt8.toNat_ofNat']
      omega
    have hne : ∀ code : UInt8, 126 ≤ code.toNat → UInt8.ofNat f.declared ≠ code := by
      intro code hle heq
      rw [← heq, hval] at hle
      omega
    simp only [header, hcode, LengthCode.code, LengthCode.bytes]
    rw [if_neg (hne 126 (by decide)), if_neg (hne 127 (by decide)), if_neg (by omega), hval]
    rfl
  | medium =>
    rw [hcode, LengthCode.bound] at hlt
    simp only [header, hcode, LengthCode.code, LengthCode.bytes, List.cons_append, List.nil_append, if_true,
      List.length_cons, List.take_succ_cons, List.take_zero, be_value_two hlt]
    rw [if_neg (by omega), if_neg (by omega)]
    rfl
  | long =>
    rw [hcode, LengthCode.bound] at hlt
    simp only [header, hcode, LengthCode.code, LengthCode.bytes, List.cons_append, List.nil_append, if_true,
      List.length_cons, List.take_succ_cons, List.take_zero, be_value_eight hlt]
    rw [if_neg (by decide), if_neg (by omega)]
    split
    · rfl
    · rfl

theorem length_body (f : RawFrame) :
    f.body.length = f.payload.length + if f.masking_key.isSome then 4 else 0 := by
  unfold body
  cases hkey : f.masking_key with
  | none => rfl
  | some key =>
    have hlen := f.key_length key (by rw [hkey]; rfl)
    rw [List.length_append, length_apply_mask, hlen, Option.isSome_some, if_pos rfl]
    omega

theorem frame_payload_bytes (f : RawFrame) (hsmall : f.declared < 2 ^ 63) (rest : List UInt8) :
    frame_payload (f.bytes ++ rest) f.header f.head.length = f.payload := by
  have hlen := f.complete hsmall
  unfold frame_payload
  rw [bytes, List.append_assoc, header, body]
  cases hkey : f.masking_key with
  | none =>
    simp only [Option.isSome_none, Bool.false_eq_true, if_false]
    rw [List.drop_left, ← hlen, List.take_left]
  | some key =>
    have hfour := f.key_length key (by rw [hkey]; rfl)
    simp only [Option.isSome_some, if_true]
    rw [← List.drop_drop, List.drop_left, List.append_assoc, ← hfour, List.drop_left, List.take_left, ← hlen,
      show f.payload.length = (uvhttp_ws_apply_mask f.payload key).length by rw [length_apply_mask],
      List.take_left, apply_mask_apply_mask]

/-- The opcodes without a meaning. -/
def reserved_opcode (f : RawFrame) : Prop := (3 ≤ f.opcode.val ∧ f.opcode.val ≤ 7) ∨ 11 ≤ f.opcode.val

instance (f : RawFrame) : Decidable f.reserved_opcode := inferInstanceAs (Decidable (_ ∨ _))

section rules

variable (max_frame_size max_message_size : Int)

/-- The rules of the protocol that a frame from a client can break when
`pending` bytes of a message have come before it. -/
def violates (pending : Option Nat) (f : RawFrame) : Prop :=
  (f.rsv1 || f.rsv2 || f.rsv3) = true ∨ f.reserved_opcode ∨ f.masking_key = none ∨
    (8 ≤ f.opcode.val ∧ (f.fin = false ∨ 125 < f.declared)) ∨
    2 ^ 63 ≤ f.declared ∨ size_t max_frame_size < f.declared ∨
    (f.opcode.val = 0 ∧ pending = none) ∨
    ((f.opcode.val = 1 ∨ f.opcode.val = 2) ∧ pending ≠ none) ∨
    (f.opcode.val = 8 ∧ f.declared = 1) ∨
    (f.opcode.val ≤ 2 ∧ ¬ (f.fin = true ∧ pending = none) ∧
      over_limit max_message_size (pending.getD 0 + f.declared))

/-- The rules that the receive loop checks. -/
def refused (pending : Option Nat) (f : RawFrame) : Prop :=
  2 ^ 63 ≤ f.declared ∨ header_refused true max_frame_size f.header ∨
    breaks_sequence max_message_size pending f.header f.declared

/-- What has come of a message after the frame. -/
def after (pending : Option Nat) (f : RawFrame) : Option Nat := websocket.pending_after pending f.header f.declared

instance (pending : Option Nat) (f : RawFrame) : Decidable (f.violates max_frame_size max_message_size pending) := by
  unfold violates
  infer_instance

instance (pending : Option Nat) (f : RawFrame) : Decidable (f.refused max_frame_size max_message_size pending) := by
  unfold refused
  infer_instance

end rules

theorem header_opcode_eq (f : RawFrame) {n : Nat} (hn : n < 256) :
    f.header.opcode = UInt8.ofNat n ↔ f.opcode.val = n := by
  have hopcode := f.opcode.isLt
  rw [header, ← UInt8.toNat_inj, UInt8.toNat_ofNat', UInt8.toNat_ofNat']
  omega

theorem header_is_data (f : RawFrame) : is_data f.header.opcode ↔ f.opcode.val ≤ 2 := by
  have h0 := f.header_opcode_eq (n := 0) (by decide)
  have h1 := f.header_opcode_eq (n := 1) (by decide)
  have h2 := f.header_opcode_eq (n := 2) (by decide)
  constructor
  · rintro (h | h | h)
    · have := h1.mp h
      omega
    · have := h2.mp h
      omega
    · have := h0.mp h
      omega
  · intro h
    have hcases : f.opcode.val = 0 ∨ f.opcode.val = 1 ∨ f.opcode.val = 2 := by omega
    rcases hcases with h | h | h
    · exact .inr (.inr (h0.mpr h))
    · exact .inl (h1.mpr h)
    · exact .inr (.inl (h2.mpr h))

theorem header_control (f : RawFrame) : f.header.opcode ≥ OPCODE_CLOSE ↔ 8 ≤ f.opcode.val := by
  have hopcode := f.opcode.isLt
  rw [ge_iff_le, UInt8.le_iff_toNat_le, header, UInt8.toNat_ofNat', show OPCODE_CLOSE.toNat = 8 from rfl]
  omega

/-- The receive loop checks every rule but two. -/
theorem violates_iff (max_frame_size max_message_size : Int) (pending : Option Nat) (f : RawFrame) :
    f.violates max_frame_size max_message_size pending ↔
      f.refused max_frame_size max_message_size pending ∨ f.reserved_opcode ∨
        (f.opcode.val = 8 ∧ f.declared = 1) := by
  have hcont : f.header.opcode = OPCODE_CONTINUATION ↔ f.opcode.val = 0 := f.header_opcode_eq (by decide)
  have htext : f.header.opcode = OPCODE_TEXT ↔ f.opcode.val = 1 := f.header_opcode_eq (by decide)
  have hbinary : f.header.opcode = OPCODE_BINARY ↔ f.opcode.val = 2 := f.header_opcode_eq (by decide)
  have hunmasked : (true && !f.header.mask) = true ↔ f.masking_key = none := by
    simp [header]
  have hfin : (!f.header.fin) = true ↔ f.fin = false := by simp [header]
  have hrsv : (f.header.rsv1 || f.header.rsv2 || f.header.rsv3) = (f.rsv1 || f.rsv2 || f.rsv3) := rfl
  have hlen : f.header.payload_length = f.declared := rfl
  have hset : f.header.fin = f.fin := rfl
  unfold violates refused header_refused breaks_sequence
  rw [hcont, htext, hbinary, hunmasked, hfin, hrsv, hlen, hset, f.header_is_data, f.header_control]
  constructor
  · rintro (hrsv | hreserved | hmask | ⟨hcontrol, hfin | hlong⟩ | htop | hsize | hcont | hnew | hclose | hover)
    · exact .inl (.inr (.inl (.inl hrsv)))
    · exact .inr (.inl hreserved)
    · exact .inl (.inr (.inl (.inr (.inr (.inl hmask)))))
    · exact .inl (.inr (.inl (.inr (.inl ⟨hcontrol, .inr hfin⟩))))
    · exact .inl (.inr (.inl (.inr (.inl ⟨hcontrol, .inl hlong⟩))))
    · exact .inl (.inl htop)
    · exact .inl (.inr (.inl (.inr (.inr (.inr hsize)))))
    · exact .inl (.inr (.inr (.inl hcont)))
    · exact .inl (.inr (.inr (.inr (.inl hnew))))
    · exact .inr (.inr hclose)
    · exact .inl (.inr (.inr (.inr (.inr hover))))
  · rintro ((htop | (hrsv | ⟨hcontrol, hlong | hfin⟩ | hmask | hsize) | hcont | hnew | hover) | hreserved | hclose)
    · exact .inr (.inr (.inr (.inr (.inl htop))))
    · exact .inl hrsv
    · exact .inr (.inr (.inr (.inl ⟨hcontrol, .inr hlong⟩)))
    · exact .inr (.inr (.inr (.inl ⟨hcontrol, .inl hfin⟩)))
    · exact .inr (.inr (.inl hmask))
    · exact .inr (.inr (.inr (.inr (.inr (.inl hsize)))))
    · exact .inr (.inr (.inr (.inr (.inr (.inr (.inl hcont))))))
    · exact .inr (.inr (.inr (.inr (.inr (.inr (.inr (.inl hnew)))))))
    · exact .inr (.inr (.inr (.inr (.inr (.inr (.inr (.inr (.inr hover))))))))
    · exact .inr (.inl hreserved)
    · exact .inr (.inr (.inr (.inr (.inr (.inr (.inr (.inr (.inl hclose))))))))

/-- What the decoder makes of the bytes of a frame, whatever follows. -/
theorem next_bytes (max_frame_size : Int) (f : RawFrame) (rest : List UInt8) :
    (decoder true max_frame_size).next (f.bytes ++ rest) =
      if 2 ^ 63 ≤ f.declared ∨ header_refused true max_frame_size f.header then .bad
      else .frame (f.header, f.payload) f.bytes.length := by
  have htwo : 2 ≤ f.head.length := by
    rw [length_head]
    omega
  have hlen : f.bytes.length = f.head.length + f.body.length := by rw [bytes, List.length_append]
  have hall : (f.bytes ++ rest).length = f.head.length + f.body.length + rest.length := by
    rw [List.length_append, hlen]
  simp only [decoder, next_frame]
  rw [if_neg (by omega), f.parse_bytes rest]
  by_cases htop : 2 ^ 63 ≤ f.declared
  · have hbad : 2 ^ 63 ≤ f.declared ∨ header_refused true max_frame_size f.header := .inl htop
    have hlong : f.length_code = .long := by
      have hlt := f.declared_lt
      cases hcode : f.length_code with
      | short =>
        rw [hcode, LengthCode.bound] at hlt
        omega
      | medium =>
        rw [hcode, LengthCode.bound] at hlt
        omega
      | long => rfl
    have hten : f.head.length = 10 := by rw [length_head, hlong, LengthCode.bytes]; rfl
    have hneed : header_need (f.bytes ++ rest) ≤ 10 := by
      unfold header_need
      dsimp only
      split
      · omega
      · split
        · omega
        · omega
    rw [if_pos htop, if_pos hbad]
    dsimp only
    rw [if_neg (by omega)]
  · rw [if_neg htop]
    dsimp only
    by_cases hrefused : header_refused true max_frame_size f.header
    · rw [if_pos hrefused, if_pos (.inr hrefused)]
    · have htotal : total_frame_size f.header f.head.length = f.bytes.length := by
        rw [hlen, length_body, f.complete (by omega), ← Nat.add_assoc]
        rfl
      have hgood : ¬ (2 ^ 63 ≤ f.declared ∨ header_refused true max_frame_size f.header) := by
        rintro (h | h)
        · exact htop h
        · exact hrefused h
      rw [if_neg hrefused, if_neg hgood, htotal, if_neg (by omega), f.frame_payload_bytes (by omega)]

end RawFrame

section sequences

variable (max_frame_size max_message_size : Int)

/-- Some frame of the sequence breaks a rule of the protocol. -/
def Violation (pending : Option Nat) : List RawFrame → Prop
  | [] => False
  | f :: frames => f.violates max_frame_size max_message_size pending ∨ Violation (f.after pending) frames

/-- Some frame of the sequence breaks a rule that the receive loop checks, where
a message counts from its first byte. -/
def Refused (pending : Option Nat) : List RawFrame → Prop
  | [] => False
  | f :: frames => f.refused max_frame_size max_message_size pending ∨ Refused (started (f.after pending)) frames

/-- A frame that breaks a rule unnoticed: a reserved opcode, a close frame with
a payload of one byte, and a new message inside one that has only had empty
fragments. -/
def RawFrame.overlooked (pending : Option Nat) (f : RawFrame) : Prop :=
  f.reserved_opcode ∨ (f.opcode.val = 8 ∧ f.declared = 1) ∨
    (pending = some 0 ∧ (f.opcode.val = 1 ∨ f.opcode.val = 2))

instance (pending : Option Nat) (f : RawFrame) : Decidable (f.overlooked pending) := by
  unfold RawFrame.overlooked
  infer_instance

/-- The receive loop refuses the sequence when it should. Up to the first frame
that it refuses rightly, nothing is overlooked, and no continuation comes after
only empty fragments, which the loop refuses though it is none; or another frame
of the sequence makes up for it. -/
def Judged (pending : Option Nat) : List RawFrame → Prop
  | [] => True
  | f :: frames =>
    if f.refused max_frame_size max_message_size (started pending) ∧
        f.violates max_frame_size max_message_size pending then True
    else if pending = some 0 ∧ f.opcode.val = 0 then
      Violation max_frame_size max_message_size (f.after pending) frames
    else if f.overlooked pending then
      Refused max_frame_size max_message_size (started (f.after pending)) frames
    else Judged (f.after pending) frames

instance Violation.decidable (pending : Option Nat) :
    (frames : List RawFrame) → Decidable (Violation max_frame_size max_message_size pending frames)
  | [] => inferInstanceAs (Decidable False)
  | f :: frames =>
    have := Violation.decidable (f.after pending) frames
    inferInstanceAs (Decidable (_ ∨ _))

instance Refused.decidable (pending : Option Nat) :
    (frames : List RawFrame) → Decidable (Refused max_frame_size max_message_size pending frames)
  | [] => inferInstanceAs (Decidable False)
  | f :: frames =>
    have := Refused.decidable (started (f.after pending)) frames
    inferInstanceAs (Decidable (_ ∨ _))

instance Judged.decidable (pending : Option Nat) :
    (frames : List RawFrame) → Decidable (Judged max_frame_size max_message_size pending frames)
  | [] => inferInstanceAs (Decidable True)
  | f :: frames =>
    have := Judged.decidable (f.after pending) frames
    inferInstanceAs (Decidable (
      if f.refused max_frame_size max_message_size (started pending) ∧
          f.violates max_frame_size max_message_size pending then True
      else if pending = some 0 ∧ f.opcode.val = 0 then
        Violation max_frame_size max_message_size (f.after pending) frames
      else if f.overlooked pending then
        Refused max_frame_size max_message_size (started (f.after pending)) frames
      else Judged max_frame_size max_message_size (f.after pending) frames))

variable {max_frame_size max_message_size}

theorem getD_started (pending : Option Nat) : (started pending).getD 0 = pending.getD 0 := by
  cases pending with
  | none => rfl
  | some len =>
    rw [started, Option.filter_some]
    split
    · rfl
    · rename_i hzero
      simp only [decide_eq_true_eq, Nat.not_lt, Nat.le_zero] at hzero
      rw [hzero]
      rfl

theorem started_started (pending : Option Nat) : started (started pending) = started pending := by
  rw [started, started, Option.filter_filter]
  simp

/-- What the loop has collected after a frame follows from what has come. -/
theorem started_after (pending : Option Nat) (f : RawFrame) :
    started (f.after (started pending)) = started (f.after pending) := by
  unfold RawFrame.after pending_after
  rw [getD_started]
  split
  · rfl
  · exact started_started pending

/-- The bytes of frames are refused when one of the frames is. -/
theorem decode_frames_refused {pending : Option Nat} (frames : List RawFrame) :
    (decode (decoder true max_frame_size) (judge max_message_size) pending
        (frames.map RawFrame.bytes).flatten).final = none ↔
      Refused max_frame_size max_message_size pending frames := by
  induction frames generalizing pending with
  | nil =>
    rw [List.map_nil, List.flatten_nil, decode_more (Decoder.next_nil _), Refused]
    simp
  | cons f frames ih =>
    have hnext := f.next_bytes max_frame_size (frames.map RawFrame.bytes).flatten
    rw [List.map_cons, List.flatten_cons, Refused, RawFrame.refused]
    by_cases hbad : 2 ^ 63 ≤ f.declared ∨ header_refused true max_frame_size f.header
    · rw [if_pos hbad] at hnext
      rw [decode_bad hnext]
      refine iff_of_true rfl (.inl ?_)
      rcases hbad with h | h
      · exact .inl h
      · exact .inr (.inl h)
    · rw [if_neg hbad] at hnext
      have hlen : f.payload.length = f.declared := f.complete (by
        by_contra hlarge
        exact hbad (.inl (by omega)))
      by_cases hbreaks : breaks_sequence max_message_size pending f.header f.declared
      · have hjudge : judge max_message_size pending (f.header, f.payload) = none := by
          rw [judge, hlen, if_pos hbreaks]
        rw [decode_refused hnext hjudge]
        exact iff_of_true rfl (.inl (.inr (.inr hbreaks)))
      · have hjudge : judge max_message_size pending (f.header, f.payload) =
            some (started (f.after pending), []) := by
          rw [judge, hlen, if_neg hbreaks]
          rfl
        rw [decode_frame hnext hjudge, Outcome.after_final, List.drop_left, ih]
        constructor
        · exact .inr
        · rintro ((h | h | h) | h)
          · exact absurd (.inl h) hbad
          · exact absurd (.inr h) hbad
          · exact absurd h hbreaks
          · exact h

theorem breaks_sequence_started {pending : Option Nat} {f : RawFrame} (h : pending = some 0 → 2 < f.opcode.val) :
    breaks_sequence max_message_size (started pending) f.header f.declared ↔
      breaks_sequence max_message_size pending f.header f.declared := by
  by_cases hzero : pending = some 0
  · have hcontrol : ∀ pending, ¬ breaks_sequence max_message_size pending f.header f.declared := by
      have hdata : ¬ is_data f.header.opcode := by
        rw [f.header_is_data]
        have := h hzero
        omega
      rintro pending (⟨hcont, -⟩ | ⟨hnew, -⟩ | ⟨hover, -⟩)
      · exact hdata (.inr (.inr hcont))
      · exact hdata (hnew.imp id .inl)
      · exact hdata hover
    exact iff_of_false (hcontrol _) (hcontrol _)
  · have hsame : started pending = pending := by
      cases pending with
      | none => rfl
      | some len =>
        rw [started, Option.filter_some, if_pos]
        rw [decide_eq_true_eq, Nat.pos_iff_ne_zero]
        intro hlen
        exact hzero (by rw [hlen])
    rw [hsame]

/-- The rules checked and the rules of the protocol lead to the same verdict on
the judged sequences. -/
theorem refused_iff_violation (pending : Option Nat) (frames : List RawFrame) :
    (Refused max_frame_size max_message_size (started pending) frames ↔
        Violation max_frame_size max_message_size pending frames) ↔
      Judged max_frame_size max_message_size pending frames := by
  induction frames generalizing pending with
  | nil => exact iff_of_true Iff.rfl trivial
  | cons f frames ih =>
    have hviolates := f.violates_iff max_frame_size max_message_size pending
    rw [Refused, Violation, Judged, started_after]
    by_cases hboth : f.refused max_frame_size max_message_size (started pending) ∧
        f.violates max_frame_size max_message_size pending
    · rw [if_pos hboth]
      exact iff_of_true (iff_of_true (.inl hboth.1) (.inl hboth.2)) trivial
    · rw [if_neg hboth]
      by_cases hcontinued : pending = some 0 ∧ f.opcode.val = 0
      · have hrefused : f.refused max_frame_size max_message_size (started pending) := by
          rw [hcontinued.1]
          exact .inr (.inr (.inl ⟨(f.header_opcode_eq (by decide)).mpr hcontinued.2, rfl⟩))
        have hallowed : ¬ f.violates max_frame_size max_message_size pending := fun h => hboth ⟨hrefused, h⟩
        rw [if_pos hcontinued]
        constructor
        · intro h
          exact (h.mp (.inl hrefused)).resolve_left hallowed
        · intro h
          exact iff_of_true (.inl hrefused) (.inr h)
      · rw [if_neg hcontinued]
        by_cases hoverlooked : f.overlooked pending
        · have hbroken : f.violates max_frame_size max_message_size pending := by
            rcases hoverlooked with h | h | ⟨hpending, hnew⟩
            · exact hviolates.mpr (.inr (.inl h))
            · exact hviolates.mpr (.inr (.inr h))
            · exact .inr (.inr (.inr (.inr (.inr (.inr (.inr (.inl ⟨hnew, by simp [hpending]⟩)))))))
          have hpassed : ¬ f.refused max_frame_size max_message_size (started pending) :=
            fun h => hboth ⟨h, hbroken⟩
          rw [if_pos hoverlooked]
          constructor
          · intro h
            exact (h.mpr (.inl hbroken)).resolve_left hpassed
          · intro h
            exact iff_of_true (.inr h) (.inl hbroken)
        · rw [if_neg hoverlooked]
          have hagree : f.refused max_frame_size max_message_size (started pending) ↔
              f.violates max_frame_size max_message_size pending := by
            have hdata : pending = some 0 → 2 < f.opcode.val := by
              intro hpending
              by_contra hsmall
              have hcases : f.opcode.val = 0 ∨ f.opcode.val = 1 ∨ f.opcode.val = 2 := by omega
              rcases hcases with h | h | h
              · exact hcontinued ⟨hpending, h⟩
              · exact hoverlooked (.inr (.inr ⟨hpending, .inl h⟩))
              · exact hoverlooked (.inr (.inr ⟨hpending, .inr h⟩))
            rw [hviolates, RawFrame.refused, breaks_sequence_started hdata]
            refine ⟨.inl, ?_⟩
            rintro (h | h | h)
            · exact h
            · exact absurd (.inl h) hoverlooked
            · exact absurd (.inr (.inl h)) hoverlooked
          have hneither : ¬ f.violates max_frame_size max_message_size pending :=
            fun h => hboth ⟨hagree.mpr h, h⟩
          rw [hagree, ← ih (f.after pending)]
          simp only [hneither, false_or]

end sequences

/-- A server connection that is open and holds nothing of a frame or a message. -/
structure OpenServer (conn : WsConnection) : Prop where
  state : conn.state = .OPEN
  is_server : conn.is_server = true
  recv_buffer : conn.recv_buffer = []
  fragmented_message : conn.fragmented_message = none
  size_pos : 0 < conn.recv_buffer_size

theorem process_chunks_refused_iff {env : WsEnv} (henv : env.Tame) {conn : WsConnection} (hconn : OpenServer conn)
    {frames : List RawFrame} {chunks : List (List UInt8)}
    (hchunks : chunks.flatten = (frames.map RawFrame.bytes).flatten) (hfits : FitsBuffer env conn chunks)
    (hobject : chunks.flatten.length ≤ 2 ^ 63) :
    (process_chunks env conn chunks).1 ≠ .OK ↔
      Refused conn.max_frame_size conn.max_message_size none frames := by
  have hjudged := process_chunks_judged henv (.idle hconn.fragmented_message) hconn.size_pos
    (by rw [hconn.recv_buffer]; exact Decoder.next_nil _) hfits (by
      rw [hconn.recv_buffer, List.nil_append, Option.getD_none, Nat.zero_add]
      exact hobject)
  rw [hconn.recv_buffer, List.nil_append, hconn.is_server, hchunks, decode_frames_refused] at hjudged
  exact hjudged

/-- Any frames, delivered to an open server connection in any chunks that fit
its receive buffer, make a call fail exactly when one of them breaks a rule of
the protocol, if and only if the sequence is judged. -/
theorem process_chunks_grammar_iff {env : WsEnv} (henv : env.Tame) {conn : WsConnection} (hconn : OpenServer conn)
    {frames : List RawFrame} {chunks : List (List UInt8)}
    (hchunks : chunks.flatten = (frames.map RawFrame.bytes).flatten) (hfits : FitsBuffer env conn chunks)
    (hobject : chunks.flatten.length ≤ 2 ^ 63) :
    ((process_chunks env conn chunks).1 ≠ .OK ↔
        Violation conn.max_frame_size conn.max_message_size none frames) ↔
      Judged conn.max_frame_size conn.max_message_size none frames := by
  rw [process_chunks_refused_iff henv hconn hchunks hfits hobject]
  exact refused_iff_violation none frames

theorem opened_openServer (max_frame_size max_message_size : Int) :
    OpenServer (opened max_frame_size max_message_size) :=
  ⟨rfl, rfl, rfl, rfl, Nat.succ_pos _⟩

theorem opened_fits (max_frame_size max_message_size : Int) {chunk : List UInt8} (hlen : chunk.length ≤ 64 * 1024) :
    FitsBuffer .obliging (opened max_frame_size max_message_size) [chunk] := by
  refine ⟨?_, fun _ => trivial⟩
  rw [show (opened max_frame_size max_message_size).recv_buffer.length = 0 from rfl, Nat.zero_add]
  exact Nat.le_trans hlen (Nat.le_max_left _ _)

/-- A masked frame with a short payload. -/
def short_frame (fin : Bool) (opcode : Fin 16) (payload : List UInt8) (hlen : payload.length < 126) : RawFrame where
  fin
  rsv1 := false
  rsv2 := false
  rsv3 := false
  opcode
  masking_key := some [1, 2, 3, 4]
  length_code := .short
  declared := payload.length
  payload
  key_length := by simp
  declared_lt := hlen
  complete := fun _ => rfl

/-- A message of two fragments, and a third frame that continues nothing. -/
theorem process_chunks_orphan :
    let frames := [short_frame false 1 [0x61] (by decide), short_frame true 0 [0x62] (by decide),
      short_frame true 0 [0x63] (by decide)]
    (process_chunks .obliging (opened 1024 1024) [(frames.map RawFrame.bytes).flatten]).1 ≠ .OK ↔
      Violation 1024 1024 none frames := by
  intro frames
  exact (process_chunks_grammar_iff WsEnv.obliging_quiet.tame (opened_openServer 1024 1024) (List.append_nil _)
    (opened_fits 1024 1024 (by decide)) (by decide)).mpr (by decide)

def empty_first_fragment : List RawFrame :=
  [short_frame false 1 [] (by decide), short_frame true 0 [0x61] (by decide)]

def reserved_frame : List RawFrame := [short_frame true 3 [] (by decide)]

/-- A message that starts with an empty fragment is refused, and a frame with a
reserved opcode is not. -/
theorem process_chunks_misjudged :
    ((process_chunks .obliging (opened 1024 1024) [(empty_first_fragment.map RawFrame.bytes).flatten]).1 ≠ .OK ∧
        ¬ Violation 1024 1024 none empty_first_fragment) ∧
      (process_chunks .obliging (opened 1024 1024) [(reserved_frame.map RawFrame.bytes).flatten]).1 = .OK ∧
        Violation 1024 1024 none reserved_frame := by
  have hrefused : ∀ frames : List RawFrame, (frames.map RawFrame.bytes).flatten.length ≤ 64 * 1024 →
      ((process_chunks .obliging (opened 1024 1024) [(frames.map RawFrame.bytes).flatten]).1 ≠ .OK ↔
        Refused 1024 1024 none frames) := by
    intro frames hlen
    refine process_chunks_refused_iff WsEnv.obliging_quiet.tame (opened_openServer 1024 1024) (List.append_nil _)
      (opened_fits 1024 1024 hlen) ?_
    rw [List.flatten_cons, List.flatten_nil, List.append_nil]
    omega
  refine ⟨⟨(hrefused _ (by decide)).mpr (by decide), by decide⟩, ?_, by decide⟩
  have haccepted := mt (hrefused reserved_frame (by decide)).mp (by decide)
  exact not_not.mp haccepted

end uvhttp.websocket
