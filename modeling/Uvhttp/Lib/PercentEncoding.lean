import Mathlib.Tactic

/-! Percent encoding of bytes: which texts decode to which bytes, how such a text
splits, and the segments of a list between separators. -/

namespace percent

def PERCENT : UInt8 := 37

/-- The value of a hexadecimal digit. -/
def hex_value (c : UInt8) : Option UInt8 :=
  if 48 ≤ c ∧ c ≤ 57 then some (c - 48)
  else if 65 ≤ c ∧ c ≤ 70 then some (c - 55)
  else if 97 ≤ c ∧ c ≤ 102 then some (c - 87)
  else none

/-- The text of one byte: the byte itself, or an escape of it. -/
inductive Form : UInt8 → List UInt8 → Prop where
  | plain {c : UInt8} : c ≠ PERCENT → Form c [c]
  | escape {d e x y : UInt8} : hex_value d = some x → hex_value e = some y → Form (16 * x + y) [PERCENT, d, e]

/-- The text is an encoding of the bytes. -/
inductive Encodes : List UInt8 → List UInt8 → Prop where
  | nil : Encodes [] []
  | cons {c : UInt8} {form text bytes : List UInt8} : Form c form → Encodes text bytes →
      Encodes (form ++ text) (c :: bytes)

/-- Decoding, where a percent sign without two digits stays as it is. -/
def decode : List UInt8 → List UInt8
  | [] => []
  | [c] => [c]
  | [c, d] => [c, d]
  | c :: d :: e :: rest =>
    if c = PERCENT then
      match hex_value d, hex_value e with
      | some x, some y => (16 * x + y) :: decode rest
      | _, _ => c :: decode (d :: e :: rest)
    else c :: decode (d :: e :: rest)

theorem hex_value_percent : hex_value PERCENT = none := by decide

/-- What is taken from a digit can be added again. -/
theorem digit_value {c base : UInt8} (hbase : base.toNat ≤ c.toNat) :
    (c - base).toNat = c.toNat - base.toNat ∧ c = c - base + base := by
  refine ⟨UInt8.toNat_sub_of_le _ _ (UInt8.le_iff_toNat_le.mpr hbase), ?_⟩
  rw [UInt8.sub_add_cancel]

/-- A value has one digit up to nine, and two letters above. -/
theorem hex_value_eq_some {c x : UInt8} (h : hex_value c = some x) :
    x.toNat < 10 ∧ c = x + 48 ∨ 10 ≤ x.toNat ∧ x.toNat < 16 ∧ (c = x + 55 ∨ c = x + 87) := by
  rw [hex_value] at h
  simp only [UInt8.le_iff_toNat_le, UInt8.reduceToNat] at h
  split_ifs at h with hdigit hupper hlower <;> obtain rfl := Option.some.inj h
  · obtain ⟨hvalue, hdigits⟩ := @digit_value c 48 hdigit.1
    simp only [UInt8.reduceToNat] at hvalue
    exact .inl ⟨by omega, hdigits⟩
  · obtain ⟨hvalue, hdigits⟩ := @digit_value c 55 (by simp only [UInt8.reduceToNat]; omega)
    simp only [UInt8.reduceToNat] at hvalue
    exact .inr ⟨by omega, by omega, .inl hdigits⟩
  · obtain ⟨hvalue, hdigits⟩ := @digit_value c 87 (by simp only [UInt8.reduceToNat]; omega)
    simp only [UInt8.reduceToNat] at hvalue
    exact .inr ⟨by omega, by omega, .inr hdigits⟩

section forms

theorem decode_plain {c : UInt8} (hc : c ≠ PERCENT) (rest : List UInt8) : decode (c :: rest) = c :: decode rest := by
  match rest with
  | [] => rfl
  | [_] => rfl
  | _ :: _ :: _ => rw [decode, if_neg hc]

theorem decode_escape {d e x y : UInt8} (hd : hex_value d = some x) (he : hex_value e = some y) (rest : List UInt8) :
    decode (PERCENT :: d :: e :: rest) = (16 * x + y) :: decode rest := by
  rw [decode, if_pos rfl, hd, he]

theorem Form.decode_append {c : UInt8} {form : List UInt8} (h : Form c form) (rest : List UInt8) :
    decode (form ++ rest) = c :: decode rest := by
  cases h with
  | plain hc => exact decode_plain hc rest
  | escape hd he => exact decode_escape hd he rest

theorem Encodes.decode_eq {text bytes : List UInt8} (h : Encodes text bytes) : decode text = bytes := by
  induction h with
  | nil => rfl
  | cons hform _ ih => rw [hform.decode_append, ih]

theorem Encodes.append {text bytes text' bytes' : List UInt8} (h : Encodes text bytes) (h' : Encodes text' bytes') :
    Encodes (text ++ text') (bytes ++ bytes') := by
  induction h with
  | nil => exact h'
  | cons hform _ ih =>
    rw [List.append_assoc]
    exact .cons hform ih

/-- A byte is written as itself or with the digits of its halves. -/
theorem Form.cases_digits {c : UInt8} {form : List UInt8} (h : Form c form) :
    form = [c] ∨ ∃ d e, form = [PERCENT, d, e] ∧ hex_value d = some (c / 16) ∧ hex_value e = some (c % 16) := by
  cases h with
  | plain _ => exact .inl rfl
  | @escape d e x y hd he =>
    have hx : x.toNat < 16 := by rcases hex_value_eq_some hd with h | h <;> omega
    have hy : y.toNat < 16 := by rcases hex_value_eq_some he with h | h <;> omega
    have hsum : (16 * x + y).toNat = 16 * x.toNat + y.toNat := by
      simp only [UInt8.toNat_add, UInt8.toNat_mul]
      simp
      omega
    have hdiv : (16 * x + y) / 16 = x := by
      apply UInt8.toNat_inj.mp
      rw [UInt8.toNat_div, hsum]
      simp
      omega
    have hmod : (16 * x + y) % 16 = y := by
      apply UInt8.toNat_inj.mp
      rw [UInt8.toNat_mod, hsum]
      simp
      omega
    exact .inr ⟨d, e, rfl, by rw [hdiv, hd], by rw [hmod, he]⟩

theorem Form.encodes {c : UInt8} {form : List UInt8} (h : Form c form) : Encodes form [c] := by
  simpa using Encodes.cons h .nil

end forms

section splitting

/-- Where the bytes are split, the text can be split. -/
theorem Encodes.split {text front back : List UInt8} (h : Encodes text (front ++ back)) :
    ∃ text' text'', text = text' ++ text'' ∧ Encodes text' front ∧ Encodes text'' back := by
  induction front generalizing text with
  | nil => exact ⟨[], text, rfl, .nil, h⟩
  | cons c front ih =>
    cases h with
    | cons hform htext =>
      rename_i form rest
      obtain ⟨text', text'', rfl, hfront, hback⟩ := ih htext
      exact ⟨form ++ text', text'', by rw [List.append_assoc], .cons hform hfront, hback⟩

theorem Encodes.uncons {text bytes : List UInt8} {c : UInt8} (h : Encodes text (c :: bytes)) :
    ∃ form rest, text = form ++ rest ∧ Form c form ∧ Encodes rest bytes := by
  cases h with
  | cons hform htext => exact ⟨_, _, rfl, hform, htext⟩

theorem Encodes.eq_nil {text : List UInt8} (h : Encodes text []) : text = [] := by
  cases h
  rfl

/-- Before a byte that is no digit, the text can be split. -/
theorem Encodes.split_before {front rest bytes : List UInt8} {c : UInt8} (hc : hex_value c = none)
    (h : Encodes (front ++ c :: rest) bytes) :
    ∃ bytes' bytes'', Encodes front bytes' ∧ Encodes (c :: rest) bytes'' := by
  generalize htext : front ++ c :: rest = text at h
  induction h generalizing front with
  | nil => simp at htext
  | @cons b form text bytes hform hrest ih =>
    cases front with
    | nil =>
      rw [List.nil_append] at htext
      exact ⟨[], b :: bytes, .nil, htext ▸ .cons hform hrest⟩
    | cons f front =>
      cases hform with
      | plain hb =>
        obtain ⟨rfl, hsame⟩ := List.cons.inj htext
        obtain ⟨bytes', bytes'', hfront, hback⟩ := ih hsame
        exact ⟨f :: bytes', bytes'', .cons (.plain hb) hfront, hback⟩
      | @escape d e x y hd he =>
        cases front with
        | nil =>
          simp only [List.cons_append, List.nil_append, List.cons.injEq] at htext
          obtain ⟨-, rfl, -⟩ := htext
          rw [hc] at hd
          cases hd
        | cons d' front =>
          cases front with
          | nil =>
            simp only [List.cons_append, List.nil_append, List.cons.injEq] at htext
            obtain ⟨-, -, rfl, -⟩ := htext
            rw [hc] at he
            cases he
          | cons e' front =>
            simp only [List.cons_append, List.nil_append, List.cons.injEq] at htext
            obtain ⟨rfl, rfl, rfl, hsame⟩ := htext
            obtain ⟨bytes', bytes'', hfront, hback⟩ := ih hsame
            exact ⟨(16 * x + y) :: bytes', bytes'', .cons (.escape hd he) hfront, hback⟩

/-- What stands behind a percent sign of an encoding are two digits. -/
theorem Encodes.digits {front rest bytes : List UInt8} (h : Encodes (front ++ PERCENT :: rest) bytes) :
    ∃ d e more, rest = d :: e :: more ∧ (hex_value d).isSome = true ∧ (hex_value e).isSome = true := by
  obtain ⟨bytes', bytes'', -, hback⟩ := h.split_before hex_value_percent
  generalize htext : PERCENT :: rest = text at hback
  cases hback with
  | nil => cases htext
  | cons hform hmore =>
    cases hform with
    | plain hc =>
      obtain ⟨rfl, -⟩ := List.cons.inj htext
      exact absurd rfl hc
    | @escape d e x y hd he =>
      obtain ⟨-, hsame⟩ := List.cons.inj htext
      exact ⟨d, e, _, hsame, by rw [hd]; rfl, by rw [he]; rfl⟩

end splitting

section segments

variable {α : Type} {p : α → Bool}

/-- Nothing, or a separator at its end. -/
def EndsAt (p : α → Bool) (front : List α) : Prop := front = [] ∨ ∃ before c, front = before ++ [c] ∧ p c = true

/-- Nothing, or a separator at its start. -/
def StartsAt (p : α → Bool) (back : List α) : Prop := back = [] ∨ ∃ c after, back = c :: after ∧ p c = true

/-- The segments of a list are what stands between separators. -/
theorem mem_splitOnP_iff {l segment : List α} :
    segment ∈ l.splitOnP p ↔
      (∀ c ∈ segment, p c = false) ∧ ∃ front back, l = front ++ segment ++ back ∧ EndsAt p front ∧ StartsAt p back := by
  constructor
  · intro h
    induction hn : l.length using Nat.strong_induction_on generalizing l segment with
    | _ n ih =>
      by_cases hall : ∀ c ∈ l, p c = false
      · rw [List.splitOnP_eq_singleton hall, List.mem_singleton] at h
        subst h
        exact ⟨hall, [], [], by simp, .inl rfl, .inl rfl⟩
      · push Not at hall
        obtain ⟨c, hmem, hc⟩ := hall
        replace hc : p c = true := eq_true_of_ne_false hc
        obtain ⟨x, y, rfl⟩ := List.append_of_mem hmem
        rw [List.length_append, List.length_cons] at hn
        rw [List.splitOnP_append_cons _ _ hc, List.mem_append] at h
        rcases h with h | h
        · obtain ⟨hfree, front, back, rfl, hfront, hback⟩ := ih x.length (by omega) h rfl
          refine ⟨hfree, front, back ++ c :: y, by simp, hfront, .inr ?_⟩
          rcases hback with rfl | ⟨b, after, rfl, hb⟩
          · exact ⟨c, y, rfl, hc⟩
          · exact ⟨b, after ++ c :: y, rfl, hb⟩
        · obtain ⟨hfree, front, back, rfl, hfront, hback⟩ := ih y.length (by omega) h rfl
          refine ⟨hfree, x ++ c :: front, back, by simp, .inr ?_, hback⟩
          rcases hfront with rfl | ⟨before, b, rfl, hb⟩
          · exact ⟨x, c, rfl, hc⟩
          · exact ⟨x ++ c :: before, b, by simp, hb⟩
  · rintro ⟨hfree, front, back, rfl, hfront, hback⟩
    have htail : segment ∈ (segment ++ back).splitOnP p := by
      rcases hback with rfl | ⟨c, after, rfl, hc⟩
      · rw [List.append_nil, List.splitOnP_eq_singleton hfree]
        exact List.mem_singleton_self segment
      · rw [List.splitOnP_append_cons _ _ hc, List.splitOnP_eq_singleton hfree]
        exact List.mem_append_left _ (List.mem_singleton_self segment)
    rcases hfront with rfl | ⟨before, c, rfl, hc⟩
    · exact htail
    · have hlist : before ++ [c] ++ segment ++ back = before ++ c :: (segment ++ back) := by simp
      rw [hlist, List.splitOnP_append_cons _ _ hc]
      exact List.mem_append_right _ htail

end segments

end percent
