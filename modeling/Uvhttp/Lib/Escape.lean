import Mathlib.Tactic

/-! Escaping with entities: texts that stand for single characters and begin with a marker. -/

namespace escaping

variable {α : Type}

/-- Characters with the entities that stand for them. An entity begins with the
marker and has it nowhere else, no entity begins another one, and the marker
itself has an entity. -/
structure Table (α : Type) where
  entities : List (α × List α)
  marker : α
  starts : ∀ e ∈ entities, ∃ rest, e.2 = marker :: rest ∧ marker ∉ rest
  apart : ∀ e ∈ entities, ∀ e' ∈ entities, e.2 <+: e'.2 → e = e'
  escaped : ∃ e ∈ entities, e.1 = marker

variable [DecidableEq α] (t : Table α)

/-- What stands for a character: its entity, or the character itself. -/
def encode (c : α) : List α :=
  (t.entities.find? fun e => c = e.1).elim [c] Prod.snd

/-- Replace the entities by their characters, after `skip` characters that belong to one. -/
def decode_from : List α → Nat → List α
  | [], _ => []
  | _ :: text, skip + 1 => decode_from text skip
  | c :: text, 0 =>
    match t.entities.find? fun e => e.2.isPrefixOf (c :: text) with
    | none => c :: decode_from text 0
    | some e => e.1 :: decode_from text (e.2.length - 1)

def decode (text : List α) : List α := decode_from t text 0

/-- Every marker in the text begins an entity. -/
def Escaped (text : List α) : Prop :=
  ∀ before after, text = before ++ t.marker :: after → ∃ e ∈ t.entities, e.2 <+: t.marker :: after

variable {t} {c : α}

/-- A character has an entity, or it is not the marker and stands for itself. -/
theorem encode_cases (c : α) :
    (∃ rest, (c, t.marker :: rest) ∈ t.entities ∧ t.marker ∉ rest ∧ encode t c = t.marker :: rest) ∨
      c ≠ t.marker ∧ encode t c = [c] := by
  rw [encode]
  cases hfind : t.entities.find? fun e => c = e.1 with
  | none =>
    refine .inr ⟨?_, rfl⟩
    rintro rfl
    obtain ⟨e, he, hmarker⟩ := t.escaped
    exact List.find?_eq_none.mp hfind e he (decide_eq_true hmarker.symm)
  | some e =>
    have he := List.mem_of_find?_eq_some hfind
    have htest := List.find?_some hfind
    have hc : c = e.1 := of_decide_eq_true htest
    obtain ⟨rest, htext, hrest⟩ := t.starts e he
    refine .inl ⟨rest, ?_, hrest, htext⟩
    rw [hc, ← htext]
    exact he

theorem decode_from_skip (text rest : List α) : decode_from t (text ++ rest) text.length = decode t rest := by
  induction text with
  | nil => rfl
  | cons c text ih => exact ih

/-- What stands for a character is replaced by it. -/
theorem decode_encode_append (c : α) (rest : List α) : decode t (encode t c ++ rest) = c :: decode t rest := by
  rcases encode_cases (t := t) c with ⟨entity, hmem, -, hencode⟩ | ⟨hc, hencode⟩
  · have hfind : t.entities.find? (fun e => e.2.isPrefixOf (t.marker :: (entity ++ rest))) =
        some (c, t.marker :: entity) := by
      cases hfound : t.entities.find? (fun e => e.2.isPrefixOf (t.marker :: (entity ++ rest))) with
      | none =>
        have hnone := List.find?_eq_none.mp hfound _ hmem
        exact absurd (List.isPrefixOf_iff_prefix.mpr (List.prefix_append (t.marker :: entity) rest)) hnone
      | some e =>
        have he := List.mem_of_find?_eq_some hfound
        have htest := List.find?_some hfound
        have hbegins : e.2 <+: (t.marker :: entity) ++ rest := List.isPrefixOf_iff_prefix.mp htest
        rcases List.prefix_or_prefix_of_prefix hbegins (List.prefix_append (t.marker :: entity) rest) with h | h
        · rw [t.apart e he _ hmem h]
        · rw [← t.apart _ hmem e he h]
    rw [hencode, List.cons_append, decode, decode_from, hfind]
    exact congrArg (c :: ·) (decode_from_skip entity rest)
  · have hfind : t.entities.find? (fun e => e.2.isPrefixOf (c :: rest)) = none := by
      refine List.find?_eq_none.mpr fun e he hbegins => ?_
      obtain ⟨entity, htext, -⟩ := t.starts e he
      rw [htext] at hbegins
      exact hc (List.cons_prefix_cons.mp (List.isPrefixOf_iff_prefix.mp hbegins)).1.symm
    rw [hencode, List.singleton_append, decode, decode_from, hfind]
    rfl

/-- Replacing the entities gives back what was encoded. -/
theorem decode_encode (text : List α) : decode t (text.flatMap (encode t)) = text := by
  induction text with
  | nil => rfl
  | cons c text ih => rw [List.flatMap_cons, decode_encode_append, ih]

/-- Where the marker stands in what is put for a character, an entity begins. -/
theorem encode_begins {before after : List α} (h : encode t c = before ++ t.marker :: after) :
    ∃ e ∈ t.entities, e.2 = t.marker :: after := by
  rcases encode_cases (t := t) c with ⟨entity, hmem, hentity, hencode⟩ | ⟨hc, hencode⟩
  · rw [hencode] at h
    cases before with
    | nil => exact ⟨_, hmem, h⟩
    | cons b before =>
      refine absurd ?_ hentity
      rw [(List.cons.inj h).2]
      exact List.mem_append_right _ List.mem_cons_self
  · rw [hencode] at h
    refine absurd ?_ hc
    have hmarker : t.marker ∈ [c] := h ▸ List.mem_append_right _ List.mem_cons_self
    exact (List.mem_singleton.mp hmarker).symm

theorem escaped_encode (text : List α) : Escaped t (text.flatMap (encode t)) := by
  induction text with
  | nil => exact fun before after h => absurd h.symm (List.append_ne_nil_of_right_ne_nil _ (List.cons_ne_nil _ _))
  | cons c text ih =>
    intro before after h
    rw [List.flatMap_cons] at h
    rcases List.append_eq_append_iff.mp h with ⟨more, -, hrest⟩ | ⟨more, hencode, hrest⟩
    · exact ih more after hrest
    · cases more with
      | nil => exact ih [] after hrest.symm
      | cons d more =>
        obtain ⟨rfl, hafter⟩ := List.cons.inj hrest
        obtain ⟨e, he, htext⟩ := encode_begins hencode
        refine ⟨e, he, ?_⟩
        rw [htext, hafter]
        exact List.prefix_append (t.marker :: more) _

end escaping
