import Mathlib.Data.List.Basic
import Mathlib.Tactic

/-! Buffers that make room: as long as a buffer is full, the last of its items that may
be evicted goes. -/

namespace eviction

variable {α : Type}

/-- The last item that may be evicted goes. -/
inductive Evicts (evictable : α → Bool) : List α → α → List α → Prop where
  | last (before : List α) (a : α) (after : List α) (h : evictable a = true)
      (hafter : ∀ b ∈ after, evictable b = false) : Evicts evictable (before ++ a :: after) a (before ++ after)

/-- Some evictions one after the other, each of them because the buffer is full. -/
inductive Evicted (evictable : α → Bool) (full : List α → Bool) : Nat → List α → List α → Prop where
  | refl (items : List α) : Evicted evictable full 0 items items
  | next {n : Nat} {a : α} {items rest kept : List α} (hfull : full items = true) (h : Evicts evictable items a rest)
      (hlater : Evicted evictable full n rest kept) : Evicted evictable full (n + 1) items kept

/-- Evictions come to an end: the buffer can be emptied, or it has room once the items
that may be evicted are gone from some item on. -/
def Frees (evictable : α → Bool) (full : List α → Bool) (items : List α) : Prop :=
  (∀ a ∈ items, evictable a = true) ∨
    ∃ before after, items = before ++ after ∧ full (before ++ after.filter fun a => !evictable a) = false

variable {evictable : α → Bool} {full : List α → Bool} {items rest kept : List α} {a : α} {n : Nat}

section evictions

/-- What may not be evicted can follow. -/
theorem Evicts.append_singleton (h : Evicts evictable items a rest) {last : α} (hlast : evictable last = false) :
    Evicts evictable (items ++ [last]) a (rest ++ [last]) := by
  cases h with
  | last before _ after h hafter =>
    rw [List.append_assoc, List.append_assoc, List.cons_append]
    refine .last before a (after ++ [last]) h fun b hb => ?_
    obtain hb | hb := List.mem_append.mp hb
    · exact hafter b hb
    · rw [List.mem_singleton.mp hb, hlast]

theorem Evicts.mem (h : Evicts evictable items a rest) : a ∈ items ∧ evictable a = true := by
  cases h with
  | last before _ after h hafter => exact ⟨by simp, h⟩

/-- It is the last of those that may be evicted. -/
theorem Evicts.getLast_filter (h : Evicts evictable items a rest) :
    (items.filter evictable).getLast? = some a := by
  cases h with
  | last before _ after h hafter =>
    have hnone : after.filter evictable = [] := by
      rw [List.filter_eq_nil_iff]
      intro b hb
      rw [hafter b hb]
      exact Bool.false_ne_true
    rw [List.filter_append, List.filter_cons_of_pos h, hnone, List.getLast?_concat]

theorem Evicts.sublist (h : Evicts evictable items a rest) : rest.Sublist items := by
  cases h with
  | last before _ after h hafter => exact (List.sublist_cons_self a after).append_left before

theorem Evicts.length_eq (h : Evicts evictable items a rest) : items.length = rest.length + 1 := by
  cases h with
  | last before _ after h hafter =>
    rw [List.length_append, List.length_append, List.length_cons, Nat.add_assoc]

theorem Evicts.first_part (h : Evicts evictable items a rest) (hall : ∀ b ∈ items, evictable b = true) :
    rest <+: items := by
  cases h with
  | last before _ after h hafter =>
    cases after with
    | nil =>
      rw [List.append_nil]
      exact List.prefix_append before [a]
    | cons b after =>
      have hb := hall b (by simp)
      rw [hafter b List.mem_cons_self] at hb
      cases hb

theorem Evicted.sublist (h : Evicted evictable full n items kept) : kept.Sublist items := by
  induction h with
  | refl items => exact List.Sublist.refl items
  | next hfull hevicts hlater ih => exact ih.trans hevicts.sublist

theorem Evicted.length_eq (h : Evicted evictable full n items kept) : items.length = kept.length + n := by
  induction h with
  | refl items => rfl
  | next hfull hevicts hlater ih => rw [hevicts.length_eq, ih, Nat.add_assoc]

theorem Evicted.eq_of_room (h : Evicted evictable full n items kept) (hroom : full items = false) : kept = items := by
  cases h with
  | refl _ => rfl
  | next hfull hevicts hlater =>
    rw [hfull] at hroom
    cases hroom

/-- When every item may be evicted, a first part of the items is left. -/
theorem Evicted.first_part (h : Evicted evictable full n items kept) (hall : ∀ b ∈ items, evictable b = true) :
    kept <+: items := by
  induction h with
  | refl items => exact List.prefix_refl items
  | next hfull hevicts hlater ih =>
    exact (ih fun b hb => hall b (hevicts.sublist.subset hb)).trans (hevicts.first_part hall)

theorem Evicted.trans {m : Nat} {left : List α} (h : Evicted evictable full n items kept)
    (hlater : Evicted evictable full m kept left) : Evicted evictable full (n + m) items left := by
  induction h with
  | refl items =>
    rw [Nat.zero_add]
    exact hlater
  | next hfull hevicts _ ih =>
    rw [Nat.add_right_comm]
    exact .next hfull hevicts (ih hlater)

end evictions

section ends

theorem not_frees (h : ¬Frees evictable full items) : full items = true ∧ items ≠ [] := by
  rw [Frees, not_or] at h
  refine ⟨?_, ?_⟩
  · by_contra hroom
    refine h.2 ⟨items, [], (List.append_nil items).symm, ?_⟩
    rw [List.filter_nil, List.append_nil]
    exact Bool.not_eq_true _ ▸ hroom
  · rintro rfl
    exact h.1 nofun

theorem filter_protected {after : List α} (h : ∀ b ∈ after, evictable b = false) :
    (after.filter fun b => !evictable b) = after := by
  rw [List.filter_eq_self]
  intro b hb
  rw [h b hb]
  rfl

/-- A full buffer of which nothing may be evicted never has room, unless it is empty. -/
theorem Frees.eq_nil (h : Frees evictable full items) (hfull : full items = true)
    (hall : ∀ b ∈ items, evictable b = false) : items = [] := by
  obtain hfree | ⟨before, after, rfl, hroom⟩ := h
  · refine List.eq_nil_iff_forall_not_mem.mpr fun b hb => ?_
    have hb' := hfree b hb
    rw [hall b hb] at hb'
    cases hb'
  · rw [filter_protected fun b hb => hall b (List.mem_append_right before hb), hfull] at hroom
    cases hroom

/-- What gives room after an eviction gave it before. -/
theorem Evicts.frees_of_rest (h : Evicts evictable items a rest) (hrest : Frees evictable full rest) :
    Frees evictable full items := by
  cases h with
  | last before _ after h hafter =>
    have hgone : ∀ front : List α, ((front ++ a :: after).filter fun b => !evictable b) =
        (front ++ after).filter fun b => !evictable b := by
      intro front
      rw [List.filter_append, List.filter_append, List.filter_cons_of_neg (by rw [h]; exact Bool.false_ne_true)]
    obtain hall | ⟨front, back, hsplit, hroom⟩ := hrest
    · left
      intro b hb
      rw [List.mem_append, List.mem_cons] at hb
      obtain hb | hb | hb := hb
      · exact hall b (List.mem_append_left after hb)
      · rw [hb]
        exact h
      · exact hall b (List.mem_append_right before hb)
    · right
      obtain ⟨middle, rfl, rfl⟩ | ⟨middle, rfl, rfl⟩ := List.append_eq_append_iff.mp hsplit
      · refine ⟨before, a :: (middle ++ back), rfl, ?_⟩
        rw [filter_protected fun b hb => hafter b (List.mem_append_right middle hb), List.append_assoc] at hroom
        rw [List.filter_cons_of_neg (by rw [h]; exact Bool.false_ne_true), filter_protected hafter]
        exact hroom
      · refine ⟨front, middle ++ a :: after, List.append_assoc front middle _, ?_⟩
        rw [hgone]
        exact hroom

/-- A full buffer comes to an end exactly if it does after one more eviction. -/
theorem Evicts.frees_iff (h : Evicts evictable items a rest) (hfull : full items = true) :
    Frees evictable full items ↔ Frees evictable full rest := by
  refine ⟨?_, h.frees_of_rest⟩
  have hsub := h.sublist
  cases h with
  | last before _ after h hafter =>
    rintro (hall | ⟨front, back, hsplit, hroom⟩)
    · exact .inl fun b hb => hall b (hsub.subset hb)
    · right
      obtain ⟨middle, rfl, hback⟩ | ⟨middle, rfl, rfl⟩ := List.append_eq_append_iff.mp hsplit
      · cases middle with
        | nil =>
          rw [List.nil_append] at hback
          refine ⟨before, after, rfl, ?_⟩
          rw [← hback, List.append_nil, List.filter_cons_of_neg (by rw [h]; exact Bool.false_ne_true)] at hroom
          exact hroom
        | cons b middle =>
          exfalso
          obtain ⟨rfl, rfl⟩ := List.cons.inj hback
          rw [filter_protected fun b hb => hafter b (List.mem_append_right middle hb), ← hsplit, hfull] at hroom
          cases hroom
      · refine ⟨front, middle ++ after, List.append_assoc front middle after, ?_⟩
        rw [List.filter_append, List.filter_cons_of_neg (by rw [h]; exact Bool.false_ne_true),
          ← List.filter_append] at hroom
        exact hroom

theorem Evicted.frees_iff (h : Evicted evictable full n items kept) :
    Frees evictable full items ↔ Frees evictable full kept := by
  induction h with
  | refl items => rfl
  | next hfull hevicts hlater ih => rw [hevicts.frees_iff hfull, ih]

end ends

end eviction
