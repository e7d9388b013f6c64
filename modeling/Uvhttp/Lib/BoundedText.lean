import Mathlib.Tactic

/-! Text that is printed piece by piece into a buffer of a fixed size, at an offset that
counts what was printed whether or not it found room. -/

namespace bounded_text

variable {α : Type}

/-- A buffer while text is printed into it: its size, the offset, what was written, and
whether the offset ever was behind the end. -/
structure Buffer (α : Type) where
  size : Nat
  offset : Nat
  text : List α
  exceeded : Bool

def Buffer.empty (size : Nat) : Buffer α := ⟨size, 0, [], false⟩

/-- What finds room of a piece that is printed at the offset. The last place is kept for
a terminator. -/
def Buffer.room (b : Buffer α) (piece : List α) : List α := piece.take (b.size - b.offset - 1)

/-- Print a piece, and move the offset behind it. -/
def Buffer.print (b : Buffer α) (piece : List α) : Buffer α :=
  { b with
    offset := b.offset + piece.length
    text := b.text ++ b.room piece
    exceeded := b.exceeded || b.offset + piece.length > b.size }

/-- What the buffer holds after a last piece. -/
def Buffer.finish (b : Buffer α) (piece : List α) : List α := b.text ++ b.room piece

/-- This was printed into the buffer. -/
structure Printed (b : Buffer α) (size : Nat) (printed : List α) : Prop where
  size_eq : b.size = size
  offset : b.offset = printed.length
  text : b.text = printed.take (size - 1)
  exceeded : b.exceeded = true ↔ size < printed.length

variable {b : Buffer α} {size : Nat} {printed : List α}

theorem printed_empty (size : Nat) : Printed (.empty size : Buffer α) size [] :=
  ⟨rfl, rfl, List.take_nil.symm, iff_of_false Bool.false_ne_true (Nat.not_lt_zero size)⟩

/-- A buffer holds the beginning of what was printed. -/
theorem Printed.finish (h : Printed b size printed) (piece : List α) :
    b.finish piece = (printed ++ piece).take (size - 1) := by
  rw [Buffer.finish, Buffer.room, h.text, h.offset, h.size_eq, List.take_append, Nat.sub_right_comm]

theorem Printed.print (h : Printed b size printed) (piece : List α) :
    Printed (b.print piece) size (printed ++ piece) := by
  refine ⟨h.size_eq, ?_, h.finish piece, ?_⟩
  · rw [List.length_append, ← h.offset]
    rfl
  · show (b.exceeded || decide (b.offset + piece.length > b.size)) = true ↔ _
    rw [Bool.or_eq_true, h.exceeded, decide_eq_true_eq, h.offset, h.size_eq, List.length_append]
    omega

theorem Printed.foldl {β : Type} (f : β → List α) (items : List β) (h : Printed b size printed) :
    Printed (items.foldl (fun b item => b.print (f item)) b) size (printed ++ items.flatMap f) := by
  induction items generalizing b printed with
  | nil =>
    rw [List.flatMap_nil, List.append_nil]
    exact h
  | cons item items ih =>
    rw [List.flatMap_cons, ← List.append_assoc]
    exact ih (h.print (f item))

/-- The buffer holds all of it when it is longer, by the terminator at least. -/
theorem Printed.finish_whole_iff (h : Printed b size printed) {piece : List α} (hsize : 0 < size) :
    b.finish piece = printed ++ piece ↔ (printed ++ piece).length < size := by
  rw [h.finish, List.take_eq_self_iff]
  omega

section beginnings

variable {β : Type} {P : α → Prop}

theorem forall_take_append {first second : List α} {limit : Nat} :
    (∀ x ∈ (first ++ second).take limit, P x) ↔
      (∀ x ∈ first.take limit, P x) ∧ ∀ x ∈ second.take (limit - first.length), P x := by
  rw [List.take_append, List.forall_mem_append]

/-- The beginning of a text that is printed item by item, in terms of the items: each is
printed as far as there is room behind those before it. -/
theorem forall_take_flatMap {f : β → List α} {items : List β} {limit : Nat} :
    (∀ x ∈ (items.flatMap f).take limit, P x) ↔
      ∀ front item back, items = front ++ item :: back →
        ∀ x ∈ (f item).take (limit - (front.flatMap f).length), P x := by
  induction items generalizing limit with
  | nil =>
    refine iff_of_true (fun x hx => ?_) fun front item back h => ?_
    · rw [List.flatMap_nil, List.take_nil] at hx
      cases hx
    · exact absurd h.symm (List.append_ne_nil_of_right_ne_nil front (List.cons_ne_nil item back))
  | cons first items ih =>
    rw [List.flatMap_cons, forall_take_append, ih]
    constructor
    · rintro ⟨hfirst, hmore⟩ front item back h
      cases front with
      | nil =>
        obtain ⟨rfl, rfl⟩ := List.cons.inj h
        exact hfirst
      | cons other front =>
        obtain ⟨rfl, hrest⟩ := List.cons.inj h
        rw [List.flatMap_cons, List.length_append, Nat.sub_add_eq]
        exact hmore front item back hrest
    · intro h
      refine ⟨h [] first items rfl, fun front item back hrest => ?_⟩
      rw [← Nat.sub_add_eq, ← List.length_append, ← List.flatMap_cons]
      exact h (first :: front) item back (congrArg _ hrest)

end beginnings

end bounded_text
