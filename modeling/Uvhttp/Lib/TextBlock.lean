import Uvhttp.Lib.Memory

/-! Text that is printed piece by piece into a block of memory, each piece with a terminator,
as `snprintf` does it: the offset counts what does not find room. -/

namespace text_block

open memory

variable {α : Type}

/-- `snprintf` at an offset where there is some room. -/
def print (nul : α) (block : List α) (offset room : Nat) (piece : List α) : Option (List α) :=
  if room = 0 then some block else store block.length block offset (piece.take (room - 1) ++ [nul])

/-- Print a piece into what is left of a size, and move the offset behind it. -/
def append (nul : α) (size : Nat) (s : List α × Nat) (piece : List α) : Option (List α × Nat) :=
  let room := if s.2 < size then size - s.2 else 0
  (print nul s.1 s.2 room piece).map fun block => (block, s.2 + piece.length)

/-- This was printed into a block, and its beginning stands there. -/
structure Holds (nul : α) (size : Nat) (s : List α × Nat) (printed : List α) : Prop where
  length : s.1.length = size
  offset : s.2 = printed.length
  text : s.1.take (min printed.length (size - 1)) = printed.take (size - 1)
  terminated : printed = [] ∨ s.1[min printed.length (size - 1)]? = some nul

variable {nul : α} {size : Nat} {s : List α × Nat} {printed : List α}

theorem holds_nil {block : List α} (h : block.length = size) : Holds nul size (block, 0) [] :=
  ⟨h, rfl, by rw [List.length_nil, Nat.zero_min, List.take_zero, List.take_nil], .inl rfl⟩

/-- An append writes within the block, and counts the whole piece. -/
theorem Holds.append (h : Holds nul size s printed) (hsize : 0 < size) (piece : List α) :
    ∃ s', append nul size s piece = some s' ∧ Holds nul size s' (printed ++ piece) := by
  obtain ⟨block, offset⟩ := s
  have hlength : block.length = size := h.length
  have hoffset : offset = printed.length := h.offset
  rw [text_block.append]
  dsimp only
  by_cases hroom : offset < size
  · have hbefore : block.take offset = printed := by
      have htext := h.text
      have hmin : min printed.length (size - 1) = offset := by omega
      have hall : printed.take (size - 1) = printed := List.take_of_length_le (by omega)
      rw [hmin, hall] at htext
      exact htext
    have hwritten : (piece.take (size - offset - 1) ++ [nul]).length = min piece.length (size - offset - 1) + 1 := by
      rw [List.length_append, List.length_take, List.length_singleton, Nat.min_comm]
    have hfits : offset + (piece.take (size - offset - 1) ++ [nul]).length ≤ block.length := by
      rw [hwritten, hlength]
      omega
    obtain ⟨block', hstore⟩ : ∃ block', store block.length block offset (piece.take (size - offset - 1) ++ [nul]) =
        some block' := ⟨_, store_eq hfits⟩
    have hstored := take_store (Nat.le_refl _) hstore
    rw [hbefore, ← List.append_assoc, hwritten] at hstored
    have hend : min (printed ++ piece).length (size - 1) = offset + min piece.length (size - offset - 1) := by
      rw [List.length_append, ← hoffset]
      omega
    have hpart : (printed ++ piece.take (size - offset - 1)).length =
        offset + min piece.length (size - offset - 1) := by
      rw [List.length_append, List.length_take, ← hoffset, Nat.min_comm]
    refine ⟨(block', offset + piece.length), ?_, ?_, ?_, ?_, .inr ?_⟩
    · rw [if_pos hroom, print, if_neg (by omega), hstore]
      rfl
    · exact (length_store (Nat.le_refl _) hstore).trans hlength
    · rw [List.length_append, ← hoffset]
    · have htake := congrArg (List.take (offset + min piece.length (size - offset - 1))) hstored
      rw [List.take_take, Nat.min_eq_left (by omega), List.take_left' hpart] at htake
      have hall : printed.take (size - 1) = printed := List.take_of_length_le (by omega)
      rw [hend, htake, List.take_append, hall, ← hoffset, Nat.sub_right_comm]
    · have hlast := congrArg (·[offset + min piece.length (size - offset - 1)]?) hstored
      rw [List.getElem?_take_of_lt (by omega), ← hpart, List.getElem?_concat_length] at hlast
      rw [hend, ← hpart]
      exact hlast
  · have hfull : size ≤ printed.length := by omega
    have hlong : min (printed ++ piece).length (size - 1) = min printed.length (size - 1) := by
      rw [List.length_append]
      omega
    refine ⟨(block, offset + piece.length), ?_, hlength, ?_, ?_, .inr ?_⟩
    · rw [if_neg hroom, print, if_pos rfl]
      rfl
    · rw [List.length_append, ← hoffset]
    · rw [hlong, List.take_append_of_le_length (by omega)]
      exact h.text
    · rw [hlong]
      refine h.terminated.resolve_left ?_
      rintro rfl
      rw [List.length_nil] at hfull
      omega

/-- A block with room for more than the text has it whole. -/
theorem Holds.whole (h : Holds nul size s printed) (hfits : printed.length < size) :
    s.1.take s.2 = printed := by
  have htext := h.text
  have hmin : min printed.length (size - 1) = printed.length := by omega
  have hall : printed.take (size - 1) = printed := List.take_of_length_le (by omega)
  rw [hmin, hall, ← h.offset] at htext
  exact htext

end text_block
