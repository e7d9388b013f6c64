import Mathlib.Tactic

/-! Blocks of memory that hold terminated strings: overwriting a part of a block,
which other parts that leaves alone, and the string that a part begins with. -/

namespace string_block

variable {α : Type}

/-- The `size` symbols of a block from `offset` on. -/
def part (block : List α) (offset size : Nat) : List α := (block.drop offset).take size

/-- Overwrite the symbols from `offset` on, `none` when the block ends before the
data does. -/
def write (block : List α) (offset : Nat) (data : List α) : Option (List α) :=
  if offset + data.length ≤ block.length then
    some (block.take offset ++ data ++ block.drop (offset + data.length))
  else none

theorem length_part (block : List α) (offset size : Nat) :
    (part block offset size).length = min size (block.length - offset) := by
  rw [part, List.length_take, List.length_drop]

/-- A part within a part. -/
theorem part_part (block : List α) (offset size inner : Nat) {inner_size : Nat} (hfits : inner + inner_size ≤ size) :
    part (part block offset size) inner inner_size = part block (offset + inner) inner_size := by
  simp only [part, List.drop_take, List.drop_drop, List.take_take]
  rw [Nat.min_eq_left (by omega)]

section write

variable {block after data : List α} {offset : Nat}

theorem write_eq (h : write block offset data = some after) :
    offset + data.length ≤ block.length ∧
      after = block.take offset ++ data ++ block.drop (offset + data.length) := by
  unfold write at h
  split at h
  · exact ⟨‹_›, (Option.some.inj h).symm⟩
  · cases h

theorem length_write (h : write block offset data = some after) : after.length = block.length := by
  obtain ⟨hfits, rfl⟩ := write_eq h
  rw [List.length_append, List.length_append, List.length_take, List.length_drop]
  omega

/-- What is written stands where it was written. -/
theorem part_write (h : write block offset data = some after) (size : Nat) (hsize : data.length ≤ size) :
    ∃ rest, part after offset size = data ++ rest := by
  obtain ⟨hfits, rfl⟩ := write_eq h
  have hfront : (block.take offset).length = offset := by
    rw [List.length_take]
    omega
  refine ⟨(block.drop (offset + data.length)).take (size - data.length), ?_⟩
  rw [part, List.append_assoc, List.drop_append, List.drop_of_length_le (by omega), hfront, Nat.sub_self,
    List.drop_zero, List.nil_append, List.take_append, List.take_of_length_le hsize]

/-- Nothing else changes. -/
theorem part_write_other {other size : Nat} (h : write block offset data = some after)
    (hapart : other + size ≤ offset ∨ offset + data.length ≤ other) :
    part after other size = part block other size := by
  obtain ⟨hfits, rfl⟩ := write_eq h
  apply List.ext_getElem?
  intro i
  simp only [part, List.getElem?_take, List.getElem?_drop]
  split
  · simp only [List.getElem?_append, List.length_append, List.length_take, List.getElem?_take,
      List.getElem?_drop, Nat.min_eq_left (show offset ≤ block.length by omega)]
    rcases hapart with hbefore | hbehind
    · rw [if_pos (by omega), if_pos (by omega), if_pos (by omega)]
    · rw [if_neg (by omega)]
      congr 1
      omega
  · rfl

end write

section string

variable [DecidableEq α] (nul : α)

/-- The string that some memory begins with, `none` when no terminator follows. -/
def string (memory : List α) : Option (List α) :=
  if nul ∈ memory then some (memory.takeWhile (· ≠ nul)) else none

variable {nul}

theorem string_append {text : List α} (htext : nul ∉ text) (rest : List α) :
    string nul (text ++ nul :: rest) = some text := by
  have hall : ∀ a ∈ text, decide (a ≠ nul) = true := by
    intro a ha
    rw [decide_eq_true_eq]
    rintro rfl
    exact htext ha
  rw [string, if_pos (List.mem_append_right _ List.mem_cons_self), List.takeWhile_append_of_pos hall,
    List.takeWhile_cons_of_neg (by simp), List.append_nil]

theorem string_eq_some {memory text : List α} (h : string nul memory = some text) :
    nul ∉ text ∧ ∃ rest, memory = text ++ nul :: rest := by
  by_cases hmem : nul ∈ memory
  · obtain ⟨front, rest, rfl, hfront⟩ := List.eq_append_cons_of_mem hmem
    rw [string_append hfront] at h
    cases h
    exact ⟨hfront, rest, rfl⟩
  · rw [string, if_neg hmem] at h
    cases h

/-- A string is shorter than the memory that holds it. -/
theorem length_string {memory text : List α} (h : string nul memory = some text) : text.length < memory.length := by
  obtain ⟨-, rest, rfl⟩ := string_eq_some h
  rw [List.length_append, List.length_cons]
  omega

/-- A string that ends within a part is the string of all that begins there. -/
theorem string_part {block text : List α} {offset size : Nat} (h : string nul (part block offset size) = some text) :
    string nul (block.drop offset) = some text := by
  obtain ⟨htext, rest, heq⟩ := string_eq_some h
  rw [← List.take_append_drop size (block.drop offset), ← part, heq, List.append_assoc, List.cons_append]
  exact string_append htext _

/-- A string written with its terminator is the string of the field that it was
written to. -/
theorem string_write {block after text : List α} {offset size : Nat} (htext : nul ∉ text)
    (hsize : text.length < size) (h : write block offset (text ++ [nul]) = some after) :
    string nul (part after offset size) = some text := by
  obtain ⟨rest, heq⟩ := part_write h size (by rw [List.length_append]; exact hsize)
  rw [heq, List.append_assoc]
  exact string_append htext rest

end string

end string_block
