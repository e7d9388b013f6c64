import Mathlib.Tactic

/-! The first occurrence of a pattern in a text, where symbols with the same key
match, and texts that are put together from parts that no occurrence crosses. -/

namespace text_search

variable {α β : Type} [DecidableEq β] (key : α → β) (pattern : List α)

/-- The text from the first occurrence of the pattern on. -/
def find : List α → Option (List α)
  | [] => none
  | a :: text =>
    if ((a :: text).take pattern.length).map key = pattern.map key then some (a :: text) else find text

/-- The text does not contain the pattern. -/
def Absent (text : List α) : Prop := find key pattern text = none

instance (text : List α) : Decidable (Absent key pattern text) :=
  decidable_of_iff ((find key pattern text).isNone = true) Option.isNone_iff_eq_none

variable {key pattern}

/-- A text that starts with the pattern. -/
theorem find_here {front : List α} (hmatch : front.map key = pattern.map key) (hpattern : pattern ≠ [])
    (rest : List α) : find key pattern (front ++ rest) = some (front ++ rest) := by
  have hlen : front.length = pattern.length := by simpa using congrArg List.length hmatch
  cases front with
  | nil => exact absurd (List.length_eq_zero_iff.mp hlen.symm) hpattern
  | cons a front =>
    rw [List.cons_append, find, if_pos]
    rw [← List.cons_append, ← hlen, List.take_left]
    exact hmatch

omit [DecidableEq β] in
/-- Where a match starts, no symbol of the text up to its end is foreign to the
pattern. -/
theorem not_match_of_foreign {front rest : List α} {separator : α} (hforeign : key separator ∉ pattern.map key)
    (hshort : front.length < pattern.length) :
    ((front ++ separator :: rest).take pattern.length).map key ≠ pattern.map key := by
  intro hmatch
  apply hforeign
  rw [← hmatch]
  apply List.mem_map_of_mem
  rw [List.take_append]
  apply List.mem_append_right _
  obtain ⟨more, hmore⟩ : ∃ more, pattern.length - front.length = more + 1 :=
    ⟨pattern.length - front.length - 1, by omega⟩
  rw [hmore, List.take_succ_cons]
  exact List.mem_cons_self

/-- No occurrence crosses a symbol that is foreign to the pattern. -/
theorem find_separated {separator : α} (hforeign : key separator ∉ pattern.map key) (hpattern : pattern ≠ [])
    (front rest : List α) :
    find key pattern (front ++ separator :: rest) =
      match find key pattern front with
      | some found => some (found ++ separator :: rest)
      | none => find key pattern rest := by
  induction front with
  | nil =>
    have hfirst := @not_match_of_foreign _ _ key pattern [] rest separator hforeign (List.length_pos_iff.mpr hpattern)
    exact if_neg hfirst
  | cons a front ih =>
    have hstep : find key pattern (a :: front ++ separator :: rest) =
        if ((a :: (front ++ separator :: rest)).take pattern.length).map key = pattern.map key then
          some (a :: (front ++ separator :: rest)) else find key pattern (front ++ separator :: rest) := rfl
    rw [hstep, find]
    by_cases hshort : (a :: front).length < pattern.length
    · have hwhole := @not_match_of_foreign _ _ key pattern (a :: front) rest separator hforeign hshort
      have hfront : ((a :: front).take pattern.length).map key ≠ pattern.map key := by
        intro hmatch
        have hlen := congrArg List.length hmatch
        rw [List.length_map, List.length_map, List.length_take] at hlen
        omega
      rw [List.cons_append] at hwhole
      rw [if_neg hwhole, if_neg hfront, ih]
    · have hsame : (a :: (front ++ separator :: rest)).take pattern.length = (a :: front).take pattern.length := by
        rw [← List.cons_append, List.take_append_of_le_length (by omega)]
      rw [hsame, ih]
      split
      · rfl
      · rfl

/-- A part without the pattern can be skipped. -/
theorem find_skip {separator : α} (hforeign : key separator ∉ pattern.map key) (hpattern : pattern ≠ [])
    {front : List α} (habsent : Absent key pattern front) (rest : List α) :
    find key pattern (front ++ separator :: rest) = find key pattern rest := by
  rw [find_separated hforeign hpattern, habsent]

end text_search
