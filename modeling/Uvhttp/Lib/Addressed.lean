import Mathlib.Logic.Function.Basic
import Mathlib.Data.List.Basic

/-! Objects at addresses, and operations that each work on the object at one address: what a log of
them makes of an object depends on the operations at its address only. -/

namespace addressed

variable {ι σ α : Type} [DecidableEq ι] (step : ι → σ → α → σ)

/-- One operation. -/
def apply (objects : ι → σ) (entry : ι × α) : ι → σ :=
  Function.update objects entry.1 (step entry.1 (objects entry.1) entry.2)

/-- A log of operations, one after the other. -/
def run (objects : ι → σ) (log : List (ι × α)) : ι → σ := log.foldl (apply step) objects

/-- The operations at an address, in their order. -/
def at_address (i : ι) (log : List (ι × α)) : List α :=
  log.filterMap fun entry => if entry.1 = i then some entry.2 else none

variable {step}

theorem run_append (objects : ι → σ) (log later : List (ι × α)) :
    run step objects (log ++ later) = run step (run step objects log) later := List.foldl_append

theorem at_address_cons (i : ι) (entry : ι × α) (log : List (ι × α)) :
    at_address i (entry :: log) = (if entry.1 = i then [entry.2] else []) ++ at_address i log := by
  rw [at_address, List.filterMap_cons]
  split_ifs with h
  · rfl
  · rfl

/-- The object at an address after a log is what the operations at that address make of it. -/
theorem run_apply (objects : ι → σ) (log : List (ι × α)) (i : ι) :
    run step objects log i = (at_address i log).foldl (step i) (objects i) := by
  induction log generalizing objects with
  | nil => rfl
  | cons entry log ih =>
    change run step (apply step objects entry) log i = _
    rw [ih, at_address_cons]
    by_cases h : entry.1 = i
    · subst h
      rw [if_pos rfl, apply, Function.update_self]
      rfl
    · rw [if_neg h, apply, Function.update_of_ne (Ne.symm h), List.nil_append]

/-- Operations elsewhere leave the object as it is. -/
theorem run_elsewhere {i : ι} {log : List (ι × α)} (h : ∀ entry ∈ log, entry.1 ≠ i) (objects : ι → σ) :
    run step objects log i = objects i := by
  have hnone : at_address i log = [] := by
    rw [at_address, List.filterMap_eq_nil_iff]
    intro entry hentry
    exact if_neg (h entry hentry)
  rw [run_apply, hnone, List.foldl_nil]

end addressed
