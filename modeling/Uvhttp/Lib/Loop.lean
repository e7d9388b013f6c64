import Mathlib.Tactic

/-! Loops given by one turn, run for a number of turns: a turn leaves the loop, goes on, or
faults. -/

namespace loop

variable {S R : Type}

/-- How far a loop has come. -/
inductive Outcome (S R : Type) where
  | fault
  | running (s : S)
  | returned (r : R)
  deriving DecidableEq, Repr

variable (turn : S → Option (R ⊕ S))

/-- A loop after at most `fuel` turns. -/
def run : Nat → S → Outcome S R
  | 0, s => .running s
  | fuel + 1, s => (turn s).elim .fault fun t => t.elim .returned (run fuel)

/-- The loop ends. -/
def Terminates (s : S) : Prop := ∃ fuel r, run turn fuel s = .returned r

variable {turn} {s s' : S} {r : R}

theorem run_leave (h : turn s = some (.inl r)) (fuel : Nat) : run turn (fuel + 1) s = .returned r := by
  rw [run, h]
  rfl

theorem run_next (h : turn s = some (.inr s')) (fuel : Nat) : run turn (fuel + 1) s = run turn fuel s' := by
  rw [run, h]
  rfl

/-- A loop whose turns keep an invariant and take at least `step` from a measure ends, in
as many turns as the measure has room for. -/
theorem returns_of_measure {Inv : S → Prop} {Post : R → Prop} (measure : S → Nat) {step : Nat}
    (hturn : ∀ s, Inv s → (∃ r, turn s = some (.inl r) ∧ Post r) ∨
      ∃ s', turn s = some (.inr s') ∧ Inv s' ∧ measure s' + step ≤ measure s)
    {fuel : Nat} (hs : Inv s) (hfuel : measure s < step * fuel) : ∃ r, run turn fuel s = .returned r ∧ Post r := by
  induction fuel generalizing s with
  | zero => exact absurd hfuel (Nat.not_lt_zero _)
  | succ fuel ih =>
    rcases hturn s hs with ⟨r, hleave, hpost⟩ | ⟨s', hnext, hinv, hless⟩
    · exact ⟨r, run_leave hleave fuel, hpost⟩
    · rw [run_next hnext]
      rw [Nat.mul_succ] at hfuel
      exact ih hinv (by omega)

/-- A loop that comes back to its state does not end. -/
theorem not_terminates_of_same (h : turn s = some (.inr s)) : ¬ Terminates turn s := by
  rintro ⟨fuel, r, hrun⟩
  induction fuel with
  | zero => cases hrun
  | succ fuel ih =>
    rw [run_next h] at hrun
    exact ih hrun

end loop
