import Mathlib.Tactic

/-! Partial machines that take elements in and give elements out: what is conserved from
step to step is conserved over a run. -/

namespace fifo

variable {S E α : Type}

/-- What a step takes in, and what it gives out. -/
structure Exchange (α : Type) where
  input : List α
  output : List α
  deriving DecidableEq, Repr

/-- Exchanges that follow each other. -/
def Exchange.append (x y : Exchange α) : Exchange α := ⟨x.input ++ y.input, x.output ++ y.output⟩

variable (step : S → E → Option (S × Exchange α))

/-- The state after a run, with all that it has taken in and given out. -/
def run : S → List E → Option (S × Exchange α)
  | s, [] => some (s, ⟨[], []⟩)
  | s, e :: es => (step s e).bind fun next => (run next.1 es).map fun last => (last.1, next.2.append last.2)

/-- The exchange of a step takes the contents from one state to the next in order. -/
def Conserves (contents : S → List α) (s : S) (next : S × Exchange α) : Prop :=
  contents s ++ next.2.input = next.2.output ++ contents next.1

variable {step} {contents : S → List α} {Inv : S → Prop}

theorem Conserves.append {s : S} {next last : S × Exchange α} (h : Conserves contents s next)
    (h' : Conserves contents next.1 last) : Conserves contents s (last.1, next.2.append last.2) := by
  unfold Conserves at *
  rw [Exchange.append, ← List.append_assoc, h, List.append_assoc, h', List.append_assoc]

/-- What every step conserves, every run conserves. -/
theorem run_conserves
    (hstep : ∀ s e, Inv s → ∃ next, step s e = some next ∧ Inv next.1 ∧ Conserves contents s next)
    {s : S} (hs : Inv s) (es : List E) :
    ∃ last, run step s es = some last ∧ Inv last.1 ∧ Conserves contents s last := by
  induction es generalizing s with
  | nil => exact ⟨_, rfl, hs, List.append_nil _⟩
  | cons e es ih =>
    obtain ⟨next, hnext, hinv, hconserved⟩ := hstep s e hs
    obtain ⟨last, hlast, hlastInv, hrest⟩ := ih hinv
    refine ⟨(last.1, next.2.append last.2), ?_, hlastInv, hconserved.append hrest⟩
    rw [run, hnext, Option.bind_some, hlast]
    rfl

end fifo
