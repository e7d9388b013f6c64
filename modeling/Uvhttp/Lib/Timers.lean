import Mathlib.Data.List.MinMax
import Mathlib.Data.List.Nodup

/-! The clock of an event loop and its one-shot timers: arming, stopping, and which timer the loop runs
next. -/

namespace timers

variable {ι : Type} [DecidableEq ι]

/-- A clock and its armed timers, each with the time when it is due, in the order in which they were
armed. No timer is armed twice. -/
structure Clock (ι : Type) where
  now : Nat
  armed : List (ι × Nat)
  single : (armed.map Prod.fst).Nodup

/-- A clock that nothing has been armed on. -/
def Clock.idle (now : Nat) : Clock ι := ⟨now, [], List.nodup_nil⟩

variable (c : Clock ι) (i : ι) (at_time : Nat)

def Clock.advance (now : Nat) : Clock ι := { c with now }

/-- The timers but one. -/
def others : List (ι × Nat) := c.armed.filter fun timer => timer.1 ≠ i

theorem others_single : ((others c i).map Prod.fst).Nodup :=
  c.single.sublist ((List.filter_sublist (l := c.armed)).map Prod.fst)

theorem not_mem_others : i ∉ (others c i).map Prod.fst := by
  intro hmem
  obtain ⟨timer, htimer, hid⟩ := List.mem_map.mp hmem
  exact of_decide_eq_true (List.mem_filter.mp htimer).2 hid

/-- Stop a timer, which need not be armed. -/
def Clock.stop : Clock ι := { c with armed := others c i, single := others_single c i }

/-- Arm a timer, anew if it is armed. -/
def Clock.start : Clock ι where
  now := c.now
  armed := others c i ++ [(i, at_time)]
  single := by
    rw [List.map_append]
    exact (others_single c i).append (List.nodup_singleton i) (by simpa using not_mem_others c i)

/-- When a timer is due, if it is armed. -/
def Clock.due : Option Nat := (c.armed.find? fun timer => timer.1 = i).map Prod.snd

/-- The timer that the loop runs next: the one due first, and of those due at the same time the one armed
first, once its time has come. -/
def Clock.ready : Option (ι × Nat) := (c.armed.argmin Prod.snd).filter fun timer => timer.2 ≤ c.now

variable {c i at_time}

theorem due_eq_some_iff : c.due i = some at_time ↔ (i, at_time) ∈ c.armed := by
  rw [Clock.due, Option.map_eq_some_iff]
  constructor
  · rintro ⟨timer, hfound, rfl⟩
    have hid : timer.1 = i := by simpa using List.find?_some hfound
    subst hid
    exact List.mem_of_find?_eq_some hfound
  · intro hmem
    obtain ⟨timer, hfound⟩ := Option.isSome_iff_exists.mp
      (List.find?_isSome.mpr ⟨(i, at_time), hmem, by simp⟩ : (c.armed.find? fun timer => timer.1 = i).isSome = true)
    have hid : timer.1 = i := by simpa using List.find?_some hfound
    have hsame := List.inj_on_of_nodup_map c.single (List.mem_of_find?_eq_some hfound) hmem hid
    exact ⟨timer, hfound, by rw [hsame]⟩

@[simp] theorem due_idle (now : Nat) : (Clock.idle now : Clock ι).due i = none := rfl

@[simp] theorem due_advance (now : Nat) : (c.advance now).due i = c.due i := rfl

@[simp] theorem now_stop : (c.stop i).now = c.now := rfl

@[simp] theorem now_start : (c.start i at_time).now = c.now := rfl

@[simp] theorem due_stop_self : (c.stop i).due i = none := by
  rw [Option.eq_none_iff_forall_ne_some]
  intro t hdue
  exact not_mem_others c i (List.mem_map.mpr ⟨(i, t), due_eq_some_iff.mp hdue, rfl⟩)

theorem due_stop_of_ne {j : ι} (h : j ≠ i) : (c.stop i).due j = c.due j := by
  ext t
  simp [due_eq_some_iff, Clock.stop, others, h]

@[simp] theorem due_start_self : (c.start i at_time).due i = some at_time := by
  simp [due_eq_some_iff, Clock.start]

theorem due_start_of_ne {j : ι} (h : j ≠ i) : (c.start i at_time).due j = c.due j := by
  ext t
  simp [due_eq_some_iff, Clock.start, others, h]

/-- The timer that runs next is armed, its time has come, and no other is due before it. -/
theorem ready_spec {timer : ι × Nat} (h : c.ready = some timer) :
    c.due timer.1 = some timer.2 ∧ timer.2 ≤ c.now ∧ ∀ j t, c.due j = some t → timer.2 ≤ t := by
  rw [Clock.ready, Option.filter_eq_some_iff] at h
  obtain ⟨hleast, hnow⟩ := h
  refine ⟨due_eq_some_iff.mpr (List.argmin_mem hleast), of_decide_eq_true hnow, fun j t hdue => ?_⟩
  exact List.le_of_mem_argmin (due_eq_some_iff.mp hdue) hleast

/-- Nothing is ready exactly when every armed timer is due later. -/
theorem ready_eq_none_iff : c.ready = none ↔ ∀ j t, c.due j = some t → c.now < t := by
  rw [Clock.ready]
  constructor
  · intro hnone j t hdue
    have hmem := due_eq_some_iff.mp hdue
    cases hleast : c.armed.argmin Prod.snd with
    | none =>
      rw [List.argmin_eq_none.mp hleast] at hmem
      cases hmem
    | some timer =>
      rw [hleast] at hnone
      have hlate : c.now < timer.2 := by simpa using hnone
      exact hlate.trans_le (List.le_of_mem_argmin hmem hleast)
  · intro hlater
    cases hleast : c.armed.argmin Prod.snd with
    | none => rfl
    | some timer =>
      have hlate := hlater timer.1 timer.2 (due_eq_some_iff.mpr (List.argmin_mem hleast))
      simpa using hlate

end timers
