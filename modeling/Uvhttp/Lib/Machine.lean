import Mathlib.Tactic

/-! Deterministic machines that answer each input: runs, invariants of runs, and
when two states answer every input of a sequence alike. -/

namespace machine

variable {S E O K : Type}

section runs

variable (step : S → E → S × O)

/-- The state after a sequence of inputs. -/
def run (s : S) : List E → S
  | [] => s
  | e :: es => run (step s e).1 es

/-- The answers to a sequence of inputs. -/
def answers (s : S) : List E → List O
  | [] => []
  | e :: es => (step s e).2 :: answers (step s e).1 es

variable {step}

/-- What every step keeps, every run keeps. -/
theorem run_invariant {Inv : S → Prop} (hstep : ∀ s e, Inv s → Inv (step s e).1) {s : S} (hs : Inv s)
    (es : List E) : Inv (run step s es) := by
  induction es generalizing s with
  | nil => exact hs
  | cons e es ih => exact ih (hstep s e hs)

theorem run_append (s : S) (es es' : List E) : run step s (es ++ es') = run step (run step s es) es' := by
  induction es generalizing s with
  | nil => rfl
  | cons e es ih => exact ih (step s e).1

theorem answers_append (s : S) (es es' : List E) :
    answers step s (es ++ es') = answers step s es ++ answers step (run step s es) es' := by
  induction es generalizing s with
  | nil => rfl
  | cons e es ih => exact congrArg ((step s e).2 :: ·) (ih (step s e).1)

end runs

section histories

variable (step : S → E → S × O) (enabled : S → E → Prop)

/-- Every input of a sequence is enabled when it comes. -/
def Enabled (s : S) : List E → Prop
  | [] => True
  | e :: es => enabled s e ∧ Enabled (step s e).1 es

instance Enabled.decidable [∀ s e, Decidable (enabled s e)] (s : S) :
    (es : List E) → Decidable (Enabled step enabled s es)
  | [] => inferInstanceAs (Decidable True)
  | e :: es =>
    have := Enabled.decidable (step s e).1 es
    inferInstanceAs (Decidable (enabled s e ∧ Enabled step enabled (step s e).1 es))

variable {step enabled}

theorem enabled_append {s : S} {es es' : List E} :
    Enabled step enabled s (es ++ es') ↔
      Enabled step enabled s es ∧ Enabled step enabled (run step s es) es' := by
  induction es generalizing s with
  | nil => simp [Enabled, run]
  | cons e es ih =>
    simp only [List.cons_append, Enabled, run, ih]
    tauto

theorem enabled_and {enabled' : S → E → Prop} {s : S} {es : List E} (h : Enabled step enabled s es)
    (h' : Enabled step enabled' s es) : Enabled step (fun s e => enabled s e ∧ enabled' s e) s es := by
  induction es generalizing s with
  | nil => exact trivial
  | cons e es ih => exact ⟨⟨h.1, h'.1⟩, ih h.2 h'.2⟩

theorem enabled_of_forall (h : ∀ s e, enabled s e) (s : S) (es : List E) : Enabled step enabled s es := by
  induction es generalizing s with
  | nil => exact trivial
  | cons e es ih => exact ⟨h s e, ih (step s e).1⟩

theorem enabled_of_mem {admitted : E → Prop} {es : List E} (h : ∀ e ∈ es, admitted e) (s : S) :
    Enabled step (fun _ e => admitted e) s es := by
  induction es generalizing s with
  | nil => exact trivial
  | cons e es ih =>
    obtain ⟨hfirst, hrest⟩ := List.forall_mem_cons.mp h
    exact ⟨hfirst, ih hrest (step s e).1⟩

/-- What every enabled step keeps holds in every state on the way. -/
theorem prefix_invariant {Inv : S → Prop} (hstep : ∀ s e, Inv s → enabled s e → Inv (step s e).1) {s : S}
    (hs : Inv s) {es : List E} (henabled : Enabled step enabled s es) :
    ∀ before, before <+: es → Inv (run step s before) := by
  induction es generalizing s with
  | nil =>
    intro before hbefore
    rw [List.prefix_nil.mp hbefore]
    exact hs
  | cons e es ih =>
    intro before hbefore
    rcases List.prefix_cons_iff.mp hbefore with rfl | ⟨rest, rfl, hrest⟩
    · exact hs
    · exact ih (hstep s e hs henabled.1) henabled.2 rest hrest

/-- A budget from which every enabled step pays its cost, and which it may raise by its
credit, bounds what a sequence costs. -/
theorem run_budget (budget : S → Nat) (paid credited : E → Bool)
    (hstep : ∀ s e, enabled s e → budget (step s e).1 + (paid e).toNat ≤ budget s + (credited e).toNat) {s : S}
    {es : List E} (henabled : Enabled step enabled s es) :
    budget (run step s es) + es.countP paid ≤ budget s + es.countP credited := by
  induction es generalizing s with
  | nil => exact le_refl _
  | cons e es ih =>
    have hcount (p : E → Bool) : (e :: es).countP p = es.countP p + (p e).toNat := by
      rw [List.countP_cons]
      cases p e <;> rfl
    have hfirst := hstep s e henabled.1
    have hrest := ih henabled.2
    rw [hcount, hcount, run]
    omega

/-- Where a good state behind a step shows that the step was safe, good states on
the way show that every step was. -/
theorem enabled_of_prefixes {Inv good : S → Prop} {safe : S → E → Prop}
    (hstep : ∀ s e, Inv s → enabled s e → good (step s e).1 → safe s e ∧ Inv (step s e).1) {s : S} (hs : Inv s)
    {es : List E} (henabled : Enabled step enabled s es) (hgood : ∀ before, before <+: es → good (run step s before)) :
    Enabled step safe s es := by
  induction es generalizing s with
  | nil => exact trivial
  | cons e es ih =>
    have hfirst : good (step s e).1 := hgood [e] (List.prefix_append [e] es)
    obtain ⟨hsafe, hafter⟩ := hstep s e hs henabled.1 hfirst
    refine ⟨hsafe, ih hafter henabled.2 fun before hbefore => ?_⟩
    exact hgood (e :: before) (List.cons_prefix_cons.mpr ⟨rfl, hbefore⟩)

/-- An input that is enabled again and again. -/
theorem enabled_replicate {s : S} {n : Nat} {e : E}
    (h : ∀ m < n, enabled (run step s (List.replicate m e)) e) : Enabled step enabled s (List.replicate n e) := by
  induction n with
  | zero => exact trivial
  | succ n ih =>
    rw [List.replicate_succ', enabled_append]
    exact ⟨ih fun m hm => h m (hm.trans (Nat.lt_succ_self n)), h n (Nat.lt_succ_self n), trivial⟩

/-- What holds of the start and of its empty history, and what every enabled
step keeps, holds of every state with the inputs and the answers that led to
it. -/
theorem history_invariant (Inv : S → List E → List O → Prop) {s : S} (hstart : Inv s [] [])
    (hstep : ∀ s es os e, Inv s es os → enabled s e → Inv (step s e).1 (es ++ [e]) (os ++ [(step s e).2]))
    {es : List E} (henabled : Enabled step enabled s es) : Inv (run step s es) es (answers step s es) := by
  induction es using List.reverseRecOn with
  | nil => exact hstart
  | append_singleton es e ih =>
    obtain ⟨hbefore, hlast⟩ := enabled_append.mp henabled
    rw [run_append, answers_append]
    exact hstep _ _ _ e (ih hbefore) hlast.1

/-- A property that no step restores, and that a step from a good state keeps exactly
when the input is safe, holds after a sequence exactly when every input of it is
safe. -/
theorem holds_iff_enabled {P Inv : S → Prop} {safe : S → E → Prop} (hback : ∀ s e, P (step s e).1 → P s)
    (hexact : ∀ s e, Inv s → P s → enabled s e → (P (step s e).1 ↔ safe s e))
    (hstep : ∀ s e, Inv s → P s → enabled s e → safe s e → Inv (step s e).1) {s : S} (hinv : Inv s) (hs : P s)
    {es : List E} (henabled : Enabled step enabled s es) : P (run step s es) ↔ Enabled step safe s es := by
  have hfront (s : S) (es : List E) (h : P (run step s es)) : P s := by
    induction es generalizing s with
    | nil => exact h
    | cons e es ih => exact hback s e (ih (step s e).1 h)
  induction es generalizing s with
  | nil => exact iff_of_true hs trivial
  | cons e es ih =>
    obtain ⟨hfirst, hrest⟩ := henabled
    by_cases hsafe : safe s e
    · have hkept := (hexact s e hinv hs hfirst).mpr hsafe
      have htail := ih (hstep s e hinv hs hfirst hsafe) hkept hrest
      exact ⟨fun h => ⟨hsafe, htail.mp h⟩, fun h => htail.mpr h.2⟩
    · refine iff_of_false ?_ fun h => hsafe h.1
      exact fun h => hsafe ((hexact s e hinv hs hfirst).mp (hfront _ es h))

end histories

/-- Every input of a sequence is answered alike, `k` being what is known of two
states before it. -/
def Alike (agree : K → E → Prop) (next : K → E → K) (k : K) : List E → Prop
  | [] => True
  | e :: es => agree k e ∧ Alike agree next (next k e) es

/-- Two states that are related by what is known of them answer an input alike
exactly when `agree` says so, and then stay related. -/
structure Comparison (step : S → E → S × O) (R : K → S → S → Prop) (agree : K → E → Prop) (next : K → E → K) :
    Prop where
  alike : ∀ {k a b}, R k a b → ∀ e, agree k e → (step a e).2 = (step b e).2
  stays : ∀ {k a b}, R k a b → ∀ e, agree k e → R (next k e) (step a e).1 (step b e).1
  differs : ∀ {k a b}, R k a b → ∀ e, ¬ agree k e → (step a e).2 ≠ (step b e).2

theorem Comparison.answers_eq_iff {step : S → E → S × O} {R : K → S → S → Prop} {agree : K → E → Prop}
    {next : K → E → K} (h : Comparison step R agree next) {k : K} {a b : S} (hrel : R k a b) (es : List E) :
    answers step a es = answers step b es ↔ Alike agree next k es := by
  induction es generalizing k a b with
  | nil => exact iff_of_true rfl trivial
  | cons e es ih =>
    by_cases hagree : agree k e
    · have htail := ih (h.stays hrel e hagree)
      simp only [answers, Alike, List.cons.injEq, h.alike hrel e hagree, hagree, true_and]
      exact htail
    · refine iff_of_false ?_ fun hall => hagree hall.1
      intro hsame
      exact h.differs hrel e hagree (List.cons.inj hsame).1

section traces

/-- Nothing `bad` comes before something `good`. -/
def Unless (good bad : O → Prop) : List O → Prop
  | [] => True
  | o :: os => good o ∨ (¬ bad o ∧ Unless good bad os)

/-- Every answer and the answers behind it have the property. -/
def Throughout (P : O → List O → Prop) : List O → Prop
  | [] => True
  | o :: os => P o os ∧ Throughout P os

instance Unless.decidable {good bad : O → Prop} [DecidablePred good] [DecidablePred bad] :
    (os : List O) → Decidable (Unless good bad os)
  | [] => inferInstanceAs (Decidable True)
  | o :: os =>
    have : Decidable (Unless good bad os) := Unless.decidable os
    inferInstanceAs (Decidable (good o ∨ (¬ bad o ∧ Unless good bad os)))

instance Throughout.decidable {P : O → List O → Prop} [∀ o os, Decidable (P o os)] :
    (os : List O) → Decidable (Throughout P os)
  | [] => inferInstanceAs (Decidable True)
  | o :: os =>
    have : Decidable (Throughout P os) := Throughout.decidable os
    inferInstanceAs (Decidable (P o os ∧ Throughout P os))

variable {good bad : O → Prop}

/-- An answer that is neither good nor bad does not matter. -/
theorem unless_cons_skip {o : O} {os : List O} (hgood : ¬ good o) (hbad : ¬ bad o) :
    Unless good bad (o :: os) ↔ Unless good bad os :=
  ⟨fun h => (h.resolve_left hgood).2, fun h => .inr ⟨hbad, h⟩⟩

theorem unless_of_none {os : List O} (h : ∀ o ∈ os, ¬ bad o) : Unless good bad os := by
  induction os with
  | nil => exact trivial
  | cons o os ih => exact .inr ⟨h o List.mem_cons_self, ih fun o' ho' => h o' (List.mem_cons_of_mem _ ho')⟩

end traces

end machine
