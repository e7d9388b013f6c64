import Uvhttp.Http.Spans

namespace uvhttp.http

/-- What happens to the parse state of a connection: `on_read` hands the bytes
of a read to llhttp, which makes its callbacks, and between reads the restart
that follows a response resets the request. -/
inductive Step where
  | read (callbacks : List ParserCallback)
  | restart
  deriving DecidableEq

/-- A request on its way to a connection, with the number of restarts that run
between the request before it and its first callback. -/
structure Turn where
  restarts : Nat
  request : SpannedRequest

/-- The order in which callbacks and restarts (`none`) happen, without the
boundaries of the reads. -/
def tape : List Step → List (Option ParserCallback)
  | [] => []
  | .read callbacks :: steps => callbacks.map some ++ tape steps
  | .restart :: steps => none :: tape steps

def Turn.tape (t : Turn) : List (Option ParserCallback) :=
  List.replicate t.restarts none ++ t.request.callbacks.map some

section run

variable (alloc : Nat → Bool)

/-- A run of the connection up to its first error, and the requests dispatched. -/
def run (c : HttpParsing) : List Step → Option HttpParsing × List Seen
  | [] => (some c, [])
  | .read callbacks :: steps =>
    match execute alloc c callbacks with
    | (none, seen) => (none, seen)
    | (some c, seen) => ((run c steps).1, seen ++ (run c steps).2)
  | .restart :: steps => run (parsing_restart c) steps

/-- The same run without the boundaries of the reads. -/
def play (c : HttpParsing) : List (Option ParserCallback) → Option HttpParsing × List Seen
  | [] => (some c, [])
  | some cb :: rest =>
    match callback alloc c cb with
    | (none, seen) => (none, seen)
    | (some c, seen) => ((play c rest).1, seen ++ (play c rest).2)
  | none :: rest => play (parsing_restart c) rest

variable {alloc}

theorem play_callbacks (c : HttpParsing) (callbacks : List ParserCallback) (rest : List (Option ParserCallback)) :
    play alloc c (callbacks.map some ++ rest) =
      match execute alloc c callbacks with
      | (none, seen) => (none, seen)
      | (some c, seen) => ((play alloc c rest).1, seen ++ (play alloc c rest).2) := by
  induction callbacks generalizing c with
  | nil => rfl
  | cons cb callbacks ih =>
    rw [List.map_cons, List.cons_append, play]
    rcases hcb : callback alloc c cb with ⟨next, seen⟩
    cases next with
    | none => rw [execute_cons_none hcb]
    | some next =>
      rw [execute_cons hcb]
      dsimp only
      rw [ih]
      rcases execute alloc next callbacks with ⟨last, later⟩
      cases last with
      | none => rfl
      | some last => simp

/-- How the callbacks are grouped into reads makes no difference. -/
theorem run_eq_play (c : HttpParsing) (steps : List Step) : run alloc c steps = play alloc c (tape steps) := by
  induction steps generalizing c with
  | nil => rfl
  | cons step steps ih =>
    cases step with
    | read callbacks =>
      rw [run, tape, play_callbacks]
      rcases execute alloc c callbacks with ⟨next, seen⟩
      cases next with
      | none => rfl
      | some next =>
        dsimp only
        rw [ih]
    | restart =>
      rw [run, tape, play]
      exact ih (parsing_restart c)

theorem play_restarts (c : HttpParsing) (count : Nat) (rest : List (Option ParserCallback)) :
    play alloc c (List.replicate count none ++ rest) =
      play alloc (if 0 < count then parsing_restart c else c) rest := by
  induction count generalizing c with
  | zero => rfl
  | succ count ih =>
    rw [List.replicate_succ, List.cons_append, play, ih, if_pos (Nat.succ_pos count)]
    by_cases hpos : 0 < count
    · rw [if_pos hpos]
      rfl
    · rw [if_neg hpos]

end run

/-- The request leaves headers or body bytes behind. -/
def SpannedRequest.Carries (r : SpannedRequest) : Prop := r.headers ≠ [] ∨ r.body.flatten ≠ []

/-- Every request finds the request object empty: a restart has run since the
request before it, or that one had neither headers nor body. And the body grows
within the limit from the capacity that is there, which a restart sets to 0. -/
def Undisturbed (body_capacity : Nat) (leftover : Prop) : List Turn → Prop
  | [] => True
  | t :: rest =>
    (0 < t.restarts ∨ ¬ leftover) ∧
      (grow_body_all (if 0 < t.restarts then 0 else body_capacity) 0 (t.request.body.map List.length)).isSome ∧
      Undisturbed (if 0 < t.restarts then 0 else body_capacity) t.request.Carries rest

theorem grow_body_all_empty {body_capacity : Nat} {spans : List (List UInt8)} (h : spans.flatten = []) :
    grow_body_all body_capacity 0 (spans.map List.length) = some body_capacity := by
  induction spans with
  | nil => rfl
  | cons span spans ih =>
    rw [List.flatten_cons, List.append_eq_nil_iff] at h
    rw [List.map_cons, grow_body_all, h.1, List.length_nil, grow_body, if_neg (by omega), Option.bind_some]
    exact ih h.2

theorem SpannedRequest.stored_headers_eq_nil {r : SpannedRequest} : r.stored_headers = [] ↔ r.headers = [] :=
  List.map_eq_nil_iff

/-- Leftover headers or body bytes show in the next request. -/
theorem SpannedRequest.delivered_onto_eq_iff {r : SpannedRequest} {headers : List Header} {body : List UInt8} :
    r.delivered_onto headers body = r.delivered ↔ headers = [] ∧ body = [] := by
  unfold delivered delivered_onto
  rw [Seen.mk.injEq]
  simp only [true_and, List.nil_append, List.append_left_eq_self]

section isolation

variable {alloc : Nat → Bool} (halloc : ∀ size, alloc size = true)

include halloc in
/-- The requests of a run are dispatched as each would be alone exactly when
none is disturbed. The induction is on the requests, from any state between
two messages. -/
theorem play_isolated_iff {turns : List Turn}
    (hturns : ∀ t ∈ turns, t.request.SpansWithinLimits 0 UVHTTP_INITIAL_BUFFER_SIZE 0) (trailing : Nat)
    {c : HttpParsing} (hc : Between c) {leftover : Prop}
    (hleftover : leftover ↔ c.request.headers ≠ [] ∨ c.request.body.getD [] ≠ []) {body_capacity : Nat}
    (hcapacity : ¬ leftover → c.request.body_capacity = body_capacity) :
    (play alloc c (turns.flatMap Turn.tape ++ List.replicate trailing none)).2 =
        turns.map (fun t => t.request.delivered) ↔ Undisturbed body_capacity leftover turns := by
  classical
  induction turns generalizing c leftover body_capacity with
  | nil =>
    rw [List.flatMap_nil, List.nil_append, ← List.append_nil (List.replicate trailing none), play_restarts]
    exact ⟨fun _ => trivial, fun _ => rfl⟩
  | cons t rest ih =>
    obtain ⟨hwell, hrest⟩ := List.forall_mem_cons.mp hturns
    rw [List.flatMap_cons, Turn.tape, List.append_assoc, List.append_assoc, play_restarts, play_callbacks,
      List.map_cons, Undisturbed]
    by_cases hempty : 0 < t.restarts ∨ ¬ leftover
    · have hstart : ∃ start, (if 0 < t.restarts then parsing_restart c else c) = start ∧ Between start ∧
          start.request.headers = [] ∧ start.request.body.getD [] = [] ∧
          start.request.body_capacity = if 0 < t.restarts then 0 else body_capacity := by
        by_cases hpos : 0 < t.restarts
        · rw [if_pos hpos, if_pos hpos]
          exact ⟨_, rfl, between_restart hc.table, rfl, rfl, rfl⟩
        · have hnone := hempty.resolve_left hpos
          have hnothing : c.request.headers = [] ∧ c.request.body.getD [] = [] := by
            rw [hleftover] at hnone
            push Not at hnone
            exact hnone
          rw [if_neg hpos, if_neg hpos]
          exact ⟨c, rfl, hc, hnothing.1, hnothing.2, hcapacity hnone⟩
      obtain ⟨start, heq, hbetween, hheaders, hbody, hroom⟩ := hstart
      have hrun := execute_request halloc hbetween t.request
      rw [hheaders, hbody, hroom] at hrun
      rw [heq]
      cases hgrow : grow_body_all (if 0 < t.restarts then 0 else body_capacity) 0
          (t.request.body.map List.length) with
      | none =>
        rw [if_neg fun h => absurd h.body (by simp [hgrow])] at hrun
        rw [hrun]
        simp
      | some last =>
        rw [if_pos ⟨hwell.url, hwell.headers, hwell.header, by simp [hgrow]⟩] at hrun
        obtain ⟨next, hexecute, hnext, hnextHeaders, hnextBody, hnextCapacity⟩ := hrun
        rw [List.nil_append] at hnextHeaders hnextBody
        rw [List.length_nil, hgrow, Option.some_inj] at hnextCapacity
        rw [hexecute]
        dsimp only
        have hcarries : t.request.Carries ↔ next.request.headers ≠ [] ∨ next.request.body.getD [] ≠ [] := by
          rw [hnextHeaders, hnextBody, SpannedRequest.Carries, ne_eq, ne_eq, ne_eq,
            SpannedRequest.stored_headers_eq_nil]
        have hkept : ¬ t.request.Carries →
            next.request.body_capacity = if 0 < t.restarts then 0 else body_capacity := by
          intro hnothing
          unfold SpannedRequest.Carries at hnothing
          push Not at hnothing
          rw [grow_body_all_empty hnothing.2, Option.some_inj] at hgrow
          rw [← hnextCapacity, ← hgrow]
        rw [← ih hrest hnext hcarries hkept]
        simp [SpannedRequest.delivered, hempty]
    · have hpos : ¬ 0 < t.restarts := fun h => hempty (.inl h)
      have hleft : leftover := not_not.mp fun h => hempty (.inr h)
      have hrun := execute_request halloc hc t.request
      rw [if_neg hpos]
      refine iff_of_false ?_ fun h => hempty h.1
      split at hrun
      · obtain ⟨next, hexecute, -⟩ := hrun
        rw [hexecute]
        intro hsame
        have hfirst := (List.cons_eq_cons.mp hsame).1
        rw [SpannedRequest.delivered_onto_eq_iff] at hfirst
        rcases hleftover.mp hleft with hheaders | hbody
        · exact hheaders hfirst.1
        · exact hbody hfirst.2
      · rw [hrun]
        simp

include halloc in
/-- On a new connection, an accepted request is dispatched once. -/
theorem SpannedRequest.seen_of_accepted {r : SpannedRequest} (h : r.accepted alloc = true) :
    r.SpansWithinLimits 0 UVHTTP_INITIAL_BUFFER_SIZE 0 ∧ r.seen alloc = [r.delivered] := by
  classical
  have hrun := execute_request halloc between_new r
  change if r.SpansWithinLimits 0 UVHTTP_INITIAL_BUFFER_SIZE 0 then _ else _ at hrun
  unfold SpannedRequest.accepted at h
  unfold SpannedRequest.seen
  split at hrun
  · rename_i hlimits
    obtain ⟨c', hexecute, -⟩ := hrun
    rw [hexecute]
    exact ⟨hlimits, rfl⟩
  · rw [hrun] at h
    cases h

end isolation

end uvhttp.http
