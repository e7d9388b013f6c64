import Uvhttp.Static.Sendfile

namespace uvhttp.sendfile

/-- The file is closed at most once and the context freed at most once, never while
a request or the timer still needs it, and both have happened once nothing is
outstanding any more. -/
structure Intact (t : Transfer) : Prop where
  closes : t.fd_closes ≤ 1
  frees : t.frees ≤ 1
  not_early : 0 < t.frees →
    t.sendfile_req = none ∧ (t.context.timeout_timer = .zeroed ∨ t.context.timeout_timer = .closed)
  once : t.sendfile_req = none → t.close_reqs = 0 → t.fd_closes = 1 ∧ t.frees = 1

def Event.is_complete : Event → Bool
  | .sendfile_complete _ _ => true
  | _ => false

/-- The answer of `uv_fs_close` comes late enough: after that of a request which the
timeout has overtaken, and after the closing phase that takes the timer off the
loop, if there is a timer. -/
def InOrder (opening : Opening) (before : List Event) : Prop :=
  (.sendfile_timeout ∈ before → before.any Event.is_complete) ∧
    (opening ≠ .headers_failed → .closing_phase ∈ before)

/-- Every answer of `uv_fs_close` in a sequence comes late enough. -/
def Orderly (opening : Opening) (events : List Event) : Prop :=
  ∀ before, before ++ [.file_close] <+: events → InOrder opening before

section timer

theorem close_timer_spec (c : SendfileContext) :
    ((close_timer c).timeout_timer = .closing ∧ c.timeout_timer ≠ .closed) ∨
      ((close_timer c).timeout_timer = .closed ∧ c.timeout_timer = .closed) := by
  rw [close_timer]
  cases htimer : c.timeout_timer with
  | zeroed => simp [uv_is_closing]
  | «open» active => simp [uv_is_closing]
  | closing => simp [uv_is_closing, htimer]
  | closed => simp [uv_is_closing, htimer]

theorem uv_is_closing_close_timer (c : SendfileContext) : uv_is_closing (close_timer c).timeout_timer = true := by
  obtain ⟨h, _⟩ | ⟨h, _⟩ := close_timer_spec c
  · rw [h]
    rfl
  · rw [h]
    rfl

theorem close_timer_of_closing {c : SendfileContext} (h : uv_is_closing c.timeout_timer = true) : close_timer c = c :=
  if_pos h

theorem restart_timer_of_closing {c : SendfileContext} (h : uv_is_closing c.timeout_timer = true) :
    restart_timer c = c :=
  if_pos h

end timer

section callbacks

/-- The bytes that a result reports. -/
def count : SendfileResult → Nat
  | .sent count => count
  | .UV_EAGAIN | .UV_EINTR | .failed => 0

/-- A transfer goes on with a request for what follows its offset, or has its file
closed. -/
inductive GoesOn (t t' : Transfer) : Prop where
  | request {r : SendfileRequest} (hreq : t'.sendfile_req = some r) (hat : r.offset = t'.context.offset)
      (hinside : t.context.offset < t.context.file_size → t'.context.offset < t'.context.file_size)
      (hcompleted : t'.context.completed = false) (hclose : t'.close_reqs = t.close_reqs)
      (hfd : t'.fd_closes = t.fd_closes)
  | close (hreq : t'.sendfile_req = none) (hclose : t'.close_reqs = t.close_reqs + 1)
      (hfd : t'.fd_closes = t.fd_closes + 1)

/-- Only the offset, the size and the closes of a transfer matter to how it goes on. -/
theorem GoesOn.congr {t u t' : Transfer} (h : GoesOn u t') (hoffset : u.context.offset = t.context.offset)
    (hsize : u.context.file_size = t.context.file_size) (hcloses : u.close_reqs = t.close_reqs)
    (hfds : u.fd_closes = t.fd_closes) : GoesOn t t' := by
  cases h with
  | request hreq hat hinside hcompleted hclose hfd =>
    rw [hoffset, hsize] at hinside
    exact .request hreq hat hinside hcompleted (hclose.trans hcloses) (hfd.trans hfds)
  | close hreq hclose hfd =>
    rw [hcloses] at hclose
    rw [hfds] at hfd
    exact .close hreq hclose hfd

/-- What the callback does to the offset and what it leaves alone, whichever way a
transfer goes on. -/
structure Answered (t t' : Transfer) (count : Nat) : Prop where
  timer : t'.context.timeout_timer = t.context.timeout_timer
  frees : t'.frees = t.frees
  size : t'.context.file_size = t.context.file_size
  offset : t'.context.offset = t.context.offset + count
  goes_on : GoesOn t t'

theorem answered_close {t : Transfer} (hreq : t.sendfile_req = none) : Answered t (uv_fs_close t) 0 :=
  ⟨rfl, rfl, rfl, rfl, .close hreq rfl rfl⟩

theorem answered_resend {t : Transfer} (hreq : t.sendfile_req = none) (hcompleted : t.context.completed = false)
    (accepted : Bool) : Answered t (resend accepted t) 0 := by
  rw [resend]
  split
  · exact ⟨rfl, rfl, rfl, rfl, .request rfl rfl id hcompleted rfl rfl⟩
  · exact answered_close hreq

theorem answered_error {t : Transfer} (hreq : t.sendfile_req = none) (hcompleted : t.context.completed = false)
    (retriable accepted : Bool) : Answered t (sendfile_error retriable accepted t) 0 := by
  rw [sendfile_error]
  split
  · obtain ⟨htimer, hfrees, hsize, hoffset, hgoes⟩ := answered_resend
      (t := { t with context := { t.context with retry_count := t.context.retry_count + 1 } }) hreq hcompleted accepted
    exact ⟨htimer, hfrees, hsize, hoffset, hgoes.congr rfl rfl rfl rfl⟩
  · exact answered_close hreq

theorem answered_progress {t : Transfer} (hreq : t.sendfile_req = none) (hcompleted : t.context.completed = false)
    (htimer : uv_is_closing t.context.timeout_timer = true) (count : Nat) (accepted : Bool) :
    Answered t (sendfile_progress count accepted t) count := by
  simp only [sendfile_progress]
  rw [close_timer_of_closing (by exact htimer)]
  split
  · exact ⟨rfl, rfl, rfl, rfl, .close hreq rfl rfl⟩
  · rename_i hinside
    cases accepted with
    | true =>
      simp only [resend, if_true]
      rw [restart_timer_of_closing (by exact htimer)]
      exact ⟨rfl, rfl, rfl, rfl, .request rfl rfl (fun _ => not_le.mp hinside) hcompleted rfl rfl⟩
    | false => exact ⟨rfl, rfl, rfl, rfl, .close hreq rfl rfl⟩

theorem close_timer_fields (c : SendfileContext) :
    (close_timer c).file_size = c.file_size ∧ (close_timer c).offset = c.offset ∧
      (close_timer c).completed = c.completed := by
  rw [close_timer]
  split <;> exact ⟨rfl, rfl, rfl⟩

/-- A completion that is told of closes the timer, moves the offset by what was sent,
and sends on or closes the file. -/
theorem complete_spec {t : Transfer} (hfrees : t.frees = 0) (hcompleted : t.context.completed = false)
    (result : SendfileResult) (accepted : Bool) :
    (on_sendfile_complete result accepted t).context.timeout_timer = (close_timer t.context).timeout_timer ∧
      (on_sendfile_complete result accepted t).frees = 0 ∧
      (on_sendfile_complete result accepted t).context.file_size = t.context.file_size ∧
      (on_sendfile_complete result accepted t).context.offset = t.context.offset + count result ∧
      GoesOn t (on_sendfile_complete result accepted t) := by
  obtain ⟨hsize, hoffset, hkept⟩ := close_timer_fields t.context
  have hopen : (close_timer t.context).completed = false := hkept.trans hcompleted
  have hclosing := uv_is_closing_close_timer t.context
  have hanswered : Answered { t with sendfile_req := none, context := close_timer t.context }
      (on_sendfile_complete result accepted t) (count result) := by
    simp only [on_sendfile_complete, hfrees, hcompleted, lt_irrefl, if_false, Bool.false_eq_true]
    cases result with
    | sent count => exact answered_progress rfl hopen hclosing count accepted
    | UV_EAGAIN => exact answered_error rfl hopen true accepted
    | UV_EINTR => exact answered_error rfl hopen true accepted
    | failed => exact answered_error rfl hopen false accepted
  exact ⟨hanswered.timer, hanswered.frees.trans hfrees, hanswered.size.trans hsize,
    hanswered.offset.trans (congrArg (· + count result) hoffset), hanswered.goes_on.congr hoffset hsize rfl rfl⟩

/-- A completion that comes after the timeout changes nothing. -/
theorem complete_completed {t : Transfer} (hfrees : t.frees = 0) (hcompleted : t.context.completed = true)
    (result : SendfileResult) (accepted : Bool) :
    on_sendfile_complete result accepted t = { t with sendfile_req := none } := by
  simp [on_sendfile_complete, hfrees, hcompleted]

end callbacks

section runs

/-- Where a transfer stands, and what its events so far have to do with it. -/
inductive Stage (t : Transfer) (events : List Event) : Prop where
  | waiting (hreq : t.sendfile_req.isSome) (hcompleted : t.context.completed = false) (hclose : t.close_reqs = 0)
      (hfd : t.fd_closes = 0) (hfrees : t.frees = 0) (htimeout : .sendfile_timeout ∉ events)
      (hrunning : t.context.timeout_timer = .open true → events.any Event.is_complete = false)
      (hstarted : t.context.timeout_timer ≠ .zeroed)
  | overtaken (hreq : t.sendfile_req.isSome) (hcompleted : t.context.completed = true) (hclose : t.close_reqs = 1)
      (hfd : t.fd_closes = 1) (hfrees : t.frees = 0) (htimeout : .sendfile_timeout ∈ events)
      (hunanswered : events.any Event.is_complete = false) (htimer : uv_is_closing t.context.timeout_timer = true)
  | answered (hreq : t.sendfile_req = none) (hclose : t.close_reqs = 1) (hfd : t.fd_closes = 1) (hfrees : t.frees = 0)
      (htimeout : .sendfile_timeout ∈ events → events.any Event.is_complete = true)
      (htimer : t.context.timeout_timer = .zeroed ∨ uv_is_closing t.context.timeout_timer = true)
  | released (hreq : t.sendfile_req = none) (hclose : t.close_reqs = 0) (hfd : t.fd_closes = 1) (hfrees : t.frees = 1)
      (htimer : t.context.timeout_timer = .zeroed ∨ t.context.timeout_timer = .closed)

/-- A transfer whose files were closed late enough, with the events that led to it. -/
structure Told (opening : Opening) (t : Transfer) (events : List Event) : Prop where
  stage : Stage t events
  phase : .closing_phase ∈ events ↔ t.context.timeout_timer = .closed
  zeroed : t.context.timeout_timer = .zeroed ↔ opening = .headers_failed

theorem Stage.intact {t : Transfer} {events : List Event} (h : Stage t events) : Intact t := by
  cases h with
  | waiting hreq _ _ hfd hfrees =>
    refine ⟨by omega, by omega, fun hpos => by omega, ?_⟩
    intro hnone
    rw [hnone] at hreq
    exact absurd hreq (by simp)
  | overtaken hreq _ hclose hfd hfrees =>
    exact ⟨by omega, by omega, fun hpos => by omega, fun _ hzero => by omega⟩
  | answered hreq hclose hfd hfrees =>
    exact ⟨by omega, by omega, fun hpos => by omega, fun _ hzero => by omega⟩
  | released hreq hclose hfd hfrees htimer =>
    exact ⟨by omega, by omega, fun _ => ⟨hreq, htimer⟩, fun _ _ => ⟨hfd, hfrees⟩⟩

theorem told_start (file_size : Nat) (config : Option SendfileConfig) {opening : Opening}
    (hopening : opening ≠ .timer_failed) : Told opening (start file_size config opening) [] := by
  cases opening with
  | headers_failed =>
    exact ⟨.answered rfl rfl rfl rfl (by simp) (.inl rfl), by simp [start, uv_fs_close, init_sendfile_config], by
      simp [start, uv_fs_close, init_sendfile_config]⟩
  | timer_failed => exact absurd rfl hopening
  | sendfile_failed => exact ⟨.answered rfl rfl rfl rfl (by simp) (.inr rfl), by simp [start, uv_fs_close], by
      simp [start, uv_fs_close]⟩
  | accepted => exact ⟨.waiting rfl rfl rfl rfl rfl (by simp) (fun _ => rfl) (by simp [start]), by simp [start], by
      simp [start]⟩

/-- An event other than the closing phase says nothing about it. -/
theorem phase_append {t t' : Transfer} {events : List Event} {event : Event}
    (h : .closing_phase ∈ events ↔ t.context.timeout_timer = .closed) (hevent : event ≠ .closing_phase)
    (htimer : t'.context.timeout_timer = .closed ↔ t.context.timeout_timer = .closed) :
    .closing_phase ∈ events ++ [event] ↔ t'.context.timeout_timer = .closed := by
  rw [htimer, ← h, List.mem_append, List.mem_singleton]
  exact or_iff_left (fun heq => hevent heq.symm)

theorem told_complete {opening : Opening} {t : Transfer} {events : List Event} (h : Told opening t events)
    (hreq : t.sendfile_req.isSome) (result : SendfileResult) (accepted : Bool) :
    Told opening (on_sendfile_complete result accepted t) (events ++ [.sendfile_complete result accepted]) := by
  have hany : (events ++ [Event.sendfile_complete result accepted]).any Event.is_complete = true := by
    rw [List.any_append]
    exact Bool.or_eq_true_iff.mpr (.inr rfl)
  cases h.stage with
  | waiting _ hcompleted hclose hfd hfrees htimeout hrunning hstarted =>
    obtain ⟨htimer, hfrees', _, _, hgoes⟩ := complete_spec hfrees hcompleted result accepted
    have hclosed : (on_sendfile_complete result accepted t).context.timeout_timer = .closed ↔
        t.context.timeout_timer = .closed := by
      rw [htimer]
      obtain ⟨hclosing, hopen⟩ | ⟨hclosed, hwas⟩ := close_timer_spec t.context
      · simp [hclosing, hopen]
      · simp [hclosed, hwas]
    have hclosing : uv_is_closing (on_sendfile_complete result accepted t).context.timeout_timer = true := by
      rw [htimer]
      exact uv_is_closing_close_timer t.context
    have hzeroed : (on_sendfile_complete result accepted t).context.timeout_timer ≠ .zeroed := by
      intro hzeroed
      rw [hzeroed] at hclosing
      exact absurd hclosing (by simp [uv_is_closing])
    refine ⟨?_, phase_append h.phase (by simp) hclosed, iff_of_false hzeroed (mt h.zeroed.mpr hstarted)⟩
    · cases hgoes with
      | request hreq' _ _ hcompleted' hclose' hfd' =>
        refine .waiting (Option.isSome_of_eq_some hreq') hcompleted' (hclose'.trans hclose) (hfd'.trans hfd) hfrees'
          (by simp [htimeout]) ?_ hzeroed
        intro hopen
        rw [hopen] at hclosing
        exact absurd hclosing (by simp [uv_is_closing])
      | close hreq' hclose' hfd' =>
        exact .answered hreq' (by omega) (by omega) hfrees' (fun _ => hany) (.inr hclosing)
  | overtaken _ hcompleted hclose hfd hfrees htimeout hunanswered htimer =>
    rw [complete_completed hfrees hcompleted]
    exact ⟨.answered rfl hclose hfd hfrees (fun _ => hany) (.inr htimer), phase_append h.phase (by simp) Iff.rfl,
      h.zeroed⟩
  | answered hnone =>
    rw [hnone] at hreq
    exact absurd hreq (by simp)
  | released hnone =>
    rw [hnone] at hreq
    exact absurd hreq (by simp)

theorem told_timeout {opening : Opening} {t : Transfer} {events : List Event} (h : Told opening t events)
    (htimer : t.context.timeout_timer = .open true) :
    Told opening (on_sendfile_timeout t) (events ++ [.sendfile_timeout]) := by
  cases h.stage with
  | waiting hreq hcompleted hclose hfd hfrees _ hrunning hstarted =>
    have hstep : on_sendfile_timeout t =
        uv_fs_close { t with context := { t.context with completed := true, timeout_timer := .closing } } := by
      simp [on_sendfile_timeout, hfrees, hcompleted]
    rw [hstep]
    refine ⟨?_, ?_, ?_⟩
    · refine .overtaken hreq rfl (congrArg (· + 1) hclose) (congrArg (· + 1) hfd) hfrees (by simp) ?_ rfl
      rw [List.any_append, hrunning htimer]
      rfl
    · exact phase_append h.phase (by simp) (by simp [uv_fs_close, htimer])
    · exact iff_of_false (by simp [uv_fs_close]) (mt h.zeroed.mpr hstarted)
  | overtaken _ _ _ _ _ _ _ hclosing =>
    rw [htimer] at hclosing
    exact absurd hclosing (by simp [uv_is_closing])
  | answered _ _ _ _ _ hclosing =>
    rw [htimer] at hclosing
    exact absurd hclosing (by simp [uv_is_closing])
  | released _ _ _ _ hclosed =>
    rw [htimer] at hclosed
    exact absurd hclosed (by simp)

theorem told_closing_phase {opening : Opening} {t : Transfer} {events : List Event} (h : Told opening t events)
    (htimer : t.context.timeout_timer = .closing) :
    Told opening { t with context := { t.context with timeout_timer := .closed } } (events ++ [.closing_phase]) := by
  have hany : (events ++ [Event.closing_phase]).any Event.is_complete = events.any Event.is_complete := by
    rw [List.any_append]
    exact Bool.or_false _
  refine ⟨?_, by simp, iff_of_false (by simp) (mt h.zeroed.mpr (by simp [htimer]))⟩
  cases h.stage with
  | waiting hreq hcompleted hclose hfd hfrees htimeout =>
    exact .waiting hreq hcompleted hclose hfd hfrees (by simpa using htimeout) (by simp) (by simp)
  | overtaken hreq hcompleted hclose hfd hfrees htimeout hunanswered =>
    exact .overtaken hreq hcompleted hclose hfd hfrees (by simpa using htimeout) (by rw [hany]; exact hunanswered) rfl
  | answered hreq hclose hfd hfrees htimeout =>
    exact .answered hreq hclose hfd hfrees (by rw [hany]; simpa using htimeout) (.inr rfl)
  | released hreq hclose hfd hfrees => exact .released hreq hclose hfd hfrees (.inr rfl)

/-- A transfer whose file is closing is released by the answer, unless that comes
too early. -/
theorem told_file_close {opening : Opening} {t : Transfer} {events : List Event} (h : Told opening t events)
    (hclose : 0 < t.close_reqs) (horder : InOrder opening events) :
    Told opening (on_file_close t) (events ++ [.file_close]) := by
  refine ⟨?_, phase_append h.phase (by simp) Iff.rfl, h.zeroed⟩
  cases h.stage with
  | waiting _ _ hzero => exact absurd hclose (by omega)
  | overtaken _ _ _ _ _ htimeout hunanswered =>
    rw [horder.1 htimeout] at hunanswered
    exact absurd hunanswered (by simp)
  | answered hreq hone hfd hfrees _ _ =>
    refine .released hreq ?_ hfd ?_ ?_
    · show t.close_reqs - 1 = 0
      omega
    · show t.frees + 1 = 1
      omega
    · by_cases hopening : opening = .headers_failed
      · exact .inl (h.zeroed.mpr hopening)
      · exact .inr (h.phase.mp (horder.2 hopening))
  | released _ hzero => exact absurd hclose (by omega)

/-- An answer of `uv_fs_close` that comes too early frees the context under a request
or under the timer. -/
theorem not_intact_file_close {opening : Opening} {t : Transfer} {events : List Event} (h : Told opening t events)
    (hclose : 0 < t.close_reqs) (horder : ¬ InOrder opening events) : ¬ Intact (on_file_close t) := by
  intro hintact
  obtain ⟨hreq, htimer⟩ := hintact.not_early (by simp [on_file_close])
  apply horder
  refine ⟨?_, ?_⟩
  · intro htimeout
    cases h.stage with
    | waiting _ _ hzero => exact absurd hclose (by omega)
    | overtaken hsome =>
      rw [show t.sendfile_req = none from hreq] at hsome
      exact absurd hsome (by simp)
    | answered _ _ _ _ hanswered => exact hanswered htimeout
    | released _ hzero => exact absurd hclose (by omega)
  · intro hopening
    obtain hzeroed | hclosed := htimer
    · exact absurd (h.zeroed.mp hzeroed) hopening
    · exact h.phase.mpr hclosed

theorem told_step {opening : Opening} {t : Transfer} {events : List Event} (h : Told opening t events) {event : Event}
    (hpossible : event.Possible t) (horder : event = .file_close → InOrder opening events) :
    Told opening (step t event).1 (events ++ [event]) := by
  cases event with
  | sendfile_complete result accepted => exact told_complete h hpossible result accepted
  | sendfile_timeout => exact told_timeout h hpossible
  | file_close => exact told_file_close h hpossible (horder rfl)
  | closing_phase => exact told_closing_phase h hpossible

theorem orderly_append {opening : Opening} {events : List Event} {event : Event} :
    Orderly opening (events ++ [event]) ↔
      Orderly opening events ∧ (event = .file_close → InOrder opening events) := by
  constructor
  · intro h
    refine ⟨fun before hbefore => h before (hbefore.trans (List.prefix_append _ _)), ?_⟩
    rintro rfl
    exact h events (List.prefix_refl _)
  · rintro ⟨hevents, hlast⟩ before hbefore
    obtain heq | hbefore := List.prefix_concat_iff.mp hbefore
    · obtain ⟨rfl, hevent⟩ := List.append_inj' heq rfl
      exact hlast (List.singleton_inj.mp hevent).symm
    · exact hevents before hbefore

theorem possible_append {t : Transfer} {events : List Event} {event : Event}
    (h : Possible t (events ++ [event])) :
    Possible t events ∧ event.Possible (machine.run step t events) := by
  obtain ⟨hevents, hlast⟩ := machine.enabled_append.mp h
  exact ⟨hevents, hlast.1⟩

theorem run_snoc (t : Transfer) (events : List Event) (event : Event) :
    machine.run step t (events ++ [event]) = (step (machine.run step t events) event).1 := by
  rw [machine.run_append]
  rfl

/-- A run in which the files are closed late enough keeps the transfer as told. -/
theorem told_run (file_size : Nat) (config : Option SendfileConfig) {opening : Opening}
    (hopening : opening ≠ .timer_failed) {events : List Event}
    (hpossible : Possible (start file_size config opening) events) (horder : Orderly opening events) :
    Told opening (machine.run step (start file_size config opening) events) events := by
  induction events using List.reverseRecOn with
  | nil => exact told_start file_size config hopening
  | append_singleton events event ih =>
    obtain ⟨hbefore, hlast⟩ := possible_append hpossible
    obtain ⟨hearlier, hevent⟩ := orderly_append.mp horder
    rw [run_snoc]
    exact told_step (ih hbefore hearlier) hlast hevent

/-- A run that stays intact closes its files late enough. -/
theorem orderly_of_intact (file_size : Nat) (config : Option SendfileConfig) {opening : Opening}
    (hopening : opening ≠ .timer_failed) {events : List Event}
    (hpossible : Possible (start file_size config opening) events)
    (hintact : ∀ before, before <+: events → Intact (machine.run step (start file_size config opening) before)) :
    Orderly opening events := by
  induction events using List.reverseRecOn with
  | nil => exact fun before hbefore => absurd (List.prefix_nil.mp hbefore) (by simp)
  | append_singleton events event ih =>
    obtain ⟨hbefore, hlast⟩ := possible_append hpossible
    have hearlier := ih hbefore fun before h => hintact before (h.trans (List.prefix_append _ _))
    refine orderly_append.mpr ⟨hearlier, ?_⟩
    rintro rfl
    by_contra hearly
    have htold := told_run file_size config hopening hbefore hearlier
    apply not_intact_file_close htold hlast hearly
    have hafter := hintact _ (List.prefix_refl _)
    rwa [run_snoc] at hafter

end runs

/-- The context of a transfer is freed once, its file is closed once, and neither a
request nor the timer outlives it, exactly when the timer could be initialised and
the answer of `uv_fs_close` comes late enough. -/
theorem context_released_once (file_size : Nat) (config : Option SendfileConfig) (opening : Opening)
    {events : List Event} (hpossible : Possible (start file_size config opening) events) :
    (∀ before, before <+: events → Intact (machine.run step (start file_size config opening) before)) ↔
      opening ≠ .timer_failed ∧ Orderly opening events := by
  constructor
  · intro hintact
    have hopening : opening ≠ .timer_failed := by
      rintro rfl
      obtain ⟨hfd, _⟩ := (hintact [] List.nil_prefix).once rfl rfl
      exact absurd hfd (by simp [machine.run, start])
    exact ⟨hopening, orderly_of_intact file_size config hopening hpossible hintact⟩
  · rintro ⟨hopening, horder⟩ before hbefore
    obtain ⟨after, rfl⟩ := hbefore
    have hearlier : Orderly opening before := fun first hfirst => horder first (hfirst.trans (List.prefix_append _ _))
    have hrun : Possible (start file_size config opening) before := (machine.enabled_append.mp hpossible).1
    exact (told_run file_size config hopening hrun hearlier).stage.intact

/-- A file that goes out in two pieces, the second after one retry. -/
theorem context_released_once_retry :
    let events : List Event := [.sendfile_complete (.sent 65536) true, .closing_phase, .sendfile_complete .UV_EAGAIN true,
      .sendfile_complete (.sent 34464) true, .file_close]
    Possible (start 100000 none .accepted) events ∧ ∀ before, before <+: events →
      Intact (machine.run step (start 100000 none .accepted) before) := by
  intro events
  have hpossible : Possible (start 100000 none .accepted) events := by decide
  refine ⟨hpossible, (context_released_once 100000 none .accepted hpossible).mpr ⟨by decide, ?_⟩⟩
  intro before hbefore
  have hinits : ∀ before ∈ events.inits, before ++ [.file_close] ∈ events.inits →
      (Event.sendfile_timeout ∈ before → before.any Event.is_complete = true) ∧
        Event.closing_phase ∈ before := by decide
  obtain ⟨htimeout, hphase⟩ := hinits before
    ((List.mem_inits _ _).mpr ((List.prefix_append _ _).trans hbefore)) ((List.mem_inits _ _).mpr hbefore)
  exact ⟨htimeout, fun _ => hphase⟩

/-- The timeout closes the file under the first request, and the answer frees the
context that the request will be completed with. -/
theorem context_freed_under_request :
    ∃ events : List Event, Possible (start 100000 none .accepted) events ∧
      ¬ Intact (machine.run step (start 100000 none .accepted) events) ∧
      (machine.run step (start 100000 none .accepted) (events ++ [.sendfile_complete (.sent 65536) true])).dangling =
        true := by
  refine ⟨[.sendfile_timeout, .closing_phase, .file_close], by decide, ?_, by decide⟩
  intro hintact
  exact absurd (hintact.not_early (by decide)).1 (by decide)

end uvhttp.sendfile
