import Uvhttp.Static.SendfileLifetime
import Uvhttp.Static.SendfileWire

namespace uvhttp.sendfile_wire

open uvhttp.sendfile

section stages

def Others (data : List WireByte) : Prop := ∀ b ∈ data, b.origin = .other

theorem mem_tagged {origin : Origin} {data : List UInt8} {b : WireByte} (h : b ∈ tagged origin data) :
    b.origin = origin := by
  obtain ⟨value, _, rfl⟩ := List.mem_map.mp h
  rfl

theorem others_tagged (data : List UInt8) : Others (tagged .other data) := fun _ hb => mem_tagged hb

theorem Others.append {first second : List WireByte} (hfirst : Others first) (hsecond : Others second) :
    Others (first ++ second) := by
  intro b hb
  obtain hb | hb := List.mem_append.mp hb
  · exact hfirst b hb
  · exact hsecond b hb

theorem tagged_append (origin : Origin) (first second : List UInt8) :
    tagged origin (first ++ second) = tagged origin first ++ tagged origin second :=
  List.map_append

/-- A transfer that is going on. -/
structure Live (s : Link) : Prop where
  request : ∃ r, s.transfer.sendfile_req = some r ∧ r.offset = s.transfer.context.offset
  completed : s.transfer.context.completed = false
  frees : s.transfer.frees = 0
  closes : s.transfer.close_reqs = 0
  size : s.transfer.context.file_size = s.file.length
  inside : s.transfer.context.offset < s.file.length
  moved : s.transfer.context.offset + s.moved ≤ s.file.length
  ended : ∀ result ∈ s.ended, Reports s.moved result

/-- A transfer that will never come to the end of its file. -/
structure Dead (s : Link) : Prop where
  stopped : s.transfer.sendfile_req = none ∨ s.transfer.context.completed = true
  short : s.transfer.context.offset < s.transfer.context.file_size

/-- The output with the headers and a part of the file behind them. Other bytes follow
only when that is the whole file. -/
def PartialImage (header : List UInt8) (s : Link) (sent : Nat) : Prop :=
  ∃ before after, s.wire = before ++ tagged .header header ++ tagged .body (s.file.take sent) ++ after ∧
    Others before ∧ Others after ∧ (sent < s.file.length → after = [])

/-- The stages of a response whose events are undisturbed. -/
inductive Stage (header : List UInt8) (s : Link) : Prop where
  | dead (h : Dead s)
  | heading (hlive : Live s) (hnone : s.transfer.context.offset + s.moved = 0)
      (hpending : ∃ before sent rest ahead behind, s.wire = before ++ tagged .header sent ∧
        s.queue = ahead ++ tagged .header rest ++ behind ∧ sent ++ rest = header ∧ rest ≠ [] ∧
        (ahead = [] ∨ sent = []) ∧ Others before ∧ Others ahead ∧ Others behind)
  | sending (hlive : Live s) (hqueue : Others s.queue)
      (himage : PartialImage header s (s.transfer.context.offset + s.moved))
  | finished (hreq : s.transfer.sendfile_req = none) (hqueue : Others s.queue) (himage : WireImage header s.file s.wire)

/-- Whether a transfer is going on does not depend on the connection. -/
theorem Live.congr {s s' : Link} (h : Live s) (hfile : s'.file = s.file) (htransfer : s'.transfer = s.transfer)
    (hmoved : s'.moved = s.moved) (hended : ∀ result ∈ s'.ended, Reports s.moved result) : Live s' := by
  obtain ⟨file', transfer', moved', ended', queue', wire', _, _, _, _⟩ := s'
  subst hfile htransfer hmoved
  exact ⟨h.request, h.completed, h.frees, h.closes, h.size, h.inside, h.moved, hended⟩

/-- A stage says nothing about the flags of the connection. -/
theorem Stage.congr {header : List UInt8} {s s' : Link} (h : Stage header s) (hfile : s'.file = s.file)
    (htransfer : s'.transfer = s.transfer) (hmoved : s'.moved = s.moved) (hended : s'.ended = s.ended)
    (hqueue : s'.queue = s.queue) (hwire : s'.wire = s.wire) : Stage header s' := by
  obtain ⟨file', transfer', moved', ended', queue', wire', _, _, _, _⟩ := s'
  subst hfile htransfer hmoved hended hqueue hwire
  cases h with
  | dead h => exact .dead ⟨h.stopped, h.short⟩
  | heading h hnone hpending => exact .heading (h.congr rfl rfl rfl h.ended) hnone hpending
  | sending h hqueue himage => exact .sending (h.congr rfl rfl rfl h.ended) hqueue himage
  | finished hreq hqueue himage => exact .finished hreq hqueue himage

theorem stage_started (file : List UInt8) (config : Option SendfileConfig) {header : List UInt8}
    (wire queue : List UInt8) (keepalive : Bool) (hfile : 0 < file.length) (hheader : header ≠ []) :
    Stage header (sendfile_started file config header wire queue keepalive) := by
  have hlive : Live (sendfile_started file config header wire queue keepalive) :=
    ⟨⟨_, rfl, rfl⟩, rfl, rfl, rfl, rfl, hfile, Nat.zero_le _, by simp [sendfile_started]⟩
  refine .heading hlive rfl ⟨tagged .other wire, [], header, tagged .other queue, [], ?_, ?_, rfl, hheader, .inr rfl,
    others_tagged wire, others_tagged queue, by simp [Others]⟩
  · simp [sendfile_started, tagged]
  · simp [sendfile_started]

theorem Live.live {s : Link} (h : Live s) : sendfile_wire.live s := by
  obtain ⟨r, hreq, _⟩ := h.request
  exact ⟨by rw [hreq]; rfl, h.completed⟩

theorem exists_mem_tagged (origin : Origin) {data : List UInt8} (h : data ≠ []) :
    ∃ b ∈ tagged origin data, b.origin = origin := by
  obtain ⟨value, rest, rfl⟩ := List.exists_cons_of_ne_nil h
  exact ⟨⟨origin, value⟩, by simp [tagged], rfl⟩

/-- While the headers are on the socket and the file is not, the next byte is not one
of another response. -/
theorem not_exposed_image {header : List UInt8} (hheader : header ≠ []) {s : Link} (hlive : Live s)
    (himage : PartialImage header s (s.transfer.context.offset + s.moved)) (hexposed : ¬ exposed s) :
    s.transfer.context.offset + s.moved = s.file.length := by
  have hmoved := hlive.moved
  by_contra hne
  apply hexposed
  refine ⟨hlive.live, ?_, by omega⟩
  obtain ⟨before, after, hwire, _⟩ := himage
  obtain ⟨b, hb, horigin⟩ := exists_mem_tagged .header hheader
  refine ⟨b, ?_, horigin⟩
  rw [hwire]
  simp [hb]

/-- Other bytes may follow once the whole file is on the socket. -/
theorem PartialImage.append {header : List UInt8} {s s' : Link} {sent : Nat} (h : PartialImage header s sent)
    {data : List WireByte} (hdata : Others data) (hsent : sent = s.file.length) (hfile : s'.file = s.file)
    (hwire : s'.wire = s.wire ++ data) : PartialImage header s' sent := by
  obtain ⟨before, after, heq, hbefore, hafter, _⟩ := h
  refine ⟨before, after ++ data, ?_, hbefore, hafter.append hdata, ?_⟩
  · rw [hwire, heq, hfile, List.append_assoc]
  · intro hlt
    rw [hfile] at hlt
    omega

theorem WireImage.append {header file : List UInt8} {wire data : List WireByte} (h : WireImage header file wire)
    (hdata : Others data) : WireImage header file (wire ++ data) := by
  obtain ⟨before, after, heq, hbefore, hafter⟩ := h
  refine ⟨before, after ++ data, ?_, hbefore, Others.append hafter hdata⟩
  rw [heq, List.append_assoc]

theorem Others.head {b : WireByte} {rest : List WireByte} (h : Others (b :: rest)) : Others [b] := by
  intro c hc
  exact h c (List.mem_cons.mpr (.inl (List.mem_singleton.mp hc)))

theorem Others.tail {b : WireByte} {rest : List WireByte} (h : Others (b :: rest)) : Others rest :=
  fun c hc => h c (List.mem_cons_of_mem b hc)

/-- The socket takes the first byte of a queue with headers in it. -/
theorem stage_flush_heading {header : List UInt8} {s : Link} {b : WireByte} {queue : List WireByte}
    (hcons : s.queue = b :: queue) (hlive : Live s) (hnone : s.transfer.context.offset + s.moved = 0)
    {before ahead behind : List WireByte} {sent rest : List UInt8} (hwire : s.wire = before ++ tagged .header sent)
    (hsplit : s.queue = ahead ++ tagged .header rest ++ behind) (hparts : sent ++ rest = header) (hrest : rest ≠ [])
    (hfirst : ahead = [] ∨ sent = []) (hbefore : Others before) (hahead : Others ahead) (hbehind : Others behind) :
    Stage header { s with wire := s.wire ++ [b], queue } := by
  have hlive' : Live { s with wire := s.wire ++ [b], queue } := hlive.congr rfl rfl rfl hlive.ended
  cases ahead with
  | cons other ahead =>
    obtain hnil | rfl := hfirst
    · exact absurd hnil (by simp)
    obtain ⟨rfl, rfl⟩ : b = other ∧ queue = ahead ++ tagged .header rest ++ behind := by simpa [hcons] using hsplit
    refine .heading hlive' hnone ⟨before ++ [b], [], rest, ahead, behind, ?_, rfl, hparts, hrest, .inr rfl,
      hbefore.append hahead.head, hahead.tail, hbehind⟩
    show s.wire ++ [b] = _
    rw [hwire]
    simp [tagged]
  | nil =>
    obtain ⟨value, rest, rfl⟩ := List.exists_cons_of_ne_nil hrest
    obtain ⟨rfl, rfl⟩ : b = ⟨.header, value⟩ ∧ queue = tagged .header rest ++ behind := by
      simpa [hcons, tagged] using hsplit
    have hwire' : s.wire ++ [⟨.header, value⟩] = before ++ tagged .header (sent ++ [value]) := by
      rw [hwire, tagged_append, List.append_assoc]
      rfl
    have hparts' : sent ++ [value] ++ rest = header := by
      rw [← hparts, List.append_assoc]
      rfl
    by_cases hlast : rest = []
    · subst hlast
      rw [List.append_nil] at hparts'
      refine .sending hlive' (by simpa [tagged] using hbehind) ⟨before, [], ?_, hbefore, by simp [Others], fun _ => rfl⟩
      show s.wire ++ [_] = _
      rw [hwire', hparts', hnone]
      simp [tagged]
    · exact .heading hlive' hnone ⟨before, sent ++ [value], rest, [], behind, hwire', rfl, hparts', hlast, .inl rfl,
        hbefore, by simp [Others], hbehind⟩

theorem stage_flush {header : List UInt8} (hheader : header ≠ []) {s : Link} (h : Stage header s)
    (hqueue : s.queue ≠ []) (hcalm : Undisturbed s .flush) :
    Stage header { s with wire := s.wire ++ s.queue.take 1, queue := s.queue.drop 1 } := by
  obtain ⟨b, queue, hcons⟩ := List.exists_cons_of_ne_nil hqueue
  have hhead : s.queue.take 1 = [b] := by
    rw [hcons]
    rfl
  have htail : s.queue.drop 1 = queue := by
    rw [hcons]
    rfl
  rw [hhead, htail]
  cases h with
  | dead h => exact .dead ⟨h.stopped, h.short⟩
  | heading hlive hnone hpending =>
    obtain ⟨before, sent, rest, ahead, behind, hwire, hsplit, hparts, hrest, hfirst, hbefore, hahead, hbehind⟩ :=
      hpending
    exact stage_flush_heading hcons hlive hnone hwire hsplit hparts hrest hfirst hbefore hahead hbehind
  | sending hlive hothers himage =>
    rw [hcons] at hothers
    have hexposed : ¬ exposed s := by
      apply hcalm
      intro c hc
      rw [hcons, List.head?_cons, Option.mem_some_iff] at hc
      exact hothers c (List.mem_cons.mpr (.inl hc.symm))
    have hwhole := not_exposed_image hheader hlive himage hexposed
    exact .sending (hlive.congr rfl rfl rfl hlive.ended) hothers.tail (himage.append hothers.head hwhole rfl rfl)
  | finished hreq hothers himage =>
    rw [hcons] at hothers
    exact .finished hreq hothers.tail (himage.append hothers.head)

theorem stage_other_transfer {header : List UInt8} (hheader : header ≠ []) {s : Link} (h : Stage header s)
    (value : UInt8) (hcalm : ¬ exposed s) :
    Stage header { s with wire := s.wire ++ tagged .other [value] } := by
  cases h with
  | dead h => exact .dead ⟨h.stopped, h.short⟩
  | heading hlive hnone hpending =>
    obtain ⟨before, sent, rest, ahead, behind, hwire, hsplit, hparts, hrest, _, hbefore, hahead, hbehind⟩ := hpending
    by_cases hsent : sent = []
    · subst hsent
      refine .heading (hlive.congr rfl rfl rfl hlive.ended) hnone
        ⟨before ++ tagged .other [value], [], rest, ahead, behind, ?_, hsplit, hparts, hrest, .inr rfl,
          hbefore.append (others_tagged _), hahead, hbehind⟩
      show s.wire ++ _ = _
      rw [hwire]
      simp [tagged]
    · obtain ⟨b, hb, horigin⟩ := exists_mem_tagged .header hsent
      have hinside := hlive.inside
      refine absurd ⟨hlive.live, ⟨b, ?_, horigin⟩, by omega⟩ hcalm
      rw [hwire]
      exact List.mem_append_right before hb
  | sending hlive hothers himage =>
    have hwhole := not_exposed_image hheader hlive himage hcalm
    exact .sending (hlive.congr rfl rfl rfl hlive.ended) hothers (himage.append (others_tagged _) hwhole rfl rfl)
  | finished hreq hothers himage => exact .finished hreq hothers (himage.append (others_tagged _))

theorem stage_respond {header : List UInt8} {s : Link} (h : Stage header s) (data : List UInt8) (keepalive : Bool) :
    Stage header { s with queue := s.queue ++ tagged .other data, keepalive } := by
  cases h with
  | dead h => exact .dead ⟨h.stopped, h.short⟩
  | heading hlive hnone hpending =>
    obtain ⟨before, sent, rest, ahead, behind, hwire, hsplit, hparts, hrest, hfirst, hbefore, hahead, hbehind⟩ :=
      hpending
    refine .heading (hlive.congr rfl rfl rfl hlive.ended) hnone
      ⟨before, sent, rest, ahead, behind ++ tagged .other data, hwire, ?_, hparts, hrest, hfirst, hbefore, hahead,
        hbehind.append (others_tagged data)⟩
    show s.queue ++ _ = _
    rw [hsplit, List.append_assoc]
  | sending hlive hothers himage =>
    exact .sending (hlive.congr rfl rfl rfl hlive.ended) (hothers.append (others_tagged data)) himage
  | finished hreq hothers himage => exact .finished hreq (hothers.append (others_tagged data)) himage

/-- The thread pool moves a byte, behind those it has moved already. -/
theorem stage_transfer_byte {header : List UInt8} {s : Link} (h : Stage header s) (hended : s.ended = none)
    (hnext : has_next_byte s) (hcalm : Undisturbed s .transfer_byte) : Stage header (move_byte s) := by
  obtain ⟨r, hreq, _, hinside⟩ := hnext
  have hmove : move_byte s = { s with
      moved := s.moved + 1
      wire := if s.closing then s.wire else s.wire ++ tagged .body ((s.file.drop (r.offset + s.moved)).take 1) } := by
    rw [move_byte, hreq]
  rw [hmove]
  cases h with
  | dead h => exact .dead ⟨h.stopped, h.short⟩
  | heading hlive hnone hpending =>
    obtain ⟨before, sent, rest, ahead, behind, _, hsplit, _, hrest, _⟩ := hpending
    obtain ⟨b, hb, horigin⟩ := exists_mem_tagged .header hrest
    refine absurd horigin ((hcalm hlive.live).1 b ?_)
    rw [hsplit]
    simp [hb]
  | sending hlive hothers himage =>
    obtain ⟨_, hopen⟩ := hcalm hlive.live
    obtain ⟨r', hreq', hoffset⟩ := hlive.request
    obtain rfl : r = r' := Option.some.inj (hreq.symm.trans hreq')
    rw [hoffset] at hinside ⊢
    have hlive' : Live { s with
        moved := s.moved + 1
        wire := if s.closing then s.wire
          else s.wire ++ tagged .body ((s.file.drop (s.transfer.context.offset + s.moved)).take 1) } :=
      ⟨hlive.request, hlive.completed, hlive.frees, hlive.closes, hlive.size, hlive.inside, hinside, by simp [hended]⟩
    obtain ⟨before, after, hwire, hbefore, _, hafter⟩ := himage
    refine .sending hlive' hothers ⟨before, [], ?_, hbefore, by simp [Others], fun _ => rfl⟩
    have hgrow : s.file.take (s.transfer.context.offset + (s.moved + 1)) =
        s.file.take (s.transfer.context.offset + s.moved) ++
          (s.file.drop (s.transfer.context.offset + s.moved)).take 1 := by
      rw [← Nat.add_assoc, List.take_add]
    simp only [hopen, Bool.false_eq_true, if_false]
    rw [hwire, hafter hinside, hgrow, tagged_append]
    simp [List.append_assoc]
  | finished hnone =>
    rw [hnone] at hreq
    exact absurd hreq (by simp)

theorem stage_transfer_end {header : List UInt8} {s : Link} (h : Stage header s) {result : SendfileResult}
    (hreports : Reports s.moved result) : Stage header { s with ended := some result } := by
  have hended : ∀ result' ∈ some result, Reports s.moved result' := by
    intro result' hresult
    rwa [← Option.mem_some_iff.mp hresult]
  cases h with
  | dead h => exact .dead ⟨h.stopped, h.short⟩
  | heading hlive hnone hpending => exact .heading (hlive.congr rfl rfl rfl hended) hnone hpending
  | sending hlive hothers himage => exact .sending (hlive.congr rfl rfl rfl hended) hothers himage
  | finished hreq hothers himage => exact .finished hreq hothers himage

/-- A link after the completion of its request. -/
def completed_link (s : Link) (result : SendfileResult) (accepted : Bool) : Link :=
  { s with transfer := on_sendfile_complete result accepted s.transfer, moved := 0, ended := none }

/-- What was moved is in the offset now, and the transfer goes on or has no request
any more. -/
theorem live_complete {s : Link} (hlive : Live s) {result : SendfileResult} (hended : s.ended = some result)
    (accepted : Bool) :
    (completed_link s result accepted).transfer.context.offset = s.transfer.context.offset + s.moved ∧
      (completed_link s result accepted).transfer.context.file_size = s.file.length ∧
      ((completed_link s result accepted).transfer.sendfile_req = none ∨ Live (completed_link s result accepted)) := by
  have hcount : count result = s.moved := by
    have hreports := hlive.ended result hended
    cases result with
    | sent count => exact hreports
    | UV_EAGAIN => exact hreports.symm
    | UV_EINTR => exact hreports.symm
    | failed => exact hreports.symm
  obtain ⟨_, hfrees, hsize, hoffset, hgoes⟩ := complete_spec hlive.frees hlive.completed result accepted
  rw [hcount] at hoffset
  refine ⟨hoffset, hsize.trans hlive.size, ?_⟩
  cases hgoes with
  | close hreq => exact .inl hreq
  | request hreq hat hinside hcompleted hcloses =>
    rw [hsize, hlive.size] at hinside
    have hleft := hinside hlive.inside
    exact .inr ⟨⟨_, hreq, hat⟩, hcompleted, hfrees, hcloses.trans hlive.closes, hsize.trans hlive.size, hleft, hleft.le,
      by simp [completed_link]⟩

theorem stage_complete {header : List UInt8} {s : Link} (h : Stage header s) {result : SendfileResult}
    (hended : s.ended = some result) (hsome : s.transfer.sendfile_req.isSome) (accepted : Bool) :
    Stage header (completed_link s result accepted) := by
  cases h with
  | dead h =>
    obtain hnone | hcompleted := h.stopped
    · rw [hnone] at hsome
      exact absurd hsome (by simp)
    · have hcontext : (completed_link s result accepted).transfer.context = s.transfer.context := by
        simp only [completed_link, on_sendfile_complete, hcompleted, if_true]
        split <;> rfl
      refine .dead ⟨.inr ?_, ?_⟩
      · rw [hcontext]
        exact hcompleted
      · rw [hcontext]
        exact h.short
  | heading hlive hnone hpending =>
    obtain ⟨hoffset, hsize, hreq | hlive'⟩ := live_complete hlive hended accepted
    · refine .dead ⟨.inl hreq, ?_⟩
      rw [hoffset, hsize, hnone]
      exact lt_of_le_of_lt (Nat.zero_le _) hlive.inside
    · exact .heading hlive' (hoffset.trans hnone) hpending
  | sending hlive hothers himage =>
    obtain ⟨hoffset, hsize, hreq | hlive'⟩ := live_complete hlive hended accepted
    · by_cases hwhole : s.transfer.context.offset + s.moved < s.file.length
      · refine .dead ⟨.inl hreq, ?_⟩
        rw [hoffset, hsize]
        exact hwhole
      · obtain ⟨before, after, hwire, hbefore, hafter, _⟩ := himage
        refine .finished hreq hothers ⟨before, after, ?_, hbefore, hafter⟩
        rw [List.take_of_length_le (not_lt.mp hwhole)] at hwire
        exact hwire
    · refine .sending hlive' hothers ?_
      rw [hoffset]
      exact himage
  | finished hreq =>
    rw [hreq] at hsome
    exact absurd hsome (by simp)

theorem timeout_spec (t : Transfer) :
    (on_sendfile_timeout t).sendfile_req = t.sendfile_req ∧
      (on_sendfile_timeout t).context.offset = t.context.offset ∧
      (on_sendfile_timeout t).context.file_size = t.context.file_size ∧
      (t.frees = 0 ∨ t.context.completed = true → (on_sendfile_timeout t).context.completed = true) := by
  rw [on_sendfile_timeout]
  split
  · rename_i hfrees
    refine ⟨rfl, rfl, rfl, ?_⟩
    rintro (hzero | hcompleted)
    · exact absurd hfrees (by omega)
    · exact hcompleted
  · split
    · exact ⟨rfl, rfl, rfl, fun _ => by assumption⟩
    · exact ⟨rfl, rfl, rfl, fun _ => rfl⟩

theorem stage_timeout {header : List UInt8} {s : Link} (h : Stage header s) :
    Stage header { s with transfer := on_sendfile_timeout s.transfer } := by
  obtain ⟨hreq, hoffset, hsize, hcompleted⟩ := timeout_spec s.transfer
  have hdies (hlive : Live s) : Dead { s with transfer := on_sendfile_timeout s.transfer } := by
    refine ⟨.inr (hcompleted (.inl hlive.frees)), ?_⟩
    rw [hoffset, hsize, hlive.size]
    exact hlive.inside
  cases h with
  | dead h =>
    refine .dead ⟨?_, ?_⟩
    · obtain hnone | hdone := h.stopped
      · exact .inl (hreq.trans hnone)
      · exact .inr (hcompleted (.inr hdone))
    · rw [hoffset, hsize]
      exact h.short
  | heading hlive => exact .dead (hdies hlive)
  | sending hlive => exact .dead (hdies hlive)
  | finished hnone hothers himage => exact .finished (hreq.trans hnone) hothers himage

/-- A transfer with a request has no file to close yet, and a closed file does not
change what is on the wire. -/
theorem stage_file_close {header : List UInt8} {s : Link} (h : Stage header s) (hclose : 0 < s.transfer.close_reqs) :
    Stage header { s with transfer := on_file_close s.transfer } := by
  cases h with
  | dead h => exact .dead ⟨h.stopped, h.short⟩
  | heading hlive => exact absurd hclose (by rw [hlive.closes]; exact lt_irrefl 0)
  | sending hlive => exact absurd hclose (by rw [hlive.closes]; exact lt_irrefl 0)
  | finished hreq hothers himage => exact .finished hreq hothers himage

theorem stage_closing_phase {header : List UInt8} {s : Link} (h : Stage header s) :
    Stage header { s with transfer := (sendfile.step s.transfer .closing_phase).1 } := by
  have hstays (hlive : Live s) : Live { s with transfer := (sendfile.step s.transfer .closing_phase).1 } :=
    ⟨hlive.request, hlive.completed, hlive.frees, hlive.closes, hlive.size, hlive.inside, hlive.moved, hlive.ended⟩
  cases h with
  | dead h => exact .dead ⟨h.stopped, h.short⟩
  | heading hlive hnone hpending => exact .heading (hstays hlive) hnone hpending
  | sending hlive hothers himage => exact .sending (hstays hlive) hothers himage
  | finished hreq hothers himage => exact .finished hreq hothers himage

/-- An event that is possible and undisturbed leaves a response in one of its stages. -/
theorem stage_step {header : List UInt8} (hheader : header ≠ []) {s : Link} (h : Stage header s) {event : Event}
    (hpossible : event.Possible s) (hcalm : Undisturbed s event) : Stage header (step s event).1 := by
  cases event with
  | flush => exact stage_flush hheader h hpossible.2 hcalm
  | write_complete =>
    simp only [step, uvhttp_free_write_data]
    split
    · exact h.congr rfl rfl rfl rfl rfl rfl
    · split
      · exact h.congr rfl rfl rfl rfl rfl rfl
      · exact h.congr rfl rfl rfl rfl rfl rfl
  | idle_restart =>
    simp only [step, on_idle_restart_read]
    split
    · exact h.congr rfl rfl rfl rfl rfl rfl
    · exact h.congr rfl rfl rfl rfl rfl rfl
  | respond data keepalive => exact stage_respond h data keepalive
  | other_transfer value => exact stage_other_transfer hheader h value hcalm
  | close => exact h.congr rfl rfl rfl rfl rfl rfl
  | transfer_byte => exact stage_transfer_byte h hpossible.1 hpossible.2 hcalm
  | transfer_end result => exact stage_transfer_end h hpossible.2.2
  | callback event =>
    cases event with
    | sendfile_complete result accepted => exact stage_complete h hpossible.1 hpossible.2 accepted
    | sendfile_timeout => exact stage_timeout h
    | file_close => exact stage_file_close h hpossible
    | closing_phase => exact stage_closing_phase h

theorem Stage.image {header : List UInt8} {s : Link} (h : Stage header s) (hcompleted : Completed s) :
    WireImage header s.file s.wire := by
  cases h with
  | dead h => exact absurd hcompleted (not_le.mpr h.short)
  | heading hlive =>
    refine absurd hcompleted (not_le.mpr ?_)
    rw [hlive.size]
    exact hlive.inside
  | sending hlive =>
    refine absurd hcompleted (not_le.mpr ?_)
    rw [hlive.size]
    exact hlive.inside
  | finished _ _ himage => exact himage

theorem step_file (s : Link) (event : Event) : (step s event).1.file = s.file := by
  cases event with
  | write_complete =>
    simp only [step, uvhttp_free_write_data]
    split
    · rfl
    · split <;> rfl
  | idle_restart =>
    simp only [step, on_idle_restart_read]
    split <;> rfl
  | transfer_byte =>
    simp only [step, move_byte]
    split <;> rfl
  | callback event => cases event <;> rfl
  | _ => rfl

theorem run_file (s : Link) (events : List Event) : (machine.run step s events).file = s.file :=
  @machine.run_invariant _ _ _ step (fun s' => s'.file = s.file)
    (fun s' event hs => (step_file s' event).trans hs) s rfl events

end stages

/-- A file that goes out by sendfile, and whose transfer is not disturbed, is on the
wire right behind its headers, whole and in order, when the transfer completes. -/
theorem sendfile_wire_image {file : List UInt8} (hfile : UVHTTP_SENDFILE_MIN_FILE_SIZE < file.length)
    (config : Option SendfileConfig) {header : List UInt8} (hheader : header ≠ []) (wire queue : List UInt8)
    (keepalive : Bool) {events : List Event}
    (hcalm : Calm (sendfile_started file config header wire queue keepalive) events)
    (hcompleted : Completed (machine.run step (sendfile_started file config header wire queue keepalive) events)) :
    WireImage header file
      (machine.run step (sendfile_started file config header wire queue keepalive) events).wire := by
  have hstart := stage_started file config wire queue keepalive (lt_of_le_of_lt (Nat.zero_le _) hfile) hheader
  have hstage := machine.history_invariant (fun s _ _ => Stage header s) hstart
    (fun s _ _ event hs hevent => stage_step hheader hs hevent.1 hevent.2) hcalm
  have himage := hstage.image hcompleted
  rwa [run_file] at himage

section schedules

/-- The socket takes some bytes of the queue. -/
theorem run_flushes (s : Link) (n : Nat) :
    machine.run step s (List.replicate n .flush) =
      { s with wire := s.wire ++ s.queue.take n, queue := s.queue.drop n } := by
  induction n with
  | zero => simp [machine.run]
  | succ n ih =>
    rw [List.replicate_succ', machine.run_append, ih]
    simp only [machine.run, step, List.append_assoc, List.drop_drop, List.take_add]

/-- The thread pool moves some bytes of its request. -/
theorem run_moves (s : Link) {r : SendfileRequest} (hreq : s.transfer.sendfile_req = some r)
    (hopen : s.closing = false) (n : Nat) :
    machine.run step s (List.replicate n .transfer_byte) =
      { s with
        moved := s.moved + n
        wire := s.wire ++ tagged .body ((s.file.drop (r.offset + s.moved)).take n) } := by
  induction n with
  | zero => simp [machine.run, tagged]
  | succ n ih =>
    rw [List.replicate_succ', machine.run_append, ih]
    simp only [machine.run, step, move_byte, hreq, hopen, Bool.false_eq_true, if_false, List.append_assoc,
      List.take_add, List.drop_drop, ← tagged_append, Nat.add_assoc]

/-- The thread pool moves the whole file in one request, and the loop is told. -/
def whole_transfer (file : List UInt8) : List Event :=
  List.replicate file.length .transfer_byte ++
    [.transfer_end (.sent file.length), .callback (.sendfile_complete (.sent file.length) true)]

/-- A link whose only request, for the whole file, has not been looked at. -/
structure Fresh (s : Link) : Prop where
  request : s.transfer.sendfile_req = some ⟨0, s.file.length⟩
  offset : s.transfer.context.offset = 0
  size : s.transfer.context.file_size = s.file.length
  completed : s.transfer.context.completed = false
  frees : s.transfer.frees = 0
  moved : s.moved = 0
  ended : s.ended = none
  opened : s.closing = false
  nonempty : 0 < s.file.length

theorem fresh_started {file : List UInt8} (hfile : 0 < file.length) (header wire queue : List UInt8)
    (keepalive : Bool) : Fresh (sendfile_started file (some ⟨0, file.length⟩) header wire queue keepalive) := by
  have hchunk : (init_sendfile_config file.length (some ⟨0, file.length⟩)).chunk_size = file.length := by
    simp [init_sendfile_config, hfile]
  refine ⟨?_, rfl, rfl, rfl, rfl, rfl, rfl, rfl, hfile⟩
  show some (⟨0, _⟩ : SendfileRequest) = _
  rw [hchunk]
  rfl

/-- Moving the whole file completes the transfer. -/
theorem whole_transfer_spec {s : Link} (h : Fresh s) :
    Possible s (whole_transfer s.file) ∧ Completed (machine.run step s (whole_transfer s.file)) ∧
      (machine.run step s (whole_transfer s.file)).wire = s.wire ++ tagged .body s.file ∧
      (machine.run step s (whole_transfer s.file)).queue = s.queue ∧
      (machine.run step s (whole_transfer s.file)).closing = false := by
  have hmoves : machine.run step s (List.replicate s.file.length .transfer_byte) =
      { s with moved := s.file.length, wire := s.wire ++ tagged .body s.file } := by
    rw [run_moves s h.request h.opened, h.moved]
    simp
  obtain ⟨_, _, hsize, hoffset, _⟩ := complete_spec h.frees h.completed (.sent s.file.length) true
  have hrun : machine.run step s (whole_transfer s.file) =
      { s with
        transfer := on_sendfile_complete (.sent s.file.length) true s.transfer
        moved := 0
        ended := none
        wire := s.wire ++ tagged .body s.file } := by
    rw [whole_transfer, machine.run_append, hmoves]
    rfl
  refine ⟨?_, ?_, ?_, ?_, ?_⟩
  · refine machine.enabled_append.mpr ⟨machine.enabled_replicate ?_, ?_⟩
    · intro m hm
      rw [run_moves s h.request h.opened]
      refine ⟨h.ended, ⟨0, s.file.length⟩, h.request, ?_, ?_⟩
      · show s.moved + m < s.file.length
        rw [h.moved]
        omega
      · show 0 + (s.moved + m) < s.file.length
        rw [h.moved]
        omega
    · rw [hmoves]
      have hsome : s.transfer.sendfile_req.isSome = true := by
        rw [h.request]
        rfl
      exact ⟨⟨h.ended, hsome, rfl⟩, ⟨rfl, hsome⟩, trivial⟩
  · rw [hrun]
    show (on_sendfile_complete _ _ _).context.file_size ≤ (on_sendfile_complete _ _ _).context.offset
    rw [hsize, hoffset, h.size]
    exact Nat.le_add_left _ _
  · rw [hrun]
  · rw [hrun]
  · rw [hrun]
    exact h.opened

/-- Once the headers are out, moving the file is undisturbed. -/
theorem undisturbed_whole_transfer {s : Link} (h : Fresh s) (hflushed : header_flushed s) :
    machine.Enabled step Undisturbed s (whole_transfer s.file) := by
  refine machine.enabled_append.mpr ⟨machine.enabled_replicate ?_, ⟨trivial, trivial, trivial⟩⟩
  intro m _
  rw [run_moves s h.request h.opened]
  exact fun _ => ⟨hflushed, h.opened⟩

/-- The socket takes all headers before anything else happens. -/
theorem header_first {file : List UInt8} (header : List UInt8) (hfile : 0 < file.length) (keepalive : Bool) :
    let s := sendfile_started file (some ⟨0, file.length⟩) header [] [] keepalive
    let flushed := { s with wire := tagged .header header, queue := [] }
    machine.run step s (List.replicate header.length .flush) = flushed ∧ Fresh flushed ∧
      Calm s (List.replicate header.length .flush) := by
  intro s flushed
  have hqueue : s.queue = tagged .header header := List.nil_append _
  have hlength : (tagged .header header).length = header.length := List.length_map _
  have hfresh := fresh_started hfile header [] [] keepalive
  refine ⟨?_, ⟨hfresh.request, rfl, rfl, rfl, rfl, rfl, rfl, rfl, hfile⟩, machine.enabled_replicate ?_⟩
  · rw [run_flushes, hqueue, ← hlength, List.take_length, List.drop_length]
    rfl
  · intro m hm
    rw [run_flushes, hqueue]
    have hleft : (tagged .header header).drop m ≠ [] := by
      rw [← List.length_pos_iff_ne_nil, List.length_drop, hlength]
      omega
    refine ⟨⟨rfl, hleft⟩, ?_⟩
    intro hothers
    obtain ⟨b, rest, hcons⟩ := List.exists_cons_of_ne_nil hleft
    have hb : b ∈ tagged .header header := List.mem_of_mem_drop (by rw [hcons]; exact List.mem_cons_self)
    have horigin := hothers b (by
      show b ∈ ((tagged .header header).drop m).head?
      rw [hcons]
      rfl)
    rw [mem_tagged hb] at horigin
    exact absurd horigin (by simp)

theorem header_first_completes {file : List UInt8} (header : List UInt8) (hfile : 0 < file.length) (keepalive : Bool) :
    let s := sendfile_started file (some ⟨0, file.length⟩) header [] [] keepalive
    let events := List.replicate header.length .flush ++ whole_transfer file
    Calm s events ∧ Completed (machine.run step s events) := by
  intro s events
  obtain ⟨hflush, hfresh, hcalm⟩ := header_first header hfile keepalive
  obtain ⟨hpossible, hcompleted, _⟩ := whole_transfer_spec hfresh
  have hundisturbed := undisturbed_whole_transfer hfresh (by simp [header_flushed])
  refine ⟨machine.enabled_append.mpr ⟨hcalm, ?_⟩, ?_⟩
  · rw [hflush]
    exact machine.enabled_and hpossible hundisturbed
  · rw [machine.run_append, hflush]
    exact hcompleted

/-- A socket that takes nothing of the headers at first has the file on it before
them, although the transfer completes. -/
theorem body_first_completes {file : List UInt8} (header : List UInt8) (hfile : 0 < file.length) (keepalive : Bool) :
    let s := sendfile_started file (some ⟨0, file.length⟩) header [] [] keepalive
    let events := whole_transfer file ++ List.replicate header.length .flush
    Possible s events ∧ Completed (machine.run step s events) ∧
      (machine.run step s events).wire = tagged .body file ++ tagged .header header := by
  intro s events
  obtain ⟨hpossible, hcompleted, hwire, hqueue, hopened⟩ := whole_transfer_spec
    (fresh_started hfile header [] [] keepalive)
  have hwire' : (machine.run step s (whole_transfer file)).wire = tagged .body file := hwire.trans (List.nil_append _)
  have hqueue' : (machine.run step s (whole_transfer file)).queue = tagged .header header :=
    hqueue.trans (List.nil_append _)
  have hlength : (tagged .header header).length = header.length := List.length_map _
  refine ⟨machine.enabled_append.mpr ⟨hpossible, machine.enabled_replicate ?_⟩, ?_, ?_⟩
  · intro m hm
    rw [run_flushes, hqueue']
    refine ⟨hopened, ?_⟩
    rw [← List.length_pos_iff_ne_nil, List.length_drop, hlength]
    omega
  · rw [machine.run_append, run_flushes]
    exact hcompleted
  · rw [machine.run_append, run_flushes, hwire', hqueue', ← hlength, List.take_length]

/-- With the file before its headers there is no image of the response. -/
theorem not_wireImage_body_first {file header : List UInt8} (hfile : file ≠ []) (hheader : header ≠ [])
    (rest : List WireByte) : ¬ WireImage header file (tagged .body file ++ rest) := by
  rintro ⟨before, after, hwire, hbefore, _⟩
  obtain ⟨value, file, rfl⟩ := List.exists_cons_of_ne_nil hfile
  obtain ⟨first, header, rfl⟩ := List.exists_cons_of_ne_nil hheader
  cases before with
  | nil =>
    have hhead := congrArg List.head? hwire
    simp [tagged] at hhead
  | cons b before =>
    have hhead := congrArg List.head? hwire
    have hother := hbefore b List.mem_cons_self
    simp only [tagged, List.map_cons, List.cons_append, List.head?_cons, Option.some.injEq] at hhead
    rw [← hhead] at hother
    exact absurd hother (by simp)

end schedules

/-- A file of one byte more than the threshold, sent in one piece after its headers. -/
theorem sendfile_wire_image_header_first :
    ∃ (file header : List UInt8) (events : List Event),
      let s := sendfile_started file (some ⟨0, file.length⟩) header [] [] true
      file.length = 65537 ∧ Calm s events ∧ Completed (machine.run step s events) ∧
        WireImage header file (machine.run step s events).wire := by
  obtain ⟨file, hlength⟩ : ∃ file : List UInt8, file.length = 65537 := ⟨List.replicate 65537 65, List.length_replicate⟩
  have hthreshold : UVHTTP_SENDFILE_MIN_FILE_SIZE < file.length := by
    rw [hlength]
    decide
  have hfile : 0 < file.length := lt_of_le_of_lt (Nat.zero_le _) hthreshold
  obtain ⟨hcalm, hcompleted⟩ := header_first_completes
    (bytes "HTTP/1.1 200 OK\r\nContent-Length: 65537\r\n\r\n") hfile true
  exact ⟨_, _, _, hlength, hcalm, hcompleted, sendfile_wire_image hthreshold _ (by decide) [] [] true hcalm hcompleted⟩

/-- The same file, on a socket that takes its headers only after it. -/
theorem sendfile_body_before_header :
    ∃ (file header : List UInt8) (events : List Event),
      let s := sendfile_started file (some ⟨0, file.length⟩) header [] [] true
      UVHTTP_SENDFILE_MIN_FILE_SIZE < file.length ∧ Possible s events ∧ Completed (machine.run step s events) ∧
        (machine.run step s events).wire = tagged .body file ++ tagged .header header ∧
        ¬ WireImage header file (machine.run step s events).wire := by
  obtain ⟨file, hlength⟩ : ∃ file : List UInt8, file.length = 65537 := ⟨List.replicate 65537 65, List.length_replicate⟩
  have hthreshold : UVHTTP_SENDFILE_MIN_FILE_SIZE < file.length := by
    rw [hlength]
    decide
  have hfile : 0 < file.length := lt_of_le_of_lt (Nat.zero_le _) hthreshold
  obtain ⟨hpossible, hcompleted, hwire⟩ := body_first_completes
    (bytes "HTTP/1.1 200 OK\r\nContent-Length: 65537\r\n\r\n") hfile true
  refine ⟨_, _, _, hthreshold, hpossible, hcompleted, hwire, ?_⟩
  rw [hwire]
  exact not_wireImage_body_first (List.length_pos_iff_ne_nil.mp hfile) (by decide) _

end uvhttp.sendfile_wire
