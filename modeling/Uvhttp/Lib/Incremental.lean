import Mathlib.Tactic

/-! Incremental decoding of a byte stream: a decoder looks at the bytes
received so far and takes complete frames off their front, and a handler folds
the frames into a state and emits events. The results say that how a stream is
cut into received chunks does not matter as long as the buffer has room. -/

namespace incremental

/-- What a decoder says about the bytes at hand. -/
inductive Next (F : Type) where
  | more
  | bad
  | frame (f : F) (size : Nat)
  deriving DecidableEq

/-- A decoder whose verdicts are final: once it has found a frame or an error,
further bytes do not change what it said. -/
structure Decoder (α F : Type) where
  next : List α → Next F
  next_nil : next [] = .more
  size_pos : ∀ {buf f n}, next buf = .frame f n → 0 < n
  size_le : ∀ {buf f n}, next buf = .frame f n → n ≤ buf.length
  frame_append : ∀ {buf f n} (more : List α), next buf = .frame f n → next (buf ++ more) = .frame f n
  bad_append : ∀ {buf} (more : List α), next buf = .bad → next (buf ++ more) = .bad

/-- The result of decoding: the state with the bytes left over, or nothing
after an error, and the events emitted up to there. -/
@[ext] structure Outcome (α S E : Type) where
  final : Option (S × List α)
  events : List E
  deriving DecidableEq

section outcome

variable {α S E : Type}

/-- Events that happened before the ones an outcome reports. -/
def Outcome.after (out : Outcome α S E) (events : List E) : Outcome α S E :=
  { out with events := events ++ out.events }

/-- Continue from the final state, unless an error stopped the run. -/
def Outcome.andThen (out : Outcome α S E) (k : S → List α → Outcome α S E) : Outcome α S E :=
  match out.final with
  | none => out
  | some (s, rest) => (k s rest).after out.events

@[simp] theorem Outcome.after_nil (out : Outcome α S E) : out.after [] = out := rfl

@[simp] theorem Outcome.after_final (out : Outcome α S E) (events : List E) :
    (out.after events).final = out.final := rfl

@[simp] theorem Outcome.after_events (out : Outcome α S E) (events : List E) :
    (out.after events).events = events ++ out.events := rfl

theorem Outcome.after_andThen (out : Outcome α S E) (events : List E) (k : S → List α → Outcome α S E) :
    (out.after events).andThen k = (out.andThen k).after events := by
  obtain ⟨final, emitted⟩ := out
  cases final with
  | none => rfl
  | some p => simp [Outcome.andThen, Outcome.after]

theorem Outcome.andThen_some {out : Outcome α S E} {s : S} {rest : List α}
    (h : out.final = some (s, rest)) (k : S → List α → Outcome α S E) :
    out.andThen k = (k s rest).after out.events := by
  simp [Outcome.andThen, h]

theorem Outcome.andThen_none {out : Outcome α S E} (h : out.final = none)
    (k : S → List α → Outcome α S E) : out.andThen k = out := by
  simp [Outcome.andThen, h]

theorem Outcome.andThen_congr {out : Outcome α S E} {k k' : S → List α → Outcome α S E}
    (h : ∀ s rest, out.final = some (s, rest) → k s rest = k' s rest) :
    out.andThen k = out.andThen k' := by
  cases hfinal : out.final with
  | none => rw [Outcome.andThen_none hfinal, Outcome.andThen_none hfinal]
  | some p =>
    obtain ⟨s, rest⟩ := p
    rw [Outcome.andThen_some hfinal, Outcome.andThen_some hfinal, h s rest hfinal]

end outcome

section decode

variable {α F S E : Type} (d : Decoder α F) (handle : S → F → Option (S × List E))

/-- Take at most `fuel` frames off the buffer. -/
def drain : Nat → S → List α → Outcome α S E
  | 0, s, buf => ⟨some (s, buf), []⟩
  | fuel + 1, s, buf =>
    match d.next buf with
    | .more => ⟨some (s, buf), []⟩
    | .bad => ⟨none, []⟩
    | .frame f n =>
      match handle s f with
      | none => ⟨none, []⟩
      | some (s', events) => (drain fuel s' (buf.drop n)).after events

/-- Take every complete frame off the buffer. -/
def decode (s : S) (buf : List α) : Outcome α S E := drain d handle buf.length s buf

private theorem drain_succ (fuel : Nat) (s : S) (buf : List α) (hfuel : buf.length ≤ fuel) :
    drain d handle (fuel + 1) s buf = drain d handle fuel s buf := by
  induction fuel generalizing s buf with
  | zero =>
    have hnil : buf = [] := List.length_eq_zero_iff.mp (by omega)
    subst hnil
    simp [drain, d.next_nil]
  | succ fuel ih =>
    rw [drain, drain]
    cases hnext : d.next buf with
    | more => rfl
    | bad => rfl
    | frame f n =>
      have hpos := d.size_pos hnext
      have hdrop : (buf.drop n).length ≤ fuel := by
        rw [List.length_drop]
        omega
      simp only [ih _ (buf.drop n) hdrop]

/-- Frames have positive size, so the length of the buffer is fuel enough. -/
theorem drain_eq_decode {fuel : Nat} (s : S) (buf : List α) (hfuel : buf.length ≤ fuel) :
    drain d handle fuel s buf = decode d handle s buf := by
  induction fuel, hfuel using Nat.le_induction with
  | base => rfl
  | succ fuel hle ih => rw [drain_succ d handle fuel s buf hle, ih]

/-- One turn of the decoding loop. -/
theorem decode_eq (s : S) (buf : List α) :
    decode d handle s buf =
      match d.next buf with
      | .more => ⟨some (s, buf), []⟩
      | .bad => ⟨none, []⟩
      | .frame f n =>
        match handle s f with
        | none => ⟨none, []⟩
        | some (s', events) => (decode d handle s' (buf.drop n)).after events := by
  rw [← drain_eq_decode d handle s buf (Nat.le_succ _), drain]
  cases hnext : d.next buf with
  | more => rfl
  | bad => rfl
  | frame f n =>
    have hdrop : (buf.drop n).length ≤ buf.length := by
      rw [List.length_drop]
      omega
    simp only [drain_eq_decode d handle _ (buf.drop n) hdrop]

variable {d handle}

theorem decode_more {s : S} {buf : List α} (h : d.next buf = .more) :
    decode d handle s buf = ⟨some (s, buf), []⟩ := by
  rw [decode_eq, h]

theorem decode_bad {s : S} {buf : List α} (h : d.next buf = .bad) :
    decode d handle s buf = ⟨none, []⟩ := by
  rw [decode_eq, h]

theorem decode_refused {s : S} {buf : List α} {f : F} {n : Nat} (h : d.next buf = .frame f n)
    (hhandle : handle s f = none) : decode d handle s buf = ⟨none, []⟩ := by
  rw [decode_eq, h]
  simp only [hhandle]

theorem decode_frame {s s' : S} {buf : List α} {f : F} {n : Nat} {events : List E}
    (h : d.next buf = .frame f n) (hhandle : handle s f = some (s', events)) :
    decode d handle s buf = (decode d handle s' (buf.drop n)).after events := by
  rw [decode_eq, h]
  simp only [hhandle]

/-- Induction along the frames taken off a buffer. -/
theorem decode_induction (d : Decoder α F) (handle : S → F → Option (S × List E)) {motive : S → List α → Prop}
    (more : ∀ s buf, d.next buf = .more → motive s buf)
    (bad : ∀ s buf, d.next buf = .bad → motive s buf)
    (refused : ∀ s buf f n, d.next buf = .frame f n → handle s f = none → motive s buf)
    (frame : ∀ s buf f n s' events, d.next buf = .frame f n → handle s f = some (s', events) →
      motive s' (buf.drop n) → motive s buf) (s : S) (buf : List α) : motive s buf := by
  generalize hlen : buf.length = len
  induction len using Nat.strong_induction_on generalizing s buf with
  | _ len ih =>
    cases hnext : d.next buf with
    | more => exact more s buf hnext
    | bad => exact bad s buf hnext
    | frame f n =>
      cases hhandle : handle s f with
      | none => exact refused s buf f n hnext hhandle
      | some p =>
        have hpos := d.size_pos hnext
        have hle := d.size_le hnext
        have hdrop : (buf.drop n).length = len - n := by rw [List.length_drop, hlen]
        exact frame s buf f n p.1 p.2 hnext hhandle (ih (len - n) (by omega) p.1 (buf.drop n) hdrop)

/-- Decoding stops where no frame is complete, with bytes of the input left. -/
theorem decode_final {s s' : S} {buf rest : List α}
    (h : (decode d handle s buf).final = some (s', rest)) :
    d.next rest = .more ∧ rest.length ≤ buf.length := by
  induction s, buf using decode_induction d handle with
  | more s buf hnext =>
    rw [decode_more hnext] at h
    cases h
    exact ⟨hnext, Nat.le_refl _⟩
  | bad s buf hnext =>
    rw [decode_bad hnext] at h
    cases h
  | refused s buf f n hnext hhandle =>
    rw [decode_refused hnext hhandle] at h
    cases h
  | frame s buf f n next events hnext hhandle ih =>
    rw [decode_frame hnext hhandle] at h
    obtain ⟨hmore, hle⟩ := ih h
    rw [List.length_drop] at hle
    exact ⟨hmore, by omega⟩

/-- Decoding a longer stream is decoding its front and then, with what that
left over, the rest. -/
theorem decode_append (s : S) (buf more : List α) :
    decode d handle s (buf ++ more) =
      (decode d handle s buf).andThen fun s' rest => decode d handle s' (rest ++ more) := by
  induction s, buf using decode_induction d handle with
  | more s buf hnext =>
    rw [decode_more hnext]
    rfl
  | bad s buf hnext =>
    rw [decode_bad hnext, decode_bad (d.bad_append more hnext)]
    rfl
  | refused s buf f n hnext hhandle =>
    rw [decode_refused hnext hhandle, decode_refused (d.frame_append more hnext) hhandle]
    rfl
  | frame s buf f n next events hnext hhandle ih =>
    rw [decode_frame hnext hhandle, decode_frame (d.frame_append more hnext) hhandle,
      List.drop_append_of_le_length (d.size_le hnext), ih, Outcome.after_andThen]

variable (d handle)

/-- Receive one chunk into a buffer that holds at most `limit` bytes. -/
def feed (limit : Nat) (s : S) (buf chunk : List α) : Outcome α S E :=
  if buf.length + chunk.length ≤ limit then decode d handle s (buf ++ chunk) else ⟨none, []⟩

/-- Receive chunks one after another, up to the first error. -/
def feedAll (limit : Nat) (s : S) (buf : List α) : List (List α) → Outcome α S E
  | [] => ⟨some (s, buf), []⟩
  | chunk :: chunks =>
    (feed d handle limit s buf chunk).andThen fun s' rest => feedAll limit s' rest chunks

/-- The room every chunk finds when it arrives is enough for it. -/
def Fits (limit : Nat) (s : S) (buf : List α) : List (List α) → Prop
  | [] => True
  | chunk :: chunks => buf.length + chunk.length ≤ limit ∧
      ∀ s' rest, (decode d handle s (buf ++ chunk)).final = some (s', rest) → Fits limit s' rest chunks

variable {d handle} {limit : Nat}

theorem Fits.of_length_le {s : S} {buf : List α} {chunks : List (List α)}
    (h : buf.length + chunks.flatten.length ≤ limit) : Fits d handle limit s buf chunks := by
  induction chunks generalizing s buf with
  | nil => trivial
  | cons chunk chunks ih =>
    simp only [List.flatten_cons, List.length_append] at h
    refine ⟨by omega, ?_⟩
    intro s' rest hfinal
    have hle := (decode_final hfinal).2
    rw [List.length_append] at hle
    exact ih (by omega)

/-- Where every chunk finds room, receiving the chunks is decoding the
bytes they carry. -/
theorem feedAll_eq_decode {s : S} {buf : List α} {chunks : List (List α)}
    (hmore : d.next buf = .more) (hfits : Fits d handle limit s buf chunks) :
    feedAll d handle limit s buf chunks = decode d handle s (buf ++ chunks.flatten) := by
  induction chunks generalizing s buf with
  | nil => rw [feedAll, List.flatten_nil, List.append_nil, decode_more hmore]
  | cons chunk chunks ih =>
    rw [feedAll, feed, if_pos hfits.1, List.flatten_cons, ← List.append_assoc,
      decode_append s (buf ++ chunk)]
    apply Outcome.andThen_congr
    intro s' rest hfinal
    exact ih (decode_final hfinal).1 (hfits.2 s' rest hfinal)

/-- A run that meets no error found room for every chunk. -/
theorem Fits.of_feedAll {s : S} {buf : List α} {chunks : List (List α)}
    (h : (feedAll d handle limit s buf chunks).final ≠ none) : Fits d handle limit s buf chunks := by
  induction chunks generalizing s buf with
  | nil => trivial
  | cons chunk chunks ih =>
    rw [feedAll, feed] at h
    split at h
    · rename_i hroom
      refine ⟨hroom, ?_⟩
      intro s' rest hfinal
      rw [Outcome.andThen_some hfinal] at h
      exact ih h
    · exact absurd rfl h

/-- The frames that are taken off the buffer and handled before the first
error. -/
def handled (d : Decoder α F) (handle : S → F → Option (S × List E)) (s : S) (buf : List α) : List F :=
  (decode d (fun s f => (handle s f).map fun next => (next.1, [f])) s buf).events

theorem handled_frame {s s' : S} {buf : List α} {f : F} {n : Nat} {events : List E}
    (h : d.next buf = .frame f n) (hhandle : handle s f = some (s', events)) :
    handled d handle s buf = f :: handled d handle s' (buf.drop n) := by
  have hrecord : (handle s f).map (fun next => (next.1, [f])) = some (s', [f]) := by
    rw [hhandle]
    rfl
  rw [handled, decode_frame h hrecord]
  rfl

/-- More bytes leave what was handled before them in place, and the state after
it goes on to handle the rest. -/
theorem mem_handled_append (d : Decoder α F) (handle : S → F → Option (S × List E)) (s : S)
    (buf more : List α) :
    (∀ f ∈ handled d handle s buf, f ∈ handled d handle s (buf ++ more)) ∧
      ∀ s' rest, (decode d handle s buf).final = some (s', rest) →
        ∀ f ∈ handled d handle s' (rest ++ more), f ∈ handled d handle s (buf ++ more) := by
  induction s, buf using decode_induction d handle with
  | more s buf hnext =>
    rw [decode_more hnext]
    refine ⟨fun f hf => ?_, ?_⟩
    · rw [handled, decode_more hnext] at hf
      cases hf
    · intro s' rest hfinal
      cases hfinal
      exact fun f hf => hf
  | bad s buf hnext =>
    rw [decode_bad hnext, handled, decode_bad hnext]
    exact ⟨fun f hf => (by cases hf), fun s' rest hfinal => (by cases hfinal)⟩
  | refused s buf f n hnext hhandle =>
    rw [decode_refused hnext hhandle, handled, decode_refused hnext (by rw [hhandle]; rfl)]
    exact ⟨fun f hf => (by cases hf), fun s' rest hfinal => (by cases hfinal)⟩
  | frame s buf f n next events hnext hhandle ih =>
    rw [decode_frame hnext hhandle, handled_frame hnext hhandle,
      handled_frame (d.frame_append more hnext) hhandle, List.drop_append_of_le_length (d.size_le hnext)]
    refine ⟨?_, ?_⟩
    · intro g hg
      rcases List.mem_cons.mp hg with hhead | htail
      · exact List.mem_cons.mpr (.inl hhead)
      · exact List.mem_cons.mpr (.inr (ih.1 g htail))
    · intro s' rest hfinal g hg
      exact List.mem_cons.mpr (.inr (ih.2 s' rest hfinal g hg))

/-- The stream is refused before anything is emitted: its front holds an error,
or frames without events up to one, or more than `limit` bytes without a
complete frame. -/
inductive Rejected (d : Decoder α F) (handle : S → F → Option (S × List E)) (limit : Nat) :
    S → List α → Prop where
  | overflow {s buf} : d.next (buf.take limit) = .more → limit < buf.length → Rejected d handle limit s buf
  | bad {s buf} : d.next (buf.take limit) = .bad → Rejected d handle limit s buf
  | refused {s buf f n} : d.next (buf.take limit) = .frame f n → handle s f = none →
      Rejected d handle limit s buf
  | frame {s buf f n s'} : d.next (buf.take limit) = .frame f n → handle s f = some (s', []) →
      Rejected d handle limit s' (buf.drop n) → Rejected d handle limit s buf

private theorem next_take_append {buf : List α} (hlen : buf.length ≤ limit) (more : List α) :
    (buf ++ more).take limit = buf ++ more.take (limit - buf.length) := by
  rw [List.take_append, List.take_of_length_le hlen]

theorem rejected_frame_iff {s s' : S} {buf : List α} {f : F} {n : Nat} {events : List E}
    (h : d.next (buf.take limit) = .frame f n) (hhandle : handle s f = some (s', events)) :
    Rejected d handle limit s buf ↔ events = [] ∧ Rejected d handle limit s' (buf.drop n) := by
  refine ⟨?_, ?_⟩
  · intro hrejected
    cases hrejected with
    | overflow hnext => rw [h] at hnext; cases hnext
    | bad hnext => rw [h] at hnext; cases hnext
    | refused hnext hrefused =>
      rw [h] at hnext
      cases hnext
      rw [hhandle] at hrefused
      cases hrefused
    | frame hnext hnone hrest =>
      rw [h] at hnext
      cases hnext
      rw [hhandle] at hnone
      cases hnone
      exact ⟨rfl, hrest⟩
  · rintro ⟨rfl, hrest⟩
    exact .frame h hhandle hrest

theorem not_rejected_of_more {s : S} {buf : List α} (hmore : d.next buf = .more)
    (hlen : buf.length ≤ limit) : ¬ Rejected d handle limit s buf := by
  intro hrejected
  have htake : buf.take limit = buf := List.take_of_length_le hlen
  cases hrejected with
  | overflow _ hlong => omega
  | bad hnext => rw [htake, hmore] at hnext; cases hnext
  | refused hnext => rw [htake, hmore] at hnext; cases hnext
  | frame hnext => rw [htake, hmore] at hnext; cases hnext

/-- Whether a stream is rejected shows after decoding any front of it that fits
the buffer. -/
theorem rejected_append_iff {s : S} {buf : List α} (hlen : buf.length ≤ limit) (more : List α) :
    Rejected d handle limit s (buf ++ more) ↔ (decode d handle s buf).events = [] ∧
      ∀ s' rest, (decode d handle s buf).final = some (s', rest) →
        Rejected d handle limit s' (rest ++ more) := by
  induction s, buf using decode_induction d handle with
  | more s buf hnext =>
    rw [decode_more hnext]
    refine ⟨fun h => ⟨rfl, ?_⟩, fun h => h.2 s buf rfl⟩
    intro s' rest hfinal
    cases hfinal
    exact h
  | bad s buf hnext =>
    rw [decode_bad hnext]
    refine ⟨fun _ => ⟨rfl, fun _ _ hfinal => by cases hfinal⟩, fun _ => .bad ?_⟩
    rw [next_take_append hlen]
    exact d.bad_append _ hnext
  | refused s buf f n hnext hhandle =>
    rw [decode_refused hnext hhandle]
    refine ⟨fun _ => ⟨rfl, fun _ _ hfinal => by cases hfinal⟩, fun _ => .refused (f := f) (n := n) ?_ hhandle⟩
    rw [next_take_append hlen]
    exact d.frame_append _ hnext
  | frame s buf f n next events hnext hhandle ih =>
    have htake : d.next ((buf ++ more).take limit) = .frame f n := by
      rw [next_take_append hlen]
      exact d.frame_append _ hnext
    have hdrop : (buf.drop n).length ≤ limit := by
      rw [List.length_drop]
      omega
    rw [rejected_frame_iff htake hhandle, List.drop_append_of_le_length (d.size_le hnext), ih hdrop,
      decode_frame hnext hhandle, Outcome.after_final, Outcome.after_events, List.append_eq_nil_iff,
      and_assoc]

/-- A rejected stream is refused silently however it is cut. -/
theorem feedAll_of_rejected {s : S} {buf : List α} {chunks : List (List α)} (hmore : d.next buf = .more)
    (hlen : buf.length ≤ limit) (h : Rejected d handle limit s (buf ++ chunks.flatten)) :
    feedAll d handle limit s buf chunks = ⟨none, []⟩ := by
  induction chunks generalizing s buf with
  | nil =>
    rw [List.flatten_nil, List.append_nil] at h
    exact absurd h (not_rejected_of_more hmore hlen)
  | cons chunk chunks ih =>
    rw [feedAll, feed]
    split
    · rename_i hroom
      rw [List.flatten_cons, ← List.append_assoc] at h
      obtain ⟨hsilent, hrest⟩ := (rejected_append_iff (by rw [List.length_append]; exact hroom) _).mp h
      cases hfinal : (decode d handle s (buf ++ chunk)).final with
      | none =>
        rw [Outcome.andThen_none hfinal]
        exact Outcome.ext hfinal hsilent
      | some p =>
        obtain ⟨hnext, hle⟩ := decode_final hfinal
        rw [List.length_append] at hle
        rw [Outcome.andThen_some hfinal, hsilent, Outcome.after_nil]
        exact ih hnext (by omega) (hrest p.1 p.2 hfinal)
    · rfl

/-- Received byte by byte, only a rejected stream is refused silently. -/
theorem rejected_of_feedAll_singletons {s : S} {buf stream : List α} (hmore : d.next buf = .more)
    (hlen : buf.length ≤ limit)
    (h : feedAll d handle limit s buf (stream.map fun b => [b]) = ⟨none, []⟩) :
    Rejected d handle limit s (buf ++ stream) := by
  induction stream generalizing s buf with
  | nil =>
    rw [List.map_nil, feedAll] at h
    cases h
  | cons b stream ih =>
    rw [List.map_cons, feedAll, feed] at h
    split at h
    · rename_i hroom
      rw [List.append_cons]
      refine (rejected_append_iff (by simpa using hroom) stream).mpr ?_
      cases hfinal : (decode d handle s (buf ++ [b])).final with
      | none =>
        rw [Outcome.andThen_none hfinal] at h
        rw [h]
        exact ⟨rfl, fun s' rest hsome => by cases hsome⟩
      | some p =>
        obtain ⟨hnext, hle⟩ := decode_final hfinal
        rw [List.length_append] at hle
        rw [Outcome.andThen_some hfinal] at h
        have hevents : (decode d handle s (buf ++ [b])).events = [] := by
          have happend := congrArg Outcome.events h
          exact (List.append_eq_nil_iff.mp happend).1
        rw [hevents, Outcome.after_nil] at h
        refine ⟨hevents, ?_⟩
        intro s' rest hsome
        cases hsome
        exact ih hnext (by simp only [List.length_singleton] at hle hroom; omega) h
    · rename_i hroom
      simp only [List.length_singleton] at hroom
      have htake : (buf ++ b :: stream).take limit = buf := by
        rw [List.take_append, List.take_of_length_le hlen, show limit - buf.length = 0 by omega,
          List.take_zero, List.append_nil]
      refine .overflow (by rw [htake]; exact hmore) ?_
      rw [List.length_append, List.length_cons]
      omega

/-- All ways of cutting a stream into chunks have the same outcome exactly
when the buffer has room for the whole stream or the stream is rejected before
anything is emitted. -/
theorem chunking_invisible_iff {s : S} {buf stream : List α} (hmore : d.next buf = .more)
    (hlen : buf.length ≤ limit) :
    (∀ chunks chunks' : List (List α), chunks.flatten = stream → chunks'.flatten = stream →
        (∀ chunk ∈ chunks, chunk ≠ []) → (∀ chunk ∈ chunks', chunk ≠ []) →
        feedAll d handle limit s buf chunks = feedAll d handle limit s buf chunks') ↔
      buf.length + stream.length ≤ limit ∨ Rejected d handle limit s (buf ++ stream) := by
  refine ⟨?_, ?_⟩
  · intro h
    by_cases hroom : buf.length + stream.length ≤ limit
    · exact .inl hroom
    · refine .inr (rejected_of_feedAll_singletons hmore hlen ?_)
      have hstream : stream ≠ [] := by
        rintro rfl
        exact hroom (by simpa using hlen)
      have hwhole := h (stream.map fun b => [b]) [stream] (by simp [← List.flatMap_def]) (by simp)
        (by simp) (by simpa using hstream)
      rw [hwhole, feedAll, feed, if_neg hroom]
      rfl
  · rintro (hroom | hrejected) chunks chunks' rfl hflatten - -
    · rw [feedAll_eq_decode hmore (.of_length_le hroom),
        feedAll_eq_decode hmore (.of_length_le (by rw [hflatten]; exact hroom)), hflatten]
    · rw [feedAll_of_rejected hmore hlen hrejected,
        feedAll_of_rejected hmore hlen (by rw [hflatten]; exact hrejected)]

end decode

end incremental
