import Uvhttp.Lib.Incremental

/-! Streams that are the encodings of known frames: what a decoder holds back
after any number of their bytes, and when chunks of them find room. -/

namespace incremental

variable {α F S E : Type}

/-- The bytes are recognised as this frame, whatever follows them. -/
def Encodes (d : Decoder α F) (bytes : List α) (f : F) : Prop :=
  ∀ rest, d.next (bytes ++ rest) = .frame f bytes.length

/-- No part of an encoding is taken for a frame or an error. -/
theorem Encodes.next_of_lt {d : Decoder α F} {bytes : List α} {f : F} (h : Encodes d bytes f) {n : Nat}
    (hn : n < bytes.length) : d.next (bytes.take n) = .more := by
  have hwhole : d.next (bytes.take n ++ bytes.drop n) = .frame f bytes.length := by
    rw [List.take_append_drop]
    simpa using h []
  cases hnext : d.next (bytes.take n) with
  | more => rfl
  | bad =>
    rw [d.bad_append _ hnext] at hwhole
    cases hwhole
  | frame g size =>
    have hle := d.size_le hnext
    rw [d.frame_append _ hnext] at hwhole
    cases hwhole
    rw [List.length_take] at hle
    omega

/-- Handle known frames in order. -/
def handleAll (handle : S → F → Option (S × List E)) (s : S) : List F → Option (S × List E)
  | [] => some (s, [])
  | f :: frames =>
    match handle s f with
    | none => none
    | some (s', events) => (handleAll handle s' frames).map fun done => (done.1, events ++ done.2)

theorem handleAll_cons {handle : S → F → Option (S × List E)} {s s' : S} {f : F} {events : List E}
    (h : handle s f = some (s', events)) (frames : List F) :
    handleAll handle s (f :: frames) =
      (handleAll handle s' frames).map fun done => (done.1, events ++ done.2) := by
  rw [handleAll, h]

theorem handleAll_refused {handle : S → F → Option (S × List E)} {s : S} {f : F} (h : handle s f = none)
    (frames : List F) : handleAll handle s (f :: frames) = none := by
  rw [handleAll, h]

/-- Frames that do nothing can be left out. -/
theorem handleAll_skip {handle : S → F → Option (S × List E)} {s : S} {idle : List F}
    (h : ∀ f ∈ idle, handle s f = some (s, [])) (frames : List F) :
    handleAll handle s (idle ++ frames) = handleAll handle s frames := by
  induction idle with
  | nil => rfl
  | cons f idle ih =>
    rw [List.cons_append, handleAll_cons (h f List.mem_cons_self),
      ih fun g hg => h g (List.mem_cons_of_mem f hg)]
    cases handleAll handle s frames with
    | none => rfl
    | some done => rfl

/-- Of `n` received bytes, those that belong to no complete frame. -/
def pending : List Nat → Nat → Nat
  | [], n => n
  | size :: sizes, n => if size ≤ n then pending sizes (n - size) else n

/-- Chunks that find room when frames of the given sizes leave the buffer as
soon as they are complete. -/
def ChunksFit (limit : Nat) (sizes : List Nat) (received : Nat) : List (List α) → Prop
  | [] => True
  | chunk :: chunks => pending sizes received + chunk.length ≤ limit ∧
      ChunksFit limit sizes (received + chunk.length) chunks

section encoded

variable {d : Decoder α F} {handle : S → F → Option (S × List E)} {limit : Nat}

/-- The encodings of frames decode to what handling the frames does. -/
theorem decode_encoded {wire : List (List α × F)} (hwire : ∀ p ∈ wire, Encodes d p.1 p.2) {s s' : S}
    {events : List E} (h : handleAll handle s (wire.map Prod.snd) = some (s', events)) :
    decode d handle s (wire.map Prod.fst).flatten = ⟨some (s', []), events⟩ := by
  induction wire generalizing s events with
  | nil =>
    cases h
    exact decode_more d.next_nil
  | cons p wire ih =>
    have hnext := hwire p List.mem_cons_self (wire.map Prod.fst).flatten
    rw [List.map_cons, List.flatten_cons]
    rw [List.map_cons, handleAll] at h
    cases hhandle : handle s p.2 with
    | none =>
      rw [hhandle] at h
      cases h
    | some next =>
      simp only [hhandle, Option.map_eq_some_iff] at h
      obtain ⟨done, hdone, heq⟩ := h
      cases heq
      rw [decode_frame hnext hhandle, List.drop_left,
        ih (fun q hq => hwire q (List.mem_cons_of_mem p hq)) hdone]
      rfl

/-- Encodings of frames that are not all accepted end in an error. -/
theorem decode_encoded_refused {wire : List (List α × F)} (hwire : ∀ p ∈ wire, Encodes d p.1 p.2) {s : S}
    (h : handleAll handle s (wire.map Prod.snd) = none) :
    (decode d handle s (wire.map Prod.fst).flatten).final = none := by
  induction wire generalizing s with
  | nil => cases h
  | cons p wire ih =>
    have hnext := hwire p List.mem_cons_self (wire.map Prod.fst).flatten
    rw [List.map_cons, List.flatten_cons]
    rw [List.map_cons, handleAll] at h
    cases hhandle : handle s p.2 with
    | none => rw [decode_refused hnext hhandle]
    | some next =>
      simp only [hhandle, Option.map_eq_none_iff] at h
      rw [decode_frame hnext hhandle, List.drop_left, Outcome.after_final]
      exact ih (fun q hq => hwire q (List.mem_cons_of_mem p hq)) h

/-- Only the encoded frames are handled. -/
theorem mem_of_mem_handled {wire : List (List α × F)} (hwire : ∀ p ∈ wire, Encodes d p.1 p.2) {s : S} {f : F}
    (hf : f ∈ handled d handle s (wire.map Prod.fst).flatten) : f ∈ wire.map Prod.snd := by
  induction wire generalizing s with
  | nil =>
    rw [List.map_nil, List.flatten_nil, handled, decode_more d.next_nil] at hf
    cases hf
  | cons p wire ih =>
    have hnext := hwire p List.mem_cons_self (wire.map Prod.fst).flatten
    rw [List.map_cons, List.flatten_cons] at hf
    rw [List.map_cons]
    cases hhandle : handle s p.2 with
    | none =>
      rw [handled, decode_refused hnext (by rw [hhandle]; rfl)] at hf
      cases hf
    | some next =>
      rw [handled_frame hnext hhandle, List.drop_left] at hf
      rcases List.mem_cons.mp hf with hhead | htail
      · exact List.mem_cons.mpr (.inl hhead)
      · exact List.mem_cons_of_mem _ (ih (fun q hq => hwire q (List.mem_cons_of_mem p hq)) htail)

/-- After any number of bytes, the decoder holds back what belongs to no
complete frame. -/
theorem decode_take_encoded {wire : List (List α × F)} (hwire : ∀ p ∈ wire, Encodes d p.1 p.2) {s : S}
    (hhandled : (handleAll handle s (wire.map Prod.snd)).isSome) {n : Nat}
    (hn : n ≤ (wire.map Prod.fst).flatten.length) :
    ∃ s' rest, (decode d handle s ((wire.map Prod.fst).flatten.take n)).final = some (s', rest) ∧
      rest.length = pending (wire.map fun p => p.1.length) n := by
  induction wire generalizing s n with
  | nil =>
    have hzero : n = 0 := by simpa using hn
    subst hzero
    exact ⟨s, [], by rw [List.take_zero, decode_more d.next_nil], rfl⟩
  | cons p wire ih =>
    rw [List.map_cons, List.flatten_cons, List.length_append] at hn
    rw [List.map_cons, List.flatten_cons, List.map_cons, pending]
    rw [List.map_cons, handleAll] at hhandled
    have hencodes := hwire p List.mem_cons_self
    by_cases hcomplete : p.1.length ≤ n
    · rw [if_pos hcomplete, List.take_append, List.take_of_length_le hcomplete]
      have hnext := hencodes ((wire.map Prod.fst).flatten.take (n - p.1.length))
      cases hhandle : handle s p.2 with
      | none =>
        rw [hhandle] at hhandled
        cases hhandled
      | some next =>
        obtain ⟨s', events⟩ := next
        simp only [hhandle, Option.isSome_map] at hhandled
        rw [decode_frame hnext hhandle, List.drop_left, Outcome.after_final]
        exact ih (fun q hq => hwire q (List.mem_cons_of_mem p hq)) hhandled (by omega)
    · rw [if_neg hcomplete, List.take_append_of_le_length (by omega),
        decode_more (hencodes.next_of_lt (by omega))]
      refine ⟨s, _, rfl, ?_⟩
      rw [List.length_take]
      omega

/-- Whether chunks of the encodings find room can be read off the frame sizes. -/
theorem fits_iff_chunksFit {wire : List (List α × F)} (hwire : ∀ p ∈ wire, Encodes d p.1 p.2) {s s' : S}
    (hhandled : (handleAll handle s (wire.map Prod.snd)).isSome) (front : List α) {buf : List α}
    {chunks : List (List α)} (hstream : (wire.map Prod.fst).flatten = front ++ chunks.flatten)
    (hfront : (decode d handle s front).final = some (s', buf)) :
    Fits d handle limit s' buf chunks ↔
      ChunksFit limit (wire.map fun p => p.1.length) front.length chunks := by
  induction chunks generalizing s' front buf with
  | nil => exact Iff.rfl
  | cons chunk chunks ih =>
    rw [List.flatten_cons, ← List.append_assoc] at hstream
    have hprefix : ∀ part rest, (wire.map Prod.fst).flatten = part ++ rest →
        ∃ t left, (decode d handle s part).final = some (t, left) ∧
          left.length = pending (wire.map fun p => p.1.length) part.length := by
      intro part rest heq
      have htake : part = (wire.map Prod.fst).flatten.take part.length := by rw [heq, List.take_left]
      have hlen : part.length ≤ (wire.map Prod.fst).flatten.length := by
        rw [heq, List.length_append]
        omega
      obtain ⟨t, left, hfinal, hleft⟩ := decode_take_encoded hwire hhandled hlen
      exact ⟨t, left, by rw [htake]; exact hfinal, hleft⟩
    obtain ⟨t, left, hfinal, hleft⟩ := hprefix front (chunk ++ chunks.flatten)
      (by rw [hstream, List.append_assoc])
    rw [hfront] at hfinal
    cases hfinal
    obtain ⟨t', left', hnext, -⟩ := hprefix (front ++ chunk) chunks.flatten hstream
    have hstep : (decode d handle s' (buf ++ chunk)).final = some (t', left') := by
      rw [decode_append, Outcome.andThen_some hfront, Outcome.after_final] at hnext
      exact hnext
    rw [Fits, ChunksFit, hleft, ← List.length_append, ← ih (front ++ chunk) hstream hnext]
    refine and_congr_right fun _ => ⟨fun h => h t' left' hstep, ?_⟩
    intro h s'' rest hsome
    rw [hstep] at hsome
    cases hsome
    exact h

end encoded

end incremental
