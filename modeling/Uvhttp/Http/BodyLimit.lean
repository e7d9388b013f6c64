import Uvhttp.Http.Spans

namespace uvhttp.http

/-- The capacity that spans of the given lengths call for, each time twice the
last one or the size needed, with no limit applied. -/
def doubled_capacity (body_capacity body_length : Nat) : List Nat → Nat
  | [] => body_capacity
  | length :: rest =>
    doubled_capacity
      (if body_length + length > body_capacity then max (body_capacity * 2) (body_length + length) else body_capacity)
      (body_length + length) rest

/-- The limit is exact for these spans: they are all accepted when their total
is within it and only then, the body stored is what they spell, and the buffer
holds it all the way. -/
structure BodyLimit (alloc : Nat → Bool) (c : HttpParsing) (spans : List (List UInt8)) : Prop where
  accepted : (execute alloc c (spans.map .body)).1.isSome ↔ spans.flatten.length ≤ UVHTTP_MAX_BODY_SIZE
  stored : ∀ c', (execute alloc c (spans.map .body)).1 = some c' → c'.request.body.getD [] = spans.flatten
  bounded : ∀ front back c', spans = front ++ back → (execute alloc c (front.map .body)).1 = some c' →
    (c'.request.body.getD []).length ≤ c'.request.body_capacity

/-- A connection that waits for the body of its first request, or of a request
after a restart. -/
def AwaitsBody (c : HttpParsing) : Prop := c = parsing_new ∨ ∃ used, c = parsing_restart used

theorem AwaitsBody.empty {c : HttpParsing} (h : AwaitsBody c) :
    BodyBuffer c.request ∧ c.request.body.getD [] = [] ∧ c.request.body_capacity ≤ UVHTTP_MAX_BODY_SIZE := by
  rcases h with rfl | ⟨used, rfl⟩
  · exact ⟨between_new.buffer, rfl, by decide⟩
  · exact ⟨fun _ => rfl, rfl, Nat.zero_le _⟩

theorem le_doubled_capacity (body_capacity body_length : Nat) (lengths : List Nat) :
    body_capacity ≤ doubled_capacity body_capacity body_length lengths := by
  induction lengths generalizing body_capacity body_length with
  | nil => exact Nat.le_refl _
  | cons length rest ih =>
    refine Nat.le_trans ?_ (ih _ _)
    split
    · omega
    · exact Nat.le_refl _

/-- The capacity holds the whole body. -/
theorem total_le_doubled_capacity {body_capacity body_length : Nat} (hfits : body_length ≤ body_capacity)
    (lengths : List Nat) : body_length + lengths.sum ≤ doubled_capacity body_capacity body_length lengths := by
  induction lengths generalizing body_capacity body_length with
  | nil => exact hfits
  | cons length rest ih =>
    rw [List.sum_cons, ← Nat.add_assoc]
    apply ih
    split
    · exact Nat.le_max_right _ _
    · omega

/-- The limit stops the growth exactly when the capacity would pass it. -/
theorem grow_body_all_eq {body_capacity : Nat} (hlimit : body_capacity ≤ UVHTTP_MAX_BODY_SIZE) (body_length : Nat)
    (lengths : List Nat) :
    grow_body_all body_capacity body_length lengths =
      if doubled_capacity body_capacity body_length lengths ≤ UVHTTP_MAX_BODY_SIZE then
        some (doubled_capacity body_capacity body_length lengths) else none := by
  induction lengths generalizing body_capacity body_length with
  | nil =>
    rw [grow_body_all, doubled_capacity, if_pos hlimit]
  | cons length rest ih =>
    rw [grow_body_all, doubled_capacity, grow_body]
    by_cases hgrows : body_length + length > body_capacity
    · rw [if_pos hgrows, if_pos hgrows]
      by_cases hover : max (body_capacity * 2) (body_length + length) > UVHTTP_MAX_BODY_SIZE
      · rw [if_pos hover, if_neg]
        · rfl
        · have hle := le_doubled_capacity (max (body_capacity * 2) (body_length + length)) (body_length + length) rest
          omega
      · rw [if_neg hover]
        exact ih (Nat.le_of_not_lt hover) _
    · rw [if_neg hgrows, if_neg hgrows]
      exact ih hlimit _

section limit

variable {alloc : Nat → Bool} (halloc : ∀ size, alloc size = true) {c : HttpParsing} (hc : AwaitsBody c)

include halloc hc

/-- What becomes of the spans of a body. -/
theorem execute_spans (spans : List (List UInt8)) :
    if doubled_capacity c.request.body_capacity 0 (spans.map List.length) ≤ UVHTTP_MAX_BODY_SIZE then
      ∃ c', (execute alloc c (spans.map .body)).1 = some c' ∧ c'.request.body.getD [] = spans.flatten ∧
        c'.request.body_capacity = doubled_capacity c.request.body_capacity 0 (spans.map List.length)
    else (execute alloc c (spans.map .body)).1 = none := by
  obtain ⟨hbuffer, hempty, hlimit⟩ := hc.empty
  have hrun := execute_body halloc hbuffer spans
  rw [hempty, List.length_nil, grow_body_all_eq hlimit] at hrun
  split
  · rename_i hwithin
    rw [if_pos hwithin] at hrun
    obtain ⟨body, heq, hbody, -⟩ := hrun
    exact ⟨_, by rw [heq], by rw [hbody, List.nil_append], rfl⟩
  · rename_i hover
    rw [if_neg hover] at hrun
    rw [hrun]

theorem spans_accepted_iff (spans : List (List UInt8)) :
    (execute alloc c (spans.map .body)).1.isSome ↔
      doubled_capacity c.request.body_capacity 0 (spans.map List.length) ≤ UVHTTP_MAX_BODY_SIZE := by
  have hrun := execute_spans halloc hc spans
  split at hrun
  · rename_i hwithin
    obtain ⟨c', heq, -, -⟩ := hrun
    rw [heq]
    exact iff_of_true rfl hwithin
  · rename_i hover
    rw [hrun]
    exact iff_of_false (by simp) hover

theorem accepted_spans {spans : List (List UInt8)} {c' : HttpParsing}
    (haccepted : (execute alloc c (spans.map .body)).1 = some c') :
    c'.request.body.getD [] = spans.flatten ∧
      (c'.request.body.getD []).length ≤ c'.request.body_capacity := by
  have hrun := execute_spans halloc hc spans
  split at hrun
  · obtain ⟨found, heq, hbody, hcapacity⟩ := hrun
    rw [heq] at haccepted
    cases haccepted
    refine ⟨hbody, ?_⟩
    rw [hbody, hcapacity, List.length_flatten, ← Nat.zero_add (spans.map List.length).sum]
    exact total_le_doubled_capacity (Nat.zero_le _) _
  · rw [hrun] at haccepted
    cases haccepted

/-- On a fresh or restarted connection, the spans of a body are accepted just
when their total is within the limit if and only if a total within the limit
does not call for a capacity beyond it. -/
theorem body_limit_iff (spans : List (List UInt8)) :
    BodyLimit alloc c spans ↔
      (spans.flatten.length ≤ UVHTTP_MAX_BODY_SIZE →
        doubled_capacity c.request.body_capacity 0 (spans.map List.length) ≤ UVHTTP_MAX_BODY_SIZE) := by
  have haccepted := spans_accepted_iff halloc hc spans
  have htotal := total_le_doubled_capacity (Nat.zero_le c.request.body_capacity) (spans.map List.length)
  rw [Nat.zero_add, ← List.length_flatten] at htotal
  constructor
  · intro hexact hwithin
    exact haccepted.mp (hexact.accepted.mpr hwithin)
  · intro hroom
    refine ⟨⟨fun h => Nat.le_trans htotal (haccepted.mp h), fun h => haccepted.mpr (hroom h)⟩, ?_, ?_⟩
    · intro c' hc'
      exact (accepted_spans halloc hc hc').1
    · rintro front back c' - hc'
      exact (accepted_spans halloc hc hc').2

end limit

/-- Three bytes on a fresh connection. -/
theorem body_limit_three_bytes : BodyLimit (fun _ => true) parsing_new [[1, 2], [3]] :=
  (body_limit_iff (fun _ => rfl) (.inl rfl) [[1, 2], [3]]).mpr (by decide)

/-- Sixty-five spans of 10000 bytes each. -/
def long_upload : List (List UInt8) := List.replicate 65 (List.replicate 10000 0)

theorem long_upload_lengths : long_upload.map List.length = List.replicate 65 10000 := by
  rw [long_upload, List.map_replicate, List.length_replicate]

/-- After a restart the first span of the upload decides the capacities: they
are 10000, 20000 and so on up to 640000, and the next one is beyond the limit,
with less than two thirds of it received. -/
theorem long_upload_refused : ¬ BodyLimit (fun _ => true) (parsing_restart parsing_new) long_upload := by
  intro hexact
  have hwithin : long_upload.flatten.length ≤ UVHTTP_MAX_BODY_SIZE := by
    rw [List.length_flatten, long_upload_lengths]
    decide
  have hroom := (spans_accepted_iff (fun _ => rfl) (.inr ⟨_, rfl⟩) long_upload).mp (hexact.accepted.mpr hwithin)
  rw [long_upload_lengths] at hroom
  exact absurd hroom (by decide +kernel)

end uvhttp.http
