import Mathlib.Tactic

/-! Text in lines that end with a two-symbol terminator, and a block of such
lines that an empty line ends: reading a written block gives back its lines
and whatever follows it, and no symbol of a terminator stands alone in it. -/

namespace text_lines

variable {α : Type} [DecidableEq α] (cr lf : α)

/-- The first line and what follows its terminator. -/
def take_line : List α → Option (List α × List α)
  | [] => none
  | [_] => none
  | a :: b :: rest =>
    if a = cr ∧ b = lf then some ([], rest)
    else (take_line (b :: rest)).map fun found => (a :: found.1, found.2)

/-- Lines up to an empty one, for at most `fuel` lines, and what follows. -/
def take_block : Nat → List α → Option (List (List α) × List α)
  | 0, _ => none
  | fuel + 1, text =>
    match take_line cr lf text with
    | none => none
    | some ([], rest) => some ([], rest)
    | some (line, rest) => (take_block fuel rest).map fun found => (line :: found.1, found.2)

/-- A line takes at least its terminator, so the length of the text bounds the
number of its lines. -/
def block (text : List α) : Option (List (List α) × List α) := take_block cr lf text.length text

/-- The lines of a text that ends with a terminator, for at most `fuel` lines. -/
def take_lines : Nat → List α → Option (List (List α))
  | _, [] => some []
  | 0, _ :: _ => none
  | fuel + 1, a :: text =>
    match take_line cr lf (a :: text) with
    | none => none
    | some (line, rest) => (take_lines fuel rest).map (line :: ·)

/-- A text cut at every terminator, `none` when something follows the last one. -/
def lines (text : List α) : Option (List (List α)) := take_lines cr lf text.length text

/-- The symbols of the terminator stand only next to each other and in order. -/
def paired : List α → Bool
  | [] => true
  | [a] => a ≠ cr && a ≠ lf
  | a :: b :: rest =>
    if a = cr then b = lf && paired rest
    else a ≠ lf && paired (b :: rest)

/-- Write lines, each with its terminator. -/
def render (written : List (List α)) : List α := written.flatMap fun line => line ++ [cr, lf]

omit [DecidableEq α] in
@[simp] theorem render_nil : render cr lf [] = [] := rfl

omit [DecidableEq α] in
@[simp] theorem render_cons (line : List α) (written : List (List α)) :
    render cr lf (line :: written) = line ++ cr :: lf :: render cr lf written := by
  simp [render]

omit [DecidableEq α] in
@[simp] theorem render_append (front back : List (List α)) :
    render cr lf (front ++ back) = render cr lf front ++ render cr lf back := List.flatMap_append

variable {cr lf}

theorem take_line_append {line : List α} (hline : cr ∉ line) (rest : List α) :
    take_line cr lf (line ++ cr :: lf :: rest) = some (line, rest) := by
  induction line with
  | nil => simp [take_line]
  | cons a line ih =>
    have hne : a ≠ cr := fun heq => hline (heq ▸ List.mem_cons_self)
    have htail : cr ∉ line := fun hmem => hline (List.mem_cons_of_mem a hmem)
    specialize ih htail
    cases line with
    | nil =>
      rw [List.nil_append] at ih
      simp [take_line, hne]
    | cons b line =>
      rw [List.cons_append] at ih
      rw [List.cons_append, List.cons_append, take_line, if_neg fun h => hne h.1, ih]
      rfl

theorem take_block_render {written : List (List α)} (hwritten : ∀ line ∈ written, line ≠ [] ∧ cr ∉ line)
    (body : List α) {fuel : Nat} (hfuel : written.length < fuel) :
    take_block cr lf fuel (render cr lf written ++ cr :: lf :: body) = some (written, body) := by
  induction written generalizing fuel with
  | nil =>
    obtain ⟨fuel, rfl⟩ := Nat.exists_eq_succ_of_ne_zero (Nat.ne_of_gt hfuel)
    rw [take_block, render_nil, List.nil_append,
      show cr :: lf :: body = [] ++ cr :: lf :: body from rfl, take_line_append List.not_mem_nil]
  | cons line written ih =>
    obtain ⟨fuel, rfl⟩ := Nat.exists_eq_succ_of_ne_zero (Nat.ne_zero_of_lt hfuel)
    obtain ⟨hnonempty, hclean⟩ := hwritten line List.mem_cons_self
    have hcount : written.length < fuel := by
      rw [List.length_cons] at hfuel
      omega
    have hrest := ih (fun other hother => hwritten other (List.mem_cons_of_mem line hother)) hcount
    have htext : render cr lf (line :: written) ++ cr :: lf :: body =
        line ++ cr :: lf :: (render cr lf written ++ cr :: lf :: body) := by
      rw [render_cons, List.append_assoc, List.cons_append, List.cons_append]
    rw [take_block, htext, take_line_append hclean]
    cases line with
    | nil => exact absurd rfl hnonempty
    | cons a line => simp only [hrest, Option.map_some]

omit [DecidableEq α] in
variable (cr lf) in
theorem length_le_length_render (written : List (List α)) : written.length ≤ (render cr lf written).length := by
  induction written with
  | nil => exact Nat.zero_le _
  | cons line written ih =>
    rw [render_cons, List.length_append, List.length_cons, List.length_cons, List.length_cons]
    omega

/-- Lines without the first symbol of the terminator, none of them empty, and
the empty line that ends them are read as those lines, and what follows them
stays. -/
theorem block_render {written : List (List α)} (hwritten : ∀ line ∈ written, line ≠ [] ∧ cr ∉ line)
    (body : List α) : block cr lf (render cr lf written ++ cr :: lf :: body) = some (written, body) := by
  apply take_block_render hwritten
  have hle := length_le_length_render cr lf written
  rw [List.length_append, List.length_cons, List.length_cons]
  omega

/-- A written text is cut into its lines. -/
theorem lines_render {written : List (List α)} (hwritten : ∀ line ∈ written, cr ∉ line) :
    lines cr lf (render cr lf written) = some written := by
  have hfuel : ∀ fuel, written.length ≤ fuel → take_lines cr lf fuel (render cr lf written) = some written := by
    induction written with
    | nil =>
      intro fuel _
      cases fuel <;> rfl
    | cons line written ih =>
      intro fuel hle
      rw [List.length_cons] at hle
      obtain ⟨fuel, rfl⟩ := Nat.exists_eq_succ_of_ne_zero (by omega : fuel ≠ 0)
      obtain ⟨hline, hrest⟩ := List.forall_mem_cons.mp hwritten
      have htext : take_line cr lf (line ++ cr :: lf :: render cr lf written) = some (line, render cr lf written) :=
        take_line_append hline _
      have hlater := ih hrest fuel (by omega)
      rw [render_cons]
      cases hcons : line ++ cr :: lf :: render cr lf written with
      | nil => simp at hcons
      | cons a text =>
        rw [hcons] at htext
        rw [take_lines, htext]
        dsimp only
        rw [hlater]
        rfl
  exact hfuel _ (length_le_length_render cr lf written)

/-- A line without symbols of the terminator changes nothing in front of a text. -/
theorem paired_append {line : List α} (hcr : cr ∉ line) (hlf : lf ∉ line) (rest : List α) :
    paired cr lf (line ++ rest) = paired cr lf rest := by
  induction line with
  | nil => rfl
  | cons a line ih =>
    rw [List.mem_cons, not_or] at hcr hlf
    specialize ih hcr.2 hlf.2
    have hne : a ≠ cr := fun heq => hcr.1 heq.symm
    have hne' : a ≠ lf := fun heq => hlf.1 heq.symm
    rw [List.cons_append]
    cases hrest : line ++ rest with
    | nil =>
      rw [hrest] at ih
      rw [← ih]
      simp [paired, hne, hne']
    | cons b text =>
      rw [hrest] at ih
      rw [← ih, paired, if_neg hne]
      simp [hne']

/-- A written text has no stray terminator symbols. -/
theorem paired_render {written : List (List α)} (hcr : ∀ line ∈ written, cr ∉ line)
    (hlf : ∀ line ∈ written, lf ∉ line) : paired cr lf (render cr lf written) = true := by
  induction written with
  | nil => rfl
  | cons line written ih =>
    obtain ⟨hcr_line, hcr_rest⟩ := List.forall_mem_cons.mp hcr
    obtain ⟨hlf_line, hlf_rest⟩ := List.forall_mem_cons.mp hlf
    rw [render_cons, paired_append hcr_line hlf_line, paired, if_pos rfl, ih hcr_rest hlf_rest]
    simp

end text_lines
