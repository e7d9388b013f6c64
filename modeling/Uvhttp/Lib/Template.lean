import Mathlib.Data.List.TakeWhile
import Mathlib.Tactic

/-! Templates with parameters: a mark starts a parameter, and its name runs up to a
separator or the end. Texts that are put together from a template and values. -/

namespace text_template

variable {α : Type} [DecidableEq α]

inductive Part (α : Type) where
  | literal (a : α)
  | param (name : List α)
  deriving DecidableEq, Repr

/-- The parts of a template. The flag says that the symbols up to the next separator are
those of a name. -/
def parse (mark separator : α) : Bool → List α → List (Part α)
  | _, [] => []
  | true, a :: rest =>
    if a = separator then .literal a :: parse mark separator false rest else parse mark separator true rest
  | false, a :: rest =>
    if a = mark then .param (rest.takeWhile (· ≠ separator)) :: parse mark separator true rest
    else .literal a :: parse mark separator false rest

omit [DecidableEq α] in
def names : List (Part α) → List (List α)
  | [] => []
  | .literal _ :: parts => names parts
  | .param name :: parts => name :: names parts

omit [DecidableEq α] in
/-- The text of a template with values in place of its parameters. -/
def substitute : List (Part α) → List (List α) → List α
  | [], _ => []
  | .literal a :: parts, values => a :: substitute parts values
  | .param _ :: parts, [] => substitute parts []
  | .param _ :: parts, value :: values => value ++ substitute parts values

/-- A text that is made of a template and values without separators. A parameter at the
end has a value that is not empty. -/
inductive Fits (separator : α) : List (Part α) → List (List α) → List α → Prop where
  | nil : Fits separator [] [] []
  | literal (a : α) {parts : List (Part α)} {values : List (List α)} {text : List α}
      (h : Fits separator parts values text) : Fits separator (.literal a :: parts) values (a :: text)
  | param (name : List α) {parts : List (Part α)} {value : List α} {values : List (List α)} {text : List α}
      (hfree : separator ∉ value) (hend : text = [] → value ≠ []) (hnext : ∀ a ∈ text.head?, a = separator)
      (h : Fits separator parts values text) :
      Fits separator (.param name :: parts) (value :: values) (value ++ text)

variable {mark separator : α}

theorem parse_skip (rest : List α) (hmark : mark ≠ separator) :
    parse mark separator true rest = parse mark separator false (rest.dropWhile (· ≠ separator)) := by
  induction rest with
  | nil => rfl
  | cons a rest ih =>
    by_cases ha : a = separator
    · rw [parse, if_pos ha, List.dropWhile_cons_of_neg (by simpa using ha), parse,
        if_neg (ha ▸ hmark.symm)]
    · rw [parse, if_neg ha, ih, List.dropWhile_cons_of_pos (by simpa using ha)]

theorem parse_mark (rest : List α) (hmark : mark ≠ separator) :
    parse mark separator false (mark :: rest) =
      .param (rest.takeWhile (· ≠ separator)) :: parse mark separator false (rest.dropWhile (· ≠ separator)) := by
  rw [parse, if_pos rfl, parse_skip rest hmark]

theorem parse_literal {a : α} (h : a ≠ mark) (rest : List α) :
    parse mark separator false (a :: rest) = .literal a :: parse mark separator false rest := if_neg h

omit [DecidableEq α] in
theorem Fits.substitute_eq {parts : List (Part α)} {values : List (List α)} {text : List α}
    (h : Fits separator parts values text) : substitute parts values = text := by
  induction h with
  | nil => rfl
  | literal a h ih => rw [substitute, ih]
  | param name hfree hend hnext h ih => rw [substitute, ih]

omit [DecidableEq α] in
theorem Fits.length_eq {parts : List (Part α)} {values : List (List α)} {text : List α}
    (h : Fits separator parts values text) : values.length = (names parts).length := by
  induction h with
  | nil => rfl
  | literal a h ih => exact ih
  | param name hfree hend hnext h ih => exact congrArg Nat.succ ih

omit [DecidableEq α] in
theorem Fits.free {parts : List (Part α)} {values : List (List α)} {text : List α}
    (h : Fits separator parts values text) : ∀ value ∈ values, separator ∉ value := by
  induction h with
  | nil => exact nofun
  | literal a h ih => exact ih
  | param name hfree hend hnext h ih => exact List.forall_mem_cons.mpr ⟨hfree, ih⟩

/-- The value of a parameter is the text up to the next separator. -/
theorem Fits.param_cases {name : List α} {parts : List (Part α)} {values : List (List α)} {text : List α}
    (h : Fits separator (.param name :: parts) values text) :
    text ≠ [] ∧ ∃ later, values = text.takeWhile (· ≠ separator) :: later ∧
      Fits separator parts later (text.dropWhile (· ≠ separator)) := by
  cases h with
  | @param _ _ value later rest hfree hend hnext h =>
    have hvalue : ∀ a ∈ value, decide (a ≠ separator) = true := fun a ha =>
      decide_eq_true fun hsame => hfree (hsame ▸ ha)
    have hrest : rest.takeWhile (· ≠ separator) = [] ∧ rest.dropWhile (· ≠ separator) = rest := by
      cases rest with
      | nil => exact ⟨rfl, rfl⟩
      | cons a rest =>
        have ha : a = separator := hnext a rfl
        exact ⟨List.takeWhile_cons_of_neg (by simpa using ha), List.dropWhile_cons_of_neg (by simpa using ha)⟩
    refine ⟨fun hempty => ?_, later, ?_, ?_⟩
    · obtain ⟨hvalue, hrest⟩ := List.append_eq_nil_iff.mp hempty
      exact hend hrest hvalue
    · rw [List.takeWhile_append_of_pos hvalue, hrest.1, List.append_nil]
    · rw [List.dropWhile_append_of_pos hvalue, hrest.2]
      exact h

theorem head_dropWhile (text : List α) : ∀ a ∈ (text.dropWhile (· ≠ separator)).head?, a = separator := by
  intro a ha
  by_contra hne
  have hstop := List.head?_dropWhile_not (· ≠ separator) text
  rw [Option.mem_def] at ha
  rw [ha] at hstop
  simp [hne] at hstop

theorem free_takeWhile (text : List α) : separator ∉ text.takeWhile (· ≠ separator) := by
  intro hmem
  have hkept := List.mem_takeWhile_imp hmem
  simp at hkept

/-- A text that is not empty gives a parameter its value. -/
theorem Fits.of_param {name : List α} {parts : List (Part α)} {later : List (List α)} {text : List α}
    (hne : text ≠ []) (h : Fits separator parts later (text.dropWhile (· ≠ separator))) :
    Fits separator (.param name :: parts) (text.takeWhile (· ≠ separator) :: later) text := by
  have hsplit : text.takeWhile (· ≠ separator) ++ text.dropWhile (· ≠ separator) = text :=
    List.takeWhile_append_dropWhile
  have hfits := Fits.param name (free_takeWhile text) (fun hend hempty => hne ?_) (head_dropWhile text) h
  · rw [hsplit] at hfits
    exact hfits
  · rw [← hsplit, hend, hempty]
    rfl

/-- Values without separators that are not empty fit. -/
theorem fits_substitute {rest : List α} {skipping : Bool} {values : List (List α)}
    (hlength : values.length = (names (parse mark separator skipping rest)).length)
    (hvalues : ∀ value ∈ values, value ≠ [] ∧ separator ∉ value) :
    Fits separator (parse mark separator skipping rest) values
        (substitute (parse mark separator skipping rest) values) ∧
      (skipping = true → ∀ a ∈ (substitute (parse mark separator skipping rest) values).head?, a = separator) := by
  induction rest generalizing skipping values with
  | nil =>
    have hempty : parse mark separator skipping [] = [] := by
      cases skipping with
      | true => rfl
      | false => rfl
    rw [hempty] at hlength ⊢
    obtain rfl := List.length_eq_zero_iff.mp hlength
    exact ⟨.nil, fun _ => nofun⟩
  | cons a rest ih =>
    cases skipping with
    | true =>
      by_cases ha : a = separator
      · have hparse : parse mark separator true (a :: rest) = .literal a :: parse mark separator false rest := if_pos ha
        rw [hparse] at hlength ⊢
        refine ⟨.literal a (ih hlength hvalues).1, fun _ first hfirst => ?_⟩
        exact (Option.some.inj hfirst).symm.trans ha
      · have hparse : parse mark separator true (a :: rest) = parse mark separator true rest := if_neg ha
        rw [hparse] at hlength ⊢
        exact ih hlength hvalues
    | false =>
      by_cases ha : a = mark
      · have hparse : parse mark separator false (a :: rest) =
            .param (rest.takeWhile (· ≠ separator)) :: parse mark separator true rest := if_pos ha
        rw [hparse] at hlength ⊢
        cases values with
        | nil => cases hlength
        | cons value values =>
          obtain ⟨hvalue, hlater⟩ := List.forall_mem_cons.mp hvalues
          obtain ⟨hfits, hnext⟩ := ih (Nat.succ.inj hlength) hlater
          exact ⟨.param _ hvalue.2 (fun _ => hvalue.1) (hnext rfl) hfits, nofun⟩
      · have hparse : parse mark separator false (a :: rest) = .literal a :: parse mark separator false rest :=
          if_neg ha
        rw [hparse] at hlength ⊢
        exact ⟨.literal a (ih hlength hvalues).1, nofun⟩

/-- A template fits itself, each parameter with its mark and name as the value. -/
theorem fits_self (hmark : mark ≠ separator) (rest : List α) :
    (∃ values, Fits separator (parse mark separator false rest) values rest) ∧
      ∃ values, Fits separator (parse mark separator true rest) values (rest.dropWhile (· ≠ separator)) := by
  induction rest with
  | nil => exact ⟨⟨[], .nil⟩, [], .nil⟩
  | cons a rest ih =>
    obtain ⟨⟨values, hplain⟩, skipped, hskipped⟩ := ih
    constructor
    · by_cases ha : a = mark
      · have hname : separator ∉ mark :: rest.takeWhile (· ≠ separator) := by
          rw [List.mem_cons, not_or]
          exact ⟨hmark.symm, free_takeWhile rest⟩
        have hfits := Fits.param (rest.takeWhile (· ≠ separator)) hname (fun _ => List.cons_ne_nil _ _)
          (head_dropWhile rest) hskipped
        rw [List.cons_append, List.takeWhile_append_dropWhile] at hfits
        rw [ha, parse, if_pos rfl]
        exact ⟨_, hfits⟩
      · rw [parse_literal ha]
        exact ⟨values, .literal a hplain⟩
    · by_cases ha : a = separator
      · rw [parse, if_pos ha, List.dropWhile_cons_of_neg (by simpa using ha)]
        exact ⟨values, .literal a hplain⟩
      · rw [parse, if_neg ha, List.dropWhile_cons_of_pos (by simpa using ha)]
        exact ⟨skipped, hskipped⟩

omit [DecidableEq α] in
/-- A parameter at the end of a template has a value that is not empty. -/
theorem Fits.last {parts : List (Part α)} {values : List (List α)} {text : List α}
    (h : Fits separator parts values text) {name : List α} (hlast : parts.getLast? = some (.param name)) :
    ∃ value, values.getLast? = some value ∧ value ≠ [] := by
  induction h with
  | nil => cases hlast
  | @literal a parts values text h ih =>
    cases parts with
    | nil => cases hlast
    | cons part parts =>
      rw [List.getLast?_cons_cons] at hlast
      exact ih hlast
  | @param first parts value values text hfree hend hnext h ih =>
    cases parts with
    | nil =>
      cases h
      exact ⟨value, rfl, hend rfl⟩
    | cons part parts =>
      rw [List.getLast?_cons_cons] at hlast
      obtain ⟨last, hvalue, hne⟩ := ih hlast
      cases values with
      | nil => cases hvalue
      | cons second values => exact ⟨last, (List.getLast?_cons_cons).trans hvalue, hne⟩

omit [DecidableEq α] in
theorem substitute_literals (text : List α) (values : List (List α)) :
    substitute (text.map Part.literal) values = text := by
  induction text with
  | nil => rfl
  | cons a text ih => exact congrArg (a :: ·) ih

omit [DecidableEq α] in
theorem names_literals (text : List α) : names (text.map Part.literal) = [] := by
  induction text with
  | nil => rfl
  | cons a text ih => exact ih

/-- A template without a mark has only literal parts. -/
theorem parse_unmarked {rest : List α} (h : mark ∉ rest) :
    parse mark separator false rest = rest.map Part.literal := by
  induction rest with
  | nil => rfl
  | cons a rest ih =>
    rw [List.mem_cons, not_or] at h
    rw [parse_literal (Ne.symm h.1), ih h.2]
    rfl

end text_template
