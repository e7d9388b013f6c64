import Mathlib.Tactic

/-! Absolute paths in a tree: the names on the way from the root, and their text with a
separator before each name. -/

namespace tree_path

variable {α : Type}

/-- The text behind the root of a path. -/
def below (separator : α) (names : List (List α)) : List α := names.flatMap (separator :: ·)

/-- The text of a path. That of the root is the separator alone. -/
def text (separator : α) : List (List α) → List α
  | [] => [separator]
  | name :: names => below separator (name :: names)

/-- What may follow a name: nothing, or a separator. -/
def Closed (separator : α) (rest : List α) : Prop := rest = [] ∨ ∃ more, rest = separator :: more

variable {separator : α}

theorem closed_below (names : List (List α)) : Closed separator (below separator names) := by
  cases names with
  | nil => exact .inl rfl
  | cons name names => exact .inr ⟨name ++ below separator names, rfl⟩

theorem below_append (names more : List (List α)) :
    below separator (names ++ more) = below separator names ++ below separator more :=
  List.flatMap_append

/-- Two names that are followed by a separator or the end are told apart by their
texts. -/
theorem name_inj {first second rest rest' : List α} (hfirst : separator ∉ first) (hsecond : separator ∉ second)
    (hrest : Closed separator rest) (hrest' : Closed separator rest') (h : first ++ rest = second ++ rest') :
    first = second ∧ rest = rest' := by
  induction first generalizing second with
  | nil =>
    cases second with
    | nil => exact ⟨rfl, h⟩
    | cons c second =>
      rw [List.nil_append, List.cons_append] at h
      rcases hrest with rfl | ⟨more, rfl⟩
      · cases h
      · obtain ⟨rfl, -⟩ := List.cons.inj h
        exact absurd List.mem_cons_self hsecond
  | cons c first ih =>
    cases second with
    | nil =>
      rw [List.nil_append, List.cons_append] at h
      rcases hrest' with rfl | ⟨more, rfl⟩
      · cases h
      · obtain ⟨rfl, -⟩ := List.cons.inj h
        exact absurd List.mem_cons_self hfirst
    | cons d second =>
      obtain ⟨rfl, htail⟩ := List.cons.inj h
      obtain ⟨rfl, hsame⟩ :=
        ih (fun hc => hfirst (List.mem_cons_of_mem _ hc)) (fun hc => hsecond (List.mem_cons_of_mem _ hc)) htail
      exact ⟨rfl, hsame⟩

/-- A text that goes on behind a path at a separator is that of a path below it. -/
theorem exists_more {names target : List (List α)} {rest : List α} (hnames : ∀ name ∈ names, separator ∉ name)
    (htarget : ∀ name ∈ target, separator ∉ name) (hrest : Closed separator rest)
    (h : below separator names ++ rest = below separator target) : ∃ more, target = names ++ more := by
  induction names generalizing target with
  | nil => exact ⟨target, rfl⟩
  | cons name names ih =>
    cases target with
    | nil => cases h
    | cons other target =>
      obtain ⟨hname, hrestnames⟩ := List.forall_mem_cons.mp hnames
      obtain ⟨hother, hresttarget⟩ := List.forall_mem_cons.mp htarget
      have htail : name ++ (below separator names ++ rest) = other ++ below separator target := by
        have hcons : separator :: (name ++ (below separator names ++ rest)) =
            separator :: (other ++ below separator target) := by simpa [below] using h
        exact (List.cons.inj hcons).2
      have hclosed : Closed separator (below separator names ++ rest) := by
        rcases @closed_below α separator names with hnil | ⟨more, hmore⟩
        · rw [hnil]
          exact hrest
        · rw [hmore]
          exact .inr ⟨more ++ rest, rfl⟩
      obtain ⟨rfl, hsame⟩ := name_inj hname hother hclosed (closed_below target) htail
      obtain ⟨more, rfl⟩ := ih hrestnames hresttarget hsame
      exact ⟨more, rfl⟩

/-- The paths below another than the root are those whose text goes on at a
separator. -/
theorem exists_more_iff {names target : List (List α)} (hroot : names ≠ [])
    (hnames : ∀ name ∈ names, name ≠ [] ∧ separator ∉ name) (htarget : ∀ name ∈ target, name ≠ [] ∧ separator ∉ name) :
    (∃ more, target = names ++ more) ↔
      ∃ rest, Closed separator rest ∧ text separator names ++ rest = text separator target := by
  obtain ⟨name, names, rfl⟩ := List.exists_cons_of_ne_nil hroot
  constructor
  · rintro ⟨more, rfl⟩
    exact ⟨below separator more, closed_below more, (below_append _ _).symm⟩
  · rintro ⟨rest, hclosed, hrest⟩
    cases target with
    | nil =>
      obtain ⟨c, cs, hname⟩ := List.exists_cons_of_ne_nil (hnames name List.mem_cons_self).1
      simp [text, below, hname] at hrest
    | cons other target =>
      exact exists_more (fun n hn => (hnames n hn).2) (fun n hn => (htarget n hn).2) hclosed hrest

/-- A path below the root goes on with a name. -/
theorem text_head_of_name (separator : α) {name : List α} (hname : name ≠ []) (names : List (List α)) :
    ∃ c more, c ∈ name ∧ text separator (name :: names) = separator :: c :: more := by
  obtain ⟨c, cs, rfl⟩ := List.exists_cons_of_ne_nil hname
  exact ⟨c, cs ++ below separator names, List.mem_cons_self, rfl⟩

/-- No two separators stand side by side below the root. -/
theorem below_ne_adjacent {names : List (List α)} (hnames : ∀ name ∈ names, name ≠ [] ∧ separator ∉ name)
    (front rest : List α) : below separator names ≠ front ++ separator :: separator :: rest := by
  induction names generalizing front with
  | nil =>
    intro h
    simp [below] at h
  | cons name names ih =>
    intro h
    obtain ⟨⟨hname, hfree⟩, hothers⟩ := List.forall_mem_cons.mp hnames
    have hbelow : below separator (name :: names) = separator :: (name ++ below separator names) := rfl
    rw [hbelow] at h
    cases front with
    | nil =>
      obtain ⟨c, cs, rfl⟩ := List.exists_cons_of_ne_nil hname
      obtain ⟨rfl, -⟩ := List.cons.inj (List.cons.inj h).2
      exact hfree List.mem_cons_self
    | cons f front =>
      obtain ⟨-, htail⟩ := List.cons.inj h
      rcases List.append_eq_append_iff.mp htail with ⟨more, -, hmore⟩ | ⟨more, hsplit, hmore⟩
      · exact ih hothers more hmore
      · cases more with
        | nil => exact ih hothers [] hmore.symm
        | cons c more =>
          obtain ⟨rfl, -⟩ := List.cons.inj hmore
          apply hfree
          rw [hsplit]
          exact List.mem_append_right _ List.mem_cons_self

/-- The text of a path has no two separators side by side. -/
theorem text_ne_adjacent {names : List (List α)} (hnames : ∀ name ∈ names, name ≠ [] ∧ separator ∉ name)
    (front rest : List α) : text separator names ≠ front ++ separator :: separator :: rest := by
  cases names with
  | nil =>
    intro h
    have hlen := congrArg List.length h
    simp [text] at hlen
    omega
  | cons name names => exact below_ne_adjacent hnames front rest

/-- Only the root ends with a separator. -/
theorem text_ne_append_separator {names : List (List α)} (hnames : ∀ name ∈ names, name ≠ [] ∧ separator ∉ name)
    {front : List α} (hfront : front ≠ []) : text separator names ≠ front ++ [separator] := by
  intro h
  obtain rfl | ⟨init, last, rfl⟩ := List.eq_nil_or_concat' names
  · have hlen : 1 = (front ++ [separator]).length := congrArg List.length h
    have hpos := List.length_pos_iff.mpr hfront
    rw [List.length_append, List.length_singleton] at hlen
    omega
  · obtain ⟨hname, hfree⟩ := hnames last (List.mem_append_right _ (List.mem_singleton_self last))
    have htext : text separator (init ++ [last]) = below separator init ++ separator :: last := by
      have hlast : below separator [last] = separator :: last := List.append_nil _
      rw [← hlast, ← below_append]
      cases init <;> rfl
    obtain ⟨before, c, rfl⟩ := (List.eq_nil_or_concat' last).resolve_left hname
    have hend : (below separator init ++ separator :: before) ++ [c] = front ++ [separator] := by
      rw [← h, htext]
      simp
    obtain rfl : c = separator := List.singleton_inj.mp (List.append_inj' hend rfl).2
    exact hfree (List.mem_append_right _ (List.mem_singleton_self c))

end tree_path
