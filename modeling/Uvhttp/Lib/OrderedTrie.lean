import Mathlib.Tactic

/-! Tries whose branches are kept in the order of their creation, some of them
wildcards: depth-first search with backtracking, insertion, and what a search
finds after a list of insertions. -/

namespace ordered_trie

/-- The label of a branch. A wildcard accepts every symbol. -/
structure Label (α : Type) where
  name : α
  wildcard : Bool
  deriving DecidableEq, Repr

/-- The children of a node in their order: the first one, with its label, its
value and its children, and its later siblings. -/
inductive Forest (α V : Type) where
  | nil
  | cons (label : Label α) (value : Option V) (children siblings : Forest α V)
  deriving DecidableEq, Repr

variable {α V H : Type} [DecidableEq α]

def Label.accepts (label : Label α) (x : α) : Bool := label.wildcard || label.name = x

/-- Whether a branch with these labels is open to a word. -/
def accepts_all : List (Label α) → List α → Bool
  | [], [] => true
  | label :: labels, x :: xs => label.accepts x && accepts_all labels xs
  | _, _ => false

namespace Forest

section search

variable (serve : V → Option H)

/-- Depth-first search for the word `x :: xs`: the first node that its labels
lead to and whose value serves. -/
def find : Forest α V → α → List α → Option H
  | nil, _, _ => none
  | cons label value children siblings, x, xs =>
    (if label.accepts x then
      match xs with
      | [] => value.bind serve
      | y :: ys => find children y ys
    else none) <|> find siblings x xs

theorem find_last (label : Label α) (value : Option V) (children siblings : Forest α V) (x : α) :
    (cons label value children siblings).find serve x [] =
      ((if label.accepts x then value.bind serve else none) <|> siblings.find serve x []) := rfl

theorem find_more (label : Label α) (value : Option V) (children siblings : Forest α V) (x y : α) (ys : List α) :
    (cons label value children siblings).find serve x (y :: ys) =
      ((if label.accepts x then children.find serve y ys else none) <|> siblings.find serve x (y :: ys)) := rfl

/-- The values of a forest with the labels that lead to them, in the order in
which the search meets them. -/
def entries : Forest α V → List (List (Label α) × V)
  | nil => []
  | cons label value children siblings =>
    value.toList.map ([label], ·) ++ (entries children).map (fun e => (label :: e.1, e.2)) ++ entries siblings

omit [DecidableEq α] in
theorem entries_ne_nil {f : Forest α V} {labels : List (Label α)} {value : V} (h : (labels, value) ∈ f.entries) :
    labels ≠ [] := by
  induction f with
  | nil => cases h
  | cons label value children siblings ihchildren ihsiblings =>
    simp only [entries, List.mem_append, List.mem_map, Prod.mk.injEq] at h
    rcases h with (⟨v, -, rfl, -⟩ | ⟨e, -, rfl, -⟩) | h
    · exact List.cons_ne_nil _ _
    · exact List.cons_ne_nil _ _
    · exact ihsiblings h

theorem findSome_under (label : Label α) (children : List (List (Label α) × V)) (x : α) (xs : List α) :
    (children.map fun e => (label :: e.1, e.2)).findSome?
        (fun e => if accepts_all e.1 (x :: xs) then serve e.2 else none) =
      if label.accepts x then children.findSome? fun e => if accepts_all e.1 xs then serve e.2 else none
      else none := by
  rw [List.findSome?_map]
  cases haccepts : label.accepts x with
  | true => simp [Function.comp_def, accepts_all, haccepts]
  | false => simp [Function.comp_def, accepts_all, haccepts]

theorem findSome_own (label : Label α) (value : Option V) (x : α) (xs : List α) :
    (value.toList.map (([label], ·) : V → List (Label α) × V)).findSome?
        (fun e => if accepts_all e.1 (x :: xs) then serve e.2 else none) =
      if label.accepts x ∧ xs = [] then value.bind serve else none := by
  cases value with
  | none => simp
  | some v =>
    cases xs with
    | nil => simp [accepts_all]
    | cons y ys => simp [accepts_all]

/-- What the search finds: the first entry whose labels accept the word and
whose value serves. -/
theorem find_eq_findSome (f : Forest α V) (x : α) (xs : List α) :
    f.find serve x xs = f.entries.findSome? fun e => if accepts_all e.1 (x :: xs) then serve e.2 else none := by
  induction f generalizing x xs with
  | nil => rfl
  | cons label value children siblings ihchildren ihsiblings =>
    rw [entries, List.findSome?_append, List.findSome?_append, findSome_own, findSome_under, ← ihsiblings]
    cases xs with
    | nil =>
      have hbelow : (children.entries.findSome? fun e => if accepts_all e.1 [] then serve e.2 else none) = none := by
        rw [List.findSome?_eq_none_iff]
        intro e he
        obtain ⟨l, ls, hlabels⟩ := List.exists_cons_of_ne_nil (entries_ne_nil he)
        simp [hlabels, accepts_all]
      rw [find_last, hbelow]
      simp
    | cons y ys =>
      rw [find_more, ihchildren]
      simp

end search

section insertion

variable (store : Label α → Label α)

/-- A branch of new nodes. -/
def chain (value : V) : Label α → List (Label α) → Forest α V
  | label, [] => cons (store label) (some value) nil nil
  | label, next :: labels => cons (store label) none (chain value next labels) nil

/-- Insertion of a value: follow the first branch of the same name at each
level, and make new branches behind the others. What is kept of a new label is
up to `store`. -/
def insert (value : V) : Forest α V → Label α → List (Label α) → Forest α V
  | nil, label, labels => chain store value label labels
  | cons first old children siblings, label, labels =>
    if first.name = label.name then
      match labels with
      | [] => cons first (some value) children siblings
      | next :: labels => cons first old (insert value children next labels) siblings
    else cons first old children (insert value siblings label labels)

variable {store}

theorem insert_congr {store' : Label α → Label α} {label : Label α} {labels : List (Label α)}
    (h : ∀ l ∈ label :: labels, store l = store' l) (value : V) (f : Forest α V) :
    f.insert store value label labels = f.insert store' value label labels := by
  have hchain : ∀ (labels : List (Label α)) (label : Label α), (∀ l ∈ label :: labels, store l = store' l) →
      chain store value label labels = chain store' value label labels := by
    intro labels
    induction labels with
    | nil =>
      intro label h
      rw [chain, chain, h label List.mem_cons_self]
    | cons next labels ih =>
      intro label h
      rw [chain, chain, h label List.mem_cons_self, ih next fun l hl => h l (List.mem_cons_of_mem _ hl)]
  induction f generalizing label labels with
  | nil => exact hchain labels label h
  | cons first old children siblings ihchildren ihsiblings =>
    rw [insert.eq_def, insert.eq_def]
    dsimp only
    rw [ihsiblings h]
    cases labels with
    | nil => rfl
    | cons next labels =>
      dsimp only
      rw [ihchildren fun l hl => h l (List.mem_cons_of_mem _ hl)]

omit [DecidableEq α] in
/-- All labels of a forest have a property. -/
def All (P : Label α → Prop) : Forest α V → Prop
  | nil => True
  | cons label _ children siblings => P label ∧ All P children ∧ All P siblings

omit [DecidableEq α] in
theorem all_chain {P : Label α → Prop} {label : Label α} {labels : List (Label α)}
    (hstore : ∀ l ∈ label :: labels, P (store l)) (value : V) : (chain store value label labels).All P := by
  induction labels generalizing label with
  | nil => exact ⟨hstore label List.mem_cons_self, trivial, trivial⟩
  | cons next labels ih =>
    exact ⟨hstore label List.mem_cons_self, ih fun l hl => hstore l (List.mem_cons_of_mem _ hl), trivial⟩

theorem all_insert {P : Label α → Prop} {f : Forest α V} (h : f.All P) {label : Label α} {labels : List (Label α)}
    (hstore : ∀ l ∈ label :: labels, P (store l)) (value : V) : (f.insert store value label labels).All P := by
  induction f generalizing label labels with
  | nil => exact all_chain hstore value
  | cons first old children siblings ihchildren ihsiblings =>
    obtain ⟨hfirst, hchildren, hsiblings⟩ := h
    rw [insert.eq_def]
    dsimp only
    split
    · cases labels with
      | nil => exact ⟨hfirst, hchildren, hsiblings⟩
      | cons next labels =>
        exact ⟨hfirst, ihchildren hchildren fun l hl => hstore l (List.mem_cons_of_mem _ hl), hsiblings⟩
    · exact ⟨hfirst, hchildren, ihsiblings hsiblings hstore⟩

omit [DecidableEq α] in
theorem All.imp {P Q : Label α → Prop} (himp : ∀ label, P label → Q label) {f : Forest α V} (h : f.All P) :
    f.All Q := by
  induction f with
  | nil => trivial
  | cons label value children siblings ihchildren ihsiblings =>
    exact ⟨himp label h.1, ihchildren h.2.1, ihsiblings h.2.2⟩

/-- A word with a symbol that no label accepts finds nothing. -/
theorem find_eq_none_of_mem {serve : V → Option H} {f : Forest α V} {symbol : α}
    (hf : f.All fun label => label.accepts symbol = false) {x : α} {xs : List α} (hsymbol : symbol ∈ x :: xs) :
    f.find serve x xs = none := by
  induction f generalizing x xs with
  | nil => rfl
  | cons label value children siblings ihchildren ihsiblings =>
    obtain ⟨hlabel, hchildren, hsiblings⟩ := hf
    have hbehind := ihsiblings hsiblings hsymbol
    rcases List.mem_cons.mp hsymbol with rfl | hlater
    · rw [find.eq_def]
      simpa [hlabel] using hbehind
    · cases xs with
      | nil => cases hlater
      | cons y ys =>
        rw [find_more, hbehind, ihchildren hchildren hlater]
        simp

theorem find_chain_isSome {serve : V → Option H} {value : V} (hserve : (serve value).isSome = true)
    (label : Label α) (labels : List (Label α)) :
    ((chain store value label labels).find serve (store label).name
      (labels.map fun l => (store l).name)).isSome = true := by
  have haccepts : ∀ l : Label α, l.accepts l.name = true := fun l => by simp [Label.accepts]
  induction labels generalizing label with
  | nil =>
    rw [chain, List.map_nil, find_last, haccepts]
    simpa [find] using hserve
  | cons next labels ih =>
    rw [chain, List.map_cons, find_more, haccepts]
    simpa [find] using ih next

/-- A search along the stored names of an inserted branch finds something,
provided that a name that is found among the labels is stored as it is. -/
theorem find_insert_isSome {serve : V → Option H} {value : V} (hserve : (serve value).isSome = true)
    {f : Forest α V} (hf : f.All fun old => ∀ label : Label α, old.name = label.name → (store label).name = label.name)
    (label : Label α) (labels : List (Label α)) :
    ((f.insert store value label labels).find serve (store label).name
      (labels.map fun l => (store l).name)).isSome = true := by
  induction f generalizing label labels with
  | nil => exact find_chain_isSome hserve label labels
  | cons first old children siblings ihchildren ihsiblings =>
    obtain ⟨hfirst, hchildren, hsiblings⟩ := hf
    rw [insert.eq_def]
    dsimp only
    by_cases hsame : first.name = label.name
    · have haccepts : first.accepts (store label).name = true := by simp [Label.accepts, hfirst label hsame, hsame]
      rw [if_pos hsame]
      cases labels with
      | nil =>
        rw [List.map_nil, find_last, haccepts]
        simp [hserve]
      | cons next labels =>
        rw [List.map_cons, find_more, haccepts]
        have hbelow := ihchildren hchildren next labels
        simp [hbelow]
    · rw [if_neg hsame]
      have hbehind := ihsiblings hsiblings label labels
      cases labels with
      | nil =>
        rw [List.map_nil, find_last]
        simp [show (siblings.insert store value label []).find serve (store label).name [] |>.isSome from hbehind]
      | cons next labels =>
        rw [List.map_cons, find_more]
        simp only [List.map_cons] at hbehind
        simp [hbehind]

end insertion

end Forest

end ordered_trie
