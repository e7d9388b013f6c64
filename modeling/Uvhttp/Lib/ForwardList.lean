import Mathlib.Tactic

/-! Singly linked lists in a heap, and the loops that walk along them with a
pointer to the current cell and one to the cell before it. A walk is `none` when
it goes through an invalid pointer or does not come to its end. -/

namespace forward_list

variable {α : Type}

structure Cell (α : Type) where
  data : α
  next : Option Nat

/-- The cells that are allocated, and the first of the list. -/
structure Chain (α : Type) where
  cells : Nat → Option (Cell α)
  head : Option Nat

/-- An allocator of cells: it answers nothing, or an address that is not in use. -/
structure Allocator (α : Type) where
  alloc : (Nat → Option (Cell α)) → Option Nat
  unused : ∀ {cells p}, alloc cells = some p → cells p = none

/-- An allocator with two addresses. -/
def Allocator.two : Allocator α where
  alloc cells := if (cells 0).isNone then some 0 else if (cells 1).isNone then some 1 else none
  unused := by
    intro cells p h
    split_ifs at h with hzero hone
    · obtain rfl := Option.some.inj h
      exact Option.isNone_iff_eq_none.mp hzero
    · obtain rfl := Option.some.inj h
      exact Option.isNone_iff_eq_none.mp hone

/-- Visit one element after the other up to the first that accepts; the visits hand on
a state. -/
def seek {σ : Type} (visit : α → σ → Bool × σ) : List α → σ → Option α × σ
  | [], s => (none, s)
  | a :: as, s =>
    match visit a s with
    | (true, s) => (some a, s)
    | (false, s) => seek visit as s

/-- Change one element after the other; the changes hand on a state. -/
def map_with {σ : Type} (change : α → σ → α × σ) : List α → σ → List α × σ
  | [], s => ([], s)
  | a :: as, s =>
    let (b, s) := change a s
    let (bs, s) := map_with change as s
    (b :: bs, s)

namespace Chain

/-- Let the pointer that leads to the current cell lead elsewhere: the `next` of
the cell before, or the head of the list if there is none. -/
def redirect (c : Chain α) (prev next : Option Nat) : Option (Chain α) :=
  match prev with
  | none => some { c with head := next }
  | some p => (c.cells p).map fun cell => { c with cells := Function.update c.cells p (some { cell with next }) }

def release (c : Chain α) (p : Nat) : Chain α := { c with cells := Function.update c.cells p none }

/-- Put a new cell before the list. -/
def push (c : Chain α) (p : Nat) (a : α) : Chain α where
  cells := Function.update c.cells p (some ⟨a, c.head⟩)
  head := some p

/-- Walk along the list and take out every cell that is to go; the data of those
cells, in the order of the walk. -/
def sweep (goes : α → Bool) : Nat → Chain α → Option Nat → Option Nat → Option (Chain α × List α)
  | _, c, _, none => some (c, [])
  | 0, _, _, some _ => none
  | fuel + 1, c, prev, some p => do
    let cell ← c.cells p
    if goes cell.data then
      let c ← c.redirect prev cell.next
      let (c, gone) ← sweep goes fuel (c.release p) prev cell.next
      some (c, cell.data :: gone)
    else sweep goes fuel c (some p) cell.next

/-- Walk along the list up to the first cell that matches, and take it out. -/
def take_out (found : α → Bool) : Nat → Chain α → Option Nat → Option Nat → Option (Chain α × Option α)
  | _, c, _, none => some (c, none)
  | 0, _, _, some _ => none
  | fuel + 1, c, prev, some p => do
    let cell ← c.cells p
    if found cell.data then
      let c ← c.redirect prev cell.next
      some (c.release p, some cell.data)
    else take_out found fuel c (some p) cell.next

/-- Walk along the list up to the first cell that matches, and change its data. -/
def alter (found : α → Bool) (change : α → α) : Nat → Chain α → Option Nat → Option (Chain α)
  | _, c, none => some c
  | 0, _, some _ => none
  | fuel + 1, c, some p => do
    let cell ← c.cells p
    if found cell.data then
      some { c with cells := Function.update c.cells p (some { cell with data := change cell.data }) }
    else alter found change fuel c cell.next

/-- Walk along the list and change the data of every cell. -/
def rewrite (change : α → α) : Nat → Chain α → Option Nat → Option (Chain α)
  | _, c, none => some c
  | 0, _, some _ => none
  | fuel + 1, c, some p => do
    let cell ← c.cells p
    rewrite change fuel { c with cells := Function.update c.cells p (some { cell with data := change cell.data }) }
      cell.next

/-- Walk along the list and change the data of every cell; the changes hand on a state. -/
def rewrite_with {σ : Type} (change : α → σ → α × σ) : Nat → Chain α → Option Nat → σ → Option (Chain α × σ)
  | _, c, none, s => some (c, s)
  | 0, _, some _, _ => none
  | fuel + 1, c, some p, s => do
    let cell ← c.cells p
    let (data, s) := change cell.data s
    rewrite_with change fuel { c with cells := Function.update c.cells p (some { cell with data }) } cell.next s

/-- Walk along the list and visit its cells up to the first that accepts. -/
def seek {σ : Type} (visit : α → σ → Bool × σ) : Nat → Chain α → Option Nat → σ → Option (Option α × σ)
  | _, _, none, s => some (none, s)
  | 0, _, some _, _ => none
  | fuel + 1, c, some p, s => do
    let cell ← c.cells p
    match visit cell.data s with
    | (true, s) => some (some cell.data, s)
    | (false, s) => seek visit fuel c cell.next s

/-- Walk along the list up to the first cell that matches. -/
def find (found : α → Bool) (fuel : Nat) (c : Chain α) (p : Option Nat) : Option (Option α) :=
  (c.seek (fun a _ => (found a, ())) fuel p ()).map Prod.fst

/-- Walk along the list and count the cells that match. -/
def count (found : α → Bool) : Nat → Chain α → Option Nat → Option Nat
  | _, _, none => some 0
  | 0, _, some _ => none
  | fuel + 1, c, some p => do
    let cell ← c.cells p
    let later ← count found fuel c cell.next
    some (if found cell.data then later + 1 else later)

end Chain

/-- The address of the first cell, or what follows the cells. -/
def first (l : List (Nat × α)) (last : Option Nat) : Option Nat := (l.head?.map Prod.fst).or last

/-- Cells that lead from one to the next in the order of a list, and from the last
to a pointer. -/
def Segment (cells : Nat → Option (Cell α)) : List (Nat × α) → Option Nat → Prop
  | [], _ => True
  | (p, a) :: rest, last => cells p = some ⟨a, first rest last⟩ ∧ Segment cells rest last

/-- The chain is made of these cells, all different. -/
structure Chain.Holds (c : Chain α) (l : List (Nat × α)) : Prop where
  head : c.head = first l none
  segment : Segment c.cells l none
  nodup : (l.map Prod.fst).Nodup

section segments

variable {cells cells' : Nat → Option (Cell α)} {l before after : List (Nat × α)} {last : Option Nat}

theorem Segment.congr (h : Segment cells l last) (hsame : ∀ x ∈ l, cells' x.1 = cells x.1) :
    Segment cells' l last := by
  induction l with
  | nil => trivial
  | cons x rest ih =>
    obtain ⟨hx, hrest⟩ := h
    refine ⟨?_, ih hrest fun y hy => hsame y (List.mem_cons_of_mem x hy)⟩
    rw [hsame x List.mem_cons_self]
    exact hx

theorem first_append : first (before ++ after) last = first before (first after last) := by
  cases before with
  | nil => rfl
  | cons x before => rfl

theorem segment_append : Segment cells (before ++ after) last ↔
    Segment cells before (first after last) ∧ Segment cells after last := by
  induction before with
  | nil => exact ⟨fun h => ⟨trivial, h⟩, fun h => h.2⟩
  | cons x before ih =>
    obtain ⟨p, a⟩ := x
    rw [List.cons_append, Segment, Segment, ih, first_append, and_assoc]

theorem Segment.isSome (h : Segment cells l last) {x : Nat × α} (hx : x ∈ l) : cells x.1 ≠ none := by
  induction l with
  | nil => cases hx
  | cons y rest ih =>
    rcases List.mem_cons.mp hx with rfl | hlater
    · rw [h.1]
      exact Option.some_ne_none _
    · exact ih h.2 hlater

end segments

section chains

variable {c : Chain α} {before after : List (Nat × α)} {p : Nat} {a : α}

/-- The address of the last cell. -/
def final (l : List (Nat × α)) : Option Nat := l.getLast?.map Prod.fst

theorem final_concat (l : List (Nat × α)) (x : Nat × α) : final (l ++ [x]) = some x.1 := by
  rw [final, List.getLast?_concat, Option.map_some]

/-- The cell at hand. -/
theorem Chain.Holds.cell (h : c.Holds (before ++ (p, a) :: after)) :
    c.cells p = some ⟨a, first after none⟩ :=
  (segment_append.mp h.segment).2.1

/-- The other cells have other addresses. -/
theorem nodup_around (h : ((before ++ (p, a) :: after).map Prod.fst).Nodup) :
    ((before ++ after).map Prod.fst).Nodup ∧ ∀ x ∈ before ++ after, x.1 ≠ p := by
  rw [List.map_append, List.map_cons, List.nodup_middle, List.nodup_cons, ← List.map_append] at h
  refine ⟨h.2, ?_⟩
  intro x hx heq
  apply h.1
  rw [← heq]
  exact List.mem_map.mpr ⟨x, hx, rfl⟩

/-- Taking out the current cell leaves the others as they were. -/
theorem Chain.Holds.redirect (h : c.Holds (before ++ (p, a) :: after)) :
    ∃ c', c.redirect (final before) (first after none) = some c' ∧ (c'.release p).Holds (before ++ after) := by
  obtain ⟨hhead, hsegment, hnodup⟩ := h
  obtain ⟨hbefore, hcell, hafter⟩ := segment_append.mp hsegment
  obtain ⟨hdistinct, hp⟩ := nodup_around hnodup
  obtain rfl | ⟨front, q, rfl⟩ := List.eq_nil_or_concat' before
  · refine ⟨{ c with head := first after none }, rfl, ⟨rfl, ?_, hdistinct⟩⟩
    apply hafter.congr
    intro x hx
    exact Function.update_of_ne (hp x hx) _ _
  · obtain ⟨q, b⟩ := q
    obtain ⟨hfront, hlast, -⟩ := segment_append.mp hbefore
    rw [final_concat]
    simp only [Chain.redirect, hlast, Option.map_some]
    refine ⟨_, rfl, ?_, ?_, hdistinct⟩
    · simp only [Chain.release, hhead, first_append]
      cases front with
      | nil => rfl
      | cons x front => rfl
    · have hq : ∀ x ∈ front ++ after, x.1 ≠ q := by
        rw [List.append_assoc, List.singleton_append] at hdistinct
        exact (nodup_around hdistinct).2
      have hne : q ≠ p := hp (q, b) (by simp)
      rw [List.append_assoc, segment_append]
      have hkept : ∀ x ∈ front ++ after, Function.update (Function.update c.cells q
          (some ⟨b, first after none⟩)) p none x.1 = c.cells x.1 := by
        intro x hx
        have hxp : x.1 ≠ p := by
          apply hp x
          simp only [List.mem_append, List.mem_singleton] at hx ⊢
          tauto
        rw [Function.update_of_ne hxp, Function.update_of_ne (hq x hx)]
      refine ⟨?_, ?_, ?_⟩
      · apply hfront.congr
        intro x hx
        exact hkept x (List.mem_append_left _ hx)
      · simp only [Chain.release]
        rw [Function.update_of_ne hne, Function.update_self]
        rfl
      · apply hafter.congr
        intro x hx
        exact hkept x (List.mem_append_right _ hx)

/-- Writing the data of the current cell leaves the list as it was. -/
theorem Chain.Holds.write (h : c.Holds (before ++ (p, a) :: after)) (b : α) :
    Chain.Holds { c with cells := Function.update c.cells p (some ⟨b, first after none⟩) }
      (before ++ (p, b) :: after) := by
  obtain ⟨hhead, hsegment, hnodup⟩ := h
  obtain ⟨hbefore, hcell, hafter⟩ := segment_append.mp hsegment
  obtain ⟨-, hp⟩ := nodup_around hnodup
  refine ⟨?_, segment_append.mpr ⟨?_, ?_, ?_⟩, ?_⟩
  · rw [first_append] at hhead ⊢
    exact hhead
  · apply hbefore.congr
    intro x hx
    exact Function.update_of_ne (hp x (List.mem_append_left _ hx)) _ _
  · exact Function.update_self ..
  · apply hafter.congr
    intro x hx
    exact Function.update_of_ne (hp x (List.mem_append_right _ hx)) _ _
  · rw [List.map_append, List.map_cons] at hnodup ⊢
    exact hnodup

theorem Chain.Holds.sweep (goes : α → Bool) {rest : List (Nat × α)} {fuel : Nat} (hfuel : rest.length ≤ fuel)
    (h : c.Holds (before ++ rest)) :
    ∃ c', c.sweep goes fuel (final before) (first rest none) = some (c', (rest.map Prod.snd).filter goes) ∧
      c'.Holds (before ++ rest.filter fun x => !goes x.2) := by
  induction rest generalizing c before fuel with
  | nil =>
    refine ⟨c, ?_, h⟩
    cases fuel with
    | zero => rfl
    | succ fuel => rfl
  | cons x rest ih =>
    obtain ⟨p, a⟩ := x
    obtain ⟨fuel, rfl⟩ := Nat.exists_eq_add_of_le' (Nat.le_trans (Nat.succ_le_succ (Nat.zero_le _)) hfuel)
    have hless : rest.length ≤ fuel := Nat.le_of_succ_le_succ hfuel
    change ∃ c', Chain.sweep goes (fuel + 1) c (final before) (some p) = _ ∧ _
    simp only [Chain.sweep, h.cell, Option.bind_eq_bind, Option.bind_some]
    cases hgoes : goes a with
    | true =>
      obtain ⟨after, hredirect, hholds⟩ := h.redirect
      obtain ⟨c', heq, hdone⟩ := ih hless hholds
      refine ⟨c', ?_, ?_⟩
      · simp only [if_true, hredirect, Option.bind_some, heq, List.map_cons, List.filter_cons, hgoes]
      · simpa only [List.filter_cons, hgoes, Bool.not_true, Bool.false_eq_true, if_false] using hdone
    | false =>
      rw [List.append_cons] at h
      obtain ⟨c', heq, hdone⟩ := ih hless h
      rw [final_concat] at heq
      refine ⟨c', ?_, ?_⟩
      · simp only [Bool.false_eq_true, if_false, heq, List.map_cons, List.filter_cons, hgoes]
      · simpa only [List.filter_cons, hgoes, Bool.not_false, if_true, List.append_assoc,
          List.singleton_append] using hdone

theorem Chain.Holds.take_out (found : α → Bool) {rest : List (Nat × α)} {fuel : Nat} (hfuel : rest.length ≤ fuel)
    (h : c.Holds (before ++ rest)) :
    ∃ c', c.take_out found fuel (final before) (first rest none) = some (c', (rest.map Prod.snd).find? found) ∧
      c'.Holds (before ++ rest.eraseP fun x => found x.2) := by
  induction rest generalizing c before fuel with
  | nil =>
    refine ⟨c, ?_, h⟩
    cases fuel with
    | zero => rfl
    | succ fuel => rfl
  | cons x rest ih =>
    obtain ⟨p, a⟩ := x
    obtain ⟨fuel, rfl⟩ := Nat.exists_eq_add_of_le' (Nat.le_trans (Nat.succ_le_succ (Nat.zero_le _)) hfuel)
    have hless : rest.length ≤ fuel := Nat.le_of_succ_le_succ hfuel
    change ∃ c', Chain.take_out found (fuel + 1) c (final before) (some p) = _ ∧ _
    simp only [Chain.take_out, h.cell, Option.bind_eq_bind, Option.bind_some]
    cases hfound : found a with
    | true =>
      obtain ⟨after, hredirect, hholds⟩ := h.redirect
      refine ⟨after.release p, ?_, ?_⟩
      · simp only [if_true, hredirect, Option.bind_some, List.map_cons, List.find?_cons, hfound]
      · simpa only [List.eraseP_cons, hfound, cond_true] using hholds
    | false =>
      rw [List.append_cons] at h
      obtain ⟨c', heq, hdone⟩ := ih hless h
      rw [final_concat] at heq
      refine ⟨c', ?_, ?_⟩
      · simp only [Bool.false_eq_true, if_false, heq, List.map_cons, List.find?_cons, hfound]
      · simpa only [List.eraseP_cons, hfound, cond_false, List.append_assoc, List.singleton_append] using hdone

/-- Change the first element that matches. -/
def alter_first (found : α → Bool) (change : α → α) : List α → List α
  | [] => []
  | a :: as => if found a then change a :: as else a :: alter_first found change as

theorem Chain.Holds.alter (found : α → Bool) (change : α → α) {rest : List (Nat × α)} {fuel : Nat}
    (hfuel : rest.length ≤ fuel) (h : c.Holds (before ++ rest)) :
    ∃ c' rest', c.alter found change fuel (first rest none) = some c' ∧ c'.Holds (before ++ rest') ∧
      rest'.map Prod.snd = alter_first found change (rest.map Prod.snd) := by
  induction rest generalizing before fuel with
  | nil =>
    refine ⟨c, [], ?_, h, rfl⟩
    cases fuel with
    | zero => rfl
    | succ fuel => rfl
  | cons x rest ih =>
    obtain ⟨p, a⟩ := x
    obtain ⟨fuel, rfl⟩ := Nat.exists_eq_add_of_le' (Nat.le_trans (Nat.succ_le_succ (Nat.zero_le _)) hfuel)
    have hless : rest.length ≤ fuel := Nat.le_of_succ_le_succ hfuel
    change ∃ c' rest', Chain.alter found change (fuel + 1) c (some p) = _ ∧ _
    simp only [Chain.alter, h.cell, Option.bind_eq_bind, Option.bind_some]
    cases hfound : found a with
    | true =>
      refine ⟨_, (p, change a) :: rest, rfl, h.write (change a), ?_⟩
      simp only [List.map_cons, alter_first, hfound, if_true]
    | false =>
      rw [List.append_cons] at h
      obtain ⟨c', rest', heq, hdone, hdata⟩ := ih hless h
      refine ⟨c', (p, a) :: rest', ?_, ?_, ?_⟩
      · simp only [Bool.false_eq_true, if_false, heq]
      · simpa only [List.append_assoc, List.singleton_append] using hdone
      · simp only [List.map_cons, alter_first, hfound, Bool.false_eq_true, if_false, hdata]

theorem Chain.Holds.rewrite (change : α → α) {rest : List (Nat × α)} {fuel : Nat} (hfuel : rest.length ≤ fuel)
    (h : c.Holds (before ++ rest)) :
    ∃ c', c.rewrite change fuel (first rest none) = some c' ∧
      c'.Holds (before ++ rest.map fun x => (x.1, change x.2)) := by
  induction rest generalizing c before fuel with
  | nil =>
    refine ⟨c, ?_, h⟩
    cases fuel with
    | zero => rfl
    | succ fuel => rfl
  | cons x rest ih =>
    obtain ⟨p, a⟩ := x
    obtain ⟨fuel, rfl⟩ := Nat.exists_eq_add_of_le' (Nat.le_trans (Nat.succ_le_succ (Nat.zero_le _)) hfuel)
    have hless : rest.length ≤ fuel := Nat.le_of_succ_le_succ hfuel
    change ∃ c', Chain.rewrite change (fuel + 1) c (some p) = _ ∧ _
    simp only [Chain.rewrite, h.cell, Option.bind_eq_bind, Option.bind_some]
    have hwritten := h.write (change a)
    rw [List.append_cons] at hwritten
    obtain ⟨c', heq, hdone⟩ := ih hless hwritten
    refine ⟨c', heq, ?_⟩
    simpa only [List.map_cons, List.append_assoc, List.singleton_append] using hdone

theorem Chain.Holds.rewrite_with {σ : Type} (change : α → σ → α × σ) {rest : List (Nat × α)} {fuel : Nat}
    (hfuel : rest.length ≤ fuel) (h : c.Holds (before ++ rest)) (s : σ) :
    ∃ c' rest', c.rewrite_with change fuel (first rest none) s =
        some (c', (map_with change (rest.map Prod.snd) s).2) ∧
      c'.Holds (before ++ rest') ∧ rest'.map Prod.snd = (map_with change (rest.map Prod.snd) s).1 := by
  induction rest generalizing c before fuel s with
  | nil =>
    refine ⟨c, [], ?_, h, rfl⟩
    cases fuel with
    | zero => rfl
    | succ fuel => rfl
  | cons x rest ih =>
    obtain ⟨p, a⟩ := x
    obtain ⟨fuel, rfl⟩ := Nat.exists_eq_add_of_le' (Nat.le_trans (Nat.succ_le_succ (Nat.zero_le _)) hfuel)
    have hless : rest.length ≤ fuel := Nat.le_of_succ_le_succ hfuel
    change ∃ c' rest', Chain.rewrite_with change (fuel + 1) c (some p) s = _ ∧ _
    simp only [Chain.rewrite_with, h.cell, Option.bind_eq_bind, Option.bind_some, List.map_cons, map_with]
    have hwritten := h.write (change a s).1
    rw [List.append_cons] at hwritten
    obtain ⟨c', rest', heq, hdone, hdata⟩ := ih hless hwritten (change a s).2
    refine ⟨c', (p, (change a s).1) :: rest', heq, ?_, ?_⟩
    · simpa only [List.append_assoc, List.singleton_append] using hdone
    · rw [List.map_cons, hdata]

theorem Chain.Holds.seek {σ : Type} (visit : α → σ → Bool × σ) {rest : List (Nat × α)} {fuel : Nat}
    (hfuel : rest.length ≤ fuel) (h : c.Holds (before ++ rest)) (s : σ) :
    c.seek visit fuel (first rest none) s = some (forward_list.seek visit (rest.map Prod.snd) s) := by
  induction rest generalizing before fuel s with
  | nil =>
    cases fuel with
    | zero => rfl
    | succ fuel => rfl
  | cons x rest ih =>
    obtain ⟨p, a⟩ := x
    obtain ⟨fuel, rfl⟩ := Nat.exists_eq_add_of_le' (Nat.le_trans (Nat.succ_le_succ (Nat.zero_le _)) hfuel)
    have hless : rest.length ≤ fuel := Nat.le_of_succ_le_succ hfuel
    change Chain.seek visit (fuel + 1) c (some p) s = _
    have hcell := h.cell
    rw [List.append_cons] at h
    simp only [Chain.seek, hcell, Option.bind_eq_bind, Option.bind_some, List.map_cons, forward_list.seek]
    obtain ⟨accepted, t⟩ := visit a s
    cases accepted with
    | true => rfl
    | false => exact ih hless h t

theorem Chain.Holds.count (found : α → Bool) {rest : List (Nat × α)} {fuel : Nat} (hfuel : rest.length ≤ fuel)
    (h : c.Holds (before ++ rest)) :
    c.count found fuel (first rest none) = some ((rest.map Prod.snd).countP found) := by
  induction rest generalizing before fuel with
  | nil =>
    cases fuel with
    | zero => rfl
    | succ fuel => rfl
  | cons x rest ih =>
    obtain ⟨p, a⟩ := x
    obtain ⟨fuel, rfl⟩ := Nat.exists_eq_add_of_le' (Nat.le_trans (Nat.succ_le_succ (Nat.zero_le _)) hfuel)
    have hless : rest.length ≤ fuel := Nat.le_of_succ_le_succ hfuel
    change Chain.count found (fuel + 1) c (some p) = _
    have hcell := h.cell
    rw [List.append_cons] at h
    simp only [Chain.count, hcell, Option.bind_eq_bind, Option.bind_some, ih hless h, List.map_cons, List.countP_cons]
    cases found a with
    | true => rfl
    | false => rfl

end chains

section represented

variable {c : Chain α} {as : List α} {fuel : Nat}

/-- The data of the cells in the order of the chain. -/
def Chain.Represents (c : Chain α) (as : List α) : Prop := ∃ l, c.Holds l ∧ l.map Prod.snd = as

theorem empty_represents : Chain.Represents ⟨fun _ => none, none⟩ ([] : List α) :=
  ⟨[], ⟨rfl, trivial, List.nodup_nil⟩, rfl⟩

/-- The only cell. -/
theorem Chain.Represents.single {a : α} (h : c.Represents [a]) : ∃ p, c.head = some p ∧ c.cells p = some ⟨a, none⟩ := by
  obtain ⟨l, hholds, hdata⟩ := h
  obtain ⟨⟨p, b⟩, rfl, rfl⟩ := List.map_eq_singleton_iff.mp hdata
  exact ⟨p, hholds.head, hholds.segment.1⟩

theorem Chain.Represents.push (h : c.Represents as) {p : Nat} (hfree : c.cells p = none) (a : α) :
    (c.push p a).Represents (a :: as) := by
  obtain ⟨l, hholds, rfl⟩ := h
  have hp : ∀ x ∈ l, x.1 ≠ p := by
    intro x hx heq
    have hsome := hholds.segment.isSome hx
    rw [heq, hfree] at hsome
    exact hsome rfl
  refine ⟨(p, a) :: l, ⟨rfl, ⟨?_, ?_⟩, ?_⟩, rfl⟩
  · rw [← hholds.head]
    exact Function.update_self ..
  · apply hholds.segment.congr
    intro x hx
    exact Function.update_of_ne (hp x hx) _ _
  · rw [List.map_cons, List.nodup_cons]
    refine ⟨?_, hholds.nodup⟩
    intro hmem
    obtain ⟨x, hx, heq⟩ := List.mem_map.mp hmem
    exact hp x hx heq

theorem Chain.Represents.sweep (h : c.Represents as) (goes : α → Bool) (hfuel : as.length ≤ fuel) :
    ∃ c', c.sweep goes fuel none c.head = some (c', as.filter goes) ∧ c'.Represents (as.filter fun a => !goes a) := by
  obtain ⟨l, hholds, rfl⟩ := h
  rw [List.length_map] at hfuel
  obtain ⟨c', heq, hdone⟩ := @Chain.Holds.sweep α c [] goes l fuel hfuel hholds
  refine ⟨c', ?_, ⟨_, hdone, ?_⟩⟩
  · rw [hholds.head]
    exact heq
  · rw [List.nil_append, List.filter_map]
    rfl

theorem Chain.Represents.take_out (h : c.Represents as) (found : α → Bool) (hfuel : as.length ≤ fuel) :
    ∃ c', c.take_out found fuel none c.head = some (c', as.find? found) ∧ c'.Represents (as.eraseP found) := by
  obtain ⟨l, hholds, rfl⟩ := h
  rw [List.length_map] at hfuel
  obtain ⟨c', heq, hdone⟩ := @Chain.Holds.take_out α c [] found l fuel hfuel hholds
  refine ⟨c', ?_, ⟨_, hdone, ?_⟩⟩
  · rw [hholds.head]
    exact heq
  · rw [List.nil_append, List.eraseP_map]
    rfl

theorem Chain.Represents.alter (h : c.Represents as) (found : α → Bool) (change : α → α) (hfuel : as.length ≤ fuel) :
    ∃ c', c.alter found change fuel c.head = some c' ∧ c'.Represents (alter_first found change as) := by
  obtain ⟨l, hholds, rfl⟩ := h
  rw [List.length_map] at hfuel
  obtain ⟨c', l', heq, hdone, hdata⟩ := @Chain.Holds.alter α c [] found change l fuel hfuel hholds
  refine ⟨c', ?_, ⟨l', hdone, hdata⟩⟩
  rw [hholds.head]
  exact heq

theorem Chain.Represents.rewrite (h : c.Represents as) (change : α → α) (hfuel : as.length ≤ fuel) :
    ∃ c', c.rewrite change fuel c.head = some c' ∧ c'.Represents (as.map change) := by
  obtain ⟨l, hholds, rfl⟩ := h
  rw [List.length_map] at hfuel
  obtain ⟨c', heq, hdone⟩ := @Chain.Holds.rewrite α c [] change l fuel hfuel hholds
  refine ⟨c', ?_, ⟨_, hdone, ?_⟩⟩
  · rw [hholds.head]
    exact heq
  · rw [List.nil_append, List.map_map, List.map_map]
    rfl

theorem Chain.Represents.rewrite_with {σ : Type} (h : c.Represents as) (change : α → σ → α × σ)
    (hfuel : as.length ≤ fuel) (s : σ) :
    ∃ c', c.rewrite_with change fuel c.head s = some (c', (map_with change as s).2) ∧
      c'.Represents (map_with change as s).1 := by
  obtain ⟨l, hholds, rfl⟩ := h
  rw [List.length_map] at hfuel
  obtain ⟨c', l', heq, hdone, hdata⟩ := @Chain.Holds.rewrite_with α c [] σ change l fuel hfuel hholds s
  refine ⟨c', ?_, ⟨l', hdone, hdata⟩⟩
  rw [hholds.head]
  exact heq

theorem Chain.Represents.seek {σ : Type} (h : c.Represents as) (visit : α → σ → Bool × σ) (hfuel : as.length ≤ fuel)
    (s : σ) : c.seek visit fuel c.head s = some (forward_list.seek visit as s) := by
  obtain ⟨l, hholds, rfl⟩ := h
  rw [List.length_map] at hfuel
  rw [hholds.head]
  exact @Chain.Holds.seek α c [] σ visit l fuel hfuel hholds s

theorem seek_eq_find? (found : α → Bool) : (forward_list.seek (fun a _ => (found a, ())) as ()).1 = as.find? found := by
  induction as with
  | nil => rfl
  | cons a as ih =>
    rw [List.find?_cons, forward_list.seek]
    cases found a with
    | true => rfl
    | false => exact ih

theorem Chain.Represents.find (h : c.Represents as) (found : α → Bool) (hfuel : as.length ≤ fuel) :
    c.find found fuel c.head = some (as.find? found) := by
  rw [Chain.find, h.seek _ hfuel, Option.map_some, seek_eq_find?]

theorem Chain.Represents.count (h : c.Represents as) (found : α → Bool) (hfuel : as.length ≤ fuel) :
    c.count found fuel c.head = some (as.countP found) := by
  obtain ⟨l, hholds, rfl⟩ := h
  rw [List.length_map] at hfuel
  rw [hholds.head]
  exact @Chain.Holds.count α c [] found l fuel hfuel hholds

end represented

section unique

variable {found : α → Bool} {as : List α}

theorem length_eraseP_add_find? :
    (as.eraseP found).length + (as.find? found).toList.length = as.length := by
  induction as with
  | nil => rfl
  | cons a as ih =>
    rw [List.eraseP_cons, List.find?_cons]
    cases found a with
    | true => rfl
    | false =>
      simp only [cond_false, List.length_cons]
      omega

/-- Where at most one element matches, taking out the first is taking out all. -/
theorem eraseP_eq_filter (h : as.Pairwise fun a b => ¬(found a = true ∧ found b = true)) :
    as.eraseP found = as.filter fun a => !found a := by
  induction as with
  | nil => rfl
  | cons a as ih =>
    obtain ⟨hfirst, hrest⟩ := List.pairwise_cons.mp h
    cases hfound : found a with
    | true =>
      rw [List.eraseP_cons_of_pos hfound, List.filter_cons_of_neg (by simp [hfound])]
      symm
      apply List.filter_eq_self.mpr
      intro b hb
      have hother := hfirst b hb
      simp only [hfound, true_and, Bool.not_eq_true] at hother
      rw [hother, Bool.not_false]
    | false =>
      rw [List.eraseP_cons_of_neg (by simp [hfound]), List.filter_cons_of_pos (by simp [hfound]), ih hrest]

/-- Where at most one element matches, changing the first is changing all. -/
theorem alter_first_eq_map (change : α → α) (h : as.Pairwise fun a b => ¬(found a = true ∧ found b = true)) :
    alter_first found change as = as.map fun a => if found a then change a else a := by
  induction as with
  | nil => rfl
  | cons a as ih =>
    obtain ⟨hfirst, hrest⟩ := List.pairwise_cons.mp h
    rw [alter_first, List.map_cons]
    cases hfound : found a with
    | true =>
      simp only [if_true]
      congr 1
      refine (List.map_id as).symm.trans ?_
      apply List.map_congr_left
      intro b hb
      have hother := hfirst b hb
      simp only [hfound, true_and, Bool.not_eq_true] at hother
      rw [hother]
      rfl
    | false =>
      simp only [Bool.false_eq_true, if_false]
      rw [ih hrest]

/-- Elements told apart by their keys. -/
theorem pairwise_key {β : Type} [DecidableEq β] {key : α → β} (h : (as.map key).Nodup) (k : β) :
    as.Pairwise fun a b => ¬(decide (key a = k) = true ∧ decide (key b = k) = true) := by
  rw [List.Nodup, List.pairwise_map] at h
  apply h.imp
  intro a b hne heq
  simp only [decide_eq_true_eq] at heq
  exact hne (heq.1.trans heq.2.symm)

theorem length_alter_first (change : α → α) : (alter_first found change as).length = as.length := by
  induction as with
  | nil => rfl
  | cons a as ih =>
    rw [alter_first]
    split_ifs with hfound
    · rfl
    · rw [List.length_cons, List.length_cons, ih]

theorem alter_first_of_forall_not (change : α → α) (h : ∀ a ∈ as, ¬found a = true) :
    alter_first found change as = as := by
  induction as with
  | nil => rfl
  | cons a as ih =>
    rw [alter_first, if_neg (h a List.mem_cons_self), ih fun b hb => h b (List.mem_cons_of_mem a hb)]

theorem mem_alter_first {change : α → α} {b : α} (hb : b ∈ alter_first found change as) :
    b ∈ as ∨ ∃ a, b = change a := by
  induction as with
  | nil => exact absurd hb List.not_mem_nil
  | cons a as ih =>
    rw [alter_first] at hb
    split_ifs at hb with hfound
    · rcases List.mem_cons.mp hb with rfl | hlater
      · exact Or.inr ⟨a, rfl⟩
      · exact Or.inl (List.mem_cons_of_mem a hlater)
    · rcases List.mem_cons.mp hb with rfl | hlater
      · exact Or.inl List.mem_cons_self
      · exact (ih hlater).imp_left (List.mem_cons_of_mem a)

end unique

end forward_list
