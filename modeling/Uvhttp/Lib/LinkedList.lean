import Mathlib.Tactic

/-! Doubly linked lists in a heap: nodes at addresses, each with the addresses of
its neighbours. An operation is `none` when it goes through an invalid pointer. -/

namespace linked_list

/-- The two pointers of a node. -/
structure Links where
  prev : Option Nat
  next : Option Nat
  deriving DecidableEq, Repr

/-- The nodes that are allocated, and the ends of the list. -/
structure Chain where
  links : Nat → Option Links
  head : Option Nat
  tail : Option Nat

namespace Chain

/-- Set the `next` of a node, if there is one. -/
def set_next (c : Chain) : Option Nat → Option Nat → Option Chain
  | none, _ => some c
  | some p, next => (c.links p).map fun l => { c with links := Function.update c.links p (some { l with next }) }

/-- Set the `prev` of a node, if there is one. -/
def set_prev (c : Chain) : Option Nat → Option Nat → Option Chain
  | none, _ => some c
  | some p, prev => (c.links p).map fun l => { c with links := Function.update c.links p (some { l with prev }) }

/-- Let the neighbours of a node point to each other. -/
def splice (c : Chain) (l : Links) : Option Chain := do
  let c ← c.set_next l.prev l.next
  c.set_prev l.next l.prev

/-- Take a node out of the list. Its own pointers stay. -/
def unlink (c : Chain) (p : Nat) : Option Chain := do
  let l ← c.links p
  let c ← c.splice l
  some { c with
    head := if l.prev.isNone then l.next else c.head
    tail := if l.next.isNone then l.prev else c.tail }

/-- Put a node before the list. -/
def push_front (c : Chain) (p : Nat) : Option Chain := do
  let c ← c.set_prev (some p) none
  let c ← c.set_next (some p) c.head
  let c ← c.set_prev c.head (some p)
  some { c with head := some p, tail := c.tail.or (some p) }

/-- Set both pointers of a node to NULL. -/
def clear_links (c : Chain) (p : Nat) : Option Chain := do
  let c ← c.set_prev (some p) none
  c.set_next (some p) none

/-- A node that has just been allocated. -/
def create (c : Chain) (p : Nat) : Chain := { c with links := Function.update c.links p (some ⟨none, none⟩) }

/-- A node that has been freed. -/
def release (c : Chain) (p : Nat) : Chain := { c with links := Function.update c.links p none }

end Chain

section segments

variable {links links' : Nat → Option Links}

/-- Nodes that point to each other in the order of a list, between two pointers. -/
def Segment (links : Nat → Option Links) : Option Nat → List Nat → Option Nat → Prop
  | _, [], _ => True
  | prev, p :: ps, next => links p = some ⟨prev, ps.head?.or next⟩ ∧ Segment links (some p) ps next

theorem Segment.congr {prev next : Option Nat} {ps : List Nat} (h : Segment links prev ps next)
    (hsame : ∀ p ∈ ps, links' p = links p) : Segment links' prev ps next := by
  induction ps generalizing prev with
  | nil => trivial
  | cons p ps ih =>
    obtain ⟨hp, hps⟩ := h
    refine ⟨?_, ih hps fun q hq => hsame q (List.mem_cons_of_mem _ hq)⟩
    rw [hsame p List.mem_cons_self]
    exact hp

theorem segment_append {prev next : Option Nat} {before after : List Nat} :
    Segment links prev (before ++ after) next ↔
      Segment links prev before (after.head?.or next) ∧ Segment links (before.getLast?.or prev) after next := by
  induction before generalizing prev with
  | nil =>
    rw [List.nil_append, List.getLast?_nil, Option.none_or]
    exact ⟨fun h => ⟨trivial, h⟩, fun h => h.2⟩
  | cons p before ih =>
    have hlast : (p :: before).getLast?.or prev = before.getLast?.or (some p) := by
      rw [List.getLast?_cons]
      cases before.getLast? with
      | none => rfl
      | some q => rfl
    rw [List.cons_append, Segment, Segment, ih, hlast, List.head?_append, Option.or_assoc, and_assoc]

theorem Segment.isSome {prev next : Option Nat} {ps : List Nat} (h : Segment links prev ps next) {p : Nat}
    (hp : p ∈ ps) : (links p).isSome = true := by
  induction ps generalizing prev with
  | nil => cases hp
  | cons q ps ih =>
    obtain rfl | hlater := List.mem_cons.mp hp
    · rw [h.1]
      rfl
    · exact ih h.2 hlater

end segments

section writes

variable {c : Chain}

theorem set_next_last {prev next : Option Nat} {ps : List Nat} (h : Segment c.links prev ps next) (hnodup : ps.Nodup)
    (next' : Option Nat) :
    ∃ c', c.set_next ps.getLast? next' = some c' ∧ Segment c'.links prev ps next' ∧ c'.head = c.head ∧
      c'.tail = c.tail ∧ ∀ q ∉ ps, c'.links q = c.links q := by
  obtain rfl | ⟨before, p, rfl⟩ := List.eq_nil_or_concat' ps
  · exact ⟨c, rfl, trivial, rfl, rfl, fun _ _ => rfl⟩
  · obtain ⟨hbefore, hp, -⟩ := segment_append.mp h
    have hfresh : p ∉ before := fun hmem => (List.nodup_append.mp hnodup).2.2 p hmem p List.mem_cons_self rfl
    rw [List.getLast?_concat, Chain.set_next, hp]
    refine ⟨_, rfl, ?_, rfl, rfl, fun q hq => ?_⟩
    · refine segment_append.mpr ⟨hbefore.congr fun q hq => ?_, ?_, trivial⟩
      · exact Function.update_of_ne (ne_of_mem_of_not_mem hq hfresh) _ _
      · exact Function.update_self _ _ _
    · exact Function.update_of_ne (ne_of_mem_of_not_mem (by simp) hq).symm _ _

theorem set_prev_first {prev next : Option Nat} {ps : List Nat} (h : Segment c.links prev ps next) (hnodup : ps.Nodup)
    (prev' : Option Nat) :
    ∃ c', c.set_prev ps.head? prev' = some c' ∧ Segment c'.links prev' ps next ∧ c'.head = c.head ∧
      c'.tail = c.tail ∧ ∀ q ∉ ps, c'.links q = c.links q := by
  cases ps with
  | nil => exact ⟨c, rfl, trivial, rfl, rfl, fun _ _ => rfl⟩
  | cons p after =>
    obtain ⟨hp, hafter⟩ := h
    have hfresh : p ∉ after := (List.nodup_cons.mp hnodup).1
    rw [List.head?_cons, Chain.set_prev, hp]
    refine ⟨_, rfl, ⟨?_, hafter.congr fun q hq => ?_⟩, rfl, rfl, fun q hq => ?_⟩
    · exact Function.update_self _ _ _
    · exact Function.update_of_ne (ne_of_mem_of_not_mem hq hfresh) _ _
    · exact Function.update_of_ne (ne_of_mem_of_not_mem (by simp) hq).symm _ _

theorem clear_links_eq {p : Nat} (h : (c.links p).isSome = true) :
    ∃ c', c.clear_links p = some c' ∧ c'.head = c.head ∧ c'.tail = c.tail ∧ ∀ q ≠ p, c'.links q = c.links q := by
  obtain ⟨l, hl⟩ := Option.isSome_iff_exists.mp h
  refine ⟨{ c with links := Function.update c.links p (some ⟨none, none⟩) }, ?_, rfl, rfl, fun q hq => ?_⟩
  · simp [Chain.clear_links, Chain.set_prev, Chain.set_next, hl]
  · exact Function.update_of_ne hq _ _

end writes

section lists

variable {c : Chain}

/-- The nodes of a list, in their order. -/
structure Linked (c : Chain) (ps : List Nat) : Prop where
  nodup : ps.Nodup
  nodes : Segment c.links none ps none

/-- A list from `head` to `tail`. -/
structure Threads (c : Chain) (ps : List Nat) : Prop extends Linked c ps where
  head : c.head = ps.head?
  tail : c.tail = ps.getLast?

theorem Linked.node {before after : List Nat} {p : Nat} (h : Linked c (before ++ p :: after)) :
    c.links p = some ⟨before.getLast?, after.head?⟩ := by
  have hp := (segment_append.mp h.nodes).2.1
  rw [Option.or_none, Option.or_none] at hp
  exact hp

theorem Linked.congr {c' : Chain} {ps : List Nat} (h : Linked c ps) (hsame : ∀ p ∈ ps, c'.links p = c.links p) :
    Linked c' ps :=
  ⟨h.nodup, h.nodes.congr hsame⟩

theorem Threads.congr {c' : Chain} {ps : List Nat} (h : Threads c ps) (hsame : ∀ p ∈ ps, c'.links p = c.links p)
    (hhead : c'.head = c.head) (htail : c'.tail = c.tail) : Threads c' ps :=
  ⟨h.toLinked.congr hsame, hhead.trans h.head, htail.trans h.tail⟩

/-- Around a node the list is closed, and nothing else changes. -/
theorem Linked.splice {before after : List Nat} {p : Nat} (h : Linked c (before ++ p :: after)) :
    ∃ c', c.splice ⟨before.getLast?, after.head?⟩ = some c' ∧ Linked c' (before ++ after) ∧ c'.head = c.head ∧
      c'.tail = c.tail ∧ ∀ q ∉ before ++ after, c'.links q = c.links q := by
  obtain ⟨hbefore, -, hafter⟩ := segment_append.mp h.nodes
  have hapart := List.nodup_append.mp h.nodup
  have hnodup : (before ++ after).Nodup := h.nodup.sublist (by simp)
  have hdisjoint : ∀ q ∈ after, q ∉ before := fun q hq hmem => hapart.2.2 q hmem q (List.mem_cons_of_mem _ hq) rfl
  obtain ⟨c₁, hset₁, hbefore₁, hhead₁, htail₁, hframe₁⟩ := set_next_last hbefore hapart.1 after.head?
  have hafter₁ : Segment c₁.links (some p) after none := hafter.congr fun q hq => hframe₁ q (hdisjoint q hq)
  obtain ⟨c₂, hset₂, hafter₂, hhead₂, htail₂, hframe₂⟩ :=
    set_prev_first hafter₁ (List.nodup_cons.mp hapart.2.1).2 before.getLast?
  refine ⟨c₂, ?_, ⟨hnodup, ?_⟩, hhead₂.trans hhead₁, htail₂.trans htail₁, fun q hq => ?_⟩
  · rw [Chain.splice, hset₁]
    exact hset₂
  · refine segment_append.mpr ⟨?_, ?_⟩
    · rw [Option.or_none]
      exact hbefore₁.congr fun q hq => hframe₂ q fun hmem => hdisjoint q hmem hq
    · rw [Option.or_none]
      exact hafter₂
  · rw [List.mem_append, not_or] at hq
    rw [hframe₂ q hq.2, hframe₁ q hq.1]

theorem Threads.unlink {before after : List Nat} {p : Nat} (h : Threads c (before ++ p :: after)) :
    ∃ c', c.unlink p = some c' ∧ Threads c' (before ++ after) ∧ ∀ q ∉ before ++ after, c'.links q = c.links q := by
  obtain ⟨c₁, hsplice, hlinked, hhead, htail, hframe⟩ := h.toLinked.splice
  refine ⟨{ c₁ with
    head := if before.getLast?.isNone then after.head? else c₁.head
    tail := if after.head?.isNone then before.getLast? else c₁.tail }, ?_,
    ⟨hlinked.congr fun _ _ => rfl, ?_, ?_⟩, hframe⟩
  · rw [Chain.unlink, h.node]
    exact congrArg (Option.bind · _) hsplice
  · dsimp only
    rw [hhead, h.head]
    cases before with
    | nil => rfl
    | cons q before => simp
  · dsimp only
    rw [htail, h.tail]
    obtain rfl | ⟨init, last, rfl⟩ := List.eq_nil_or_concat' after
    · simp
    · cases init with
      | nil => simp
      | cons q init => simp

/-- Nothing happens to an empty list when a node apart from it is taken out. -/
theorem Threads.unlink_apart (h : Threads c []) {p : Nat} (hp : c.links p = some ⟨none, none⟩) :
    c.unlink p = some c := by
  obtain ⟨links, head, tail⟩ := c
  obtain rfl : head = none := h.head
  obtain rfl : tail = none := h.tail
  rw [Chain.unlink, hp]
  rfl

theorem Threads.push_front {ps : List Nat} (h : Threads c ps) {p : Nat} (hp : p ∉ ps)
    (hnode : (c.links p).isSome = true) :
    ∃ c', c.push_front p = some c' ∧ Threads c' (p :: ps) ∧ ∀ q ∉ p :: ps, c'.links q = c.links q := by
  obtain ⟨l, hl⟩ := Option.isSome_iff_exists.mp hnode
  let c₁ : Chain := { c with links := Function.update c.links p (some ⟨none, c.head⟩) }
  have hframe₁ : ∀ q ≠ p, c₁.links q = c.links q := fun q hq => Function.update_of_ne hq _ _
  have hsegment₁ : Segment c₁.links none ps none :=
    h.nodes.congr fun q hq => hframe₁ q fun heq => hp (heq ▸ hq)
  obtain ⟨c₂, hset₂, hsegment₂, hhead₂, htail₂, hframe₂⟩ := set_prev_first hsegment₁ h.nodup (some p)
  refine ⟨{ c₂ with head := some p, tail := c₂.tail.or (some p) }, ?_, ?_, fun q hq => ?_⟩
  · have hset₁ : (c.set_prev (some p) none).bind (fun c => c.set_next (some p) c.head) = some c₁ := by
      simp [Chain.set_prev, Chain.set_next, hl, c₁]
    have hset₂' : c₁.set_prev c₁.head (some p) = some c₂ := by
      rw [← hset₂, ← h.head]
    rw [Chain.push_front]
    simp only [Option.bind_eq_bind, ← Option.bind_assoc]
    rw [Option.bind_assoc, hset₁]
    simp only [Option.bind_some, hset₂']
  · refine ⟨⟨List.nodup_cons.mpr ⟨hp, h.nodup⟩, ?_, hsegment₂⟩, rfl, ?_⟩
    · rw [hframe₂ p hp, Option.or_none, ← h.head]
      exact Function.update_self _ _ _
    · dsimp only
      rw [htail₂, show c₁.tail = c.tail from rfl, h.tail, List.getLast?_cons]
      cases ps.getLast? with
      | none => rfl
      | some q => rfl
  · rw [List.mem_cons, not_or] at hq
    exact (hframe₂ q hq.2).trans (hframe₁ q hq.1)

end lists

end linked_list
