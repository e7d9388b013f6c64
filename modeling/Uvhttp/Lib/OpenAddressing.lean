import Mathlib.Tactic

/-! Tables with open addressing: slots that are free or hold an entry, and for
each entry an order in which the slots are visited. Nothing is ever taken out. -/

namespace open_addressing

variable {E : Type}

/-- The entry of a slot, `none` when the slot is free. -/
def slot (slots : List (Option E)) (index : Nat) : Option E := slots.getD index none

/-- The entries of a table, in the order of the slots. -/
def occupants (slots : List (Option E)) : List E := slots.filterMap id

/-- The entries that are met along an order, up to the first free slot. -/
def chain (slots : List (Option E)) : List Nat → List E
  | [] => []
  | index :: rest =>
    match slot slots index with
    | none => []
    | some entry => entry :: chain slots rest

/-- An order comes to a slot without crossing a free one. -/
def Reaches (slots : List (Option E)) (order : List Nat) (index : Nat) : Prop :=
  ∃ before after, order = before ++ index :: after ∧ ∀ i ∈ before, (slot slots i).isSome = true

section slots

variable {slots : List (Option E)} {order : List Nat} {index : Nat} {entry : E}

theorem slot_eq_some : slot slots index = some entry ↔ slots[index]? = some (some entry) := by
  rw [slot, List.getD_eq_getElem?_getD]
  cases slots[index]? with
  | none => simp
  | some stored => simp

theorem lt_length_of_slot (h : slot slots index = some entry) : index < slots.length :=
  (List.getElem?_eq_some_iff.mp (slot_eq_some.mp h)).1

theorem mem_occupants : entry ∈ occupants slots ↔ ∃ i, slot slots i = some entry := by
  simp only [occupants, List.mem_filterMap, id_eq, slot_eq_some]
  constructor
  · rintro ⟨stored, hstored, rfl⟩
    exact List.mem_iff_getElem?.mp hstored
  · rintro ⟨i, hi⟩
    exact ⟨some entry, List.mem_of_getElem? hi, rfl⟩

theorem slot_set_self (h : index < slots.length) : slot (slots.set index (some entry)) index = some entry := by
  rw [slot_eq_some, List.getElem?_set_self h]

theorem slot_set_ne {i : Nat} (h : i ≠ index) : slot (slots.set index (some entry)) i = slot slots i := by
  rw [slot, slot, List.getD_eq_getElem?_getD, List.getD_eq_getElem?_getD, List.getElem?_set_ne (Ne.symm h)]

theorem isSome_slot_set {i : Nat} (h : (slot slots i).isSome = true) :
    (slot (slots.set index (some entry)) i).isSome = true := by
  obtain ⟨stored, hstored⟩ := Option.isSome_iff_exists.mp h
  by_cases hi : i = index
  · subst hi
    rw [slot_set_self (lt_length_of_slot hstored)]
    rfl
  · rw [slot_set_ne hi]
    exact h

theorem Reaches.set {i : Nat} (h : Reaches slots order i) :
    Reaches (slots.set index (some entry)) order i := by
  obtain ⟨before, after, hsplit, hbefore⟩ := h
  exact ⟨before, after, hsplit, fun j hj => isSome_slot_set (hbefore j hj)⟩

theorem mem_chain_slot (h : entry ∈ chain slots order) : ∃ i ∈ order, slot slots i = some entry := by
  induction order with
  | nil => cases h
  | cons i rest ih =>
    rw [chain] at h
    cases hslot : slot slots i with
    | none =>
      rw [hslot] at h
      cases h
    | some stored =>
      rw [hslot] at h
      obtain rfl | hlater := List.mem_cons.mp h
      · exact ⟨i, List.mem_cons_self, hslot⟩
      · obtain ⟨j, hj, hstored⟩ := ih hlater
        exact ⟨j, List.mem_cons_of_mem _ hj, hstored⟩

theorem chain_append_occupied {before after : List Nat} (h : ∀ i ∈ before, (slot slots i).isSome = true) :
    chain slots (before ++ after) = before.filterMap (slot slots) ++ chain slots after := by
  induction before with
  | nil => rfl
  | cons i before ih =>
    obtain ⟨stored, hstored⟩ := Option.isSome_iff_exists.mp (h i List.mem_cons_self)
    rw [List.cons_append, chain, hstored, List.filterMap_cons_some hstored,
      ih fun j hj => h j (List.mem_cons_of_mem _ hj)]
    rfl

theorem chain_occupied (h : ∀ i ∈ order, (slot slots i).isSome = true) :
    chain slots order = order.filterMap (slot slots) := by
  rw [← List.append_nil order, chain_append_occupied h, chain, List.append_nil, List.append_nil]

theorem chain_free {after : List Nat} (h : slot slots index = none) : chain slots (index :: after) = [] := by
  rw [chain, h]

/-- The chain of an order holds the entries that the order reaches. -/
theorem Reaches.mem_chain (h : Reaches slots order index) (hentry : slot slots index = some entry) :
    entry ∈ chain slots order := by
  obtain ⟨before, after, rfl, hbefore⟩ := h
  rw [chain_append_occupied hbefore, chain, hentry]
  exact List.mem_append_right _ List.mem_cons_self

/-- An order is cut at its first free slot. -/
theorem exists_split_free (slots : List (Option E)) (order : List Nat) :
    (∀ i ∈ order, (slot slots i).isSome = true) ∨
      ∃ before free after, order = before ++ free :: after ∧ slot slots free = none ∧
        ∀ i ∈ before, (slot slots i).isSome = true := by
  induction order with
  | nil => exact .inl nofun
  | cons i rest ih =>
    cases hslot : slot slots i with
    | none => exact .inr ⟨[], i, rest, rfl, hslot, nofun⟩
    | some stored =>
      have hhere : (slot slots i).isSome = true := by rw [hslot]; rfl
      obtain hall | ⟨before, free, after, rfl, hfree, hbefore⟩ := ih
      · exact .inl (List.forall_mem_cons.mpr ⟨hhere, hall⟩)
      · exact .inr ⟨i :: before, free, after, rfl, hfree, List.forall_mem_cons.mpr ⟨hhere, hbefore⟩⟩

/-- A free slot is reached only as the first free one. -/
theorem Reaches.eq_of_free {before after : List Nat} {free : Nat} (h : Reaches slots (before ++ free :: after) index)
    (hindex : slot slots index = none) (hfree : slot slots free = none)
    (hbefore : ∀ i ∈ before, (slot slots i).isSome = true) : index = free := by
  obtain ⟨before', after', hsplit, hbefore'⟩ := h
  obtain ⟨middle, hleft, hright⟩ | ⟨middle, hleft, hright⟩ := List.append_eq_append_iff.mp hsplit
  · cases middle with
    | nil => exact (List.cons.inj hright).1.symm
    | cons first middle =>
      have hoccupied := hbefore' free (by rw [hleft, (List.cons.inj hright).1]; simp)
      rw [hfree] at hoccupied
      cases hoccupied
  · cases middle with
    | nil => exact (List.cons.inj hright).1
    | cons first middle =>
      have hoccupied := hbefore index (by rw [hleft, (List.cons.inj hright).1]; simp)
      rw [hindex] at hoccupied
      cases hoccupied

end slots

section insertion

variable {slots : List (Option E)} {order : List Nat} {index : Nat} {entry : E}

theorem occupants_set (hlt : index < slots.length) (hfree : slot slots index = none) (entry : E) :
    (occupants (slots.set index (some entry))).Perm (entry :: occupants slots) := by
  induction slots generalizing index with
  | nil => cases hlt
  | cons first slots ih =>
    cases index with
    | zero =>
      have hfirst : first = none := hfree
      subst hfirst
      exact List.Perm.refl _
    | succ index =>
      have hbehind := ih (Nat.lt_of_succ_lt_succ hlt) hfree
      cases first with
      | none => exact hbehind
      | some stored => exact (hbehind.cons stored).trans (List.Perm.swap entry stored (occupants slots))

/-- Slot by slot, an insertion changes nothing for a search that does not look for
the new entry. -/
theorem filter_occupants_set {q : E → Bool} (hfree : slot slots index = none) (hentry : q entry = false) :
    (occupants (slots.set index (some entry))).filter q = (occupants slots).filter q := by
  induction slots generalizing index with
  | nil => rfl
  | cons first slots ih =>
    cases index with
    | zero =>
      have hfirst : first = none := hfree
      subst hfirst
      change (entry :: occupants slots).filter q = _
      rw [List.filter_cons_of_neg (by simp [hentry])]
      rfl
    | succ index =>
      have hbehind : (occupants (slots.set index (some entry))).filter q = (occupants slots).filter q := ih hfree
      cases first with
      | none => exact hbehind
      | some stored =>
        change (stored :: occupants (slots.set index (some entry))).filter q = (stored :: occupants slots).filter q
        rw [List.filter_cons, List.filter_cons, hbehind]

/-- The new entry takes a free slot. Of the entries that a search looks for, all
of which its order reaches, the chain holds the same as before, and then the new
entry if the search looks for it. -/
theorem filter_chain_set {q : E → Bool} (hnodup : order.Nodup)
    (hreach : ∀ i e, slot slots i = some e → q e = true → Reaches slots order i) (hlt : index < slots.length)
    (hfree : slot slots index = none) (hentry : q entry = true → Reaches slots order index) :
    (chain (slots.set index (some entry)) order).filter q =
      (chain slots order).filter q ++ if q entry then [entry] else [] := by
  have hkept : ∀ before : List Nat, (∀ i ∈ before, (slot slots i).isSome = true) →
      before.filterMap (slot (slots.set index (some entry))) = before.filterMap (slot slots) := by
    intro before hbefore
    refine List.filterMap_congr fun i hi => slot_set_ne ?_
    rintro rfl
    have hoccupied := hbefore i hi
    rw [hfree] at hoccupied
    cases hoccupied
  have hset : ∀ before : List Nat, (∀ i ∈ before, (slot slots i).isSome = true) →
      ∀ i ∈ before, (slot (slots.set index (some entry)) i).isSome = true :=
    fun before hbefore i hi => isSome_slot_set (hbefore i hi)
  obtain hall | ⟨before, free, after, rfl, hfirst, hbefore⟩ := exists_split_free slots order
  · have hnot : q entry = false := by
      by_contra hsought
      obtain ⟨before, after, rfl, -⟩ := hentry (by simpa using hsought)
      have hoccupied := hall index (by simp)
      rw [hfree] at hoccupied
      cases hoccupied
    rw [chain_occupied hall, chain_occupied (hset order hall), hkept order hall, hnot]
    simp
  · rw [chain_append_occupied hbefore, chain_append_occupied (hset before hbefore), hkept before hbefore,
      chain_free hfirst, List.append_nil]
    by_cases hsame : index = free
    · subst hsame
      have hlater : (chain (slots.set index (some entry)) after).filter q = [] := by
        rw [List.filter_eq_nil_iff]
        intro e he hsought
        obtain ⟨i, hi, hstored⟩ := mem_chain_slot he
        have hne : i ≠ index := by
          rintro rfl
          exact (List.nodup_cons.mp (List.nodup_append.mp hnodup).2.1).1 hi
        rw [slot_set_ne hne] at hstored
        obtain ⟨first, last, hsplit, hoccupied⟩ := hreach i e hstored hsought
        have hcross : index ∈ first := by
          obtain ⟨middle, hleft, hright⟩ | ⟨middle, hleft, hright⟩ := List.append_eq_append_iff.mp hsplit
          · cases middle with
            | nil => exact absurd (List.cons.inj hright).1.symm hne
            | cons other middle =>
              rw [hleft, (List.cons.inj hright).1]
              simp
          · cases middle with
            | nil => exact absurd (List.cons.inj hright).1 hne
            | cons other middle =>
              exfalso
              have hbefore' : i ∈ before := by
                rw [hleft, (List.cons.inj hright).1]
                simp
              exact (List.nodup_append.mp hnodup).2.2 i hbefore' i (List.mem_cons_of_mem _ hi) rfl
        have hfilled := hoccupied index hcross
        rw [hfirst] at hfilled
        cases hfilled
      rw [chain, slot_set_self hlt, List.filter_append]
      dsimp only
      rw [List.filter_cons, hlater]
    · have hnot : q entry = false := by
        by_contra hsought
        exact hsame ((hentry (by simpa using hsought)).eq_of_free hfree hfirst hbefore)
      have hstill : slot (slots.set index (some entry)) free = none := by
        rw [slot_set_ne (Ne.symm hsame)]
        exact hfirst
      rw [chain_free hstill, List.append_nil, hnot]
      simp

end insertion

end open_addressing
