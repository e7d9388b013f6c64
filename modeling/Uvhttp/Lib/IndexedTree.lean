import Mathlib.Tactic

/-! Trees whose nodes are numbers: the children of a node are listed by their numbers,
which are larger than its own. -/

namespace indexed_tree

/-- The nodes below `n` form a tree: each of them but the root is in the children of exactly
one node, once, and that node has a smaller number. -/
structure IndexedTree (n root : Nat) (children : Nat → List Nat) : Prop where
  root_lt : root < n
  child_lt : ∀ i < n, ∀ j ∈ children i, i < j ∧ j < n ∧ j ≠ root
  nodup : ∀ i < n, (children i).Nodup
  parent : ∀ j < n, j ≠ root → ∃! i, i < n ∧ j ∈ children i

/-- The numbers of the nodes on the way from the root to a node. -/
inductive Way (root : Nat) (children : Nat → List Nat) : List Nat → Nat → Prop where
  | root : Way root children [] root
  | child {way : List Nat} {i j : Nat} : Way root children way i → j ∈ children i → Way root children (way ++ [j]) j

variable {n root : Nat} {children : Nat → List Nat}

theorem Way.lt (h : IndexedTree n root children) {way : List Nat} {i : Nat} (hway : Way root children way i) :
    i < n := by
  induction hway with
  | root => exact h.root_lt
  | child hway hmem ih => exact (h.child_lt _ ih _ hmem).2.1

/-- The way to a node is told by the node. -/
theorem Way.unique (h : IndexedTree n root children) {way way' : List Nat} {j : Nat} (hway : Way root children way j)
    (hway' : Way root children way' j) : way = way' := by
  induction hway generalizing way' with
  | root =>
    cases hway' with
    | root => rfl
    | child hbefore hmem => exact absurd rfl (h.child_lt _ (hbefore.lt h) _ hmem).2.2
  | @child way i j hway hmem ih =>
    cases hway' with
    | root => exact absurd rfl (h.child_lt _ (hway.lt h) _ hmem).2.2
    | @child way' i' _ hbefore hmem' =>
      obtain ⟨hlt, hltn, hne⟩ := h.child_lt _ (hway.lt h) _ hmem
      have hsame := (h.parent j hltn hne).unique ⟨hway.lt h, hmem⟩ ⟨hbefore.lt h, hmem'⟩
      rw [ih (hsame ▸ hbefore)]

/-- Every node is reached from the root in exactly one way. -/
theorem IndexedTree.exists_unique_way (h : IndexedTree n root children) {j : Nat} (hj : j < n) :
    ∃! way, Way root children way j := by
  obtain ⟨way, hway⟩ : ∃ way, Way root children way j := by
    induction j using Nat.strong_induction_on with
    | _ j ih =>
      by_cases hroot : j = root
      · exact ⟨[], hroot ▸ .root⟩
      · obtain ⟨i, ⟨hi, hmem⟩, -⟩ := h.parent j hj hroot
        obtain ⟨way, hway⟩ := ih i (h.child_lt i hi j hmem).1 hi
        exact ⟨_, .child hway hmem⟩
  exact ⟨way, hway, fun _ hway' => hway'.unique h hway⟩

theorem IndexedTree.single (hroot : root < 1) (hchildren : ∀ i < 1, children i = []) :
    IndexedTree 1 root children := by
  refine ⟨hroot, ?_, ?_, fun j hj hne => absurd ?_ hne⟩
  · intro i hi j hj
    rw [hchildren i hi] at hj
    cases hj
  · intro i hi
    rw [hchildren i hi]
    exact List.nodup_nil
  · omega

/-- A new node becomes the last child of a node. -/
theorem IndexedTree.add (h : IndexedTree n root children) {i : Nat} (hi : i < n) {children' : Nat → List Nat}
    (hparent : children' i = children i ++ [n]) (hnew : children' n = [])
    (hothers : ∀ k < n, k ≠ i → children' k = children k) : IndexedTree (n + 1) root children' := by
  have hmem : ∀ k < n, ∀ j, j ∈ children' k ↔ j ∈ children k ∨ (k = i ∧ j = n) := by
    intro k hk j
    by_cases hki : k = i
    · rw [hki, hparent, List.mem_append, List.mem_singleton]
      tauto
    · rw [hothers k hk hki]
      tauto
  have hold : ∀ k < n, n ∉ children k := fun k hk hn => absurd (h.child_lt k hk n hn).2.1 (Nat.lt_irrefl n)
  refine ⟨h.root_lt.trans (Nat.lt_succ_self n), ?_, ?_, ?_⟩
  · intro k hk j hj
    rcases Nat.lt_succ_iff_lt_or_eq.mp hk with hlt | rfl
    · rcases (hmem k hlt j).mp hj with hchild | ⟨rfl, rfl⟩
      · obtain ⟨hkj, hjn, hne⟩ := h.child_lt k hlt j hchild
        exact ⟨hkj, hjn.trans (Nat.lt_succ_self n), hne⟩
      · exact ⟨hlt, Nat.lt_succ_self _, h.root_lt.ne'⟩
    · rw [hnew] at hj
      cases hj
  · intro k hk
    rcases Nat.lt_succ_iff_lt_or_eq.mp hk with hlt | rfl
    · by_cases hki : k = i
      · rw [hki, hparent, ← List.concat_eq_append]
        exact (h.nodup i hi).concat (hold i hi)
      · rw [hothers k hlt hki]
        exact h.nodup k hlt
    · rw [hnew]
      exact List.nodup_nil
  · intro j hj hne
    rcases Nat.lt_succ_iff_lt_or_eq.mp hj with hlt | rfl
    · obtain ⟨k, ⟨hk, hkj⟩, hunique⟩ := h.parent j hlt hne
      refine ⟨k, ⟨hk.trans (Nat.lt_succ_self n), (hmem k hk j).mpr (.inl hkj)⟩, ?_⟩
      rintro k' ⟨hk', hk'j⟩
      rcases Nat.lt_succ_iff_lt_or_eq.mp hk' with hlt' | rfl
      · rcases (hmem k' hlt' j).mp hk'j with hchild | ⟨-, rfl⟩
        · exact hunique k' ⟨hlt', hchild⟩
        · exact absurd hlt (Nat.lt_irrefl _)
      · rw [hnew] at hk'j
        cases hk'j
    · refine ⟨i, ⟨hi.trans (Nat.lt_succ_self _), (hmem i hi _).mpr (.inr ⟨rfl, rfl⟩)⟩, ?_⟩
      rintro k ⟨hk, hkn⟩
      rcases Nat.lt_succ_iff_lt_or_eq.mp hk with hlt | rfl
      · rcases (hmem k hlt _).mp hkn with hchild | ⟨hki, -⟩
        · exact absurd hchild (hold k hlt)
        · exact hki
      · rw [hnew] at hkn
        cases hkn

end indexed_tree
