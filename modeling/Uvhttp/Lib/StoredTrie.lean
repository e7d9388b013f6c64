import Uvhttp.Lib.OrderedTrie

/-! Ordered tries that are stored as nodes with numbers, where each node lists the
numbers of its children. -/

namespace stored_trie

open ordered_trie

variable {α V : Type}

/-- A node, without its number. -/
structure Node (α V : Type) where
  label : Label α
  value : Option V
  children : List Nat

/-- Forests side by side. -/
def append : Forest α V → Forest α V → Forest α V
  | .nil, g => g
  | .cons label value children siblings, g => .cons label value children (append siblings g)

/-- The nodes with these numbers store a forest, in the nodes of the footprint. -/
inductive Stores (nodes : Nat → Option (Node α V)) : List Nat → Forest α V → List Nat → Prop where
  | nil : Stores nodes [] .nil []
  | cons {i : Nat} {indices below later : List Nat} {node : Node α V} {children siblings : Forest α V} :
      nodes i = some node → Stores nodes node.children children below → Stores nodes indices siblings later →
      Stores nodes (i :: indices) (.cons node.label node.value children siblings) (i :: below ++ later)

/-- A node has this label, this value and this forest below it. -/
def Holds (nodes : Nat → Option (Node α V)) (i : Nat) (label : Label α) (value : Option V) (f : Forest α V)
    (footprint : List Nat) : Prop :=
  ∃ children, nodes i = some ⟨label, value, children⟩ ∧ Stores nodes children f footprint

variable {nodes nodes' : Nat → Option (Node α V)} {indices footprint : List Nat} {f g : Forest α V} {i n : Nat}
  {label : Label α} {value : Option V}

theorem append_nil (f : Forest α V) : append f .nil = f := by
  induction f with
  | nil => rfl
  | cons label value children siblings _ ih => rw [append, ih]

/-- A forest stays where its footprint does. -/
theorem Stores.congr (h : Stores nodes indices f footprint) (hsame : ∀ i ∈ footprint, nodes' i = nodes i) :
    Stores nodes' indices f footprint := by
  induction h with
  | nil => exact .nil
  | @cons i indices below later node children siblings hnode _ _ ihchildren ihsiblings =>
    refine .cons ?_ (ihchildren fun k hk => hsame k ?_) (ihsiblings fun k hk => hsame k ?_)
    · rw [hsame i List.mem_cons_self, hnode]
    · exact List.mem_append_left _ (List.mem_cons_of_mem _ hk)
    · exact List.mem_append_right _ hk

theorem Stores.append {indices' footprint' : List Nat} (h : Stores nodes indices f footprint)
    (h' : Stores nodes indices' g footprint') :
    Stores nodes (indices ++ indices') (append f g) (footprint ++ footprint') := by
  induction h with
  | nil => exact h'
  | cons hnode hbelow _ _ ihsiblings =>
    rw [List.append_assoc]
    exact .cons hnode hbelow ihsiblings

/-- A node with what is below it is a forest of one branch. -/
theorem Holds.branch (h : Holds nodes i label value f footprint) :
    Stores nodes [i] (.cons label value f .nil) (i :: footprint) := by
  obtain ⟨children, hnode, hstores⟩ := h
  rw [← List.append_nil (i :: footprint)]
  exact @Stores.cons α V nodes i [] footprint [] ⟨label, value, children⟩ f .nil hnode hstores .nil

theorem Holds.congr (h : Holds nodes i label value f footprint) (hself : nodes' i = nodes i)
    (hsame : ∀ k ∈ footprint, nodes' k = nodes k) : Holds nodes' i label value f footprint := by
  obtain ⟨children, hnode, hstores⟩ := h
  exact ⟨children, hself.trans hnode, hstores.congr hsame⟩

/-- Numbers that take the place of others, some of them new, are still distinct. -/
theorem nodup_replaced {before old new after : List Nat} (h : (before ++ (old ++ after)).Nodup) (hnew : new.Nodup)
    (hfresh : ∀ k ∈ new, k ∈ old ∨ n ≤ k) (hbefore : ∀ k ∈ before, k < n) (hafter : ∀ k ∈ after, k < n) :
    (before ++ (new ++ after)).Nodup := by
  obtain ⟨hfirst, hrest, hapart⟩ := List.nodup_append.mp h
  obtain ⟨-, hlast, hapart'⟩ := List.nodup_append.mp hrest
  refine List.nodup_append.mpr ⟨hfirst, List.nodup_append.mpr ⟨hnew, hlast, ?_⟩, ?_⟩
  · intro k hk k' hk'
    rcases hfresh k hk with hold | hge
    · exact hapart' k hold k' hk'
    · exact (hafter k' hk').trans_le hge |>.ne'
  · intro k hk k' hk'
    rcases List.mem_append.mp hk' with hmem | hmem
    · rcases hfresh k' hmem with hold | hge
      · exact hapart k hk k' (List.mem_append_left _ hold)
      · exact ((hbefore k hk).trans_le hge).ne
    · exact hapart k hk k' (List.mem_append_right _ hmem)

end stored_trie
