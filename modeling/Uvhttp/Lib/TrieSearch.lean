import Uvhttp.Lib.OrderedTrie

/-! Depth-first search in a trie with a budget for the wildcards of a branch: what
the search comes to, told by the nodes in the order in which they are met. -/

namespace ordered_trie

variable {α V R : Type} [DecidableEq α]

omit [DecidableEq α] in
def wildcards (labels : List (Label α)) : Nat := labels.countP Label.wildcard

/-- Whether a branch with these labels is open to the start of a word. -/
def opens : List (Label α) → List α → Bool
  | [], _ => true
  | _ :: _, [] => false
  | label :: labels, x :: xs => label.accepts x && opens labels xs

/-- A search ends without a result, with one and the wildcards on its branch, or at
a wildcard beyond the budget. -/
inductive Outcome (R : Type) where
  | missing
  | found (result : R) (used : Nat)
  | exhausted
  deriving DecidableEq, Repr

def Outcome.orElse (first second : Outcome R) : Outcome R :=
  match first with
  | .missing => second
  | .found result used => .found result used
  | .exhausted => .exhausted

@[simp] theorem Outcome.missing_orElse (second : Outcome R) : Outcome.missing.orElse second = second := rfl

@[simp] theorem Outcome.orElse_missing (first : Outcome R) : first.orElse .missing = first := by
  cases first with
  | missing => rfl
  | found result used => rfl
  | exhausted => rfl

theorem Outcome.orElse_assoc (first second third : Outcome R) :
    (first.orElse second).orElse third = first.orElse (second.orElse third) := by
  cases first with
  | missing => rfl
  | found result used => rfl
  | exhausted => rfl

/-- The result of a node that a word ends at. -/
def outcome_of (result : Option R) (used : Nat) : Outcome R :=
  match result with
  | none => .missing
  | some result => .found result used

def Outcome.result : Outcome R → Option R
  | .found result _ => some result
  | _ => none

theorem result_outcome_of (result : Option R) (used : Nat) : (outcome_of result used).result = result := by
  cases result with
  | none => rfl
  | some result => rfl

namespace Forest

/-- The nodes of a forest with the labels that lead to them, in the order of a
depth-first search. -/
def nodes : Forest α V → List (List (Label α) × Option V)
  | nil => []
  | cons label value children siblings =>
    ([label], value) :: (nodes children).map (fun node => (label :: node.1, node.2)) ++ nodes siblings

omit [DecidableEq α] in
theorem nodes_ne_nil {f : Forest α V} {node : List (Label α) × Option V} (h : node ∈ f.nodes) : node.1 ≠ [] := by
  induction f with
  | nil => cases h
  | cons label value children siblings ihchildren ihsiblings =>
    rw [nodes, List.cons_append, List.mem_cons, List.mem_append, List.mem_map] at h
    obtain rfl | ⟨below, -, rfl⟩ | hlater := h
    · exact List.cons_ne_nil _ _
    · exact List.cons_ne_nil _ _
    · exact ihsiblings hlater

section search

variable (budget : Nat) (serve : V → Option R)

/-- Entering a branch: a wildcard is paid for. -/
def enter (label : Label α) (x : α) (used : Nat) (under : Nat → Outcome R) : Outcome R :=
  if label.wildcard then if used < budget then under (used + 1) else .exhausted
  else if label.name = x then under used
  else .missing

/-- Depth-first search for the word `x :: xs`, with the wildcards in use above the
forest. -/
def search : Forest α V → α → List α → Nat → Outcome R
  | nil, _, _, _ => .missing
  | cons label value children siblings, x, xs, used =>
    (enter budget label x used fun used =>
      match xs with
      | [] => outcome_of (value.bind serve) used
      | y :: ys => search children y ys used).orElse (search siblings x xs used)

theorem search_last (label : Label α) (value : Option V) (children siblings : Forest α V) (x : α) (used : Nat) :
    (cons label value children siblings).search budget serve x [] used =
      (enter budget label x used (outcome_of (value.bind serve))).orElse (siblings.search budget serve x [] used) :=
  rfl

theorem search_more (label : Label α) (value : Option V) (children siblings : Forest α V) (x y : α) (ys : List α)
    (used : Nat) :
    (cons label value children siblings).search budget serve x (y :: ys) used =
      (enter budget label x used (children.search budget serve y ys)).orElse
        (siblings.search budget serve x (y :: ys) used) := rfl

/-- The search told by a list of nodes: at the first one that is open to the word
and has too many wildcards it fails, at the first one that takes the word and
serves it succeeds. -/
def scan (word : List α) (used : Nat) : List (List (Label α) × Option V) → Outcome R
  | [] => .missing
  | node :: rest =>
    (if opens node.1 word ∧ budget < used + wildcards node.1 then .exhausted
      else if accepts_all node.1 word then outcome_of (node.2.bind serve) (used + wildcards node.1)
      else .missing).orElse (scan word used rest)

variable {budget serve}

theorem scan_append (word : List α) (used : Nat) (before after : List (List (Label α) × Option V)) :
    scan budget serve word used (before ++ after) =
      (scan budget serve word used before).orElse (scan budget serve word used after) := by
  induction before with
  | nil => rfl
  | cons node before ih => rw [List.cons_append, scan, scan, ih, Outcome.orElse_assoc]

theorem scan_closed {word : List α} {used : Nat} {nodes : List (List (Label α) × Option V)}
    (h : ∀ node ∈ nodes, opens node.1 word = false ∧ accepts_all node.1 word = false) :
    scan budget serve word used nodes = .missing := by
  induction nodes with
  | nil => rfl
  | cons node nodes ih =>
    obtain ⟨hopens, haccepts⟩ := h node List.mem_cons_self
    rw [scan, hopens, haccepts, ih fun later hlater => h later (List.mem_cons_of_mem _ hlater)]
    simp

/-- The nodes under a label. -/
theorem scan_under (label : Label α) (x : α) (xs : List α) (used : Nat) (nodes : List (List (Label α) × Option V)) :
    scan budget serve (x :: xs) used (nodes.map fun node => (label :: node.1, node.2)) =
      if label.accepts x then scan budget serve xs (used + wildcards [label]) nodes else .missing := by
  cases haccepts : label.accepts x with
  | false =>
    rw [if_neg Bool.false_ne_true]
    apply scan_closed
    intro node hnode
    obtain ⟨below, -, rfl⟩ := List.mem_map.mp hnode
    simp [opens, accepts_all, haccepts]
  | true =>
    rw [if_pos rfl]
    induction nodes with
    | nil => rfl
    | cons node nodes ih =>
      have hused : used + wildcards (label :: node.1) = used + wildcards [label] + wildcards node.1 := by
        rw [wildcards, wildcards, wildcards, List.countP_cons, List.countP_cons, List.countP_nil]
        omega
      rw [List.map_cons, scan, scan, ih, hused]
      simp [opens, accepts_all, haccepts]

/-- Under a node at the end of a word there is nothing left to take. -/
theorem scan_nil (f : Forest α V) (used : Nat) : scan budget serve [] used f.nodes = .missing := by
  apply scan_closed
  intro node hnode
  obtain ⟨label, labels, hlabels⟩ := List.exists_cons_of_ne_nil (nodes_ne_nil hnode)
  rw [hlabels]
  exact ⟨rfl, rfl⟩

/-- A branch and what is under it. -/
theorem scan_branch {label : Label α} {value : Option V} {x : α} {xs : List α} {used : Nat} (hused : used ≤ budget)
    {below : List (List (Label α) × Option V)} {under : Nat → Outcome R}
    (hunder : ∀ used, used ≤ budget →
      under used = (if xs = [] then outcome_of (value.bind serve) used else .missing).orElse
        (scan budget serve xs used below)) :
    (scan budget serve (x :: xs) used
        (([label], value) :: below.map fun node => (label :: node.1, node.2))) =
      enter budget label x used under := by
  have hown : opens [label] (x :: xs) = label.accepts x := by simp [opens]
  have hend : accepts_all [label] (x :: xs) = (label.accepts x && xs = []) := by
    cases xs with
    | nil => simp [accepts_all]
    | cons y ys => simp [accepts_all]
  rw [scan, scan_under, hown, hend, enter]
  cases hwildcard : label.wildcard with
  | true =>
    have haccepts : label.accepts x = true := by simp [Label.accepts, hwildcard]
    have hone : wildcards [label] = 1 := by simp [wildcards, hwildcard]
    simp only [haccepts, hone, Bool.true_and, if_true, true_and, decide_eq_true_eq]
    by_cases hroom : used < budget
    · rw [if_pos hroom, if_neg (Nat.not_lt.mpr hroom), hunder _ hroom]
    · rw [if_neg hroom, if_pos (Nat.lt_succ_of_le (Nat.not_lt.mp hroom))]
      rfl
  | false =>
    have haccepts : label.accepts x = decide (label.name = x) := by simp [Label.accepts, hwildcard]
    have hzero : wildcards [label] = 0 := by simp [wildcards, hwildcard]
    rw [haccepts, hzero]
    by_cases hname : label.name = x
    · simp [hname, hunder used hused, Nat.not_lt.mpr hused]
    · simp [hname]

theorem search_eq_scan (f : Forest α V) (x : α) (xs : List α) {used : Nat} (hused : used ≤ budget) :
    f.search budget serve x xs used = scan budget serve (x :: xs) used f.nodes := by
  induction f generalizing x xs used with
  | nil => rfl
  | cons label value children siblings ihchildren ihsiblings =>
    rw [nodes, scan_append, ← ihsiblings x xs hused]
    cases xs with
    | nil =>
      rw [search_last]
      congr 1
      refine (scan_branch hused fun used _ => ?_).symm
      rw [if_pos rfl, scan_nil, Outcome.orElse_missing]
    | cons y ys =>
      rw [search_more]
      congr 1
      refine (scan_branch hused fun used hused => ?_).symm
      rw [if_neg (List.cons_ne_nil y ys), ihchildren y ys hused, Outcome.missing_orElse]

/-- What is found under a label, with and without a budget. -/
theorem enter_result {label : Label α} {x : α} {used : Nat} {under : Nat → Outcome R} {result : Option R}
    (hunder : ∀ used, under used ≠ .exhausted → result = (under used).result)
    (h : enter budget label x used under ≠ .exhausted) :
    (if label.accepts x then result else none) = (enter budget label x used under).result := by
  rw [enter] at h ⊢
  cases hwildcard : label.wildcard with
  | true =>
    have haccepts : label.accepts x = true := by simp [Label.accepts, hwildcard]
    rw [hwildcard, if_pos rfl] at h
    rw [haccepts, if_pos rfl, if_pos rfl]
    by_cases hroom : used < budget
    · rw [if_pos hroom] at h ⊢
      exact hunder _ h
    · rw [if_neg hroom] at h
      exact absurd rfl h
  | false =>
    have haccepts : label.accepts x = decide (label.name = x) := by simp [Label.accepts, hwildcard]
    rw [hwildcard, if_neg Bool.false_ne_true] at h
    rw [haccepts, if_neg Bool.false_ne_true]
    by_cases hname : label.name = x
    · rw [if_pos hname] at h
      rw [if_pos (decide_eq_true hname), if_pos hname]
      exact hunder _ h
    · rw [if_neg (by simpa using hname), if_neg hname]
      rfl

/-- Where the budget is enough, the search finds what the search without a budget
finds. -/
theorem find_eq_search {f : Forest α V} {x : α} {xs : List α} {used : Nat}
    (h : f.search budget serve x xs used ≠ .exhausted) :
    f.find serve x xs = (f.search budget serve x xs used).result := by
  induction f generalizing x xs used with
  | nil => rfl
  | cons label value children siblings ihchildren ihsiblings =>
    have hbranch : ∀ {first : Outcome R} {result : Option R},
        first.orElse (siblings.search budget serve x xs used) ≠ .exhausted →
        (first ≠ .exhausted → result = first.result) →
        (result <|> siblings.find serve x xs) = (first.orElse (siblings.search budget serve x xs used)).result := by
      intro first result h hfirst
      cases first with
      | missing =>
        rw [hfirst nofun]
        exact ihsiblings h
      | found result used =>
        rw [hfirst nofun]
        rfl
      | exhausted => exact absurd rfl h
    cases xs with
    | nil =>
      rw [find_last, search_last]
      exact hbranch h (enter_result fun used _ => (result_outcome_of _ used).symm)
    | cons y ys =>
      rw [find_more, search_more]
      exact hbranch h (enter_result fun used hbelow => ihchildren hbelow)

/-- The word ends at the node and is served there. -/
def takes (serve : V → Option R) (word : List α) (node : List (Label α) × Option V) : Bool :=
  accepts_all node.1 word && (node.2.bind serve).isSome

/-- The search for a word comes to a node: it is open to the word, and no node
before it takes the word. -/
def Visited (serve : V → Option R) (word : List α) (nodes : List (List (Label α) × Option V))
    (node : List (Label α) × Option V) : Prop :=
  ∃ before after, nodes = before ++ node :: after ∧ (∀ earlier ∈ before, takes serve word earlier = false) ∧
    opens node.1 word = true

theorem visited_head {word : List α} {node : List (Label α) × Option V} (h : opens node.1 word = true)
    (rest : List (List (Label α) × Option V)) : Visited serve word (node :: rest) node :=
  ⟨[], rest, rfl, nofun, h⟩

theorem Visited.cons {word : List α} {first node : List (Label α) × Option V}
    {rest : List (List (Label α) × Option V)} (h : Visited serve word rest node)
    (hfirst : takes serve word first = false) : Visited serve word (first :: rest) node := by
  obtain ⟨before, after, rfl, hbefore, hopens⟩ := h
  exact ⟨first :: before, after, rfl, List.forall_mem_cons.mpr ⟨hfirst, hbefore⟩, hopens⟩

theorem outcome_of_takes {word : List α} {node : List (Label α) × Option V} (used : Nat) :
    (if accepts_all node.1 word then outcome_of (node.2.bind serve) used else .missing) =
      if takes serve word node then outcome_of (node.2.bind serve) used else .missing := by
  cases hresult : node.2.bind serve with
  | none => simp [takes, hresult, outcome_of]
  | some result => simp [takes, hresult]

/-- Within the budget, the search ends at the first node that takes the word. -/
theorem scan_eq_of_visited {word : List α} {used : Nat} {nodes : List (List (Label α) × Option V)}
    (h : ∀ node, Visited serve word nodes node → used + wildcards node.1 ≤ budget) :
    scan budget serve word used nodes =
      (nodes.find? (takes serve word)).elim .missing fun node =>
        outcome_of (node.2.bind serve) (used + wildcards node.1) := by
  induction nodes with
  | nil => rfl
  | cons node nodes ih =>
    have hroom : ¬ (opens node.1 word = true ∧ budget < used + wildcards node.1) :=
      fun hover => Nat.not_lt.mpr (h node (visited_head hover.1 nodes)) hover.2
    rw [scan, if_neg hroom, outcome_of_takes, List.find?_cons]
    cases htakes : takes serve word node with
    | true =>
      obtain ⟨result, hresult⟩ := Option.isSome_iff_exists.mp (Bool.and_eq_true_iff.mp htakes).2
      rw [if_pos rfl]
      dsimp only [Option.elim]
      rw [hresult]
      rfl
    | false =>
      rw [if_neg Bool.false_ne_true]
      exact ih fun later hlater => h later (hlater.cons htakes)

/-- The search fails at a node that it comes to with too many wildcards. -/
theorem scan_eq_exhausted {word : List α} {used : Nat} {nodes : List (List (Label α) × Option V)}
    {node : List (Label α) × Option V} (hvisited : Visited serve word nodes node)
    (hover : budget < used + wildcards node.1) : scan budget serve word used nodes = .exhausted := by
  obtain ⟨before, after, rfl, hbefore, hopens⟩ := hvisited
  induction before with
  | nil =>
    rw [List.nil_append, scan, if_pos ⟨hopens, hover⟩]
    rfl
  | cons first before ih =>
    obtain ⟨hfirst, hbefore⟩ := List.forall_mem_cons.mp hbefore
    rw [List.cons_append, scan, ih hbefore, outcome_of_takes, hfirst, if_neg Bool.false_ne_true]
    split
    · rfl
    · rfl

/-- Within the budget, the search of the nodes ends without a result if none of them takes the word. -/
theorem scan_eq_missing_iff {word : List α} {used : Nat} {nodes : List (List (Label α) × Option V)}
    (h : scan budget serve word used nodes ≠ .exhausted) :
    scan budget serve word used nodes = .missing ↔ ∀ node ∈ nodes, takes serve word node = false := by
  have hvisited : ∀ node, Visited serve word nodes node → used + wildcards node.1 ≤ budget := by
    intro node hnode
    by_contra hover
    exact h (scan_eq_exhausted hnode (Nat.not_le.mp hover))
  rw [scan_eq_of_visited hvisited]
  cases hfirst : nodes.find? (takes serve word) with
  | none =>
    refine iff_of_true rfl fun node hnode => ?_
    simpa using List.find?_eq_none.mp hfirst node hnode
  | some node =>
    have htakes := List.find?_some hfirst
    obtain ⟨result, hresult⟩ := Option.isSome_iff_exists.mp (Bool.and_eq_true_iff.mp htakes).2
    refine iff_of_false ?_ fun hnone => ?_
    · rw [Option.elim, hresult, outcome_of]
      intro heq
      cases heq
    · rw [hnone node (List.mem_of_find?_eq_some hfirst)] at htakes
      cases htakes

variable (budget) in
/-- A node is open to the word beyond the budget. -/
def Overdrawn (word : List α) (used : Nat) (nodes : List (List (Label α) × Option V)) : Prop :=
  ∃ node ∈ nodes, opens node.1 word = true ∧ budget < used + wildcards node.1

/-- Nodes without values can only end a search by exhausting it. -/
theorem scan_valueless {word : List α} {used : Nat} {nodes : List (List (Label α) × Option V)}
    (h : ∀ node ∈ nodes, node.2 = none) :
    Overdrawn budget word used nodes ∧ scan budget serve word used nodes = .exhausted ∨
      ¬ Overdrawn budget word used nodes ∧ scan budget serve word used nodes = .missing := by
  induction nodes with
  | nil =>
    refine .inr ⟨?_, rfl⟩
    rintro ⟨node, hnode, -⟩
    cases hnode
  | cons node nodes ih =>
    obtain ⟨hfirst, hrest⟩ := List.forall_mem_cons.mp h
    rw [scan, hfirst]
    by_cases hover : opens node.1 word = true ∧ budget < used + wildcards node.1
    · rw [if_pos hover]
      exact .inl ⟨⟨node, List.mem_cons_self, hover⟩, rfl⟩
    · rw [if_neg hover, Option.bind_none, outcome_of, ite_self, Outcome.missing_orElse]
      refine (ih hrest).imp (And.imp_left ?_) (And.imp_left ?_)
      · rintro ⟨later, hlater, hopen⟩
        exact ⟨later, List.mem_cons_of_mem _ hlater, hopen⟩
      · rintro hnone ⟨other, hother, hopen⟩
        rcases List.mem_cons.mp hother with rfl | hlater
        · exact hover hopen
        · exact hnone ⟨other, hlater, hopen⟩

/-- Among other nodes, nodes without values exhaust exactly the searches that come to them and find them
open beyond the budget. -/
theorem scan_insert_exhausted_iff {word : List α} {used : Nat} {before added after : List (List (Label α) × Option V)}
    (hadded : ∀ node ∈ added, node.2 = none) :
    scan budget serve word used (before ++ (added ++ after)) = .exhausted ↔
      scan budget serve word used (before ++ after) = .exhausted ∨
        (∀ node ∈ before, takes serve word node = false) ∧ Overdrawn budget word used added := by
  rw [scan_append, scan_append, scan_append]
  cases hbefore : scan budget serve word used before with
  | found result count =>
    refine (iff_of_false (fun heq => by cases heq) ?_)
    rintro (hlater | ⟨hnone, -⟩)
    · cases hlater
    · rw [(scan_eq_missing_iff (by rw [hbefore]; intro heq; cases heq)).mpr hnone] at hbefore
      cases hbefore
  | exhausted => exact iff_of_true rfl (.inl rfl)
  | missing =>
    have hpassed := (scan_eq_missing_iff (by rw [hbefore]; intro heq; cases heq)).mp hbefore
    rw [Outcome.missing_orElse, Outcome.missing_orElse]
    rcases @scan_valueless _ _ _ _ budget serve word used added hadded with ⟨hover, hscan⟩ | ⟨hnot, hscan⟩
    · rw [hscan]
      exact iff_of_true rfl (.inr ⟨hpassed, hover⟩)
    · rw [hscan, Outcome.missing_orElse]
      exact ⟨.inl, fun h => h.resolve_right fun hover => hnot hover.2⟩

end search

end Forest

end ordered_trie
