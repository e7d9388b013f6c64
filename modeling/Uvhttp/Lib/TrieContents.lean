import Uvhttp.Lib.OrderedTrie

/-! What an ordered trie contains after a list of insertions, told from the list
alone, and which of the inserted entries a search finds. -/

namespace ordered_trie

variable {α V H : Type} [DecidableEq α]

/-- An entry to be inserted, with the labels that are left of its path. -/
abbrev Entry (α V : Type) := List (Label α) × V

def names (labels : List (Label α)) : List α := labels.map Label.name

/-- The branches of a node: the first labels of its entries, each name in its
first occurrence. -/
def branches (rs : List (Entry α V)) : List (Label α) :=
  rs.foldl (fun found r =>
    match r.1 with
    | [] => found
    | label :: _ => if found.any (·.name = label.name) then found else found ++ [label]) []

/-- The entries that go on below the branch of a name. -/
def under (rs : List (Entry α V)) (name : α) : List (Entry α V) :=
  rs.filterMap fun r =>
    match r.1 with
    | [] => none
    | label :: labels => if label.name = name then some (labels, r.2) else none

/-- The value of a node: that of the last entry which ends there. -/
def ending (rs : List (Entry α V)) : Option V :=
  (rs.filterMap fun r => if r.1 = [] then some r.2 else none).getLast?

/-- The word's search in the entries. -/
def answer (serve : V → Option H) (rs : List (Entry α V)) : List α → Option H
  | [] => (ending rs).bind serve
  | x :: xs =>
    (branches rs).findSome? fun label => if label.accepts x then answer serve (under rs label.name) xs else none

/-- The forest has been built from the entries. -/
def Represents : Forest α V → List (Label α) → List (Entry α V) → Prop
  | .nil, [], _ => True
  | .cons label value children siblings, first :: rest, rs =>
    label = first ∧ value = ending (under rs label.name) ∧
      Represents children (branches (under rs label.name)) (under rs label.name) ∧ Represents siblings rest rs
  | _, _, _ => False

section append

variable (rs : List (Entry α V)) (label : Label α) (labels : List (Label α)) (value : V)

theorem branches_append_end : branches (rs ++ [([], value)]) = branches rs := by
  rw [branches, List.foldl_append]
  rfl

theorem branches_append : branches (rs ++ [(label :: labels, value)]) =
    if (branches rs).any (·.name = label.name) then branches rs else branches rs ++ [label] := by
  rw [branches, List.foldl_append]
  rfl

theorem under_append_end (name : α) : under (rs ++ [([], value)]) name = under rs name := by
  rw [under, List.filterMap_append]
  simp [under]

theorem under_append_same : under (rs ++ [(label :: labels, value)]) label.name =
    under rs label.name ++ [(labels, value)] := by
  rw [under, List.filterMap_append]
  simp [under]

theorem under_append_other {name : α} (h : label.name ≠ name) :
    under (rs ++ [(label :: labels, value)]) name = under rs name := by
  rw [under, List.filterMap_append]
  simp [under, h]

omit [DecidableEq α] in
theorem ending_append_end : ending (rs ++ [([], value)]) = some value := by
  rw [ending, List.filterMap_append]
  simp

omit [DecidableEq α] in
theorem ending_append : ending (rs ++ [(label :: labels, value)]) = ending rs := by
  rw [ending, List.filterMap_append]
  simp [ending]

end append

/-- The branches are those names that something goes on below. -/
theorem mem_branches {rs : List (Entry α V)} {name : α} :
    (∃ label ∈ branches rs, label.name = name) ↔ under rs name ≠ [] := by
  induction rs using List.reverseRecOn with
  | nil => simp [branches, under]
  | append_singleton rs r ih =>
    obtain ⟨labels, value⟩ := r
    cases labels with
    | nil => rw [branches_append_end, under_append_end, ih]
    | cons label labels =>
      rw [branches_append]
      by_cases hsame : label.name = name
      · subst hsame
        rw [under_append_same]
        refine iff_of_true ?_ (by simp)
        split
        · rename_i hany
          simpa using hany
        · exact ⟨label, by simp, rfl⟩
      · rw [under_append_other _ _ _ _ hsame, ← ih]
        split
        · rfl
        · simp [hsame]

theorem branches_nodup (rs : List (Entry α V)) : ((branches rs).map Label.name).Nodup := by
  induction rs using List.reverseRecOn with
  | nil => exact List.nodup_nil
  | append_singleton rs r ih =>
    obtain ⟨labels, value⟩ := r
    cases labels with
    | nil =>
      rw [branches_append_end]
      exact ih
    | cons label labels =>
      rw [branches_append]
      split
      · exact ih
      · rename_i hnew
        rw [List.map_append, List.nodup_append]
        refine ⟨ih, List.nodup_singleton _, ?_⟩
        intro name hname other hother
        simp only [List.any_eq_true, decide_eq_true_eq, not_exists, not_and] at hnew
        simp only [List.map_cons, List.map_nil, List.mem_singleton] at hother
        obtain ⟨old, hold, rfl⟩ := List.mem_map.mp hname
        exact fun heq => hnew old hold (heq.trans hother)

/-- Only what lies below the listed branches matters. -/
theorem Represents.congr {f : Forest α V} {bs : List (Label α)} {rs rs' : List (Entry α V)}
    (h : Represents f bs rs) (hunder : ∀ b ∈ bs, under rs b.name = under rs' b.name) : Represents f bs rs' := by
  induction f generalizing bs with
  | nil =>
    cases bs with
    | nil => trivial
    | cons b bs => exact h
  | cons label value children siblings _ ihsiblings =>
    cases bs with
    | nil => exact h
    | cons b bs =>
      obtain ⟨rfl, hvalue, hchildren, hsiblings⟩ := h
      have hfirst := hunder label List.mem_cons_self
      refine ⟨rfl, ?_, ?_, ihsiblings hsiblings fun b hb => hunder b (List.mem_cons_of_mem _ hb)⟩
      · rw [← hfirst]
        exact hvalue
      · rw [← hfirst]
        exact hchildren

theorem represents_chain {rs : List (Entry α V)} {label : Label α} {labels : List (Label α)} {value : V}
    (h : under rs label.name = [(labels, value)]) :
    Represents (Forest.chain id value label labels) [label] rs := by
  induction labels generalizing rs label with
  | nil => exact ⟨rfl, by rw [id, h]; rfl, by rw [id, h]; trivial, trivial⟩
  | cons next labels ih =>
    refine ⟨rfl, by rw [id, h]; rfl, ?_, trivial⟩
    have hbelow : under (under rs label.name) next.name = [(labels, value)] := by
      rw [h]
      simp [under]
    have hbranches : branches (under rs label.name) = [next] := by
      rw [h]
      rfl
    rw [id, hbranches]
    exact ih hbelow

/-- Insertion adds an entry behind the others. -/
theorem Represents.insert {f : Forest α V} {bs : List (Label α)} {rs : List (Entry α V)} (h : Represents f bs rs)
    (hnodup : (bs.map Label.name).Nodup) {label : Label α} {labels : List (Label α)} (value : V)
    (hnew : ¬ bs.any (·.name = label.name) → under rs label.name = []) :
    Represents (f.insert id value label labels) (if bs.any (·.name = label.name) then bs else bs ++ [label])
      (rs ++ [(label :: labels, value)]) := by
  induction f generalizing bs rs label labels with
  | nil =>
    cases bs with
    | cons b bs => exact h.elim
    | nil =>
      apply represents_chain
      rw [under_append_same, hnew (by simp)]
      rfl
  | cons first old children siblings ihchildren ihsiblings =>
    cases bs with
    | nil => exact h.elim
    | cons b bs =>
      obtain ⟨rfl, hvalue, hchildren, hsiblings⟩ := h
      obtain ⟨hfresh, hrest⟩ := List.nodup_cons.mp hnodup
      rw [Forest.insert.eq_def]
      dsimp only
      by_cases hsame : first.name = label.name
      · have hany : (first :: bs).any (·.name = label.name) = true := by simp [hsame]
        have hbehind : Represents siblings bs (rs ++ [(label :: labels, value)]) := by
          refine hsiblings.congr fun b hb => (under_append_other _ _ _ _ ?_).symm
          intro hname
          exact hfresh (hsame.trans hname ▸ List.mem_map_of_mem hb)
        rw [if_pos hsame, if_pos hany]
        cases labels with
        | nil =>
          refine ⟨rfl, ?_, ?_, hbehind⟩
          · rw [hsame, under_append_same, ending_append_end]
          · rw [hsame, under_append_same, branches_append_end, ← hsame]
            exact hchildren.congr fun b _ => (under_append_end _ _ _).symm
        | cons next labels =>
          refine ⟨rfl, ?_, ?_, hbehind⟩
          · rw [hsame, under_append_same, ending_append, ← hsame]
            exact hvalue
          · rw [hsame, under_append_same, branches_append, ← hsame]
            refine ihchildren hchildren (branches_nodup _) fun hnone => ?_
            by_contra hsome
            obtain ⟨l, hl, hname⟩ := mem_branches.mpr hsome
            exact hnone (by simpa using ⟨l, hl, hname⟩)
      · have hany : (first :: bs).any (·.name = label.name) = bs.any (·.name = label.name) := by simp [hsame]
        have hother : under (rs ++ [(label :: labels, value)]) first.name = under rs first.name :=
          under_append_other _ _ _ _ (Ne.symm hsame)
        have hbehind : Represents (siblings.insert id value label labels)
            (if bs.any (·.name = label.name) then bs else bs ++ [label]) (rs ++ [(label :: labels, value)]) :=
          ihsiblings hsiblings hrest (by rwa [hany] at hnew)
        rw [if_neg hsame, hany]
        have hhere : ∀ rest, Represents (siblings.insert id value label labels) rest
            (rs ++ [(label :: labels, value)]) →
            Represents (Forest.cons first old children (siblings.insert id value label labels)) (first :: rest)
              (rs ++ [(label :: labels, value)]) := by
          intro rest hsib
          refine ⟨rfl, ?_, ?_, hsib⟩
          · rw [hother]
            exact hvalue
          · rw [hother]
            exact hchildren
        split
        · rename_i hin
          rw [if_pos hin] at hbehind
          exact hhere bs hbehind
        · rename_i hout
          rw [if_neg hout] at hbehind
          exact hhere (bs ++ [label]) hbehind

/-- The search in a forest finds what the entries answer. -/
theorem Represents.find_eq (serve : V → Option H) {f : Forest α V} {bs : List (Label α)} {rs : List (Entry α V)}
    (h : Represents f bs rs) (x : α) (xs : List α) :
    f.find serve x xs =
      bs.findSome? fun label => if label.accepts x then answer serve (under rs label.name) xs else none := by
  induction f generalizing bs rs x xs with
  | nil =>
    cases bs with
    | nil => rfl
    | cons b bs => exact h.elim
  | cons label value children siblings ihchildren ihsiblings =>
    cases bs with
    | nil => exact h.elim
    | cons b bs =>
      obtain ⟨rfl, hvalue, hchildren, hsiblings⟩ := h
      have hbehind := ihsiblings hsiblings x xs
      rw [List.findSome?_cons, ← hbehind]
      cases xs with
      | nil =>
        rw [Forest.find_last, hvalue]
        cases haccepts : label.accepts x with
        | false => simp
        | true =>
          simp only [if_true, answer]
          cases (ending (under rs label.name)).bind serve with
          | none => rfl
          | some handler => rfl
      | cons y ys =>
        rw [Forest.find_more, ihchildren hchildren]
        cases haccepts : label.accepts x with
        | false => simp
        | true =>
          simp only [if_true, answer]
          cases (branches (under rs label.name)).findSome? fun l =>
              if l.accepts y then answer serve (under (under rs label.name) l.name) ys else none with
          | none => rfl
          | some handler => rfl

section precedence

/-- The last entry inserted under a list of names. -/
def latest (rs : List (Entry α V)) (ns : List α) : Option (Entry α V) :=
  (rs.filter fun r => names r.1 = ns).getLast?

/-- Whether the branch of the entries with these names is open to a word. Its
labels are those of the entries that opened it. -/
def Accepts (rs : List (Entry α V)) : List α → List α → Prop
  | [], [] => True
  | n :: ns, x :: xs => (∃ label ∈ branches rs, label.name = n ∧ label.accepts x = true) ∧ Accepts (under rs n) ns xs
  | _, _ => False

/-- The branch of the first names stands before that of the second: where they
part, it was opened earlier. -/
def Overtakes (rs : List (Entry α V)) : List α → List α → Prop
  | m :: ms, n :: ns =>
    if m = n then Overtakes (under rs n) ms ns
    else (branches rs).findIdx (·.name = m) < (branches rs).findIdx (·.name = n)
  | _, _ => False

instance decidable_accepts (rs : List (Entry α V)) (ns word : List α) : Decidable (Accepts rs ns word) :=
  match ns, word with
  | [], [] => .isTrue trivial
  | n :: ns, _ :: xs =>
    have := decidable_accepts (under rs n) ns xs
    inferInstanceAs (Decidable (_ ∧ _))
  | [], _ :: _ => .isFalse id
  | _ :: _, [] => .isFalse id

instance decidable_overtakes (rs : List (Entry α V)) (ms ns : List α) : Decidable (Overtakes rs ms ns) :=
  match ms, ns with
  | m :: ms, n :: ns =>
    have := decidable_overtakes (under rs n) ms ns
    inferInstanceAs (Decidable (if m = n then _ else _))
  | [], _ => .isFalse id
  | _ :: _, [] => .isFalse id

theorem latest_mem {rs : List (Entry α V)} {ns : List α} {r : Entry α V} (h : latest rs ns = some r) :
    r ∈ rs ∧ names r.1 = ns := by
  have hmem := List.mem_of_getLast? h
  simpa using hmem

theorem filter_under (rs : List (Entry α V)) (n : α) (ns : List α) :
    (under rs n).filter (fun r => names r.1 = ns) =
      (rs.filter fun r => names r.1 = n :: ns).map fun r => (r.1.tail, r.2) := by
  induction rs with
  | nil => rfl
  | cons r rs ih =>
    obtain ⟨labels, value⟩ := r
    cases labels with
    | nil => simpa [under, names] using ih
    | cons label labels =>
      by_cases hname : label.name = n
      · by_cases hnames : names labels = ns
        · simp_all [under, names]
        · simp_all [under, names]
      · simp_all [under, names]

theorem latest_under (rs : List (Entry α V)) (n : α) (ns : List α) :
    latest (under rs n) ns = (latest rs (n :: ns)).map fun r => (r.1.tail, r.2) := by
  rw [latest, filter_under, List.getLast?_map, latest]

theorem ending_eq_latest (rs : List (Entry α V)) : ending rs = (latest rs []).map Prod.snd := by
  rw [ending, latest, ← List.getLast?_map]
  congr 1
  induction rs with
  | nil => rfl
  | cons r rs ih =>
    obtain ⟨labels, value⟩ := r
    cases labels with
    | nil => simpa [names] using ih
    | cons label labels => simpa [names] using ih

/-- What is found was inserted, and not replaced. -/
theorem exists_of_answer {serve : V → Option H} {rs : List (Entry α V)} {word : List α} {handler : H}
    (h : answer serve rs word = some handler) :
    ∃ r, latest rs (names r.1) = some r ∧ Accepts rs (names r.1) word ∧ serve r.2 = some handler := by
  induction word generalizing rs with
  | nil =>
    rw [answer, ending_eq_latest] at h
    cases hlatest : latest rs [] with
    | none =>
      rw [hlatest] at h
      cases h
    | some r =>
      rw [hlatest] at h
      have hnames := (latest_mem hlatest).2
      refine ⟨r, by rw [hnames, hlatest], ?_, h⟩
      rw [hnames]
      trivial
  | cons x xs ih =>
    rw [answer] at h
    obtain ⟨label, hlabel, hfound⟩ := List.exists_of_findSome?_eq_some h
    cases haccepts : label.accepts x with
    | false => simp [haccepts] at hfound
    | true =>
      simp only [haccepts, if_true] at hfound
      obtain ⟨r, hlatest, hword, hserve⟩ := ih hfound
      rw [latest_under] at hlatest
      obtain ⟨whole, hwhole, hr⟩ := Option.map_eq_some_iff.mp hlatest
      have hnames := (latest_mem hwhole).2
      refine ⟨whole, by rw [hnames, hwhole], ?_, ?_⟩
      · rw [hnames]
        exact ⟨⟨label, hlabel, rfl, haccepts⟩, hword⟩
      · rw [← hserve, ← hr]

/-- A branch stands before another exactly when its label does. -/
theorem findIdx_lt_of_split {before after : List (Label α)} {first second : Label α} (hfirst : first ∈ before)
    (hsecond : ∀ label ∈ before, label.name ≠ second.name) :
    (before ++ second :: after).findIdx (·.name = first.name) <
      (before ++ second :: after).findIdx (·.name = second.name) := by
  have hfound : before.findIdx (·.name = first.name) < before.length :=
    List.findIdx_lt_length.mpr ⟨first, hfirst, by simp⟩
  have hnone : ¬ before.findIdx (·.name = second.name) < before.length := by
    intro hlt
    obtain ⟨label, hlabel, hname⟩ := List.findIdx_lt_length.mp hlt
    exact hsecond label hlabel (by simpa using hname)
  rw [List.findIdx_append, List.findIdx_append, if_pos hfound, if_neg hnone]
  exact hfound.trans_le (Nat.le_add_left _ _)

/-- An entry that the names of another find in its place: its branch is open to
them and stands before the other's. -/
structure Overtaker (serve : V → Option H) (rs : List (Entry α V)) (word : List α) (found : H) (ns : List α)
    (q : Entry α V) : Prop where
  latest : latest rs ns = some q
  other : ns ≠ word
  serves : serve q.2 = some found
  accepts : Accepts rs ns word
  overtakes : Overtakes rs ns word

/-- Whether all that overtakes an entry has the same handler, told entry by
entry. -/
theorem overtakers_agree_iff {serve : V → Option H} {rs : List (Entry α V)} {word : List α} {handler : H} :
    (∀ found ns q, Overtaker serve rs word found ns q → found = handler) ↔
      ∀ q ∈ rs, latest rs (names q.1) = some q → names q.1 ≠ word → Accepts rs (names q.1) word →
        Overtakes rs (names q.1) word → ∀ found ∈ serve q.2, found = handler := by
  refine ⟨fun h q _ hlatest hother haccepts hovertakes found hserves => ?_, fun h found ns q hq => ?_⟩
  · exact h found (names q.1) q ⟨hlatest, hother, hserves, haccepts, hovertakes⟩
  · obtain ⟨hmem, rfl⟩ := latest_mem hq.latest
    exact h q hmem hq.latest hq.other hq.accepts hq.overtakes found hq.serves

/-- The names of an entry that serves and has not been replaced find its
handler, or that of an entry that overtakes it. -/
theorem answer_latest {serve : V → Option H} {rs : List (Entry α V)} {word : List α} {r : Entry α V} {handler : H}
    (hlatest : latest rs word = some r) (hserve : serve r.2 = some handler) :
    ∃ found, answer serve rs word = some found ∧
      (found = handler ∨ ∃ ns q, Overtaker serve rs word found ns q) := by
  induction word generalizing rs r with
  | nil =>
    refine ⟨handler, ?_, .inl rfl⟩
    rw [answer, ending_eq_latest, hlatest]
    exact hserve
  | cons n word ih =>
    have hbelow : latest (under rs n) word = some (r.1.tail, r.2) := by rw [latest_under, hlatest]; rfl
    have hopen : under rs n ≠ [] := List.ne_nil_of_mem (latest_mem hbelow).1
    obtain ⟨b, hb, rfl⟩ := mem_branches.mpr hopen
    obtain ⟨before, after, hsplit⟩ := List.append_of_mem hb
    have hparted : ∀ a ∈ before, a.name ≠ b.name := by
      have hnodup := branches_nodup rs
      rw [hsplit, List.map_append, List.nodup_append] at hnodup
      exact fun a ha => hnodup.2.2 a.name (List.mem_map_of_mem ha) b.name (by simp)
    have haccepts : b.accepts b.name = true := by simp [Label.accepts]
    rw [answer, hsplit, List.findSome?_append, List.findSome?_cons, haccepts, if_pos rfl]
    cases hbefore : before.findSome? fun label =>
        if label.accepts b.name then answer serve (under rs label.name) word else none with
    | none =>
      obtain ⟨found, hfound, hwho⟩ := ih hbelow hserve
      rw [hfound]
      refine ⟨found, rfl, hwho.imp_right ?_⟩
      rintro ⟨ns, q, hq⟩
      have hlatest' := hq.latest
      rw [latest_under] at hlatest'
      obtain ⟨whole, hwhole, rfl⟩ := Option.map_eq_some_iff.mp hlatest'
      refine ⟨b.name :: ns, whole, ⟨hwhole, ?_, hq.serves, ⟨⟨b, hb, rfl, haccepts⟩, hq.accepts⟩, ?_⟩⟩
      · exact fun heq => hq.other (List.cons.inj heq).2
      · rw [Overtakes, if_pos rfl]
        exact hq.overtakes
    | some found =>
      refine ⟨found, rfl, .inr ?_⟩
      obtain ⟨a, ha, hfound⟩ := List.exists_of_findSome?_eq_some hbefore
      cases ha' : a.accepts b.name with
      | false => simp [ha'] at hfound
      | true =>
        simp only [ha', if_true] at hfound
        obtain ⟨q, hq, hword, hserves⟩ := exists_of_answer hfound
        rw [latest_under] at hq
        obtain ⟨whole, hwhole, rfl⟩ := Option.map_eq_some_iff.mp hq
        refine ⟨_, whole, ⟨hwhole, ?_, hserves, ⟨⟨a, ?_, rfl, ha'⟩, hword⟩, ?_⟩⟩
        · exact fun heq => hparted a ha (List.cons.inj heq).1
        · rw [hsplit]
          exact List.mem_append_left _ ha
        · rw [Overtakes, if_neg (hparted a ha), hsplit]
          exact findIdx_lt_of_split ha hparted

end precedence

end ordered_trie
