import Mathlib.Tactic

/-! Resources that a program takes and gives back: which of them it holds on every path. -/

namespace ledger

/-- The resources in use, and the number of requests so far. A resource is named by the request that it answers. -/
structure Ledger where
  held : List Nat
  requests : Nat
  deriving DecidableEq, Repr

/-- A program with resources: `none` is a resource given back that is not in use. -/
abbrev LedgerM := StateT Ledger Option

def acquire (granted : Nat → Bool) : LedgerM (Option Nat) := fun l =>
  if granted l.requests then some (some l.requests, ⟨l.requests :: l.held, l.requests + 1⟩)
  else some (none, ⟨l.held, l.requests + 1⟩)

def release (r : Nat) : LedgerM Unit := fun l =>
  if l.held.contains r then some ((), ⟨l.held.erase r, l.requests⟩) else none

def release_all : List Nat → LedgerM Unit
  | [] => pure ()
  | r :: rs => do
    release r
    release_all rs

/-- Work with a resource: `none` if it is not in use. -/
def touch (r : Nat) : LedgerM Unit := fun l => if l.held.contains r then some ((), l) else none

/-- Work with what a pointer leads to: `none` also if it leads nowhere. -/
def deref : Option Nat → LedgerM Unit
  | none => fun _ => none
  | some r => touch r

/-- A resource in the place of an old one, which stays where the request is refused. -/
def reacquire (granted : Nat → Bool) (old : Option Nat) : LedgerM (Option Nat) := do
  match ← acquire granted with
  | none => pure none
  | some new => do
    release_all old.toList
    pure (some new)

/-- Give back what an object holds, if there is one. -/
def release_object {α : Type} (free : α → LedgerM Unit) : Option α → LedgerM Unit
  | none => pure ()
  | some a => free a

/-- The resources of an object that may be missing. -/
def resources_of {α : Type} (resources : α → List Nat) (object : Option α) : List Nat := (object.map resources).getD []

/-- One call after the other on a state, and the resources that they lose. -/
def run_losing {S C : Type} (perform : S → C → LedgerM (S × List Nat)) : S → List C → LedgerM (S × List Nat)
  | s, [] => pure (s, [])
  | s, call :: calls => do
    let (next, lost) ← perform s call
    let (last, later) ← run_losing perform next calls
    pure (last, lost ++ later)

/-- A call with the resources that it loses, told from the states before and after it. -/
def losing {S C : Type} (perform : S → C → LedgerM S) (loses : S → S → C → List Nat) (s : S) (call : C) :
    LedgerM (S × List Nat) := (fun next => (next, loses s next call)) <$> perform s call

/-- Exactly these resources are in use. -/
structure Ledger.Holds (l : Ledger) (rs : List Nat) : Prop where
  perm : l.held.Perm rs
  nodup : l.held.Nodup
  below : ∀ r ∈ l.held, r < l.requests

/-- With the resources `before`, and whatever others are in use, a program returns; it then has the
resources that `after` says of its result, and the others are still in use. -/
def Accounts {α : Type} (m : LedgerM α) (before : List Nat) (after : α → List Nat → Prop) : Prop :=
  ∀ others l, Ledger.Holds l (before ++ others) →
    ∃ a rs l', m l = some (a, l') ∧ after a rs ∧ Ledger.Holds l' (rs ++ others)

section rules

variable {α β : Type} {granted : Nat → Bool} {l : Ledger} {before rs rest : List Nat} {r : Nat}
  {m : LedgerM α} {f : α → LedgerM β} {after : α → List Nat → Prop} {later : β → List Nat → Prop}

theorem Ledger.Holds.of_perm (h : l.Holds rs) (hperm : rs.Perm rest) : l.Holds rest :=
  ⟨h.perm.trans hperm, h.nodup, h.below⟩

/-- The name of the next request is not in use. -/
theorem Ledger.Holds.fresh (h : l.Holds rs) : l.requests ∉ l.held := fun hmem => Nat.lt_irrefl _ (h.below _ hmem)

theorem acquire_cases (h : l.Holds rs) :
    (∃ l', acquire granted l = some (some l.requests, l') ∧ l'.Holds (l.requests :: rs)) ∨
      ∃ l', acquire granted l = some (none, l') ∧ l'.Holds rs := by
  rw [acquire]
  by_cases hgranted : granted l.requests = true
  · rw [if_pos hgranted]
    refine .inl ⟨_, rfl, h.perm.cons _, List.nodup_cons.mpr ⟨h.fresh, h.nodup⟩, ?_⟩
    intro r hr
    obtain rfl | hr := List.mem_cons.mp hr
    · exact Nat.lt_succ_self _
    · exact Nat.lt_succ_of_lt (h.below r hr)
  · rw [if_neg hgranted]
    exact .inr ⟨_, rfl, h.perm, h.nodup, fun r hr => Nat.lt_succ_of_lt (h.below r hr)⟩

theorem release_holds (h : l.Holds (r :: rs)) : ∃ l', release r l = some ((), l') ∧ l'.Holds rs := by
  have hmem : r ∈ l.held := h.perm.mem_iff.mpr List.mem_cons_self
  refine ⟨⟨l.held.erase r, l.requests⟩, if_pos (List.contains_iff_mem.mpr hmem), ?_, h.nodup.erase r, ?_⟩
  · have herased : (l.held.erase r).Perm ((r :: rs).erase r) := h.perm.erase r
    rwa [List.erase_cons_head] at herased
  · intro s hs
    exact h.below s (List.mem_of_mem_erase hs)

/-- A program that ends here has what it had. -/
theorem Accounts.pure {a : α} (h : after a before) : Accounts (Pure.pure a) before after := by
  intro others l hl
  exact ⟨a, before, l, rfl, h, hl⟩

theorem Accounts.perm (hperm : before.Perm rs) (h : Accounts m rs after) : Accounts m before after := by
  intro others l hl
  exact h others l (hl.of_perm (hperm.append_right others))

theorem Accounts.mono {weaker : α → List Nat → Prop} (h : Accounts m before after)
    (himp : ∀ a rs, after a rs → weaker a rs) : Accounts m before weaker := by
  intro others l hl
  obtain ⟨a, rs, l', hrun, hafter, hl'⟩ := h others l hl
  exact ⟨a, rs, l', hrun, himp a rs hafter, hl'⟩

theorem Accounts.bind (h : Accounts m before after) (hf : ∀ a rs, after a rs → Accounts (f a) rs later) :
    Accounts (m >>= f) before later := by
  intro others l hl
  obtain ⟨a, rs, l', hrun, hafter, hl'⟩ := h others l hl
  obtain ⟨b, rs', l'', hrun', hlater, hl''⟩ := hf a rs hafter others l' hl'
  refine ⟨b, rs', l'', ?_, hlater, hl''⟩
  change (m l).bind (fun p => f p.1 p.2) = _
  rw [hrun]
  exact hrun'

theorem Accounts.map {g : α → β} (h : Accounts m before fun a rs => later (g a) rs) :
    Accounts (g <$> m) before later := by
  intro others l hl
  obtain ⟨a, rs, l', hrun, hafter, hl'⟩ := h others l hl
  refine ⟨g a, rs, l', ?_, hafter, hl'⟩
  change (m l).bind (fun p => some (g p.1, p.2)) = _
  rw [hrun]
  rfl

/-- What a program does not use stays beside it. -/
theorem Accounts.frame (h : Accounts m before after) (more : List Nat) :
    Accounts m (before ++ more) fun a rs => ∃ own, after a own ∧ rs = own ++ more := by
  intro others l hl
  rw [List.append_assoc] at hl
  obtain ⟨a, rs, l', hrun, hafter, hl'⟩ := h (more ++ others) l hl
  exact ⟨a, rs ++ more, l', hrun, ⟨rs, hafter, rfl⟩, by rwa [List.append_assoc]⟩

/-- A program that uses a part of what is in use. -/
theorem Accounts.within (hperm : before.Perm (rs ++ rest)) (h : Accounts m rs after) :
    Accounts m before fun a kept => ∃ own, after a own ∧ kept = own ++ rest := Accounts.perm hperm (h.frame rest)

/-- A request that is answered, and one that is refused. -/
theorem Accounts.acquire_or_refused {f : Option Nat → LedgerM β}
    (hsome : ∀ r, r ∉ before → Accounts (f (some r)) (r :: before) later)
    (hnone : (¬∀ n, granted n = true) → Accounts (f none) before later) :
    Accounts (acquire granted >>= f) before later := by
  intro others l hl
  obtain ⟨l', hrun, hl'⟩ | ⟨l', hrun, hl'⟩ := @acquire_cases granted _ _ hl
  · have hfresh : l.requests ∉ before := fun hmem => hl.fresh (hl.perm.mem_iff.mpr (List.mem_append_left _ hmem))
    obtain ⟨b, rs, l'', hrun', hlater, hl''⟩ := hsome l.requests hfresh others l' hl'
    refine ⟨b, rs, l'', ?_, hlater, hl''⟩
    change (acquire granted l).bind (fun p => f p.1 p.2) = _
    rw [hrun]
    exact hrun'
  · have hrefused : ¬∀ n, granted n = true := by
      intro hgranted
      rw [acquire, if_pos (hgranted _)] at hrun
      cases hrun
    obtain ⟨b, rs, l'', hrun', hlater, hl''⟩ := hnone hrefused others l' hl'
    refine ⟨b, rs, l'', ?_, hlater, hl''⟩
    change (acquire granted l).bind (fun p => f p.1 p.2) = _
    rw [hrun]
    exact hrun'

theorem Accounts.acquire_bind {f : Option Nat → LedgerM β}
    (hsome : ∀ r, r ∉ before → Accounts (f (some r)) (r :: before) later)
    (hnone : Accounts (f none) before later) : Accounts (acquire granted >>= f) before later :=
  Accounts.acquire_or_refused hsome fun _ => hnone

/-- A program that leaves what is in use as it is, in front of another one. -/
theorem Accounts.kept_bind (h : Accounts m before fun _ rs => rs = before)
    (hf : ∀ a, Accounts (f a) before later) : Accounts (m >>= f) before later := by
  refine h.bind fun a rs hrs => ?_
  rw [hrs]
  exact hf a

theorem Accounts.touch (hmem : r ∈ before) : Accounts (ledger.touch r) before fun _ rs => rs = before := by
  intro others l hl
  have hheld : l.held.contains r = true :=
    List.contains_iff_mem.mpr (hl.perm.mem_iff.mpr (List.mem_append_left _ hmem))
  exact ⟨(), before, l, if_pos hheld, rfl, hl⟩

theorem Accounts.touch_bind {f : Unit → LedgerM β} (hmem : r ∈ before) (h : Accounts (f ()) before later) :
    Accounts (ledger.touch r >>= f) before later := (Accounts.touch hmem).kept_bind fun _ => h

theorem Accounts.release : Accounts (ledger.release r) (r :: rest) fun _ rs => rs = rest := by
  intro others l hl
  obtain ⟨l', hrun, hl'⟩ := release_holds hl
  exact ⟨(), rest, l', hrun, rfl, hl'⟩

theorem Accounts.release_bind {f : Unit → LedgerM β} (hperm : before.Perm (r :: rest))
    (h : Accounts (f ()) rest later) : Accounts (ledger.release r >>= f) before later := by
  refine Accounts.perm hperm (Accounts.release.bind ?_)
  rintro - rs rfl
  exact h

theorem Accounts.release_all : Accounts (ledger.release_all rs) (rs ++ rest) fun _ kept => kept = rest := by
  induction rs with
  | nil => exact Accounts.pure rfl
  | cons r rs ih => exact Accounts.release_bind (List.Perm.refl _) ih

theorem Accounts.release_all_bind {f : Unit → LedgerM β} (hperm : before.Perm (rs ++ rest))
    (h : Accounts (f ()) rest later) : Accounts (ledger.release_all rs >>= f) before later := by
  refine Accounts.perm hperm (Accounts.release_all.bind ?_)
  rintro - kept rfl
  exact h

/-- The old resource is in use no longer where the request is answered. -/
theorem Accounts.reacquire_bind {old : Option Nat} {f : Option Nat → LedgerM β}
    (hperm : before.Perm (old.toList ++ rest)) (hsome : ∀ r, Accounts (f (some r)) (r :: rest) later)
    (hnone : Accounts (f none) before later) : Accounts (reacquire granted old >>= f) before later := by
  have hnew : Accounts (reacquire granted old) before fun new rs =>
      new = none ∧ rs.Perm before ∨ ∃ r, new = some r ∧ rs = r :: rest := by
    refine Accounts.acquire_bind (fun r _ => ?_) (Accounts.pure (.inl ⟨rfl, List.Perm.refl _⟩))
    have hfront : (r :: before).Perm (old.toList ++ r :: rest) := (hperm.cons r).trans List.perm_middle.symm
    exact Accounts.release_all_bind hfront (Accounts.pure (.inr ⟨r, rfl, rfl⟩))
  refine hnew.bind ?_
  rintro - rs (⟨rfl, hrs⟩ | ⟨r, rfl, rfl⟩)
  · exact Accounts.perm hrs hnone
  · exact hsome r

theorem Accounts.release_object {free : α → LedgerM Unit} {resources : α → List Nat}
    (hfree : ∀ a, Accounts (free a) (resources a ++ rest) fun _ kept => kept = rest) (object : Option α) :
    Accounts (ledger.release_object free object) (resources_of resources object ++ rest) fun _ kept => kept = rest := by
  cases object with
  | none => exact Accounts.pure rfl
  | some a => exact hfree a

/-- A program that loses nothing. -/
theorem Accounts.unlost {resources : α → List Nat} (h : Accounts m before fun a rs => rs.Perm (resources a)) :
    Accounts m before fun a rs => rs.Perm (resources a ++ []) := by
  simp only [List.append_nil]
  exact h

/-- Where every call keeps to the invariant and loses what it says, so does a run, and nothing is lost where
every call loses nothing. -/
theorem Accounts.run_losing {S C : Type} {perform : S → C → LedgerM (S × List Nat)} {resources : S → List Nat}
    {valid : S → Prop} {keeps : C → Prop}
    {calls : List C} (hperform : ∀ s, ∀ call ∈ calls, valid s → Accounts (perform s call) (resources s) fun r rs =>
      rs.Perm (resources r.1 ++ r.2) ∧ valid r.1 ∧ (keeps call → r.2 = []))
    (s : S) (hs : valid s) :
    Accounts (ledger.run_losing perform s calls) (resources s) fun r rs =>
      rs.Perm (resources r.1 ++ r.2) ∧ valid r.1 ∧ ((∀ call ∈ calls, keeps call) → r.2 = []) := by
  induction calls generalizing s with
  | nil => exact Accounts.pure ⟨List.Perm.of_eq (List.append_nil _).symm, hs, fun _ => rfl⟩
  | cons call calls ih =>
    have hfirst := hperform s call List.mem_cons_self hs
    refine hfirst.bind fun next rs ⟨hnext, hvalid, hcall⟩ => Accounts.perm hnext ?_
    have hrest := ih (fun s call hcall => hperform s call (List.mem_cons_of_mem _ hcall)) next.1 hvalid
    refine (hrest.frame next.2).bind ?_
    rintro r - ⟨own, ⟨hown, hlast, hlater⟩, rfl⟩
    refine Accounts.pure ⟨(hown.append_right _).trans ?_, hlast, fun hcalls => ?_⟩
    · rw [List.append_assoc]
      exact List.Perm.append_left _ List.perm_append_comm
    · obtain ⟨hfirst, hrest⟩ := List.forall_mem_cons.mp hcalls
      rw [hcall hfirst, hlater hrest]
      rfl

/-- What is not in use cannot be given back. -/
theorem release_unused (h : r ∉ l.held) : release r l = none := if_neg fun hheld => h (List.contains_iff_mem.mp hheld)

/-- A program that gives the same resource back twice. -/
theorem release_twice {m : LedgerM β} (hnodup : l.held.Nodup) :
    (do
      release r
      release r
      m) l = none := by
  by_cases hheld : l.held.contains r = true
  · have hfirst : release r l = some ((), ⟨l.held.erase r, l.requests⟩) := if_pos hheld
    have hsecond : release r ⟨l.held.erase r, l.requests⟩ = none := release_unused hnodup.not_mem_erase
    change (release r l).bind (fun p => (release r p.2).bind fun p => m p.2) = none
    rw [hfirst]
    change (release r ⟨l.held.erase r, l.requests⟩).bind _ = none
    rw [hsecond]
    rfl
  · have hfirst : release r l = none := if_neg hheld
    change (release r l).bind _ = none
    rw [hfirst]
    rfl

/-- What an owner holds is exchanged for some of what stands beside it. -/
theorem exchanged_perm {owner owner' old new rest beside beside' others : List Nat} (howner : owner.Perm (old ++ rest))
    (howner' : owner'.Perm (new ++ rest)) (h : (old ++ beside).Perm (new ++ beside')) :
    (owner ++ (beside ++ others)).Perm (owner' ++ (beside' ++ others)) := by
  simp only [List.perm_iff_count, List.count_append] at howner howner' h ⊢
  intro r
  have hold := howner r
  have hnew := howner' r
  have hsame := h r
  omega

/-- What is made is put behind the others of its kind. -/
theorem made_perm (made owner beside others : List Nat) :
    (made ++ (owner ++ (beside ++ others))).Perm (owner ++ (beside ++ made ++ others)) := by
  simp only [List.perm_iff_count, List.count_append]
  intro r
  omega

/-- An object that is taken out of a list, and the others. -/
theorem taken_perm {α : Type} (objects : List α) (i : Nat) :
    objects.Perm (objects[i]?.toList ++ objects.eraseIdx i) := by
  by_cases hi : i < objects.length
  · rw [List.getElem?_eq_getElem hi]
    exact (List.getElem_cons_eraseIdx_perm hi).symm
  · rw [List.getElem?_eq_none (Nat.le_of_not_lt hi), List.eraseIdx_of_length_le (Nat.le_of_not_lt hi)]
    exact List.Perm.refl _

@[simp] theorem resources_of_some {α : Type} (resources : α → List Nat) (object : α) :
    resources_of resources (some object) = resources object := rfl

/-- The resources of the objects of a list, of one of them and of the others. -/
theorem taken_resources {α : Type} (resources : α → List Nat) (objects : List α) (i : Nat) :
    (objects.flatMap resources).Perm
      (resources_of resources objects[i]? ++ (objects.eraseIdx i).flatMap resources) := by
  have htaken := (taken_perm objects i).flatMap_right resources
  rw [List.flatMap_append] at htaken
  cases hobject : objects[i]? with
  | none =>
    rw [hobject] at htaken
    exact htaken
  | some object =>
    rw [hobject, Option.toList_some, List.flatMap_singleton] at htaken
    exact htaken

theorem put_resources {α : Type} (resources : α → List Nat) {objects : List α} {i : Nat} {object : α}
    (h : objects[i]? = some object) (new : α) :
    ((objects.set i new).flatMap resources).Perm (resources new ++ (objects.eraseIdx i).flatMap resources) :=
  (List.set_perm_cons_eraseIdx (List.getElem?_eq_some_iff.mp h).1 new).flatMap_right resources

theorem resources_toList {α : Type} (resources : α → List Nat) (object : Option α) :
    object.toList.flatMap resources = resources_of resources object := by
  cases object with
  | none => rfl
  | some object => exact List.flatMap_singleton resources object

/-- One part of what is held, in front of the others. -/
theorem perm_part {parts : List (List Nat)} {i : Nat} {part : List Nat} (h : parts[i]? = some part) :
    parts.flatten.Perm (part ++ (parts.set i []).flatten) := by
  induction parts generalizing i with
  | nil => cases h
  | cons first parts ih =>
    cases i with
    | zero =>
      rw [← Option.some.inj h]
      exact List.Perm.refl _
    | succ i =>
      have hlater : (first ++ parts.flatten).Perm (first ++ (part ++ (parts.set i []).flatten)) :=
        List.Perm.append_left first (ih h)
      exact hlater.trans (List.perm_append_comm_assoc _ _ _)

/-- A program that works on one part of what is held. -/
theorem Accounts.part {parts : List (List Nat)} {part : List Nat} (i : Nat) (parts' : α → List (List Nat))
    (hpart : parts[i]? = some part) (h : Accounts m part fun a own => ∃ new, parts' a = parts.set i new ∧ own.Perm new) :
    Accounts m parts.flatten fun a rs => rs.Perm (parts' a).flatten := by
  refine Accounts.perm (perm_part hpart) ((h.frame _).mono ?_)
  rintro a - ⟨own, ⟨new, hnew, hown⟩, rfl⟩
  have hset : (parts.set i new)[i]? = some new :=
    List.getElem?_set_self (List.getElem?_eq_some_iff.mp hpart).1
  have hparts := perm_part hset
  rw [List.set_set] at hparts
  rw [hnew]
  exact (hown.append_right _).trans hparts.symm

end rules

end ledger
