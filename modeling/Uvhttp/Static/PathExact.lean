import Uvhttp.Lib.TreePath
import Uvhttp.Static.Path

namespace uvhttp.static_files

open tree_path

section canonical

/-- A name of a file on a canonical path. -/
def ProperName (name : List UInt8) : Prop :=
  (name ≠ [] ∧ SLASH ∉ name) ∧ name ≠ bytes "." ∧ name ≠ bytes ".."

/-- An absolute path that `realpath` can return. -/
def Canonical (path : List UInt8) : Prop := ∃ names, (∀ name ∈ names, ProperName name) ∧ path = text SLASH names

/-- A canonical path in the directory tree below another, or that one itself. -/
def InTree (root path : List UInt8) : Prop :=
  ∃ names more, (∀ name ∈ names ++ more, ProperName name) ∧ root = text SLASH names ∧ path = text SLASH (names ++ more)

/-- The comparison of `uvhttp_static_resolve_safe_path` lets a path go on behind the
root only with a separator. -/
theorem accepted_iff (root resolved : List UInt8) :
    root.isPrefixOf resolved = true ∧ ¬ (resolved.length > root.length ∧ resolved[root.length]? ≠ some SLASH) ↔
      ∃ rest, Closed SLASH rest ∧ root ++ rest = resolved := by
  rw [List.isPrefixOf_iff_prefix]
  constructor
  · rintro ⟨⟨rest, rfl⟩, hslash⟩
    refine ⟨rest, ?_, rfl⟩
    cases rest with
    | nil => exact .inl rfl
    | cons c rest =>
      have hc : c = SLASH := by
        by_contra hne
        apply hslash
        exact ⟨by simp, by simpa using hne⟩
      exact .inr ⟨rest, by rw [hc]⟩
  · rintro ⟨rest, hclosed, rfl⟩
    refine ⟨List.prefix_append root rest, ?_⟩
    rcases hclosed with rfl | ⟨more, rfl⟩ <;> simp

/-- Between canonical paths the comparison means the tree, except that it accepts
nothing below `/`. -/
theorem accepted_iff_inTree {root resolved : List UInt8} (hroot : Canonical root) (hresolved : Canonical resolved) :
    (∃ rest, Closed SLASH rest ∧ root ++ rest = resolved) ↔
      InTree root resolved ∧ (root = [SLASH] → resolved = [SLASH]) := by
  obtain ⟨names, hnames, rfl⟩ := hroot
  obtain ⟨target, htarget, rfl⟩ := hresolved
  by_cases htop : names = []
  · subst htop
    constructor
    · rintro ⟨rest, hclosed, hrest⟩
      cases target with
      | nil => exact ⟨⟨[], [], by simp, rfl, rfl⟩, fun _ => rfl⟩
      | cons name target =>
        obtain ⟨c, more, hc, htext⟩ := text_head_of_name SLASH (htarget name List.mem_cons_self).1.1 target
        rw [htext] at hrest
        obtain ⟨-, hrest⟩ := List.cons.inj hrest
        rcases hclosed with rfl | ⟨after, rfl⟩
        · cases hrest
        · obtain ⟨rfl, -⟩ := List.cons.inj hrest
          exact absurd hc (htarget name List.mem_cons_self).1.2
    · rintro ⟨-, honly⟩
      exact ⟨[], .inl rfl, by rw [List.append_nil, honly rfl, text]⟩
  · have hbelow := exists_more_iff htop (fun n hn => (hnames n hn).1) fun n hn => (htarget n hn).1
    have hnottop : text SLASH names ≠ [SLASH] := by
      obtain ⟨name, names, rfl⟩ := List.exists_cons_of_ne_nil htop
      obtain ⟨c, more, -, htext⟩ := text_head_of_name SLASH (hnames name List.mem_cons_self).1.1 names
      simp [htext]
    constructor
    · intro h
      obtain ⟨more, rfl⟩ := hbelow.mpr h
      exact ⟨⟨names, more, htarget, rfl, rfl⟩, fun htext => absurd htext hnottop⟩
    · rintro ⟨⟨front, more, hproper, hfront, hsame⟩, -⟩
      have hfrontne : front ≠ [] := by
        rintro rfl
        exact hnottop hfront
      have hall : ∀ n ∈ front ++ more, n ≠ [] ∧ SLASH ∉ n := fun n hn => (hproper n hn).1
      have habove := exists_more_iff hfrontne (fun n hn => hall n (List.mem_append_left _ hn)) hall
      obtain ⟨rest, hclosed, hrest⟩ := habove.mp ⟨more, rfl⟩
      exact ⟨rest, hclosed, by rw [hfront, hrest, hsame]⟩

end canonical

section exact

variable {realpath : List UInt8 → Option (List UInt8)} {root_dir file_path : List UInt8} {buffer_size : Nat}

/-- The lengths fit: the joined path and its canonical form with their terminators. -/
structure PathsFit (realpath : List UInt8 → Option (List UInt8)) (root_dir file_path : List UInt8)
    (buffer_size : Nat) : Prop where
  joined : root_dir.length + file_path.length + 2 < buffer_size
  resolved : ∀ path, realpath (join_path root_dir file_path) = some path → path.length < buffer_size

/-- What `uvhttp_static_resolve_safe_path` accepts when the lengths fit. -/
theorem resolve_eq_some_iff (hfits : PathsFit realpath root_dir file_path buffer_size) {resolved : List UInt8} :
    uvhttp_static_resolve_safe_path realpath root_dir file_path buffer_size = some resolved ↔
      uvhttp_validate_url_path file_path = true ∧ realpath (join_path root_dir file_path) = some resolved ∧
        ∃ root, realpath root_dir = some root ∧ ∃ rest, Closed SLASH rest ∧ root ++ rest = resolved := by
  have hjoined := hfits.joined
  rw [uvhttp_static_resolve_safe_path, if_neg (by omega)]
  by_cases hvalid : uvhttp_validate_url_path file_path = true
  · rw [if_neg (by simp [hvalid]), if_neg (by omega)]
    cases htarget : realpath (join_path root_dir file_path) with
    | none => simp
    | some target =>
      have hroom : target.length < buffer_size := hfits.resolved target htarget
      cases hroot : realpath root_dir with
      | none => simp
      | some root =>
        have haccepted := accepted_iff root target
        simp only [hvalid, true_and, Option.some.injEq, exists_eq_left']
        split_ifs with hprefix hslash hlong
        · apply iff_of_false (by simp)
          rintro ⟨rfl, hrest⟩
          have hp := (haccepted.mpr hrest).1
          simp [hp] at hprefix
        · apply iff_of_false (by simp)
          rintro ⟨rfl, hrest⟩
          exact (haccepted.mpr hrest).2 hslash
        · omega
        · have hok := haccepted.mp ⟨by simpa using hprefix, hslash⟩
          constructor
          · intro h
            obtain rfl := Option.some.inj h
            exact ⟨rfl, hok⟩
          · rintro ⟨rfl, -⟩
            rfl
  · rw [if_pos (by simp [hvalid])]
    simp [hvalid]

/-- The resolution is exact: it finds the canonical path of every file that a valid
path names in the tree below the canonical root, and nothing else. Of the names
beside the root that only begin like it, none is found. -/
structure ResolveExact (realpath : List UInt8 → Option (List UInt8)) (root_dir file_path : List UInt8)
    (buffer_size : Nat) : Prop where
  resolved_iff : ∀ resolved, uvhttp_static_resolve_safe_path realpath root_dir file_path buffer_size = some resolved ↔
    uvhttp_validate_url_path file_path = true ∧ realpath (join_path root_dir file_path) = some resolved ∧
      ∃ root, realpath root_dir = some root ∧ InTree root resolved
  sibling : ∀ root rest, realpath root_dir = some root → root ≠ [SLASH] → rest ≠ [] → rest.head? ≠ some SLASH →
    uvhttp_static_resolve_safe_path realpath root_dir file_path buffer_size ≠ some (root ++ rest)

/-- The resolution goes wrong exactly for a file below the root `/`, which it refuses. -/
theorem resolve_safe_path_exact (hcanonical : ∀ path resolved, realpath path = some resolved → Canonical resolved)
    (hfits : PathsFit realpath root_dir file_path buffer_size) :
    ResolveExact realpath root_dir file_path buffer_size ↔
      ¬ (uvhttp_validate_url_path file_path = true ∧ realpath root_dir = some [SLASH] ∧
        ∃ target, realpath (join_path root_dir file_path) = some target ∧ target ≠ [SLASH]) := by
  constructor
  · rintro h ⟨hvalid, hroot, target, htarget, hbelow⟩
    obtain ⟨names, hnames, rfl⟩ := hcanonical _ _ htarget
    have htree : InTree [SLASH] (text SLASH names) := ⟨[], names, hnames, rfl, rfl⟩
    have hfound := (h.resolved_iff (text SLASH names)).mpr ⟨hvalid, htarget, [SLASH], hroot, htree⟩
    obtain ⟨-, -, root, hsame, hrest⟩ := (resolve_eq_some_iff hfits).mp hfound
    obtain rfl : [SLASH] = root := Option.some.inj (hroot.symm.trans hsame)
    have hparts := (accepted_iff_inTree (hcanonical _ _ hroot) (hcanonical _ _ htarget)).mp hrest
    exact hbelow (hparts.2 rfl)
  · intro hnot
    refine ⟨fun resolved => ?_, fun root rest hroot htop hrest hhead hfound => ?_⟩
    · rw [resolve_eq_some_iff hfits]
      refine and_congr_right fun hvalid => and_congr_right fun htarget => exists_congr fun root => ?_
      refine and_congr_right fun hroot => ?_
      rw [accepted_iff_inTree (hcanonical _ _ hroot) (hcanonical _ _ htarget)]
      refine and_iff_left fun htop => ?_
      by_contra hbelow
      exact hnot ⟨hvalid, by rw [hroot, htop], resolved, htarget, hbelow⟩
    · obtain ⟨-, -, other, hsame, more, hclosed, hmore⟩ := (resolve_eq_some_iff hfits).mp hfound
      obtain rfl : root = other := Option.some.inj (hroot.symm.trans hsame)
      obtain rfl := List.append_cancel_left hmore
      rcases hclosed with rfl | ⟨after, rfl⟩
      · exact hrest rfl
      · exact hhead rfl

end exact

section plain

/-- `realpath` where only some files exist, without links between them. -/
def plain_realpath (files : List (List UInt8)) (path : List UInt8) : Option (List UInt8) :=
  if path ∈ files then some path else none

theorem canonical_plain_realpath {files : List (List UInt8)} (hfiles : ∀ file ∈ files, Canonical file) :
    ∀ path resolved, plain_realpath files path = some resolved → Canonical resolved := by
  intro path resolved h
  rw [plain_realpath] at h
  split at h
  · rename_i hmem
    obtain rfl := Option.some.inj h
    exact hfiles path hmem
  · cases h

theorem pathsFit_plain_realpath {files : List (List UInt8)} {root_dir file_path : List UInt8} {buffer_size : Nat}
    (hjoined : root_dir.length + file_path.length + 2 < buffer_size) :
    PathsFit (plain_realpath files) root_dir file_path buffer_size := by
  refine ⟨hjoined, fun path hpath => ?_⟩
  have hlen : (join_path root_dir file_path).length ≤ root_dir.length + 1 + file_path.length := by
    rw [join_path, List.length_append]
    have hback : (if file_path.head? = some SLASH then file_path.tail else file_path).length ≤ file_path.length := by
      split_ifs <;> simp
    have hfront : (if root_dir ≠ [] ∧ root_dir.getLast? ≠ some SLASH then root_dir ++ [SLASH] else root_dir).length ≤
        root_dir.length + 1 := by
      split_ifs <;> simp
    exact Nat.add_le_add hfront hback
  rw [plain_realpath] at hpath
  split at hpath
  · obtain rfl := Option.some.inj hpath
    omega
  · cases hpath

theorem resolve_safe_path_exact_www :
    (∀ path resolved, plain_realpath [bytes "/www", bytes "/www/a.txt"] path = some resolved → Canonical resolved) ∧
      PathsFit (plain_realpath [bytes "/www", bytes "/www/a.txt"]) (bytes "/www") (bytes "/a.txt") 4096 ∧
      ResolveExact (plain_realpath [bytes "/www", bytes "/www/a.txt"]) (bytes "/www") (bytes "/a.txt") 4096 := by
  have hfiles : ∀ file ∈ [bytes "/www", bytes "/www/a.txt"], Canonical file := by
    simp only [List.forall_mem_cons, List.not_mem_nil, false_implies, implies_true, and_true]
    exact ⟨⟨[bytes "www"], by simp only [ProperName]; decide, rfl⟩,
      ⟨[bytes "www", bytes "a.txt"], by simp only [ProperName]; decide, rfl⟩⟩
  have hcanonical := canonical_plain_realpath hfiles
  have hfits : PathsFit (plain_realpath [bytes "/www", bytes "/www/a.txt"]) (bytes "/www") (bytes "/a.txt") 4096 :=
    pathsFit_plain_realpath (by decide)
  exact ⟨hcanonical, hfits, (resolve_safe_path_exact hcanonical hfits).mpr fun h => absurd h.2.1 (by decide)⟩

/-- With the root directory `/` no file is found. -/
theorem resolve_safe_path_refuses_below_slash :
    uvhttp_static_resolve_safe_path (plain_realpath [bytes "/", bytes "/a.txt"]) (bytes "/") (bytes "/a.txt") 4096 =
        none ∧
      ¬ ResolveExact (plain_realpath [bytes "/", bytes "/a.txt"]) (bytes "/") (bytes "/a.txt") 4096 := by
  have hnone : uvhttp_static_resolve_safe_path (plain_realpath [bytes "/", bytes "/a.txt"]) (bytes "/")
      (bytes "/a.txt") 4096 = none := by decide
  refine ⟨hnone, fun h => ?_⟩
  have htree : InTree (bytes "/") (bytes "/a.txt") :=
    ⟨[], [bytes "a.txt"], by simp only [ProperName]; decide, rfl, rfl⟩
  have hfound := (h.resolved_iff (bytes "/a.txt")).mpr ⟨by decide, by decide, bytes "/", by decide, htree⟩
  rw [hnone] at hfound
  cases hfound

end plain

end uvhttp.static_files
