import Uvhttp.Static.LruCache

namespace uvhttp.static_files

open uvhttp.lru_cache (UVHTTP_MAX_FILE_PATH_SIZE)

def UVHTTP_MAX_PATH_SIZE : Nat := 1024

def SLASH : UInt8 := 47

section validation

/-- `strstr`, as a test. -/
def strstr (text part : List UInt8) : Bool := text.tails.any fun rest => part.isPrefixOf rest

/-- `isxdigit` in the C locale. -/
def isxdigit (c : UInt8) : Bool := (48 ≤ c && c ≤ 57) || (65 ≤ c && c ≤ 70) || (97 ≤ c && c ≤ 102)

/-- The loop of `uvhttp_validate_url_path` over the escape sequences. -/
def valid_escapes : List UInt8 → Bool
  | [] => true
  | [c] => c != 37
  | [c, d] => c != 37 && d != 37
  | c :: d :: e :: rest =>
    if c = 37 then isxdigit d && isxdigit e && valid_escapes rest else valid_escapes (d :: e :: rest)

/-- `dangerous_path_chars`. -/
def dangerous_path_chars : List UInt8 := bytes "<>:\"|*\n\r"

/-- `uvhttp_validate_url_path`. -/
def uvhttp_validate_url_path (path : List UInt8) : Bool :=
  1 ≤ path.length && path.length ≤ UVHTTP_MAX_PATH_SIZE && path.head? = some SLASH &&
    !strstr path (bytes "../") && !strstr path (bytes "..\\") &&
    !strstr path (bytes "%2e%2e") && !strstr path (bytes "%2E%2E") &&
    valid_escapes path && !dangerous_path_chars.any fun c => path.contains c

end validation

/-- The path that `uvhttp_static_handle_request` takes from a URL, `none` when it is
too long. The root stands for the index file. -/
def clean_path (url index_file : List UInt8) : Option (List UInt8) :=
  let path := url.takeWhile (· != 63)
  if path.length ≥ UVHTTP_MAX_PATH_SIZE then none
  else if path = [SLASH] then
    let buf := index_file.take (UVHTTP_MAX_PATH_SIZE - 1)
    if buf.head? = some SLASH then some buf else some (SLASH :: buf.take (UVHTTP_MAX_PATH_SIZE - 2))
  else some path

/-- The path below the root directory that `uvhttp_static_resolve_safe_path` builds. -/
def join_path (root_dir file_path : List UInt8) : List UInt8 :=
  (if root_dir ≠ [] ∧ root_dir.getLast? ≠ some SLASH then root_dir ++ [SLASH] else root_dir) ++
    (if file_path.head? = some SLASH then file_path.tail else file_path)

/-- `uvhttp_static_resolve_safe_path`. After the check of the lengths there is room
for the joined path. -/
def uvhttp_static_resolve_safe_path (realpath : List UInt8 → Option (List UInt8)) (root_dir file_path : List UInt8)
    (buffer_size : Nat) : Option (List UInt8) :=
  if buffer_size = 0 then none
  else if !uvhttp_validate_url_path file_path then none
  else if root_dir.length + file_path.length + 2 ≥ buffer_size then none
  else
    match realpath (join_path root_dir file_path), realpath root_dir with
    | some resolved, some root_resolved =>
      if !root_resolved.isPrefixOf resolved then none
      else if resolved.length > root_resolved.length ∧ resolved[root_resolved.length]? ≠ some SLASH then none
      else if resolved.length ≥ buffer_size then none
      else some resolved
    | _, _ => none

/-- A canonical path is a directory's own or one below it. -/
def Within (root path : List UInt8) : Prop := path = root ∨ (if root = [SLASH] then root else root ++ [SLASH]) <+: path

/-- A path that is resolved is the canonical path of a file within the canonical root
directory. -/
theorem resolve_within {realpath : List UInt8 → Option (List UInt8)} {root_dir file_path resolved : List UInt8}
    {buffer_size : Nat} (h : uvhttp_static_resolve_safe_path realpath root_dir file_path buffer_size = some resolved) :
    realpath (join_path root_dir file_path) = some resolved ∧
      ∃ root, realpath root_dir = some root ∧ Within root resolved := by
  rw [uvhttp_static_resolve_safe_path] at h
  split at h
  · exact absurd h (by simp)
  split at h
  · exact absurd h (by simp)
  split at h
  · exact absurd h (by simp)
  split at h
  · rename_i target root htarget hroot
    split at h
    · exact absurd h (by simp)
    rename_i hprefix
    split at h
    · exact absurd h (by simp)
    rename_i hslash
    split at h
    · exact absurd h (by simp)
    obtain rfl : target = resolved := Option.some.inj h
    refine ⟨htarget, root, hroot, ?_⟩
    have hbelow : root <+: target := by simpa using hprefix
    obtain ⟨rest, rfl⟩ := hbelow
    cases rest with
    | nil => exact .inl (List.append_nil _)
    | cons c rest =>
      refine .inr ?_
      split
      · exact List.prefix_append _ _
      · have hc : c = SLASH := by
          by_contra hne
          apply hslash
          refine ⟨by simp, ?_⟩
          simpa using hne
        exact ⟨rest, by simp [hc]⟩
  · exact absurd h (by simp)

end uvhttp.static_files
