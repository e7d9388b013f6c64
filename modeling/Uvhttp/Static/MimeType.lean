import Mathlib.Data.List.Find
import Uvhttp.Http.Response

namespace uvhttp.static_files

open uvhttp.http

section tables

/-- `uvhttp_mime_mapping_t` and `mime_hash_entry_t`. -/
structure MimeMapping where
  extension : List UInt8
  mime_type : List UInt8
  deriving DecidableEq, Repr

def mapping (extension mime_type : String) : MimeMapping := ⟨bytes extension, bytes mime_type⟩

/-- `mime_types`, up to the entry that ends it. -/
def mime_types : List MimeMapping :=
  [mapping ".html" "text/html", mapping ".htm" "text/html", mapping ".css" "text/css",
    mapping ".js" "application/javascript", mapping ".json" "application/json", mapping ".xml" "application/xml",
    mapping ".txt" "text/plain", mapping ".md" "text/markdown", mapping ".csv" "text/csv",
    mapping ".png" "image/png", mapping ".jpg" "image/jpeg", mapping ".jpeg" "image/jpeg",
    mapping ".gif" "image/gif", mapping ".svg" "image/svg+xml", mapping ".ico" "image/x-icon",
    mapping ".webp" "image/webp", mapping ".bmp" "image/bmp",
    mapping ".mp3" "audio/mpeg", mapping ".wav" "audio/wav", mapping ".ogg" "audio/ogg", mapping ".aac" "audio/aac",
    mapping ".mp4" "video/mp4", mapping ".webm" "video/webm", mapping ".avi" "video/x-msvideo",
    mapping ".woff" "font/woff", mapping ".woff2" "font/woff2", mapping ".ttf" "font/ttf",
    mapping ".eot" "application/vnd.ms-fontobject",
    mapping ".pdf" "application/pdf", mapping ".zip" "application/zip", mapping ".tar" "application/x-tar",
    mapping ".gz" "application/gzip",
    mapping "." "application/octet-stream"]

def MIME_HASH_TABLE_SIZE : Nat := 64

def slot (extension mime_type : String) : Option MimeMapping := some (mapping extension mime_type)

/-- `mime_hash_table`, with `none` for a slot of NULL pointers. -/
def mime_hash_table : List (Option MimeMapping) :=
  [slot ".html" "text/html", none, slot ".css" "text/css", none,
    slot ".js" "application/javascript", none, slot ".json" "application/json", none,
    slot ".xml" "application/xml", none, slot ".txt" "text/plain", none,
    slot ".md" "text/markdown", none, slot ".csv" "text/csv", none,
    slot ".png" "image/png", none, slot ".jpg" "image/jpeg", none,
    slot ".jpeg" "image/jpeg", none, slot ".gif" "image/gif", none,
    slot ".svg" "image/svg+xml", none, slot ".ico" "image/x-icon", none,
    slot ".webp" "image/webp", none, slot ".bmp" "image/bmp", none,
    slot ".mp3" "audio/mpeg", none, slot ".wav" "audio/wav", none,
    slot ".ogg" "audio/ogg", none, slot ".aac" "audio/aac", none,
    slot ".mp4" "video/mp4", none, slot ".webm" "video/webm", none,
    slot ".avi" "video/x-msvideo", none, slot ".woff" "font/woff", none,
    slot ".woff2" "font/woff2", none, slot ".ttf" "font/ttf", none,
    slot ".eot" "application/vnd.ms-fontobject", none, slot ".pdf" "application/pdf", none,
    slot ".zip" "application/zip", none, slot ".tar" "application/x-tar", none,
    slot ".gz" "application/gzip", none, slot ".htm" "text/html", none]

end tables

section lookup

/-- `strrchr`. -/
def strrchr (text : List UInt8) (c : UInt8) : Option (List UInt8) :=
  match text with
  | [] => none
  | d :: rest => (strrchr rest c).or (if d = c then some (d :: rest) else none)

/-- `get_file_extension`. -/
def get_file_extension (file_path : List UInt8) : List UInt8 := (strrchr file_path '.'.toUInt8).getD []

/-- What lies in memory from the start of a string on: its characters, the
terminator, and whatever is `beyond`. -/
def memory_at (text : List UInt8) (beyond : Nat → UInt8) (offset : Nat) : UInt8 :=
  ((text ++ [0])[offset]?).getD (beyond offset)

/-- A slot of the hash table, with the offsets that were read to find it. -/
structure HashRead where
  index : Nat
  read : List Nat
  deriving DecidableEq, Repr

/-- The hash that `mime_hash_function` falls back to. `strlen` reads the whole
string. -/
def simple_hash (extension : List UInt8) (beyond : Nat → UInt8) : HashRead where
  index :=
    ((memory_at extension beyond 0).toNat + (memory_at extension beyond (extension.length - 1)).toNat) %
      MIME_HASH_TABLE_SIZE
  read := [0, 1] ++ List.range (extension.length + 1)

/-- `mime_hash_function`. -/
def mime_hash_function (extension : List UInt8) (beyond : Nat → UInt8) : HashRead :=
  let char := memory_at extension beyond
  if char 0 = 0 then ⟨MIME_HASH_TABLE_SIZE - 1, [0]⟩
  else if char 1 = 'h'.toUInt8 then ⟨if char 4 = 'l'.toUInt8 then 0 else 62, [0, 1, 4]⟩
  else if char 1 = 'c'.toUInt8 then ⟨if char 2 = 's'.toUInt8 then 2 else 14, [0, 1, 2]⟩
  else if char 1 = 'j'.toUInt8 then
    if char 2 = 's'.toUInt8 then ⟨4, [0, 1, 2]⟩
    else ⟨if char 3 = 'g'.toUInt8 then 18 else 20, [0, 1, 2, 3]⟩
  else if char 1 = 'p'.toUInt8 then
    if char 1 = 'n'.toUInt8 then ⟨16, [0, 1]⟩
    else if char 1 = 'd'.toUInt8 then ⟨48, [0, 1]⟩
    else if char 1 = '3'.toUInt8 then ⟨32, [0, 1]⟩
    else if char 1 = '4'.toUInt8 then ⟨40, [0, 1]⟩
    else simple_hash extension beyond
  else simple_hash extension beyond

/-- The linear search of `uvhttp_static_get_mime_type`, with its default. -/
def linear_mime_type (extension : List UInt8) : List UInt8 :=
  ((mime_types.find? fun m => strcasecmp extension m.extension).map MimeMapping.mime_type).getD
    (bytes "application/octet-stream")

/-- The type that `uvhttp_static_get_mime_type` chooses for an extension. -/
def hashed_mime_type (extension : List UInt8) (beyond : Nat → UInt8) : List UInt8 :=
  match mime_hash_table[(mime_hash_function extension beyond).index]? with
  | some (some entry) =>
    if strcasecmp extension entry.extension then entry.mime_type else linear_mime_type extension
  | _ => linear_mime_type extension

/-- `uvhttp_static_get_mime_type`: what it copies into a buffer. -/
def uvhttp_static_get_mime_type (beyond : Nat → UInt8) (file_path : List UInt8) (buffer_size : Nat) :
    Except UvhttpError (List UInt8) :=
  if buffer_size = 0 then .error .INVALID_PARAM
  else .ok ((hashed_mime_type (get_file_extension file_path) beyond).take (buffer_size - 1))

end lookup

section equality

theorem strcasecmp_congr {a b : List UInt8} (h : strcasecmp a b = true) (c : List UInt8) :
    strcasecmp a c = strcasecmp b c := by
  have hlower := of_decide_eq_true h
  rw [strcasecmp, strcasecmp, hlower]

/-- Equal extensions have one type. -/
theorem linear_mime_type_congr {a b : List UInt8} (h : strcasecmp a b = true) :
    linear_mime_type a = linear_mime_type b := by
  rw [linear_mime_type, linear_mime_type, List.find?_congr fun m _ => strcasecmp_congr h m.extension]

/-- The hash table repeats what the linear search finds. -/
theorem linear_of_mem_table :
    ∀ slot ∈ mime_hash_table, slot.all fun entry => linear_mime_type entry.extension = entry.mime_type := by
  decide +kernel

theorem hashed_mime_type_eq_linear (extension : List UInt8) (beyond : Nat → UInt8) :
    hashed_mime_type extension beyond = linear_mime_type extension := by
  rw [hashed_mime_type]
  split
  · rename_i entry hslot
    split
    · rename_i hsame
      have htable := linear_of_mem_table _ (List.mem_of_getElem? hslot)
      have htype : linear_mime_type entry.extension = entry.mime_type := by simpa using htable
      rw [linear_mime_type_congr hsame, htype]
    · rfl
  · rfl

end equality

section reads

theorem mime_hash_function_below (extension : List UInt8) (beyond : Nat → UInt8) :
    (mime_hash_function extension beyond).index < MIME_HASH_TABLE_SIZE := by
  have hsimple : (simple_hash extension beyond).index < MIME_HASH_TABLE_SIZE := by
    apply Nat.mod_lt
    decide
  rw [mime_hash_function]
  split_ifs <;> first | exact hsimple | decide

theorem simple_hash_reads {extension : List UInt8} (h : extension ≠ []) (beyond : Nat → UInt8) :
    ∀ i ∈ (simple_hash extension beyond).read, i ≤ extension.length := by
  have hlen : 0 < extension.length := List.length_pos_iff.mpr h
  intro i hi
  rw [simple_hash, List.mem_append, List.mem_range] at hi
  rcases hi with hi | hi
  · simp only [List.mem_cons, List.not_mem_nil, or_false] at hi
    omega
  · omega

/-- An extension is empty, or the last dot and what follows it. -/
theorem get_file_extension_cases (file_path : List UInt8) :
    get_file_extension file_path = [] ∨ ∃ rest, get_file_extension file_path = '.'.toUInt8 :: rest := by
  have hfound (text : List UInt8) (c : UInt8) : ∀ found ∈ strrchr text c, ∃ rest, found = c :: rest := by
    induction text with
    | nil =>
      intro found hfound
      cases hfound
    | cons d text ih =>
      intro found hfound
      rw [strrchr, Option.mem_def, Option.or_eq_some_iff] at hfound
      rcases hfound with hlater | ⟨-, hhere⟩
      · exact ih found hlater
      · split at hhere
        · rename_i hd
          obtain rfl := Option.some.inj hhere
          exact ⟨text, by rw [hd]⟩
        · cases hhere
  rw [get_file_extension]
  cases h : strrchr file_path '.'.toUInt8 with
  | none => exact .inl rfl
  | some found => exact .inr (hfound _ _ found h)

/-- The extensions whose characters at fixed places are within the string: not `.j`,
and with `.h` at least four characters. -/
def long_enough (extension : List UInt8) : Prop :=
  extension ≠ bytes ".j" ∧ (bytes ".h" <+: extension → 4 ≤ extension.length)

theorem long_enough_iff (a : UInt8) (rest : List UInt8) :
    long_enough ('.'.toUInt8 :: a :: rest) ↔
      ¬ (a = 'j'.toUInt8 ∧ rest = []) ∧ (a = 'h'.toUInt8 → 2 ≤ rest.length) := by
  have hj : bytes ".j" = ['.'.toUInt8, 'j'.toUInt8] := rfl
  have hh : bytes ".h" = ['.'.toUInt8, 'h'.toUInt8] := rfl
  rw [long_enough, hj, hh]
  simp only [ne_eq, List.cons.injEq, true_and, List.cons_prefix_cons, List.nil_prefix, and_true, List.length_cons]
  constructor
  · rintro ⟨hnot, hlen⟩
    exact ⟨hnot, fun ha => by have := hlen ha.symm; omega⟩
  · rintro ⟨hnot, hlen⟩
    exact ⟨hnot, fun ha => by have := hlen ha.symm; omega⟩

theorem mime_hash_function_reads (beyond : Nat → UInt8) (rest : List UInt8) :
    (∀ i ∈ (mime_hash_function ('.'.toUInt8 :: rest) beyond).read, i ≤ ('.'.toUInt8 :: rest).length) ↔
      long_enough ('.'.toUInt8 :: rest) := by
  have hsimple := simple_hash_reads (List.cons_ne_nil '.'.toUInt8 rest) beyond
  have hdot : memory_at ('.'.toUInt8 :: rest) beyond 0 ≠ 0 := by
    rw [memory_at]
    simp
    decide
  cases rest with
  | nil =>
    have hone : memory_at ['.'.toUInt8] beyond 1 = 0 := rfl
    rw [mime_hash_function, if_neg hdot, hone]
    exact iff_of_true hsimple ⟨by decide, by decide⟩
  | cons a rest =>
    have hone : memory_at ('.'.toUInt8 :: a :: rest) beyond 1 = a := rfl
    rw [mime_hash_function, if_neg hdot, hone, long_enough_iff]
    by_cases hh : a = 'h'.toUInt8
    · have hnot : a ≠ 'j'.toUInt8 := by
        rw [hh]
        decide
      rw [if_pos hh]
      constructor
      · intro hread
        have hfour : 4 ≤ rest.length + 2 := hread 4 (by simp)
        exact ⟨fun h => hnot h.1, fun _ => by omega⟩
      · rintro ⟨-, hlen⟩ i hi
        have hroom := hlen hh
        simp only [List.mem_cons, List.not_mem_nil, or_false] at hi
        simp only [List.length_cons]
        omega
    rw [if_neg hh]
    by_cases hc : a = 'c'.toUInt8
    · have hnot : a ≠ 'j'.toUInt8 := by
        rw [hc]
        decide
      rw [if_pos hc]
      exact iff_of_true (by simp) ⟨fun h => hnot h.1, fun h => absurd h hh⟩
    rw [if_neg hc]
    by_cases hj : a = 'j'.toUInt8
    · rw [if_pos hj]
      cases rest with
      | nil =>
        have htwo : memory_at ['.'.toUInt8, a] beyond 2 = 0 := rfl
        rw [htwo, if_neg (by decide)]
        exact iff_of_false (by simp) fun h => h.1 ⟨hj, rfl⟩
      | cons b rest =>
        refine iff_of_true ?_ ⟨fun h => List.cons_ne_nil b rest h.2, fun h => absurd h hh⟩
        split_ifs <;> simp
    rw [if_neg hj]
    have hlong : ¬ (a = 'j'.toUInt8 ∧ rest = []) ∧ (a = 'h'.toUInt8 → 2 ≤ rest.length) :=
      ⟨fun h => hj h.1, fun h => absurd h hh⟩
    refine iff_of_true ?_ hlong
    split_ifs <;> first | exact hsimple | simp

end reads

/-- The type for a path is that of the first entry of `mime_types` for its extension,
and finding it reads nothing beyond the extension, whatever lies there. -/
structure LookupExact (file_path : List UInt8) (buffer_size : Nat) : Prop where
  same_type : ∀ beyond, uvhttp_static_get_mime_type beyond file_path buffer_size =
    .ok ((linear_mime_type (get_file_extension file_path)).take (buffer_size - 1))
  in_range : ∀ beyond, ∀ i ∈ (mime_hash_function (get_file_extension file_path) beyond).read,
    i ≤ (get_file_extension file_path).length
  below : ∀ beyond, (mime_hash_function (get_file_extension file_path) beyond).index < MIME_HASH_TABLE_SIZE

/-- The hashed lookup is the linear one for every path. It stays within the extension
unless the characters at fixed places lie beyond it. -/
theorem get_mime_type_exact (file_path : List UInt8) {buffer_size : Nat} (hbuffer : 0 < buffer_size) :
    LookupExact file_path buffer_size ↔ long_enough (get_file_extension file_path) := by
  have hreads (beyond : Nat → UInt8) :
      (∀ i ∈ (mime_hash_function (get_file_extension file_path) beyond).read,
        i ≤ (get_file_extension file_path).length) ↔ long_enough (get_file_extension file_path) := by
    rcases get_file_extension_cases file_path with hempty | ⟨rest, hext⟩
    · rw [hempty]
      exact iff_of_true (by simp [mime_hash_function, memory_at]) ⟨by decide, by decide⟩
    · rw [hext]
      exact mime_hash_function_reads beyond rest
  constructor
  · intro h
    exact (hreads fun _ => 0).mp (h.in_range fun _ => 0)
  · intro hlong
    refine ⟨fun beyond => ?_, fun beyond => (hreads beyond).mpr hlong, mime_hash_function_below _⟩
    rw [uvhttp_static_get_mime_type, if_neg hbuffer.ne', hashed_mime_type_eq_linear]

theorem get_mime_type_exact_html :
    0 < 4096 ∧ LookupExact (bytes "/www/index.HTML") 4096 ∧
      linear_mime_type (get_file_extension (bytes "/www/index.HTML")) = bytes "text/html" := by
  have hext : get_file_extension (bytes "/www/index.HTML") = bytes ".HTML" := by decide
  refine ⟨by decide, (get_mime_type_exact _ (by decide)).mpr ?_, ?_⟩
  · rw [hext]
    exact ⟨by decide, by decide⟩
  · rw [hext]
    decide +kernel

/-- The lookup for a C header file reads two characters beyond the terminator. -/
theorem get_mime_type_reads_beyond :
    4 ∈ (mime_hash_function (get_file_extension (bytes "/www/main.h")) fun _ => 0).read ∧
      (get_file_extension (bytes "/www/main.h")).length = 2 ∧ ¬ LookupExact (bytes "/www/main.h") 4096 := by
  have hread : 4 ∈ (mime_hash_function (get_file_extension (bytes "/www/main.h")) fun _ => 0).read := by decide
  have hlen : (get_file_extension (bytes "/www/main.h")).length = 2 := by decide
  refine ⟨hread, hlen, fun h => ?_⟩
  have hin := h.in_range (fun _ => 0) 4 hread
  omega

end uvhttp.static_files
