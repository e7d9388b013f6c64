import Uvhttp.Http.Framing
import Uvhttp.Lib.BoundedText
import Uvhttp.Static.Handler

namespace uvhttp.static_files

open uvhttp.http hiding uvhttp_response_send uvhttp_response_send_raw
open uvhttp.lru_cache (UVHTTP_MAX_FILE_PATH_SIZE)
open bounded_text

def UVHTTP_DIR_LISTING_BUFFER_SIZE : Nat := 4096
def UVHTTP_DIR_ENTRY_HTML_OVERHEAD : Nat := 200
def SIZEOF_DIR_ENTRY : Nat := 280

/-- What a listing is made from: the names that `readdir` gives, `stat`, and how
`localtime` and `strftime` print a time. A directory that was opened once need not open
again. -/
structure ListingSystem where
  readdir : List UInt8 → Option (List (List UInt8))
  reopens : Bool
  stat : List UInt8 → Option Stat
  alloc_html : Nat → Bool
  alloc_entries : Nat → Bool
  local_time : Int → List UInt8

/-- `dir_entry_t`. -/
structure DirEntry where
  name : List UInt8
  size : Nat
  mtime : Int
  is_dir : Bool
  name_lt : name.length < 256

section entries

/-- The names that are listed. -/
def listed_names (names : List (List UInt8)) : List (List UInt8) := names.filter (· ≠ bytes ".")

/-- The buffer size and the number of entries, with one more name. -/
def count_entry (counted : Nat × Nat) (d_name : List UInt8) : Nat × Nat :=
  if d_name = bytes "." then counted
  else (counted.1 + (d_name.length + UVHTTP_DIR_ENTRY_HTML_OVERHEAD), counted.2 + 1)

/-- `calculate_dir_listing_buffer_size`: the size and the number of entries. -/
def calculate_dir_listing_buffer_size (names : List (List UInt8)) : Nat × Nat :=
  names.foldl count_entry (UVHTTP_DIR_LISTING_BUFFER_SIZE, 0)

theorem length_take_name_lt (d_name : List UInt8) : (d_name.take 255).length < 256 :=
  Nat.lt_succ_of_le (List.length_take_le 255 d_name)

/-- The entry of a name. One whose path is too long is left out. -/
def dir_entry (sys : ListingSystem) (dir_path d_name : List UInt8) : Option DirEntry :=
  if (dir_path ++ [SLASH] ++ d_name).length ≥ UVHTTP_MAX_FILE_PATH_SIZE then none
  else
    match sys.stat (dir_path ++ [SLASH] ++ d_name) with
    | none => some ⟨d_name.take 255, 0, 0, false, length_take_name_lt d_name⟩
    | some st => some ⟨d_name.take 255, st.size, st.mtime, st.directory, length_take_name_lt d_name⟩

/-- `collect_dir_entries`. -/
def collect_dir_entries (sys : ListingSystem) (dir_path : List UInt8) (names : List (List UInt8)) :
    Option (List DirEntry) :=
  if !sys.reopens then none
  else if !sys.alloc_entries ((listed_names names).length * SIZEOF_DIR_ENTRY) then none
  else some ((listed_names names).filterMap (dir_entry sys dir_path))

/-- `compare_dir_entries` does not order the second entry before the first. -/
def compare_dir_entries (a b : DirEntry) : Bool :=
  if a.is_dir && !b.is_dir then true
  else if !a.is_dir && b.is_dir then false
  else decide (a.name ≤ b.name)

/-- `sort_dir_entries`. -/
def sort_dir_entries (entries : List DirEntry) : List DirEntry :=
  entries.insertionSort fun a b => compare_dir_entries a b = true

end entries

section page

/-- What `html_escape` writes for a character that it replaces, and the room that it
wants to see for it. -/
def html_entity (c : UInt8) : Option (List UInt8 × Nat) :=
  if c = 60 then some (bytes "&lt;", 4)
  else if c = 62 then some (bytes "&gt;", 4)
  else if c = 38 then some (bytes "&amp;", 5)
  else if c = 34 then some (bytes "&quot;", 6)
  else if c = 39 then some (bytes "&#39;", 6)
  else none

/-- The loop of `html_escape`, with what is written so far. -/
def html_escape_from (dest_size : Nat) : List UInt8 → List UInt8 → List UInt8
  | [], dest => dest
  | c :: src, dest =>
    if dest.length < dest_size - 1 then
      match html_entity c with
      | none => html_escape_from dest_size src (dest ++ [c])
      | some (entity, room) =>
        html_escape_from dest_size src (if dest.length + room < dest_size then dest ++ entity else dest)
    else dest

/-- `html_escape`. -/
def html_escape (dest_size : Nat) (src : List UInt8) : List UInt8 := html_escape_from dest_size src []

/-- The parts of a page: text of the program, text that is put in as it is, and text that
was escaped. -/
inductive Piece where
  | template (text : List UInt8)
  | input (text : List UInt8)
  | escaped (text : List UInt8)
  deriving DecidableEq, Repr

def Piece.text : Piece → List UInt8
  | .template text | .input text => text
  | .escaped text => html_escape (UVHTTP_MAX_FILE_PATH_SIZE * 6) text

def page_text (pieces : List Piece) : List UInt8 := pieces.flatMap Piece.text

def title_start : List UInt8 :=
  bytes "<!DOCTYPE html>\n<html>\n<head>\n<meta charset=\"UTF-8\">\n<title>Directory listing for "

def heading_start : List UInt8 :=
  bytes "</title>\n<style>\n" ++ bytes "body \x7b font-family: Arial, sans-serif; margin: 20px; \x7d\n" ++
    bytes "h1 \x7b color: #333; \x7d\n" ++ bytes "table \x7b border-collapse: collapse; width: 100%; \x7d\n" ++
    bytes "th, td \x7b text-align: left; padding: 8px; border-bottom: 1px solid #ddd; \x7d\n" ++
    bytes "th \x7b background-color: #f2f2f2; \x7d\n" ++ bytes "a \x7b text-decoration: none; color: #0066cc; \x7d\n" ++
    bytes "a:hover \x7b text-decoration: underline; \x7d\n" ++ bytes ".dir \x7b font-weight: bold; \x7d\n" ++
    bytes ".size \x7b text-align: right; color: #666; \x7d\n" ++
    bytes "</style>\n</head>\n<body>\n<h1>Directory listing for "

def table_start : List UInt8 :=
  bytes "</h1>\n<table>\n<tr><th>Name</th><th>Size</th><th>Modified</th></tr>\n"

/-- The start of the page. -/
def listing_head (request_path : List UInt8) : List Piece :=
  [.template title_start, .input request_path, .template heading_start, .input request_path, .template table_start]

/-- The link to the parent directory. -/
def parent_link (request_path : List UInt8) : List Piece :=
  if request_path = [SLASH] then []
  else [.template (bytes
    "<tr><td><a href=\"../\">../</a></td><td class=\"dir\">-</td><td>-</td></tr>\n")]

def time_text (sys : ListingSystem) (mtime : Int) : List UInt8 :=
  if mtime > 0 then sys.local_time mtime else bytes "-"

/-- The row of an entry. -/
def listing_row (sys : ListingSystem) (entry : DirEntry) : List Piece :=
  if entry.is_dir then
    [.template (bytes "<tr><td><a href=\""), .input entry.name, .template (bytes "/\" class=\"dir\">"),
      .escaped entry.name, .template (bytes "/</a></td><td class=\"dir\">-</td><td>" ++ time_text sys entry.mtime ++
        bytes "</td></tr>\n")]
  else
    [.template (bytes "<tr><td><a href=\""), .input entry.name, .template (bytes "\">"), .escaped entry.name,
      .template (bytes "</a></td><td class=\"size\">" ++ bytes (toString entry.size) ++ bytes "</td><td>" ++
        time_text sys entry.mtime ++ bytes "</td></tr>\n")]

/-- The end of the page. -/
def listing_foot (actual_count : Nat) : List Piece :=
  [.template (bytes "</table>\n<p style=\"margin-top: 20px; color: #666; font-size: small;\">" ++
    bytes (toString actual_count) ++ bytes " entries total</p>\n</body>\n</html>")]

/-- What a call of `generate_directory_listing` leaves: the buffer after the last piece
that moves its offset, and the page that is returned. -/
structure Listing where
  buffer : Buffer UInt8
  html : Option (List UInt8)

/-- `generate_directory_listing`. Once the offset is behind the end, what is printed
there goes into other memory and the page keeps the beginning. -/
def generate_directory_listing (sys : ListingSystem) (dir_path request_path : List UInt8) : Listing :=
  match sys.readdir dir_path with
  | none => ⟨.empty 0, none⟩
  | some names =>
    let (buffer_size, _) := calculate_dir_listing_buffer_size names
    if !sys.alloc_html buffer_size then ⟨.empty 0, none⟩
    else
      let b := (Buffer.empty buffer_size).print (page_text (listing_head request_path))
      let b := b.print (page_text (parent_link request_path))
      match collect_dir_entries sys dir_path names with
      | none => ⟨b, none⟩
      | some entries =>
        let b := (sort_dir_entries entries).foldl (fun b entry => b.print (page_text (listing_row sys entry))) b
        ⟨b, some (b.finish (page_text (listing_foot entries.length)))⟩

end page

section lengths

/-- A character as the page shows it. -/
def escape_char (c : UInt8) : List UInt8 := (html_entity c).elim [c] Prod.fst

/-- The length of a name once it is escaped. -/
def escaped_length (name : List UInt8) : Nat := (name.map fun c => (escape_char c).length).sum

/-- The length of a row. -/
def row_length (sys : ListingSystem) (entry : DirEntry) : Nat :=
  entry.name.length + escaped_length entry.name + (time_text sys entry.mtime).length +
    if entry.is_dir then 79 else 65 + (bytes (toString entry.size)).length

/-- The length of what comes before the rows. -/
def start_length (request_path : List UInt8) : Nat :=
  604 + 2 * request_path.length + if request_path = [SLASH] then 0 else 72

/-- The length of a page. -/
def listing_length (sys : ListingSystem) (request_path : List UInt8) (entries : List DirEntry) : Nat :=
  start_length request_path + (entries.map (row_length sys)).sum + (103 + (bytes (toString entries.length)).length)

/-- The size of the buffer. -/
def listing_buffer_size (names : List (List UInt8)) : Nat :=
  UVHTTP_DIR_LISTING_BUFFER_SIZE +
    ((listed_names names).map fun name => name.length + UVHTTP_DIR_ENTRY_HTML_OVERHEAD).sum

variable {sys : ListingSystem} {request_path name : List UInt8} {entries : List DirEntry}

theorem calculate_dir_listing_buffer_size_eq (names : List (List UInt8)) :
    calculate_dir_listing_buffer_size names = (listing_buffer_size names, (listed_names names).length) := by
  have hloop : ∀ (names : List (List UInt8)) (counted : Nat × Nat), names.foldl count_entry counted =
      (counted.1 + ((listed_names names).map fun name => name.length + UVHTTP_DIR_ENTRY_HTML_OVERHEAD).sum,
        counted.2 + (listed_names names).length) := by
    intro names
    induction names with
    | nil => exact fun _ => rfl
    | cons name names ih =>
      intro counted
      rw [List.foldl_cons, ih, count_entry]
      by_cases hdot : name = bytes "."
      · rw [if_pos hdot, listed_names, listed_names, List.filter_cons_of_neg (by simpa using hdot)]
      · rw [if_neg hdot, listed_names, listed_names, List.filter_cons_of_pos (by simpa using hdot), List.map_cons,
          List.sum_cons, List.length_cons]
        exact Prod.ext (Nat.add_assoc _ _ _) (Nat.add_right_comm _ _ _)
  rw [calculate_dir_listing_buffer_size, hloop, Nat.zero_add, listing_buffer_size]

theorem length_escape_char_le (c : UInt8) : (escape_char c).length ≤ 6 := by
  rw [escape_char, html_entity]
  split_ifs
  · exact show (bytes "&lt;").length ≤ 6 by decide
  · exact show (bytes "&gt;").length ≤ 6 by decide
  · exact show (bytes "&amp;").length ≤ 6 by decide
  · exact show (bytes "&quot;").length ≤ 6 by decide
  · exact show (bytes "&#39;").length ≤ 6 by decide
  · exact show 1 ≤ 6 by decide

/-- The room that is asked for a character holds what is written for it. -/
theorem html_entity_room {c : UInt8} {entity : List UInt8} {room : Nat} (h : html_entity c = some (entity, room)) :
    room ≤ 6 := by
  rw [html_entity] at h
  split_ifs at h
  all_goals
    obtain ⟨-, rfl⟩ := Prod.mk.inj (Option.some.inj h)
    decide

/-- Where there is six times the room of a text, all of it is escaped. -/
theorem html_escape_from_eq {dest_size : Nat} (src dest : List UInt8)
    (hroom : dest.length + 6 * src.length < dest_size) :
    html_escape_from dest_size src dest = dest ++ src.flatMap escape_char := by
  induction src generalizing dest with
  | nil =>
    rw [List.flatMap_nil, List.append_nil]
    rfl
  | cons c src ih =>
    rw [List.length_cons] at hroom
    have hlength := length_escape_char_le c
    have hnext : html_escape_from dest_size src (dest ++ escape_char c) =
        dest ++ escape_char c ++ src.flatMap escape_char := by
      apply ih
      rw [List.length_append]
      omega
    rw [html_escape_from, if_pos (by omega), List.flatMap_cons, ← List.append_assoc, ← hnext, escape_char]
    cases hentity : html_entity c with
    | none => rfl
    | some found =>
      obtain ⟨entity, room⟩ := found
      have hfits := html_entity_room hentity
      simp only [if_pos (show dest.length + room < dest_size by omega), Option.elim_some]

theorem html_escape_name (entry : DirEntry) :
    html_escape (UVHTTP_MAX_FILE_PATH_SIZE * 6) entry.name = entry.name.flatMap escape_char := by
  apply html_escape_from_eq
  have hname := entry.name_lt
  show 0 + 6 * entry.name.length < 2048 * 6
  omega

theorem length_listing_head (request_path : List UInt8) :
    (page_text (listing_head request_path)).length = 604 + 2 * request_path.length := by
  have htitle : title_start.length = 82 := rfl
  have hheading : heading_start.length = 455 := by decide +kernel
  have htable : table_start.length = 67 := rfl
  simp only [page_text, listing_head, List.flatMap_cons, List.flatMap_nil, Piece.text, List.length_append, htitle,
    hheading, htable, List.length_nil]
  omega

theorem length_parent_link (request_path : List UInt8) :
    (page_text (parent_link request_path)).length = if request_path = [SLASH] then 0 else 72 := by
  rw [parent_link]
  split <;> rfl

theorem length_listing_row (sys : ListingSystem) (entry : DirEntry) :
    (page_text (listing_row sys entry)).length = row_length sys entry := by
  have hescaped : (html_escape (UVHTTP_MAX_FILE_PATH_SIZE * 6) entry.name).length = escaped_length entry.name := by
    rw [html_escape_name, List.length_flatMap, escaped_length]
  rw [listing_row, row_length]
  split
  · have hhref : (bytes "<tr><td><a href=\"").length = 17 := rfl
    have hclass : (bytes "/\" class=\"dir\">").length = 15 := rfl
    have hsize : (bytes "/</a></td><td class=\"dir\">-</td><td>").length = 36 := rfl
    have hend : (bytes "</td></tr>\n").length = 11 := rfl
    simp only [page_text, List.flatMap_cons, List.flatMap_nil, Piece.text, List.length_append, hescaped, hhref, hclass,
      hsize, hend, List.length_nil]
    omega
  · have hhref : (bytes "<tr><td><a href=\"").length = 17 := rfl
    have hclose : (bytes "\">").length = 2 := rfl
    have hclass : (bytes "</a></td><td class=\"size\">").length = 26 := rfl
    have htime : (bytes "</td><td>").length = 9 := rfl
    have hend : (bytes "</td></tr>\n").length = 11 := rfl
    simp only [page_text, List.flatMap_cons, List.flatMap_nil, Piece.text, List.length_append, hescaped, hhref, hclose,
      hclass, htime, hend, List.length_nil]
    omega

theorem length_listing_foot (actual_count : Nat) :
    (page_text (listing_foot actual_count)).length = 103 + (bytes (toString actual_count)).length := by
  have hstart : (bytes "</table>\n<p style=\"margin-top: 20px; color: #666; font-size: small;\">").length = 69 := rfl
  have hend : (bytes " entries total</p>\n</body>\n</html>").length = 34 := rfl
  simp only [page_text, listing_foot, List.flatMap_cons, List.flatMap_nil, Piece.text, List.length_append, hstart, hend,
    List.length_nil]
  omega

end lengths

section listing

variable {sys : ListingSystem} {dir_path request_path : List UInt8} {listing : Listing}

/-- The pieces of a page. -/
def listing_page (sys : ListingSystem) (request_path : List UInt8) (entries : List DirEntry) : List Piece :=
  listing_head request_path ++ parent_link request_path ++ entries.flatMap (listing_row sys) ++
    listing_foot entries.length

/-- What `generate_directory_listing` does: nothing, or it stops without the entries, or it
prints the page. -/
inductive Generated (sys : ListingSystem) (dir_path request_path : List UInt8) : Listing → Prop where
  | nothing (hclosed : ∀ names, sys.readdir dir_path = some names →
      sys.alloc_html (listing_buffer_size names) = false) :
    Generated sys dir_path request_path ⟨.empty 0, none⟩
  | stopped {names : List (List UInt8)} {b : Buffer UInt8} (hopen : sys.readdir dir_path = some names)
      (halloc : sys.alloc_html (listing_buffer_size names) = true)
      (hentries : collect_dir_entries sys dir_path names = none)
      (hprinted : Printed b (listing_buffer_size names)
        (page_text (listing_head request_path ++ parent_link request_path))) :
    Generated sys dir_path request_path ⟨b, none⟩
  | page {names : List (List UInt8)} {entries : List DirEntry} {b : Buffer UInt8}
      (hopen : sys.readdir dir_path = some names) (halloc : sys.alloc_html (listing_buffer_size names) = true)
      (hentries : collect_dir_entries sys dir_path names = some entries)
      (hprinted : Printed b (listing_buffer_size names) (page_text (listing_head request_path ++
        parent_link request_path ++ (sort_dir_entries entries).flatMap (listing_row sys)))) :
    Generated sys dir_path request_path ⟨b, some (b.finish (page_text (listing_foot entries.length)))⟩

theorem page_text_append (pieces more : List Piece) : page_text (pieces ++ more) = page_text pieces ++ page_text more :=
  List.flatMap_append

theorem page_text_rows (sys : ListingSystem) (entries : List DirEntry) :
    page_text (entries.flatMap (listing_row sys)) = entries.flatMap fun entry => page_text (listing_row sys entry) :=
  List.flatMap_assoc

theorem generated (sys : ListingSystem) (dir_path request_path : List UInt8) :
    Generated sys dir_path request_path (generate_directory_listing sys dir_path request_path) := by
  cases hopen : sys.readdir dir_path with
  | none =>
    simp only [generate_directory_listing, hopen]
    exact .nothing fun names hnames => by
      rw [hopen] at hnames
      cases hnames
  | some names =>
    simp only [generate_directory_listing, hopen, calculate_dir_listing_buffer_size_eq]
    cases halloc : sys.alloc_html (listing_buffer_size names) with
    | false =>
      exact .nothing fun other hother => by
        rw [hopen] at hother
        cases hother
        exact halloc
    | true =>
      have hstart := ((printed_empty (listing_buffer_size names)).print (page_text (listing_head request_path))).print
        (page_text (parent_link request_path))
      rw [List.nil_append, ← page_text_append] at hstart
      simp only [Bool.not_true, Bool.false_eq_true, if_false]
      cases hentries : collect_dir_entries sys dir_path names with
      | none => exact .stopped hopen halloc hentries hstart
      | some entries =>
        apply Generated.page hopen halloc hentries
        have hrows := hstart.foldl (fun entry => page_text (listing_row sys entry)) (sort_dir_entries entries)
        rw [page_text_append, page_text_rows]
        exact hrows

/-- The offset stayed within the buffer, and what is returned is the whole page. -/
def Complete (sys : ListingSystem) (dir_path request_path : List UInt8) : Prop :=
  (generate_directory_listing sys dir_path request_path).buffer.exceeded = false ∧
    ∀ html, (generate_directory_listing sys dir_path request_path).html = some html →
      bytes "</html>" <:+ html ∧ ∃ names entries, sys.readdir dir_path = some names ∧
        collect_dir_entries sys dir_path names = some entries ∧
          html = page_text (listing_page sys request_path (sort_dir_entries entries))

theorem length_start (request_path : List UInt8) :
    (page_text (listing_head request_path ++ parent_link request_path)).length = start_length request_path := by
  rw [page_text_append, List.length_append, length_listing_head, length_parent_link, start_length]

theorem length_sort_dir_entries (entries : List DirEntry) : (sort_dir_entries entries).length = entries.length :=
  List.length_insertionSort _ _

/-- The order of the entries does not matter for the length. -/
theorem length_rows (sys : ListingSystem) (entries : List DirEntry) :
    (page_text ((sort_dir_entries entries).flatMap (listing_row sys))).length = (entries.map (row_length sys)).sum := by
  have hrows : (fun entry => (page_text (listing_row sys entry)).length) = row_length sys :=
    funext (length_listing_row sys)
  rw [page_text_rows, List.length_flatMap, hrows]
  exact ((List.perm_insertionSort _ entries).map _).sum_eq

theorem length_listing_page (sys : ListingSystem) (request_path : List UInt8) (entries : List DirEntry) :
    (page_text (listing_page sys request_path (sort_dir_entries entries))).length =
      listing_length sys request_path entries := by
  rw [listing_page, page_text_append, page_text_append, List.length_append, List.length_append, length_start,
    length_rows, length_listing_foot, length_sort_dir_entries, listing_length]

theorem listing_page_ends (sys : ListingSystem) (request_path : List UInt8) (entries : List DirEntry) :
    bytes "</html>" <:+ page_text (listing_page sys request_path entries) := by
  have hfoot : ∀ front : List UInt8, bytes "</html>" <:+ front ++ bytes " entries total</p>\n</body>\n</html>" :=
    fun front => List.IsSuffix.trans ⟨bytes " entries total</p>\n</body>\n", rfl⟩ (List.suffix_append front _)
  rw [listing_page, page_text_append]
  apply List.IsSuffix.trans _ (List.suffix_append _ _)
  rw [page_text, listing_foot, List.flatMap_cons, List.flatMap_nil, List.append_nil]
  exact hfoot _

theorem listing_buffer_size_pos (names : List (List UInt8)) : 0 < listing_buffer_size names :=
  Nat.lt_of_lt_of_le (show 0 < UVHTTP_DIR_LISTING_BUFFER_SIZE by decide) (Nat.le_add_right _ _)

/-- The room that was estimated from the names is enough for the page. -/
def Fits (sys : ListingSystem) (dir_path request_path : List UInt8) : Prop :=
  ∀ names, sys.readdir dir_path = some names → sys.alloc_html (listing_buffer_size names) = true →
    (collect_dir_entries sys dir_path names).elim (start_length request_path ≤ listing_buffer_size names)
      fun entries => listing_length sys request_path entries < listing_buffer_size names

/-- A buffer holds the page when the page is shorter. -/
theorem finish_listing_iff {names : List (List UInt8)} {entries : List DirEntry} {b : Buffer UInt8}
    (hprinted : Printed b (listing_buffer_size names) (page_text (listing_head request_path ++
      parent_link request_path ++ (sort_dir_entries entries).flatMap (listing_row sys)))) :
    b.finish (page_text (listing_foot entries.length)) =
        page_text (listing_page sys request_path (sort_dir_entries entries)) ↔
      listing_length sys request_path entries < listing_buffer_size names := by
  have hpage : page_text (listing_page sys request_path (sort_dir_entries entries)) =
      page_text (listing_head request_path ++ parent_link request_path ++
        (sort_dir_entries entries).flatMap (listing_row sys)) ++ page_text (listing_foot entries.length) := by
    rw [listing_page, page_text_append, length_sort_dir_entries]
  rw [← length_listing_page, hpage]
  exact hprinted.finish_whole_iff (listing_buffer_size_pos names)

theorem Complete.fits (h : Complete sys dir_path request_path) : Fits sys dir_path request_path := by
  have hgenerated := generated sys dir_path request_path
  obtain ⟨hwithin, hreturned⟩ := h
  generalize generate_directory_listing sys dir_path request_path = listing at hgenerated hwithin hreturned
  intro names hopen halloc
  cases hgenerated with
  | nothing hclosed =>
    rw [hclosed names hopen] at halloc
    cases halloc
  | stopped hnames _ hentries hprinted =>
    obtain rfl := Option.some.inj (hnames.symm.trans hopen)
    have hexceeded := hprinted.exceeded
    rw [length_start] at hexceeded
    rw [hentries]
    refine Nat.not_lt.mp fun hlong => ?_
    rw [hexceeded.mpr hlong] at hwithin
    cases hwithin
  | page hnames _ hentries hprinted =>
    obtain rfl := Option.some.inj (hnames.symm.trans hopen)
    obtain ⟨-, names', entries', hnames', hentries', heq⟩ := hreturned _ rfl
    obtain rfl := Option.some.inj (hopen.symm.trans hnames')
    obtain rfl := Option.some.inj (hentries.symm.trans hentries')
    rw [hentries]
    exact (finish_listing_iff hprinted).mp heq

theorem Fits.complete (h : Fits sys dir_path request_path) : Complete sys dir_path request_path := by
  have hgenerated := generated sys dir_path request_path
  rw [Complete]
  generalize generate_directory_listing sys dir_path request_path = listing at hgenerated
  cases hgenerated with
  | nothing hclosed => exact ⟨rfl, fun html hhtml => by cases hhtml⟩
  | stopped hopen halloc hentries hprinted =>
    have hshort := h _ hopen halloc
    rw [hentries, Option.elim_none, ← length_start] at hshort
    refine ⟨?_, fun html hhtml => by cases hhtml⟩
    rw [← Bool.not_eq_true, hprinted.exceeded]
    exact Nat.not_lt.mpr hshort
  | page hopen halloc hentries hprinted =>
    have hshort := h _ hopen halloc
    rw [hentries, Option.elim_some] at hshort
    refine ⟨?_, fun html hhtml => ?_⟩
    · rw [← Bool.not_eq_true, hprinted.exceeded, page_text_append, List.length_append, length_start, length_rows]
      rw [listing_length] at hshort
      omega
    · obtain rfl := Option.some.inj hhtml
      rw [(finish_listing_iff hprinted).mpr hshort]
      exact ⟨listing_page_ends _ _ _, _, _, hopen, hentries, rfl⟩

/-- A listing is complete exactly when the page, with each name as it is and escaped and
with the request path twice, is shorter than the room that was estimated from the names. -/
theorem listing_complete_iff (sys : ListingSystem) (dir_path request_path : List UInt8) :
    Complete sys dir_path request_path ↔ Fits sys dir_path request_path := ⟨Complete.fits, Fits.complete⟩

/-- A directory of files with one size, in a system where nothing fails. -/
def listing_site (names : List (List UInt8)) : ListingSystem where
  readdir := fun _ => some names
  reopens := true
  stat := fun _ => some ⟨true, false, 1, 0⟩
  alloc_html := fun _ => true
  alloc_entries := fun _ => true
  local_time := fun _ => bytes "1970-01-01 00:00:00"

/-- Three names of 255 characters that grow sixfold, beside the directory itself. -/
def quoted_names : List (List UInt8) :=
  [bytes ".", 97 :: List.replicate 254 34, 98 :: List.replicate 254 34, 99 :: List.replicate 254 34]

/-- Three files with long names of quotation marks overrun the buffer. -/
theorem listing_overruns : ¬ Complete (listing_site quoted_names) (bytes "/srv") (bytes "/") := by
  intro h
  have hlong : (collect_dir_entries (listing_site quoted_names) (bytes "/srv") quoted_names).any (fun entries =>
      listing_buffer_size quoted_names ≤ listing_length (listing_site quoted_names) (bytes "/") entries) = true := by
    decide +kernel
  simp only [Option.any_eq_true, decide_eq_true_eq] at hlong
  obtain ⟨entries, hentries, hlong⟩ := hlong
  have hshort := h.fits quoted_names rfl rfl
  rw [hentries] at hshort
  exact Nat.not_lt.mpr hlong hshort

end listing

end uvhttp.static_files
