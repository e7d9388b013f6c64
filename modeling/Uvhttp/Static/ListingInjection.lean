import Uvhttp.Static.DirectoryListing

namespace uvhttp.static_files

open uvhttp.http hiding uvhttp_response_send uvhttp_response_send_raw
open bounded_text

/-- The characters that end a text or an attribute value in HTML. -/
def markup (c : UInt8) : Bool := c = 60 || c = 62 || c = 34 || c = 39

/-- The characters of a piece, and whether they come from the request path or a name. -/
def Piece.marked : Piece → List (UInt8 × Bool)
  | .template text => text.map fun c => (c, false)
  | .input text => text.map fun c => (c, true)
  | .escaped text => (Piece.text (.escaped text)).map fun c => (c, true)

def marked_text (pieces : List Piece) : List (UInt8 × Bool) := pieces.flatMap Piece.marked

/-- A character that comes from the request path or a name is no markup. -/
def Harmless (shown : UInt8 × Bool) : Prop := shown.2 = true → markup shown.1 = false

/-- What is returned is the beginning of the page, and no character in it that comes from
the request path or a name is markup. -/
def InjectionFree (sys : ListingSystem) (dir_path request_path : List UInt8) : Prop :=
  ∀ html, (generate_directory_listing sys dir_path request_path).html = some html →
    ∀ names entries, sys.readdir dir_path = some names → collect_dir_entries sys dir_path names = some entries →
      ∃ shown, shown = (marked_text (listing_page sys request_path (sort_dir_entries entries))).take
          (listing_buffer_size names - 1) ∧
        shown.map Prod.fst = html ∧ ∀ x ∈ shown, Harmless x

section pieces

variable {sys : ListingSystem} {dir_path request_path : List UInt8} {limit : Nat}

theorem map_fst_marked_text (pieces : List Piece) : (marked_text pieces).map Prod.fst = page_text pieces := by
  have hpiece : (fun piece : Piece => piece.marked.map Prod.fst) = Piece.text := by
    funext piece
    cases piece with
    | template text | input text | escaped text =>
      rw [Piece.marked, List.map_map]
      exact List.map_id _
  rw [marked_text, List.map_flatMap, hpiece, page_text]

theorem length_marked_text (pieces : List Piece) : (marked_text pieces).length = (page_text pieces).length := by
  rw [← map_fst_marked_text, List.length_map]

theorem marked_text_append (pieces more : List Piece) :
    marked_text (pieces ++ more) = marked_text pieces ++ marked_text more := List.flatMap_append

theorem markup_escape_char {c d : UInt8} (hd : d ∈ escape_char c) : markup d = false := by
  have hentity : ∀ text ∈ [bytes "&lt;", bytes "&gt;", bytes "&amp;", bytes "&quot;", bytes "&#39;"],
      ∀ d ∈ text, markup d = false := by
    have hall : [bytes "&lt;", bytes "&gt;", bytes "&amp;", bytes "&quot;", bytes "&#39;"].all
        (fun text => text.all fun d => !markup d) = true := by decide
    simpa only [List.all_eq_true, Bool.not_eq_true'] using hall
  rw [escape_char, html_entity] at hd
  split_ifs at hd with hlt hgt hamp hquot hapos
  · exact hentity _ (by simp) d hd
  · exact hentity _ (by simp) d hd
  · exact hentity _ (by simp) d hd
  · exact hentity _ (by simp) d hd
  · exact hentity _ (by simp) d hd
  · obtain rfl := List.mem_singleton.mp hd
    simp only [markup, hlt, hgt, hquot, hapos, decide_false, Bool.or_false]

theorem harmless_template (text : List UInt8) (limit : Nat) :
    ∀ x ∈ (Piece.marked (.template text)).take limit, Harmless x := by
  intro x hx htrue
  obtain ⟨c, -, rfl⟩ := List.mem_map.mp (List.mem_of_mem_take hx)
  cases htrue

/-- A name that was escaped is harmless, however much of it is shown. -/
theorem harmless_escaped (entry : DirEntry) (limit : Nat) :
    ∀ x ∈ (Piece.marked (.escaped entry.name)).take limit, Harmless x := by
  intro x hx _
  obtain ⟨d, hd, rfl⟩ := List.mem_map.mp (List.mem_of_mem_take hx)
  rw [Piece.text, html_escape_name] at hd
  obtain ⟨c, -, hc⟩ := List.mem_flatMap.mp hd
  exact markup_escape_char hc

/-- Text that is put in as it is is harmless when what is shown of it has no markup. -/
theorem harmless_input_iff (text : List UInt8) (limit : Nat) :
    (∀ x ∈ (Piece.marked (.input text)).take limit, Harmless x) ↔ ∀ c ∈ text.take limit, markup c = false := by
  rw [Piece.marked, ← List.map_take, List.forall_mem_map]
  exact ⟨fun h c hc => h c hc rfl, fun h c hc _ => h c hc⟩

theorem length_marked (piece : Piece) : piece.marked.length = piece.text.length := by
  cases piece with
  | template text | input text | escaped text => exact List.length_map _

/-- In the row of an entry it is the reference that matters. -/
theorem harmless_row_iff (sys : ListingSystem) (entry : DirEntry) (limit : Nat) :
    (∀ x ∈ (marked_text (listing_row sys entry)).take limit, Harmless x) ↔
      ∀ c ∈ entry.name.take (limit - 17), markup c = false := by
  have hhref : (Piece.text (.template (bytes "<tr><td><a href=\""))).length = 17 := rfl
  rw [listing_row]
  split
  · simp only [marked_text, List.flatMap_cons, List.flatMap_nil, List.append_nil, forall_take_append,
      harmless_input_iff, length_marked, hhref]
    exact ⟨fun h => h.2.1, fun h => ⟨harmless_template _ _, h, harmless_template _ _, harmless_escaped _ _,
      harmless_template _ _⟩⟩
  · simp only [marked_text, List.flatMap_cons, List.flatMap_nil, List.append_nil, forall_take_append,
      harmless_input_iff, length_marked, hhref]
    exact ⟨fun h => h.2.1, fun h => ⟨harmless_template _ _, h, harmless_template _ _, harmless_escaped _ _,
      harmless_template _ _⟩⟩

/-- In the head it is the title, which shows at least as much of the path as the heading. -/
theorem harmless_head_iff (request_path : List UInt8) (limit : Nat) :
    (∀ x ∈ (marked_text (listing_head request_path)).take limit, Harmless x) ↔
      ∀ c ∈ request_path.take (limit - 82), markup c = false := by
  have htitle : (Piece.text (.template title_start)).length = 82 := rfl
  simp only [marked_text, listing_head, List.flatMap_cons, List.flatMap_nil, List.append_nil, forall_take_append,
    harmless_input_iff, length_marked, htitle]
  refine ⟨fun h => h.2.1, fun h => ⟨harmless_template _ _, h, harmless_template _ _, fun c hc => ?_,
    harmless_template _ _⟩⟩
  apply h c
  apply List.take_subset_take_left _ _ hc
  omega

theorem harmless_parent_link (request_path : List UInt8) (limit : Nat) :
    ∀ x ∈ (marked_text (parent_link request_path)).take limit, Harmless x := by
  rw [parent_link]
  split
  · exact fun x hx => by cases List.mem_of_mem_take hx
  · rw [marked_text, List.flatMap_cons, List.flatMap_nil, List.append_nil]
    exact harmless_template _ _

theorem harmless_listing_foot (actual_count limit : Nat) :
    ∀ x ∈ (marked_text (listing_foot actual_count)).take limit, Harmless x := by
  rw [listing_foot, marked_text, List.flatMap_cons, List.flatMap_nil, List.append_nil]
  exact harmless_template _ _

/-- What the page shows of the request path and of the names in references, with room for
a number of characters. -/
def SafeInput (sys : ListingSystem) (request_path : List UInt8) (entries : List DirEntry) (room : Nat) : Prop :=
  (∀ c ∈ request_path.take (room - 82), markup c = false) ∧
    ∀ front entry back, entries = front ++ entry :: back →
      ∀ c ∈ entry.name.take (room - (start_length request_path + (front.map (row_length sys)).sum + 17)),
        markup c = false

theorem harmless_page_iff (sys : ListingSystem) (request_path : List UInt8) (entries : List DirEntry) (room : Nat) :
    (∀ x ∈ (marked_text (listing_page sys request_path entries)).take room, Harmless x) ↔
      SafeInput sys request_path entries room := by
  have hrows : ∀ front : List DirEntry, (front.flatMap fun entry => marked_text (listing_row sys entry)).length =
      (front.map (row_length sys)).sum := by
    intro front
    rw [List.length_flatMap]
    simp only [length_marked_text, length_listing_row]
  have hassoc : marked_text (entries.flatMap (listing_row sys)) =
      entries.flatMap fun entry => marked_text (listing_row sys entry) := List.flatMap_assoc
  rw [listing_page, marked_text_append, marked_text_append, forall_take_append, forall_take_append,
    marked_text_append, forall_take_append, harmless_head_iff, hassoc, forall_take_flatMap, SafeInput]
  simp only [harmless_row_iff, hrows, ← marked_text_append, length_marked_text, length_start, Nat.sub_sub]
  constructor
  · rintro ⟨⟨⟨hpath, -⟩, hnames⟩, -⟩
    exact ⟨hpath, hnames⟩
  · rintro ⟨hpath, hnames⟩
    refine ⟨⟨⟨hpath, harmless_parent_link _ _⟩, hnames⟩, ?_⟩
    exact harmless_listing_foot _ _

end pieces

section listing

variable {sys : ListingSystem} {dir_path request_path : List UInt8}

theorem InjectionFree.safe (h : InjectionFree sys dir_path request_path) {names : List (List UInt8)}
    {entries : List DirEntry} (hopen : sys.readdir dir_path = some names)
    (halloc : sys.alloc_html (listing_buffer_size names) = true)
    (hentries : collect_dir_entries sys dir_path names = some entries) :
    SafeInput sys request_path (sort_dir_entries entries) (listing_buffer_size names - 1) := by
  have hgenerated := generated sys dir_path request_path
  rw [InjectionFree] at h
  generalize generate_directory_listing sys dir_path request_path = listing at hgenerated h
  rw [← harmless_page_iff]
  cases hgenerated with
  | nothing hclosed =>
    rw [hclosed names hopen] at halloc
    cases halloc
  | stopped hnames _ hnone _ =>
    obtain rfl := Option.some.inj (hnames.symm.trans hopen)
    rw [hnone] at hentries
    cases hentries
  | page hnames _ hsome _ =>
    obtain ⟨shown, rfl, -, hharmless⟩ := h _ rfl names entries hopen hentries
    exact hharmless

theorem injection_free_of_safe (h : ∀ names entries, sys.readdir dir_path = some names →
      sys.alloc_html (listing_buffer_size names) = true → collect_dir_entries sys dir_path names = some entries →
        SafeInput sys request_path (sort_dir_entries entries) (listing_buffer_size names - 1)) :
    InjectionFree sys dir_path request_path := by
  have hgenerated := generated sys dir_path request_path
  rw [InjectionFree]
  generalize generate_directory_listing sys dir_path request_path = listing at hgenerated
  rintro html hhtml names entries hopen hentries
  refine ⟨_, rfl, ?_, (harmless_page_iff _ _ _ _).mpr ?_⟩
  · cases hgenerated with
    | nothing _ => cases hhtml
    | stopped _ _ _ _ => cases hhtml
    | page hnames _ hsome hprinted =>
      obtain rfl := Option.some.inj (hnames.symm.trans hopen)
      obtain rfl := Option.some.inj (hsome.symm.trans hentries)
      obtain rfl := Option.some.inj hhtml
      rw [List.map_take, map_fst_marked_text, hprinted.finish, ← page_text_append,
        ← length_sort_dir_entries, ← listing_page]
  · cases hgenerated with
    | nothing _ => cases hhtml
    | stopped _ _ _ _ => cases hhtml
    | page hnames halloc _ _ =>
      obtain rfl := Option.some.inj (hnames.symm.trans hopen)
      exact h _ _ hopen halloc hentries

/-- Where the page fits, all of the request path and of the names is shown. -/
theorem safe_input_of_fits {entries : List DirEntry} {size : Nat}
    (hfits : listing_length sys request_path entries < size) :
    SafeInput sys request_path (sort_dir_entries entries) (size - 1) ↔
      (∀ c ∈ request_path, markup c = false) ∧ ∀ entry ∈ entries, ∀ c ∈ entry.name, markup c = false := by
  have hperm : (sort_dir_entries entries).Perm entries := List.perm_insertionSort _ _
  have hsum : ((sort_dir_entries entries).map (row_length sys)).sum = (entries.map (row_length sys)).sum :=
    (hperm.map _).sum_eq
  rw [listing_length, ← hsum] at hfits
  have hpath : request_path.take (size - 1 - 82) = request_path := by
    apply List.take_of_length_le
    rw [start_length] at hfits
    omega
  have hname : ∀ front entry back, sort_dir_entries entries = front ++ entry :: back →
      entry.name.take (size - 1 - (start_length request_path + (front.map (row_length sys)).sum + 17)) = entry.name := by
    intro front entry back hsplit
    apply List.take_of_length_le
    have hrow : entry.name.length + 65 ≤ row_length sys entry := by
      rw [row_length]
      split <;> omega
    rw [hsplit, List.map_append, List.sum_append, List.map_cons, List.sum_cons] at hfits
    omega
  rw [SafeInput, hpath]
  refine and_congr_right fun _ => ⟨fun h entry hentry => ?_, fun h front entry back hsplit => ?_⟩
  · obtain ⟨front, back, hsplit⟩ := List.append_of_mem (hperm.mem_iff.mpr hentry)
    have hsafe := h front entry back hsplit
    rw [hname front entry back hsplit] at hsafe
    exact hsafe
  · rw [hname front entry back hsplit]
    apply h entry
    rw [← hperm.mem_iff, hsplit]
    exact List.mem_append_right _ List.mem_cons_self

/-- A listing is free of injected markup exactly when what it shows of the request path in
the title and of the names in the references has none. Where the page fits its buffer,
that is all of them. -/
theorem listing_injection_exact (sys : ListingSystem) (dir_path request_path : List UInt8) :
    (InjectionFree sys dir_path request_path ↔
      ∀ names entries, sys.readdir dir_path = some names → sys.alloc_html (listing_buffer_size names) = true →
        collect_dir_entries sys dir_path names = some entries →
          SafeInput sys request_path (sort_dir_entries entries) (listing_buffer_size names - 1)) ∧
      (Fits sys dir_path request_path → (InjectionFree sys dir_path request_path ↔
        ∀ names entries, sys.readdir dir_path = some names → sys.alloc_html (listing_buffer_size names) = true →
          collect_dir_entries sys dir_path names = some entries →
            (∀ c ∈ request_path, markup c = false) ∧ ∀ entry ∈ entries, ∀ c ∈ entry.name, markup c = false)) := by
  have hiff : InjectionFree sys dir_path request_path ↔
      ∀ names entries, sys.readdir dir_path = some names → sys.alloc_html (listing_buffer_size names) = true →
        collect_dir_entries sys dir_path names = some entries →
          SafeInput sys request_path (sort_dir_entries entries) (listing_buffer_size names - 1) :=
    ⟨fun h _ _ hopen halloc hentries => h.safe hopen halloc hentries, injection_free_of_safe⟩
  refine ⟨hiff, fun hfits => hiff.trans ?_⟩
  have hshort : ∀ names entries, sys.readdir dir_path = some names →
      sys.alloc_html (listing_buffer_size names) = true → collect_dir_entries sys dir_path names = some entries →
        listing_length sys request_path entries < listing_buffer_size names := by
    intro names entries hopen halloc hentries
    have h := hfits names hopen halloc
    rw [hentries] at h
    exact h
  constructor
  · intro h names entries hopen halloc hentries
    exact (safe_input_of_fits (hshort names entries hopen halloc hentries)).mp (h names entries hopen halloc hentries)
  · intro h names entries hopen halloc hentries
    exact (safe_input_of_fits (hshort names entries hopen halloc hentries)).mpr (h names entries hopen halloc hentries)

/-- A quotation mark in the name of a file ends the reference, and a tag in the request
path comes into the title. -/
theorem listing_injected :
    ¬ InjectionFree (listing_site [bytes "a\" onclick=\"b"]) (bytes "/srv") (bytes "/") ∧
      ¬ InjectionFree (listing_site [bytes "."]) (bytes "/srv/<b>") (bytes "/<b>") := by
  constructor
  · intro h
    obtain ⟨-, hnames⟩ := h.safe rfl rfl rfl
    exact absurd (hnames [] ⟨bytes "a\" onclick=\"b", 1, 0, false, by decide⟩ [] rfl 34 (by decide +kernel)) (by decide)
  · intro h
    obtain ⟨hpath, -⟩ := h.safe rfl rfl rfl
    exact absurd (hpath 60 (by decide +kernel)) (by decide)

end listing

end uvhttp.static_files
