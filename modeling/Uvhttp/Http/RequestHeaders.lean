import Uvhttp.Lib.Machine
import Uvhttp.Http.HeaderSlots

namespace uvhttp.header_store

open http string_block machine

/-- What the parser callbacks for headers work on: the header fields of the
request and the `current_header_field_len` bytes of the name that waits for its
value. -/
structure HeaderParsing where
  store : HeaderStore
  current_header_field : List UInt8
  deriving DecidableEq, Repr

/-- How a callback ends: with 0, with -1, or with a write outside the arrays. -/
inductive Outcome where
  | accepted
  | rejected
  | overrun
  deriving DecidableEq, Repr

/-- `on_header_field`. -/
def on_header_field (c : HeaderParsing) (span : List UInt8) : HeaderParsing × Outcome :=
  if span.length ≥ UVHTTP_MAX_HEADER_NAME_SIZE then ({ c with current_header_field := [] }, .rejected)
  else ({ c with current_header_field := span }, .accepted)

/-- `on_header_value`. -/
def on_header_value (alloc : Nat → Bool) (fresh : Nat → UInt8) (c : HeaderParsing) (span : List UInt8) :
    HeaderParsing × Outcome :=
  if span.length ≥ UVHTTP_MAX_HEADER_VALUE_SIZE then (c, .rejected)
  else if c.current_header_field.length = 0 then (c, .rejected)
  else
    match uvhttp_request_add_header alloc fresh c.store c.current_header_field span with
    | none => (c, .overrun)
    | some (code, store) =>
      if code ≠ .OK then ({ c with store }, .rejected) else (⟨store, []⟩, .accepted)

/-- A header delivered in one span for its name and one for its value, with the
allocator at that time and what new memory holds. -/
structure Delivery where
  field : List UInt8
  value : List UInt8
  alloc : Nat → Bool
  fresh : Nat → UInt8

/-- The callbacks for one header. The second is made when the first returned 0. -/
def deliver (c : HeaderParsing) (d : Delivery) : HeaderParsing × Outcome :=
  let named := on_header_field c d.field
  if named.2 = .accepted then on_header_value d.alloc d.fresh named.1 d.value else named

/-- The headers that are accepted. -/
def accepted (c : HeaderParsing) : List Delivery → List Header
  | [] => []
  | d :: ds =>
    (if (deliver c d).2 = .accepted then [⟨d.field, d.value⟩] else []) ++ accepted (deliver c d).1 ds

/-- The headers are stored as they were accepted: by index and in the order of
the calls of `uvhttp_request_foreach_header`, at most 64 of them. What is not
accepted changes nothing, and a lookup by name finds the first of that name. -/
structure HeadersFaithful (c : HeaderParsing) (ds : List Delivery) : Prop where
  count : (run deliver c ds).store.header_count = (accepted c ds).length
  by_index : ∀ index header, (accepted c ds)[index]? = some header →
    (uvhttp_request_get_header_at (run deliver c ds).store index).bind (run deliver c ds).store.read = some header
  in_order : uvhttp_request_foreach_header (run deliver c ds).store = some (accepted c ds)
  limit : (accepted c ds).length ≤ UVHTTP_MAX_HEADERS
  rejected : ∀ front d back, ds = front ++ d :: back → (deliver (run deliver c front) d).2 ≠ .accepted →
    (deliver (run deliver c front) d).2 = .rejected ∧
      (deliver (run deliver c front) d).1.store.header_count = (run deliver c front).store.header_count ∧
      ∀ index < (run deliver c front).store.header_count,
        (deliver (run deliver c front) d).1.store.slot_bytes index = (run deliver c front).store.slot_bytes index
  by_name : ∀ name, name.all header_name_char = true →
    uvhttp_request_get_header (run deliver c ds).store name =
      some (((accepted c ds).find? fun header => strcasecmp header.name name).map Header.value)

/-- The header passes the checks of the callbacks and finds room. -/
structure Delivery.Acceptable (d : Delivery) (s : HeaderStore) : Prop where
  named : 0 < d.field.length
  field : d.field.length < UVHTTP_MAX_HEADER_NAME_SIZE
  value : d.value.length < UVHTTP_MAX_HEADER_VALUE_SIZE
  room : s.HasRoom d.alloc

/-- Name and value hold no NUL byte. -/
def Delivery.NulFree (d : Delivery) : Prop := 0 ∉ d.field ∧ 0 ∉ d.value

/-- A header with the part of its value that the field takes. -/
def cut (header : Header) : Header := ⟨header.name, header.value.take (UVHTTP_HEADER_VALUE_BUFFER_SIZE - 1)⟩

theorem cstr_of_nul_free {text : List UInt8} (h : 0 ∉ text) : cstr text = text := by
  rw [cstr, List.takeWhile_eq_self_iff]
  intro c hc
  rw [bne_iff_ne]
  rintro rfl
  exact h hc

section deliver

variable {c : HeaderParsing} {d : Delivery}

/-- An acceptable header is stored in the next slot. -/
theorem deliver_acceptable (h : c.store.WellFormed) (hfree : d.NulFree) (haccept : d.Acceptable c.store) :
    ∃ store, deliver c d = (⟨store, []⟩, .accepted) ∧ store.WellFormed ∧
      store.header_count = c.store.header_count + 1 ∧ store.Holds c.store.header_count (cut ⟨d.field, d.value⟩) ∧
      ∀ index < c.store.header_count, store.slot_bytes index = c.store.slot_bytes index := by
  obtain ⟨hwell, hspare, hkept⟩ := h.with_room haccept.room
  have hshort := haccept.field
  have hwhole : d.field.take (UVHTTP_HEADER_NAME_BUFFER_SIZE - 1) = d.field := by
    apply List.take_of_length_le
    unfold UVHTTP_MAX_HEADER_NAME_SIZE at hshort
    unfold UVHTTP_HEADER_NAME_BUFFER_SIZE
    omega
  have hfill := hwell.fill_fits hspare UVHTTP_HEADER_NAME_BUFFER_SIZE UVHTTP_HEADER_VALUE_BUFFER_SIZE hfree.1 hfree.2
    (by rw [hwhole]; exact hshort) (by
      rw [List.length_take]
      exact Nat.lt_of_le_of_lt (Nat.min_le_left _ _) (by decide))
  rw [hwhole] at hfill
  obtain ⟨store, hfilled, hholds⟩ := hfill
  obtain ⟨hwell', hcount, -, hearlier⟩ := hwell.fill hspare hfilled
  have hadd : uvhttp_request_add_header d.alloc d.fresh c.store d.field d.value = some (.OK, store) := by
    rw [h.add_header_room _ _ haccept.room, store_header, hwell.get_header_at hspare, cstr_of_nul_free hfree.1,
      cstr_of_nul_free hfree.2]
    dsimp only
    rw [hfilled]
    rfl
  rw [HeaderStore.with_room_count] at hcount hholds hearlier
  refine ⟨store, ?_, hwell', hcount, hholds, fun index hindex => (hearlier index hindex).trans (hkept index hindex)⟩
  have hnamed := haccept.named
  simp only [deliver, on_header_field, if_neg (Nat.not_le.mpr hshort), if_true, on_header_value,
    if_neg (Nat.not_le.mpr haccept.value), if_neg (Nat.ne_of_gt hnamed), hadd, ne_eq, not_true_eq_false, if_false]

/-- Any other header is rejected and changes nothing that is stored. -/
theorem deliver_unacceptable (h : c.store.WellFormed) (haccept : ¬ d.Acceptable c.store) :
    ∃ pending, deliver c d = (⟨c.store, pending⟩, .rejected) := by
  unfold deliver on_header_field
  by_cases hlong : d.field.length ≥ UVHTTP_MAX_HEADER_NAME_SIZE
  · simp only [if_pos hlong]
    exact ⟨_, rfl⟩
  · simp only [if_neg hlong, if_true, on_header_value]
    by_cases hvalue : d.value.length ≥ UVHTTP_MAX_HEADER_VALUE_SIZE
    · rw [if_pos hvalue]
      exact ⟨_, rfl⟩
    · by_cases hnone : d.field.length = 0
      · rw [if_neg hvalue, if_pos hnone]
        exact ⟨_, rfl⟩
      · have hroom : ¬ c.store.HasRoom d.alloc := fun hroom =>
          haccept ⟨Nat.pos_of_ne_zero hnone, Nat.lt_of_not_le hlong, Nat.lt_of_not_le hvalue, hroom⟩
        obtain ⟨code, hcode, hadd⟩ := h.add_header_full d.fresh d.field d.value hroom
        rw [if_neg hvalue, if_neg hnone, hadd]
        dsimp only
        rw [if_pos hcode]
        exact ⟨_, rfl⟩

theorem deliver_accepted_iff (h : c.store.WellFormed) (hfree : d.NulFree) :
    (deliver c d).2 = .accepted ↔ d.Acceptable c.store := by
  by_cases haccept : d.Acceptable c.store
  · obtain ⟨store, heq, -⟩ := deliver_acceptable h hfree haccept
    rw [heq]
    exact iff_of_true rfl haccept
  · obtain ⟨pending, heq⟩ := deliver_unacceptable h haccept
    rw [heq]
    exact iff_of_false (by simp) haccept

end deliver

/-- The store holds these headers, one in each slot in use. -/
structure HeaderStore.Represents (s : HeaderStore) (headers : List Header) : Prop where
  count : s.header_count = headers.length
  slots : ∀ index header, headers[index]? = some header → s.Holds index header

theorem HeaderStore.Represents.append {s s' : HeaderStore} {headers : List Header} {header : Header}
    (h : s.Represents headers) (hcount : s'.header_count = s.header_count + 1) (hlast : s'.Holds s.header_count header)
    (hkept : ∀ index < s.header_count, s'.slot_bytes index = s.slot_bytes index) :
    s'.Represents (headers ++ [header]) := by
  refine ⟨by rw [hcount, h.count, List.length_append, List.length_singleton], ?_⟩
  intro index other hother
  by_cases hindex : index < headers.length
  · rw [List.getElem?_append_left hindex] at hother
    exact (h.slots index other hother).congr (hkept index (h.count ▸ hindex))
  · rw [List.getElem?_append_right (Nat.le_of_not_lt hindex), List.getElem?_singleton] at hother
    split at hother
    · rename_i hzero
      cases hother
      rw [show index = s.header_count by rw [h.count]; omega]
      exact hlast
    · cases hother

/-- What the store holds after any deliveries: the headers accepted, with values
cut to their fields. -/
theorem run_represents {c : HeaderParsing} (h : c.store.WellFormed) {headers : List Header}
    (hheaders : c.store.Represents headers) {ds : List Delivery} (hfree : ∀ d ∈ ds, d.NulFree) :
    (run deliver c ds).store.WellFormed ∧
      (run deliver c ds).store.Represents (headers ++ (accepted c ds).map cut) := by
  induction ds generalizing c headers with
  | nil =>
    rw [accepted, List.map_nil, List.append_nil]
    exact ⟨h, hheaders⟩
  | cons d ds ih =>
    obtain ⟨hfirst, hrest⟩ := List.forall_mem_cons.mp hfree
    rw [machine.run, accepted]
    by_cases haccept : d.Acceptable c.store
    · obtain ⟨store, heq, hwell, hcount, hholds, hkept⟩ := deliver_acceptable h hfirst haccept
      rw [heq, if_pos rfl, List.map_append, List.map_singleton, ← List.append_assoc]
      exact ih (c := ⟨store, []⟩) hwell (hheaders.append hcount hholds hkept) hrest
    · obtain ⟨pending, heq⟩ := deliver_unacceptable h haccept
      rw [heq, if_neg (by simp), List.nil_append]
      exact ih (c := ⟨c.store, pending⟩) h hheaders hrest

/-- A header is accepted just when one of the deliveries is acceptable as it
comes. -/
theorem forall_accepted_iff {c : HeaderParsing} (h : c.store.WellFormed) {P : Header → Prop} {ds : List Delivery}
    (hfree : ∀ d ∈ ds, d.NulFree) :
    (∀ header ∈ accepted c ds, P header) ↔
      Enabled deliver (fun c d => d.Acceptable c.store → P ⟨d.field, d.value⟩) c ds := by
  induction ds generalizing c with
  | nil => exact iff_of_true (by simp [accepted]) trivial
  | cons d ds ih =>
    obtain ⟨hfirst, hrest⟩ := List.forall_mem_cons.mp hfree
    rw [accepted, Enabled]
    by_cases haccept : d.Acceptable c.store
    · obtain ⟨store, heq, hwell, -⟩ := deliver_acceptable h hfirst haccept
      rw [heq, if_pos rfl, List.singleton_append, List.forall_mem_cons, ih (c := ⟨store, []⟩) hwell hrest]
      simp [haccept]
    · obtain ⟨pending, heq⟩ := deliver_unacceptable h haccept
      rw [heq, if_neg (by simp), List.nil_append, ih (c := ⟨c.store, pending⟩) h hrest]
      simp [haccept]

section reading

variable {s : HeaderStore} {headers : List Header} (hwell : s.WellFormed) (h : s.Represents headers)

include hwell h

/-- Each header is read through the pointer of its index. -/
theorem HeaderStore.Represents.get_header {index : Nat} {header : Header} (hheader : headers[index]? = some header) :
    uvhttp_request_get_header_at s index = some (slot index) ∧ s.read (slot index) = some header := by
  have hindex : index < s.header_count := by
    rw [h.count]
    exact (List.getElem?_eq_some_iff.mp hheader).1
  exact ⟨hwell.get_header_at (Nat.lt_of_lt_of_le hindex hwell.count), (h.slots index header hheader).read⟩

theorem HeaderStore.Represents.foreach_header : uvhttp_request_foreach_header s = some headers := by
  have hread : (List.range s.header_count).filterMap (fun i => (uvhttp_request_get_header_at s i).map s.read) =
      headers.map some := by
    rw [h.count]
    have hslots : ∀ i ∈ List.range headers.length,
        (uvhttp_request_get_header_at s i).map s.read = some headers[i]? := by
      intro i hi
      have hheader := List.getElem?_eq_getElem (List.mem_range.mp hi)
      obtain ⟨hpointer, hvalue⟩ := h.get_header hwell hheader
      rw [hpointer, Option.map_some, hvalue, hheader]
    rw [List.filterMap_congr hslots, List.filterMap_eq_map']
    apply List.ext_getElem
    · simp
    · intro i hi hi'
      simp
  have hall : ∀ list : List Header, (list.map some).mapM id = some list := by
    intro list
    induction list with
    | nil => rfl
    | cons header list ih =>
      rw [List.map_cons, List.mapM_cons, ih]
      rfl
  rw [uvhttp_request_foreach_header, hread, hall]

/-- The loop of a lookup from some index on. -/
theorem HeaderStore.Represents.find_header
    (hvalues : ∀ header ∈ headers, header.value.length < UVHTTP_HEADER_VALUE_BUFFER_SIZE) (name : List UInt8)
    (front rest : List Header) (hsplit : headers = front ++ rest) :
    header_store.find_header s name (List.range' front.length rest.length) =
      some ((rest.find? fun header => strcasecmp header.name name).map Header.value) := by
  induction rest generalizing front with
  | nil => rfl
  | cons header rest ih =>
    have hheader : headers[front.length]? = some header := by
      rw [hsplit, List.getElem?_append_right (Nat.le_refl _), Nat.sub_self]
      rfl
    have hvalue : header.value.length ≤ UVHTTP_MAX_HEADER_VALUE_SIZE - 1 := by
      have hshort := hvalues header (by rw [hsplit]; simp)
      unfold UVHTTP_HEADER_VALUE_BUFFER_SIZE at hshort
      unfold UVHTTP_MAX_HEADER_VALUE_SIZE
      omega
    obtain ⟨hpointer, hread⟩ := h.get_header hwell hheader
    have hrest := ih (front ++ [header]) (by rw [hsplit, List.append_assoc]; rfl)
    rw [List.length_append, List.length_singleton] at hrest
    rw [List.length_cons, List.range'_succ, header_store.find_header, hpointer]
    dsimp only
    rw [hread, Option.bind_some, decide_eq_true hvalue, Bool.and_true, List.find?_cons]
    cases strcasecmp header.name name with
    | true => rfl
    | false => exact hrest

end reading

theorem length_of_strcasecmp {a b : List UInt8} (h : strcasecmp a b = true) : a.length = b.length := by
  have hlength := congrArg List.length (of_decide_eq_true h)
  rwa [List.length_map, List.length_map] at hlength

/-- Lookup by name: the first header of that name, ignoring case. -/
theorem HeaderStore.Represents.get_header_by_name {s : HeaderStore} {headers : List Header} (hwell : s.WellFormed)
    (h : s.Represents headers)
    (hnames : ∀ header ∈ headers, 0 < header.name.length ∧ header.name.length < UVHTTP_MAX_HEADER_NAME_SIZE)
    (hvalues : ∀ header ∈ headers, header.value.length < UVHTTP_HEADER_VALUE_BUFFER_SIZE) {name : List UInt8}
    (hname : name.all header_name_char = true) :
    uvhttp_request_get_header s name =
      some ((headers.find? fun header => strcasecmp header.name name).map Header.value) := by
  unfold uvhttp_request_get_header
  by_cases hlength : name.length = 0 ∨ name.length > UVHTTP_MAX_HEADER_NAME_SIZE - 1
  · have hnone : headers.find? (fun header => strcasecmp header.name name) = none := by
      rw [List.find?_eq_none]
      intro header hheader hsame
      have hbounds := hnames header hheader
      rw [length_of_strcasecmp hsame] at hbounds
      omega
    rw [if_pos hlength, hnone]
    rfl
  · have hfound := h.find_header hwell hvalues name [] headers rfl
    rw [if_neg hlength, hname, List.range_eq_range', h.count]
    exact hfound

theorem HeaderStore.represents_nil {s : HeaderStore} (hempty : s.header_count = 0) : s.Represents [] :=
  ⟨hempty, fun index header habsurd => by cases habsurd⟩

/-- Values that are found again byte by byte are shorter than their fields. -/
theorem HeadersFaithful.values {c : HeaderParsing} {ds : List Delivery} (hfaithful : HeadersFaithful c ds)
    (hwell : c.store.WellFormed) (hempty : c.store.header_count = 0) (hfree : ∀ d ∈ ds, d.NulFree) :
    ∀ header ∈ accepted c ds, header.value.length < UVHTTP_HEADER_VALUE_BUFFER_SIZE := by
  intro header hheader
  obtain ⟨hwell', hstored⟩ := run_represents hwell (HeaderStore.represents_nil hempty) hfree
  rw [List.nil_append] at hstored
  obtain ⟨index, hindex⟩ := List.mem_iff_getElem?.mp hheader
  have hcut : ((accepted c ds).map cut)[index]? = some (cut header) := by
    rw [List.getElem?_map, hindex]
    rfl
  obtain ⟨hpointer, hread⟩ := hstored.get_header hwell' hcut
  have hsame := hfaithful.by_index index header hindex
  rw [hpointer, Option.bind_some, hread] at hsame
  have hvalue := congrArg (fun header => header.value.length) (Option.some.inj hsame)
  simp only [cut, List.length_take] at hvalue
  unfold UVHTTP_HEADER_VALUE_BUFFER_SIZE at hvalue ⊢
  omega

/-- On a fresh or restarted connection and for any deliveries without NUL bytes, the
headers are stored faithfully exactly when every one that passes the checks and
finds room has a value shorter than its field. -/
theorem headers_faithful_iff {c : HeaderParsing} (hwell : c.store.WellFormed) (hempty : c.store.header_count = 0)
    {ds : List Delivery} (hfree : ∀ d ∈ ds, d.NulFree) :
    HeadersFaithful c ds ↔
      Enabled deliver (fun c d => d.Acceptable c.store → d.value.length < UVHTTP_HEADER_VALUE_BUFFER_SIZE) c ds := by
  have hstart := HeaderStore.represents_nil hempty
  obtain ⟨hwell', hstored⟩ := run_represents hwell hstart hfree
  rw [List.nil_append] at hstored
  rw [← forall_accepted_iff hwell (P := fun header => header.value.length < UVHTTP_HEADER_VALUE_BUFFER_SIZE) hfree]
  constructor
  · intro hfaithful
    exact hfaithful.values hwell hempty hfree
  · intro hshort
    have hcut : (accepted c ds).map cut = accepted c ds := by
      apply (List.map_congr_left ?_).trans (List.map_id _)
      intro header hheader
      have hvalue := hshort header hheader
      rw [cut, List.take_of_length_le (by omega)]
      rfl
    have hnames : ∀ header ∈ accepted c ds,
        0 < header.name.length ∧ header.name.length < UVHTTP_MAX_HEADER_NAME_SIZE :=
      (forall_accepted_iff hwell hfree).mpr (enabled_of_forall (fun c d haccept => ⟨haccept.named, haccept.field⟩) c ds)
    rw [hcut] at hstored
    refine ⟨hstored.count, ?_, hstored.foreach_header hwell', ?_, ?_, ?_⟩
    · intro index header hheader
      obtain ⟨hpointer, hread⟩ := hstored.get_header hwell' hheader
      rw [hpointer, Option.bind_some, hread]
    · rw [← hstored.count]
      exact hwell'.count_le
    · rintro front d back rfl hrejected
      have hfront := (run_represents hwell hstart fun d hd => hfree d (List.mem_append_left _ hd)).1
      have hd := hfree d (List.mem_append_right _ List.mem_cons_self)
      rw [ne_eq, deliver_accepted_iff hfront hd] at hrejected
      obtain ⟨pending, heq⟩ := deliver_unacceptable hfront hrejected
      rw [heq]
      exact ⟨rfl, rfl, fun _ _ => rfl⟩
    · intro name hname
      exact hstored.get_header_by_name hwell' hnames hshort hname

/-- The parse state of a connection before its first header. -/
def header_parsing_init : HeaderParsing := ⟨header_store_init, []⟩

/-- A header with a short value is stored faithfully. -/
theorem headers_faithful_host :
    HeadersFaithful header_parsing_init [⟨bytes "Host", bytes "localhost", fun _ => true, fun _ => 0⟩] := by
  refine (headers_faithful_iff wellFormed_init rfl ?_).mpr ⟨fun _ => by decide, trivial⟩
  intro d hd
  rw [List.mem_singleton.mp hd]
  exact ⟨by decide, by decide⟩

/-- A header value of 3000 bytes. -/
def long_header : Delivery := ⟨bytes "Cookie", List.replicate 3000 97, fun _ => true, fun _ => 0⟩

/-- It is accepted and its end is dropped. -/
theorem headers_unfaithful_long : ¬ HeadersFaithful header_parsing_init [long_header] := by
  intro hfaithful
  have hfree : ∀ d ∈ [long_header], d.NulFree := by
    intro d hd
    rw [List.mem_singleton.mp hd]
    refine ⟨by decide, fun hmem => ?_⟩
    exact absurd (List.eq_of_mem_replicate hmem) (by decide)
  have hlength : long_header.value.length = 3000 := List.length_replicate
  have hshort := (forall_accepted_iff wellFormed_init hfree).mp (hfaithful.values wellFormed_init rfl hfree)
  have hvalue := hshort.1 ⟨by decide, by decide, by rw [hlength]; decide, .inl (by decide)⟩
  dsimp only at hvalue
  rw [hlength] at hvalue
  exact absurd hvalue (by decide)

end uvhttp.header_store
