import Uvhttp.Lib.Template
import Uvhttp.Router.CacheMatch
import Uvhttp.Router.CacheCapacity

namespace uvhttp.cache_match

open http (Method)
open open_addressing
open router (MAX_ROUTE_PATH_LEN SLASH COLON)
open router_cache (CacheRouter HashEntry HashTable Sound fast_method_parse probe_order static_prefix_handler
  template_loop template_matches)
open router_match (MAX_PARAMS MAX_PARAM_NAME_LEN MAX_PARAM_VALUE_LEN Param RouteMatch)
open text_template (Fits)

variable {H : Type}

section templates

/-- The parts of a route: a parameter starts at a colon and runs to the next slash. -/
def route_parts (route : List UInt8) : List (text_template.Part UInt8) := text_template.parse COLON SLASH false route

/-- The names of the parameters of a route. -/
def param_names (route : List UInt8) : List (List UInt8) := text_template.names (route_parts route)

/-- The path of a route with values in place of its parameters. -/
def substitute (route : List UInt8) (values : List (List UInt8)) : List UInt8 :=
  text_template.substitute (route_parts route) values

theorem colon_ne_slash : COLON ≠ SLASH := by decide

theorem route_parts_colon (rest : List UInt8) :
    route_parts (COLON :: rest) =
      .param (rest.takeWhile (· ≠ SLASH)) :: route_parts (rest.dropWhile (· ≠ SLASH)) :=
  text_template.parse_mark rest colon_ne_slash

theorem route_parts_literal {c : UInt8} (h : c ≠ COLON) (rest : List UInt8) :
    route_parts (c :: rest) = .literal c :: route_parts rest := text_template.parse_literal h rest

theorem length_dropWhile_le (rest : List UInt8) : (rest.dropWhile (· ≠ SLASH)).length ≤ rest.length :=
  (List.dropWhile_sublist _).length_le

/-- The loop takes a path that the route fits. -/
theorem template_loop_iff {fuel : Nat} {rp : List UInt8} (hfuel : rp.length ≤ fuel) (pp : List UInt8) :
    template_loop fuel rp pp = true ↔ ∃ values, Fits SLASH (route_parts rp) values pp := by
  induction fuel generalizing rp pp with
  | zero =>
    obtain rfl := List.length_eq_zero_iff.mp (Nat.le_zero.mp hfuel)
    cases pp with
    | nil => exact ⟨fun _ => ⟨[], .nil⟩, fun _ => rfl⟩
    | cons p pp => exact ⟨nofun, fun ⟨_, hfits⟩ => by cases hfits⟩
  | succ fuel ih =>
    cases rp with
    | nil =>
      cases pp with
      | nil => exact ⟨fun _ => ⟨[], .nil⟩, fun _ => rfl⟩
      | cons p pp => exact ⟨nofun, fun ⟨_, hfits⟩ => by cases hfits⟩
    | cons r rp =>
      have hrest : rp.length ≤ fuel := Nat.le_of_succ_le_succ hfuel
      by_cases hcolon : r = COLON
      · subst hcolon
        rw [route_parts_colon]
        cases pp with
        | nil =>
          refine ⟨nofun, ?_⟩
          rintro ⟨values, hfits⟩
          exact absurd rfl hfits.param_cases.1
        | cons p pp =>
          rw [template_loop, if_pos rfl, ih ((length_dropWhile_le rp).trans hrest)]
          constructor
          · rintro ⟨later, hfits⟩
            exact ⟨_, hfits.of_param (List.cons_ne_nil p pp)⟩
          · rintro ⟨values, hfits⟩
            obtain ⟨-, later, -, hlater⟩ := hfits.param_cases
            exact ⟨later, hlater⟩
      · rw [route_parts_literal hcolon]
        cases pp with
        | nil =>
          refine ⟨nofun, ?_⟩
          rintro ⟨values, hfits⟩
          cases hfits
        | cons p pp =>
          rw [template_loop, if_neg hcolon]
          by_cases hsame : r = p
          · subst hsame
            rw [if_pos rfl, ih hrest]
            constructor
            · rintro ⟨values, hfits⟩
              exact ⟨values, .literal r hfits⟩
            · rintro ⟨values, hfits⟩
              cases hfits with
              | literal _ h => exact ⟨values, h⟩
          · rw [if_neg hsame]
            refine ⟨nofun, ?_⟩
            rintro ⟨values, hfits⟩
            cases hfits
            exact absurd rfl hsame

theorem exact_entry_some {entries : List (Option (HashEntry H))} {path : List UInt8} {method : Method}
    {entry : HashEntry H} {slots : List Nat} (h : exact_entry entries path method slots = some entry) :
    entry ∈ occupants entries ∧ entry.path = path := by
  induction slots with
  | nil => cases h
  | cons index slots ih =>
    rw [exact_entry] at h
    cases hindex : entries.getD index none with
    | none =>
      rw [hindex] at h
      cases h
    | some stored =>
      rw [hindex] at h
      dsimp only at h
      cases hsame : stored.path = path && router.serves stored.method method with
      | true =>
        rw [hsame] at h
        cases h
        exact ⟨mem_occupants.mpr ⟨index, hindex⟩, of_decide_eq_true (Bool.and_eq_true_iff.mp hsame).1⟩
      | false =>
        rw [hsame] at h
        exact ih h

theorem template_entry_some {entries : List (Option (HashEntry H))} {path : List UInt8} {method : Method}
    {entry : HashEntry H} (h : template_entry entries path method = some entry) :
    entry ∈ occupants entries ∧ template_matches entry.path path = true := by
  obtain ⟨slot, hmem, hslot⟩ := List.exists_of_findSome?_eq_some h
  cases slot with
  | none => cases hslot
  | some stored =>
    dsimp only at hslot
    split at hslot
    · rename_i htaken
      cases hslot
      exact ⟨List.mem_filterMap.mpr ⟨_, hmem, rfl⟩, (Bool.and_eq_true_iff.mp htaken).2⟩
    · cases hslot

/-- An entry that a lookup finds is in the table, and it fits the path. -/
theorem found_mem_fits {route_hash : List UInt8 → UInt32} {table : HashTable H} {path : List UInt8} {method : Method}
    {entry : HashEntry H} (h : find_in_hash_table_ex route_hash table path method = some entry) :
    entry ∈ occupants table.entries ∧ ∃ values, Fits SLASH (route_parts entry.path) values path := by
  rw [find_in_hash_table_ex] at h
  cases hfirst : exact_entry table.entries path method (probe_order table.size (route_hash path)) with
  | some found =>
    rw [hfirst] at h
    cases h
    obtain ⟨hmem, rfl⟩ := exact_entry_some hfirst
    exact ⟨hmem, (text_template.fits_self colon_ne_slash _).1⟩
  | none =>
    rw [hfirst] at h
    obtain ⟨hmem, hmatches⟩ := template_entry_some (show template_entry table.entries path method = some entry from h)
    exact ⟨hmem, (template_loop_iff le_rfl path).mp (Bool.and_eq_true_iff.mp hmatches).2⟩

end templates

section extraction

/-- A parameter that fits into the entries of `params`. -/
def fits_param (param : List UInt8 × List UInt8) : Bool :=
  0 < param.1.length && param.1.length < MAX_PARAM_NAME_LEN && param.2.length < MAX_PARAM_VALUE_LEN

/-- The extraction of parameters one after the other, as long as there is room. -/
def extract_all (m : RouteMatch H) (params : List (List UInt8 × List UInt8)) : RouteMatch H :=
  params.foldl (fun m param => if m.param_count < MAX_PARAMS then extract_param m param.1 param.2 else m) m

theorem extract_all_full {m : RouteMatch H} (h : ¬ m.param_count < MAX_PARAMS)
    (params : List (List UInt8 × List UInt8)) : extract_all m params = m := by
  induction params with
  | nil => rfl
  | cons param params ih =>
    rw [extract_all, List.foldl_cons, if_neg h]
    exact ih

theorem extract_all_cons {m : RouteMatch H} (h : m.param_count < MAX_PARAMS) (name value : List UInt8)
    (params : List (List UInt8 × List UInt8)) :
    extract_all m ((name, value) :: params) = extract_all (extract_param m name value) params := by
  rw [extract_all, List.foldl_cons, if_pos h]
  rfl

/-- On a path that the route fits, the loop goes through the parameters. -/
theorem extract_loop_eq {fuel : Nat} {rp pp : List UInt8} (hfuel : rp.length ≤ fuel) {values : List (List UInt8)}
    (hfits : Fits SLASH (route_parts rp) values pp) (m : RouteMatch H) :
    extract_loop fuel rp pp m = extract_all m ((param_names rp).zip values) := by
  induction fuel generalizing rp pp values m with
  | zero =>
    obtain rfl := List.length_eq_zero_iff.mp (Nat.le_zero.mp hfuel)
    rfl
  | succ fuel ih =>
    cases rp with
    | nil => rfl
    | cons r rp =>
      have hrest : rp.length ≤ fuel := Nat.le_of_succ_le_succ hfuel
      by_cases hroom : m.param_count < MAX_PARAMS
      · by_cases hcolon : r = COLON
        · subst hcolon
          rw [param_names]
          rw [route_parts_colon] at hfits ⊢
          obtain ⟨hne, later, rfl, hlater⟩ := hfits.param_cases
          obtain ⟨p, pp, rfl⟩ := List.exists_cons_of_ne_nil hne
          rw [extract_loop, if_pos hroom, if_pos rfl, ih ((length_dropWhile_le rp).trans hrest) hlater,
            text_template.names, List.zip_cons_cons, extract_all_cons hroom]
          rfl
        · rw [param_names]
          rw [route_parts_literal hcolon] at hfits ⊢
          cases hfits with
          | literal _ h =>
            rw [extract_loop, if_pos hroom, if_neg hcolon, if_pos rfl, ih hrest h]
            rfl
      · rw [extract_all_full hroom]
        cases pp with
        | nil => rfl
        | cons p pp => rw [extract_loop, if_neg hroom]

/-- A record whose count is within its parameters. -/
structure WellFormed (m : RouteMatch H) : Prop where
  params : m.params.length = MAX_PARAMS
  count : m.param_count ≤ MAX_PARAMS

theorem WellFormed.length_results {m : RouteMatch H} (h : WellFormed m) : m.results.length = m.param_count := by
  rw [RouteMatch.results, List.length_take, h.params, Nat.min_eq_left h.count]

theorem take_modify_self {β : Type} (l : List β) (n : Nat) (f : β → β) : (l.modify n f).take n = l.take n := by
  induction l generalizing n with
  | nil => cases n <;> rfl
  | cons b l ih =>
    cases n with
    | zero => rfl
    | succ n => exact congrArg (b :: ·) (ih n)

/-- A parameter that does not fit is left out. -/
theorem extract_param_dropped {m : RouteMatch H} (h : WellFormed m) {name value : List UInt8}
    (hdropped : fits_param (name, value) = false) :
    WellFormed (extract_param m name value) ∧ (extract_param m name value).param_count = m.param_count ∧
      (extract_param m name value).results = m.results := by
  rw [extract_param]
  split
  · rename_i hname
    have hvalue : ¬ value.length < MAX_PARAM_VALUE_LEN := by
      intro hvalue
      rw [fits_param, decide_eq_true hname.1, decide_eq_true hname.2, decide_eq_true hvalue] at hdropped
      cases hdropped
    rw [if_neg hvalue, set_name]
    refine ⟨⟨?_, h.count⟩, rfl, take_modify_self _ _ _⟩
    dsimp only
    rw [List.length_modify, h.params]
  · exact ⟨h, rfl, rfl⟩

theorem take_succ_modify {β : Type} {l : List β} {n : Nat} (h : n < l.length) (f g : β → β) {b : β}
    (hb : ∀ a, g (f a) = b) : ((l.modify n f).modify n g).take (n + 1) = l.take n ++ [b] := by
  induction l generalizing n with
  | nil => cases h
  | cons a l ih =>
    cases n with
    | zero => exact congrArg (· :: []) (hb a)
    | succ n => exact congrArg (a :: ·) (ih (Nat.lt_of_succ_lt_succ h))

/-- A parameter that fits is the next of the results. -/
theorem extract_param_kept {m : RouteMatch H} (h : WellFormed m) (hroom : m.param_count < MAX_PARAMS)
    {name value : List UInt8} (hkept : fits_param (name, value) = true) :
    WellFormed (extract_param m name value) ∧ (extract_param m name value).param_count = m.param_count + 1 ∧
      (extract_param m name value).results = m.results ++ [⟨name, value⟩] := by
  simp only [fits_param, Bool.and_eq_true, decide_eq_true_eq] at hkept
  rw [extract_param, if_pos hkept.1, if_pos hkept.2, set_value, set_name]
  refine ⟨⟨?_, hroom⟩, rfl, ?_⟩
  · dsimp only
    rw [List.length_modify, List.length_modify, h.params]
  · exact take_succ_modify (hroom.trans_eq h.params.symm) _ _ fun _ => rfl

/-- What the extraction leaves in the record: the first parameters that fit. -/
theorem extract_all_spec {m : RouteMatch H} (h : WellFormed m) (params : List (List UInt8 × List UInt8)) :
    WellFormed (extract_all m params) ∧
      (extract_all m params).results = m.results ++
        (((params.filter fits_param).map fun param => (⟨param.1, param.2⟩ : Param)).take
          (MAX_PARAMS - m.param_count)) := by
  induction params generalizing m with
  | nil => exact ⟨h, by rw [List.filter_nil, List.map_nil, List.take_nil, List.append_nil]; rfl⟩
  | cons param params ih =>
    obtain ⟨name, value⟩ := param
    by_cases hroom : m.param_count < MAX_PARAMS
    · rw [extract_all_cons hroom]
      cases hkept : fits_param (name, value) with
      | true =>
        obtain ⟨hformed, hcount, hresults⟩ := extract_param_kept h hroom hkept
        obtain ⟨hfinal, hextracted⟩ := ih hformed
        refine ⟨hfinal, ?_⟩
        have hleft : MAX_PARAMS - m.param_count = MAX_PARAMS - (m.param_count + 1) + 1 := by omega
        rw [hextracted, hresults, hcount, List.filter_cons_of_pos hkept, List.map_cons, hleft, List.take_succ_cons,
          List.append_assoc]
        rfl
      | false =>
        obtain ⟨hformed, hcount, hresults⟩ := extract_param_dropped h hkept
        obtain ⟨hfinal, hextracted⟩ := ih hformed
        refine ⟨hfinal, ?_⟩
        rw [hextracted, hresults, hcount, List.filter_cons_of_neg (by rw [hkept]; exact Bool.false_ne_true)]
    · rw [extract_all_full hroom, Nat.sub_eq_zero_of_le (Nat.not_lt.mp hroom), List.take_zero, List.append_nil]
      exact ⟨h, rfl⟩

end extraction

section requests

variable {route_hash : List UInt8 → UInt32} {cr : CacheRouter H} {path method : List UInt8}

theorem extract_params_eq {route : List UInt8} {values : List (List UInt8)}
    (hfits : Fits SLASH (route_parts route) values path) (m : RouteMatch H) :
    extract_params route path m = extract_all m ((param_names route).zip values) := by
  rw [extract_params]
  split
  · exact extract_loop_eq le_rfl hfits m
  · rename_i hcolon
    rw [param_names, route_parts, text_template.parse_unmarked hcolon, text_template.names_literals]
    rfl

/-- What `uvhttp_router_match` returns through an entry: the first parameters that fit,
each with the part of the path that stands in its place. -/
theorem match_through_entry {m : RouteMatch H} (hparams : m.params.length = MAX_PARAMS)
    (hstatic : (!cr.use_trie && static_prefix_handler cr path) = false) {entry : HashEntry H}
    (hfound : find_in_hash_table_ex route_hash cr.hash_table path (fast_method_parse method) = some entry) :
    ∃ m' values, uvhttp_router_match route_hash cr path method m = (.OK, m') ∧ WellFormed m' ∧
      Fits SLASH (route_parts entry.path) values path ∧
      m'.results = ((((param_names entry.path).zip values).filter fits_param).map fun param =>
        (⟨param.1, param.2⟩ : Param)).take MAX_PARAMS := by
  obtain ⟨-, values, hfits⟩ := found_mem_fits hfound
  have hstart : WellFormed { m with handler := some (.handler entry.handler), param_count := 0 } :=
    ⟨hparams, Nat.zero_le _⟩
  obtain ⟨hformed, hresults⟩ := extract_all_spec hstart ((param_names entry.path).zip values)
  refine ⟨_, values, ?_, hformed, hfits, hresults⟩
  rw [uvhttp_router_match, hstatic, if_neg Bool.false_ne_true, hfound, ← extract_params_eq hfits]

/-- Within the limits of the record no parameter is left out. -/
theorem results_within_limits {names values : List (List UInt8)} (hlength : values.length = names.length)
    (hcount : names.length ≤ MAX_PARAMS) (hnames : ∀ name ∈ names, 0 < name.length ∧ name.length < MAX_PARAM_NAME_LEN)
    (hvalues : ∀ value ∈ values, value.length < MAX_PARAM_VALUE_LEN) :
    (((names.zip values).filter fits_param).map fun param => (⟨param.1, param.2⟩ : Param)).take MAX_PARAMS =
      List.zipWith Param.mk names values := by
  have hkept : (names.zip values).filter fits_param = names.zip values := by
    rw [List.filter_eq_self]
    rintro ⟨name, value⟩ hparam
    obtain ⟨hname, hvalue⟩ := List.of_mem_zip hparam
    simp [fits_param, hnames name hname, hvalues value hvalue]
  have hshort : ((names.zip values).map fun param => (⟨param.1, param.2⟩ : Param)).length ≤ MAX_PARAMS := by
    rw [List.length_map, List.length_zip, hlength, Nat.min_self]
    exact hcount
  rw [hkept, List.take_of_length_le hshort, List.zip, List.map_zipWith]

/-- The only route of a router, after its registration. -/
theorem only_entry {alloc : Nat → Bool} {route : List UInt8} {route_method : Method} {handler : H}
    (hadd : router_cache.uvhttp_router_add_route_method route_hash alloc router_cache.uvhttp_router_new route
      route_method (some handler) = some (.OK, cr)) :
    Sound route_hash cr.hash_table [⟨route, route_method, handler⟩] ∧ cr.static_prefix = none := by
  obtain ⟨herr, -⟩ | ⟨_, hhandler, hpath, -, htable, hstatic, -, -⟩ := router_cache.add_route_method_cases hadd
  · exact absurd rfl herr
  cases hhandler
  have hgrown := router_cache.Grown.init.add alloc route route_method handler hpath htable
  rw [if_pos rfl] at hgrown
  exact ⟨hgrown.sound, hstatic⟩

variable (route_hash) in
theorem register_only (entry : HashEntry H) (hpath : cache_capacity.ValidPath entry.path) :
    ∃ cr, router_cache.uvhttp_router_add_route_method route_hash (fun _ => true) router_cache.uvhttp_router_new
      entry.path entry.method (some entry.handler) = some (.OK, cr) := by
  obtain ⟨cr, hregistered, -⟩ := @cache_capacity.register_all_grown H route_hash [entry] []
    router_cache.uvhttp_router_new .init (show 1 ≤ 4096 by decide) (List.forall_mem_singleton.mpr hpath)
      (List.nodup_singleton _)
  rw [router_cache.register_all] at hregistered
  split at hregistered
  · rename_i hadd
    exact ⟨_, hadd⟩
  · cases hregistered

/-- Every path made of the only route and values is matched through it. -/
theorem only_entry_found {entry : HashEntry H} (h : Sound route_hash cr.hash_table [entry])
    {values : List (List UInt8)} (hcount : values.length = (param_names entry.path).length)
    (hvalues : ∀ value ∈ values, value ≠ [] ∧ SLASH ∉ value) {method : Method}
    (hserves : router.serves entry.method method = true) :
    find_in_hash_table_ex route_hash cr.hash_table (substitute entry.path values) method = some entry := by
  have hfits : Fits SLASH (route_parts entry.path) values (substitute entry.path values) :=
    (text_template.fits_substitute hcount hvalues).1
  have hloop := (template_loop_iff (Nat.le_refl _) _).mpr ⟨values, hfits⟩
  have hsome : router_cache.find_in_hash_table route_hash cr.hash_table (substitute entry.path values) method ≠ none := by
    rw [ne_eq, router_cache.find_in_hash_table_eq_none h]
    intro hnone
    obtain ⟨hliteral, htemplate⟩ := hnone entry List.mem_cons_self
    by_cases hcolon : COLON ∈ entry.path
    · rw [router_cache.template, hserves, template_matches, decide_eq_true hcolon, hloop] at htemplate
      cases htemplate
    · have hpath : substitute entry.path values = entry.path := by
        rw [substitute, route_parts, text_template.parse_unmarked hcolon, text_template.substitute_literals]
      rw [hpath, router_cache.literal, hserves, decide_eq_true rfl] at hliteral
      cases hliteral
  rw [find_in_hash_table_eq_entry] at hsome
  have hentry : find_in_hash_table_ex route_hash cr.hash_table (substitute entry.path values) method ≠ none := by
    intro hnone
    rw [hnone] at hsome
    exact hsome rfl
  obtain ⟨found, hfound⟩ := Option.ne_none_iff_exists'.mp hentry
  have hmem := h.stored.mem_iff.mp (found_mem_fits hfound).1
  rw [hfound, List.mem_singleton.mp hmem]

end requests

/-- What `uvhttp_router_match` returns through a route: the path is the route with values
without slashes in place of its parameters, and the result holds them in their order, all
of them within the limits of the record. And every path made of the only route of a router
and values that are not empty is matched. -/
theorem template_match_exact (route_hash : List UInt8 → UInt32) :
    (∀ (cr : CacheRouter H) (path method : List UInt8) (m : RouteMatch H) (entry : HashEntry H),
      m.params.length = MAX_PARAMS → (!cr.use_trie && static_prefix_handler cr path) = false →
      find_in_hash_table_ex route_hash cr.hash_table path (fast_method_parse method) = some entry →
      ∃ m' values, uvhttp_router_match route_hash cr path method m = (.OK, m') ∧
        values.length = (param_names entry.path).length ∧ (∀ value ∈ values, SLASH ∉ value) ∧
        substitute entry.path values = path ∧
        (∀ name, (route_parts entry.path).getLast? = some (.param name) →
          ∃ value, values.getLast? = some value ∧ value ≠ []) ∧
        m'.results = ((((param_names entry.path).zip values).filter fits_param).map fun param =>
          (⟨param.1, param.2⟩ : Param)).take MAX_PARAMS ∧
        ((param_names entry.path).length ≤ MAX_PARAMS →
          (∀ name ∈ param_names entry.path, 0 < name.length ∧ name.length < MAX_PARAM_NAME_LEN) →
          (∀ value ∈ values, value.length < MAX_PARAM_VALUE_LEN) →
          m'.param_count = (param_names entry.path).length ∧
          m'.results = List.zipWith Param.mk (param_names entry.path) values)) ∧
    (∀ (alloc : Nat → Bool) (cr : CacheRouter H) (route : List UInt8) (route_method : Method) (handler : H),
      router_cache.uvhttp_router_add_route_method route_hash alloc router_cache.uvhttp_router_new route route_method
        (some handler) = some (.OK, cr) →
      ∀ (values : List (List UInt8)) (method : List UInt8) (m : RouteMatch H),
        values.length = (param_names route).length → (∀ value ∈ values, value ≠ [] ∧ SLASH ∉ value) →
        router.serves route_method (fast_method_parse method) = true →
        find_in_hash_table_ex route_hash cr.hash_table (substitute route values) (fast_method_parse method) =
            some ⟨route, route_method, handler⟩ ∧
          ∃ m', uvhttp_router_match route_hash cr (substitute route values) method m = (.OK, m') ∧
            m'.handler = some (.handler handler)) := by
  constructor
  · intro cr path method m entry hparams hstatic hfound
    obtain ⟨m', values, hmatch, hformed, hfits, hresults⟩ := match_through_entry hparams hstatic hfound
    refine ⟨m', values, hmatch, hfits.length_eq, hfits.free, hfits.substitute_eq, fun name hlast => hfits.last hlast,
      hresults, fun hcount hnames hvalues => ?_⟩
    have hlength : values.length = (param_names entry.path).length := hfits.length_eq
    rw [results_within_limits hlength hcount hnames hvalues] at hresults
    refine ⟨?_, hresults⟩
    rw [← hformed.length_results, hresults, List.length_zipWith, hlength]
    exact Nat.min_self _
  · intro alloc cr route route_method handler hadd values method m hcount hvalues hserves
    obtain ⟨hsound, hstatic⟩ := only_entry hadd
    have hfound := @only_entry_found H route_hash cr ⟨route, route_method, handler⟩ hsound values hcount hvalues
      (fast_method_parse method) hserves
    refine ⟨hfound, ?_⟩
    rw [uvhttp_router_match, static_prefix_handler, hstatic, Bool.and_false, if_neg Bool.false_ne_true, hfound]
    exact ⟨_, rfl, extract_params_handler _ _ _⟩

theorem template_match_exact_one_parameter :
    ∃ (cr : CacheRouter Unit) (m' : RouteMatch Unit),
      router_cache.uvhttp_router_add_route_method (fun _ => 0) (fun _ => true) router_cache.uvhttp_router_new
          (bytes "/a/:x") .GET (some ()) = some (.OK, cr) ∧
        uvhttp_router_match (fun _ => 0) cr (bytes "/a/7") (bytes "GET") .zero = (.OK, m') ∧
        m'.param_count = 1 ∧ m'.results = [⟨bytes "x", bytes "7"⟩] := by
  have hexact := @template_match_exact Unit (fun _ => 0)
  obtain ⟨cr, hadd⟩ := register_only (fun _ => 0) ⟨bytes "/a/:x", .GET, ()⟩ ⟨by decide, by decide, by decide⟩
  obtain ⟨hfound, -⟩ := hexact.2 (fun _ => true) cr (bytes "/a/:x") .GET () hadd [bytes "7"] (bytes "GET") .zero
    (by decide) (by decide) (by decide)
  have hstatic : (!cr.use_trie && static_prefix_handler cr (bytes "/a/7")) = false := by
    rw [static_prefix_handler, (only_entry hadd).2, Bool.and_false]
  obtain ⟨m', values, hmatch, hlength, -, hpath, -, -, hwithin⟩ := hexact.1 cr (bytes "/a/7") (bytes "GET") .zero _
    List.length_replicate hstatic hfound
  obtain ⟨value, rfl⟩ := List.length_eq_one_iff.mp hlength
  have hvalue : bytes "/a/" ++ (value ++ []) = bytes "/a/" ++ (bytes "7" ++ []) := hpath
  obtain rfl : value = bytes "7" := List.append_left_injective [] (List.append_cancel_left hvalue)
  obtain ⟨hcount, hresults⟩ := hwithin (by decide) (by decide) (by decide)
  exact ⟨cr, m', hadd, hmatch, hcount, hresults⟩

/-- A value of 256 characters is left out. -/
theorem template_match_value_dropped :
    ∃ (cr : CacheRouter Unit) (m' : RouteMatch Unit),
      router_cache.uvhttp_router_add_route_method (fun _ => 0) (fun _ => true) router_cache.uvhttp_router_new
          (bytes "/:x") .GET (some ()) = some (.OK, cr) ∧
        uvhttp_router_match (fun _ => 0) cr (substitute (bytes "/:x") [List.replicate MAX_PARAM_VALUE_LEN 97])
          (bytes "GET") .zero = (.OK, m') ∧
        m'.param_count ≠ (param_names (bytes "/:x")).length := by
  obtain ⟨cr, hadd⟩ := register_only (fun _ => 0) ⟨bytes "/:x", .GET, ()⟩ ⟨by decide, by decide, by decide⟩
  have hvalue : ∀ value ∈ [List.replicate MAX_PARAM_VALUE_LEN (97 : UInt8)], value ≠ [] ∧ SLASH ∉ value := by
    intro value hmem
    rw [List.mem_singleton.mp hmem]
    refine ⟨List.ne_nil_of_length_pos ?_, fun hslash => ?_⟩
    · rw [List.length_replicate]
      decide
    · exact absurd (List.eq_of_mem_replicate hslash) (by decide)
  obtain ⟨hsound, hnostatic⟩ := only_entry hadd
  have hfound := @only_entry_found Unit (fun _ => 0) cr ⟨bytes "/:x", .GET, ()⟩ hsound
    [List.replicate MAX_PARAM_VALUE_LEN 97] rfl hvalue .GET rfl
  have hstatic : ∀ path, (!cr.use_trie && static_prefix_handler cr path) = false := fun path => by
    rw [static_prefix_handler, hnostatic, Bool.and_false]
  obtain ⟨m', values, hmatch, hformed, hfits, hresults⟩ := @match_through_entry Unit (fun _ => 0) cr _ (bytes "GET")
    .zero List.length_replicate (hstatic _) _ hfound
  obtain ⟨value, rfl⟩ := List.length_eq_one_iff.mp hfits.length_eq
  have hpath : [SLASH] ++ (value ++ []) = [SLASH] ++ (List.replicate MAX_PARAM_VALUE_LEN 97 ++ []) := hfits.substitute_eq
  have hsame : value = List.replicate MAX_PARAM_VALUE_LEN 97 :=
    List.append_left_injective [] (List.append_cancel_left hpath)
  have hdropped : fits_param (bytes "x", value) = false := by
    rw [fits_param, hsame, List.length_replicate]
    rfl
  have hnone : m'.results = [] := by
    rw [hresults]
    change (((([(bytes "x", value)] : List _)).filter fits_param).map _).take _ = _
    rw [List.filter_cons_of_neg (by rw [hdropped]; exact Bool.false_ne_true)]
    rfl
  refine ⟨cr, m', hadd, hmatch, ?_⟩
  rw [← hformed.length_results, hnone]
  decide

end uvhttp.cache_match
