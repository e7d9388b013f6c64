import Uvhttp.Http.RequestPath

namespace uvhttp.http

def AMPERSAND : UInt8 := 38

def EQUALS_SIGN : UInt8 := 61

/-- The comparison of a name with the text at a position: `strncmp`, and the character
behind the name. -/
def names_param (p name : List UInt8) : Bool :=
  p.take name.length = name && p[name.length]? = some EQUALS_SIGN

/-- The copy of a value into the static buffer. -/
def copy_param_value (value : List UInt8) : List UInt8 :=
  let value_len :=
    match strchr value AMPERSAND with
    | some found => value.length - found.length
    | none => value.length
  let value_len := if value_len ≥ UVHTTP_MAX_URL_SIZE then UVHTTP_MAX_URL_SIZE - 1 else value_len
  value.take value_len

theorem length_strchr_le {text found : List UInt8} {c : UInt8} (h : strchr text c = some found) :
    0 < found.length ∧ found.length ≤ text.length := by
  rw [strchr] at h
  split at h
  · cases h
  · rename_i hne
    obtain rfl := Option.some.inj h
    refine ⟨List.length_pos_iff.mpr hne, ?_⟩
    exact (List.dropWhile_suffix _).length_le

/-- The loop of `uvhttp_request_get_query_param` from a position on. -/
def query_param_loop (name p : List UInt8) : Option (List UInt8) :=
  if p = [] then none
  else if names_param p name then some (copy_param_value (p.drop (name.length + 1)))
  else
    match _hfound : strchr p AMPERSAND with
    | none => none
    | some found => query_param_loop name found.tail
  termination_by p.length
  decreasing_by
    have hlength := length_strchr_le _hfound
    rw [List.length_tail]
    omega

/-- `uvhttp_request_get_query_param`, with `none` for NULL. -/
def uvhttp_request_get_query_param (request : Request) (name : List UInt8) : Option (List UInt8) :=
  match uvhttp_request_get_query_string request with
  | none => none
  | some query_string => query_param_loop name query_string

/-- A pair of a query string, or a bare key. -/
structure QueryPair where
  key : List UInt8
  value : Option (List UInt8)
  key_separate : AMPERSAND ∉ key ∧ EQUALS_SIGN ∉ key
  value_separate : ∀ v ∈ value, AMPERSAND ∉ v

def QueryPair.text (pair : QueryPair) : List UInt8 := pair.key ++ pair.value.elim [] (EQUALS_SIGN :: ·)

/-- Pairs as a query string. -/
def join_pairs (pairs : List QueryPair) : List UInt8 := [AMPERSAND].intercalate (pairs.map QueryPair.text)

/-- The value of the first pair with a key. -/
def first_value (name : List UInt8) (pairs : List QueryPair) : Option (List UInt8) :=
  pairs.findSome? fun pair => if pair.key = name then pair.value else none

section scan

variable {name : List UInt8}

theorem query_param_loop_nil (name : List UInt8) : query_param_loop name [] = none := by
  rw [query_param_loop, if_pos rfl]

theorem QueryPair.text_separate (pair : QueryPair) : AMPERSAND ∉ pair.text := by
  have hsign : AMPERSAND ≠ EQUALS_SIGN := by decide
  rw [QueryPair.text, List.mem_append]
  rintro (hkey | hvalue)
  · exact pair.key_separate.1 hkey
  · cases hpair : pair.value with
    | none =>
      rw [hpair] at hvalue
      cases hvalue
    | some v =>
      rw [hpair] at hvalue
      rcases List.mem_cons.mp hvalue with heq | hmem
      · exact hsign heq
      · exact pair.value_separate v hpair hmem

/-- What may follow a pair: nothing, or a separator. -/
def PairEnd (rest : List UInt8) : Prop := rest = [] ∨ ∃ more, rest = AMPERSAND :: more

theorem names_param_iff_append {p : List UInt8} :
    names_param p name = true ↔ ∃ rest, p = name ++ EQUALS_SIGN :: rest := by
  rw [names_param, Bool.and_eq_true, decide_eq_true_eq, decide_eq_true_eq]
  constructor
  · rintro ⟨htake, hsign⟩
    obtain ⟨hlt, hget⟩ := List.getElem?_eq_some_iff.mp hsign
    refine ⟨p.drop (name.length + 1), ?_⟩
    calc p = p.take name.length ++ p.drop name.length := (List.take_append_drop name.length p).symm
      _ = name ++ EQUALS_SIGN :: p.drop (name.length + 1) := by rw [htake, List.drop_eq_getElem_cons hlt, hget]
  · rintro ⟨rest, rfl⟩
    exact ⟨List.take_left, by simp⟩

/-- A text without separators is what is in front of the first separator. -/
theorem takeWhile_separate {front rest : List UInt8} (hfront : AMPERSAND ∉ front ∧ EQUALS_SIGN ∉ front)
    (hrest : PairEnd rest ∨ ∃ more, rest = EQUALS_SIGN :: more) :
    (front ++ rest).takeWhile (fun c => c != AMPERSAND && c != EQUALS_SIGN) = front := by
  have hall : ∀ c ∈ front, (c != AMPERSAND && c != EQUALS_SIGN) = true := by
    intro c hc
    rw [Bool.and_eq_true, bne_iff_ne, bne_iff_ne]
    constructor
    · rintro rfl
      exact hfront.1 hc
    · rintro rfl
      exact hfront.2 hc
  rw [List.takeWhile_append_of_pos hall]
  rcases hrest with (rfl | ⟨more, rfl⟩) | ⟨more, rfl⟩
  · exact List.append_nil front
  · exact List.append_nil front
  · exact List.append_nil front

/-- A name is compared with the whole key. -/
theorem names_param_iff (hname : AMPERSAND ∉ name ∧ EQUALS_SIGN ∉ name) (pair : QueryPair) {rest : List UInt8}
    (hrest : PairEnd rest) :
    names_param (pair.text ++ rest) name = true ↔ pair.key = name ∧ pair.value.isSome = true := by
  rw [names_param_iff_append, QueryPair.text, List.append_assoc]
  cases hvalue : pair.value with
  | none =>
    rw [Option.elim_none, List.nil_append]
    refine iff_of_false ?_ fun h => by cases h.2
    rintro ⟨more, heq⟩
    have hkey := takeWhile_separate pair.key_separate (.inl hrest)
    rw [heq, takeWhile_separate hname (.inr ⟨more, rfl⟩)] at hkey
    rw [hkey] at heq
    have htail := List.append_cancel_left heq
    rcases hrest with rfl | ⟨others, rfl⟩
    · cases htail
    · exact absurd (List.cons.inj htail).1 (by decide)
  | some v =>
    rw [Option.elim_some, List.cons_append, Option.isSome_some, and_iff_left rfl]
    constructor
    · rintro ⟨more, heq⟩
      have hkey := takeWhile_separate pair.key_separate (.inr ⟨v ++ rest, rfl⟩)
      rw [heq, takeWhile_separate hname (.inr ⟨more, rfl⟩)] at hkey
      exact hkey.symm
    · rintro rfl
      exact ⟨v ++ rest, rfl⟩

theorem strchr_pair_end {front rest : List UInt8} (hfront : AMPERSAND ∉ front) (hrest : PairEnd rest) :
    strchr (front ++ rest) AMPERSAND = if rest = [] then none else some rest := by
  rcases hrest with rfl | ⟨more, rfl⟩
  · rw [List.append_nil, strchr_none hfront, if_pos rfl]
  · rw [strchr_append hfront, if_neg (List.cons_ne_nil _ _)]

/-- The whole of a value is copied, when it fits the buffer. -/
theorem copy_param_value_append {value rest : List UInt8} (hvalue : AMPERSAND ∉ value) (hrest : PairEnd rest)
    (hfits : value.length < UVHTTP_MAX_URL_SIZE) : copy_param_value (value ++ rest) = value := by
  have hlength : ¬ value.length ≥ UVHTTP_MAX_URL_SIZE := Nat.not_le.mpr hfits
  rw [copy_param_value, strchr_pair_end hvalue hrest]
  by_cases hend : rest = []
  · rw [if_pos hend, hend, List.append_nil]
    dsimp only
    rw [if_neg hlength, List.take_length]
  · simp only [if_neg hend, List.length_append, Nat.add_sub_cancel, if_neg hlength, List.take_left]

theorem QueryPair.drop_text (pair : QueryPair) {v : List UInt8} (hvalue : pair.value = some v) (rest : List UInt8) :
    (pair.text ++ rest).drop (pair.key.length + 1) = v ++ rest := by
  rw [QueryPair.text, hvalue, Option.elim_some, List.append_assoc, List.drop_append, List.cons_append]
  simp

/-- At a pair the scan finds its value, or goes on behind it. -/
theorem query_param_loop_pair (hname : AMPERSAND ∉ name ∧ EQUALS_SIGN ∉ name) (pair : QueryPair) {rest : List UInt8}
    (hrest : PairEnd rest) (hfits : (pair.text ++ rest).length < UVHTTP_MAX_URL_SIZE) :
    query_param_loop name (pair.text ++ rest) =
      (if pair.key = name then pair.value else none).or (query_param_loop name rest.tail) := by
  have hnames := names_param_iff hname pair hrest
  by_cases hmatch : names_param (pair.text ++ rest) name = true
  · obtain ⟨more, hmore⟩ := names_param_iff_append.mp hmatch
    have hne : pair.text ++ rest ≠ [] := by
      rw [hmore]
      exact List.append_ne_nil_of_right_ne_nil _ (List.cons_ne_nil _ _)
    obtain ⟨rfl, hsome⟩ := hnames.mp hmatch
    obtain ⟨v, hvalue⟩ := Option.isSome_iff_exists.mp hsome
    have hshort : v.length < UVHTTP_MAX_URL_SIZE := by
      rw [QueryPair.text, hvalue, Option.elim_some, List.length_append, List.length_append, List.length_cons] at hfits
      omega
    rw [query_param_loop, if_neg hne, if_pos hmatch, pair.drop_text hvalue,
      copy_param_value_append (pair.value_separate v hvalue) hrest hshort, if_pos rfl, hvalue, Option.some_or]
  · have hnone : (if pair.key = name then pair.value else none) = none := by
      split
      · rename_i hkey
        exact Option.not_isSome_iff_eq_none.mp fun hsome => hmatch (hnames.mpr ⟨hkey, hsome⟩)
      · rfl
    have hfound := strchr_pair_end pair.text_separate hrest
    rw [hnone, Option.none_or, query_param_loop, if_neg hmatch]
    split
    · rename_i hnil
      rw [(List.append_eq_nil_iff.mp hnil).2, List.tail_nil, query_param_loop_nil]
    · by_cases hend : rest = []
      · rw [if_pos hend] at hfound
        rw [hend, List.tail_nil, query_param_loop_nil]
        split
        · rfl
        · rename_i found hfind
          rw [hend] at hfound
          cases hfound.symm.trans hfind
      · rw [if_neg hend] at hfound
        split
        · rename_i hfind
          cases hfound.symm.trans hfind
        · rename_i found hfind
          obtain rfl := Option.some.inj (hfound.symm.trans hfind)
          rfl

theorem join_pairs_cons (pair : QueryPair) (pairs : List QueryPair) :
    ∃ rest, PairEnd rest ∧ join_pairs (pair :: pairs) = pair.text ++ rest ∧ rest.tail = join_pairs pairs := by
  cases pairs with
  | nil => exact ⟨[], .inl rfl, by simp [join_pairs], rfl⟩
  | cons next pairs =>
    refine ⟨AMPERSAND :: join_pairs (next :: pairs), .inr ⟨_, rfl⟩, ?_, rfl⟩
    simp [join_pairs, List.intercalate_cons_cons]

/-- The scan of a query string of pairs stands at the start of one after the other. -/
theorem query_param_loop_join (hname : AMPERSAND ∉ name ∧ EQUALS_SIGN ∉ name) (pairs : List QueryPair)
    (hfits : (join_pairs pairs).length < UVHTTP_MAX_URL_SIZE) :
    query_param_loop name (join_pairs pairs) = first_value name pairs := by
  induction pairs with
  | nil => exact query_param_loop_nil name
  | cons pair pairs ih =>
    obtain ⟨rest, hrest, hjoin, htail⟩ := join_pairs_cons pair pairs
    rw [hjoin] at hfits ⊢
    have hshorter : (join_pairs pairs).length < UVHTTP_MAX_URL_SIZE := by
      rw [← htail, List.length_tail]
      rw [List.length_append] at hfits
      omega
    rw [query_param_loop_pair hname pair hrest hfits, htail, ih hshorter, first_value, first_value, List.findSome?_cons]
    cases (if pair.key = name then pair.value else none) with
    | none => rfl
    | some v => rfl

end scan

/-- A parameter of an accepted query string is the value of the first pair with exactly
this key. -/
theorem get_query_param_exact (request : Request) {path : List UInt8} (hpath : QUESTION_MARK ∉ path)
    (pairs : List QueryPair) (hurl : request.url = path ++ QUESTION_MARK :: join_pairs pairs)
    (hbuffer : request.url.length < MAX_URL_LEN) (haccepted : uvhttp_validate_query_string (join_pairs pairs) = true)
    {name : List UInt8} (hname : AMPERSAND ∉ name ∧ EQUALS_SIGN ∉ name) :
    uvhttp_request_get_query_param request name = first_value name pairs := by
  have hquery : uvhttp_request_get_query_string request = some (join_pairs pairs) := by
    have hsame : request = { request with url := path ++ QUESTION_MARK :: join_pairs pairs } := by rw [← hurl]
    rw [hsame]
    exact get_query_string_query request hpath haccepted
  have hfits : (join_pairs pairs).length < UVHTTP_MAX_URL_SIZE := by
    have hsizes : MAX_URL_LEN = UVHTTP_MAX_URL_SIZE := rfl
    rw [hurl, List.length_append, List.length_cons] at hbuffer
    omega
  rw [uvhttp_request_get_query_param, hquery]
  exact query_param_loop_join hname pairs hfits

/-- Pairs with keys that contain one another, a bare key, and a value with a sign in it. -/
def mixed_pairs : List QueryPair :=
  [⟨bytes "ab", some (bytes "1"), by decide, by decide⟩, ⟨bytes "b", none, by decide, by decide⟩,
    ⟨bytes "a", some [], by decide, by decide⟩, ⟨bytes "b", some (bytes "x=y"), by decide, by decide⟩]

theorem get_query_param_exact_mixed :
    uvhttp_request_get_query_param { uvhttp_request_init with url := bytes "/s?ab=1&b&a=&b=x=y" } (bytes "b") =
        some (bytes "x=y") ∧
      uvhttp_request_get_query_param { uvhttp_request_init with url := bytes "/s?ab=1&b&a=&b=x=y" } (bytes "a") =
        some [] := by
  have hpath : QUESTION_MARK ∉ bytes "/s" := by decide
  constructor
  · exact get_query_param_exact _ hpath mixed_pairs rfl (by decide) (by decide) (by decide)
  · exact get_query_param_exact _ hpath mixed_pairs rfl (by decide) (by decide) (by decide)

end uvhttp.http
