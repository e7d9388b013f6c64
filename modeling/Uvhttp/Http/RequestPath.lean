import Uvhttp.Http.Request
import Uvhttp.Static.Path

namespace uvhttp.http

open uvhttp.static_files (UVHTTP_MAX_PATH_SIZE SLASH uvhttp_validate_url_path)

def UVHTTP_MAX_URL_SIZE : Nat := 2048

def QUESTION_MARK : UInt8 := 63

/-- `dangerous_query_chars`. -/
def dangerous_query_chars : List UInt8 := bytes "<>\"'\n\r"

/-- `uvhttp_validate_query_string`. -/
def uvhttp_validate_query_string (query : List UInt8) : Bool :=
  query.length ≤ UVHTTP_MAX_URL_SIZE && !dangerous_query_chars.any fun c => query.contains c

/-- `strchr`: the rest of a string from a character on. -/
def strchr (text : List UInt8) (c : UInt8) : Option (List UInt8) :=
  match text.dropWhile (· != c) with
  | [] => none
  | found => some found

/-- `uvhttp_request_get_path`. -/
def uvhttp_request_get_path (request : Request) : List UInt8 :=
  match strchr request.url QUESTION_MARK with
  | some query_start =>
    let path_length := request.url.length - query_start.length
    if path_length ≥ UVHTTP_MAX_PATH_SIZE then [SLASH]
    else
      let path_buffer := request.url.take path_length
      if !uvhttp_validate_url_path path_buffer then [SLASH] else path_buffer
  | none => request.url

/-- `uvhttp_request_get_query_string`, with `none` for NULL. -/
def uvhttp_request_get_query_string (request : Request) : Option (List UInt8) :=
  match strchr request.url QUESTION_MARK with
  | none => none
  | some query_start =>
    let query_string := query_start.tail
    if !uvhttp_validate_query_string query_string then none else some query_string

section split

theorem strchr_none {text : List UInt8} {c : UInt8} (h : c ∉ text) : strchr text c = none := by
  have hall : ∀ d ∈ text, (d != c) = true := by
    intro d hd
    rw [bne_iff_ne]
    rintro rfl
    exact h hd
  rw [strchr, List.dropWhile_eq_nil_iff.mpr hall]

theorem strchr_append {front : List UInt8} {c : UInt8} (h : c ∉ front) (rest : List UInt8) :
    strchr (front ++ c :: rest) c = some (c :: rest) := by
  have hall : ∀ d ∈ front, (d != c) = true := by
    intro d hd
    rw [bne_iff_ne]
    rintro rfl
    exact h hd
  have hdrop : (front ++ c :: rest).dropWhile (· != c) = c :: rest := by
    rw [List.dropWhile_append_of_pos hall, List.dropWhile_cons_of_neg (by simp)]
  rw [strchr, hdrop]

variable (request : Request) {path : List UInt8} (hpath : QUESTION_MARK ∉ path)
include hpath

/-- Without a query the path is not looked at. -/
theorem get_path_plain : uvhttp_request_get_path { request with url := path } = path := by
  rw [uvhttp_request_get_path, strchr_none hpath]

theorem get_path_query (query : List UInt8) :
    uvhttp_request_get_path { request with url := path ++ QUESTION_MARK :: query } =
      if path.length < UVHTTP_MAX_PATH_SIZE ∧ uvhttp_validate_url_path path = true then path else [SLASH] := by
  have hlen : (path ++ QUESTION_MARK :: query).length - (QUESTION_MARK :: query).length = path.length := by simp
  simp only [uvhttp_request_get_path, strchr_append hpath, hlen, List.take_left]
  by_cases hshort : path.length < UVHTTP_MAX_PATH_SIZE
  · rw [if_neg (by omega)]
    by_cases hvalid : uvhttp_validate_url_path path = true <;> simp [hshort, hvalid]
  · rw [if_pos (by omega), if_neg fun h => hshort h.1]

theorem get_query_string_query {query : List UInt8} (hquery : uvhttp_validate_query_string query = true) :
    uvhttp_request_get_query_string { request with url := path ++ QUESTION_MARK :: query } = some query := by
  simp only [uvhttp_request_get_query_string, strchr_append hpath, List.tail_cons, hquery, Bool.not_true]
  rfl

end split

/-- The path of a URL is the same with a query, and path and query give the URL
again. -/
structure SplitsConsistently (request : Request) (path query : List UInt8) : Prop where
  same_path : uvhttp_request_get_path { request with url := path ++ QUESTION_MARK :: query } =
    uvhttp_request_get_path { request with url := path }
  rejoined : uvhttp_validate_query_string query = true →
    ∃ query_string,
      uvhttp_request_get_query_string { request with url := path ++ QUESTION_MARK :: query } = some query_string ∧
        uvhttp_request_get_path { request with url := path ++ QUESTION_MARK :: query } ++
          QUESTION_MARK :: query_string = path ++ QUESTION_MARK :: query

theorem uvhttp_validate_url_path_slash : uvhttp_validate_url_path [SLASH] = true := by decide

/-- A path that is not valid, or that the buffer does not hold, is reported as it is
without a query and as the root with one. -/
theorem get_path_consistent (request : Request) {path : List UInt8} (hpath : QUESTION_MARK ∉ path)
    (query : List UInt8) :
    SplitsConsistently request path query ↔
      path.length < UVHTTP_MAX_PATH_SIZE ∧ uvhttp_validate_url_path path = true := by
  have hquery := get_path_query request hpath query
  constructor
  · intro h
    by_contra hnot
    have hroot : [SLASH] = path := by
      rw [← get_path_plain request hpath, ← h.same_path, hquery, if_neg hnot]
    apply hnot
    rw [← hroot]
    exact ⟨by decide, uvhttp_validate_url_path_slash⟩
  · intro hok
    rw [if_pos hok] at hquery
    refine ⟨by rw [hquery, get_path_plain request hpath], fun hvalid => ?_⟩
    exact ⟨query, get_query_string_query request hpath hvalid, by rw [hquery]⟩

theorem get_path_consistent_users :
    QUESTION_MARK ∉ bytes "/api/users" ∧ SplitsConsistently uvhttp_request_init (bytes "/api/users") (bytes "id=7") := by
  have hpath : QUESTION_MARK ∉ bytes "/api/users" := by decide
  exact ⟨hpath, (get_path_consistent uvhttp_request_init hpath _).mpr ⟨by decide, by decide⟩⟩

/-- A query hides the traversal in a path. -/
theorem get_path_differs_with_query :
    uvhttp_request_get_path { uvhttp_request_init with url := bytes "/a/../admin" } = bytes "/a/../admin" ∧
      uvhttp_request_get_path { uvhttp_request_init with url := bytes "/a/../admin?x=1" } = [SLASH] ∧
      ¬ SplitsConsistently uvhttp_request_init (bytes "/a/../admin") (bytes "x=1") := by
  have hplain : uvhttp_request_get_path { uvhttp_request_init with url := bytes "/a/../admin" } =
      bytes "/a/../admin" := by decide
  have hquery : uvhttp_request_get_path { uvhttp_request_init with url := bytes "/a/../admin?x=1" } = [SLASH] := by
    decide
  refine ⟨hplain, hquery, fun h => ?_⟩
  have hsame := h.same_path
  rw [hplain] at hsame
  exact absurd (hquery.symm.trans hsame) (by decide)

end uvhttp.http
