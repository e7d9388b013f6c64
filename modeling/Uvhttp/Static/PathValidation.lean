import Uvhttp.Lib.PercentEncoding
import Uvhttp.Static.Path

namespace uvhttp.static_files

open percent

def BACKSLASH : UInt8 := 92

def is_separator (c : UInt8) : Bool := c = SLASH || c = BACKSLASH

/-- The segments of a path. -/
def segments (path : List UInt8) : List (List UInt8) := path.splitOnP is_separator

/-- The spellings of a separator, plain and escaped. -/
def separator_forms : List (List UInt8) := ["/", "\\", "%2f", "%2F", "%5c", "%5C"].map bytes

/-- The spellings of two dots, without those that `uvhttp_validate_url_path` looks for
wherever they stand. -/
def missed_dots : List (List UInt8) := ["..", ".%2e", ".%2E", "%2e.", "%2E.", "%2e%2E", "%2E%2e"].map bytes

/-- A path with two dots between separators, or between a separator and its end, in a
spelling that is not looked for. -/
def MissedDots (path : List UInt8) : Prop :=
  ∃ separator ∈ separator_forms, ∃ dots ∈ missed_dots,
    separator ++ dots <:+ path ∨ ∃ after ∈ separator_forms, separator ++ dots ++ after <:+: path

/-- What validation should give: escapes are complete, no dangerous character occurs,
and no segment leads upwards, neither as it is written nor decoded. -/
structure PathSafe (path : List UInt8) : Prop where
  escapes : ∀ front rest, path = front ++ PERCENT :: rest →
    ∃ d e more, rest = d :: e :: more ∧ isxdigit d = true ∧ isxdigit e = true
  characters : ∀ c ∈ dangerous_path_chars, c ∉ path
  written : bytes ".." ∉ segments path
  decoded : bytes ".." ∉ segments (decode path)

section validation

theorem isxdigit_eq (c : UInt8) : isxdigit c = (hex_value c).isSome := by
  rw [isxdigit, hex_value]
  split_ifs <;> simp_all

theorem strstr_iff (text part : List UInt8) : strstr text part = true ↔ part <:+: text := by
  rw [strstr, List.any_eq_true, List.infix_iff_prefix_suffix]
  simp only [List.mem_tails, List.isPrefixOf_iff_prefix, and_comm]

theorem encodes_of_valid_escapes {path : List UInt8} (h : valid_escapes path = true) :
    ∃ decoded, Encodes path decoded := by
  induction path using valid_escapes.induct with
  | case1 => exact ⟨[], .nil⟩
  | case2 c =>
    have hc : c ≠ PERCENT := by simpa [valid_escapes, PERCENT] using h
    exact ⟨[c], .cons (.plain hc) .nil⟩
  | case3 c d =>
    have hcd : c ≠ PERCENT ∧ d ≠ PERCENT := by simpa [valid_escapes, PERCENT] using h
    exact ⟨[c, d], .cons (.plain hcd.1) (.cons (.plain hcd.2) .nil)⟩
  | case4 d e rest ih =>
    rw [valid_escapes, if_pos rfl, Bool.and_eq_true, Bool.and_eq_true, isxdigit_eq, isxdigit_eq] at h
    obtain ⟨⟨hd, he⟩, hrest⟩ := h
    obtain ⟨decoded, hdecoded⟩ := ih hrest
    obtain ⟨x, hx⟩ := Option.isSome_iff_exists.mp hd
    obtain ⟨y, hy⟩ := Option.isSome_iff_exists.mp he
    exact ⟨_, .cons (.escape hx hy) hdecoded⟩
  | case5 c d e rest hc ih =>
    rw [valid_escapes, if_neg hc] at h
    obtain ⟨decoded, hdecoded⟩ := ih h
    exact ⟨_, .cons (.plain hc) hdecoded⟩

/-- What a path that is accepted is known to be. -/
structure Accepted (path : List UInt8) : Prop where
  head : ∃ rest, path = SLASH :: rest
  not_up : ¬ bytes "../" <:+: path
  not_up_backslash : ¬ bytes "..\\" <:+: path
  not_lower : ¬ bytes "%2e%2e" <:+: path
  not_upper : ¬ bytes "%2E%2E" <:+: path
  encodes : ∃ decoded, Encodes path decoded
  characters : ∀ c ∈ dangerous_path_chars, c ∉ path

theorem accepted_of_validate {path : List UInt8} (h : uvhttp_validate_url_path path = true) : Accepted path := by
  simp only [uvhttp_validate_url_path, Bool.and_eq_true, Bool.not_eq_true', ← Bool.not_eq_true, strstr_iff] at h
  obtain ⟨⟨⟨⟨⟨⟨⟨-, hhead⟩, hup⟩, hback⟩, hlower⟩, hupper⟩, hescapes⟩, hchars⟩ := h
  refine ⟨?_, hup, hback, hlower, hupper, encodes_of_valid_escapes hescapes, fun c hc hmem => hchars ?_⟩
  · cases path with
    | nil => simp at hhead
    | cons c rest =>
      obtain rfl : c = SLASH := by simpa using hhead
      exact ⟨rest, rfl⟩
  · rw [List.any_eq_true]
    exact ⟨c, hc, by simpa using hmem⟩

end validation

section spellings

def DOT : UInt8 := 46

def dot_forms : List (List UInt8) := [".", "%2e", "%2E"].map bytes

/-- The digits of an escape whose first digit is no letter. -/
theorem escape_digits {d e x y : UInt8} (hd : hex_value d = some x) (he : hex_value e = some y) (hx : x.toNat < 10)
    (hy : 10 ≤ y.toNat) : d = x + 48 ∧ (e = y + 55 ∨ e = y + 87) := by
  have hfirst := hex_value_eq_some hd
  have hsecond := hex_value_eq_some he
  refine ⟨?_, ?_⟩
  · rcases hfirst with h | h
    · exact h.2
    · omega
  · rcases hsecond with h | h
    · omega
    · exact h.2.2

theorem form_dot {form : List UInt8} (h : Form DOT form) : form ∈ dot_forms := by
  rcases h.cases_digits with rfl | ⟨d, e, rfl, hd, he⟩
  · decide
  · obtain ⟨rfl, rfl | rfl⟩ := escape_digits hd he (by decide) (by decide) <;> decide

theorem form_separator {c : UInt8} {form : List UInt8} (hc : is_separator c = true) (h : Form c form) :
    form ∈ separator_forms := by
  have hcases : c = SLASH ∨ c = BACKSLASH := by simpa [is_separator] using hc
  rcases h.cases_digits with rfl | ⟨d, e, rfl, hd, he⟩
  · rcases hcases with rfl | rfl <;> decide
  · rcases hcases with rfl | rfl
    · obtain ⟨rfl, rfl | rfl⟩ := escape_digits hd he (by decide) (by decide) <;> decide
    · obtain ⟨rfl, rfl | rfl⟩ := escape_digits hd he (by decide) (by decide) <;> decide

/-- An escape is a spelling of its value. -/
theorem form_escape {d e : UInt8} (hd : (hex_value d).isSome = true) (he : (hex_value e).isSome = true) :
    Form (16 * (hex_value d).getD 0 + (hex_value e).getD 0) [PERCENT, d, e] := by
  obtain ⟨x, hx⟩ := Option.isSome_iff_exists.mp hd
  obtain ⟨y, hy⟩ := Option.isSome_iff_exists.mp he
  rw [hx, hy]
  exact .escape hx hy

theorem form_of_dot_form : ∀ form ∈ dot_forms, Form DOT form := by
  simp only [dot_forms, List.map_cons, List.map_nil, List.forall_mem_cons, List.not_mem_nil, false_implies,
    implies_true, and_true]
  have hlower := @form_escape 50 101 (by decide) (by decide)
  have hupper := @form_escape 50 69 (by decide) (by decide)
  exact ⟨.plain (by decide), hlower, hupper⟩

theorem form_of_separator_form : ∀ form ∈ separator_forms, ∃ c, is_separator c = true ∧ Form c form := by
  simp only [separator_forms, List.map_cons, List.map_nil, List.forall_mem_cons, List.not_mem_nil, false_implies,
    implies_true, and_true]
  have hslash := @form_escape 50 102 (by decide) (by decide)
  have hslash' := @form_escape 50 70 (by decide) (by decide)
  have hback := @form_escape 53 99 (by decide) (by decide)
  have hback' := @form_escape 53 67 (by decide) (by decide)
  exact ⟨⟨SLASH, by decide, .plain (by decide)⟩, ⟨BACKSLASH, by decide, .plain (by decide)⟩,
    ⟨_, by decide, hslash⟩, ⟨_, by decide, hslash'⟩, ⟨_, by decide, hback⟩, ⟨_, by decide, hback'⟩⟩

/-- A spelling of a separator does not start with a digit. -/
theorem separator_form_head :
    ∀ form ∈ separator_forms, form.head?.any (fun c => (hex_value c).isNone) = true := by decide

theorem missed_dots_forms :
    ∀ dots ∈ missed_dots, ∃ first ∈ dot_forms, ∃ second ∈ dot_forms, dots = first ++ second := by
  decide

/-- Two dots in any spelling are looked for, or are missed. -/
theorem dot_forms_append :
    ∀ first ∈ dot_forms, ∀ second ∈ dot_forms,
      first ++ second ∈ missed_dots ∨ first ++ second = bytes "%2e%2e" ∨ first ++ second = bytes "%2E%2E" := by
  decide

theorem encodes_missed_dots {dots : List UInt8} (h : dots ∈ missed_dots) : Encodes dots [DOT, DOT] := by
  obtain ⟨first, hfirst, second, hsecond, rfl⟩ := missed_dots_forms dots h
  exact .cons (form_of_dot_form first hfirst) (form_of_dot_form second hsecond).encodes

end spellings

section exact

variable {path : List UInt8}

theorem is_separator_dots : ∀ c ∈ bytes "..", is_separator c = false := by
  have hall : (bytes "..").all (fun c => !is_separator c) = true := by decide
  simpa only [List.all_eq_true, Bool.not_eq_true'] using hall

/-- A separator, two dots and the end or another separator make a segment. -/
theorem dot_dot_segment {front back : List UInt8} {c : UInt8} (hc : is_separator c = true)
    (hback : StartsAt is_separator back) : bytes ".." ∈ segments (front ++ c :: DOT :: DOT :: back) := by
  refine mem_splitOnP_iff.mpr ⟨is_separator_dots, front ++ [c], back, ?_, .inr ⟨front, c, rfl, hc⟩, hback⟩
  simp [bytes, DOT]

/-- A segment of two dots stands behind a separator in a text that starts with one. -/
theorem dot_dot_behind_separator {rest : List UInt8} (h : bytes ".." ∈ segments (SLASH :: rest)) :
    ∃ front c back, SLASH :: rest = front ++ c :: DOT :: DOT :: back ∧ is_separator c = true ∧
      StartsAt is_separator back := by
  obtain ⟨-, front, back, htext, hfront, hback⟩ := mem_splitOnP_iff.mp h
  rcases hfront with rfl | ⟨before, c, rfl, hc⟩
  · exact absurd (List.cons.inj htext).1 (by decide)
  · exact ⟨before, c, back, by simpa [bytes, DOT] using htext, hc, hback⟩

/-- Before a spelling of a separator a text can be split. -/
theorem Encodes.split_separator {front form rest decoded : List UInt8} (hform : form ∈ separator_forms)
    (h : Encodes (front ++ (form ++ rest)) decoded) :
    ∃ decoded' decoded'', Encodes front decoded' ∧ Encodes (form ++ rest) decoded'' := by
  have hhead := separator_form_head form hform
  cases form with
  | nil => cases hhead
  | cons c more => exact h.split_before (Option.isNone_iff_eq_none.mp (by simpa using hhead))

/-- Missed dots are a segment of the decoded path. -/
theorem decoded_of_missed {decoded : List UInt8} (hencodes : Encodes path decoded) (h : MissedDots path) :
    bytes ".." ∈ segments decoded := by
  obtain ⟨separator, hseparator, dots, hdots, hwhere⟩ := h
  obtain ⟨c, hc, hform⟩ := form_of_separator_form separator hseparator
  obtain ⟨front, tail, hpath, htail⟩ : ∃ front tail, path = front ++ (separator ++ (dots ++ tail)) ∧
      (tail = [] ∨ ∃ after ∈ separator_forms, ∃ rest, tail = after ++ rest) := by
    rcases hwhere with ⟨front, rfl⟩ | ⟨after, hafter, front, rest, rfl⟩
    · exact ⟨front, [], by simp, .inl rfl⟩
    · exact ⟨front, after ++ rest, by simp, .inr ⟨after, hafter, rest, rfl⟩⟩
  rw [hpath] at hencodes
  obtain ⟨decoded', -, hfront, -⟩ := Encodes.split_separator hseparator hencodes
  obtain ⟨back, hback, hstarts⟩ : ∃ back, Encodes tail back ∧ StartsAt is_separator back := by
    rcases htail with rfl | ⟨after, hafter, rest, rfl⟩
    · exact ⟨[], .nil, .inl rfl⟩
    · have hregroup : front ++ (separator ++ (dots ++ (after ++ rest))) =
          (front ++ separator ++ dots) ++ (after ++ rest) := by simp
      rw [hregroup] at hencodes
      obtain ⟨-, back, -, hback⟩ := Encodes.split_separator hafter hencodes
      obtain ⟨b, hb, hafterform⟩ := form_of_separator_form after hafter
      have hhead : back = b :: decode rest := by rw [← hback.decode_eq, hafterform.decode_append]
      exact ⟨back, hback, .inr ⟨b, decode rest, hhead, hb⟩⟩
  have hwhole : Encodes (front ++ (separator ++ (dots ++ tail))) (decoded' ++ c :: ([DOT, DOT] ++ back)) :=
    hfront.append (.cons hform ((encodes_missed_dots hdots).append hback))
  have hsame : decoded = decoded' ++ c :: DOT :: DOT :: back := by
    rw [← hencodes.decode_eq, hwhole.decode_eq]
    rfl
  rw [hsame]
  exact dot_dot_segment hc hstarts

/-- In an accepted path a segment of two dots is spelled in a way that is missed, or
followed by what is not looked for. -/
theorem missed_of_decoded {decoded : List UInt8} (haccepted : Accepted path) (hencodes : Encodes path decoded)
    (h : bytes ".." ∈ segments decoded) : MissedDots path := by
  obtain ⟨rest, hhead⟩ := haccepted.head
  have hdecoded : decoded = SLASH :: decode rest := by
    rw [← hencodes.decode_eq, hhead, decode_plain (by decide)]
  rw [hdecoded] at h
  obtain ⟨front, c, back, htext, hc, hback⟩ := dot_dot_behind_separator h
  rw [hdecoded, htext] at hencodes
  obtain ⟨text, text', rfl, -, hrest⟩ := hencodes.split
  obtain ⟨separator, text', rfl, hseparator, hrest⟩ := hrest.uncons
  obtain ⟨first, text', rfl, hfirst, hrest⟩ := hrest.uncons
  obtain ⟨second, text', rfl, hsecond, hrest⟩ := hrest.uncons
  have hdots : first ++ second ∈ missed_dots := by
    have hinfix : first ++ second <:+: text ++ (separator ++ (first ++ (second ++ text'))) :=
      ⟨text ++ separator, text', by simp⟩
    rcases dot_forms_append first (form_dot hfirst) second (form_dot hsecond) with hmissed | hlower | hupper
    · exact hmissed
    · exact absurd (hlower ▸ hinfix) haccepted.not_lower
    · exact absurd (hupper ▸ hinfix) haccepted.not_upper
  refine ⟨separator, form_separator hc hseparator, first ++ second, hdots, ?_⟩
  rcases hback with rfl | ⟨b, after, rfl, hb⟩
  · obtain rfl := hrest.eq_nil
    exact .inl ⟨text, by simp⟩
  · obtain ⟨third, text'', rfl, hthird, -⟩ := hrest.uncons
    exact .inr ⟨third, form_separator hb hthird, text, text'', by simp⟩

/-- As written, an accepted path has two dots as a segment only at its end. -/
theorem missed_of_written (haccepted : Accepted path) (h : bytes ".." ∈ segments path) : MissedDots path := by
  obtain ⟨rest, rfl⟩ := haccepted.head
  obtain ⟨front, c, back, htext, hc, hback⟩ := dot_dot_behind_separator h
  have hplain (b : UInt8) (hb : is_separator b = true) : [b] ∈ separator_forms := by
    have hcases : b = SLASH ∨ b = BACKSLASH := by simpa [is_separator] using hb
    rcases hcases with rfl | rfl <;> decide
  rw [htext]
  refine ⟨[c], hplain c hc, bytes "..", by decide, ?_⟩
  rcases hback with rfl | ⟨b, after, rfl, hb⟩
  · exact .inl ⟨front, by simp [bytes, DOT]⟩
  · exact .inr ⟨[b], hplain b hb, front, after, by simp [bytes, DOT]⟩

/-- A path that is accepted is safe unless it has two dots in a spelling that the
validation misses. -/
theorem validate_url_path_exact (path : List UInt8) :
    (uvhttp_validate_url_path path = true → PathSafe path) ↔
      ¬ (uvhttp_validate_url_path path = true ∧ MissedDots path) := by
  constructor
  · rintro hsafe ⟨hvalid, hmissed⟩
    obtain ⟨decoded, hencodes⟩ := (accepted_of_validate hvalid).encodes
    apply (hsafe hvalid).decoded
    rw [hencodes.decode_eq]
    exact decoded_of_missed hencodes hmissed
  · intro hnot hvalid
    have haccepted := accepted_of_validate hvalid
    have hmissed : ¬ MissedDots path := fun h => hnot ⟨hvalid, h⟩
    obtain ⟨decoded, hencodes⟩ := haccepted.encodes
    refine ⟨?_, haccepted.characters, fun h => hmissed (missed_of_written haccepted h), fun h => hmissed ?_⟩
    · rintro front rest rfl
      obtain ⟨d, e, more, hmore, hd, he⟩ := hencodes.digits
      exact ⟨d, e, more, hmore, by rw [isxdigit_eq, hd], by rw [isxdigit_eq, he]⟩
    · rw [hencodes.decode_eq] at h
      exact missed_of_decoded haccepted hencodes h

/-- Two escapes of different case lead upwards. -/
theorem validate_url_path_mixed_case :
    uvhttp_validate_url_path (bytes "/a/%2e%2E/b") = true ∧ decode (bytes "/a/%2e%2E/b") = bytes "/a/../b" ∧
      uvhttp_validate_url_path (bytes "/a/..") = true ∧
      ¬ ∀ path, uvhttp_validate_url_path path = true → PathSafe path := by
  have hvalid : uvhttp_validate_url_path (bytes "/a/..") = true := by decide
  refine ⟨by decide, by decide, hvalid, fun h => (h _ hvalid).written ?_⟩
  exact mem_splitOnP_iff.mpr ⟨is_separator_dots, bytes "/a/", [], rfl, .inr ⟨bytes "/a", SLASH, rfl, by decide⟩,
    .inl rfl⟩

end exact

end uvhttp.static_files
