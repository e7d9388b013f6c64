import Uvhttp.Lib.Escape
import Uvhttp.Lib.Memory
import Uvhttp.Static.ListingInjection

namespace uvhttp.static_files

open memory
open uvhttp.http hiding uvhttp_response_send uvhttp_response_send_raw

/-- The loop of `html_escape` over the C string that is left, with the block it
writes and `j`. The result is `none` where it writes outside the block. -/
def html_escape_loop (dest_size : Nat) : List UInt8 → List UInt8 × Nat → Option (List UInt8 × Nat)
  | [], s => some s
  | c :: src, (dest, j) =>
    if j < dest_size - 1 then
      match html_entity c with
      | none => (store dest.length dest j [c]).bind fun dest => html_escape_loop dest_size src (dest, j + 1)
      | some (entity, room) =>
        if j + room < dest_size then
          (store dest.length dest j entity).bind fun dest =>
            html_escape_loop dest_size src (dest, j + entity.length)
        else html_escape_loop dest_size src (dest, j)
    else some (dest, j)

/-- `html_escape`, with the block that it writes. -/
def html_escape_into (dest src : List UInt8) (dest_size : Nat) : Option (List UInt8) :=
  if dest_size = 0 then some dest
  else (html_escape_loop dest_size src (dest, 0)).bind fun s => store s.1.length s.1 s.2 [0]

/-- The five entities with the characters that they stand for. -/
def html_entities : List (UInt8 × List UInt8) :=
  [(60, bytes "&lt;"), (62, bytes "&gt;"), (38, bytes "&amp;"), (34, bytes "&quot;"), (39, bytes "&#39;")]

def AMPERSAND : UInt8 := 38

def html_table : escaping.Table UInt8 where
  entities := html_entities
  marker := AMPERSAND
  starts := by
    have hall : html_entities.all (fun e => e.2.head? = some AMPERSAND && !e.2.tail.contains AMPERSAND) = true := by
      decide
    intro e he
    have hstarts := List.all_eq_true.mp hall e he
    rw [Bool.and_eq_true, decide_eq_true_iff, Bool.not_eq_true', List.contains_eq_mem, decide_eq_false_iff_not]
      at hstarts
    exact ⟨e.2.tail, (List.cons_head?_tail hstarts.1).symm, hstarts.2⟩
  apart := by
    have hall : html_entities.all (fun e => html_entities.all fun e' => !e.2.isPrefixOf e'.2 || e = e') = true := by
      decide
    intro e he e' he' hbegins
    have hapart := List.all_eq_true.mp (List.all_eq_true.mp hall e he) e' he'
    rw [Bool.or_eq_true, Bool.not_eq_true', decide_eq_true_iff] at hapart
    refine hapart.resolve_left ?_
    rw [List.isPrefixOf_iff_prefix.mpr hbegins]
    decide
  escaped := ⟨(38, bytes "&amp;"), .tail _ (.tail _ (.head _)), rfl⟩

section loop

variable {dest_size room : Nat} {c : UInt8} {entity dest src text : List UInt8}

theorem escape_char_eq (c : UInt8) : escape_char c = escaping.encode html_table c := by
  have hentities : html_table.entities =
      [(60, bytes "&lt;"), (62, bytes "&gt;"), (38, bytes "&amp;"), (34, bytes "&quot;"), (39, bytes "&#39;")] := rfl
  rw [escape_char, html_entity, escaping.encode, hentities]
  split_ifs with hlt hgt hamp hquot hapos
  · rw [hlt]; rfl
  · rw [hgt]; rfl
  · rw [hamp]; rfl
  · rw [hquot]; rfl
  · rw [hapos]; rfl
  · simp only [List.find?_cons, hlt, hgt, hamp, hquot, hapos, decide_false, List.find?_nil, Option.elim_none]

/-- The room that is asked for is enough for the entity. -/
theorem length_html_entity_le (h : html_entity c = some (entity, room)) : entity.length ≤ room := by
  rw [html_entity] at h
  split_ifs at h
  all_goals
    obtain ⟨rfl, rfl⟩ := Prod.mk.inj (Option.some.inj h)
    decide

/-- The loop fills the block with what it writes, and leaves room for the terminator. -/
theorem html_escape_loop_eq (src text : List UInt8) (hroom : text.length < dest.length) :
    html_escape_loop dest.length src (text ++ dest.drop text.length, text.length) =
        some (html_escape_from dest.length src text ++ dest.drop (html_escape_from dest.length src text).length,
          (html_escape_from dest.length src text).length) ∧
      (html_escape_from dest.length src text).length < dest.length := by
  induction src generalizing text with
  | nil => exact ⟨rfl, hroom⟩
  | cons c src ih =>
    have hwrite (entity : List UInt8) (hfits : text.length + entity.length < dest.length) :
        ((store (text ++ dest.drop text.length).length (text ++ dest.drop text.length) text.length entity).bind
          fun block => html_escape_loop dest.length src (block, text.length + entity.length)) =
        html_escape_loop dest.length src
          (text ++ entity ++ dest.drop (text ++ entity).length, (text ++ entity).length) := by
      rw [store_behind (Nat.le_of_lt hfits), Option.bind_some, List.length_append]
    rw [html_escape_loop, html_escape_from]
    by_cases hfull : text.length < dest.length - 1
    · rw [if_pos hfull, if_pos hfull]
      cases hentity : html_entity c with
      | none =>
        have hfits : text.length + [c].length < dest.length := by
          rw [List.length_singleton]
          omega
        exact hwrite [c] hfits ▸ ih (text ++ [c]) (List.length_append ▸ hfits)
      | some found =>
        obtain ⟨entity, room⟩ := found
        have hlength := length_html_entity_le hentity
        by_cases hasked : text.length + room < dest.length
        · have hfits : text.length + entity.length < dest.length := by omega
          simp only [if_pos hasked, hwrite entity hfits]
          exact ih (text ++ entity) (List.length_append ▸ hfits)
        · simp only [if_neg hasked]
          exact ih text hroom
    · rw [if_neg hfull, if_neg hfull]
      exact ⟨rfl, hroom⟩

/-- What is written are some of the characters, in their order, each as it is escaped. -/
theorem html_escape_from_kept (dest_size : Nat) (src text : List UInt8) :
    ∃ kept : List UInt8, kept.Sublist src ∧ html_escape_from dest_size src text = text ++ kept.flatMap escape_char := by
  induction src generalizing text with
  | nil => exact ⟨[], .refl _, (List.append_nil _).symm⟩
  | cons c src ih =>
    have hkeep : ∃ kept : List UInt8, kept.Sublist (c :: src) ∧
        html_escape_from dest_size src (text ++ escape_char c) = text ++ kept.flatMap escape_char := by
      obtain ⟨kept, hsublist, hkept⟩ := ih (text ++ escape_char c)
      exact ⟨c :: kept, hsublist.cons_cons c, by rw [hkept, List.flatMap_cons, List.append_assoc]⟩
    have hskip : ∃ kept : List UInt8, kept.Sublist (c :: src) ∧
        html_escape_from dest_size src text = text ++ kept.flatMap escape_char := by
      obtain ⟨kept, hsublist, hkept⟩ := ih text
      exact ⟨kept, hsublist.cons c, hkept⟩
    rw [html_escape_from]
    split
    · rw [escape_char] at hkeep
      cases hentity : html_entity c with
      | none =>
        rw [hentity] at hkeep
        exact hkeep
      | some found =>
        rw [hentity] at hkeep
        dsimp only
        split
        · exact hkeep
        · exact hskip
    · exact ⟨[], List.nil_sublist _, (List.append_nil _).symm⟩

end loop

section escaping

variable {dest src : List UInt8}

/-- The block begins with the escaped text and a terminator, and stays as it was behind them. -/
theorem html_escape_into_eq (hsize : 1 ≤ dest.length) :
    html_escape_into dest src dest.length =
        some (html_escape dest.length src ++ [0] ++ dest.drop (html_escape dest.length src ++ [0]).length) ∧
      (html_escape dest.length src).length + 1 ≤ dest.length := by
  obtain ⟨hloop, hroom⟩ := html_escape_loop_eq src [] hsize
  rw [← html_escape] at hloop hroom
  refine ⟨?_, hroom⟩
  rw [html_escape_into, if_neg (by omega)]
  exact hloop ▸ store_behind hroom

theorem markup_html_escape {c : UInt8} {dest_size : Nat} (hc : c ∈ html_escape dest_size src) : markup c = false := by
  obtain ⟨kept, -, hkept⟩ := html_escape_from_kept dest_size src []
  rw [html_escape, hkept, List.nil_append] at hc
  obtain ⟨d, -, hd⟩ := List.mem_flatMap.mp hc
  exact markup_escape_char hd

theorem nul_escape_char {c : UInt8} (h : 0 ∈ escape_char c) : c = 0 := by
  have hall : html_entities.all (fun e => !e.2.contains 0) = true := by decide
  rw [escape_char_eq] at h
  rcases escaping.encode_cases (t := html_table) c with ⟨entity, hmem, -, hencode⟩ | ⟨-, hencode⟩
  · have hnul := List.all_eq_true.mp hall _ hmem
    rw [hencode] at h
    rw [Bool.not_eq_true', List.contains_eq_mem, decide_eq_false_iff_not] at hnul
    exact absurd h hnul
  · rw [hencode] at h
    exact (List.mem_singleton.mp h).symm

/-- The escaped text of a C string is one. -/
theorem nul_html_escape {dest_size : Nat} (hsrc : 0 ∉ src) : 0 ∉ html_escape dest_size src := by
  intro hnul
  obtain ⟨kept, hsublist, hkept⟩ := html_escape_from_kept dest_size src []
  rw [html_escape, hkept, List.nil_append] at hnul
  obtain ⟨c, hc, hnul⟩ := List.mem_flatMap.mp hnul
  exact hsrc (nul_escape_char hnul ▸ hsublist.subset hc)

theorem escaped_html_escape (dest_size : Nat) (src : List UInt8) :
    escaping.Escaped html_table (html_escape dest_size src) := by
  obtain ⟨kept, -, hkept⟩ := html_escape_from_kept dest_size src []
  rw [html_escape, hkept, List.nil_append, funext escape_char_eq]
  exact escaping.escaped_encode kept

theorem decode_html_escape {dest_size : Nat} (hroom : 6 * src.length + 1 ≤ dest_size) :
    escaping.decode html_table (html_escape dest_size src) = src := by
  rw [html_escape, html_escape_from_eq src [] (by rw [List.length_nil]; omega), List.nil_append, funext escape_char_eq]
  exact escaping.decode_encode src

/-- `html_escape` stays in its block and terminates what it writes. No markup is
left in the text, an ampersand in it begins an entity, and where there is room
for the longest entities the text stands for the source. -/
theorem html_escape_faithful (dest src : List UInt8) (hsize : 1 ≤ dest.length) :
    ∃ text, html_escape_into dest src dest.length = some (text ++ [0] ++ dest.drop (text ++ [0]).length) ∧
      text.length + 1 ≤ dest.length ∧
      (0 ∉ src → 0 ∉ text) ∧
      (∀ c ∈ text, markup c = false) ∧
      (∀ before after, text = before ++ AMPERSAND :: after →
        ∃ e ∈ html_entities, e.2 <+: AMPERSAND :: after) ∧
      (6 * src.length + 1 ≤ dest.length → escaping.decode html_table text = src) :=
  ⟨html_escape dest.length src, (html_escape_into_eq hsize).1, (html_escape_into_eq hsize).2, nul_html_escape,
    fun _ => markup_html_escape, escaped_html_escape dest.length src, decode_html_escape⟩

theorem html_escape_faithful_lt :
    ∃ text, html_escape_into (List.replicate 7 9) [60] 7 =
        some (text ++ [0] ++ (List.replicate 7 9).drop (text ++ [0]).length) ∧
      escaping.decode html_table text = [60] := by
  obtain ⟨text, hescape, -, -, -, -, hdecode⟩ := html_escape_faithful (List.replicate 7 9) [60] (by decide)
  exact ⟨text, hescape, hdecode (by decide)⟩

/-- An ampersand that does not fit is left out. -/
example : html_escape 7 [60, 38, 97] = bytes "&lt;a" := by decide

end escaping

end uvhttp.static_files
