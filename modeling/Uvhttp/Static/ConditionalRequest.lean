import Uvhttp.Static.Confinement
import Uvhttp.Static.HttpDate
import Uvhttp.Static.ResponseHeaders

namespace uvhttp.static_files

open uvhttp.http hiding uvhttp_response_send uvhttp_response_send_raw

/-- A system whose dates are made and read by the C library, in a time zone. -/
def with_calendar (sys : System) (zone : TimeZone) : System :=
  { sys with http_date, parse_http_date := parse_http_date zone }

section conditions

variable {sys : System} {zone : TimeZone} {alloc : Nat → Bool} {request : Request} {response : Response}
  {file_path etag : List UInt8} {file_size : Nat} {last_modified : Int} {header : Header}

/-- The `Last-Modified` header is the one with the printed time. -/
theorem value_last_modified (hpos : 0 < last_modified) (hdate : last_modified < HTTP_DATE_END)
    (hfresh : ∀ h ∈ response.headers, h.name ≠ bytes "Last-Modified")
    (hemitted : header ∈ (uvhttp_static_set_response_headers (with_calendar sys zone) alloc file_path file_size
      last_modified etag response).headers)
    (hname : header.name = bytes "Last-Modified") : header.value = http_date last_modified := by
  rw [set_response_headers_eq] at hemitted
  obtain hold | ⟨call, hcall, rfl⟩ := mem_set_headers hemitted
  · exact absurd hname (hfresh header hold)
  · rw [name_written_header] at hname
    obtain ⟨_, rfl⟩ | ⟨-, rfl⟩ | rfl | ⟨-, rfl⟩ | rfl | rfl := mem_static_headers hcall
    · exact absurd hname (show List.take _ (bytes "Content-Type") ≠ _ by decide)
    · exact absurd hname (show List.take _ (bytes "Content-Encoding") ≠ _ by decide)
    · exact absurd hname (show List.take _ (bytes "Content-Length") ≠ _ by decide)
    · apply List.take_of_length_le
      exact (length_http_date_le hpos hdate).trans (by decide)
    · exact absurd hname (show List.take _ (bytes "ETag") ≠ _ by decide)
    · exact absurd hname (show List.take _ (bytes "Cache-Control") ≠ _ by decide)

/-- A request with a date alone is answered by how this date compares, once the offset
of the zone is taken from it. -/
theorem check_modified_since (hpos : 0 < last_modified) (hdate : last_modified < HTTP_DATE_END)
    (hrequest : uvhttp_request_get_header request (bytes "If-Modified-Since") = some (http_date last_modified))
    (hnone : uvhttp_request_get_header request (bytes "If-None-Match") = none) (etag : List UInt8) {modified : Int}
    (hmodified : 0 < modified) :
    uvhttp_static_check_conditional_request (with_calendar sys zone) request etag modified = true ↔
      modified ≤ last_modified - zone.standard_offset last_modified := by
  have hparse : (with_calendar sys zone).parse_http_date (http_date last_modified) =
      some (last_modified - zone.standard_offset last_modified) := parse_http_date_http_date zone hpos hdate
  simp only [uvhttp_static_check_conditional_request, hnone, hrequest, hparse, Bool.false_or, Bool.and_eq_true,
    decide_eq_true_eq]
  constructor
  · rintro ⟨-, hle⟩
    exact hle
  · exact fun hle => ⟨hmodified, hle⟩

/-- A date that the server sent makes a request conditional as it should, unless the file
was modified between that time and the same time by the clocks of the zone. So it does
for every file exactly when these agree. -/
theorem conditional_request_exact (hpos : 0 < last_modified) (hdate : last_modified < HTTP_DATE_END)
    (hfresh : ∀ h ∈ response.headers, h.name ≠ bytes "Last-Modified")
    (hemitted : header ∈ (uvhttp_static_set_response_headers (with_calendar sys zone) alloc file_path file_size
      last_modified etag response).headers)
    (hname : header.name = bytes "Last-Modified")
    (hrequest : uvhttp_request_get_header request (bytes "If-Modified-Since") = some header.value)
    (hnone : uvhttp_request_get_header request (bytes "If-None-Match") = none) :
    (∀ (etag : List UInt8) (modified : Int), 0 < modified →
      ((uvhttp_static_check_conditional_request (with_calendar sys zone) request etag modified = true ↔
          modified ≤ last_modified) ↔
        ¬ (last_modified < modified ∧ modified ≤ last_modified - zone.standard_offset last_modified) ∧
          ¬ (last_modified - zone.standard_offset last_modified < modified ∧ modified ≤ last_modified))) ∧
      ((∀ (etag : List UInt8) (modified : Int), 0 < modified →
        (uvhttp_static_check_conditional_request (with_calendar sys zone) request etag modified = true ↔
          modified ≤ last_modified)) ↔ zone.standard_offset last_modified = 0) := by
  rw [value_last_modified hpos hdate hfresh hemitted hname] at hrequest
  have hcheck : ∀ (etag : List UInt8) (modified : Int), 0 < modified →
      (uvhttp_static_check_conditional_request (with_calendar sys zone) request etag modified = true ↔
        modified ≤ last_modified - zone.standard_offset last_modified) :=
    fun etag _ hmodified => check_modified_since hpos hdate hrequest hnone etag hmodified
  constructor
  · intro etag modified hmodified
    rw [hcheck etag modified hmodified]
    omega
  · constructor
    · intro hall
      by_contra hoffset
      rcases lt_or_gt_of_ne hoffset with hwest | heast
      · have hlater := (hall [] (last_modified + 1) (by omega)).mp
          ((hcheck [] (last_modified + 1) (by omega)).mpr (by omega))
        omega
      · have hsame := (hcheck [] last_modified hpos).mp ((hall [] last_modified hpos).mpr (Int.le_refl _))
        omega
    · intro hzero etag modified hmodified
      rw [hcheck etag modified hmodified, hzero, Int.sub_zero]

end conditions

section zones

/-- The zone whose standard time is a number of seconds ahead of UTC. -/
def fixed_zone (standard_offset : Int) : TimeZone := ⟨fun _ => standard_offset⟩

def dated_header : Header := ⟨bytes "Last-Modified", bytes "Sun, 06 Nov 1994 08:49:37 GMT"⟩

def dated_request : Request := get "/a" [⟨bytes "If-Modified-Since", dated_header.value⟩]

theorem dated_emitted (zone : TimeZone) :
    dated_header ∈ (uvhttp_static_set_response_headers (with_calendar (.willing small_site) zone) (fun _ => true)
      (bytes "/srv/a") 1 784111777 [] uvhttp_response_init).headers := by
  have hcomputed : dated_header ∈ (uvhttp_static_set_response_headers { System.willing small_site with http_date }
      (fun _ => true) (bytes "/srv/a") 1 784111777 [] uvhttp_response_init).headers := by decide +kernel
  rw [set_response_headers_eq] at hcomputed ⊢
  exact hcomputed

theorem conditional_request_exact_utc :
    uvhttp_static_check_conditional_request (with_calendar (.willing small_site) (fixed_zone 0)) dated_request []
        784111777 = true ∧
      uvhttp_static_check_conditional_request (with_calendar (.willing small_site) (fixed_zone 0)) dated_request []
        784111778 ≠ true := by
  have hfresh : ∀ h ∈ uvhttp_response_init.headers, h.name ≠ bytes "Last-Modified" := fun h hmem => by cases hmem
  have hrequest : uvhttp_request_get_header dated_request (bytes "If-Modified-Since") = some dated_header.value := by
    decide
  have hnone : uvhttp_request_get_header dated_request (bytes "If-None-Match") = none := by decide
  have hexact := (conditional_request_exact (by decide) (by decide) hfresh (dated_emitted (fixed_zone 0)) rfl hrequest
    hnone).2.mpr rfl
  refine ⟨(hexact [] 784111777 (by decide)).mpr (Int.le_refl _), fun hnew => ?_⟩
  exact absurd ((hexact [] 784111778 (by decide)).mp hnew) (by decide)

/-- East of UTC a file that did not change is sent again, and to the west one that did
change is not. -/
theorem conditional_request_by_zone :
    dated_header ∈ (uvhttp_static_set_response_headers (with_calendar (.willing small_site) (fixed_zone 3600))
        (fun _ => true) (bytes "/srv/a") 1 784111777 [] uvhttp_response_init).headers ∧
      uvhttp_static_check_conditional_request (with_calendar (.willing small_site) (fixed_zone 3600)) dated_request []
        784111777 = false ∧
      dated_header ∈ (uvhttp_static_set_response_headers (with_calendar (.willing small_site) (fixed_zone (-18000)))
        (fun _ => true) (bytes "/srv/a") 1 784111777 [] uvhttp_response_init).headers ∧
      uvhttp_static_check_conditional_request (with_calendar (.willing small_site) (fixed_zone (-18000)))
        dated_request [] 784111778 = true := by
  refine ⟨dated_emitted _, ?_, dated_emitted _, ?_⟩
  · decide +kernel
  · decide +kernel

end zones

end uvhttp.static_files
