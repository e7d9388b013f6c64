import Uvhttp.Router.Model

namespace uvhttp.router

open http (Method)

variable {H : Type} {alloc : Nat → Bool}

/-- A call that `uvhttp_router_add_route_method` does not reject at once. -/
structure ValidCall (path : List UInt8) (handler : Option H) : Prop where
  handler : handler.isSome = true
  not_empty : path.length ≠ 0
  length : path.length < MAX_ROUTE_PATH_LEN
  no_query : QUESTION_MARK ∉ path

/-- The route turns an array of these routes into a trie. -/
def Migrates (entries : List (ArrayRoute H)) (path : List UInt8) : Prop :=
  COLON ∈ path ∨ entries.length ≥ HYBRID_THRESHOLD

/-- What a call of `uvhttp_router_add_route_method` comes to. -/
inductive Registered (alloc : Nat → Bool) (router : Router H) (path : List UInt8) (method : Method) :
    Option H → UvhttpError × Router H → Prop where
  | rejected {handler : Option H} (hinvalid : ¬ ValidCall path handler) :
      Registered alloc router path method handler (.INVALID_PARAM, router)
  | trie {handler : H} (hvalid : ValidCall path (some handler)) (hmode : router.use_trie = true) :
      Registered alloc router path method (some handler) (add_trie_route alloc router path method handler)
  | stranded {handler : H} (hvalid : ValidCall path (some handler)) (hmode : router.use_trie = false)
      {entries : List (ArrayRoute H)} (harray : router.array_routes = .routes entries)
      (hmigrates : Migrates entries path) (hfull : (migrate_routes alloc router.trie entries).2 = false) :
      Registered alloc router path method (some handler) (.OUT_OF_MEMORY, { router with
        trie := (migrate_routes alloc router.trie entries).1, array_routes := .released })
  | migrated {handler : H} (hvalid : ValidCall path (some handler)) (hmode : router.use_trie = false)
      {entries : List (ArrayRoute H)} (harray : router.array_routes = .routes entries)
      (hmigrates : Migrates entries path) (hroom : (migrate_routes alloc router.trie entries).2 = true) :
      Registered alloc router path method (some handler) (add_trie_route alloc { router with
        trie := (migrate_routes alloc router.trie entries).1, use_trie := true, array_routes := .routes [] }
        path method handler)
  | array {handler : H} (hvalid : ValidCall path (some handler)) (hmode : router.use_trie = false)
      {entries : List (ArrayRoute H)} (harray : router.array_routes = .routes entries)
      (hstays : ¬ Migrates entries path) :
      Registered alloc router path method (some handler)
        (.OK, { router with
          array_routes := .routes (entries ++ [⟨path.take (MAX_ROUTE_PATH_LEN - 1), method, handler⟩]) })

/-- Every call that returns is one of these. -/
theorem registered_of_call {router : Router H} {path : List UInt8} {method : Method} {handler : Option H}
    {result : UvhttpError × Router H}
    (h : uvhttp_router_add_route_method alloc router path method handler = some result) :
    Registered alloc router path method handler result := by
  unfold uvhttp_router_add_route_method at h
  cases handler with
  | none =>
    cases h
    exact .rejected fun hvalid => by cases hvalid.handler
  | some handler =>
    dsimp only at h
    by_cases hempty : path.length = 0
    · rw [if_pos hempty] at h
      cases h
      exact .rejected fun hvalid => hvalid.not_empty hempty
    · by_cases hlong : path.length ≥ MAX_ROUTE_PATH_LEN
      · rw [if_neg hempty, if_pos hlong] at h
        cases h
        exact .rejected fun hvalid => Nat.not_lt.mpr hlong hvalid.length
      · by_cases hquery : QUESTION_MARK ∈ path
        · rw [if_neg hempty, if_neg hlong, if_pos hquery] at h
          cases h
          exact .rejected fun hvalid => hvalid.no_query hquery
        · have hvalid : ValidCall path (some handler) := ⟨rfl, hempty, Nat.not_le.mp hlong, hquery⟩
          rw [if_neg hempty, if_neg hlong, if_neg hquery] at h
          cases hmode : router.use_trie with
          | true =>
            rw [if_pos hmode] at h
            cases h
            exact .trie hvalid hmode
          | false =>
            rw [if_neg fun htrue => Bool.false_ne_true (hmode.symm.trans htrue)] at h
            cases harray : router.array_routes with
            | released =>
              rw [harray] at h
              cases h
            | routes entries =>
              rw [harray] at h
              dsimp only at h
              by_cases hmigrates : COLON ∈ path ∨ entries.length ≥ HYBRID_THRESHOLD
              · rw [if_pos hmigrates] at h
                cases hroom : (migrate_routes alloc router.trie entries).2 with
                | false =>
                  have hmigrated : migrate_to_trie alloc router entries = (.OUT_OF_MEMORY, { router with
                      trie := (migrate_routes alloc router.trie entries).1, array_routes := .released }) := by
                    rw [migrate_to_trie, hroom]
                    rfl
                  rw [hmigrated, if_pos (show UvhttpError.OUT_OF_MEMORY ≠ .OK by decide)] at h
                  cases h
                  exact .stranded hvalid hmode harray hmigrates hroom
                | true =>
                  have hmigrated : migrate_to_trie alloc router entries = (.OK, { router with
                      trie := (migrate_routes alloc router.trie entries).1, use_trie := true
                      array_routes := .routes [] }) := by
                    rw [migrate_to_trie, hroom]
                    rfl
                  rw [hmigrated, if_neg (show ¬ UvhttpError.OK ≠ .OK by decide)] at h
                  cases h
                  exact .migrated hvalid hmode harray hmigrates hroom
              · rw [if_neg hmigrates] at h
                cases h
                exact .array hvalid hmode harray hmigrates

/-- A call leaves what the router keeps beside its routes. -/
theorem Registered.services {router : Router H} {path : List UInt8} {method : Method} {handler : Option H}
    {result : UvhttpError × Router H} (h : Registered alloc router path method handler result) :
    Router.static_prefix result.2 = router.static_prefix ∧ result.2.static_context = router.static_context ∧
      result.2.fallback_context = router.fallback_context := by
  cases h with
  | rejected => exact ⟨rfl, rfl, rfl⟩
  | trie => exact ⟨rfl, rfl, rfl⟩
  | stranded => exact ⟨rfl, rfl, rfl⟩
  | migrated => exact ⟨rfl, rfl, rfl⟩
  | array => exact ⟨rfl, rfl, rfl⟩

end uvhttp.router
