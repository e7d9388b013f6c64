import Uvhttp.Router.Agreement
import Uvhttp.Router.Dispatch
import Uvhttp.Router.RecordedLookup

namespace uvhttp.static_context

open agreement (Services router_services cache_services)
open dispatch (Dispatch dispatch_found)
open http (Method)
open router (Context Router Target)
open router_cache (CacheRouter)
open router_match (ParamNames)

variable {H : Type}

/-- A registration with the pointers an application gives it. -/
inductive Setup (H : Type) where
  | route (path : List UInt8) (method : Method) (handler : Option H)
  | static_route (prefix_path : List UInt8) (static_context : Option Nat)
  | fallback_route (static_context : Option Nat)
  | binary_route (path mime_type : List UInt8)

/-- The registration in the array and trie router. -/
def setup_router (binary_route_handler : H) (alloc : Nat → Bool) (router : Router H) :
    Setup H → Option (UvhttpError × Router H)
  | .route path method handler => uvhttp.router.uvhttp_router_add_route_method alloc router path method handler
  | .static_route prefix_path static_context =>
    some (uvhttp.router.uvhttp_router_add_static_route alloc router prefix_path (static_context.map .static_files))
  | .fallback_route static_context =>
    some (uvhttp.router.uvhttp_router_add_fallback_route router (static_context.map .static_files))
  | .binary_route path mime_type =>
    uvhttp.router.uvhttp_router_add_binary_route alloc binary_route_handler router path mime_type

/-- The registration in the hash table router. -/
def setup_cache (route_hash : List UInt8 → UInt32) (binary_route_handler : H) (alloc : Nat → Bool)
    (cr : CacheRouter H) : Setup H → Option (UvhttpError × CacheRouter H)
  | .route path method handler => router_cache.uvhttp_router_add_route_method route_hash alloc cr path method handler
  | .static_route prefix_path static_context =>
    some (router_cache.uvhttp_router_add_static_route alloc cr prefix_path (static_context.map .static_files))
  | .fallback_route static_context =>
    some (router_cache.uvhttp_router_add_fallback_route cr (static_context.map .static_files))
  | .binary_route path mime_type =>
    router_cache.uvhttp_router_add_binary_route route_hash alloc binary_route_handler cr path mime_type

/-- The static route in place with the pointer given for it, and the pointer given for
the fallback. -/
structure Given where
  static_route : Option (List UInt8 × Nat)
  fallback : Option Nat
  deriving DecidableEq, Repr

/-- What a registration gives. One that fails for want of memory takes the prefix
away. -/
def Given.record (given : Given) (code : UvhttpError) : Setup H → Given
  | .static_route prefix_path (some static_context) =>
    { given with static_route := if code = .OK then some (prefix_path, static_context) else none }
  | .fallback_route (some static_context) => { given with fallback := some static_context }
  | _ => given

/-- A router after some registrations, whether they succeeded or not. -/
inductive RouterSetUp (binary_route_handler : H) : Router H → Given → Prop where
  | new : RouterSetUp binary_route_handler router.uvhttp_router_new ⟨none, none⟩
  | call {router router' : Router H} {given : Given} {code : UvhttpError} (alloc : Nat → Bool) (setup : Setup H)
      (h : RouterSetUp binary_route_handler router given)
      (hcall : setup_router binary_route_handler alloc router setup = some (code, router')) :
      RouterSetUp binary_route_handler router' (given.record code setup)

/-- A hash table router after some registrations. -/
inductive CacheSetUp (route_hash : List UInt8 → UInt32) (binary_route_handler : H) :
    CacheRouter H → Given → Prop where
  | new : CacheSetUp route_hash binary_route_handler router_cache.uvhttp_router_new ⟨none, none⟩
  | call {cr cr' : CacheRouter H} {given : Given} {code : UvhttpError} (alloc : Nat → Bool) (setup : Setup H)
      (h : CacheSetUp route_hash binary_route_handler cr given)
      (hcall : setup_cache route_hash binary_route_handler alloc cr setup = some (code, cr')) :
      CacheSetUp route_hash binary_route_handler cr' (given.record code setup)

/-- What a request comes to: the handler of a route, `uvhttp_static_handle_request`
with a context, or neither. -/
inductive Served (H : Type) where
  | handler (h : H)
  | static_handle_request (context : Context)
  | unserved
  deriving DecidableEq, Repr

/-- The call of `uvhttp_static_handle_request` that a context allows. -/
def serve_static (context : Option Context) : Served H :=
  match context with
  | some context => .static_handle_request context
  | none => .unserved

/-- What comes of a dispatch, given the context that `static_file_handler_wrapper`
takes. -/
def served_by (wrapper_context static_context : Option Context) : Dispatch H → Served H
  | .found (.handler h) => .handler h
  | .found .static_file_handler_wrapper => serve_static wrapper_context
  | .static_context => serve_static static_context
  | .server_handler => .unserved
  | .not_found => .unserved

/-- The routing in `on_message_complete`. -/
def route_request (wrapper_context static_context : Option Context) (server_handler : Bool)
    (target : Option (Target H)) : Served H :=
  served_by wrapper_context static_context (dispatch_found static_context.isSome server_handler target)

/-- A request to the array and trie router, whose wrapper takes the static context;
`none` when the lookup reads freed memory or writes behind its match. -/
def serve_router (names : ParamNames) (server_handler : Bool) (router : Router H) (url method : List UInt8) :
    Option (Served H) :=
  (router_match.uvhttp_router_find_handler names router url method).map
    (route_request router.static_context router.static_context server_handler)

/-- A request to the hash table router, whose wrapper takes the context of the fallback
if there is no static context. -/
def serve_cache (route_hash : List UInt8 → UInt32) (server_handler : Bool) (cr : CacheRouter H)
    (url method : List UInt8) : Served H :=
  route_request (cr.static_context <|> cr.fallback_context) cr.static_context server_handler
    (router_cache.uvhttp_router_find_handler route_hash cr url method)

theorem route_request_wrapper (wrapper_context static_context : Option Context) (server_handler : Bool) :
    route_request wrapper_context static_context server_handler (some .static_file_handler_wrapper) =
      (serve_static wrapper_context : Served H) := rfl

/-- Without a handler the static context is tried. -/
theorem route_request_none (wrapper_context static_context : Option Context) (server_handler : Bool) :
    route_request wrapper_context static_context server_handler none = (serve_static static_context : Served H) := by
  cases static_context with
  | some context => rfl
  | none =>
    cases server_handler with
    | false => rfl
    | true => rfl

section selection

variable (given : Given) (url : List UInt8)

/-- The request is under the prefix of the static route. -/
def Given.UnderPrefix : Prop := ∃ prefix_path static_context,
  given.static_route = some (prefix_path, static_context) ∧ prefix_path <+: url

/-- Nothing but the fallback takes the request. -/
def Given.OnlyFallback (unrouted : Prop) : Prop :=
  given.fallback.isSome = true ∧ ¬given.UnderPrefix url ∧ unrouted

/-- `uvhttp_static_handle_request` gets the pointer given for the static route, the
request being under its prefix, or that given for the fallback, nothing else taking
the request; and such a request does come to it. -/
structure ContextSelected (unrouted : Prop) (served : Served H) : Prop where
  context : ∀ context, served = .static_handle_request context →
    (∃ prefix_path static_context, given.static_route = some (prefix_path, static_context) ∧ prefix_path <+: url ∧
      context = .static_files static_context) ∨
    (given.OnlyFallback url unrouted ∧
      ∃ static_context, given.fallback = some static_context ∧ context = .static_files static_context)
  fallback : given.OnlyFallback url unrouted →
    ∃ static_context, given.fallback = some static_context ∧
      served = .static_handle_request (.static_files static_context)

end selection

/-- What the services of a router have to do with what was given to it. Of the static
route, a binary route may have taken the context. -/
structure Given.Tracks (given : Given) (s : Services) : Prop where
  static_route : s.static_prefix = given.static_route.map Prod.fst
  context : ∀ prefix_path static_context, given.static_route = some (prefix_path, static_context) →
    s.static_context = some (.static_files static_context) ∨ ∃ mime_type, s.static_context = some (.mime_type mime_type)
  fallback : s.fallback_context = given.fallback.map .static_files

section tracking

variable {given : Given} {s : Services}

theorem tracks_new : Given.Tracks ⟨none, none⟩ ⟨none, none, none⟩ := by
  refine ⟨rfl, ?_, rfl⟩
  rintro prefix_path static_context ⟨⟩

theorem Given.Tracks.static_route_given (h : given.Tracks s) (prefix_path : List UInt8) (static_context : Nat) :
    Given.Tracks { given with static_route := some (prefix_path, static_context) }
      { s with static_prefix := some prefix_path, static_context := some (.static_files static_context) } := by
  refine ⟨rfl, ?_, h.fallback⟩
  rintro prefix_path static_context ⟨⟩
  exact Or.inl rfl

theorem Given.Tracks.static_route_lost (h : given.Tracks s) :
    Given.Tracks { given with static_route := none } { s with static_prefix := none } := by
  refine ⟨rfl, ?_, h.fallback⟩
  rintro prefix_path static_context ⟨⟩

theorem Given.Tracks.fallback_given (h : given.Tracks s) (static_context : Nat) :
    Given.Tracks { given with fallback := some static_context }
      { s with fallback_context := some (.static_files static_context) } :=
  ⟨h.static_route, h.context, rfl⟩

theorem Given.Tracks.overwritten (h : given.Tracks s) (mime_type : List UInt8) :
    given.Tracks { s with static_context := some (.mime_type mime_type) } := by
  refine ⟨h.static_route, ?_, h.fallback⟩
  intro prefix_path static_context _
  exact Or.inr ⟨mime_type, rfl⟩

/-- The registrations keep the services of the array and trie router in step. -/
theorem router_tracks {binary_route_handler : H} {router : Router H}
    (h : RouterSetUp binary_route_handler router given) : given.Tracks (router_services router) := by
  induction h with
  | new => exact tracks_new
  | @call router router' given code alloc setup _ hcall ih =>
    cases setup with
    | route path method handler =>
      obtain ⟨hfront, hcontext, hfallback⟩ := uvhttp.router.add_route_method_services hcall
      rw [router_services, hfront, hcontext, hfallback]
      exact ih
    | static_route prefix_path static_context =>
      rw [setup_router, Option.some.injEq] at hcall
      cases static_context with
      | none =>
        cases hcall
        exact ih
      | some static_context =>
        rw [Option.map_some, uvhttp.router.uvhttp_router_add_static_route] at hcall
        split at hcall
        · cases hcall
          exact ih.static_route_lost
        · cases hcall
          exact ih.static_route_given prefix_path static_context
    | fallback_route static_context =>
      rw [setup_router, Option.some.injEq] at hcall
      cases static_context with
      | none =>
        cases hcall
        exact ih
      | some static_context =>
        cases hcall
        exact ih.fallback_given static_context
    | binary_route path mime_type =>
      rw [setup_router, uvhttp.router.uvhttp_router_add_binary_route, uvhttp.router.uvhttp_router_add_route] at hcall
      obtain ⟨hfront, hcontext, hfallback⟩ := uvhttp.router.add_route_method_services hcall
      rw [router_services, hfront, hcontext, hfallback]
      exact ih.overwritten mime_type

theorem cache_route_services {route_hash : List UInt8 → UInt32} {alloc : Nat → Bool}
    {cr cr' : CacheRouter H} {path : List UInt8} {method : Method} {handler : Option H} {code : UvhttpError}
    (h : router_cache.uvhttp_router_add_route_method route_hash alloc cr path method handler = some (code, cr')) :
    cache_services cr' = cache_services cr := by
  obtain ⟨-, rfl⟩ | ⟨_, -, -, -, -, hfront, hcontext, hfallback⟩ := router_cache.add_route_method_cases h
  · rfl
  · rw [cache_services, cache_services, hfront, hcontext, hfallback]

theorem cache_tracks {route_hash : List UInt8 → UInt32} {binary_route_handler : H} {cr : CacheRouter H}
    (h : CacheSetUp route_hash binary_route_handler cr given) : given.Tracks (cache_services cr) := by
  induction h with
  | new => exact tracks_new
  | @call cr cr' given code alloc setup _ hcall ih =>
    cases setup with
    | route path method handler =>
      rw [cache_route_services hcall]
      exact ih
    | static_route prefix_path static_context =>
      rw [setup_cache, Option.some.injEq] at hcall
      cases static_context with
      | none =>
        cases hcall
        exact ih
      | some static_context =>
        rw [Option.map_some, router_cache.uvhttp_router_add_static_route] at hcall
        split at hcall
        · cases hcall
          exact ih.static_route_lost
        · cases hcall
          exact ih.static_route_given prefix_path static_context
    | fallback_route static_context =>
      rw [setup_cache, Option.some.injEq] at hcall
      cases static_context with
      | none =>
        cases hcall
        exact ih
      | some static_context =>
        cases hcall
        exact ih.fallback_given static_context
    | binary_route path mime_type =>
      rw [setup_cache, router_cache.uvhttp_router_add_binary_route, router_cache.uvhttp_router_add_route] at hcall
      rw [cache_route_services hcall]
      exact ih.overwritten mime_type

/-- Whether the static route of some services takes a request. -/
def covers (s : Services) (url : List UInt8) : Bool :=
  match s.static_prefix with
  | none => false
  | some static_prefix => s.static_context.isSome && static_prefix.isPrefixOf url

/-- With a static route there is a context. -/
theorem Given.Tracks.has_context (h : given.Tracks s) {url : List UInt8} (hunder : given.UnderPrefix url) :
    ∃ context, s.static_context = some context := by
  obtain ⟨prefix_path, static_context, hstatic, -⟩ := hunder
  obtain hown | ⟨mime_type, hmime⟩ := h.context prefix_path static_context hstatic
  · exact ⟨_, hown⟩
  · exact ⟨_, hmime⟩

theorem Given.Tracks.covers_iff (h : given.Tracks s) (url : List UInt8) :
    covers s url = true ↔ given.UnderPrefix url := by
  have hfront := h.static_route
  constructor
  · intro hcovers
    cases hstatic : given.static_route with
    | none =>
      rw [covers, hfront, hstatic] at hcovers
      cases hcovers
    | some installed =>
      obtain ⟨prefix_path, static_context⟩ := installed
      rw [covers, hfront, hstatic] at hcovers
      simp only [Option.map_some, Bool.and_eq_true, List.isPrefixOf_iff_prefix] at hcovers
      exact ⟨prefix_path, static_context, hstatic, hcovers.2⟩
  · intro hunder
    obtain ⟨context, hcontext⟩ := h.has_context hunder
    obtain ⟨prefix_path, static_context, hstatic, hurl⟩ := hunder
    rw [covers, hfront, hstatic, hcontext]
    exact List.isPrefixOf_iff_prefix.mpr hurl

end tracking

section selecting

variable {given : Given} {s : Services} {url : List UInt8} {unrouted : Prop}

/-- A request under the prefix gets the pointer of the static route if a static route
was the last to write the context. -/
theorem selected_under_prefix (h : given.Tracks s) (hunder : given.UnderPrefix url) :
    ContextSelected given url unrouted (serve_static s.static_context : Served H) ↔
      ∃ static_context, s.static_context = some (.static_files static_context) := by
  have hother : ¬given.OnlyFallback url unrouted := fun honly => honly.2.1 hunder
  obtain ⟨prefix_path, static_context, hstatic, hprefixed⟩ := hunder
  constructor
  · intro hselected
    obtain hown | ⟨mime_type, hmime⟩ := h.context prefix_path static_context hstatic
    · exact ⟨static_context, hown⟩
    · obtain ⟨_, _, -, -, hcontext⟩ | ⟨honly, -⟩ := hselected.context (.mime_type mime_type) (by rw [hmime]; rfl)
      · cases hcontext
      · exact absurd honly hother
  · rintro ⟨found, hfound⟩
    obtain hown | ⟨mime_type, hmime⟩ := h.context prefix_path static_context hstatic
    · rw [hown]
      refine ⟨?_, fun honly => absurd honly hother⟩
      rintro context ⟨⟩
      exact Or.inl ⟨prefix_path, static_context, hstatic, hprefixed, rfl⟩
    · rw [hmime] at hfound
      cases hfound

/-- A request that no route takes, outside the prefix: the fallback serves it, if there
is one, and nothing else does. -/
theorem selected_unrouted (h : given.Tracks s) (hunder : ¬given.UnderPrefix url) (hunrouted : unrouted)
    (wrapper_context : Option Context) (server_handler : Bool) :
    ContextSelected given url unrouted (route_request wrapper_context s.static_context server_handler
        (if s.fallback_context.isSome then some .static_file_handler_wrapper else none) : Served H) ↔
      (if s.fallback_context.isSome then wrapper_context else s.static_context) = s.fallback_context := by
  have hcontext := h.fallback
  cases hfallback : given.fallback with
  | none =>
    have hother : ¬given.OnlyFallback url unrouted := by
      rintro ⟨hsome, -⟩
      rw [hfallback] at hsome
      cases hsome
    rw [hfallback, Option.map_none] at hcontext
    simp only [hcontext, Option.isSome_none, Bool.false_eq_true, if_false, route_request_none]
    constructor
    · intro hselected
      cases hstatic : s.static_context with
      | none => rfl
      | some context =>
        rw [hstatic] at hselected
        obtain ⟨prefix_path, static_context, hroute, hprefixed, -⟩ | ⟨honly, -⟩ := hselected.context context rfl
        · exact absurd ⟨prefix_path, static_context, hroute, hprefixed⟩ hunder
        · exact absurd honly hother
    · intro hstatic
      rw [hstatic]
      exact ⟨nofun, fun honly => absurd honly hother⟩
  | some static_context =>
    have honly : given.OnlyFallback url unrouted := by
      refine ⟨?_, hunder, hunrouted⟩
      rw [hfallback]
      rfl
    rw [hfallback, Option.map_some] at hcontext
    simp only [hcontext, Option.isSome_some, if_true, route_request_wrapper]
    constructor
    · intro hselected
      obtain ⟨served, hserved, hstatic⟩ := hselected.fallback honly
      obtain rfl : static_context = served := by
        rw [hfallback] at hserved
        exact Option.some.inj hserved
      cases wrapper_context with
      | none => cases hstatic
      | some context =>
        cases hstatic
        rfl
    · rintro rfl
      refine ⟨?_, fun _ => ⟨static_context, hfallback, rfl⟩⟩
      rintro context ⟨⟩
      exact Or.inr ⟨honly, static_context, hfallback, rfl⟩

/-- A request that a route takes, outside the prefix, is none of the static files'. -/
theorem selected_routed (hrouted : ¬unrouted) (handler : H) :
    ContextSelected given url unrouted (.handler handler) :=
  ⟨nofun, fun honly => absurd honly.2.2 hrouted⟩

end selecting

section routers

variable {given : Given} {url method : List UInt8} (names : ParamNames) (server_handler : Bool)

/-- Whether the array and trie router has no route for the request. -/
def Unrouted (router : Router H) (url method : List UInt8) : Prop :=
  router_match.find_route names router url method = some none

/-- Whether the hash table router has no route for the request. -/
def CacheUnrouted (route_hash : List UInt8 → UInt32) (cr : CacheRouter H) (url method : List UInt8) : Prop :=
  router_cache.find_in_hash_table route_hash cr.hash_table url (router_cache.fast_method_parse method) = none

theorem router_selected_iff {router : Router H} (h : given.Tracks (router_services router)) :
    (∀ served, serve_router names server_handler router url method = some served →
      ContextSelected given url (Unrouted names router url method) served) ↔
    (given.UnderPrefix url → ∃ static_context, router.static_context = some (.static_files static_context)) ∧
    (¬given.UnderPrefix url → Unrouted names router url method →
      router.static_context = router.fallback_context) := by
  have hcovers : uvhttp.router.static_covers router url = true ↔ given.UnderPrefix url := h.covers_iff url
  rw [serve_router, router_match.uvhttp_router_find_handler]
  by_cases hunder : given.UnderPrefix url
  · rw [if_pos (hcovers.mpr hunder)]
    simp only [Option.map_some, Option.some.injEq, forall_eq', hunder, forall_true_left, not_true_eq_false,
      false_implies, and_true]
    exact selected_under_prefix h hunder
  · rw [if_neg (mt hcovers.mp hunder)]
    simp only [hunder, false_implies, true_and, not_false_eq_true, forall_true_left]
    rw [Unrouted]
    rcases hfound : router_match.find_route names router url method with _ | _ | target
    · simp
    · simp only [Option.map_some, Option.some.injEq, forall_eq', forall_true_left]
      refine (selected_unrouted h hunder trivial _ server_handler).trans ?_
      change (if router.fallback_context.isSome then router.static_context else router.static_context) =
        router.fallback_context ↔ _
      rw [ite_self]
    · obtain ⟨handler, rfl⟩ := router_match.found_route_handler hfound
      simp only [Option.map_some, Option.some.injEq, forall_eq', reduceCtorEq, false_implies, iff_true]
      exact selected_routed (by simp) handler

theorem wrapper_fits_iff (static_context fallback_context : Option Context) :
    (if fallback_context.isSome then static_context <|> fallback_context else static_context) = fallback_context ↔
      static_context = none ∨ static_context = fallback_context := by
  cases fallback_context with
  | none => simp
  | some context =>
    cases static_context with
    | none => simp
    | some other => simp

theorem cache_selected_iff {route_hash : List UInt8 → UInt32} {cr : CacheRouter H}
    (h : given.Tracks (cache_services cr)) :
    ContextSelected given url (CacheUnrouted route_hash cr url method)
      (serve_cache route_hash server_handler cr url method) ↔
    (given.UnderPrefix url → ∃ static_context, cr.static_context = some (.static_files static_context)) ∧
    (¬given.UnderPrefix url → CacheUnrouted route_hash cr url method →
      cr.static_context = none ∨ cr.static_context = cr.fallback_context) := by
  have hcovers : router_cache.static_prefix_handler cr url = true ↔ given.UnderPrefix url := h.covers_iff url
  rw [serve_cache, router_cache.uvhttp_router_find_handler]
  by_cases hunder : given.UnderPrefix url
  · rw [if_pos (hcovers.mpr hunder)]
    simp only [hunder, forall_true_left, not_true_eq_false, false_implies, and_true]
    obtain ⟨context, hcontext⟩ := h.has_context hunder
    change cr.static_context = some context at hcontext
    have hwrapper : (cr.static_context <|> cr.fallback_context) = cr.static_context := by
      rw [hcontext]
      rfl
    rw [hwrapper]
    exact selected_under_prefix h hunder
  · rw [if_neg (mt hcovers.mp hunder)]
    simp only [hunder, false_implies, true_and, not_false_eq_true, forall_true_left]
    rw [CacheUnrouted]
    rcases hfound : router_cache.find_in_hash_table route_hash cr.hash_table url
      (router_cache.fast_method_parse method) with _ | handler
    · simp only [forall_true_left]
      refine (selected_unrouted h hunder trivial _ server_handler).trans ?_
      exact wrapper_fits_iff cr.static_context cr.fallback_context
    · simp only [reduceCtorEq, false_implies, iff_true]
      exact selected_routed (by simp) handler

end routers

/-- When the context of `uvhttp_static_handle_request` is the one it should be, in both
routers and after any registrations. -/
theorem static_context_selected_iff (names : ParamNames) (route_hash : List UInt8 → UInt32) (binary_route_handler : H)
    (server_handler : Bool) :
    (∀ {router : Router H} {given : Given}, RouterSetUp binary_route_handler router given → ∀ url method,
      ((∀ served, serve_router names server_handler router url method = some served →
          ContextSelected given url (Unrouted names router url method) served) ↔
        (given.UnderPrefix url → ∃ static_context, router.static_context = some (.static_files static_context)) ∧
        (¬given.UnderPrefix url → Unrouted names router url method →
          router.static_context = router.fallback_context))) ∧
    (∀ {cr : CacheRouter H} {given : Given}, CacheSetUp route_hash binary_route_handler cr given → ∀ url method,
      (ContextSelected given url (CacheUnrouted route_hash cr url method)
          (serve_cache route_hash server_handler cr url method) ↔
        (given.UnderPrefix url → ∃ static_context, cr.static_context = some (.static_files static_context)) ∧
        (¬given.UnderPrefix url → CacheUnrouted route_hash cr url method →
          cr.static_context = none ∨ cr.static_context = cr.fallback_context))) :=
  ⟨fun h _ _ => router_selected_iff names server_handler (router_tracks h),
    fun h _ _ => cache_selected_iff server_handler (cache_tracks h)⟩

/-- A router with a static route. -/
def with_static_route : Router Unit :=
  { router.uvhttp_router_new with static_prefix := some (bytes "/s"), static_context := some (.static_files 1) }

theorem with_static_route_set_up : RouterSetUp () with_static_route ⟨some (bytes "/s", 1), none⟩ :=
  .call (fun _ => true) (.static_route (bytes "/s") (some 1)) .new rfl

theorem static_context_selected_under_prefix : ∀ served,
    serve_router (fun _ => []) false with_static_route (bytes "/s/a") (bytes "GET") = some served →
    ContextSelected ⟨some (bytes "/s", 1), none⟩ (bytes "/s/a")
      (Unrouted (fun _ => []) with_static_route (bytes "/s/a") (bytes "GET")) served := by
  apply ((static_context_selected_iff (fun _ => []) (fun _ => 0) () false).1 with_static_route_set_up _ _).mpr
  refine ⟨fun _ => ⟨1, rfl⟩, fun hunder => absurd ?_ hunder⟩
  exact ⟨bytes "/s", 1, rfl, by decide⟩

/-- With a binary route after the static route, the MIME type is the context of a
request under the prefix; and without a static route the fallback serves nothing. -/
theorem static_context_not_selected :
    (∃ router : Router Unit, ∃ given, RouterSetUp () router given ∧
      ∃ served, serve_router (fun _ => []) false router (bytes "/s/a") (bytes "GET") = some served ∧
        served = .static_handle_request (.mime_type (bytes "image/png")) ∧
        ¬ContextSelected given (bytes "/s/a") (Unrouted (fun _ => []) router (bytes "/s/a") (bytes "GET")) served) ∧
    (∃ router : Router Unit, ∃ given, RouterSetUp () router given ∧
      ∃ served, serve_router (fun _ => []) false router (bytes "/a") (bytes "GET") = some served ∧ served = .unserved ∧
        ¬ContextSelected given (bytes "/a") (Unrouted (fun _ => []) router (bytes "/a") (bytes "GET")) served) := by
  constructor
  · refine ⟨_, _, .call (fun _ => true) (.binary_route (bytes "/logo") (bytes "image/png")) with_static_route_set_up
      rfl, _, rfl, rfl, ?_⟩
    intro hselected
    obtain ⟨_, _, -, -, hcontext⟩ | ⟨honly, -⟩ := hselected.context (.mime_type (bytes "image/png")) rfl
    · cases hcontext
    · cases honly.1
  · refine ⟨_, _, .call (fun _ => true) (.fallback_route (some 1)) .new rfl, _, rfl, rfl, ?_⟩
    intro hselected
    obtain ⟨_, -, hserved⟩ := hselected.fallback ⟨rfl, by rintro ⟨_, _, ⟨⟩, -⟩, rfl⟩
    cases hserved

end uvhttp.static_context
