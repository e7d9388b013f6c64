import Uvhttp.Router.Match
import Uvhttp.Router.Migration

namespace uvhttp.route_params

open http (Method)
open ordered_trie
open router (MAX_ROUTE_PATH_LEN SEGMENT_DATA_SIZE SLASH COLON ArrayRoute Router Target Trie add_to_trie
  node_handler path_segments route_label route_labels serves split_slash stored_label strtok
  uvhttp_method_from_string uvhttp_router_add_route_method uvhttp_router_new)
open router_match (MAX_PARAMS Param ParamNames RouteMatch match_children match_leaf match_route_node node_param
  or_next uvhttp_router_match)

variable {H : Type}

section names

/-- The loop over a parameter token in `uvhttp_router_add_route_method`: the name in
front of a slash, if there is one. -/
def saved_param_name (token : List UInt8) : Option (List UInt8) :=
  if SLASH ∈ token then some ((token.takeWhile (· ≠ SLASH)).take (SEGMENT_DATA_SIZE - 1)) else none

/-- The child that `find_or_create_child` returns, by its position and its children. -/
def child_at : Forest (List UInt8) (Method × H) → List UInt8 → Nat × Forest (List UInt8) (Method × H)
  | .nil, _ => (0, .nil)
  | .cons first _ children siblings, segment =>
    if first.name = segment then (0, children)
    else
      let later := child_at siblings segment
      (later.1 + 1, later.2)

/-- The names in the nodes after the tokens of a registration: the name of a parameter
goes into the node in front of it. -/
def save_param_names (names : ParamNames) (node : List Nat) :
    Forest (List UInt8) (Method × H) → List (List UInt8) → ParamNames
  | _, [] => names
  | children, token :: tokens =>
    let label := route_label token
    let saved :=
      if label.wildcard then
        match saved_param_name label.name with
        | some name => Function.update names node name
        | none => names
      else names
    let child := child_at children label.name
    save_param_names saved (node ++ [child.1]) child.2 tokens

/-- The names after a route is added to the trie. -/
def registered_names (names : ParamNames) (trie : Trie H) (path : List UInt8) : ParamNames :=
  save_param_names names [] trie.children (path_segments path)

theorem mem_strtok {path token : List UInt8} (h : token ∈ strtok path) : token ≠ [] ∧ SLASH ∉ token := by
  obtain ⟨hpiece, hne⟩ := List.mem_filter.mp h
  exact ⟨by simpa using hne, fun hslash => (router.mem_split_slash hpiece hslash).2 rfl⟩

theorem saved_param_name_none {token : List UInt8} (h : SLASH ∉ token) : saved_param_name token = none := if_neg h

/-- A token has no slash, so no name is ever saved. -/
theorem registered_names_eq (names : ParamNames) (trie : Trie H) (path : List UInt8) :
    registered_names names trie path = names := by
  have htokens : ∀ token ∈ path_segments path, SLASH ∉ token := fun token htoken => (mem_strtok htoken).2
  rw [registered_names]
  generalize path_segments path = tokens at htokens
  generalize ([] : List Nat) = node
  generalize trie.children = children
  induction tokens generalizing node children with
  | nil => rfl
  | cons token tokens ih =>
    obtain ⟨hslash, hrest⟩ := List.forall_mem_cons.mp htokens
    have hname : SLASH ∉ (route_label token).name := by
      rw [route_label]
      split
      · exact fun hmem => hslash (List.mem_of_mem_tail hmem)
      · exact hslash
    rw [save_param_names, saved_param_name_none hname]
    simp only [ite_self]
    exact ih hrest _ _

end names

section templates

/-- A segment of a template that is a parameter. -/
def is_param (segment : List UInt8) : Bool := segment.head? = some COLON

/-- The names of the parameters of a template. -/
def template_names (template : List UInt8) : List (List UInt8) :=
  ((strtok template).filter is_param).map List.tail

/-- Segments with the parameters replaced by values in their order. -/
def fill : List (List UInt8) → List (List UInt8) → List (List UInt8)
  | [], _ => []
  | segment :: segments, values =>
    if is_param segment then
      match values with
      | [] => segment :: fill segments []
      | value :: values => value :: fill segments values
    else segment :: fill segments values

/-- The path of a template with the values in place of its parameters. -/
def substitute (template : List UInt8) (values : List (List UInt8)) : List UInt8 :=
  [SLASH].intercalate (fill (split_slash template) values)

theorem split_slash_eq_splitOn (path : List UInt8) : split_slash path = path.splitOn SLASH := by
  induction path with
  | nil => rfl
  | cons c rest ih =>
    rw [split_slash, List.splitOn_cons_eq_if_modifyHead, ih]
    simp only [beq_iff_eq]
    split
    · rfl
    · cases hpieces : rest.splitOn SLASH with
      | nil => exact absurd hpieces (List.splitOn_ne_nil SLASH rest)
      | cons piece pieces => rfl

theorem fill_literal {segment : List UInt8} (h : is_param segment = false) (segments values : List (List UInt8)) :
    fill (segment :: segments) values = segment :: fill segments values := by
  rw [fill.eq_def]
  dsimp only
  rw [if_neg (by rw [h]; exact Bool.false_ne_true)]

theorem fill_param {segment : List UInt8} (h : is_param segment = true) (segments : List (List UInt8))
    (value : List UInt8) (values : List (List UInt8)) :
    fill (segment :: segments) (value :: values) = value :: fill segments values := if_pos h

theorem fill_nil (segments : List (List UInt8)) : fill segments [] = segments := by
  induction segments with
  | nil => rfl
  | cons segment segments ih =>
    cases hparam : is_param segment with
    | true => exact (if_pos hparam).trans (congrArg (segment :: ·) ih)
    | false => rw [fill_literal hparam, ih]

theorem length_piece_le {path piece : List UInt8} (h : piece ∈ split_slash path) : piece.length ≤ path.length := by
  induction path generalizing piece with
  | nil =>
    rw [split_slash, List.mem_singleton] at h
    rw [h]
  | cons c rest ih =>
    rw [split_slash] at h
    split at h
    · obtain rfl | h := List.mem_cons.mp h
      · exact Nat.zero_le _
      · exact (ih h).trans (Nat.le_succ _)
    · split at h
      · rw [List.mem_singleton] at h
        rw [h]
        exact Nat.succ_le_succ (Nat.zero_le _)
      · rename_i head pieces hpieces
        obtain rfl | h := List.mem_cons.mp h
        · exact Nat.succ_le_succ (ih (hpieces ▸ List.mem_cons_self))
        · exact (ih (hpieces ▸ List.mem_cons_of_mem _ h)).trans (Nat.le_succ _)

theorem mem_fill {segments values : List (List UInt8)} {piece : List UInt8} (h : piece ∈ fill segments values) :
    piece ∈ segments ∨ piece ∈ values := by
  induction segments generalizing values with
  | nil => cases h
  | cons segment segments ih =>
    cases hparam : is_param segment with
    | true =>
      cases values with
      | nil =>
        rw [fill_nil] at h
        exact .inl h
      | cons value values =>
        rw [fill_param hparam, List.mem_cons] at h
        obtain rfl | h := h
        · exact .inr List.mem_cons_self
        · exact (ih h).imp (List.mem_cons_of_mem _) (List.mem_cons_of_mem _)
    | false =>
      rw [fill_literal hparam, List.mem_cons] at h
      obtain rfl | h := h
      · exact .inl List.mem_cons_self
      · exact (ih h).imp_left (List.mem_cons_of_mem _)

/-- Every value is in its place. -/
theorem mem_fill_of_mem {segments values : List (List UInt8)} (hcount : values.length ≤ (segments.filter is_param).length)
    {value : List UInt8} (h : value ∈ values) : value ∈ fill segments values := by
  induction segments generalizing values with
  | nil =>
    obtain rfl := List.length_eq_zero_iff.mp (Nat.le_zero.mp hcount)
    cases h
  | cons segment segments ih =>
    cases hparam : is_param segment with
    | true =>
      rw [List.filter_cons_of_pos hparam, List.length_cons] at hcount
      cases values with
      | nil => cases h
      | cons first values =>
        rw [fill_param hparam]
        obtain rfl | h := List.mem_cons.mp h
        · exact List.mem_cons_self
        · exact List.mem_cons_of_mem _ (ih (Nat.le_of_succ_le_succ hcount) h)
    | false =>
      rw [List.filter_cons_of_neg (by rw [hparam]; exact Bool.false_ne_true)] at hcount
      rw [fill_literal hparam]
      exact List.mem_cons_of_mem _ (ih hcount h)

theorem fill_ne_nil {segments : List (List UInt8)} (h : segments ≠ []) (values : List (List UInt8)) :
    fill segments values ≠ [] := by
  cases segments with
  | nil => exact absurd rfl h
  | cons segment segments =>
    cases hparam : is_param segment with
    | true =>
      cases values with
      | nil =>
        rw [fill_nil]
        exact List.cons_ne_nil _ _
      | cons value values =>
        rw [fill_param hparam]
        exact List.cons_ne_nil _ _
    | false =>
      rw [fill_literal hparam]
      exact List.cons_ne_nil _ _

theorem fill_literals {segments : List (List UInt8)} (h : segments.filter is_param = []) (values : List (List UInt8)) :
    fill segments values = segments := by
  induction segments with
  | nil => rfl
  | cons segment segments ih =>
    obtain ⟨hsegment, hrest⟩ := List.forall_mem_cons.mp (List.filter_eq_nil_iff.mp h)
    rw [fill_literal (by simpa using hsegment), ih (List.filter_eq_nil_iff.mpr hrest)]

theorem is_param_ne_nil {segment : List UInt8} (h : is_param segment = true) : segment ≠ [] := by
  rintro rfl
  cases h

/-- Empty segments stay where they are. -/
theorem filter_fill {segments values : List (List UInt8)} (hvalues : ∀ value ∈ values, value ≠ []) :
    (fill segments values).filter (· ≠ []) = fill (segments.filter (· ≠ [])) values := by
  induction segments generalizing values with
  | nil => rfl
  | cons segment segments ih =>
    cases hparam : is_param segment with
    | true =>
      cases values with
      | nil => rw [fill_nil, fill_nil]
      | cons value values =>
        obtain ⟨hvalue, hrest⟩ := List.forall_mem_cons.mp hvalues
        rw [fill_param hparam, List.filter_cons_of_pos (by simpa using hvalue), ih hrest,
          List.filter_cons_of_pos (by simpa using is_param_ne_nil hparam), fill_param hparam]
    | false =>
      rw [fill_literal hparam]
      by_cases hempty : segment = []
      · rw [List.filter_cons_of_neg (by simpa using hempty), List.filter_cons_of_neg (by simpa using hempty),
          ih hvalues]
      · rw [List.filter_cons_of_pos (by simpa using hempty), List.filter_cons_of_pos (by simpa using hempty),
          ih hvalues, fill_literal hparam]

theorem strtok_substitute {template : List UInt8} {values : List (List UInt8)}
    (hvalues : ∀ value ∈ values, value ≠ [] ∧ SLASH ∉ value) :
    strtok (substitute template values) = fill (strtok template) values := by
  have hslash : ∀ piece ∈ fill (split_slash template) values, SLASH ∉ piece := by
    intro piece hpiece hmem
    obtain hpiece | hpiece := mem_fill hpiece
    · exact (router.mem_split_slash hpiece hmem).2 rfl
    · exact (hvalues piece hpiece).2 hmem
  have hne := fill_ne_nil (router.split_slash_ne_nil template) values
  rw [strtok, substitute, split_slash_eq_splitOn, List.splitOn_intercalate SLASH hslash hne, strtok]
  exact filter_fill fun value hvalue => (hvalues value hvalue).1

/-- A template without parameters is its own path. -/
theorem substitute_literal {template : List UInt8} (h : template_names template = []) (values : List (List UInt8)) :
    substitute template values = template := by
  have hpieces : (split_slash template).filter is_param = [] := by
    rw [List.filter_eq_nil_iff]
    intro piece hpiece hparam
    have htoken : piece ∈ (strtok template).filter is_param :=
      List.mem_filter.mpr ⟨List.mem_filter.mpr ⟨hpiece, by simpa using is_param_ne_nil hparam⟩, hparam⟩
    rw [List.map_eq_nil_iff.mp h] at htoken
    cases htoken
  rw [substitute, fill_literals hpieces, split_slash_eq_splitOn, List.intercalate_splitOn]

end templates

section matching

variable {handler : H} {route_method method : Method}

theorem add_param_results {m : RouteMatch H} (hparams : m.params.length = MAX_PARAMS)
    (hroom : m.param_count < MAX_PARAMS) (param : Param) :
    ∃ m', m.add_param param = some m' ∧ m'.params.length = MAX_PARAMS ∧ m'.param_count = m.param_count + 1 ∧
      m'.results = m.results ++ [param] := by
  refine ⟨_, if_pos hroom, ?_, rfl, ?_⟩
  · dsimp only
    rw [List.length_set, hparams]
  · rw [RouteMatch.results, RouteMatch.results, List.set_eq_take_append_cons_drop, if_pos (hparams ▸ hroom),
      List.take_append, List.length_take, Nat.min_eq_left (Nat.le_of_lt (hparams ▸ hroom)), Nat.add_sub_cancel_left,
      List.take_take, Nat.min_eq_right (Nat.le_succ _)]
    rfl

/-- Results of a search that goes on with some of the values. -/
def Extracts (handler : H) (values : List (List UInt8)) (m : RouteMatch H)
    (result : Option (Bool × RouteMatch H)) : Prop :=
  ∃ m', result = some (true, m') ∧ m'.handler = some (.handler handler) ∧
    m'.results = m.results ++ values.map (Param.mk [])

/-- The only child of a node: a parameter takes the first value, a literal takes its own
segment. -/
inductive TakesChild : List UInt8 → List UInt8 → List (List UInt8) → List (List UInt8) → Prop where
  | param {token segment : List UInt8} {values : List (List UInt8)} (hparam : is_param token = true)
      (hshort : segment.length < router_match.MAX_PARAM_VALUE_LEN) :
      TakesChild token segment (segment :: values) values
  | literal {token : List UInt8} {values : List (List UInt8)} (hliteral : is_param token = false)
      (hshort : token.length < SEGMENT_DATA_SIZE) : TakesChild token token values values

theorem extracts_child {token segment : List UInt8} {values later : List (List UInt8)}
    (htakes : TakesChild token segment values later) {match_child rest : RouteMatch H → Option (Bool × RouteMatch H)}
    (hchild : ∀ m : RouteMatch H, m.params.length = MAX_PARAMS → m.param_count + later.length ≤ MAX_PARAMS →
      Extracts handler later m (match_child m))
    {m : RouteMatch H} (hparams : m.params.length = MAX_PARAMS) (hroom : m.param_count + values.length ≤ MAX_PARAMS) :
    Extracts handler values m (or_next
      (router_match.try_child (stored_label (route_label token)) (node_param [] segment) segment match_child m)
      rest) := by
  cases htakes with
  | param hparam hshort =>
    have hwildcard : (stored_label (route_label token)).wildcard = true := by
      rw [route_label, if_pos (by simpa [is_param] using hparam), stored_label]
      split
      · rfl
      · rfl
    have hvalue : node_param [] segment = ⟨[], segment⟩ := by
      rw [node_param, List.take_of_length_le (Nat.le_sub_one_of_lt hshort)]
      rfl
    rw [List.length_cons] at hroom
    obtain ⟨m', hadd, hparams', hcount, hresults⟩ := add_param_results hparams (by omega) ⟨[], segment⟩
    obtain ⟨final, hfinal, hhandler, hextracted⟩ := hchild m' hparams' (by omega)
    refine ⟨final, ?_, hhandler, ?_⟩
    · rw [router_match.try_child, if_pos hwildcard, hvalue, hadd]
      dsimp only
      rw [hfinal]
      rfl
    · rw [hextracted, hresults, List.append_assoc]
      rfl
  | literal hliteral hshort =>
    have hlabel : stored_label (route_label token) = ⟨token, false⟩ := by
      rw [route_label, if_neg (by simpa [is_param] using hliteral), stored_label, if_pos hshort]
    obtain ⟨final, hfinal, hhandler, hextracted⟩ := hchild m hparams hroom
    refine ⟨final, ?_, hhandler, hextracted⟩
    rw [router_match.try_child, hlabel, if_neg Bool.false_ne_true, if_pos rfl, hfinal]
    rfl

/-- The first of some filled tokens. -/
theorem takes_child {token segment : List UInt8} {tokens segments values : List (List UInt8)}
    (hliteral : is_param token = false → token.length < SEGMENT_DATA_SIZE)
    (hvalues : values.length = ((token :: tokens).filter is_param).length)
    (hshort : ∀ value ∈ values, value.length < router_match.MAX_PARAM_VALUE_LEN)
    (hfill : fill (token :: tokens) values = segment :: segments) :
    ∃ later, TakesChild token segment values later ∧ fill tokens later = segments ∧
      later.length = (tokens.filter is_param).length ∧
      ∀ value ∈ later, value.length < router_match.MAX_PARAM_VALUE_LEN := by
  cases hparam : is_param token with
  | true =>
    rw [List.filter_cons_of_pos hparam, List.length_cons] at hvalues
    cases values with
    | nil => cases hvalues
    | cons value values =>
      rw [fill_param hparam, List.cons.injEq] at hfill
      obtain ⟨rfl, hrest⟩ := hfill
      obtain ⟨hvalue, hlater⟩ := List.forall_mem_cons.mp hshort
      exact ⟨values, .param hparam hvalue, hrest, Nat.succ.inj hvalues, hlater⟩
  | false =>
    rw [List.filter_cons_of_neg (by rw [hparam]; exact Bool.false_ne_true)] at hvalues
    rw [fill_literal hparam, List.cons.injEq] at hfill
    obtain ⟨rfl, hrest⟩ := hfill
    exact ⟨values, .literal hparam (hliteral hparam), hrest, hvalues, hshort⟩

/-- The search along the branch of a single route, without names in the nodes. -/
theorem extracts_chain (hserves : serves route_method method = true) {token : List UInt8}
    {tokens values : List (List UInt8)}
    (hliterals : ∀ t ∈ token :: tokens, is_param t = false → t.length < SEGMENT_DATA_SIZE)
    (hvalues : values.length = ((token :: tokens).filter is_param).length)
    (hshort : ∀ value ∈ values, value.length < router_match.MAX_PARAM_VALUE_LEN) {m : RouteMatch H}
    (hparams : m.params.length = MAX_PARAMS) (hroom : m.param_count + values.length ≤ MAX_PARAMS)
    {segment : List UInt8} {segments : List (List UInt8)} (hfill : fill (token :: tokens) values = segment :: segments)
    (node : List Nat) (i : Nat) :
    Extracts handler values m (match_children (fun _ => []) method
      (Forest.chain stored_label (route_method, handler) (route_label token) (tokens.map route_label))
      node i segment segments m) := by
  induction tokens generalizing token values m segment segments node i with
  | nil =>
    obtain ⟨hliteral, -⟩ := List.forall_mem_cons.mp hliterals
    obtain ⟨later, htakes, hrest, hlater, -⟩ := takes_child hliteral hvalues hshort hfill
    obtain rfl := List.length_eq_zero_iff.mp hlater
    obtain rfl : segments = [] := hrest.symm
    refine extracts_child htakes (fun m _ _ => ?_) hparams hroom
    refine ⟨m.set_handler (.handler handler), ?_, rfl, (List.append_nil _).symm⟩
    have hserved : node_handler method (route_method, handler) = some handler := if_pos hserves
    simp [match_leaf, hserved]
  | cons next tokens ih =>
    obtain ⟨hliteral, hmore⟩ := List.forall_mem_cons.mp hliterals
    obtain ⟨later, htakes, hrest, hlater, hlong⟩ := takes_child hliteral hvalues hshort hfill
    obtain ⟨following, others, hsegments⟩ := List.exists_cons_of_ne_nil (fill_ne_nil (List.cons_ne_nil next tokens) later)
    rw [hsegments] at hrest
    subst hrest
    exact extracts_child htakes (fun m hparams hroom => ih hmore hlater hlong hparams hroom hsegments (node ++ [i]) 0)
      hparams hroom

end matching

section registration

variable {alloc : Nat → Bool} {router : Router H} {template : List UInt8} {route_method : Method} {handler : H}

/-- A template that is the only route of a router: without a colon it is in the array,
and else it is the only branch of the trie. -/
inductive OnlyRoute (template : List UInt8) (route_method : Method) (handler : H) : Router H → Prop where
  | array {router : Router H} (hmode : router.use_trie = false) (hstatic : Router.static_prefix router = none)
      (harray : router.array_routes = .routes [⟨template, route_method, handler⟩]) (hfree : COLON ∉ template) :
      OnlyRoute template route_method handler router
  | trie {router : Router H} (hmode : router.use_trie = true) (harray : router.array_routes = .routes [])
      (hroot : strtok template = [] → router.trie.root = some (route_method, handler))
      (hchain : ∀ token tokens, strtok template = token :: tokens → router.trie.children =
        Forest.chain stored_label (route_method, handler) (route_label token) (tokens.map route_label)) :
      OnlyRoute template route_method handler router

theorem path_segments_short {path : List UInt8} (h : path.length < MAX_ROUTE_PATH_LEN) :
    path_segments path = strtok path := by
  rw [path_segments, uvhttp.router.path_copy, List.take_of_length_le (Nat.le_sub_one_of_lt h)]

theorem only_route
    (h : uvhttp_router_add_route_method alloc uvhttp_router_new template route_method (some handler) =
      some (.OK, router)) : OnlyRoute template route_method handler router := by
  generalize hresult : (UvhttpError.OK, router) = result at h
  cases uvhttp.router.registered_of_call h with
  | rejected hinvalid => cases hresult
  | trie hvalid hmode => cases hmode
  | stranded hvalid hmode harray hmigrates hfull => cases hresult
  | @migrated _ hvalid hmode entries harray hmigrates hroom =>
    cases harray
    rw [uvhttp.router.add_trie_route, Prod.mk.injEq] at hresult
    obtain ⟨hok, rfl⟩ := hresult
    have hadded : (add_to_trie alloc (route_method, handler) (uvhttp_router_new : Router H).trie template).2 = true := by
      by_contra hfull
      cases hok.trans (if_neg hfull)
    have hlabels : route_labels template = (strtok template).map route_label := by
      rw [route_labels, path_segments_short hvalid.length]
    refine .trie rfl rfl (fun hempty => ?_) fun token tokens htokens => ?_
    · change (add_to_trie alloc (route_method, handler) (uvhttp_router_new : Router H).trie template).1.root = _
      rw [add_to_trie, hlabels, hempty]
      rfl
    · change (add_to_trie alloc (route_method, handler) (uvhttp_router_new : Router H).trie template).1.children = _
      rw [add_to_trie, hlabels, htokens] at hadded ⊢
      exact uvhttp.router.insert_path_eq hadded
  | @array _ hvalid hmode entries harray hstays =>
    cases harray
    cases hresult
    refine .array rfl rfl ?_ fun hcolon => hstays (.inl hcolon)
    rw [List.take_of_length_le (Nat.le_sub_one_of_lt hvalid.length)]
    rfl

end registration

section extraction

variable {router : Router H} {template : List UInt8} {route_method : Method} {handler : H} {path request : List UInt8}
  {values : List (List UInt8)}

/-- What `uvhttp_router_match` finds on a path of the only route: the values in their
order, without names. -/
theorem match_only_route (hroute : OnlyRoute template route_method handler router)
    (hserves : serves route_method (uvhttp_method_from_string request) = true)
    (hliterals : ∀ token ∈ strtok template, is_param token = false → token.length < SEGMENT_DATA_SIZE)
    (hvalues : values.length = (template_names template).length)
    (hfilled : ∀ value ∈ values, value ≠ [] ∧ SLASH ∉ value) (hroom : values.length ≤ MAX_PARAMS)
    (hlength : (substitute template values).length < MAX_ROUTE_PATH_LEN) :
    ∃ m, uvhttp_router_match (fun _ => []) router (substitute template values) request = some (.OK, m) ∧
      m.handler = some (.handler handler) ∧ m.results = values.map (Param.mk []) := by
  have hsegments : path_segments (substitute template values) = fill (strtok template) values := by
    rw [path_segments_short hlength, strtok_substitute hfilled]
  have hcount : values.length = ((strtok template).filter is_param).length := by
    rw [hvalues, template_names, List.length_map]
  cases hroute with
  | array hmode hstatic harray hfree =>
    have hnames : template_names template = [] := by
      rw [template_names, List.map_eq_nil_iff, List.filter_eq_nil_iff]
      intro token htoken hparam
      obtain ⟨hpiece, -⟩ := List.mem_filter.mp htoken
      have hcolon : COLON ∈ token := List.mem_of_mem_head? (by simpa [is_param] using hparam)
      exact hfree (uvhttp.router.mem_split_slash hpiece hcolon).1
    obtain rfl : values = [] := List.length_eq_zero_iff.mp (by rw [hvalues, hnames, List.length_nil])
    rw [substitute_literal hnames, uvhttp_router_match, hmode, uvhttp.router.static_covers, hstatic, harray]
    refine ⟨RouteMatch.zero.set_handler (.handler handler), ?_, rfl, rfl⟩
    simp [uvhttp.router.find_array_route, hserves]
  | trie hmode harray hroot hchain =>
    have hfast : router_match.fast_find router (substitute template values) request = some none := by
      rw [router_match.fast_find, harray]
      split
      · rfl
      · rfl
    have hfound : Extracts handler values .zero (match_route_node (fun _ => []) router.trie
        (fill (strtok template) values) (uvhttp_method_from_string request) .zero) := by
      cases htokens : strtok template with
      | nil =>
        rw [htokens] at hcount
        obtain rfl := List.length_eq_zero_iff.mp hcount
        refine ⟨RouteMatch.zero.set_handler (.handler handler), ?_, rfl, rfl⟩
        have hserved : node_handler (uvhttp_method_from_string request) (route_method, handler) = some handler :=
          if_pos hserves
        simp [fill_nil, match_route_node, match_leaf, hroot htokens, hserved]
      | cons token tokens =>
        obtain ⟨segment, segments, hfill⟩ :=
          List.exists_cons_of_ne_nil (fill_ne_nil (List.cons_ne_nil token tokens) values)
        have hshort : ∀ value ∈ values, value.length < router_match.MAX_PARAM_VALUE_LEN := by
          intro value hvalue
          have htoken : value ∈ strtok (substitute template values) := by
            rw [strtok_substitute hfilled]
            exact mem_fill_of_mem hcount.le hvalue
          exact (length_piece_le (List.mem_filter.mp htoken).1).trans_lt hlength
        rw [hfill, match_route_node, hchain token tokens htokens]
        exact extracts_chain hserves (htokens ▸ hliterals) (htokens ▸ hcount) hshort rfl
          ((Nat.zero_add _).trans_le hroom) hfill [] 0
    obtain ⟨m, hmatch, hhandler, hresults⟩ := hfound
    refine ⟨m, ?_, hhandler, hresults⟩
    rw [uvhttp_router_match, hmode, hfast, hsegments, hmatch]
    rfl

theorem zip_names_iff {names values : List (List UInt8)} (h : values.length = names.length) :
    List.zipWith Param.mk names values = values.map (Param.mk []) ↔ ∀ name ∈ names, name = [] := by
  induction names generalizing values with
  | nil =>
    obtain rfl := List.length_eq_zero_iff.mp h
    simp
  | cons name names ih =>
    cases values with
    | nil => cases h
    | cons value values =>
      rw [List.zipWith_cons_cons, List.map_cons, List.cons.injEq, ih (Nat.succ.inj h), List.forall_mem_cons]
      simp

end extraction

/-- When the only route of a router gives its parameters with their names. -/
theorem params_by_name_iff {alloc : Nat → Bool} {router : Router H} {template : List UInt8} {route_method : Method}
    {handler : H}
    (hadd : uvhttp_router_add_route_method alloc uvhttp_router_new template route_method (some handler) =
      some (.OK, router))
    (hliterals : ∀ token ∈ strtok template, is_param token = false → token.length < SEGMENT_DATA_SIZE)
    (hcount : (template_names template).length ≤ MAX_PARAMS) {request : List UInt8}
    (hserves : serves route_method (uvhttp_method_from_string request) = true) {values : List (List UInt8)}
    (hvalues : values.length = (template_names template).length)
    (hfilled : ∀ value ∈ values, value ≠ [] ∧ SLASH ∉ value)
    (hlength : (substitute template values).length < MAX_ROUTE_PATH_LEN) :
    (∃ m, uvhttp_router_match (registered_names (fun _ => []) (uvhttp_router_new : Router H).trie template) router
        (substitute template values) request = some (.OK, m) ∧
      m.results = List.zipWith Param.mk (template_names template) values) ↔
      ∀ name ∈ template_names template, name = [] := by
  obtain ⟨m, hmatch, -, hresults⟩ := match_only_route (only_route hadd) hserves hliterals hvalues hfilled
    (hvalues.trans_le hcount) hlength
  rw [registered_names_eq, hmatch, ← zip_names_iff hvalues]
  constructor
  · rintro ⟨_, ⟨⟩, hextracted⟩
    exact hextracted.symm.trans hresults
  · intro hnames
    exact ⟨m, rfl, hresults.trans hnames.symm⟩

/-- The router with one route for users. -/
def users_router (template : List UInt8) : Option (UvhttpError × Router Unit) :=
  uvhttp_router_add_route_method (fun _ => true) uvhttp_router_new template .GET (some ())

theorem params_by_name_unnamed : ∃ router, users_router (bytes "/u/:") = some (.OK, router) ∧
    ∃ m, uvhttp_router_match (registered_names (fun _ => []) (uvhttp_router_new : Router Unit).trie (bytes "/u/:"))
        router (substitute (bytes "/u/:") [bytes "7"]) (bytes "GET") = some (.OK, m) ∧
      m.results = List.zipWith Param.mk (template_names (bytes "/u/:")) [bytes "7"] := by
  refine ⟨_, rfl, ?_⟩
  exact (@params_by_name_iff Unit (fun _ => true) _ (bytes "/u/:") .GET () rfl (by decide) (by decide) (bytes "GET")
    (by decide) [bytes "7"] rfl (by decide) (by decide)).mpr (by decide)

/-- The name of a parameter is not in the result. -/
theorem params_without_name : ∃ router, users_router (bytes "/u/:id") = some (.OK, router) ∧
    ¬∃ m, uvhttp_router_match (registered_names (fun _ => []) (uvhttp_router_new : Router Unit).trie (bytes "/u/:id"))
        router (substitute (bytes "/u/:id") [bytes "7"]) (bytes "GET") = some (.OK, m) ∧
      m.results = List.zipWith Param.mk (template_names (bytes "/u/:id")) [bytes "7"] := by
  refine ⟨_, rfl, ?_⟩
  rintro ⟨_, ⟨⟩, hresults⟩
  exact absurd hresults (by decide)

end uvhttp.route_params
