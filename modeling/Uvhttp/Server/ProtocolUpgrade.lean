import Uvhttp.Http.Response
import Uvhttp.Lib.ForwardList
import Uvhttp.WebSocket.Handshake

open forward_list
open uvhttp.http (strcasecmp)
open uvhttp.websocket (tolower)

namespace uvhttp.server

/-- A `uvhttp_protocol_detector_t`, given the values of the Upgrade and the Connection
header. What it reads and writes besides, the request, the name it reports and the
data of the application, is a state. -/
def Detector (σ : Type) := List UInt8 → Option (List UInt8) → σ → Bool × σ

/-- A `uvhttp_protocol_upgrade_handler_t`, given the user data. -/
def UpgradeHandler (σ : Type) := Nat → σ → UvhttpError × σ

/-- `uvhttp_protocol_info_t`; a string is its characters before the NUL. -/
structure ProtocolInfo (σ : Type) where
  name : List UInt8
  upgrade_header : List UInt8
  detector : Detector σ
  handler : UpgradeHandler σ
  user_data : Nat

/-- `uvhttp_protocol_registry_t`. -/
structure ProtocolRegistry (σ : Type) where
  protocols : Chain (ProtocolInfo σ)
  protocol_count : UInt64

variable {σ : Type}

def registry_new : ProtocolRegistry σ := ⟨⟨fun _ => none, none⟩, 0⟩

/-- The arguments of `uvhttp_server_register_protocol_upgrade`, and how its two
allocations go. -/
structure Registration (σ : Type) where
  protocol_name : Option (List UInt8)
  upgrade_header : Option (List UInt8)
  detector : Option (Detector σ)
  handler : Option (UpgradeHandler σ)
  user_data : Nat
  registry_alloc : Bool
  info_alloc : Allocator (ProtocolInfo σ)

/-- The loop that writes a string in lower case into a buffer of `size` bytes. -/
def normalized (size : Nat) (text : List UInt8) : List UInt8 := (text.take (size - 1)).map tolower

section registration

variable (fuel : Nat)

/-- What `uvhttp_server_register_protocol_upgrade` does once its parameters are
checked and there is a registry. -/
def register_in (r : Registration σ) (protocol_name : List UInt8) (detector : Detector σ) (handler : UpgradeHandler σ)
    (registry : ProtocolRegistry σ) : Option (UvhttpError × Option (ProtocolRegistry σ)) := do
  let existing ←
    registry.protocols.find (fun info => strcasecmp info.name protocol_name) fuel registry.protocols.head
  if existing.isSome then some (.ALREADY_EXISTS, some registry)
  else if registry.protocol_count ≥ 10 then some (.INVALID_PARAM, some registry)
  else
    match r.info_alloc.alloc registry.protocols.cells with
    | none => some (.OUT_OF_MEMORY, some registry)
    | some p =>
      let info := {
        name := normalized 32 protocol_name
        upgrade_header := normalized 64 (r.upgrade_header.getD [])
        detector, handler
        user_data := r.user_data }
      some (.OK, some
        { protocols := registry.protocols.push p info
          protocol_count := registry.protocol_count + 1 })

def uvhttp_server_register_protocol_upgrade (registry : Option (ProtocolRegistry σ)) (r : Registration σ) :
    Option (UvhttpError × Option (ProtocolRegistry σ)) :=
  match r.protocol_name, r.detector, r.handler with
  | some protocol_name, some detector, some handler =>
    if protocol_name.length ≥ 32 then some (.INVALID_PARAM, registry)
    else if (r.upgrade_header.getD []).length ≥ 64 then some (.INVALID_PARAM, registry)
    else if registry.isNone && !r.registry_alloc then some (.OUT_OF_MEMORY, registry)
    else register_in fuel r protocol_name detector handler (registry.getD registry_new)
  | _, _, _ => some (.INVALID_PARAM, registry)

def uvhttp_server_unregister_protocol_upgrade (registry : Option (ProtocolRegistry σ))
    (protocol_name : Option (List UInt8)) : Option (UvhttpError × Option (ProtocolRegistry σ)) :=
  match protocol_name, registry with
  | none, _ => some (.INVALID_PARAM, registry)
  | some _, none => some (.NOT_FOUND, none)
  | some protocol_name, some r => do
    let (protocols, gone) ←
      r.protocols.take_out (fun info => strcasecmp info.name protocol_name) fuel none r.protocols.head
    match gone with
    | none => some (.NOT_FOUND, some { r with protocols })
    | some _ => some (.OK, some { protocols, protocol_count := r.protocol_count - 1 })

/-- A call that works on the registry of the server. -/
inductive RegistryCall (σ : Type) where
  | register (r : Registration σ)
  | unregister (protocol_name : Option (List UInt8))

def registry_step (registry : Option (ProtocolRegistry σ)) :
    RegistryCall σ → Option (UvhttpError × Option (ProtocolRegistry σ))
  | .register r => uvhttp_server_register_protocol_upgrade fuel registry r
  | .unregister protocol_name => uvhttp_server_unregister_protocol_upgrade fuel registry protocol_name

end registration

/-- What the dispatch does: it calls the handler of a protocol, or responds. -/
inductive UpgradeEvent (σ : Type) where
  | handler (info : ProtocolInfo σ) (s : σ)
  | respond (status : Nat) (content_type body : List UInt8)

/-- What the dispatch did, whether the request goes on to the router, and the state. -/
structure Upgrade (σ : Type) where
  events : List (UpgradeEvent σ)
  routed : Bool
  state : σ

/-- The protocols whose handler is called. -/
def Upgrade.handlers (u : Upgrade σ) : List (ProtocolInfo σ) :=
  u.events.filterMap fun event =>
    match event with
    | .handler info _ => some info
    | .respond .. => none

/-- The call of the handler, and the response if it fails. -/
def upgrade_to (proto : ProtocolInfo σ) (s : σ) : Upgrade σ :=
  let (result, t) := proto.handler proto.user_data s
  { events := .handler proto s ::
      if result = .OK then [] else [.respond 400 (bytes "text/plain") (bytes "Protocol upgrade failed")]
    routed := false
    state := t }

section dispatch

variable (fuel : Nat) (upgrade_header : List UInt8) (connection_header : Option (List UInt8))

/-- The branch for one protocol. -/
def upgrade_single (registry : ProtocolRegistry σ) (s : σ) : Option (Upgrade σ) :=
  match registry.protocols.head with
  | none => some ⟨[], true, s⟩
  | some p => do
    let cell ← registry.protocols.cells p
    let proto := cell.data
    if proto.upgrade_header ≠ [] then
      if !strcasecmp upgrade_header proto.upgrade_header then some ⟨[], true, s⟩
      else
        match proto.detector upgrade_header connection_header s with
        | (true, s) => some (upgrade_to proto s)
        | (false, s) => some ⟨[], true, s⟩
    else
      match proto.detector upgrade_header connection_header s with
      | (true, s) => some (upgrade_to proto s)
      | (false, s) => some ⟨[], true, s⟩

/-- The test of a protocol in the loop. -/
def detects (proto : ProtocolInfo σ) (s : σ) : Bool × σ :=
  if proto.upgrade_header ≠ [] && !strcasecmp upgrade_header proto.upgrade_header then (false, s)
  else proto.detector upgrade_header connection_header s

/-- The loop over the protocols. -/
def upgrade_loop (registry : ProtocolRegistry σ) (s : σ) : Option (Upgrade σ) := do
  let (accepted, s) ←
    registry.protocols.seek (detects upgrade_header connection_header) fuel registry.protocols.head s
  match accepted with
  | none => some ⟨[], true, s⟩
  | some proto => some (upgrade_to proto s)

/-- The part of `on_message_complete` for a request with an Upgrade header. -/
def upgrade_request (registry : Option (ProtocolRegistry σ)) (s : σ) : Option (Upgrade σ) :=
  match registry with
  | none => some ⟨[], true, s⟩
  | some registry =>
    if registry.protocol_count = 1 then upgrade_single upgrade_header connection_header registry s
    else upgrade_loop fuel upgrade_header connection_header registry s

end dispatch

/-- The registry is made of these protocols, and its counter is their number. -/
def RegistryLists (registry : Option (ProtocolRegistry σ)) (infos : List (ProtocolInfo σ)) : Prop :=
  match registry with
  | none => infos = []
  | some r => r.protocols.Represents infos ∧ r.protocol_count.toNat = infos.length

/-- What a call does to the protocols, the latest first: a registration puts its
protocol before them, an unregistration takes out the protocol of the name, and a
failed call changes nothing. -/
def RegistryCall.Exact (code : UvhttpError) (infos infos' : List (ProtocolInfo σ)) (call : RegistryCall σ) : Prop :=
  (code ≠ .OK → infos' = infos) ∧
  (code = .OK →
    match call with
    | .register r => ∃ name detector handler, r.protocol_name = some name ∧ r.detector = some detector ∧
        r.handler = some handler ∧ infos' =
          ⟨name.map tolower, (r.upgrade_header.getD []).map tolower, detector, handler, r.user_data⟩ :: infos
    | .unregister protocol_name => ∃ name before info after, protocol_name = some name ∧
        infos = before ++ info :: after ∧ strcasecmp info.name name = true ∧ infos' = before ++ after)

section selection

variable (upgrade_header : List UInt8) (connection_header : Option (List UInt8))

/-- The upgrade token of the protocol is empty or equals the header ignoring case. -/
def ProtocolInfo.TokenFits (info : ProtocolInfo σ) : Prop :=
  info.upgrade_header = [] ∨ strcasecmp upgrade_header info.upgrade_header = true

/-- None of the protocols takes the request: the token does not fit, or the detector,
called in this order, refuses. -/
def Refused : List (ProtocolInfo σ) → σ → σ → Prop
  | [], s, t => t = s
  | info :: infos, s, t =>
    (¬info.TokenFits upgrade_header ∧ Refused infos s t) ∨
    (info.TokenFits upgrade_header ∧
      ∃ u, info.detector upgrade_header connection_header s = (false, u) ∧ Refused infos u t)

/-- The handler of the first protocol whose token fits and whose detector accepts is
called, and no other; without one the request is routed. -/
def Selected (infos : List (ProtocolInfo σ)) (s : σ) (u : Upgrade σ) : Prop :=
  (∃ refused chosen rest t t', infos = refused ++ chosen :: rest ∧
    Refused upgrade_header connection_header refused s t ∧ chosen.TokenFits upgrade_header ∧
    chosen.detector upgrade_header connection_header t = (true, t') ∧ u = upgrade_to chosen t' ∧
    u.handlers = [chosen]) ∨
  (Refused upgrade_header connection_header infos s u.state ∧ u.events = [] ∧ u.handlers = [] ∧ u.routed = true)

end selection

/-- The registered protocols differ in their names, are at most ten, and a request is
dispatched to the one it is for; the branch for one protocol is the loop on it. -/
structure RegistryExact (fuel : Nat) (registry : Option (ProtocolRegistry σ)) (infos : List (ProtocolInfo σ)) :
    Prop where
  lists : RegistryLists registry infos
  distinct : infos.Pairwise fun a b => strcasecmp a.name b.name = false
  bounded : infos.length ≤ 10
  dispatch : ∀ upgrade_header connection_header s, ∃ u,
    upgrade_request fuel upgrade_header connection_header registry s = some u ∧
    Selected upgrade_header connection_header infos s u
  single : ∀ r ∈ registry, infos.length = 1 → ∀ upgrade_header connection_header s,
    upgrade_single upgrade_header connection_header r s = upgrade_loop fuel upgrade_header connection_header r s

/-- Every call returns and does what it is for, and the registry is as it should be
before and after. -/
def RegistryRun (fuel : Nat) : Option (ProtocolRegistry σ) → List (ProtocolInfo σ) → List (RegistryCall σ) → Prop
  | registry, infos, [] => RegistryExact fuel registry infos
  | registry, infos, call :: calls =>
    RegistryExact fuel registry infos ∧
    ∃ code registry' infos', registry_step fuel registry call = some (code, registry') ∧
      call.Exact code infos infos' ∧ RegistryRun fuel registry' infos' calls

section dispatching

variable {fuel : Nat} {upgrade_header : List UInt8} {connection_header : Option (List UInt8)}

theorem token_fits_iff {info : ProtocolInfo σ} : info.TokenFits upgrade_header ↔
    ¬(info.upgrade_header ≠ [] && !strcasecmp upgrade_header info.upgrade_header) = true := by
  simp only [ProtocolInfo.TokenFits, ne_eq, decide_not, Bool.and_eq_true, Bool.not_eq_true', decide_eq_false_iff_not,
    not_and, Bool.not_eq_false, Decidable.or_iff_not_imp_left]

/-- The loop over the protocols as a list. -/
theorem seek_selected (infos : List (ProtocolInfo σ)) (s : σ) :
    match seek (detects upgrade_header connection_header) infos s with
    | (some chosen, t') => ∃ refused rest t, infos = refused ++ chosen :: rest ∧
        Refused upgrade_header connection_header refused s t ∧ chosen.TokenFits upgrade_header ∧
        chosen.detector upgrade_header connection_header t = (true, t')
    | (none, t) => Refused upgrade_header connection_header infos s t := by
  induction infos generalizing s with
  | nil => rfl
  | cons info infos ih =>
    rw [seek, detects]
    by_cases hfits : info.TokenFits upgrade_header
    · rw [if_neg (token_fits_iff.mp hfits)]
      cases hdetector : info.detector upgrade_header connection_header s with
      | mk accepted u =>
        cases accepted with
        | true => exact ⟨[], infos, s, rfl, rfl, hfits, hdetector⟩
        | false =>
          have hlater := ih u
          dsimp only
          split at hlater
          · next chosen t' _ =>
            obtain ⟨refused, rest, t, hsplit, hrefused, haccepted⟩ := hlater
            refine ⟨info :: refused, rest, t, ?_, Or.inr ⟨hfits, u, hdetector, hrefused⟩, haccepted⟩
            rw [hsplit, List.cons_append]
          · next t _ =>
            exact Or.inr ⟨hfits, u, hdetector, hlater⟩
    · rw [if_pos (not_not.mp (mt token_fits_iff.mpr hfits))]
      have hlater := ih s
      dsimp only
      split at hlater
      · next chosen t' _ =>
        obtain ⟨refused, rest, t, hsplit, hrefused, haccepted⟩ := hlater
        refine ⟨info :: refused, rest, t, ?_, Or.inl ⟨hfits, hrefused⟩, haccepted⟩
        rw [hsplit, List.cons_append]
      · next t _ =>
        exact Or.inl ⟨hfits, hlater⟩

theorem upgrade_to_handlers (proto : ProtocolInfo σ) (s : σ) : (upgrade_to proto s).handlers = [proto] := by
  rw [upgrade_to, Upgrade.handlers]
  dsimp only
  split_ifs with hresult
  · rfl
  · rfl

theorem upgrade_loop_selected {r : ProtocolRegistry σ} {infos : List (ProtocolInfo σ)}
    (h : r.protocols.Represents infos) (hfuel : infos.length ≤ fuel) (s : σ) :
    ∃ u, upgrade_loop fuel upgrade_header connection_header r s = some u ∧
      Selected upgrade_header connection_header infos s u := by
  have hselected := @seek_selected σ upgrade_header connection_header infos s
  simp only [upgrade_loop, h.seek _ hfuel, Option.bind_eq_bind, Option.bind_some]
  split at hselected
  · next chosen t' hseek =>
    rw [hseek]
    obtain ⟨refused, rest, t, hsplit, hrefused, hfits, haccepts⟩ := hselected
    exact ⟨_, rfl, Or.inl ⟨refused, chosen, rest, t, t', hsplit, hrefused, hfits, haccepts, rfl,
      upgrade_to_handlers chosen t'⟩⟩
  · next t hseek =>
    rw [hseek]
    exact ⟨_, rfl, Or.inr ⟨hselected, rfl, rfl, rfl⟩⟩

/-- On a registry of one protocol, the branch for it is the loop. -/
theorem upgrade_single_eq_loop {r : ProtocolRegistry σ} {infos : List (ProtocolInfo σ)}
    (h : r.protocols.Represents infos) (hone : infos.length = 1) (hfuel : 1 ≤ fuel) (s : σ) :
    upgrade_single upgrade_header connection_header r s = upgrade_loop fuel upgrade_header connection_header r s := by
  obtain ⟨info, rfl⟩ := List.length_eq_one_iff.mp hone
  obtain ⟨p, hhead, hcell⟩ := h.single
  rw [upgrade_loop, h.seek _ hfuel, upgrade_single, hhead]
  simp only [hcell, Option.bind_eq_bind, Option.bind_some, seek, detects]
  by_cases htoken : info.upgrade_header = []
  · simp only [htoken, ne_eq, not_true_eq_false, if_false, decide_false, Bool.false_and, Bool.false_eq_true]
    obtain ⟨accepted, u⟩ := info.detector upgrade_header connection_header s
    cases accepted with
    | true => rfl
    | false => rfl
  · simp only [htoken, ne_eq, not_false_eq_true, if_true, decide_true, Bool.true_and]
    cases strcasecmp upgrade_header info.upgrade_header with
    | false => rfl
    | true =>
      obtain ⟨accepted, u⟩ := info.detector upgrade_header connection_header s
      cases accepted with
      | true => rfl
      | false => rfl

end dispatching

section registry

variable {fuel : Nat} {registry : Option (ProtocolRegistry σ)} {r : ProtocolRegistry σ} {infos : List (ProtocolInfo σ)}

/-- What holds of the registry before and after a call. -/
structure RegistryKeeps (registry : Option (ProtocolRegistry σ)) (infos : List (ProtocolInfo σ)) : Prop where
  lists : RegistryLists registry infos
  distinct : infos.Pairwise fun a b => strcasecmp a.name b.name = false
  bounded : infos.length ≤ 10

theorem RegistryKeeps.exact (h : RegistryKeeps registry infos) (hfuel : 10 ≤ fuel) :
    RegistryExact fuel registry infos := by
  obtain ⟨hlists, hdistinct, hbounded⟩ := h
  refine ⟨hlists, hdistinct, hbounded, ?_, ?_⟩
  · intro upgrade_header connection_header s
    cases registry with
    | none =>
      obtain rfl := hlists
      exact ⟨_, rfl, Or.inr ⟨rfl, rfl, rfl, rfl⟩⟩
    | some r =>
      obtain ⟨hrepresents, hcount⟩ := hlists
      rw [upgrade_request]
      split_ifs with hone
      · have hlength : infos.length = 1 := by
          rw [← hcount, hone]
          rfl
        rw [@upgrade_single_eq_loop σ fuel _ _ _ _ hrepresents hlength (by omega)]
        exact upgrade_loop_selected hrepresents (by omega) s
      · exact upgrade_loop_selected hrepresents (by omega) s
  · rintro r hr hlength upgrade_header connection_header s
    obtain rfl := Option.mem_def.mp hr
    exact upgrade_single_eq_loop hlists.1 hlength (by omega) s

theorem strcasecmp_tolower (a b : List UInt8) : strcasecmp (a.map tolower) b = strcasecmp a b := by
  have hidem : ∀ c, tolower (tolower c) = tolower c := by
    intro c
    simp only [tolower]
    split_ifs with h₁ h₂
    · simp only [Bool.and_eq_true, decide_eq_true_eq, UInt8.le_iff_toNat_le] at h₁ h₂
      rw [UInt8.toNat_add] at h₂
      simp at h₁ h₂
      omega
    · rfl
    · rfl
  have hmap : (a.map tolower).map tolower = a.map tolower := by
    rw [List.map_map]
    apply List.map_congr_left
    intro c _
    exact hidem c
  change decide ((a.map tolower).map tolower = b.map tolower) = decide (a.map tolower = b.map tolower)
  rw [hmap]

theorem normalized_eq {size : Nat} {text : List UInt8} (h : text.length < size) :
    normalized size text = text.map tolower := by
  rw [normalized, List.take_of_length_le (by omega)]

/-- A registration once there is a registry. -/
theorem register_in_exact (hkeeps : RegistryKeeps (some r) infos) (hfuel : 10 ≤ fuel) {reg : Registration σ}
    {name : List UInt8} {detector : Detector σ} {handler : UpgradeHandler σ} (hname : reg.protocol_name = some name)
    (hdetector : reg.detector = some detector) (hhandler : reg.handler = some handler) (hshort : name.length < 32)
    (htoken : (reg.upgrade_header.getD []).length < 64) :
    ∃ code registry' infos', register_in fuel reg name detector handler r = some (code, registry') ∧
      (RegistryCall.register reg).Exact code infos infos' ∧ RegistryKeeps registry' infos' := by
  obtain ⟨⟨hrepresents, hcount⟩, hdistinct, hbounded⟩ := hkeeps
  simp only [register_in, hrepresents.find _ (Nat.le_trans hbounded hfuel), Option.bind_eq_bind, Option.bind_some]
  split_ifs with hexisting hfull
  · exact ⟨_, _, infos, rfl, ⟨fun _ => rfl, fun h => by cases h⟩, ⟨hrepresents, hcount⟩, hdistinct, hbounded⟩
  · exact ⟨_, _, infos, rfl, ⟨fun _ => rfl, fun h => by cases h⟩, ⟨hrepresents, hcount⟩, hdistinct, hbounded⟩
  · cases halloc : reg.info_alloc.alloc r.protocols.cells with
    | none => exact ⟨_, _, infos, rfl, ⟨fun _ => rfl, fun h => by cases h⟩, ⟨hrepresents, hcount⟩, hdistinct, hbounded⟩
    | some p =>
      rw [ge_iff_le, UInt64.le_iff_toNat_le, hcount] at hfull
      have hroom : infos.length < 10 := Nat.lt_of_not_le hfull
      rw [Bool.not_eq_true, Option.isSome_eq_false_iff, Option.isNone_iff_eq_none, List.find?_eq_none] at hexisting
      rw [normalized_eq hshort, normalized_eq htoken]
      refine ⟨_, _, _, rfl,
        ⟨fun h => absurd rfl h, fun _ => ⟨name, detector, handler, hname, hdetector, hhandler, rfl⟩⟩,
        ⟨hrepresents.push (reg.info_alloc.unused halloc) _, ?_⟩, ?_, hroom⟩
      · rw [UInt64.toNat_add, hcount, List.length_cons]
        simp only [UInt64.toNat_one]
        omega
      · rw [List.pairwise_cons]
        refine ⟨?_, hdistinct⟩
        intro info hinfo
        have hother := hexisting info hinfo
        rw [strcasecmp_tolower]
        rw [Bool.not_eq_true] at hother
        rw [← hother]
        exact decide_eq_decide.mpr eq_comm

theorem unregister_exact (hkeeps : RegistryKeeps (some r) infos) (hfuel : 10 ≤ fuel) (name : List UInt8) :
    ∃ code registry' infos', uvhttp_server_unregister_protocol_upgrade fuel (some r) (some name) =
        some (code, registry') ∧
      (RegistryCall.unregister (some name)).Exact code infos infos' ∧ RegistryKeeps registry' infos' := by
  obtain ⟨⟨hrepresents, hcount⟩, hdistinct, hbounded⟩ := hkeeps
  obtain ⟨protocols, heq, hleft⟩ :=
    hrepresents.take_out (fun info => strcasecmp info.name name) (Nat.le_trans hbounded hfuel)
  simp only [uvhttp_server_unregister_protocol_upgrade, heq, Option.bind_eq_bind, Option.bind_some]
  cases hfind : infos.find? fun info => strcasecmp info.name name with
  | none =>
    rw [List.eraseP_of_forall_not (List.find?_eq_none.mp hfind)] at hleft
    exact ⟨_, _, infos, rfl, ⟨fun _ => rfl, fun h => by cases h⟩, ⟨hleft, hcount⟩, hdistinct, hbounded⟩
  | some info =>
    obtain ⟨hmatch, before, after, hsplit, hbefore⟩ := List.find?_eq_some_iff_append.mp hfind
    have herased : infos.eraseP (fun info => strcasecmp info.name name) = before ++ after := by
      rw [hsplit, List.eraseP_append_right _ (by simpa using hbefore)]
      simp only [List.eraseP_cons, hmatch, cond_true]
    rw [herased] at hleft
    have hsublist : (before ++ after).Sublist infos := by
      rw [hsplit]
      exact List.Sublist.append_left (List.sublist_cons_self info after) before
    have hlength : infos.length = (before ++ after).length + 1 := by
      rw [hsplit]
      simp only [List.length_append, List.length_cons]
      omega
    refine ⟨_, _, _, rfl, ⟨fun h => absurd rfl h, fun _ => ⟨name, before, info, after, rfl, hsplit, hmatch, rfl⟩⟩,
      ⟨hleft, ?_⟩, hdistinct.sublist hsublist, ?_⟩
    · have hpositive : (1 : UInt64) ≤ r.protocol_count := by
        rw [UInt64.le_iff_toNat_le, hcount, hlength]
        exact Nat.le_add_left 1 _
      rw [UInt64.toNat_sub_of_le _ _ hpositive, hcount, hlength]
      rfl
    · omega

/-- A call that fails and leaves the registry. -/
theorem failed_exact (hkeeps : RegistryKeeps registry infos) {call : RegistryCall σ} {code : UvhttpError}
    (hstep : registry_step fuel registry call = some (code, registry)) (hcode : code ≠ .OK) :
    ∃ code registry' infos', registry_step fuel registry call = some (code, registry') ∧
      call.Exact code infos infos' ∧ RegistryKeeps registry' infos' :=
  ⟨code, registry, infos, hstep, ⟨fun _ => rfl, fun h => absurd h hcode⟩, hkeeps⟩

theorem registry_new_keeps : RegistryKeeps (some registry_new) ([] : List (ProtocolInfo σ)) :=
  ⟨⟨empty_represents, rfl⟩, List.Pairwise.nil, Nat.zero_le 10⟩

theorem register_exact (hkeeps : RegistryKeeps registry infos) (hfuel : 10 ≤ fuel) (reg : Registration σ) :
    ∃ code registry' infos', registry_step fuel registry (.register reg) = some (code, registry') ∧
      (RegistryCall.register reg).Exact code infos infos' ∧ RegistryKeeps registry' infos' := by
  rcases hname : reg.protocol_name with _ | name
  · have hstep : registry_step fuel registry (.register reg) = some (.INVALID_PARAM, registry) := by
      simp only [registry_step, uvhttp_server_register_protocol_upgrade, hname]
    exact failed_exact hkeeps hstep nofun
  rcases hdetector : reg.detector with _ | detector
  · have hstep : registry_step fuel registry (.register reg) = some (.INVALID_PARAM, registry) := by
      simp only [registry_step, uvhttp_server_register_protocol_upgrade, hname, hdetector]
    exact failed_exact hkeeps hstep nofun
  rcases hhandler : reg.handler with _ | handler
  · have hstep : registry_step fuel registry (.register reg) = some (.INVALID_PARAM, registry) := by
      simp only [registry_step, uvhttp_server_register_protocol_upgrade, hname, hdetector, hhandler]
    exact failed_exact hkeeps hstep nofun
  have hstep : registry_step fuel registry (.register reg) =
      if name.length ≥ 32 then some (.INVALID_PARAM, registry)
      else if (reg.upgrade_header.getD []).length ≥ 64 then some (.INVALID_PARAM, registry)
      else if registry.isNone && !reg.registry_alloc then some (.OUT_OF_MEMORY, registry)
      else register_in fuel reg name detector handler (registry.getD registry_new) := by
    simp only [registry_step, uvhttp_server_register_protocol_upgrade, hname, hdetector, hhandler]
  split_ifs at hstep with hlong htoken hmissing
  · exact failed_exact hkeeps hstep nofun
  · exact failed_exact hkeeps hstep nofun
  · exact failed_exact hkeeps hstep nofun
  · have hpresent : RegistryKeeps (some (registry.getD registry_new)) infos := by
      cases registry with
      | none =>
        obtain rfl : infos = [] := hkeeps.lists
        exact registry_new_keeps
      | some r => exact hkeeps
    rw [hstep]
    exact register_in_exact hpresent hfuel hname hdetector hhandler (by omega) (by omega)

/-- A registration succeeds where its name is not taken and there is room and memory: its
protocol is then the latest. -/
theorem register_succeeds (hkeeps : RegistryKeeps registry infos) (hfuel : 10 ≤ fuel) {reg : Registration σ}
    {name : List UInt8} {detector : Detector σ} {handler : UpgradeHandler σ} (hname : reg.protocol_name = some name)
    (hdetector : reg.detector = some detector) (hhandler : reg.handler = some handler) (hshort : name.length < 32)
    (htoken : (reg.upgrade_header.getD []).length < 64) (hnew : ∀ info ∈ infos, strcasecmp info.name name = false)
    (hroom : infos.length < 10) (hregistry : reg.registry_alloc = true)
    {p : Nat} (hinfo : reg.info_alloc.alloc (registry.getD registry_new).protocols.cells = some p) :
    ∃ registry', registry_step fuel registry (.register reg) = some (.OK, registry') ∧
      RegistryKeeps registry'
        (⟨name.map tolower, (reg.upgrade_header.getD []).map tolower, detector, handler, reg.user_data⟩ :: infos) := by
  obtain ⟨code, registry', infos', hstep, ⟨-, hsucceeds⟩, hkept⟩ := register_exact hkeeps hfuel reg
  have hok : code = .OK := by
    have hpresent : RegistryLists (some (registry.getD registry_new)) infos := by
      cases registry with
      | none =>
        obtain rfl : infos = [] := hkeeps.lists
        exact registry_new_keeps.lists
      | some r => exact hkeeps.lists
    obtain ⟨hrepresents, hcount⟩ := hpresent
    have habsent : (infos.find? fun info => strcasecmp info.name name) = none := by
      rw [List.find?_eq_none]
      intro info hmem
      rw [hnew info hmem]
      exact Bool.false_ne_true
    have hfull : ¬(registry.getD registry_new).protocol_count ≥ 10 := by
      rw [ge_iff_le, UInt64.le_iff_toNat_le, hcount]
      exact Nat.not_le_of_lt hroom
    simp only [registry_step, uvhttp_server_register_protocol_upgrade, hname, hdetector, hhandler, register_in,
      hrepresents.find _ (Nat.le_trans (Nat.le_of_lt hroom) hfuel), habsent, hinfo, if_neg (Nat.not_le_of_lt hshort),
      if_neg (Nat.not_le_of_lt htoken), if_neg hfull, hregistry, Bool.not_true, Bool.and_false, Bool.false_eq_true,
      if_false, Option.isSome_none, Option.bind_eq_bind, Option.bind_some, Option.some.injEq, Prod.mk.injEq] at hstep
    exact hstep.1.symm
  obtain ⟨name', detector', handler', hname', hdetector', hhandler', rfl⟩ := hsucceeds hok
  obtain rfl : name = name' := Option.some.inj (hname.symm.trans hname')
  obtain rfl : detector = detector' := Option.some.inj (hdetector.symm.trans hdetector')
  obtain rfl : handler = handler' := Option.some.inj (hhandler.symm.trans hhandler')
  rw [hok] at hstep
  exact ⟨registry', hstep, hkept⟩

/-- A request that the latest protocol takes comes to its handler. -/
theorem latest_dispatched {info : ProtocolInfo σ} (hkeeps : RegistryKeeps registry (info :: infos)) (hfuel : 10 ≤ fuel)
    {upgrade_header : List UInt8} {connection_header : Option (List UInt8)} (hfits : info.TokenFits upgrade_header)
    {s t : σ} (haccepts : info.detector upgrade_header connection_header s = (true, t)) :
    upgrade_request fuel upgrade_header connection_header registry s = some (upgrade_to info t) := by
  have htaken : ∀ (later : List (ProtocolInfo σ)) (u : σ),
      ¬Refused upgrade_header connection_header (info :: later) s u := by
    rintro later u (⟨hother, -⟩ | ⟨-, v, hrefuses, -⟩)
    · exact hother hfits
    · rw [haccepts] at hrefuses
      cases hrefuses
  obtain ⟨u, hrequest, hselected⟩ := (hkeeps.exact hfuel).dispatch upgrade_header connection_header s
  rw [hrequest]
  rcases hselected with ⟨refused, chosen, rest, v, v', hsplit, hrefused, -, hchosen, hu, -⟩ | ⟨hrefused, -⟩
  · cases refused with
    | nil =>
      obtain ⟨rfl, -⟩ := List.cons.inj hsplit
      obtain rfl : v = s := hrefused
      rw [haccepts] at hchosen
      cases hchosen
      exact congrArg some hu
    | cons first refused =>
      obtain ⟨rfl, -⟩ := List.cons.inj hsplit
      exact absurd hrefused (htaken refused v)
  · exact absurd hrefused (htaken infos u.state)

theorem registry_step_exact (hkeeps : RegistryKeeps registry infos) (hfuel : 10 ≤ fuel) (call : RegistryCall σ) :
    ∃ code registry' infos', registry_step fuel registry call = some (code, registry') ∧
      call.Exact code infos infos' ∧ RegistryKeeps registry' infos' := by
  cases call with
  | register reg => exact register_exact hkeeps hfuel reg
  | unregister protocol_name =>
    cases protocol_name with
    | none => exact @failed_exact σ fuel registry infos hkeeps _ .INVALID_PARAM rfl nofun
    | some name =>
      cases registry with
      | none => exact @failed_exact σ fuel none infos hkeeps _ .NOT_FOUND rfl nofun
      | some r => exact unregister_exact hkeeps hfuel name

theorem registry_run (hkeeps : RegistryKeeps registry infos) (hfuel : 10 ≤ fuel) (calls : List (RegistryCall σ)) :
    RegistryRun fuel registry infos calls := by
  induction calls generalizing registry infos with
  | nil => exact hkeeps.exact hfuel
  | cons call calls ih =>
    obtain ⟨code, registry', infos', hreturns, hexact, hkept⟩ := registry_step_exact hkeeps hfuel call
    exact ⟨hkeeps.exact hfuel, code, registry', infos', hreturns, hexact, ih hkept⟩

end registry

/-- The protocol registry through any calls, and the dispatch on it. -/
theorem protocol_registry_exact {fuel : Nat} (hfuel : 10 ≤ fuel) (calls : List (RegistryCall σ)) :
    RegistryRun fuel none [] calls := by
  have hnone : RegistryLists none ([] : List (ProtocolInfo σ)) := rfl
  exact registry_run ⟨hnone, List.Pairwise.nil, Nat.zero_le 10⟩ hfuel calls

/-- A protocol that takes every request with its token. -/
def takes_all (name : List UInt8) : Registration Nat where
  protocol_name := some name
  upgrade_header := some name
  detector := some fun _ _ s => (true, s)
  handler := some fun _ s => (.OK, s + 1)
  user_data := 0
  registry_alloc := true
  info_alloc := Allocator.two

/-- Two protocols are registered, and a name is refused that is taken; a request is
dispatched to the first of them, by its token. -/
theorem protocol_registry_exact_two :
    RegistryRun 10 none []
        [.register (takes_all (bytes "IPPS")), .register (takes_all (bytes "ipps")),
          .register (takes_all (bytes "grpc")), .unregister (some (bytes "Ipps"))] ∧
      ((registry_step 10 none (.register (takes_all (bytes "IPPS")))).bind fun first =>
        (registry_step 10 first.2 (.register (takes_all (bytes "grpc")))).bind fun second =>
          (upgrade_request 10 (bytes "Ipps") none second.2 0).map fun u =>
            (first.1, second.1, u.handlers.map ProtocolInfo.name, u.routed, u.state)) =
        some (.OK, .OK, [bytes "ipps"], false, 1) :=
  ⟨protocol_registry_exact (Nat.le_refl 10) _, by decide +kernel⟩

end uvhttp.server
