import Uvhttp.Basic

namespace uvhttp.server

def INET_ADDRSTRLEN : Nat := 16

/-- The address families of `inet_pton`. -/
inductive AddressFamily where
  | AF_INET
  | AF_INET6
  deriving DecidableEq, Repr

/-- The memory behind `rate_limit_whitelist`: none, a block that was released, or one slot
after the other, with the address that a slot points to. -/
inductive WhitelistArray where
  | null
  | released
  | block (slots : List (Option (List UInt8)))
  deriving DecidableEq, Repr

/-- `uvhttp_realloc` to a number of slots: whether it returns a block, and the memory after
it. Where no block of size zero is returned, the old one has been released. `none` is a
call with a released block. -/
def WhitelistArray.realloc (size : Nat) (granted : Bool) : WhitelistArray → Option (Bool × WhitelistArray)
  | .released => none
  | .null => some (granted, if granted then .block (List.replicate size none) else .null)
  | .block slots =>
    some (granted, if granted then .block (slots.take size ++ List.replicate (size - slots.length) none)
      else if size = 0 then .released
      else .block slots)

/-- The write of a slot. -/
def WhitelistArray.store (index : Nat) (address : Option (List UInt8)) : WhitelistArray → WhitelistArray
  | .block slots => .block (slots.set index address)
  | array => array

/-- The whitelist of `uvhttp_server_t`: the array, `rate_limit_whitelist_count`, and the
keys of the items in `rate_limit_whitelist_hash`. -/
structure Whitelist where
  array : WhitelistArray
  count : Nat
  hash : List (List UInt8)
  deriving DecidableEq, Repr

def whitelist_new : Whitelist := ⟨.null, 0, []⟩

/-- A call with the answers of the allocator: for the longer array, the copy of the
address, the item, and the array of the old length. -/
structure AddCall where
  client_ip : List UInt8
  grow : Bool
  copy : Bool
  item : Bool
  shrink : Bool
  deriving DecidableEq, Repr

section calls

variable (inet_pton : AddressFamily → List UInt8 → Bool)

/-- `uvhttp_is_valid_ip_address`. -/
def uvhttp_is_valid_ip_address (ip : List UInt8) : Bool :=
  if ip = [] then false else inet_pton .AF_INET ip || inet_pton .AF_INET6 ip

/-- The way back to the old length, when an allocation has failed. -/
def resume_whitelist (call : AddCall) (w : Whitelist) : Option (UvhttpError × Whitelist) :=
  (w.array.realloc (w.count - 1) call.shrink).map fun resized =>
    (.OUT_OF_MEMORY, { w with array := resized.2, count := w.count - 1 })

/-- `uvhttp_server_add_rate_limit_whitelist`. `none` is an access to a released array. -/
def uvhttp_server_add_rate_limit_whitelist (w : Whitelist) (call : AddCall) : Option (UvhttpError × Whitelist) :=
  if !uvhttp_is_valid_ip_address inet_pton call.client_ip then some (.INVALID_PARAM, w)
  else if w.hash.contains call.client_ip then some (.OK, w)
  else
    let new_count := w.count + 1
    (w.array.realloc new_count call.grow).bind fun resized =>
      if !resized.1 then some (.OUT_OF_MEMORY, w)
      else
        let w := { w with array := resized.2, count := new_count }
        if !call.copy then resume_whitelist call w
        else
          let w := { w with array := w.array.store (new_count - 1) (some call.client_ip) }
          if !call.item then resume_whitelist call { w with array := w.array.store (new_count - 1) none }
          else some (.OK, { w with hash := w.hash ++ [uvhttp_safe_strncpy INET_ADDRSTRLEN call.client_ip] })

/-- `is_client_whitelisted`, for the address of the peer as text. -/
def is_client_whitelisted (w : Whitelist) (client_ip : List UInt8) : Bool :=
  if w.array = .null ∨ w.count = 0 then false else w.hash.contains client_ip

/-- The slots in use. -/
def Whitelist.slots (w : Whitelist) : List (Option (List UInt8)) :=
  match w.array with
  | .block slots => slots.take w.count
  | _ => []

/-- The whitelist holds exactly these addresses, in the array and in the hash table, and
each of them is found. -/
structure WhitelistSet (w : Whitelist) (addresses : List (List UInt8)) : Prop where
  live : w.array ≠ .released
  slots : w.slots = addresses.map some
  count : w.count = addresses.length
  nodup : addresses.Nodup
  hash_nodup : w.hash.Nodup
  keys : ∀ address, address ∈ w.hash ↔ address ∈ addresses
  found : ∀ address ∈ addresses, is_client_whitelisted w address = true

/-- What a call is for: an address that it adds is in the set afterwards, and a call that
fails changes nothing. -/
def after_call (addresses : List (List UInt8)) (client_ip : List UInt8) (err : UvhttpError) : List (List UInt8) :=
  if err ≠ .OK ∨ addresses.contains client_ip then addresses else addresses ++ [client_ip]

/-- The calls of a run treat the whitelist as a set. -/
def RunIsSet : Whitelist → List (List UInt8) → List AddCall → Prop
  | w, addresses, [] => WhitelistSet w addresses
  | w, addresses, call :: calls =>
    WhitelistSet w addresses ∧ ∃ err w', uvhttp_server_add_rate_limit_whitelist inet_pton w call = some (err, w') ∧
      RunIsSet w' (after_call addresses call.client_ip err) calls

/-- The call comes to the longer array. -/
structure GrowsWhitelist (w : Whitelist) (call : AddCall) : Prop where
  valid : uvhttp_is_valid_ip_address inet_pton call.client_ip = true
  absent : call.client_ip ∉ w.hash
  grow : call.grow = true

/-- An address that is added fits the key of an item, and the first array is not released
when a later allocation fails. -/
structure CallFits (w : Whitelist) (call : AddCall) : Prop where
  short : call.copy = true → call.item = true → call.client_ip.length < INET_ADDRSTRLEN
  kept : ¬ (call.copy = true ∧ call.item = true) → w.count = 0 → call.shrink = true

/-- Every call of a run that comes to the longer array fits. -/
def RunFits : Whitelist → List AddCall → Prop
  | _, [] => True
  | w, call :: calls =>
    (GrowsWhitelist inet_pton w call → CallFits w call) ∧
      ∀ err w', uvhttp_server_add_rate_limit_whitelist inet_pton w call = some (err, w') → RunFits w' calls

variable {inet_pton} {w : Whitelist} {addresses : List (List UInt8)} {call : AddCall}
  {slots : List (Option (List UInt8))}

/-- A block with these addresses in the slots in use. -/
theorem whitelistSet_block {count : Nat} {hash : List (List UInt8)} (hslots : slots.take count = addresses.map some)
    (hcount : count = addresses.length) (hnodup : addresses.Nodup) (hhash : hash.Nodup)
    (hkeys : ∀ address, address ∈ hash ↔ address ∈ addresses) :
    WhitelistSet ⟨.block slots, count, hash⟩ addresses := by
  refine ⟨by simp, hslots, hcount, hnodup, hhash, hkeys, fun address haddress => ?_⟩
  have hpos : count ≠ 0 := by
    rw [hcount]
    exact (List.length_pos_of_mem haddress).ne'
  simp only [is_client_whitelisted, reduceCtorEq, hpos, or_self, if_false, List.contains_iff_mem]
  exact (hkeys address).mpr haddress

/-- The longer array has the same addresses. -/
theorem WhitelistSet.grow (h : WhitelistSet w addresses) :
    ∃ slots, w.array.realloc (w.count + 1) true = some (true, .block slots) ∧ slots.length = w.count + 1 ∧
      slots.take w.count = addresses.map some := by
  have hslots := h.slots
  have hcount := h.count
  rw [Whitelist.slots] at hslots
  cases harray : w.array with
  | released => exact absurd harray h.live
  | null =>
    rw [harray] at hslots
    have hnil : addresses = [] := List.map_eq_nil_iff.mp hslots.symm
    rw [hnil, List.length_nil] at hcount
    refine ⟨List.replicate (w.count + 1) none, rfl, List.length_replicate, ?_⟩
    rw [hnil, hcount]
    rfl
  | block old =>
    rw [harray] at hslots
    dsimp only at hslots
    have hlength := congrArg List.length hslots
    rw [List.length_take, List.length_map, ← hcount] at hlength
    refine ⟨_, rfl, ?_, ?_⟩
    · rw [List.length_append, List.length_take, List.length_replicate]
      omega
    · rw [List.take_append_of_le_length, List.take_take, Nat.min_eq_left (Nat.le_succ _), hslots]
      rw [List.length_take]
      omega

theorem realloc_refused {array : WhitelistArray} (hlive : array ≠ .released) (size : Nat) :
    ∃ array', array.realloc size false = some (false, array') := by
  cases array with
  | released => exact absurd rfl hlive
  | null => exact ⟨_, rfl⟩
  | block slots => exact ⟨_, rfl⟩

/-- The way back from the longer array keeps the addresses, unless it releases the array. -/
theorem WhitelistSet.resume_iff (h : WhitelistSet w addresses) (hlength : slots.length = w.count + 1)
    (htake : slots.take w.count = addresses.map some) :
    (∃ err w', resume_whitelist call { w with array := .block slots, count := w.count + 1 } = some (err, w') ∧
        WhitelistSet w' (after_call addresses call.client_ip err)) ↔
      (w.count = 0 → call.shrink = true) := by
  have hsame : after_call addresses call.client_ip .OUT_OF_MEMORY = addresses := if_pos (.inl (by decide))
  cases hshrink : call.shrink with
  | true =>
    have hset : WhitelistSet ⟨.block (slots.take w.count), w.count, w.hash⟩ addresses := by
      apply whitelistSet_block _ h.count h.nodup h.hash_nodup h.keys
      rw [List.take_take, Nat.min_self, htake]
    have hresume : resume_whitelist call { w with array := .block slots, count := w.count + 1 } =
        some (.OUT_OF_MEMORY, ⟨.block (slots.take w.count), w.count, w.hash⟩) := by
      simp [resume_whitelist, WhitelistArray.realloc, hshrink, hlength]
    refine iff_of_true ⟨_, _, hresume, ?_⟩ fun _ => rfl
    rw [hsame]
    exact hset
  | false =>
    by_cases hzero : w.count = 0
    · have hresume : resume_whitelist call { w with array := .block slots, count := w.count + 1 } =
          some (.OUT_OF_MEMORY, ⟨.released, w.count, w.hash⟩) := by
        simp [resume_whitelist, WhitelistArray.realloc, hshrink, hzero]
      refine iff_of_false ?_ fun hkept => by cases hkept hzero
      rintro ⟨err, w', hcall, hset⟩
      obtain ⟨-, rfl⟩ := Prod.mk.inj (Option.some.inj (hresume.symm.trans hcall))
      exact hset.live rfl
    · have hset : WhitelistSet ⟨.block slots, w.count, w.hash⟩ addresses :=
        whitelistSet_block htake h.count h.nodup h.hash_nodup h.keys
      have hresume : resume_whitelist call { w with array := .block slots, count := w.count + 1 } =
          some (.OUT_OF_MEMORY, ⟨.block slots, w.count, w.hash⟩) := by
        simp [resume_whitelist, WhitelistArray.realloc, hshrink, hzero]
      refine iff_of_true ⟨_, _, hresume, ?_⟩ fun hcount => absurd hcount hzero
      rw [hsame]
      exact hset

/-- An address that is added is in the set exactly when it fits the key of its item. -/
theorem WhitelistSet.add_iff (h : WhitelistSet w addresses) (hlength : slots.length = w.count + 1)
    (htake : slots.take w.count = addresses.map some) {address : List UInt8} (habsent : address ∉ w.hash) :
    WhitelistSet ⟨.block (slots.set w.count (some address)), w.count + 1,
        w.hash ++ [uvhttp_safe_strncpy INET_ADDRSTRLEN address]⟩ (addresses ++ [address]) ↔
      address.length < INET_ADDRSTRLEN := by
  constructor
  · intro hset
    have hmem : address ∈ w.hash ++ [uvhttp_safe_strncpy INET_ADDRSTRLEN address] :=
      (hset.keys address).mpr (List.mem_append_right _ (List.mem_singleton_self address))
    rcases List.mem_append.mp hmem with hold | hnew
    · exact absurd hold habsent
    · have hlen := congrArg List.length (List.mem_singleton.mp hnew)
      rw [uvhttp_safe_strncpy, List.length_take, INET_ADDRSTRLEN] at hlen
      rw [INET_ADDRSTRLEN]
      omega
  · intro hshort
    have hkey : uvhttp_safe_strncpy INET_ADDRSTRLEN address = address := by
      rw [uvhttp_safe_strncpy]
      apply List.take_of_length_le
      omega
    have hnew : address ∉ addresses := fun hmem => habsent ((h.keys address).mpr hmem)
    rw [hkey]
    have hindex : w.count < (slots.set w.count (some address)).length := by
      rw [List.length_set]
      omega
    apply whitelistSet_block
    · rw [List.map_append, ← htake, List.take_succ_eq_append_getElem hindex, List.take_set_of_le (Nat.le_refl _),
        List.getElem_set_self]
      rfl
    · rw [List.length_append, h.count]
      rfl
    · rw [← List.concat_eq_append]
      exact h.nodup.concat hnew
    · rw [← List.concat_eq_append]
      exact h.hash_nodup.concat habsent
    · intro other
      rw [List.mem_append, List.mem_append, h.keys other]

/-- A call that does not come to the longer array leaves the whitelist as it is. -/
theorem WhitelistSet.call_unchanged (h : WhitelistSet w addresses) (hgrows : ¬ GrowsWhitelist inet_pton w call) :
    ∃ err, uvhttp_server_add_rate_limit_whitelist inet_pton w call = some (err, w) ∧
      after_call addresses call.client_ip err = addresses := by
  by_cases hvalid : uvhttp_is_valid_ip_address inet_pton call.client_ip = true
  · by_cases habsent : call.client_ip ∈ w.hash
    · refine ⟨.OK, ?_, if_pos (.inr (List.contains_iff_mem.mpr ((h.keys _).mp habsent)))⟩
      simp only [uvhttp_server_add_rate_limit_whitelist, hvalid, Bool.not_true, Bool.false_eq_true, if_false,
        List.contains_iff_mem, if_pos habsent]
    · have hfailed : call.grow = false := by
        rw [← Bool.not_eq_true]
        exact fun hgrow => hgrows ⟨hvalid, habsent, hgrow⟩
      obtain ⟨array, hrefused⟩ := realloc_refused h.live (w.count + 1)
      refine ⟨.OUT_OF_MEMORY, ?_, if_pos (.inl (by decide))⟩
      simp only [uvhttp_server_add_rate_limit_whitelist, hvalid, List.contains_iff_mem, if_neg habsent, hfailed,
        hrefused, Bool.not_true, Bool.not_false, Bool.false_eq_true, if_false, Option.bind_some, if_true]
  · refine ⟨.INVALID_PARAM, ?_, if_pos (.inl (by decide))⟩
    rw [Bool.not_eq_true] at hvalid
    simp only [uvhttp_server_add_rate_limit_whitelist, hvalid, Bool.not_false, if_true]

/-- With the longer array a call treats the whitelist as a set exactly when it fits. -/
theorem WhitelistSet.grown_iff (h : WhitelistSet w addresses) (hgrows : GrowsWhitelist inet_pton w call) :
    (∃ err w', uvhttp_server_add_rate_limit_whitelist inet_pton w call = some (err, w') ∧
        WhitelistSet w' (after_call addresses call.client_ip err)) ↔ CallFits w call := by
  obtain ⟨slots, hrealloc, hlength, htake⟩ := h.grow
  have hnew : call.client_ip ∉ addresses := fun hmem => hgrows.absent ((h.keys _).mpr hmem)
  have hcall : uvhttp_server_add_rate_limit_whitelist inet_pton w call =
      if !call.copy then resume_whitelist call { w with array := .block slots, count := w.count + 1 }
      else if !call.item then resume_whitelist call
        { w with array := .block ((slots.set w.count (some call.client_ip)).set w.count none), count := w.count + 1 }
      else some (.OK, ⟨.block (slots.set w.count (some call.client_ip)), w.count + 1,
        w.hash ++ [uvhttp_safe_strncpy INET_ADDRSTRLEN call.client_ip]⟩) := by
    simp only [uvhttp_server_add_rate_limit_whitelist, hgrows.valid, hgrows.grow, List.contains_iff_mem,
      if_neg hgrows.absent, hrealloc, Bool.not_true, Bool.false_eq_true, if_false, Option.bind_some,
      Nat.add_sub_cancel, WhitelistArray.store]
  rw [hcall]
  cases hcopy : call.copy with
  | false =>
    simp only [Bool.not_false, if_true]
    rw [h.resume_iff hlength htake]
    refine ⟨fun hkept => ⟨fun hyes => ?_, fun _ => hkept⟩, fun hfits => hfits.kept ?_⟩
    · cases hcopy.symm.trans hyes
    · rintro ⟨hyes, -⟩
      cases hcopy.symm.trans hyes
  | true =>
    cases hitem : call.item with
    | false =>
      simp only [Bool.not_true, Bool.not_false, Bool.false_eq_true, if_false, if_true]
      have hcleared : ((slots.set w.count (some call.client_ip)).set w.count none).take w.count =
          addresses.map some := by
        rw [List.take_set_of_le (Nat.le_refl _), List.take_set_of_le (Nat.le_refl _), htake]
      rw [h.resume_iff (by rw [List.length_set, List.length_set, hlength]) hcleared]
      refine ⟨fun hkept => ⟨fun _ hyes => ?_, fun _ => hkept⟩, fun hfits => hfits.kept ?_⟩
      · cases hitem.symm.trans hyes
      · rintro ⟨-, hyes⟩
        cases hitem.symm.trans hyes
    | true =>
      simp only [Bool.not_true, Bool.false_eq_true, if_false]
      have hadded : after_call addresses call.client_ip .OK = addresses ++ [call.client_ip] := by
        apply if_neg
        rintro (herr | hmem)
        · exact herr rfl
        · exact hnew (List.contains_iff_mem.mp hmem)
      have hiff := h.add_iff hlength htake hgrows.absent
      constructor
      · rintro ⟨err, w', heq, hset⟩
        obtain ⟨rfl, rfl⟩ := Prod.mk.inj (Option.some.inj heq)
        rw [hadded] at hset
        exact ⟨fun _ _ => hiff.mp hset, fun hnot => absurd ⟨hcopy, hitem⟩ hnot⟩
      · intro hfits
        refine ⟨_, _, rfl, ?_⟩
        rw [hadded]
        exact hiff.mpr (hfits.short hcopy hitem)

/-- A call treats the whitelist as a set exactly when it fits, or does not come to the
longer array. -/
theorem WhitelistSet.call_iff (h : WhitelistSet w addresses) (call : AddCall) :
    (∃ err w', uvhttp_server_add_rate_limit_whitelist inet_pton w call = some (err, w') ∧
        WhitelistSet w' (after_call addresses call.client_ip err)) ↔
      (GrowsWhitelist inet_pton w call → CallFits w call) := by
  by_cases hgrows : GrowsWhitelist inet_pton w call
  · rw [imp_iff_right hgrows]
    exact h.grown_iff hgrows
  · refine iff_of_true ?_ fun hfits => absurd hfits hgrows
    obtain ⟨err, hcall, hsame⟩ := h.call_unchanged hgrows
    refine ⟨err, w, hcall, ?_⟩
    rw [hsame]
    exact h

theorem RunIsSet.first {calls : List AddCall} (h : RunIsSet inet_pton w addresses calls) :
    WhitelistSet w addresses := by
  cases calls with
  | nil => exact h
  | cons call calls => exact h.1

/-- From a whitelist that is a set, a run treats it as one exactly when its calls fit. -/
theorem WhitelistSet.run_iff (h : WhitelistSet w addresses) (calls : List AddCall) :
    RunIsSet inet_pton w addresses calls ↔ RunFits inet_pton w calls := by
  induction calls generalizing w addresses with
  | nil => exact iff_of_true h trivial
  | cons call calls ih =>
    have hcall := @WhitelistSet.call_iff inet_pton w addresses h call
    constructor
    · rintro ⟨-, err, w', heq, hrun⟩
      refine ⟨hcall.mp ⟨err, w', heq, hrun.first⟩, fun err' w'' heq' => ?_⟩
      obtain ⟨rfl, rfl⟩ := Prod.mk.inj (Option.some.inj (heq.symm.trans heq'))
      exact (ih hrun.first).mp hrun
    · rintro ⟨hfits, hrest⟩
      obtain ⟨err, w', heq, hset⟩ := hcall.mpr hfits
      exact ⟨h, err, w', heq, (ih hset).mpr (hrest err w' heq)⟩

end calls

theorem whitelistSet_new : WhitelistSet whitelist_new [] :=
  ⟨WhitelistArray.noConfusion, rfl, rfl, List.nodup_nil, List.nodup_nil, fun _ => Iff.rfl, fun _ hmem => by cases hmem⟩

/-- The whitelist of a server is a set, with the addresses of the calls that succeed, in
every run of calls that fit; and in no other. -/
theorem whitelist_set_iff (inet_pton : AddressFamily → List UInt8 → Bool) (calls : List AddCall) :
    RunIsSet inet_pton whitelist_new [] calls ↔ RunFits inet_pton whitelist_new calls :=
  whitelistSet_new.run_iff calls

/-- `inet_pton` on the text `2001:db8:0:0:0:0:0:1`. -/
def long_address_pton : AddressFamily → List UInt8 → Bool := fun family ip =>
  family = .AF_INET6 && ip = bytes "2001:db8:0:0:0:0:0:1"

def add_long_address : AddCall := ⟨bytes "2001:db8:0:0:0:0:0:1", true, true, true, true⟩

/-- An IPv6 address that is added twice stands in the whitelist twice, and is not found. -/
theorem whitelist_set_long_address :
    (uvhttp_server_add_rate_limit_whitelist long_address_pton whitelist_new add_long_address).bind (fun first =>
        uvhttp_server_add_rate_limit_whitelist long_address_pton first.2 add_long_address) =
      some (.OK, ⟨.block [some (bytes "2001:db8:0:0:0:0:0:1"), some (bytes "2001:db8:0:0:0:0:0:1")], 2,
        [bytes "2001:db8:0:0:0:", bytes "2001:db8:0:0:0:"]⟩) ∧
      ¬ RunIsSet long_address_pton whitelist_new [] [add_long_address, add_long_address] := by
  refine ⟨by decide +kernel, ?_⟩
  rw [whitelistSet_new.run_iff]
  rintro ⟨hfits, -⟩
  have hgrows : GrowsWhitelist long_address_pton whitelist_new add_long_address :=
    ⟨by decide +kernel, List.not_mem_nil, rfl⟩
  have hshort := (hfits hgrows).short rfl rfl
  have hlength : add_long_address.client_ip.length = 20 := by decide +kernel
  rw [hlength, INET_ADDRSTRLEN] at hshort
  omega

end uvhttp.server
