import Uvhttp.Lib.Ledger

open ledger

namespace uvhttp.context

/-- The result codes of the functions of the context. -/
inductive ContextError where
  | OK
  | OUT_OF_MEMORY
  | IO_ERROR
  | TLS_INIT
  deriving DecidableEq, Repr

/-- `uvhttp_context_t`: its own block, and what its pointers lead to. -/
structure Context where
  block : Nat
  initialized : Bool
  tls_initialized : Bool
  tls_entropy : Option Nat
  tls_drbg : Option Nat
  ws_drbg_initialized : Bool
  ws_entropy : Option Nat
  ws_drbg : Option Nat
  current_config : Option Nat
  deriving DecidableEq, Repr

section calls

variable (granted : Nat → Bool)

/-- `uvhttp_config_new`. -/
def uvhttp_config_new : LedgerM (Option Nat) := acquire granted

/-- `uvhttp_config_free`. -/
def uvhttp_config_free (config : Option Nat) : LedgerM Unit := release_all config.toList

def uvhttp_context_create : LedgerM (Option Context) := do
  match ← acquire granted with
  | none => pure none
  | some block => pure (some ⟨block, false, false, none, none, false, none, none, none⟩)

/-- What `uvhttp_context_init_tls` and `uvhttp_context_init_websocket` do for the entropy and the generator
of a module; `drbg` is the pointer to the generator before the call. -/
def init_drbg (seeded : Bool) (drbg : Option Nat) : LedgerM (ContextError × Option Nat × Option Nat) := do
  match ← acquire granted with
  | none => pure (.OUT_OF_MEMORY, none, drbg)
  | some entropy =>
    match ← acquire granted with
    | none => do
      release entropy
      pure (.OUT_OF_MEMORY, none, none)
    | some drbg =>
      if !seeded then do
        release entropy
        release drbg
        pure (.IO_ERROR, none, none)
      else pure (.OK, some entropy, some drbg)

def uvhttp_context_init_tls (seeded : Bool) (c : Context) : LedgerM (ContextError × Context) :=
  if c.tls_initialized then pure (.OK, c)
  else do
    let (err, tls_entropy, tls_drbg) ← init_drbg granted seeded c.tls_drbg
    pure (err, { c with tls_initialized := err = .OK, tls_entropy, tls_drbg })

def uvhttp_context_init_websocket (seeded : Bool) (c : Context) : LedgerM (ContextError × Context) :=
  if c.ws_drbg_initialized then pure (.OK, c)
  else do
    let (err, ws_entropy, ws_drbg) ← init_drbg granted seeded c.ws_drbg
    pure (err, { c with ws_drbg_initialized := err = .OK, ws_entropy, ws_drbg })

def uvhttp_context_cleanup_tls (c : Context) : LedgerM Context :=
  if !c.tls_initialized then pure c
  else do
    release_all (c.tls_entropy.toList ++ c.tls_drbg.toList)
    pure { c with tls_initialized := false, tls_entropy := none, tls_drbg := none }

def uvhttp_context_cleanup_websocket (c : Context) : LedgerM Context :=
  if !c.ws_drbg_initialized then pure c
  else do
    release_all (c.ws_entropy.toList ++ c.ws_drbg.toList)
    pure { c with ws_drbg_initialized := false, ws_entropy := none, ws_drbg := none }

def uvhttp_context_init_config (c : Context) : LedgerM (ContextError × Context) :=
  match c.current_config with
  | some _ => pure (.OK, c)
  | none => do
    match ← uvhttp_config_new granted with
    | none => pure (.OUT_OF_MEMORY, c)
    | some config => pure (.OK, { c with current_config := some config })

def uvhttp_context_cleanup_config (c : Context) : LedgerM Context := do
  uvhttp_config_free c.current_config
  pure { c with current_config := none }

/-- `uvhttp_config_set_current`, which forgets the configuration that the context had. -/
def uvhttp_config_set_current (c : Context) (config : Option Nat) : Context := { c with current_config := config }

/-- `uvhttp_context_init`: what becomes of the modules is not its result. -/
def uvhttp_context_init (tls_seeded ws_seeded : Bool) (c : Context) : LedgerM (ContextError × Context) :=
  if c.initialized then pure (.OK, c)
  else do
    let (_, c) ← uvhttp_context_init_tls granted tls_seeded { c with initialized := true }
    let (_, c) ← uvhttp_context_init_websocket granted ws_seeded c
    let (_, c) ← uvhttp_context_init_config granted c
    pure (.OK, c)

def uvhttp_tls_init (seeded : Bool) (c : Context) : LedgerM (ContextError × Context) := do
  let (err, c) ← uvhttp_context_init_tls granted seeded c
  pure (if err ≠ .OK then .TLS_INIT else .OK, c)

/-- `uvhttp_tls_cleanup` empties the entropy and the generator, and keeps their blocks. -/
def uvhttp_tls_cleanup (c : Context) : Context :=
  if !c.tls_initialized then c else { c with tls_initialized := false }

def uvhttp_context_destroy (c : Context) : LedgerM Unit := do
  let c ← uvhttp_context_cleanup_tls c
  let c ← uvhttp_context_cleanup_websocket c
  let c ← uvhttp_context_cleanup_config c
  release c.block

/-- A context, and the configurations in use that it does not hold. -/
structure Configured where
  context : Context
  configs : List Nat
  deriving DecidableEq, Repr

/-- The configurations that an application can hand to a context: the one that it holds, and the others. -/
def Configured.offered (s : Configured) : List Nat := s.context.current_config.toList ++ s.configs

/-- A call on a context, with how the seeding of a generator goes. A configuration is told by its place: an
application hands over one that is in use, or `NULL` where there is none at the place, and it frees one that
the context does not hold. -/
inductive ContextCall where
  | uvhttp_context_init (tls_seeded ws_seeded : Bool)
  | uvhttp_context_init_tls (seeded : Bool)
  | uvhttp_context_cleanup_tls
  | uvhttp_context_init_websocket (seeded : Bool)
  | uvhttp_context_cleanup_websocket
  | uvhttp_context_init_config
  | uvhttp_context_cleanup_config
  | uvhttp_config_new
  | uvhttp_config_free (config : Nat)
  | uvhttp_config_set_current (config : Nat)
  | uvhttp_tls_init (seeded : Bool)
  | uvhttp_tls_cleanup
  deriving DecidableEq, Repr

/-- A call that does not see the other configurations. -/
def Configured.on_context (s : Configured) (call : Context → LedgerM Context) : LedgerM Configured := do
  let context ← call s.context
  pure { s with context }

def ContextCall.perform (s : Configured) : ContextCall → LedgerM Configured
  | .uvhttp_context_init tls_seeded ws_seeded =>
    s.on_context fun c => Prod.snd <$> context.uvhttp_context_init granted tls_seeded ws_seeded c
  | .uvhttp_context_init_tls seeded =>
    s.on_context fun c => Prod.snd <$> context.uvhttp_context_init_tls granted seeded c
  | .uvhttp_context_cleanup_tls => s.on_context context.uvhttp_context_cleanup_tls
  | .uvhttp_context_init_websocket seeded =>
    s.on_context fun c => Prod.snd <$> context.uvhttp_context_init_websocket granted seeded c
  | .uvhttp_context_cleanup_websocket => s.on_context context.uvhttp_context_cleanup_websocket
  | .uvhttp_context_init_config => s.on_context fun c => Prod.snd <$> context.uvhttp_context_init_config granted c
  | .uvhttp_context_cleanup_config => s.on_context context.uvhttp_context_cleanup_config
  | .uvhttp_config_new => do
    let config ← context.uvhttp_config_new granted
    pure { s with configs := s.configs ++ config.toList }
  | .uvhttp_config_free config => do
    context.uvhttp_config_free s.configs[config]?
    pure { s with configs := s.configs.eraseIdx config }
  | .uvhttp_config_set_current config =>
    pure ⟨context.uvhttp_config_set_current s.context s.offered[config]?, s.offered.eraseIdx config⟩
  | .uvhttp_tls_init seeded => s.on_context fun c => Prod.snd <$> context.uvhttp_tls_init granted seeded c
  | .uvhttp_tls_cleanup => s.on_context fun c => pure (context.uvhttp_tls_cleanup c)

end calls

/-- The blocks of the TLS module that the context will free. -/
def Context.tls_blocks (c : Context) : List Nat :=
  if c.tls_initialized then c.tls_entropy.toList ++ c.tls_drbg.toList else []

def Context.ws_blocks (c : Context) : List Nat :=
  if c.ws_drbg_initialized then c.ws_entropy.toList ++ c.ws_drbg.toList else []

/-- The blocks that `uvhttp_context_destroy` frees. -/
def Context.blocks (c : Context) : List Nat := c.tls_blocks ++ (c.ws_blocks ++ (c.current_config.toList ++ [c.block]))

def Configured.blocks (s : Configured) : List Nat := s.context.blocks ++ s.configs

/-- The blocks that nothing leads to after a call: those of a TLS state that is cleaned up without its
context. -/
def ContextCall.loses (s : Configured) : ContextCall → List Nat
  | .uvhttp_tls_cleanup => s.context.tls_blocks
  | _ => []

/-- What a context leaves behind: the blocks that were lost, and the configurations that are held by the
application alone. -/
structure Left where
  lost : List Nat
  configs : List Nat
  deriving DecidableEq, Repr

/-- A context from its creation to its end. -/
def context_life (granted : Nat → Bool) (calls : List ContextCall) : LedgerM Left := do
  match ← uvhttp_context_create granted with
  | none => pure ⟨[], []⟩
  | some c =>
    let (last, lost) ←
      run_losing (losing (ContextCall.perform granted) fun s _ call => call.loses s) (Configured.mk c []) calls
    uvhttp_context_destroy last.context
    pure ⟨lost, last.configs⟩

section accounts

variable {granted : Nat → Bool} {seeded : Bool} {before : List Nat}

/-- The two blocks of a module, or none. -/
theorem init_drbg_accounts {drbg : Option Nat} :
    Accounts (init_drbg granted seeded drbg) before fun r rs =>
      rs.Perm ((if r.1 = .OK then r.2.1.toList ++ r.2.2.toList else []) ++ before) := by
  refine Accounts.acquire_bind (fun entropy _ => Accounts.acquire_bind (fun drbg _ => ?_) ?_) ?_
  · cases seeded with
    | true => exact Accounts.pure (List.Perm.swap entropy drbg before)
    | false =>
      refine Accounts.release_bind (List.Perm.swap entropy drbg before) ?_
      exact Accounts.release_bind (List.Perm.refl _) (Accounts.pure (List.Perm.refl _))
  · exact Accounts.release_bind (List.Perm.refl _) (Accounts.pure (List.Perm.refl _))
  · exact Accounts.pure (List.Perm.refl _)

theorem init_tls_accounts (c : Context) : Accounts (uvhttp_context_init_tls granted seeded c) c.blocks fun r rs =>
    rs.Perm r.2.blocks ∧ r.2.block = c.block := by
  rw [uvhttp_context_init_tls]
  by_cases hinit : c.tls_initialized = true
  · rw [if_pos hinit]
    exact Accounts.pure ⟨List.Perm.refl _, rfl⟩
  · rw [if_neg hinit]
    refine init_drbg_accounts.bind fun r rs hrs => Accounts.pure ⟨hrs.trans ?_, rfl⟩
    have hnone : c.tls_blocks = [] := if_neg hinit
    rw [Context.blocks, hnone, Context.blocks, Context.tls_blocks]
    simp only [decide_eq_true_eq]
    exact List.Perm.refl _

theorem init_websocket_accounts (c : Context) :
    Accounts (uvhttp_context_init_websocket granted seeded c) c.blocks fun r rs =>
      rs.Perm r.2.blocks ∧ r.2.block = c.block := by
  rw [uvhttp_context_init_websocket]
  by_cases hinit : c.ws_drbg_initialized = true
  · rw [if_pos hinit]
    exact Accounts.pure ⟨List.Perm.refl _, rfl⟩
  · rw [if_neg hinit]
    refine init_drbg_accounts.bind fun r rs hrs => Accounts.pure ⟨hrs.trans ?_, rfl⟩
    have hnone : c.ws_blocks = [] := if_neg hinit
    rw [Context.blocks, hnone, Context.blocks, Context.ws_blocks]
    simp only [decide_eq_true_eq]
    exact List.perm_append_comm_assoc _ _ _

theorem blocks_config (c : Context) (config : Nat) :
    ({ c with current_config := some config } : Context).blocks.Perm
      (config :: ({ c with current_config := none } : Context).blocks) :=
  (List.Perm.append_left _ List.perm_middle).trans List.perm_middle

/-- What a configuration leaves when it is no longer held. -/
theorem blocks_no_config (c : Context) :
    c.blocks.Perm (c.current_config.toList ++ ({ c with current_config := none } : Context).blocks) := by
  cases hconfig : c.current_config with
  | none =>
    rw [Context.blocks, hconfig]
    exact List.Perm.refl _
  | some config =>
    have hperm := blocks_config c config
    rwa [← hconfig] at hperm

theorem init_config_accounts (c : Context) : Accounts (uvhttp_context_init_config granted c) c.blocks fun r rs =>
    rs.Perm r.2.blocks ∧ r.2.block = c.block := by
  rw [uvhttp_context_init_config]
  cases hconfig : c.current_config with
  | some config => exact Accounts.pure ⟨List.Perm.refl _, rfl⟩
  | none =>
    refine Accounts.acquire_bind (fun config _ => Accounts.pure ⟨?_, rfl⟩) (Accounts.pure ⟨List.Perm.refl _, rfl⟩)
    have hperm := (blocks_config c config).symm
    rwa [← hconfig] at hperm

theorem cleanup_tls_accounts (c : Context) : Accounts (uvhttp_context_cleanup_tls c) c.blocks fun c' rs =>
    rs.Perm c'.blocks ∧ c'.tls_blocks = [] := by
  rw [uvhttp_context_cleanup_tls]
  cases hinit : c.tls_initialized with
  | false =>
    refine Accounts.pure ⟨List.Perm.refl _, if_neg ?_⟩
    rw [hinit]
    exact Bool.false_ne_true
  | true =>
    have hheld : c.tls_blocks = c.tls_entropy.toList ++ c.tls_drbg.toList := if_pos hinit
    rw [Context.blocks, hheld]
    exact Accounts.release_all_bind (List.Perm.refl _) (Accounts.pure ⟨List.Perm.refl _, rfl⟩)

theorem cleanup_websocket_accounts (c : Context) : Accounts (uvhttp_context_cleanup_websocket c) c.blocks fun c' rs =>
    rs.Perm c'.blocks ∧ c'.tls_blocks = c.tls_blocks ∧ c'.ws_blocks = [] := by
  rw [uvhttp_context_cleanup_websocket]
  cases hinit : c.ws_drbg_initialized with
  | false =>
    refine Accounts.pure ⟨List.Perm.refl _, rfl, if_neg ?_⟩
    rw [hinit]
    exact Bool.false_ne_true
  | true =>
    have hheld : c.ws_blocks = c.ws_entropy.toList ++ c.ws_drbg.toList := if_pos hinit
    rw [Context.blocks, hheld]
    exact Accounts.release_all_bind (List.perm_append_comm_assoc _ _ _) (Accounts.pure ⟨List.Perm.refl _, rfl, rfl⟩)

theorem cleanup_config_accounts (c : Context) : Accounts (uvhttp_context_cleanup_config c) c.blocks fun c' rs =>
    rs.Perm c'.blocks ∧ c' = { c with current_config := none } :=
  Accounts.release_all_bind (blocks_no_config c) (Accounts.pure ⟨List.Perm.refl _, rfl⟩)

theorem context_init_accounts (tls_seeded ws_seeded : Bool) (c : Context) :
    Accounts (uvhttp_context_init granted tls_seeded ws_seeded c) c.blocks fun r rs =>
      rs.Perm r.2.blocks ∧ r.2.block = c.block := by
  rw [uvhttp_context_init]
  by_cases hinit : c.initialized = true
  · rw [if_pos hinit]
    exact Accounts.pure ⟨List.Perm.refl _, rfl⟩
  · rw [if_neg hinit]
    refine (init_tls_accounts { c with initialized := true }).bind fun tls rs ⟨hrs, htls⟩ => Accounts.perm hrs ?_
    refine (init_websocket_accounts tls.2).bind fun ws rs ⟨hrs, hws⟩ => Accounts.perm hrs ?_
    refine (init_config_accounts ws.2).bind fun config rs ⟨hrs, hconfig⟩ => Accounts.pure ⟨hrs, ?_⟩
    exact hconfig.trans (hws.trans htls)

theorem tls_init_accounts (c : Context) : Accounts (uvhttp_tls_init granted seeded c) c.blocks fun r rs =>
    rs.Perm r.2.blocks :=
  (init_tls_accounts c).bind fun _ _ htls => Accounts.pure htls.1

/-- The TLS blocks are no longer freed with the context. -/
theorem blocks_tls_cleanup (c : Context) : c.blocks.Perm ((uvhttp_tls_cleanup c).blocks ++ c.tls_blocks) := by
  rw [uvhttp_tls_cleanup]
  cases hinit : c.tls_initialized with
  | false =>
    have hnone : c.tls_blocks = [] := if_neg (by rw [hinit]; exact Bool.false_ne_true)
    rw [hnone, List.append_nil]
    exact List.Perm.refl _
  | true => exact List.perm_append_comm

/-- A call on the context, beside the other configurations. -/
theorem on_context_accounts (s : Configured) {call : Context → LedgerM Context} {lost : List Nat}
    (hcall : Accounts (call s.context) s.context.blocks fun c rs => rs.Perm (c.blocks ++ lost)) :
    Accounts (s.on_context call) s.blocks fun s' rs => rs.Perm (s'.blocks ++ lost) ∧ s'.configs = s.configs := by
  refine (hcall.frame s.configs).bind ?_
  rintro c - ⟨own, hown, rfl⟩
  refine Accounts.pure ⟨(hown.append_right _).trans ?_, rfl⟩
  rw [Configured.blocks, List.append_assoc, List.append_assoc]
  exact List.Perm.append_left _ List.perm_append_comm

/-- A call that leaves no configuration beside the context. -/
def ContextCall.KeepsConfigs (call : ContextCall) : Prop :=
  call ≠ .uvhttp_config_new ∧ ∀ config, call ≠ .uvhttp_config_set_current config

theorem config_new_accounts (s : Configured) :
    Accounts (ContextCall.uvhttp_config_new.perform granted s) s.blocks fun s' rs => rs.Perm (s'.blocks ++ []) := by
  have hblocks (config : Option Nat) : (config.toList ++ s.blocks).Perm
      ({ s with configs := s.configs ++ config.toList } : Configured).blocks := by
    rw [Configured.blocks, Configured.blocks, ← List.append_assoc s.context.blocks]
    exact List.perm_append_comm
  rw [ContextCall.perform, context.uvhttp_config_new]
  simp only [List.append_nil]
  refine Accounts.acquire_bind (fun config _ => Accounts.pure ?_) (Accounts.pure ?_)
  · exact hblocks (some config)
  · exact hblocks none

theorem config_free_accounts (s : Configured) (config : Nat) :
    Accounts ((ContextCall.uvhttp_config_free config).perform granted s) s.blocks fun s' rs =>
      rs.Perm (s'.blocks ++ []) ∧ (s.configs = [] → s'.configs = []) := by
  have htaken : s.blocks.Perm (s.configs[config]?.toList ++
      ({ s with configs := s.configs.eraseIdx config } : Configured).blocks) :=
    (List.Perm.append_left _ (taken_perm s.configs config)).trans (List.perm_append_comm_assoc _ _ _)
  refine Accounts.release_all_bind htaken (Accounts.pure ⟨?_, fun hnone => ?_⟩)
  · rw [List.append_nil]
  · change s.configs.eraseIdx config = []
    rw [hnone, List.eraseIdx_nil]

/-- A configuration that is handed over takes the place of the one before, which stays in use. -/
theorem config_set_current_accounts (s : Configured) (config : Nat) :
    Accounts ((ContextCall.uvhttp_config_set_current config).perform granted s) s.blocks fun s' rs =>
      rs.Perm (s'.blocks ++ []) := by
  refine Accounts.pure ?_
  have hoffered (s : Configured) : s.blocks.Perm
      (s.offered ++ ({ s.context with current_config := none } : Context).blocks) := by
    refine ((blocks_no_config s.context).append_right s.configs).trans ?_
    rw [Configured.offered, List.append_assoc, List.append_assoc]
    exact List.Perm.append_left _ List.perm_append_comm
  rw [List.append_nil]
  refine (hoffered s).trans (List.Perm.trans ?_ (hoffered _).symm)
  exact (taken_perm s.offered config).append_right _

/-- A call loses the blocks that it says, and no others. -/
theorem perform_accounts (s : Configured) (call : ContextCall) : Accounts (call.perform granted s) s.blocks
    fun s' rs => rs.Perm (s'.blocks ++ call.loses s) ∧ (call.KeepsConfigs → s.configs = [] → s'.configs = []) := by
  have hkeeps {c : Context} {rs : List Nat} (h : rs.Perm c.blocks) : rs.Perm (c.blocks ++ []) := by
    rwa [List.append_nil]
  have hcontext {run : Context → LedgerM Context} {lost : List Nat}
      (hrun : Accounts (run s.context) s.context.blocks fun c rs => rs.Perm (c.blocks ++ lost)) :
      Accounts (s.on_context run) s.blocks fun s' rs =>
        rs.Perm (s'.blocks ++ lost) ∧ (call.KeepsConfigs → s.configs = [] → s'.configs = []) :=
    (on_context_accounts s hrun).mono fun s' rs h => ⟨h.1, fun _ hnone => h.2.trans hnone⟩
  cases call with
  | uvhttp_context_init tls_seeded ws_seeded =>
    rw [ContextCall.perform]
    refine hcontext ?_
    exact ((context_init_accounts tls_seeded ws_seeded s.context).mono fun _ _ h => hkeeps h.1).map
  | uvhttp_context_init_tls seeded =>
    rw [ContextCall.perform]
    refine hcontext ?_
    exact ((init_tls_accounts s.context).mono fun _ _ h => hkeeps h.1).map
  | uvhttp_context_cleanup_tls => exact hcontext ((cleanup_tls_accounts s.context).mono fun _ _ h => hkeeps h.1)
  | uvhttp_context_init_websocket seeded =>
    rw [ContextCall.perform]
    refine hcontext ?_
    exact ((init_websocket_accounts s.context).mono fun _ _ h => hkeeps h.1).map
  | uvhttp_context_cleanup_websocket =>
    exact hcontext ((cleanup_websocket_accounts s.context).mono fun _ _ h => hkeeps h.1)
  | uvhttp_context_init_config =>
    rw [ContextCall.perform]
    refine hcontext ?_
    exact ((init_config_accounts s.context).mono fun _ _ h => hkeeps h.1).map
  | uvhttp_context_cleanup_config => exact hcontext ((cleanup_config_accounts s.context).mono fun _ _ h => hkeeps h.1)
  | uvhttp_config_new =>
    exact (config_new_accounts s).mono fun _ _ h => ⟨h, fun hcall => absurd rfl hcall.1⟩
  | uvhttp_config_free config =>
    exact (config_free_accounts s config).mono fun _ _ h => ⟨h.1, fun _ hnone => h.2 hnone⟩
  | uvhttp_config_set_current config =>
    exact (config_set_current_accounts s config).mono fun _ _ h => ⟨h, fun hcall => absurd rfl (hcall.2 config)⟩
  | uvhttp_tls_init seeded =>
    rw [ContextCall.perform]
    refine hcontext ?_
    exact ((tls_init_accounts s.context).mono fun _ _ h => hkeeps h).map
  | uvhttp_tls_cleanup =>
    rw [ContextCall.perform]
    refine hcontext ?_
    exact Accounts.pure (blocks_tls_cleanup s.context)

/-- A run loses the TLS states that are cleaned up without their context, and keeps the configurations. -/
theorem run_accounts (s : Configured) (calls : List ContextCall) :
    Accounts (run_losing (losing (ContextCall.perform granted) fun s _ call => call.loses s) s calls) s.blocks
      fun r rs => rs.Perm (r.1.blocks ++ r.2) ∧
        ((∀ call ∈ calls, call.KeepsConfigs) → s.configs = [] → r.1.configs = []) ∧
        ((∀ call ∈ calls, call ≠ .uvhttp_tls_cleanup) → r.2 = []) := by
  have hloses {call : ContextCall} (hcall : call ≠ .uvhttp_tls_cleanup) (s : Configured) : call.loses s = [] := by
    cases call with
    | uvhttp_tls_cleanup => exact absurd rfl hcall
    | _ => rfl
  let valid := fun last : Configured => (∀ call ∈ calls, call.KeepsConfigs) → s.configs = [] → last.configs = []
  have hcall (t : Configured) (call : ContextCall) (hmem : call ∈ calls) (ht : valid t) :
      Accounts (losing (ContextCall.perform granted) (fun s _ call => call.loses s) t call) t.blocks fun r rs =>
        rs.Perm (r.1.blocks ++ r.2) ∧ valid r.1 ∧ (call ≠ .uvhttp_tls_cleanup → r.2 = []) :=
    Accounts.map ((perform_accounts t call).mono fun t' _ h =>
      ⟨h.1, fun hkeeps hnone => h.2 (hkeeps call hmem) (ht hkeeps hnone), fun hother => hloses hother t⟩)
  exact Accounts.run_losing hcall s fun _ hnone => hnone

/-- The context frees what it holds. -/
theorem destroy_accounts (c : Context) : Accounts (uvhttp_context_destroy c) c.blocks fun _ rs => rs = [] := by
  refine (cleanup_tls_accounts c).bind fun tls rs ⟨hrs, htls⟩ => Accounts.perm hrs ?_
  refine (cleanup_websocket_accounts tls).bind fun ws rs ⟨hrs, hsame, hws⟩ => Accounts.perm hrs ?_
  refine (cleanup_config_accounts ws).bind fun last rs ⟨hrs, hlast⟩ => Accounts.perm hrs ?_
  have hblocks : last.blocks = [last.block] := by
    have htls' : ws.tls_blocks = [] := hsame.trans htls
    rw [hlast]
    change ws.tls_blocks ++ (ws.ws_blocks ++ [ws.block]) = [ws.block]
    rw [htls', hws]
    rfl
  rw [hblocks]
  exact Accounts.release

theorem create_accounts : Accounts (uvhttp_context_create granted) before fun c rs =>
    rs = resources_of Context.blocks c ++ before ∧ ∀ created ∈ c, created.block ∉ before := by
  refine Accounts.acquire_bind (fun block hfresh => Accounts.pure ⟨rfl, ?_⟩) (Accounts.pure ⟨rfl, ?_⟩)
  · intro created hcreated
    obtain rfl := Option.some.inj hcreated
    exact hfresh
  · intro created hcreated
    cases hcreated

end accounts

/-- Whatever calls are made on a context between its creation and its end, and whichever allocations and
seedings fail, no block is freed twice as long as the application hands over configurations that are in use
and frees none that the context holds. What is left are the configurations that the context does not hold at
its end and that have not been freed, and the blocks of the TLS states that `uvhttp_tls_cleanup` ended: none,
if neither a configuration is handed over nor a TLS state ended so. -/
theorem context_life_accounts (granted : Nat → Bool) (calls : List ContextCall) :
    Accounts (context_life granted calls) [] fun left rs =>
      rs.Perm (left.lost ++ left.configs) ∧
        ((∀ call ∈ calls, call.KeepsConfigs) → left.configs = []) ∧
        ((∀ call ∈ calls, call ≠ .uvhttp_tls_cleanup) → left.lost = []) := by
  refine create_accounts.bind fun created rs ⟨hrs, _⟩ => ?_
  rw [List.append_nil] at hrs
  cases created with
  | none => exact Accounts.pure ⟨hrs ▸ List.Perm.refl _, fun _ => rfl, fun _ => rfl⟩
  | some c =>
    have hblocks : rs = (Configured.mk c []).blocks := hrs.trans (List.append_nil _).symm
    rw [hblocks]
    refine (run_accounts (Configured.mk c []) calls).bind fun r rs ⟨hrs, hconfigs, hlost⟩ => Accounts.perm hrs ?_
    rw [Configured.blocks, List.append_assoc]
    refine ((destroy_accounts r.1.context).frame _).bind ?_
    rintro - rs ⟨own, rfl, rfl⟩
    exact Accounts.pure ⟨@List.perm_append_comm _ r.1.configs r.2, fun hkeeps => hconfigs hkeeps rfl, hlost⟩

/-- A configuration that is no longer in use must not be handed over: its next cleanup frees it twice. -/
theorem freed_config_faults {l : Ledger} {config : Nat} (h : config ∉ l.held) (c : Context) :
    uvhttp_context_cleanup_config (uvhttp_config_set_current c (some config)) l = none := by
  have hrelease : release config l = none := release_unused h
  change (uvhttp_config_free (some config) l).bind _ = none
  change (((release config l).bind _).bind _) = none
  rw [hrelease]
  rfl

/-- A TLS state that is ended and begun again leaves its first two blocks behind. -/
example : context_life (fun _ => true)
    [.uvhttp_context_init true true, .uvhttp_tls_cleanup, .uvhttp_context_init_tls true] ⟨[], 0⟩ =
      some (⟨[1, 2], []⟩, ⟨[2, 1], 8⟩) := by decide

/-- Of two configurations that are handed over in turn, the one is left that the context does not hold last. -/
example : context_life (fun _ => true)
    [.uvhttp_config_new, .uvhttp_config_new, .uvhttp_config_set_current 0, .uvhttp_config_set_current 1,
      .uvhttp_config_set_current 1] ⟨[], 0⟩ = some (⟨[], [2]⟩, ⟨[2], 3⟩) := by decide

end uvhttp.context
