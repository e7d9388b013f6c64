import Uvhttp.Basic
import Uvhttp.Lib.Loop

open loop

namespace uvhttp.tls_delivery

/-- The answers of `mbedtls_ssl_handshake`. -/
inductive SslHandshake where
  | done
  | want
  | failed
  deriving DecidableEq, Repr

/-- The answers of `mbedtls_ssl_read`. -/
inductive SslRead where
  | data (bytes : List UInt8)
  | want
  | close_notify
  | error
  deriving DecidableEq, Repr

/-- What a connection calls of mbedtls. The session has the ciphertext buffer with it, which its
`mbedtls_bio_recv` takes from. -/
structure Mbedtls (S : Type) where
  arrive : S → List UInt8 → S
  mbedtls_ssl_handshake : S → SslHandshake × S
  mbedtls_ssl_read : S → Nat → SslRead × S

/-- A TLS connection as its read callbacks see it. -/
structure TlsReader (S : Type) where
  ssl : S
  handshaking : Bool
  websocket : Bool
  closing : Bool
  deriving DecidableEq, Repr

/-- How the loop of `on_read` ends: with what stands in the read buffer, or with a connection that is
closed. -/
inductive DrainEnd (S : Type) where
  | parse (read_buffer : List UInt8) (ssl : S)
  | close (ssl : S)

/-- How the loop of `on_websocket_read` ends: with the chunks that the frame parser got, and whether the
connection stays. -/
structure FeedEnd (S : Type) where
  chunks : List (List UInt8)
  ssl : S
  stays : Bool

section callbacks

variable {S : Type} (m : Mbedtls S) (read_buffer_size : Nat)

/-- A turn of the loop of `on_read`: more plaintext behind what stands in the read buffer. -/
def drain_turn (s : List UInt8 × S) : Option (DrainEnd S ⊕ (List UInt8 × S)) :=
  match m.mbedtls_ssl_read s.2 (read_buffer_size - s.1.length) with
  | (.want, ssl) => some (.inl (.parse s.1 ssl))
  | (.close_notify, ssl) => some (.inl (.close ssl))
  | (.error, ssl) => some (.inl (.close ssl))
  | (.data bytes, ssl) =>
    if (s.1 ++ bytes).length ≥ read_buffer_size then some (.inl (.parse (s.1 ++ bytes) ssl))
    else some (.inr (s.1 ++ bytes, ssl))

/-- A turn of the loop of `on_websocket_read`: `takes` is the answer of `uvhttp_ws_process_data` to the last
of the chunks. -/
def feed_turn (takes : List (List UInt8) → Bool) (s : List (List UInt8) × S) :
    Option (FeedEnd S ⊕ (List (List UInt8) × S)) :=
  match m.mbedtls_ssl_read s.2 read_buffer_size with
  | (.want, ssl) => some (.inl ⟨s.1, ssl, true⟩)
  | (.close_notify, ssl) => some (.inl ⟨s.1, ssl, false⟩)
  | (.error, ssl) => some (.inl ⟨s.1, ssl, false⟩)
  | (.data bytes, ssl) =>
    if takes (s.1 ++ [bytes]) then some (.inr (s.1 ++ [bytes], ssl))
    else some (.inl ⟨s.1 ++ [bytes], ssl, false⟩)

variable (fuel : Nat)

/-- `on_read` behind the handshake: the connection afterwards, and what is given to `llhttp_execute`. -/
def drain (takes : List (List UInt8) → Bool) (c : TlsReader S) : Option (TlsReader S × List (List UInt8)) :=
  match run (drain_turn m read_buffer_size) fuel ([], c.ssl) with
  | .returned (.parse read_buffer ssl) => some ({ c with ssl, closing := !takes [read_buffer] }, [read_buffer])
  | .returned (.close ssl) => some ({ c with ssl, closing := true }, [])
  | _ => none

/-- `on_read` on a TLS connection, where this ciphertext has come; `takes` tells whether the parser accepts
what it gets. -/
def on_read (takes : List (List UInt8) → Bool) (cipher : List UInt8) (c : TlsReader S) :
    Option (TlsReader S × List (List UInt8)) :=
  let c := { c with ssl := m.arrive c.ssl cipher }
  if c.handshaking then
    match m.mbedtls_ssl_handshake c.ssl with
    | (.want, ssl) => some ({ c with ssl }, [])
    | (.failed, ssl) => some ({ c with ssl, closing := true }, [])
    | (.done, ssl) => drain m read_buffer_size fuel takes { c with ssl, handshaking := false }
  else drain m read_buffer_size fuel takes c

def on_websocket_read (takes : List (List UInt8) → Bool) (cipher : List UInt8) (c : TlsReader S) :
    Option (TlsReader S × List (List UInt8)) :=
  match run (feed_turn m read_buffer_size takes) fuel ([], m.arrive c.ssl cipher) with
  | .returned fed => some ({ c with ssl := fed.ssl, closing := !fed.stays }, fed.chunks)
  | _ => none

/-- What happens to a connection: ciphertext comes, a read fails, its requests end in a WebSocket. -/
inductive TlsEvent where
  | read (cipher : List UInt8) (takes : List (List UInt8) → Bool)
  | read_failed
  | switch_to_websocket

/-- One event. A connection that is being closed reads no more. -/
def tls_step (c : TlsReader S) : TlsEvent → Option (TlsReader S × List (List UInt8))
  | .read cipher takes =>
    if c.closing then some (c, [])
    else if c.websocket then on_websocket_read m read_buffer_size fuel takes cipher c
    else on_read m read_buffer_size fuel takes cipher c
  | .read_failed => some ({ c with closing := true }, [])
  | .switch_to_websocket => some (if c.handshaking then c else { c with websocket := true }, [])

/-- A run, with all that was given to the parsers. -/
def tls_run : TlsReader S → List TlsEvent → Option (TlsReader S × List (List UInt8))
  | c, [] => some (c, [])
  | c, event :: events =>
    (tls_step m read_buffer_size fuel c event).bind fun next =>
      (tls_run next.1 events).map fun last => (last.1, next.2 ++ last.2)

end callbacks

def TlsEvent.cipher : TlsEvent → List UInt8
  | read cipher _ => cipher
  | _ => []

/-- The ciphertext that comes in a run. -/
def ciphertext (events : List TlsEvent) : List UInt8 := events.flatMap TlsEvent.cipher

/-- What is known of mbedtls: `decrypt` is the plaintext of the records that are complete in a ciphertext, and
`Session ssl cipher delivered` is a session that has been given a ciphertext and has delivered a plaintext.
A read returns the next bytes of the plaintext, at most as many as are asked for and at least one, and wants
more ciphertext only when all the plaintext is delivered. -/
structure Decrypts {S : Type} (m : Mbedtls S) (decrypt : List UInt8 → List UInt8)
    (Session : S → List UInt8 → List UInt8 → Prop) : Prop where
  grows : ∀ cipher more, decrypt cipher <+: decrypt (cipher ++ more)
  arrive : ∀ ssl cipher delivered more, Session ssl cipher delivered →
    Session (m.arrive ssl more) (cipher ++ more) delivered
  handshake : ∀ ssl cipher delivered, Session ssl cipher delivered →
    Session (m.mbedtls_ssl_handshake ssl).2 cipher delivered
  data : ∀ ssl cipher delivered len bytes ssl', Session ssl cipher delivered → 0 < len →
    m.mbedtls_ssl_read ssl len = (.data bytes, ssl') →
      bytes ≠ [] ∧ bytes.length ≤ len ∧ delivered ++ bytes <+: decrypt cipher ∧ Session ssl' cipher (delivered ++ bytes)
  want : ∀ ssl cipher delivered len ssl', Session ssl cipher delivered → m.mbedtls_ssl_read ssl len = (.want, ssl') →
    delivered = decrypt cipher ∧ Session ssl' cipher delivered

section delivery

variable {S : Type} {m : Mbedtls S} {decrypt : List UInt8 → List UInt8}
  {Session : S → List UInt8 → List UInt8 → Prop} {read_buffer_size fuel : Nat}
  {cipher delivered : List UInt8} {c : TlsReader S} {takes : List (List UInt8) → Bool}

/-- The end of the loop of `on_read`: everything is delivered, or the read buffer is full. -/
inductive Drained (decrypt : List UInt8 → List UInt8) (Session : S → List UInt8 → List UInt8 → Prop)
    (read_buffer_size : Nat) (cipher delivered : List UInt8) : DrainEnd S → Prop where
  | parse {read_buffer : List UInt8} {ssl : S} : Session ssl cipher (delivered ++ read_buffer) →
      delivered ++ read_buffer <+: decrypt cipher → read_buffer.length ≤ read_buffer_size →
      (delivered ++ read_buffer = decrypt cipher ∨ read_buffer.length = read_buffer_size) →
      Drained decrypt Session read_buffer_size cipher delivered (.parse read_buffer ssl)
  | close {ssl : S} : Drained decrypt Session read_buffer_size cipher delivered (.close ssl)

theorem drain_loop (hm : Decrypts m decrypt Session) (hsession : Session c.ssl cipher delivered)
    (hordered : delivered <+: decrypt cipher) (hsize : 0 < read_buffer_size) (hfuel : read_buffer_size < fuel) :
    ∃ ended, run (drain_turn m read_buffer_size) fuel ([], c.ssl) = .returned ended ∧
      Drained decrypt Session read_buffer_size cipher delivered ended := by
  let Inv := fun s : List UInt8 × S =>
    Session s.2 cipher (delivered ++ s.1) ∧ delivered ++ s.1 <+: decrypt cipher ∧ s.1.length < read_buffer_size
  have hturn : ∀ s, Inv s → (∃ ended, drain_turn m read_buffer_size s = some (.inl ended) ∧
        Drained decrypt Session read_buffer_size cipher delivered ended) ∨
      ∃ s', drain_turn m read_buffer_size s = some (.inr s') ∧ Inv s' ∧
        read_buffer_size - s'.1.length + 1 ≤ read_buffer_size - s.1.length := by
    rintro ⟨read_buffer, ssl⟩ ⟨hsession, hordered, hroom⟩
    dsimp only at hsession hordered hroom
    rcases hread : m.mbedtls_ssl_read ssl (read_buffer_size - read_buffer.length) with ⟨answer, ssl'⟩
    rw [drain_turn]
    dsimp only
    rw [hread]
    cases answer with
    | want =>
      obtain ⟨hwhole, hsession'⟩ := hm.want _ _ _ _ _ hsession hread
      exact .inl ⟨_, rfl, .parse hsession' hordered (Nat.le_of_lt hroom) (.inl hwhole)⟩
    | close_notify => exact .inl ⟨_, rfl, .close⟩
    | error => exact .inl ⟨_, rfl, .close⟩
    | data bytes =>
      obtain ⟨hsome, hshort, hordered', hsession'⟩ := hm.data _ _ _ _ _ _ hsession (by omega) hread
      rw [List.append_assoc] at hordered' hsession'
      have hlength : (read_buffer ++ bytes).length ≤ read_buffer_size := by
        rw [List.length_append]
        omega
      have hmore : 0 < bytes.length := List.length_pos_iff.mpr hsome
      dsimp only
      by_cases hfull : (read_buffer ++ bytes).length ≥ read_buffer_size
      · rw [if_pos hfull]
        exact .inl ⟨_, rfl, .parse hsession' hordered' hlength (.inr (Nat.le_antisymm hlength hfull))⟩
      · rw [if_neg hfull]
        refine .inr ⟨_, rfl, ⟨hsession', hordered', Nat.not_le.mp hfull⟩, ?_⟩
        rw [List.length_append] at hfull ⊢
        omega
  have hstart : Inv ([], c.ssl) := ⟨by rwa [List.append_nil], by rwa [List.append_nil], hsize⟩
  exact returns_of_measure (fun s => read_buffer_size - s.1.length) hturn hstart (by rw [Nat.one_mul]; exact hfuel)

/-- What comes behind what was delivered, as far as the buffer has room. -/
theorem drained_eq {read_buffer : List UInt8} (hordered : delivered ++ read_buffer <+: decrypt cipher)
    (hshort : read_buffer.length ≤ read_buffer_size)
    (hend : delivered ++ read_buffer = decrypt cipher ∨ read_buffer.length = read_buffer_size) :
    read_buffer = ((decrypt cipher).drop delivered.length).take read_buffer_size := by
  obtain ⟨rest, hrest⟩ := hordered
  rw [← hrest, List.append_assoc, List.drop_left]
  obtain hwhole | hfull := hend
  · rw [← hwhole] at hrest
    have hnone : rest = [] := List.append_right_eq_self.mp hrest
    rw [hnone, List.append_nil, List.take_of_length_le hshort]
  · rw [← hfull, List.take_left]

/-- What a read leaves: everything has been handed over in order, and while the connection stays, the session
is where the parser is. -/
structure Handed (decrypt : List UInt8 → List UInt8) (Session : S → List UInt8 → List UInt8 → Prop)
    (cipher : List UInt8) (c : TlsReader S) (handed : List UInt8) : Prop where
  ordered : handed <+: decrypt cipher
  session : c.closing = false → Session c.ssl cipher handed

theorem drain_spec (hm : Decrypts m decrypt Session) (hsession : Session c.ssl cipher delivered)
    (hordered : delivered <+: decrypt cipher) (hsize : 0 < read_buffer_size) (hfuel : read_buffer_size < fuel) :
    ∃ c' chunks, drain m read_buffer_size fuel takes c = some (c', chunks) ∧
      Handed decrypt Session cipher c' (delivered ++ chunks.flatten) ∧
      c'.handshaking = c.handshaking ∧ c'.websocket = c.websocket ∧
      (∀ chunk ∈ chunks, chunk.length ≤ read_buffer_size) ∧
      (c'.closing = false → chunks.flatten = ((decrypt cipher).drop delivered.length).take read_buffer_size) := by
  obtain ⟨ended, hrun, hended⟩ := drain_loop hm hsession hordered hsize hfuel
  rw [drain, hrun]
  cases hended with
  | @parse read_buffer ssl hsession' hordered' hshort hend =>
    have hflat : [read_buffer].flatten = read_buffer := List.flatten_singleton
    refine ⟨_, _, rfl, ⟨?_, fun _ => ?_⟩, rfl, rfl, ?_, fun _ => ?_⟩
    · rwa [hflat]
    · rwa [hflat]
    · intro chunk hchunk
      rwa [List.mem_singleton.mp hchunk]
    · rw [hflat]
      exact drained_eq hordered' hshort hend
  | close =>
    refine ⟨_, _, rfl, ⟨?_, Bool.noConfusion⟩, rfl, rfl, List.forall_mem_nil _, Bool.noConfusion⟩
    rwa [List.flatten_nil, List.append_nil]

/-- The end of the loop of `on_websocket_read`: everything is delivered where the connection stays. -/
structure Fed (decrypt : List UInt8 → List UInt8) (Session : S → List UInt8 → List UInt8 → Prop)
    (read_buffer_size : Nat) (cipher delivered : List UInt8) (ended : FeedEnd S) : Prop where
  ordered : delivered ++ ended.chunks.flatten <+: decrypt cipher
  short : ∀ chunk ∈ ended.chunks, chunk.length ≤ read_buffer_size
  whole : ended.stays = true → Session ended.ssl cipher (delivered ++ ended.chunks.flatten) ∧
    delivered ++ ended.chunks.flatten = decrypt cipher

theorem feed_loop (hm : Decrypts m decrypt Session) {ssl : S} (hsession : Session ssl cipher delivered)
    (hordered : delivered <+: decrypt cipher) (hsize : 0 < read_buffer_size)
    (hfuel : (decrypt cipher).length < fuel) :
    ∃ ended, run (feed_turn m read_buffer_size takes) fuel ([], ssl) = .returned ended ∧
      Fed decrypt Session read_buffer_size cipher delivered ended := by
  let Inv := fun s : List (List UInt8) × S =>
    Session s.2 cipher (delivered ++ s.1.flatten) ∧ delivered ++ s.1.flatten <+: decrypt cipher ∧
      ∀ chunk ∈ s.1, chunk.length ≤ read_buffer_size
  let left := fun s : List (List UInt8) × S => (decrypt cipher).length - (delivered ++ s.1.flatten).length
  have hturn : ∀ s, Inv s → (∃ ended, feed_turn m read_buffer_size takes s = some (.inl ended) ∧
        Fed decrypt Session read_buffer_size cipher delivered ended) ∨
      ∃ s', feed_turn m read_buffer_size takes s = some (.inr s') ∧ Inv s' ∧ left s' + 1 ≤ left s := by
    rintro ⟨chunks, ssl⟩ ⟨hsession, hordered, hshort⟩
    dsimp only at hsession hordered hshort
    rcases hread : m.mbedtls_ssl_read ssl read_buffer_size with ⟨answer, ssl'⟩
    rw [feed_turn]
    dsimp only
    rw [hread]
    cases answer with
    | want =>
      obtain ⟨hwhole, hsession'⟩ := hm.want _ _ _ _ _ hsession hread
      exact .inl ⟨_, rfl, hordered, hshort, fun _ => ⟨hsession', hwhole⟩⟩
    | close_notify => exact .inl ⟨_, rfl, hordered, hshort, Bool.noConfusion⟩
    | error => exact .inl ⟨_, rfl, hordered, hshort, Bool.noConfusion⟩
    | data bytes =>
      obtain ⟨hsome, hlength, hordered', hsession'⟩ := hm.data _ _ _ _ _ _ hsession hsize hread
      have hflat : delivered ++ (chunks ++ [bytes]).flatten = delivered ++ chunks.flatten ++ bytes := by
        rw [List.flatten_append, List.flatten_singleton, List.append_assoc]
      rw [← hflat] at hordered' hsession'
      have hshort' : ∀ chunk ∈ chunks ++ [bytes], chunk.length ≤ read_buffer_size := by
        intro chunk hchunk
        obtain hchunk | hchunk := List.mem_append.mp hchunk
        · exact hshort chunk hchunk
        · rwa [List.mem_singleton.mp hchunk]
      dsimp only
      by_cases htakes : takes (chunks ++ [bytes]) = true
      · rw [if_pos htakes]
        refine .inr ⟨_, rfl, ⟨hsession', hordered', hshort'⟩, ?_⟩
        have hmore : 0 < bytes.length := List.length_pos_iff.mpr hsome
        have hwithin := hordered'.length_le
        dsimp only [left]
        rw [hflat, List.length_append] at hwithin ⊢
        omega
      · rw [if_neg htakes]
        exact .inl ⟨_, rfl, hordered', hshort', Bool.noConfusion⟩
  have hstart : Inv ([], ssl) := by
    refine ⟨?_, ?_, List.forall_mem_nil _⟩
    · rwa [List.flatten_nil, List.append_nil]
    · rwa [List.flatten_nil, List.append_nil]
  exact returns_of_measure left hturn hstart (by dsimp only [left]; omega)

/-- What a read hands over: what comes behind what was handed over before, as far as the read buffer has room
for a request, and all of it for a WebSocket. -/
structure Reads (decrypt : List UInt8 → List UInt8) (Session : S → List UInt8 → List UInt8 → Prop)
    (read_buffer_size : Nat) (cipher delivered : List UInt8) (websocket : Bool) (c' : TlsReader S)
    (chunks : List (List UInt8)) : Prop where
  handed : Handed decrypt Session cipher c' (delivered ++ chunks.flatten)
  short : ∀ chunk ∈ chunks, chunk.length ≤ read_buffer_size
  whole : c'.closing = false → c'.handshaking = false →
    chunks.flatten = if websocket then (decrypt cipher).drop delivered.length
      else ((decrypt cipher).drop delivered.length).take read_buffer_size

theorem read_nothing {c' : TlsReader S} (h : Handed decrypt Session cipher c' delivered)
    (hopen : c'.closing = true ∨ c'.handshaking = true) (websocket : Bool) :
    Reads decrypt Session read_buffer_size cipher delivered websocket c' [] := by
  refine ⟨?_, List.forall_mem_nil _, fun hclosing hhandshaking => ?_⟩
  · rwa [List.flatten_nil, List.append_nil]
  · obtain hclosed | hunfinished := hopen
    · rw [hclosed] at hclosing
      cases hclosing
    · rw [hunfinished] at hhandshaking
      cases hhandshaking

theorem on_read_spec (hm : Decrypts m decrypt Session) {more : List UInt8}
    (hsession : Session c.ssl cipher delivered) (hordered : delivered <+: decrypt cipher)
    (hsize : 0 < read_buffer_size) (hfuel : read_buffer_size < fuel) :
    ∃ c' chunks, on_read m read_buffer_size fuel takes more c = some (c', chunks) ∧
      Reads decrypt Session read_buffer_size (cipher ++ more) delivered false c' chunks := by
  have harrived := hm.arrive _ _ _ more hsession
  have hordered' : delivered <+: decrypt (cipher ++ more) := hordered.trans (hm.grows cipher more)
  have hdrain (c : TlsReader S) (hsession : Session c.ssl (cipher ++ more) delivered) :
      ∃ c' chunks, drain m read_buffer_size fuel takes c = some (c', chunks) ∧
        Reads decrypt Session read_buffer_size (cipher ++ more) delivered false c' chunks := by
    obtain ⟨c', chunks, hrun, hhanded, -, -, hshort, hwhole⟩ :=
      @drain_spec S m decrypt Session _ _ _ _ c takes hm hsession hordered' hsize hfuel
    exact ⟨c', chunks, hrun, hhanded, hshort, fun hclosing _ => hwhole hclosing⟩
  rw [on_read]
  dsimp only
  by_cases hhandshaking : c.handshaking = true
  · rw [if_pos hhandshaking]
    have hafter := hm.handshake _ _ _ harrived
    rcases hanswer : m.mbedtls_ssl_handshake (m.arrive c.ssl more) with ⟨answer, ssl⟩
    rw [hanswer] at hafter
    cases answer with
    | done => exact hdrain _ hafter
    | want =>
      have hwaits : Handed decrypt Session (cipher ++ more) { c with ssl } delivered := ⟨hordered', fun _ => hafter⟩
      exact ⟨_, _, rfl, read_nothing hwaits (.inr hhandshaking) false⟩
    | failed => exact ⟨_, _, rfl, read_nothing ⟨hordered', Bool.noConfusion⟩ (.inl rfl) false⟩
  · rw [if_neg hhandshaking]
    exact hdrain _ harrived

theorem on_websocket_read_spec (hm : Decrypts m decrypt Session) {more : List UInt8}
    (hsession : Session c.ssl cipher delivered) (hordered : delivered <+: decrypt cipher)
    (hsize : 0 < read_buffer_size) (hfuel : (decrypt (cipher ++ more)).length < fuel) :
    ∃ c' chunks, on_websocket_read m read_buffer_size fuel takes more c = some (c', chunks) ∧
      Reads decrypt Session read_buffer_size (cipher ++ more) delivered true c' chunks := by
  have harrived := hm.arrive _ _ _ more hsession
  have hordered' : delivered <+: decrypt (cipher ++ more) := hordered.trans (hm.grows cipher more)
  obtain ⟨ended, hrun, hfed⟩ := @feed_loop S m decrypt Session _ _ _ _ takes hm _ harrived hordered' hsize hfuel
  have hstays (h : (!ended.stays) = false) : ended.stays = true := by rwa [Bool.not_eq_false'] at h
  rw [on_websocket_read, hrun]
  refine ⟨_, _, rfl, ⟨hfed.ordered, fun h => (hfed.whole (hstays h)).1⟩, hfed.short, fun h _ => ?_⟩
  rw [if_pos rfl, ← (hfed.whole (hstays h)).2, List.drop_left]

/-- A read of a connection, in whichever state it is. -/
theorem tls_read_spec (hm : Decrypts m decrypt Session) (h : Handed decrypt Session cipher c delivered)
    (more : List UInt8) (hsize : 0 < read_buffer_size) (hfuel : read_buffer_size < fuel)
    (hlong : (decrypt (cipher ++ more)).length < fuel) :
    ∃ c' chunks, tls_step m read_buffer_size fuel c (.read more takes) = some (c', chunks) ∧
      Reads decrypt Session read_buffer_size (cipher ++ more) delivered c.websocket c' chunks := by
  rw [tls_step]
  cases hclosing : c.closing with
  | true =>
    have hclosed : Handed decrypt Session (cipher ++ more) c delivered := by
      refine ⟨h.ordered.trans (hm.grows cipher more), fun hopen => ?_⟩
      rw [hclosing] at hopen
      cases hopen
    exact ⟨c, [], rfl, read_nothing hclosed (.inl hclosing) c.websocket⟩
  | false =>
    cases hwebsocket : c.websocket with
    | true => exact on_websocket_read_spec hm (h.session hclosing) h.ordered hsize hlong
    | false => exact on_read_spec hm (h.session hclosing) h.ordered hsize hfuel

theorem tls_step_spec (hm : Decrypts m decrypt Session) (h : Handed decrypt Session cipher c delivered)
    (event : TlsEvent) (hsize : 0 < read_buffer_size) (hfuel : read_buffer_size < fuel)
    (hlong : (decrypt (cipher ++ event.cipher)).length < fuel) :
    ∃ c' chunks, tls_step m read_buffer_size fuel c event = some (c', chunks) ∧
      Handed decrypt Session (cipher ++ event.cipher) c' (delivered ++ chunks.flatten) ∧
      ∀ chunk ∈ chunks, chunk.length ≤ read_buffer_size := by
  have hsame {c' : TlsReader S} (h : Handed decrypt Session cipher c' delivered) :
      Handed decrypt Session (cipher ++ []) c' (delivered ++ ([] : List (List UInt8)).flatten) := by
    rwa [List.append_nil, List.flatten_nil, List.append_nil]
  cases event with
  | read more takes =>
    obtain ⟨c', chunks, hstep, hreads⟩ := @tls_read_spec S m decrypt Session _ _ _ _ c takes hm h more hsize hfuel hlong
    exact ⟨c', chunks, hstep, hreads.handed, hreads.short⟩
  | read_failed => exact ⟨_, [], rfl, hsame ⟨h.ordered, Bool.noConfusion⟩, List.forall_mem_nil _⟩
  | switch_to_websocket =>
    refine ⟨_, [], rfl, hsame ?_, List.forall_mem_nil _⟩
    by_cases hhandshaking : c.handshaking = true
    · rwa [if_pos hhandshaking]
    · rw [if_neg hhandshaking]
      exact ⟨h.ordered, h.session⟩

theorem tls_run_spec (hm : Decrypts m decrypt Session) (h : Handed decrypt Session cipher c delivered)
    (events : List TlsEvent) (hsize : 0 < read_buffer_size) (hfuel : read_buffer_size < fuel)
    (hlong : (decrypt (cipher ++ ciphertext events)).length < fuel) :
    ∃ c' chunks, tls_run m read_buffer_size fuel c events = some (c', chunks) ∧
      Handed decrypt Session (cipher ++ ciphertext events) c' (delivered ++ chunks.flatten) ∧
      ∀ chunk ∈ chunks, chunk.length ≤ read_buffer_size := by
  induction events generalizing cipher c delivered with
  | nil =>
    refine ⟨c, [], rfl, ?_, List.forall_mem_nil _⟩
    rwa [ciphertext, List.flatMap_nil, List.append_nil, List.flatten_nil, List.append_nil]
  | cons event events ih =>
    have hcipher : cipher ++ ciphertext (event :: events) = cipher ++ event.cipher ++ ciphertext events := by
      rw [ciphertext, List.flatMap_cons, List.append_assoc]
      rfl
    rw [hcipher] at hlong ⊢
    have hfirst := (hm.grows (cipher ++ event.cipher) (ciphertext events)).length_le
    obtain ⟨next, chunks, hstep, hhanded, hshort⟩ := tls_step_spec hm h event hsize hfuel (by omega)
    obtain ⟨last, later, hrun, hlast, hlater⟩ := ih hhanded hlong
    refine ⟨last, chunks ++ later, ?_, ?_, ?_⟩
    · rw [tls_run, hstep, Option.bind_some, hrun]
      rfl
    · rwa [List.flatten_append, ← List.append_assoc]
    · intro chunk hchunk
      exact (List.mem_append.mp hchunk).elim (hshort chunk) (hlater chunk)

end delivery

/-- In every run of reads on a TLS connection, whatever ciphertext they bring and however the answers of
mbedtls and of the parsers fall, every loop ends and the parsers are given the plaintext in order, without gaps
and without repetitions, in chunks that fit the read buffer. A read that leaves the connection open behind its
handshake hands over all the plaintext there is to a WebSocket, and to the request parser as much as the read
buffer holds: the rest waits for the next read. -/
theorem tls_delivers {S : Type} {m : Mbedtls S} {decrypt : List UInt8 → List UInt8}
    {Session : S → List UInt8 → List UInt8 → Prop} (hm : Decrypts m decrypt Session) {ssl : S}
    (hssl : Session ssl [] []) {read_buffer_size fuel : Nat} (hsize : 0 < read_buffer_size)
    (hfuel : read_buffer_size < fuel) (events : List TlsEvent) (cipher : List UInt8)
    (takes : List (List UInt8) → Bool) (hlong : (decrypt (ciphertext events ++ cipher)).length < fuel) :
    ∃ c handed c' chunks, tls_run m read_buffer_size fuel ⟨ssl, true, false, false⟩ events = some (c, handed) ∧
      tls_step m read_buffer_size fuel c (.read cipher takes) = some (c', chunks) ∧
      (handed ++ chunks).flatten <+: decrypt (ciphertext events ++ cipher) ∧
      (∀ chunk ∈ handed ++ chunks, chunk.length ≤ read_buffer_size) ∧
      (c'.closing = false → c'.handshaking = false →
        chunks.flatten =
          if c.websocket then (decrypt (ciphertext events ++ cipher)).drop handed.flatten.length
          else ((decrypt (ciphertext events ++ cipher)).drop handed.flatten.length).take read_buffer_size) := by
  have hstart : Handed decrypt Session [] (⟨ssl, true, false, false⟩ : TlsReader S) [] :=
    ⟨List.nil_prefix, fun _ => hssl⟩
  have hbefore := (hm.grows (ciphertext events) cipher).length_le
  obtain ⟨c, handed, hrun, hhanded, hshort⟩ := tls_run_spec hm hstart events hsize hfuel
    (by rw [List.nil_append]; omega)
  rw [List.nil_append, List.nil_append] at hhanded
  obtain ⟨c', chunks, hstep, hreads⟩ := @tls_read_spec S m decrypt Session _ _ _ _ c takes hm hhanded cipher hsize hfuel
    hlong
  refine ⟨c, handed, c', chunks, hrun, hstep, ?_, ?_, hreads.whole⟩
  · rw [List.flatten_append]
    exact hreads.handed.ordered
  · intro chunk hchunk
    exact (List.mem_append.mp hchunk).elim (hshort chunk) (hreads.short chunk)

/-- A session with a stream cipher, whose handshake is over with the first ciphertext. -/
def stream_session : Mbedtls (List UInt8) where
  arrive ssl cipher := ssl ++ cipher
  mbedtls_ssl_handshake ssl := (if ssl.isEmpty then .want else .done, ssl)
  mbedtls_ssl_read ssl len :=
    if ssl.isEmpty then (.want, ssl) else (.data ((ssl.take len).map (· ^^^ 0x55)), ssl.drop len)

def stream_decrypt (cipher : List UInt8) : List UInt8 := cipher.map (· ^^^ 0x55)

theorem stream_decrypts : Decrypts stream_session stream_decrypt fun ssl cipher delivered =>
    stream_decrypt cipher = delivered ++ stream_decrypt ssl := by
  have hwant {ssl : List UInt8} {len : Nat} {answer : SslRead} {ssl' : List UInt8}
      (h : stream_session.mbedtls_ssl_read ssl len = (answer, ssl')) :
      ssl = [] ∧ answer = .want ∧ ssl' = [] ∨
        ssl ≠ [] ∧ answer = .data (stream_decrypt (ssl.take len)) ∧ ssl' = ssl.drop len := by
    cases ssl with
    | nil =>
      obtain ⟨rfl, rfl⟩ := Prod.mk.inj h.symm
      exact .inl ⟨rfl, rfl, rfl⟩
    | cons byte rest =>
      obtain ⟨rfl, rfl⟩ := Prod.mk.inj h.symm
      exact .inr ⟨List.cons_ne_nil _ _, rfl, rfl⟩
  refine ⟨fun cipher more => ?_, fun ssl cipher delivered more h => ?_, fun ssl cipher delivered h => h, ?_, ?_⟩
  · rw [stream_decrypt, stream_decrypt, List.map_append]
    exact List.prefix_append _ _
  · change stream_decrypt (cipher ++ more) = delivered ++ stream_decrypt (ssl ++ more)
    rw [stream_decrypt, List.map_append, stream_decrypt, List.map_append, ← List.append_assoc]
    exact congrArg (· ++ _) h
  · intro ssl cipher delivered len bytes ssl' h hlen hread
    obtain ⟨-, hanswer, -⟩ | ⟨hsome, hanswer, rfl⟩ := hwant hread
    · cases hanswer
    · obtain rfl := SslRead.data.inj hanswer
      have hwhole : delivered ++ stream_decrypt (ssl.take len) ++ stream_decrypt (ssl.drop len) =
          stream_decrypt cipher := by
        rw [h, List.append_assoc, stream_decrypt, stream_decrypt, ← List.map_append, List.take_append_drop]
        rfl
      refine ⟨?_, ?_, ⟨_, hwhole⟩, hwhole.symm⟩
      · have hpos := List.length_pos_iff.mpr hsome
        rw [stream_decrypt, ne_eq, List.map_eq_nil_iff, List.take_eq_nil_iff, not_or]
        exact ⟨Nat.ne_of_gt hlen, hsome⟩
      · rw [stream_decrypt, List.length_map, List.length_take]
        exact Nat.min_le_left _ _
  · intro ssl cipher delivered len ssl' h hread
    obtain ⟨rfl, -, rfl⟩ | ⟨-, hanswer, -⟩ := hwant hread
    · rw [stream_decrypt, stream_decrypt, List.map_nil, List.append_nil] at h
      exact ⟨h.symm, by rw [stream_decrypt, stream_decrypt, List.map_nil, List.append_nil]; exact h⟩
    · cases hanswer

/-- The handshake, and six bytes of a request. -/
def two_reads : List TlsEvent :=
  [.read [] (fun _ => true), .read [0x12, 0x10, 0x01, 0x75, 0x7A, 0x75] fun _ => true]

/-- Six bytes for a buffer of four: the last two wait for the next read. -/
theorem tls_delivers_backlog :
    (tls_run stream_session 4 10 ⟨[], true, false, false⟩ two_reads).map Prod.snd = some [bytes "GET "] ∧
      ∃ c handed c' chunks, tls_run stream_session 4 10 ⟨[], true, false, false⟩ two_reads = some (c, handed) ∧
        tls_step stream_session 4 10 c (.read [0x1D] fun _ => true) = some (c', chunks) ∧
        (handed ++ chunks).flatten <+: bytes "GET / H" := by
  have hsession : stream_decrypt [] = [] ++ stream_decrypt [] := rfl
  refine ⟨by decide +kernel, ?_⟩
  obtain ⟨c, handed, c', chunks, hrun, hstep, hordered, -⟩ := tls_delivers stream_decrypts hsession (by decide)
    (by decide : 4 < 10) two_reads [0x1D] (fun _ => true) (by decide)
  exact ⟨c, handed, c', chunks, hrun, hstep, hordered⟩

end uvhttp.tls_delivery
