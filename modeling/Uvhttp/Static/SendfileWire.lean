import Uvhttp.Static.Sendfile

namespace uvhttp.sendfile_wire

open uvhttp.sendfile

/-- What a byte of a connection's output belongs to: the header block of the
response that goes out by sendfile, its body, or another response. -/
inductive Origin where
  | header
  | body
  | other
  deriving DecidableEq, Repr

structure WireByte where
  origin : Origin
  value : UInt8
  deriving DecidableEq, Repr

def tagged (origin : Origin) (data : List UInt8) : List WireByte := data.map fun value => ⟨origin, value⟩

/-- A connection without TLS on which a file is going out by sendfile. `queue` are
the bytes that `uv_write` has taken and the socket has not, `wire` those that are on
the socket. The thread pool has put `moved` bytes of the outstanding request on the
socket, and `ended` is its result once it is done with it. `header_written` says that
the write of the headers has called back, `restart_due` that the idle handle runs. -/
structure Link where
  file : List UInt8
  transfer : Transfer
  moved : Nat
  ended : Option SendfileResult
  queue : List WireByte
  wire : List WireByte
  keepalive : Bool
  header_written : Bool
  restart_due : Bool
  closing : Bool
  deriving DecidableEq, Repr

/-- A link when `uvhttp_static_sendfile_with_config` returns: the headers are in the
queue, behind what earlier responses have left there, and the first request is with
the thread pool. -/
def sendfile_started (file : List UInt8) (config : Option SendfileConfig) (header : List UInt8)
    (wire queue : List UInt8) (keepalive : Bool) : Link where
  file
  transfer := start file.length config .accepted
  moved := 0
  ended := none
  queue := tagged .other queue ++ tagged .header header
  wire := tagged .other wire
  keepalive
  header_written := false
  restart_due := false
  closing := false

section events

/-- What can happen to a link. The socket takes bytes of the queue one at a time, the
thread pool moves those of the file one at a time, and a transfer for another request
may put bytes of its own on the socket. -/
inductive Event where
  | flush
  | write_complete
  | idle_restart
  | respond (data : List UInt8) (keepalive : Bool)
  | other_transfer (value : UInt8)
  | close
  | transfer_byte
  | transfer_end (result : SendfileResult)
  | callback (event : sendfile.Event)
  deriving DecidableEq, Repr

/-- The headers are off the queue. -/
def header_flushed (s : Link) : Prop := ∀ b ∈ s.queue, b.origin ≠ .header

instance (s : Link) : Decidable (header_flushed s) :=
  inferInstanceAs (Decidable (∀ b ∈ s.queue, b.origin ≠ .header))

/-- The thread pool has more to move for the request it works on. -/
def has_next_byte (s : Link) : Prop :=
  ∃ r ∈ s.transfer.sendfile_req, s.moved < r.length ∧ r.offset + s.moved < s.file.length

instance (s : Link) : Decidable (has_next_byte s) :=
  match h : s.transfer.sendfile_req with
  | none => isFalse (by simp [has_next_byte, h])
  | some r => decidable_of_iff (s.moved < r.length ∧ r.offset + s.moved < s.file.length) (by simp [has_next_byte, h])

/-- `sendfile` reports the bytes it has moved, and an error only when there are none. -/
def Reports (moved : Nat) : SendfileResult → Prop
  | .sent count => count = moved
  | .UV_EAGAIN | .UV_EINTR | .failed => moved = 0

instance (moved : Nat) : (result : SendfileResult) → Decidable (Reports moved result)
  | .sent count => inferInstanceAs (Decidable (count = moved))
  | .UV_EAGAIN | .UV_EINTR | .failed => inferInstanceAs (Decidable (moved = 0))

/-- A request is completed with the result that the thread pool has left. -/
def Event.Possible (s : Link) : Event → Prop
  | .flush => s.closing = false ∧ s.queue ≠ []
  | .write_complete => s.header_written = false ∧ (header_flushed s ∨ s.closing = true)
  | .idle_restart => s.restart_due = true
  | .respond _ _ => s.closing = false
  | .other_transfer _ => s.closing = false
  | .close => True
  | .transfer_byte => s.ended = none ∧ has_next_byte s
  | .transfer_end result => s.ended = none ∧ s.transfer.sendfile_req.isSome ∧ Reports s.moved result
  | .callback (.sendfile_complete result accepted) =>
    s.ended = some result ∧ sendfile.Event.Possible s.transfer (.sendfile_complete result accepted)
  | .callback event => event.Possible s.transfer

/-- `uvhttp_free_write_data`, for the headers. -/
def uvhttp_free_write_data (s : Link) : Link :=
  if !s.keepalive then { s with closing := true }
  else if s.closing then s
  else { s with restart_due := true }

/-- `on_idle_restart_read`, as far as output depends on it. -/
def on_idle_restart_read (s : Link) : Link :=
  if s.closing then { s with restart_due := false } else { s with restart_due := false, keepalive := true }

/-- The next byte of the file goes to the descriptor of the connection. Once the
connection is closed, the descriptor is that of some other file, or of none. -/
def move_byte (s : Link) : Link :=
  match s.transfer.sendfile_req with
  | none => s
  | some r =>
    { s with
      moved := s.moved + 1
      wire := if s.closing then s.wire else s.wire ++ tagged .body ((s.file.drop (r.offset + s.moved)).take 1) }

def step (s : Link) : Event → Link × Unit
  | .flush => ({ s with wire := s.wire ++ s.queue.take 1, queue := s.queue.drop 1 }, ())
  | .write_complete => (uvhttp_free_write_data { s with header_written := true }, ())
  | .idle_restart => (on_idle_restart_read s, ())
  | .respond data keepalive => ({ s with queue := s.queue ++ tagged .other data, keepalive }, ())
  | .other_transfer value => ({ s with wire := s.wire ++ tagged .other [value] }, ())
  | .close => ({ s with closing := true }, ())
  | .transfer_byte => (move_byte s, ())
  | .transfer_end result => ({ s with ended := some result }, ())
  | .callback (.sendfile_complete result accepted) =>
    ({ s with transfer := on_sendfile_complete result accepted s.transfer, moved := 0, ended := none }, ())
  | .callback event => ({ s with transfer := (sendfile.step s.transfer event).1 }, ())

/-- Every event of a sequence is possible when it comes. -/
def Possible (s : Link) (events : List Event) : Prop := machine.Enabled step (fun s e => e.Possible s) s events

end events

/-- The transfer has come to the end of its file. -/
def Completed (s : Link) : Prop := s.transfer.context.file_size ≤ s.transfer.context.offset

/-- The output holds the headers, the bytes of the file right behind them, and no
other byte of this response. -/
def WireImage (header file : List UInt8) (wire : List WireByte) : Prop :=
  ∃ before after, wire = before ++ tagged .header header ++ tagged .body file ++ after ∧
    (∀ b ∈ before, b.origin = .other) ∧ ∀ b ∈ after, b.origin = .other

/-- The transfer still can come to the end of its file. -/
def live (s : Link) : Prop := s.transfer.sendfile_req.isSome ∧ s.transfer.context.completed = false

/-- A byte of another response would come between the headers and the end of the
file. -/
def exposed (s : Link) : Prop :=
  live s ∧ (∃ b ∈ s.wire, b.origin = .header) ∧ s.transfer.context.offset + s.moved < s.file.length

/-- What the code leaves to chance: the thread pool moves bytes of the file only when
all headers are on the socket and the connection is not closed, and bytes of other
responses stay away until the file is out. -/
def Undisturbed (s : Link) : Event → Prop
  | .transfer_byte => live s → header_flushed s ∧ s.closing = false
  | .flush => (∀ b ∈ s.queue.head?, b.origin = .other) → ¬ exposed s
  | .other_transfer _ => ¬ exposed s
  | _ => True

/-- Every event of a sequence is possible and undisturbed when it comes. -/
def Calm (s : Link) (events : List Event) : Prop :=
  machine.Enabled step (fun s e => e.Possible s ∧ Undisturbed s e) s events

end uvhttp.sendfile_wire
