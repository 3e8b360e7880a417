import PresharedTls.Connection
import PresharedTls.Transport

/-!
# Secure streams

A stream drives a connection over a transport: it writes what the connection queues and hands in
what arrives. Reading ends when the peer has announced its end, and never because the transport has
come to one.

A transport can go on delivering bytes that bring nothing, such as empty records. Operations that
wait therefore take a `patience`, the number of reads after which they give up.
-/

namespace PresharedTls

inductive StreamError (ε : Type := Empty) where
  | connection (error : ConnectionError)
  | transport (fault : TransportFault ε)
  /-- The patience of the caller ran out. -/
  | stalled
  deriving DecidableEq

def StreamError.message {ε : Type} [ToString ε] : StreamError ε → String
  | connection error => error.message
  | transport fault => fault.message
  | stalled => "no progress"

structure SecureStream (κ τ : Type) where
  connection : Connection κ
  transport : τ
  /-- What is left of a record that was read in part. -/
  pending : Bytes

namespace SecureStream

variable {κ τ ε α : Type}

/-- Work on a stream. A failure leaves behind what was changed before it. -/
abbrev Step (κ τ ε α : Type) := EStateM (StreamError ε) (SecureStream κ τ) α

/-- The value of a computation that may have failed. -/
def accept : Except (StreamError ε) α → Step κ τ ε α
  | .ok value => pure value
  | .error error => throw error

@[simp] theorem run_accept_ok (value : α) (stream : SecureStream κ τ) :
    (accept (.ok value) : Step κ τ ε α).run stream = .ok value stream := rfl

@[simp] theorem run_accept_error (error : StreamError ε) (stream : SecureStream κ τ) :
    (accept (.error error) : Step κ τ ε α).run stream = .error error stream := rfl

def onConnection (work : Connection κ → Except ConnectionError α × Connection κ) : Step κ τ ε α := do
  let stream ← get
  let (result, connection) := work stream.connection
  set { stream with connection := connection }
  accept (result.mapError .connection)

@[simp] theorem run_onConnection (work : Connection κ → Except ConnectionError α × Connection κ)
    (stream : SecureStream κ τ) :
    (onConnection work : Step κ τ ε α).run stream =
      (accept ((work stream.connection).1.mapError .connection)).run
        { stream with connection := (work stream.connection).2 } := rfl

def onTransport (call : τ → Entropy → Except (TransportFault ε) α × τ × Entropy) : Step κ τ ε α := do
  let stream ← get
  let (result, transport, entropy) := call stream.transport stream.connection.entropy
  set { stream with transport := transport, connection := stream.connection.withEntropy entropy }
  accept (result.mapError .transport)

/-- Turns the failure of a step into a value. -/
def attempt (step : Step κ τ ε α) : Step κ τ ε (Except (StreamError ε) α) := fun stream =>
  match step.run stream with
  | .ok value stream => .ok (.ok value) stream
  | .error error stream => .ok (.error error) stream

/-- The value or failure of a step and the stream behind it. -/
def perform (step : Step κ τ ε α) (stream : SecureStream κ τ) : Except (StreamError ε) α × SecureStream κ τ :=
  match step.run stream with
  | .ok value stream => (.ok value, stream)
  | .error error stream => (.error error, stream)

variable [Transport τ ε]

/-! ### Moving bytes -/

def writeAll (b : Bytes) : Step κ τ ε Unit := do
  if b.isEmpty then
    return
  let count ← onTransport (Transport.write b)
  if count = 0 then
    throw (.transport .writeZero)
  else
    writeAll (b.drop count)
termination_by b.length
decreasing_by
  simp_all only [List.isEmpty_iff, List.length_drop]
  have : 0 < b.length := List.length_pos_iff.mpr ‹_›
  omega

def flushOutgoing : Step κ τ ε Unit := do
  let queued ← onConnection fun connection =>
    let (queued, connection) := connection.takeOutgoing
    (.ok queued, connection)
  if ¬ queued.isEmpty then
    writeAll queued
    onTransport Transport.flush

def readSize : Nat := 4096

/-- Reads once from the transport and hands in what arrived. What the connection has to say to it is
written before a failure is reported. -/
def receiveSome : Step κ τ ε Unit := do
  let b ← onTransport (Transport.read readSize)
  if b.isEmpty then
    throw (.transport .unexpectedEof)
  let received ← attempt (onConnection (·.receive b))
  let flushed ← attempt flushOutgoing
  accept received
  accept flushed

/-- Writes and reads in turn until the handshake is done. -/
def exchange (patience : Nat) : Step κ τ ε Unit := do
  flushOutgoing
  let stream ← get
  if ¬ stream.connection.session.handshakeDone then
    match patience with
    | 0 => throw .stalled
    | patience + 1 =>
      receiveSome
      exchange patience

/-- Takes at most `limit` bytes of the record that is being read. -/
def takePending (limit : Nat) : Step κ τ ε Bytes := do
  let stream ← get
  set { stream with pending := stream.pending.drop limit }
  return stream.pending.take limit

/-- Waits for application data and takes at most `limit` bytes of it; none at the end. -/
def awaitData (limit patience : Nat) : Step κ τ ε Bytes := do
  let stream ← get
  if ¬ stream.pending.isEmpty then
    takePending limit
  else
    match stream.connection.received.dropWhile List.isEmpty with
    | data :: rest =>
      set { stream with connection := { stream.connection with received := rest }, pending := data }
      takePending limit
    | [] =>
      set { stream with connection := { stream.connection with received := [] } }
      if stream.connection.peerClosed then
        return []
      match patience with
      | 0 => throw .stalled
      | patience + 1 =>
        match ← attempt receiveSome with
        | .ok () => awaitData limit patience
        | .error (.connection (.receivedAlert .closeNotify)) => awaitData limit patience
        | .error error => throw error

/-! ### Operations -/

/-- Starts a connection over a transport and completes its handshake. -/
def handshake (patience : Nat) (connection : Connection κ) (transport : τ) :
    Except (StreamError ε) Unit × SecureStream κ τ :=
  perform (do onConnection (·.start); exchange patience) ⟨connection, transport, []⟩

/-- Reads at most `limit` bytes of application data. No byte means that the peer sends no more. -/
def read (patience limit : Nat) (stream : SecureStream κ τ) : Except (StreamError ε) Bytes × SecureStream κ τ :=
  perform (awaitData limit patience) stream

/-- Sends application data and tells how much of it was sent, which is all. -/
def write (data : Bytes) (stream : SecureStream κ τ) : Except (StreamError ε) Nat × SecureStream κ τ :=
  perform (do onConnection (·.send data); flushOutgoing; return data.length) stream

/-- Sees to it that all that was sent is on its way. -/
def flush (stream : SecureStream κ τ) : Except (StreamError ε) Unit × SecureStream κ τ :=
  perform (do flushOutgoing; onTransport Transport.flush) stream

/-- Tells the peer that no more is sent. The stream is of no use afterwards. -/
def close (stream : SecureStream κ τ) : Except (StreamError ε) Unit × SecureStream κ τ :=
  perform (do onConnection fun connection => (.ok (), connection.close); flushOutgoing) stream

end SecureStream

end PresharedTls
