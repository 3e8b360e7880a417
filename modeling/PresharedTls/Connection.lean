import PresharedTls.Endpoint.Receive

/-!
# Connections

A connection is an endpoint with the bytes around it. It has no input or output of its own and never
waits: `receive` is given the bytes that arrived, `takeOutgoing` gives those to be sent. What arrived
of a record that is not whole is kept, so it makes no difference in which pieces the bytes come. An
operation that fails ends the connection, and if the fault was found on this side the last record
queued is an alert that says so.
-/

namespace PresharedTls

structure Connection (κ : Type) extends Endpoint κ where
  /-- Received bytes that are not a whole record yet. -/
  incoming : Bytes

namespace Connection

variable {κ : Type}

def fresh (side : Side) (session : Session κ) (entropy : Entropy) : Connection κ :=
  ⟨Endpoint.fresh side session entropy, []⟩

def withEntropy (connection : Connection κ) (entropy : Entropy) : Connection κ :=
  { connection with entropy := entropy }

/-- Runs a step. Its failure is the connection's end. -/
def perform (step : Endpoint.Step κ Unit) (connection : Connection κ) :
    Except ConnectionError Unit × Connection κ :=
  match step.run connection.toEndpoint with
  | .ok () endpoint => (.ok (), ⟨endpoint, connection.incoming⟩)
  | .error failure endpoint => (.error failure, ⟨endpoint.fail failure, []⟩)

/-- Starts the handshake. A client queues its hello, a server waits for one. -/
def start (connection : Connection κ) : Except ConnectionError Unit × Connection κ :=
  if connection.phase.isOver then (.error .closed, connection)
  else if connection.phase ≠ .idle then (.error .alreadyStarted, connection)
  else
    match connection.side with
    | .client offer => connection.perform (Endpoint.sendClientHello offer)
    | .server _ => connection.perform (Endpoint.enter .waitHello)

/-- Hands in bytes from the transport. Every record they complete is handled. -/
def receive (connection : Connection κ) (b : Bytes) : Except ConnectionError Unit × Connection κ :=
  if connection.phase.isOver then (.error .closed, connection)
  else if connection.phase = .idle then (.error .notStarted, connection)
  else
    let records := (Record.framing connection.session.ciphertextLimit).cut (connection.incoming ++ b)
    perform (Endpoint.receiveRecords records) { connection with incoming := records.rest }

/-- Queues application data. No data makes no record. -/
def send (connection : Connection κ) (data : Bytes) : Except ConnectionError Unit × Connection κ :=
  if connection.phase.isOver then (.error .closed, connection)
  else if ¬ connection.session.handshakeDone then (.error .notConnected, connection)
  else connection.perform (Endpoint.sendFragmented .applicationData data)

def takeOutgoing (connection : Connection κ) : Bytes × Connection κ :=
  (connection.outgoing.flatMap Record.bytes, { connection with outgoing := [] })

def read (connection : Connection κ) : Option Bytes × Connection κ :=
  match connection.received with
  | [] => (none, connection)
  | data :: rest => (some data, { connection with received := rest })

/-- Closes the connection without a word to the peer. Data already received can still be read, and
bytes already queued can still be sent. -/
def abandon (connection : Connection κ) : Connection κ :=
  { connection with phase := .closed, handshake := [], incoming := [] }

/-- Closes the connection. The peer is told unless the connection never began or is over. -/
def close (connection : Connection κ) : Connection κ :=
  if connection.phase.isOver ∨ connection.phase = .idle then connection.abandon
  else
    let endpoint := connection.toEndpoint.after (Endpoint.sendRecord .alert (Alert.warning .closeNotify).bytes)
    abandon ⟨endpoint, connection.incoming⟩

end Connection

end PresharedTls
