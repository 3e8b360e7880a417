import PresharedTls.Handshake.Message
import PresharedTls.Negotiation
import PresharedTls.Record
import PresharedTls.Session

/-!
# Endpoints

An endpoint is one end of a connection, seen at the level of records: it takes those that arrive,
one by one, and queues those to be sent. The work is written as steps, which change the endpoint and
may fail. A failed step leaves behind what it changed, because some of that may have been sent.
-/

namespace PresharedTls

inductive Phase where
  | idle
  | waitHello
  /-- A client waits for the server's hint or the end of its hello messages, a server for the
  client's identity. -/
  | waitKeyExchange
  /-- A client has the hint and waits for the end of the server's hello messages. -/
  | waitHelloDone
  | waitChangeCipher
  | waitFinished
  | connected
  /-- An alert was sent or received. -/
  | error
  | closed
  deriving DecidableEq

namespace Phase

def isOver (phase : Phase) : Bool :=
  phase = error || phase = closed

def name : Phase → String
  | idle => "Idle"
  | waitHello => "WaitHello"
  | waitKeyExchange => "WaitKeyExchange"
  | waitHelloDone => "WaitHelloDone"
  | waitChangeCipher => "WaitChangeCipher"
  | waitFinished => "WaitFinished"
  | connected => "Connected"
  | error => "Error"
  | closed => "Closed"

end Phase

inductive ConnectionError where
  /-- Something was wrong on this side, and the peer is told so by the alert. -/
  | sentAlert (description : AlertDescription)
  | receivedAlert (description : AlertDescription)
  | alreadyStarted
  | notStarted
  /-- Application data has to wait for the end of the handshake. -/
  | notConnected
  | closed
  deriving DecidableEq

namespace ConnectionError

/-- The alert that went over the wire with the error. -/
def alert? : ConnectionError → Option AlertDescription
  | sentAlert description | receivedAlert description => some description
  | _ => none

def message : ConnectionError → String
  | sentAlert description => s!"Sent alert {description.name}"
  | receivedAlert description => s!"Received alert {description.name}"
  | alreadyStarted => "Handshake already started"
  | notStarted => "Handshake not started"
  | notConnected => "Handshake not complete"
  | closed => "Connection closed"

end ConnectionError

/-- The end of the connection that this is, with what it brings to the negotiation. -/
inductive Side where
  | client (offer : ClientOffer)
  | server (policy : ServerPolicy)

def Side.role : Side → Role
  | client _ => .client
  | server _ => .server

structure Endpoint (κ : Type) where
  phase : Phase
  side : Side
  session : Session κ
  /-- Handshake bytes that are not a whole message yet. -/
  handshake : Bytes
  /-- Records for the transport. -/
  outgoing : List Record
  /-- Application data for the reader, a record each. -/
  received : List Bytes
  /-- Whether the peer has announced that it sends no more. -/
  peerClosed : Bool
  entropy : Entropy

namespace Endpoint

variable {κ α : Type}

def fresh (side : Side) (session : Session κ) (entropy : Entropy) : Endpoint κ where
  phase := .idle
  side := side
  session := session
  handshake := []
  outgoing := []
  received := []
  peerClosed := false
  entropy := entropy

def role (endpoint : Endpoint κ) : Role :=
  endpoint.side.role

/-! ### Steps -/

abbrev Step (κ α : Type) := EStateM ConnectionError (Endpoint κ) α

/-- The endpoint behind a step, whether it failed or not. -/
def after (step : Step κ α) (endpoint : Endpoint κ) : Endpoint κ :=
  match step.run endpoint with
  | .ok _ endpoint | .error _ endpoint => endpoint

/-- Fails with an alert that the peer is to be told. -/
def refuse (alert : AlertDescription) : Step κ α :=
  throw (.sentAlert alert)

/-- The value of a computation that failed with an alert if it failed. -/
def accept : Except AlertDescription α → Step κ α
  | .ok value => pure value
  | .error alert => refuse alert

def onSession (work : Session κ → Except AlertDescription α × Session κ) : Step κ α := do
  let endpoint ← get
  let (result, session) := work endpoint.session
  set { endpoint with session := session }
  accept result

def updateSession (update : Session κ → Session κ) : Step κ Unit :=
  modify fun endpoint => { endpoint with session := update endpoint.session }

def enter (phase : Phase) : Step κ Unit :=
  modify fun endpoint => { endpoint with phase := phase }

@[simp] theorem run_refuse (alert : AlertDescription) (endpoint : Endpoint κ) :
    (refuse alert : Step κ α).run endpoint = .error (.sentAlert alert) endpoint := rfl

@[simp] theorem run_accept_ok (value : α) (endpoint : Endpoint κ) :
    (accept (.ok value) : Step κ α).run endpoint = .ok value endpoint := rfl

@[simp] theorem run_accept_error (alert : AlertDescription) (endpoint : Endpoint κ) :
    (accept (.error alert) : Step κ α).run endpoint = .error (.sentAlert alert) endpoint := rfl

@[simp] theorem run_onSession (work : Session κ → Except AlertDescription α × Session κ)
    (endpoint : Endpoint κ) :
    (onSession work).run endpoint =
      (accept (work endpoint.session).1).run { endpoint with session := (work endpoint.session).2 } := rfl

@[simp] theorem run_updateSession (update : Session κ → Session κ) (endpoint : Endpoint κ) :
    (updateSession update).run endpoint = .ok () { endpoint with session := update endpoint.session } := rfl

@[simp] theorem run_enter (phase : Phase) (endpoint : Endpoint κ) :
    (enter phase).run endpoint = .ok () { endpoint with phase := phase } := rfl

/-! ### Sending -/

/-- Protects a plaintext and queues the record. -/
def sendRecord (type : ContentType) (plaintext : Bytes) : Step κ Unit := do
  let endpoint ← get
  if endpoint.session.plaintextLimit < plaintext.length then
    refuse .internalError
  let (result, session, entropy) := endpoint.session.encrypt type.code plaintext endpoint.entropy
  set { endpoint with session := session, entropy := entropy }
  let fragment ← accept result
  let record ← accept (Record.make type session.version.code fragment)
  modify fun endpoint => { endpoint with outgoing := endpoint.outgoing ++ [record] }

/-- Sends bytes of one type in as many records as the limit on plaintexts asks for. -/
def sendFragmented (type : ContentType) (b : Bytes) : Step κ Unit := do
  let endpoint ← get
  (pieces endpoint.session.plaintextLimit b).forM (sendRecord type)

def sendMessage (message : HandshakeMessage) : Step κ Unit := do
  let framed ← accept message.frame
  updateSession (·.addToTranscript framed)
  sendFragmented .handshake framed

def changeCipherSpecBody : Bytes := [1]

/-! ### Deeds

Some of what is done at an endpoint is looked at again from outside, such as the messages that are sent and the
phases that are entered. These are its deeds. What handles messages and records is written for any monad that has
the steps of an endpoint, and the monad says what else goes with a deed. The program runs in `Step`, where
nothing else does. -/

/-- A deed, with the type of what it gives. -/
inductive Deed (κ : Type) : Type → Type where
  | enter (phase : Phase) : Deed κ Unit
  /-- The handshake is done. -/
  | finish : Deed κ Unit
  | send (message : HandshakeMessage) : Deed κ Unit
  /-- The verify data of `sender` is computed from what a session has. -/
  | compute (session : Session κ) (sender : Role) : Deed κ VerifyData
  | unprotect (record : Record) : Deed κ Bytes
  /-- A message is taken off the handshake bytes, which it is the front of. -/
  | take (message : HandshakeMessage) : Deed κ Unit
  | createEncrypter (sender : Role) : Deed κ Unit
  | createDecrypter (sender : Role) : Deed κ Unit

/-- What a deed does to the endpoint. -/
def Deed.step (deed : Deed κ α) : Step κ α := fun endpoint =>
  match deed with
  | .enter phase => (Endpoint.enter phase).run endpoint
  | .finish => (updateSession (·.finish)).run endpoint
  | .send message => (sendMessage message).run endpoint
  | .compute session sender => (accept (session.verifyData sender)).run endpoint
  | .unprotect record => (onSession (·.decrypt record.typeCode record.version record.fragment)).run endpoint
  | .take message => .ok () { endpoint with handshake := endpoint.handshake.drop message.bytes.length }
  | .createEncrypter sender => (onSession (·.createEncrypter sender)).run endpoint
  | .createDecrypter sender => (onSession (·.createDecrypter sender)).run endpoint

@[simp] theorem Deed.step_enter (phase : Phase) : (Deed.enter phase : Deed κ Unit).step = Endpoint.enter phase := rfl

@[simp] theorem Deed.step_send (message : HandshakeMessage) :
    (Deed.send message : Deed κ Unit).step = sendMessage message := rfl

@[simp] theorem Deed.step_compute (session : Session κ) (sender : Role) :
    (Deed.compute session sender).step = accept (session.verifyData sender) := rfl

@[simp] theorem Deed.step_unprotect (record : Record) : (Deed.unprotect record : Deed κ Bytes).step =
    onSession (·.decrypt record.typeCode record.version record.fragment) := rfl

@[simp] theorem Deed.step_createEncrypter (sender : Role) :
    (Deed.createEncrypter sender : Deed κ Unit).step = onSession (·.createEncrypter sender) := rfl

@[simp] theorem Deed.step_createDecrypter (sender : Role) :
    (Deed.createDecrypter sender : Deed κ Unit).step = onSession (·.createDecrypter sender) := rfl

/-- A monad in which messages and records are handled. -/
class Handling (κ : outParam Type) (m : Type → Type) where
  step {α : Type} : Step κ α → m α
  perform {α : Type} : Deed κ α → m α
  /-- Handles a message by some work. -/
  attend : (message : HandshakeMessage) → (work : m Unit) → m Unit

export Handling (step perform attend)

@[default_instance] instance : Handling κ (Step κ) where
  step step := step
  perform deed := deed.step
  attend _ work := work

@[simp] theorem step_eq (step : Step κ α) : Handling.step step = step := rfl

@[simp] theorem perform_eq (deed : Deed κ α) : perform deed = deed.step := rfl

@[simp] theorem attend_eq (message : HandshakeMessage) (work : Step κ Unit) : attend message work = work := rfl

variable {m : Type → Type} [Monad m] [Handling κ m]

/-- Announces protection, and switches it on in the keys of this end for all that is sent behind. -/
def sendChangeCipherSpec : m Unit := do
  step (sendRecord .changeCipherSpec changeCipherSpecBody)
  let endpoint ← step get
  perform (.createEncrypter endpoint.role)

def sendFinished : m Unit := do
  let endpoint ← step get
  let verifyData ← perform (.compute endpoint.session endpoint.role)
  perform (.send ⟨.finished, verifyData.bytes⟩)

end Endpoint

end PresharedTls
