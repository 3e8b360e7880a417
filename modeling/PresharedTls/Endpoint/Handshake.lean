import PresharedTls.Endpoint.Basic
import PresharedTls.Handshake.KeyExchange

/-!
# Handshake messages at an endpoint

What each handshake message does to an endpoint that waits for it, the client's side first. A
message enters the transcript as soon as its body is read, before it is judged; a Finished only when
it was right, because its verify data covers what was said before it.
-/

namespace PresharedTls.Endpoint

variable {κ : Type}

/-- The value of a message body; a body that cannot be read is refused. -/
def readBody {α : Type} : Option α → Step κ α
  | some value => pure value
  | none => refuse .decodeError

@[simp] theorem run_readBody_some {α : Type} (value : α) (endpoint : Endpoint κ) :
    (readBody (some value) : Step κ α).run endpoint = .ok value endpoint := rfl

@[simp] theorem run_readBody_none {α : Type} (endpoint : Endpoint κ) :
    (readBody none : Step κ α).run endpoint = .error (.sentAlert .decodeError) endpoint := rfl

def remember (message : HandshakeMessage) : Step κ Unit :=
  updateSession (·.addToTranscript message.bytes)

@[simp] theorem run_remember (message : HandshakeMessage) (endpoint : Endpoint κ) :
    (remember message).run endpoint =
      .ok () { endpoint with session := endpoint.session.addToTranscript message.bytes } := rfl

variable {m : Type → Type} [Monad m] [Handling κ m]

/-- Checks a Finished against the transcript before it. -/
def receiveFinished (message : HandshakeMessage) : m Unit := do
  let verifyData ← step (readBody (FixedBytes.ofBytes? 12 message.body))
  let endpoint ← step get
  let expected ← perform (.compute endpoint.session endpoint.role.peer)
  if expected ≠ verifyData then
    step (refuse .decryptError)
  step (remember message)

def finish : m Unit := do
  perform .finish
  perform (.enter .connected)

/-! ### The client's side -/

def sendClientHello (offer : ClientOffer) : m Unit := do
  let endpoint ← step get
  let (hello, entropy) := offer.hello endpoint.entropy
  step (set { endpoint with entropy := entropy })
  let body ← step (accept hello.bytes)
  step (updateSession (·.withClientRandom hello.random))
  perform (.send ⟨.clientHello, body⟩)
  perform (.enter .waitHello)

def receiveServerHello (offer : ClientOffer) (message : HandshakeMessage) : m Unit := do
  let answer ← step (readBody (ServerHello.ofBytes? message.body))
  step (remember message)
  step (accept (offer.check answer))
  step (onSession (·.applyServerHello answer))
  perform (.enter .waitKeyExchange)

/-- Takes a hint at the identity to use; there is only one to use in any case. -/
def receiveIdentityHint (message : HandshakeMessage) : m Unit := do
  let _hint ← step (readBody (KeyIdentity.ofBody? message.body))
  step (remember message)
  perform (.enter .waitHelloDone)

/-- Answers the server's hello messages with identity, ChangeCipherSpec and Finished. -/
def receiveServerHelloDone (message : HandshakeMessage) : m Unit := do
  if ¬ message.body.isEmpty then
    step (refuse .decodeError)
  step (remember message)
  let endpoint ← step get
  let body ← step (accept (KeyIdentity.body endpoint.session.identity))
  perform (.send ⟨.clientKeyExchange, body⟩)
  sendChangeCipherSpec
  sendFinished
  perform (.enter .waitChangeCipher)

/-! ### The server's side -/

/-- Answers a client's hello with what the policy chooses from it. -/
def receiveClientHello (policy : ServerPolicy) (message : HandshakeMessage) : m Unit := do
  let hello ← step (readBody (ClientHello.ofBytes? message.body))
  step (remember message)
  let endpoint ← step get
  let (answer, entropy) ← step (accept (policy.answer hello endpoint.entropy))
  step (set { endpoint with entropy := entropy })
  step (updateSession (·.withClientRandom hello.random))
  step (onSession (·.applyServerHello answer))
  let answerBody ← step (accept answer.bytes)
  perform (.send ⟨.serverHello, answerBody⟩)
  let hintBody ← step (accept (KeyIdentity.body policy.identityHint))
  perform (.send ⟨.serverKeyExchange, hintBody⟩)
  perform (.send ⟨.serverHelloDone, []⟩)
  perform (.enter .waitKeyExchange)

def receiveIdentity (policy : ServerPolicy) (message : HandshakeMessage) : m Unit := do
  let identity ← step (readBody (KeyIdentity.ofBody? message.body))
  step (remember message)
  match policy.resolve identity with
  | none => step (refuse .illegalParameter)
  | some key =>
    step (updateSession (·.withKey identity key))
    perform (.enter .waitChangeCipher)

/-! ### Both sides -/

/-- The handshake messages that are awaited, and what they do; all others are unexpected. -/
def receiveMessage (message : HandshakeMessage) : m Unit := do
  let endpoint ← step get
  match endpoint.side, endpoint.phase, message.type with
  | .client offer, .waitHello, .serverHello => receiveServerHello offer message
  | .client _, .waitKeyExchange, .serverKeyExchange => receiveIdentityHint message
  | .client _, .waitKeyExchange, .serverHelloDone => receiveServerHelloDone message
  | .client _, .waitHelloDone, .serverHelloDone => receiveServerHelloDone message
  | .client _, .waitFinished, .finished => do
    receiveFinished message
    finish
  | .server policy, .waitHello, .clientHello => receiveClientHello policy message
  | .server policy, .waitKeyExchange, .clientKeyExchange => receiveIdentity policy message
  | .server _, .waitFinished, .finished => do
    receiveFinished message
    sendChangeCipherSpec
    sendFinished
    finish
  | _, _, _ => step (refuse .unexpectedMessage)

end PresharedTls.Endpoint
