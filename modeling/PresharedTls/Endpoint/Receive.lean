import PresharedTls.Endpoint.Handshake

/-!
# Records at an endpoint

A record that arrives is opened, and its plaintext is handed on by the content type. The plaintexts
of handshake records are joined and cut into messages; what is left over waits for the next record.
-/

namespace PresharedTls.Endpoint

variable {κ : Type} {m : Type → Type} [Monad m] [Handling κ m]

/-- Takes a message off the handshake bytes before it is handled, so that those behind it are left if it fails. -/
def takeMessage (message : HandshakeMessage) : m Unit := do
  perform (.take message)
  attend message (receiveMessage message)

/-- Takes the messages at the front of the handshake bytes, one after the other. -/
def takeMessages (messages : Cut HandshakeMessage) : m Unit := do
  messages.items.forM takeMessage
  step (messages.fault.forM refuse)

/-- Takes a handshake record, which must not be empty, and handles the messages it completes. -/
def receiveHandshake (plaintext : Bytes) : m Unit := do
  if plaintext.isEmpty then
    step (refuse .unexpectedMessage)
  let endpoint ← step get
  step (set { endpoint with handshake := endpoint.handshake ++ plaintext })
  takeMessages (HandshakeMessage.framing.cut (endpoint.handshake ++ plaintext))

/-- Switches to the peer's keys for all that follows. No handshake message may lie across the
switch. -/
def receiveChangeCipherSpec (plaintext : Bytes) : m Unit := do
  if plaintext ≠ changeCipherSpecBody then
    step (refuse .decodeError)
  let endpoint ← step get
  if ¬ endpoint.handshake.isEmpty then
    step (refuse .unexpectedMessage)
  if endpoint.phase ≠ .waitChangeCipher then
    step (refuse .unexpectedMessage)
  perform (.createDecrypter endpoint.role.peer)
  perform (.enter .waitFinished)

def receiveApplicationData (plaintext : Bytes) : Step κ Unit := do
  let endpoint ← get
  if ¬ endpoint.session.handshakeDone then
    refuse .unexpectedMessage
  set { endpoint with received := endpoint.received ++ [plaintext] }

/-- Takes an alert, which ends the connection whatever its level. -/
def receiveAlert (plaintext : Bytes) : m Unit := do
  let alert ← step (readBody (Alert.ofBytes? plaintext))
  step (modify fun endpoint =>
    { endpoint with peerClosed := endpoint.peerClosed || alert.description = .closeNotify })
  perform (.enter .error)
  step (throw (.receivedAlert alert.description))

def receiveRecord (record : Record) : m Unit := do
  let plaintext ← perform (.unprotect record)
  let endpoint ← step get
  if endpoint.session.plaintextLimit < plaintext.length then
    step (refuse .recordOverflow)
  match ContentType.ofCode? record.typeCode with
  | some .handshake => receiveHandshake plaintext
  | some .changeCipherSpec => receiveChangeCipherSpec plaintext
  | some .applicationData => step (receiveApplicationData plaintext)
  | some .alert => receiveAlert plaintext
  | none => step (refuse .unexpectedMessage)

/-- Handles records in order, and then what is wrong with the bytes behind them. -/
def receiveRecords (records : Cut Record) : m Unit := do
  records.items.forM receiveRecord
  step (records.fault.forM refuse)

/-! ### The end -/

/-- Queues a fatal alert. That can fail too, and then the peer is not told. -/
def announce (alert : AlertDescription) (endpoint : Endpoint κ) : Endpoint κ :=
  endpoint.after (sendRecord .alert (Alert.fatal alert).bytes)

def fail (failure : ConnectionError) (endpoint : Endpoint κ) : Endpoint κ :=
  let endpoint := match failure with
    | .sentAlert alert => endpoint.announce alert
    | _ => endpoint
  { endpoint with phase := .error }

end PresharedTls.Endpoint
