import PresharedTls.Framing
import PresharedTls.Reader

/-!
# Handshake messages

A handshake message is a type and a body, framed by the type and a three-byte length. Messages may
span records and a record may carry several, so the stream of handshake bytes is cut by
`HandshakeMessage.framing`.
-/

namespace PresharedTls

inductive HandshakeType where
  | helloRequest
  | clientHello
  | serverHello
  | certificate
  | serverKeyExchange
  | certificateRequest
  | serverHelloDone
  | certificateVerify
  | clientKeyExchange
  | finished
  deriving DecidableEq

namespace HandshakeType

def code : HandshakeType → UInt8
  | helloRequest => 0
  | clientHello => 1
  | serverHello => 2
  | certificate => 11
  | serverKeyExchange => 12
  | certificateRequest => 13
  | serverHelloDone => 14
  | certificateVerify => 15
  | clientKeyExchange => 16
  | finished => 20

def ofCode? (code : UInt8) : Option HandshakeType :=
  [helloRequest, clientHello, serverHello, certificate, serverKeyExchange, certificateRequest,
    serverHelloDone, certificateVerify, clientKeyExchange, finished].find? (·.code = code)

def name : HandshakeType → String
  | helloRequest => "HelloRequest"
  | clientHello => "ClientHello"
  | serverHello => "ServerHello"
  | certificate => "Certificate"
  | serverKeyExchange => "ServerKeyExchange"
  | certificateRequest => "CertificateRequest"
  | serverHelloDone => "ServerHelloDone"
  | certificateVerify => "CertificateVerify"
  | clientKeyExchange => "ClientKeyExchange"
  | finished => "Finished"

@[simp] theorem ofCode?_code (type : HandshakeType) : ofCode? type.code = some type := by
  cases type <;> decide

theorem code_of_ofCode? {code : UInt8} {type : HandshakeType} (h : ofCode? code = some type) :
    type.code = code := by
  simpa using List.find?_some h

end HandshakeType

structure HandshakeHeader where
  type : HandshakeType
  length : Nat
  deriving DecidableEq

namespace HandshakeHeader

/-- The largest body accepted from a peer. The wire allows more; no message of a pre-shared-key
handshake comes close. -/
def maximumLength : Nat := 32768

/-- The header that four bytes spell. The type is looked at before the length. -/
def ofBytes (type high middle low : UInt8) : Except AlertDescription HandshakeHeader :=
  match HandshakeType.ofCode? type with
  | none => .error .unexpectedMessage
  | some type =>
    let length := ofBigEndian [high, middle, low]
    if maximumLength < length then .error .recordOverflow else .ok ⟨type, length⟩

end HandshakeHeader

structure HandshakeMessage where
  type : HandshakeType
  body : Bytes
  deriving DecidableEq

namespace HandshakeMessage

/-- Header and body, as they are sent and as they enter the transcript. -/
def bytes (message : HandshakeMessage) : Bytes :=
  message.type.code :: bigEndian 3 message.body.length ++ message.body

/-- The framed message, if its length fits three bytes. -/
def frame (message : HandshakeMessage) : Except AlertDescription Bytes :=
  if message.body.length < 16777216 then .ok message.bytes else .error .internalError

/-- The first message of `buffer` and the bytes behind it, or `none` while more bytes are needed. -/
def next (buffer : Bytes) : Except AlertDescription (Option (HandshakeMessage × Bytes)) :=
  match buffer with
  | type :: high :: middle :: low :: rest =>
    match HandshakeHeader.ofBytes type high middle low with
    | .error alert => .error alert
    | .ok header =>
      if rest.length < header.length then .ok none
      else .ok (some (⟨header.type, rest.take header.length⟩, rest.drop header.length))
  | _ => .ok none

def framing : Framing HandshakeMessage where
  next := next
  length_lt {buffer rest message} h := by
    unfold next at h
    split at h
    · split at h
      · cases h
      · split at h
        · cases h
        · cases h
          simp only [List.length_drop, List.length_cons]
          omega
    · cases h
  next_append_of_item {buffer rest message} more h := by
    unfold next at h
    split at h
    · split at h
      · cases h
      · next header read =>
        split at h
        · cases h
        · next notShort =>
          cases h
          have enough := Nat.le_of_not_lt notShort
          simp only [next, List.cons_append, read, List.length_append]
          rw [if_neg (by omega), List.take_append_of_le_length enough, List.drop_append_of_le_length enough]
    · cases h
  next_append_of_fault {buffer fault} more h := by
    unfold next at h
    split at h
    · split at h
      · next faulty =>
        cases h
        simp only [next, List.cons_append, faulty]
      · split at h <;> cases h
    · cases h

end HandshakeMessage

end PresharedTls
