import PresharedTls.Bytes

/-!
# Alerts

An alert is a level and a description, one byte each. Reading never fails: the peer is shutting the
connection down whatever the bytes say, so codes outside the registry are kept as received.
-/

namespace PresharedTls

inductive AlertLevel where
  | warning
  | fatal
  /-- A level byte outside the registry. -/
  | unknown (code : UInt8)
  deriving DecidableEq

namespace AlertLevel

def code : AlertLevel → UInt8
  | warning => 1
  | fatal => 2
  | unknown code => code

def ofCode (code : UInt8) : AlertLevel :=
  if code = 1 then warning else if code = 2 then fatal else unknown code

def name : AlertLevel → String
  | warning => "Warning"
  | fatal => "Fatal"
  | unknown code => s!"Unknown({code.toNat})"

@[simp] theorem code_ofCode (code : UInt8) : (ofCode code).code = code := by
  unfold ofCode
  split
  · next h => exact h.symm
  · split
    · next h => exact h.symm
    · rfl

end AlertLevel

inductive AlertDescription where
  | closeNotify
  | unexpectedMessage
  | badRecordMac
  | decryptionFailed
  | recordOverflow
  | decompressionFailure
  | handshakeFailure
  | illegalParameter
  | accessDenied
  | decodeError
  | decryptError
  | protocolVersion
  | insufficientSecurity
  | internalError
  | userCanceled
  | noRenegotiation
  | unsupportedExtension
  | unknownPskIdentity
  /-- A code without a name above, only ever read and never chosen by an endpoint. -/
  | unknown (code : UInt8)
  deriving DecidableEq

namespace AlertDescription

def code : AlertDescription → UInt8
  | closeNotify => 0
  | unexpectedMessage => 10
  | badRecordMac => 20
  | decryptionFailed => 21
  | recordOverflow => 22
  | decompressionFailure => 30
  | handshakeFailure => 40
  | illegalParameter => 47
  | accessDenied => 49
  | decodeError => 50
  | decryptError => 51
  | protocolVersion => 70
  | insufficientSecurity => 71
  | internalError => 80
  | userCanceled => 90
  | noRenegotiation => 100
  | unsupportedExtension => 110
  | unknownPskIdentity => 115
  | unknown code => code

def registered : List AlertDescription :=
  [closeNotify, unexpectedMessage, badRecordMac, decryptionFailed, recordOverflow,
    decompressionFailure, handshakeFailure, illegalParameter, accessDenied, decodeError, decryptError,
    protocolVersion, insufficientSecurity, internalError, userCanceled, noRenegotiation,
    unsupportedExtension, unknownPskIdentity]

def ofCode (code : UInt8) : AlertDescription :=
  (registered.find? (·.code = code)).getD (unknown code)

def name : AlertDescription → String
  | closeNotify => "CloseNotify"
  | unexpectedMessage => "UnexpectedMessage"
  | badRecordMac => "BadRecordMac"
  | decryptionFailed => "DecryptionFailed"
  | recordOverflow => "RecordOverflow"
  | decompressionFailure => "DecompressionFailure"
  | handshakeFailure => "HandshakeFailure"
  | illegalParameter => "IllegalParameter"
  | accessDenied => "AccessDenied"
  | decodeError => "DecodeError"
  | decryptError => "DecryptError"
  | protocolVersion => "ProtocolVersion"
  | insufficientSecurity => "InsufficientSecurity"
  | internalError => "InternalError"
  | userCanceled => "UserCanceled"
  | noRenegotiation => "NoRenegotiation"
  | unsupportedExtension => "UnsupportedExtension"
  | unknownPskIdentity => "UnknownPskIdentity"
  | unknown code => s!"Unknown({code.toNat})"

@[simp] theorem code_ofCode (code : UInt8) : (ofCode code).code = code := by
  unfold ofCode
  cases found : registered.find? (·.code = code) with
  | none => rfl
  | some description => simpa using List.find?_some found

end AlertDescription

structure Alert where
  level : AlertLevel
  description : AlertDescription
  deriving DecidableEq

namespace Alert

def fatal (description : AlertDescription) : Alert :=
  ⟨.fatal, description⟩

def warning (description : AlertDescription) : Alert :=
  ⟨.warning, description⟩

def bytes (alert : Alert) : Bytes :=
  [alert.level.code, alert.description.code]

/-- The alert that a record body holds; a body of any other length than two bytes is none. -/
def ofBytes? : Bytes → Option Alert
  | [level, description] => some ⟨.ofCode level, .ofCode description⟩
  | _ => none

end Alert

end PresharedTls
