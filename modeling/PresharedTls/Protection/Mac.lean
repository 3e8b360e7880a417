import PresharedTls.Prf

/-!
# Record MAC

The MAC of the suites that are not GCM covers a header of thirteen bytes and the data. The header
binds a record to its place in the stream by its sequence number, and GCM takes the same bytes as
additional data.
-/

namespace PresharedTls

/-- The header: sequence number, content type, version, and the length in its low sixteen bits. -/
def macHeader (sequence : Nat) (typeCode : UInt8) (version : UInt16) (length : Nat) : Bytes :=
  bigEndian 8 sequence ++ [typeCode] ++ bigEndian 2 version.toNat ++ bigEndian 2 length

structure RecordMac where
  hash : MacHash
  key : Bytes
  truncated : Bool

namespace RecordMac

def length (mac : RecordMac) : Nat :=
  if mac.truncated then 10 else mac.hash.outputLength

def tag (mac : RecordMac) (header data : Bytes) : Bytes :=
  (mac.hash.function.hmac mac.key (header ++ data)).take mac.length

theorem length_le_outputLength (mac : RecordMac) : mac.length ≤ mac.hash.outputLength := by
  unfold length
  cases mac.hash <;> cases mac.truncated <;> decide

@[simp] theorem length_tag (mac : RecordMac) (header data : Bytes) :
    (mac.tag header data).length = mac.length := by
  rw [tag, List.length_take_of_le]
  simpa using mac.length_le_outputLength

end RecordMac

/-! ### Records without encryption -/

namespace NullRecords

def protect (mac : RecordMac) (sequence : Nat) (typeCode : UInt8) (version : UInt16) (plaintext : Bytes) : Bytes :=
  plaintext ++ mac.tag (macHeader sequence typeCode version plaintext.length) plaintext

def unprotect (mac : RecordMac) (sequence : Nat) (typeCode : UInt8) (version : UInt16) (fragment : Bytes) :
    Option Bytes :=
  let length := fragment.length - mac.length
  let plaintext := fragment.take length
  if fragment.length < mac.length then none
  else if mac.tag (macHeader sequence typeCode version length) plaintext = fragment.drop length then some plaintext
  else none

end NullRecords

end PresharedTls
