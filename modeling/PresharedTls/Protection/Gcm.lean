import PresharedTls.BlockCipher.Gcm
import PresharedTls.Protection.Mac

/-!
# GCM records

The nonce of a record is a salt from the key block and eight bytes sent in front of the ciphertext.
A sender takes the sequence number for them, so no nonce serves twice under one key.
-/

namespace PresharedTls.GcmRecords

/-- Bytes of a nonce that are sent with the record. -/
def explicitLength : Nat := 8

def protect (cipher : BlockCipher) (salt : Bytes) (sequence : Nat) (typeCode : UInt8) (version : UInt16)
    (plaintext : Bytes) : Option Bytes :=
  let explicit := bigEndian explicitLength sequence
  (Gcm.encrypt cipher (salt ++ explicit) (macHeader sequence typeCode version plaintext.length) plaintext).map
    (explicit ++ ·)

def unprotect (cipher : BlockCipher) (salt : Bytes) (sequence : Nat) (typeCode : UInt8) (version : UInt16)
    (fragment : Bytes) : Option Bytes :=
  if fragment.length < explicitLength + Gcm.tagSize then none
  else
    Gcm.decrypt cipher (salt ++ fragment.take explicitLength)
      (macHeader sequence typeCode version (fragment.length - (explicitLength + Gcm.tagSize)))
      (fragment.drop explicitLength)

end PresharedTls.GcmRecords
