import PresharedTls.Aes.Cipher
import PresharedTls.Handshake.KeyExchange
import PresharedTls.Protection.Cbc
import PresharedTls.Protection.Gcm
import PresharedTls.Protection.Keys

/-!
# Record protection

A protection context guards the records of one direction of a session. It counts them: the sequence
number enters each record's authentication, and a record that fails to open uses one up as well.
-/

namespace PresharedTls

inductive RecordCipher where
  | gcm (cipher : BlockCipher) (salt : Bytes)
  | cbc (records : CbcRecords)
  | null (mac : RecordMac)

structure Protection where
  prf : Prf
  masterSecret : FixedBytes 48
  cipher : RecordCipher
  sequence : Nat

namespace Protection

/-- Sequence numbers are below this bound. -/
def sequenceBound : Nat := 0xFFFFFFFFFFFFFFFF

/-- The cipher of a suite under the keys of one direction. -/
def recordCipher (params : SecurityParameters) (keys : DirectionKeys) : RecordCipher :=
  match params.suite.macHash? with
  | none => .gcm (Aes.blockCipher keys.encryptionKey) keys.vector
  | some hash =>
    let mac : RecordMac := ⟨hash, keys.macKey, params.truncatedHmac⟩
    if params.suite.bulkCipher.isBlockCipher then
      .cbc ⟨Aes.blockCipher keys.encryptionKey, mac, params.encryptThenMac, (Block.split keys.vector).head?⟩
    else .null mac

def create (params : SecurityParameters) (sender : Role) : Except AlertDescription Protection := do
  if params.version < params.suite.minimumVersion then
    throw .illegalParameter
  let masterSecret ← params.masterSecret
  return ⟨params.prf, masterSecret, recordCipher params (params.directionKeys masterSecret.bytes sender), 0⟩

def protect (context : Protection) (typeCode : UInt8) (version : UInt16) (plaintext : Bytes) (entropy : Entropy) :
    Except AlertDescription Bytes × Protection × Entropy :=
  if sequenceBound ≤ context.sequence then (.error .internalError, context, entropy)
  else
    let sequence := context.sequence
    let context := { context with sequence := sequence + 1 }
    match context.cipher with
    | .gcm cipher salt =>
      match GcmRecords.protect cipher salt sequence typeCode version plaintext with
      | some fragment => (.ok fragment, context, entropy)
      | none => (.error .internalError, context, entropy)
    | .cbc records =>
      let (fragment, records, entropy) := records.protect sequence typeCode version plaintext entropy
      (.ok fragment, { context with cipher := .cbc records }, entropy)
    | .null mac => (.ok (NullRecords.protect mac sequence typeCode version plaintext), context, entropy)

def unprotect (context : Protection) (typeCode : UInt8) (version : UInt16) (fragment : Bytes) :
    Except AlertDescription Bytes × Protection :=
  if sequenceBound ≤ context.sequence then (.error .internalError, context)
  else
    let sequence := context.sequence
    let context := { context with sequence := sequence + 1 }
    match context.cipher with
    | .gcm cipher salt =>
      match GcmRecords.unprotect cipher salt sequence typeCode version fragment with
      | some plaintext => (.ok plaintext, context)
      | none => (.error .badRecordMac, context)
    | .cbc records =>
      match records.unprotect sequence typeCode version fragment with
      | some (plaintext, records) => (.ok plaintext, { context with cipher := .cbc records })
      | none => (.error .badRecordMac, context)
    | .null mac =>
      match NullRecords.unprotect mac sequence typeCode version fragment with
      | some plaintext => (.ok plaintext, context)
      | none => (.error .badRecordMac, context)

def finishedLabel : Role → Bytes
  | .client => ascii "client finished"
  | .server => ascii "server finished"

/-- What `sender` has to put into its Finished after the handshake messages of `transcript`. -/
def verifyData (context : Protection) (sender : Role) (transcript : Bytes) : VerifyData :=
  context.prf.verifyBytes context.masterSecret.bytes (finishedLabel sender) transcript

end Protection

end PresharedTls
