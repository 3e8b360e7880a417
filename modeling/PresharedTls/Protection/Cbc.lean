import PresharedTls.BlockCipher.Chaining
import PresharedTls.Entropy
import PresharedTls.Protection.Mac
import PresharedTls.Protection.Padding

/-!
# CBC records

A record of a CBC suite is encrypted with its tag inside (tag, then padding, then encryption) or
with the tag behind the ciphertext and covering it. TLS 1.0 continues the chain of the record before
and sends no vector, later versions send a random vector with each record.
-/

namespace PresharedTls

structure CbcRecords where
  cipher : BlockCipher
  mac : RecordMac
  encryptThenMac : Bool
  /-- The vector for the next record where records are chained. -/
  chained : Option Block

namespace CbcRecords

def vectorLength (records : CbcRecords) : Nat :=
  if records.chained.isSome then 0 else Block.size

def drawVector (records : CbcRecords) (entropy : Entropy) : Block × Entropy :=
  match records.chained with
  | some vector => (vector, entropy)
  | none =>
    let (bytes, entropy) := entropy.draw Block.size
    (Block.ofBytes bytes.bytes, entropy)

/-- Moves the chain behind a ciphertext. -/
def advance (records : CbcRecords) (ciphertext : Bytes) : CbcRecords :=
  { records with chained := records.chained.map fun vector => Chaining.nextVector vector ciphertext }

/-- The vector of a received record and the ciphertext behind it. -/
def splitVector (records : CbcRecords) (body : Bytes) : Option (Block × Bytes) :=
  match records.chained with
  | some vector => some (vector, body)
  | none =>
    if body.length < Block.size then none
    else some (Block.ofBytes (body.take Block.size), body.drop Block.size)

def protect (records : CbcRecords) (sequence : Nat) (typeCode : UInt8) (version : UInt16) (plaintext : Bytes)
    (entropy : Entropy) : Bytes × CbcRecords × Entropy :=
  let (vector, entropy) := records.drawVector entropy
  let content :=
    if records.encryptThenMac then plaintext
    else plaintext ++ records.mac.tag (macHeader sequence typeCode version plaintext.length) plaintext
  let ciphertext := Chaining.encrypt records.cipher vector (Padding.add content)
  let body := if records.chained.isSome then ciphertext else vector.bytes ++ ciphertext
  let fragment :=
    if records.encryptThenMac then
      body ++ records.mac.tag (macHeader sequence typeCode version body.length) body
    else body
  (fragment, records.advance ciphertext, entropy)

/-- Opens a record with the tag inside the ciphertext. The shortest one holds a tag and one byte of
padding. -/
def unprotectMacInside (records : CbcRecords) (sequence : Nat) (typeCode : UInt8) (version : UInt16)
    (fragment : Bytes) : Option (Bytes × CbcRecords) := do
  let macLength := records.mac.length
  let minimum := records.vectorLength + (macLength + 1 + 15) / 16 * 16
  guard (minimum ≤ fragment.length ∧ (fragment.length - records.vectorLength) % 16 = 0)
  let (vector, ciphertext) ← records.splitVector fragment
  let data := Chaining.decrypt records.cipher vector ciphertext
  let padding ← Padding.check data (.ofNat macLength)
  let length := data.length - padding - macLength
  let plaintext := data.take length
  guard (records.mac.tag (macHeader sequence typeCode version length) plaintext = (data.drop length).take macLength)
  return (plaintext, records.advance ciphertext)

/-- Opens a record with the tag behind the ciphertext, which holds one block at least. -/
def unprotectMacOutside (records : CbcRecords) (sequence : Nat) (typeCode : UInt8) (version : UInt16)
    (fragment : Bytes) : Option (Bytes × CbcRecords) := do
  let length := fragment.length - records.mac.length
  guard (records.mac.length ≤ fragment.length ∧ records.vectorLength + Block.size ≤ length ∧
    (length - records.vectorLength) % 16 = 0)
  let body := fragment.take length
  guard (records.mac.tag (macHeader sequence typeCode version length) body = fragment.drop length)
  let (vector, ciphertext) ← records.splitVector body
  let data := Chaining.decrypt records.cipher vector ciphertext
  let padding ← Padding.check data 0
  return (data.take (data.length - padding), records.advance ciphertext)

def unprotect (records : CbcRecords) (sequence : Nat) (typeCode : UInt8) (version : UInt16) (fragment : Bytes) :
    Option (Bytes × CbcRecords) :=
  if records.encryptThenMac then records.unprotectMacOutside sequence typeCode version fragment
  else records.unprotectMacInside sequence typeCode version fragment

end CbcRecords

end PresharedTls
