import PresharedTls.Hash.Md5
import PresharedTls.Hash.Sha1
import PresharedTls.Hash.Sha256
import PresharedTls.Hash.Sha384

/-!
# Hash functions and HMAC

What the rest of the library knows of a hash function: its block size, its digest, and that every
digest has the same length. HMAC is built from any of them.
-/

namespace PresharedTls

structure HashFunction where
  blockSize : Nat
  digestSize : Nat
  digest : Bytes → Bytes
  length_digest : ∀ message, (digest message).length = digestSize
  digestSize_pos : 0 < digestSize := by decide

namespace HashFunction

def md5 : HashFunction where
  blockSize := 64
  digestSize := 16
  digest := Md5.digest
  length_digest := Md5.length_digest

def sha1 : HashFunction where
  blockSize := 64
  digestSize := 20
  digest := Sha1.digest
  length_digest := Sha1.length_digest

def sha256 : HashFunction where
  blockSize := 64
  digestSize := 32
  digest := Sha256.digest
  length_digest := Sha256.length_digest

def sha384 : HashFunction where
  blockSize := 128
  digestSize := 48
  digest := Sha384.digest
  length_digest := Sha384.length_digest

/-- The key as one block: hashed if it is longer, filled up with zeros. -/
def keyBlock (hash : HashFunction) (key : Bytes) : Bytes :=
  let short := if hash.blockSize < key.length then hash.digest key else key
  short ++ List.replicate (hash.blockSize - short.length) 0

def hmac (hash : HashFunction) (key message : Bytes) : Bytes :=
  let block := hash.keyBlock key
  hash.digest (block.map (· ^^^ 0x5c) ++ hash.digest (block.map (· ^^^ 0x36) ++ message))

@[simp] theorem length_hmac (hash : HashFunction) (key message : Bytes) :
    (hash.hmac key message).length = hash.digestSize :=
  hash.length_digest _

end HashFunction

end PresharedTls
