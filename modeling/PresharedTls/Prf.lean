import PresharedTls.CipherSuite
import PresharedTls.Hash

/-!
# Pseudorandom functions

Keyed expansion of a seed to any number of bytes: a chain `A(1), A(2), …` of HMACs over the seed,
each link hashed once more together with the seed to give one block of output. TLS 1.2 uses it with
one hash, older versions combine two.
-/

namespace PresharedTls

namespace HashFunction

/-- `count` blocks of output, the first from the link `a` of the chain. -/
def expandFrom (hash : HashFunction) (secret seed a : Bytes) : (count : Nat) → Bytes
  | 0 => []
  | count + 1 => hash.hmac secret (a ++ seed) ++ expandFrom hash secret seed (hash.hmac secret a) count

theorem length_expandFrom (hash : HashFunction) (secret seed a : Bytes) (count : Nat) :
    (hash.expandFrom secret seed a count).length = count * hash.digestSize := by
  induction count generalizing a with
  | zero => simp [expandFrom]
  | succ count ih =>
    rw [expandFrom, List.length_append, ih, length_hmac, Nat.succ_mul]
    omega

/-- The first `length` bytes of the expansion of `seed` under `secret`. -/
def expand (hash : HashFunction) (secret seed : Bytes) (length : Nat) : Bytes :=
  (hash.expandFrom secret seed (hash.hmac secret seed)
    ((length + hash.digestSize - 1) / hash.digestSize)).take length

@[simp] theorem length_expand (hash : HashFunction) (secret seed : Bytes) (length : Nat) :
    (hash.expand secret seed length).length = length := by
  rw [expand, List.length_take_of_le]
  rw [length_expandFrom]
  have pos := hash.digestSize_pos
  have split := Nat.div_add_mod (length + hash.digestSize - 1) hash.digestSize
  have below := Nat.mod_lt (length + hash.digestSize - 1) pos
  rw [Nat.mul_comm] at split
  omega

end HashFunction

def PrfHash.function : PrfHash → HashFunction
  | sha256 => .sha256
  | sha384 => .sha384

def MacHash.function : MacHash → HashFunction
  | sha1 => .sha1
  | sha256 => .sha256
  | sha384 => .sha384

@[simp] theorem MacHash.digestSize_function (hash : MacHash) :
    hash.function.digestSize = hash.outputLength := by
  cases hash <;> rfl

inductive Prf where
  /-- MD5 and SHA-1 side by side, for versions before TLS 1.2. -/
  | md5Sha1
  | single (hash : PrfHash)
  deriving DecidableEq

namespace Prf

/-- The version and the suite fix the function. -/
def select (version : Version) (suite : CipherSuite) : Prf :=
  if version < .tls12 then md5Sha1 else single suite.prfHash

/-- `length` bytes derived from a secret, a label and a seed. The combined function splits the
secret into two halves, which share the middle byte when its length is odd. -/
def derive (prf : Prf) (secret label seed : Bytes) (length : Nat) : Bytes :=
  match prf with
  | md5Sha1 =>
    let half := (secret.length + 1) / 2
    xorBytes (HashFunction.md5.expand (secret.take half) (label ++ seed) length)
      (HashFunction.sha1.expand (secret.drop (secret.length - half)) (label ++ seed) length)
  | single hash => hash.function.expand secret (label ++ seed) length

@[simp] theorem length_derive (prf : Prf) (secret label seed : Bytes) (length : Nat) :
    (prf.derive secret label seed length).length = length := by
  cases prf <;> simp [derive]

/-- What stands for the handshake messages in Finished. -/
def transcriptHash (prf : Prf) (transcript : Bytes) : Bytes :=
  match prf with
  | md5Sha1 => Md5.digest transcript ++ Sha1.digest transcript
  | single hash => hash.function.digest transcript

def verifyBytes (prf : Prf) (masterSecret label transcript : Bytes) : FixedBytes 12 :=
  ⟨prf.derive masterSecret label (prf.transcriptHash transcript) 12, by simp⟩

end Prf

end PresharedTls
