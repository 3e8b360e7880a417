import PresharedTls.Alert
import PresharedTls.Handshake.Hello
import PresharedTls.Prf

/-!
# Keys

How a session's secrets come out of the shared key: the premaster secret from the key itself, the
master secret from it and both hello randoms, and the key block from the master secret. The key
block is cut into a MAC key, an encryption key and an initialisation vector for each direction.
-/

namespace PresharedTls

/-- The two ends of a connection. -/
inductive Role where
  | client
  | server
  deriving DecidableEq

namespace Role

def name : Role → String
  | client => "Client"
  | server => "Server"

def peer : Role → Role
  | client => server
  | server => client

@[simp] theorem peer_peer (role : Role) : role.peer.peer = role := by
  cases role <;> rfl

theorem peer_ne (role : Role) : role.peer ≠ role := by
  cases role <;> decide

theorem eq_peer_of_ne {role other : Role} (h : other ≠ role) : other = role.peer := by
  cases role <;> cases other <;> trivial

end Role

structure SecurityParameters where
  version : Version
  suite : CipherSuite
  clientRandom : HelloRandom
  serverRandom : HelloRandom
  key : Bytes
  encryptThenMac : Bool
  truncatedHmac : Bool

def ascii (label : String) : Bytes :=
  label.toList.map fun c => UInt8.ofNat c.toNat

/-- The premaster secret: as many zeros as the key has bytes, and the key, each behind that number
in two bytes. -/
def premasterSecret (key : Bytes) : Except AlertDescription Bytes :=
  if key.length < 65536 then
    .ok (bigEndian 2 key.length ++ List.replicate key.length 0 ++ bigEndian 2 key.length ++ key)
  else .error .internalError

namespace SecurityParameters

def prf (params : SecurityParameters) : Prf :=
  Prf.select params.version params.suite

def masterSecret (params : SecurityParameters) : Except AlertDescription (FixedBytes 48) := do
  let premaster ← premasterSecret params.key
  return ⟨params.prf.derive premaster (ascii "master secret")
    (params.clientRandom.bytes ++ params.serverRandom.bytes) 48, by simp⟩

def macKeyLength (params : SecurityParameters) : Nat :=
  (params.suite.macHash?.map MacHash.outputLength).getD 0

def encryptionKeyLength (params : SecurityParameters) : Nat :=
  params.suite.bulkCipher.keyLength

/-- The part of a GCM nonce that stays the same, or the first vector of a CBC chain, which from
TLS 1.1 on is sent with each record instead. -/
def vectorLength (params : SecurityParameters) : Nat :=
  match params.suite.bulkCipher with
  | .aes128Gcm | .aes256Gcm => 4
  | .aes128Cbc | .aes256Cbc => if params.version = .tls10 then 16 else 0
  | .null => 0

/-- Both directions' keys in one string: MAC keys, encryption keys, vectors, the client's first. -/
def keyBlock (params : SecurityParameters) (masterSecret : Bytes) : Bytes :=
  params.prf.derive masterSecret (ascii "key expansion")
    (params.serverRandom.bytes ++ params.clientRandom.bytes)
    (2 * (params.macKeyLength + params.encryptionKeyLength + params.vectorLength))

end SecurityParameters

structure DirectionKeys where
  macKey : Bytes
  encryptionKey : Bytes
  vector : Bytes

/-- Of the pair of `length` bytes each from `start` on, the client's or the server's. -/
def pairMember (b : Bytes) (start length : Nat) : Role → Bytes
  | .client => (b.drop start).take length
  | .server => (b.drop (start + length)).take length

def SecurityParameters.directionKeys (params : SecurityParameters) (masterSecret : Bytes) (sender : Role) :
    DirectionKeys :=
  let block := params.keyBlock masterSecret
  let mac := params.macKeyLength
  let encryption := params.encryptionKeyLength
  ⟨pairMember block 0 mac sender, pairMember block (2 * mac) encryption sender,
    pairMember block (2 * mac + 2 * encryption) params.vectorLength sender⟩

end PresharedTls
