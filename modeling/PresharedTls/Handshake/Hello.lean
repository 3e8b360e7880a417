import PresharedTls.CipherSuite
import PresharedTls.Entropy
import PresharedTls.Extension

/-!
# Hello messages

The bodies of ClientHello and ServerHello. Session identifiers are read and forgotten and never
sent, for there is no resumption; the only compression method is null. A client's suites that have
no name here are dropped on reading. The suite of a server stays a code point, since the client has
to tell apart what it did not offer.
-/

namespace PresharedTls

abbrev HelloRandom := FixedBytes 32

structure ClientHello where
  version : UInt16
  random : HelloRandom
  suites : List CipherSuite
  extensions : ExtensionMap
  deriving DecidableEq

namespace ClientHello

def draw (version : UInt16) (suites : List CipherSuite) (extensions : ExtensionMap) (entropy : Entropy) :
    ClientHello × Entropy :=
  let (random, entropy) := entropy.draw 32
  (⟨version, random, suites, extensions⟩, entropy)

def suiteCodes : Bytes → List UInt16
  | high :: low :: rest => UInt16.ofNat (ofBigEndian [high, low]) :: suiteCodes rest
  | _ => []

def reader : Reader ClientHello := do
  let version ← Reader.uint16
  let random ← Reader.fixed 32
  let _sessionId ← Reader.vector8 0 32
  let suites ← Reader.vector16 2 2
  let compressionMethods ← Reader.vector8 1 255
  guard (0 ∈ compressionMethods)
  let extensions ← fun b => (ExtensionMap.ofBytes? b).map fun map => (map, [])
  return ⟨version, random, (suiteCodes suites).filterMap CipherSuite.ofCode?, extensions⟩

def ofBytes? (b : Bytes) : Option ClientHello :=
  reader.readAll? b

/-- The message body. A hello without suites, or with more than the length in front of them can
say, has none. -/
def bytes (hello : ClientHello) : Except AlertDescription Bytes := do
  if hello.suites.length = 0 ∨ 32768 ≤ hello.suites.length then
    throw .internalError
  let extensions ← hello.extensions.bytes
  return bigEndian 2 hello.version.toNat ++ hello.random.bytes ++ [0] ++
    bigEndian 2 (2 * hello.suites.length) ++ hello.suites.flatMap (fun suite => bigEndian 2 suite.code.toNat) ++
    [1, 0] ++ extensions

end ClientHello

structure ServerHello where
  version : UInt16
  random : HelloRandom
  suite : UInt16
  extensions : ExtensionMap
  deriving DecidableEq

namespace ServerHello

def draw (version suite : UInt16) (extensions : ExtensionMap) (entropy : Entropy) : ServerHello × Entropy :=
  let (random, entropy) := entropy.draw 32
  (⟨version, random, suite, extensions⟩, entropy)

def reader : Reader ServerHello := do
  let version ← Reader.uint16
  let random ← Reader.fixed 32
  let _sessionId ← Reader.vector8 0 32
  let suite ← Reader.uint16
  let compressionMethod ← Reader.uint8
  guard (compressionMethod = 0)
  let extensions ← fun b => (ExtensionMap.ofBytes? b).map fun map => (map, [])
  return ⟨version, random, suite, extensions⟩

def ofBytes? (b : Bytes) : Option ServerHello :=
  reader.readAll? b

/-- The message body. -/
def bytes (hello : ServerHello) : Except AlertDescription Bytes := do
  let extensions ← hello.extensions.bytes
  return bigEndian 2 hello.version.toNat ++ hello.random.bytes ++ [0] ++ bigEndian 2 hello.suite.toNat ++ [0] ++
    extensions

end ServerHello

end PresharedTls
