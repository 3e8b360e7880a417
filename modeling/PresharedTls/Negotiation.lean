import PresharedTls.Alert
import PresharedTls.Handshake.Hello

/-!
# Negotiation

A client offers a version, suites and extensions. A server chooses from the offer by its policy and
the client checks that the answer lies within the offer. The client's order of preference decides
between suites, and extensions are accepted by echoing them unchanged.
-/

namespace PresharedTls

/-- What a client puts into its hello. -/
structure ClientOffer where
  version : Version
  suites : List CipherSuite
  extensions : ExtensionMap

namespace ClientOffer

/-- The hello that makes the offer. -/
def hello (offer : ClientOffer) (entropy : Entropy) : ClientHello × Entropy :=
  ClientHello.draw offer.version.code offer.suites offer.extensions entropy

/-- Whether a ServerHello extension is one that was sent, with the data that was sent. -/
def covers (offer : ClientOffer) (entry : UInt16 × Bytes) : Bool :=
  offer.extensions.get? entry.1 = some entry.2

/-- Refuses an answer that is not within the offer. -/
def check (offer : ClientOffer) (answer : ServerHello) : Except AlertDescription Unit :=
  if answer.version ≠ offer.version.code then .error .protocolVersion
  else if ¬ offer.suites.any (·.code = answer.suite) then .error .illegalParameter
  else if answer.extensions.entries.all offer.covers then .ok ()
  else .error .illegalParameter

end ClientOffer

/-- What a server accepts. -/
structure ServerPolicy where
  /-- The key for an identity. -/
  resolve : Bytes → Option Bytes
  identityHint : Bytes
  suites : List CipherSuite
  minimumVersion : Version
  maximumVersion : Version
  extensions : List ExtensionType

namespace ServerPolicy

def accepts (policy : ServerPolicy) (version : Version) (suite : CipherSuite) : Bool :=
  policy.suites.contains suite && decide (suite.minimumVersion ≤ version)

def echoes (policy : ServerPolicy) (type : UInt16) : Bool :=
  policy.extensions.any (·.code = type)

/-- The version of the answer to a client that goes up to `offered`. -/
def chooseVersion (policy : ServerPolicy) (offered : UInt16) : Except AlertDescription Version :=
  match Version.negotiate offered policy.maximumVersion with
  | none => .error .protocolVersion
  | some version => if version < policy.minimumVersion then .error .protocolVersion else .ok version

/-- The first suite of the client that is accepted. -/
def chooseSuite (policy : ServerPolicy) (version : Version) (offered : List CipherSuite) :
    Except AlertDescription CipherSuite :=
  match offered.find? (policy.accepts version) with
  | none => .error .illegalParameter
  | some suite => .ok suite

/-- The extensions to echo. Without a bulk cipher there is nothing to encrypt before the MAC. -/
def chooseExtensions (policy : ServerPolicy) (suite : CipherSuite) (offered : ExtensionMap) : ExtensionMap :=
  let echoed := offered.filter policy.echoes
  if suite.hasBulkCipher then echoed else echoed.erase ExtensionType.encryptThenMac.code

/-- The answer to a hello. Its random value is drawn once everything else is chosen. -/
def answer (policy : ServerPolicy) (hello : ClientHello) (entropy : Entropy) :
    Except AlertDescription (ServerHello × Entropy) := do
  let version ← policy.chooseVersion hello.version
  let suite ← policy.chooseSuite version hello.suites
  return ServerHello.draw version.code suite.code (policy.chooseExtensions suite hello.extensions) entropy

end ServerPolicy

end PresharedTls
