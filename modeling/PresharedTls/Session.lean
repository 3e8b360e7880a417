import PresharedTls.Provider

/-!
# Sessions

A session holds what two endpoints agree on: version, suite, random values, identity and key, the
limits on fragments, the transcript of the handshake, and one protection context for each direction.
Operations that may fail give back the session in any case. What was changed before a failure stays
changed.
-/

namespace PresharedTls

/-- Largest plaintext fragment unless something smaller is negotiated. -/
def maximumPlaintext : Nat := 16384

/-- The limit on ciphertext fragments that a setting asks for. A full plaintext fragment has to fit,
so smaller limits are raised to it. -/
def effectiveCiphertextLimit (setting : UInt16) : Nat :=
  max setting.toNat maximumPlaintext

/-- The setting in the absence of any other, 2048 bytes above the plaintext. -/
def defaultCiphertextLimit : UInt16 := 18432

structure Session (κ : Type) where
  version : Version
  suite : Option CipherSuite
  clientRandom : Option HelloRandom
  serverRandom : Option HelloRandom
  identity : Bytes
  key : Option Bytes
  plaintextLimit : Nat
  /-- Largest ciphertext fragment accepted from the peer. -/
  ciphertextLimit : Nat
  encryptThenMac : Bool
  truncatedHmac : Bool
  /-- The handshake messages so far, given up once the handshake is done. -/
  transcript : Option Bytes
  encrypter : Option κ
  decrypter : Option κ
  handshakeDone : Bool
  provider : Provider κ

namespace Session

variable {κ : Type}

def fresh (version : Version) (ciphertextLimit : Nat) (provider : Provider κ) : Session κ where
  version := version
  suite := none
  clientRandom := none
  serverRandom := none
  identity := []
  key := none
  plaintextLimit := maximumPlaintext
  ciphertextLimit := ciphertextLimit
  encryptThenMac := false
  truncatedHmac := false
  transcript := some []
  encrypter := none
  decrypter := none
  handshakeDone := false
  provider := provider

def withClientRandom (session : Session κ) (random : HelloRandom) : Session κ :=
  { session with clientRandom := some random }

def withKey (session : Session κ) (identity key : Bytes) : Session κ :=
  { session with identity := identity, key := some key }

def addToTranscript (session : Session κ) (message : Bytes) : Session κ :=
  { session with transcript := session.transcript.map (· ++ message) }

def finish (session : Session κ) : Session κ :=
  { session with handshakeDone := true, transcript := none }

/-! ### Negotiated parameters -/

/-- What one extension of a ServerHello changes; types nobody acts on change nothing. -/
def applyExtension (session : Session κ) (type : UInt16) (data : Bytes) : Except AlertDescription (Session κ) :=
  match ExtensionType.ofCode? type with
  | none => .ok session
  | some .maxFragmentLength =>
    (MaxFragmentLength.ofBytes data).map fun length => { session with plaintextLimit := length.limit }
  | some .encryptThenMac =>
    if data.isEmpty then .ok { session with encryptThenMac := true } else .error .illegalParameter
  | some .truncatedHmac =>
    if data.isEmpty then .ok { session with truncatedHmac := true } else .error .illegalParameter

/-- Applies extensions in order, up to the first that is malformed. -/
def applyExtensions (session : Session κ) :
    (entries : List (UInt16 × Bytes)) → Except AlertDescription Unit × Session κ
  | [] => (.ok (), session)
  | (type, data) :: rest =>
    match session.applyExtension type data with
    | .error alert => (.error alert, session)
    | .ok session => session.applyExtensions rest

/-- Takes over the parameters of a ServerHello. Both ends do this, a server with the hello it is
about to send. Version, suite and random are taken over last, once all extensions are. -/
def applyServerHello (session : Session κ) (hello : ServerHello) : Except AlertDescription Unit × Session κ :=
  match Version.ofCode? hello.version with
  | none => (.error .protocolVersion, session)
  | some version =>
    match CipherSuite.ofCode? hello.suite with
    | none => (.error .illegalParameter, session)
    | some suite =>
      match session.applyExtensions hello.extensions.entries with
      | (.error alert, session) => (.error alert, session)
      | (.ok (), session) =>
        (.ok (), { session with version := version, suite := some suite, serverRandom := some hello.random })

/-! ### Protection contexts -/

/-- What keys are derived from, once all of it is known. -/
def securityParameters? (session : Session κ) : Option SecurityParameters := do
  let suite ← session.suite
  let clientRandom ← session.clientRandom
  let serverRandom ← session.serverRandom
  let key ← session.key
  return {
    version := session.version
    suite := suite
    clientRandom := clientRandom
    serverRandom := serverRandom
    key := key
    encryptThenMac := session.encryptThenMac
    truncatedHmac := session.truncatedHmac }

/-- Makes the context for what this endpoint sends, once, in the keys of `sender`. -/
def createEncrypter (session : Session κ) (sender : Role) : Except AlertDescription Unit × Session κ :=
  match session.encrypter, session.securityParameters? with
  | none, some params =>
    match session.provider.createEncoder params sender with
    | .error alert => (.error alert, session)
    | .ok context => (.ok (), { session with encrypter := some context })
  | _, _ => (.error .internalError, session)

/-- Makes the context for what this endpoint receives, once, in the keys of `sender`. -/
def createDecrypter (session : Session κ) (sender : Role) : Except AlertDescription Unit × Session κ :=
  match session.decrypter, session.securityParameters? with
  | none, some params =>
    match session.provider.createDecoder params sender with
    | .error alert => (.error alert, session)
    | .ok context => (.ok (), { session with decrypter := some context })
  | _, _ => (.error .internalError, session)

/-- The fragment for an outbound plaintext, which goes unprotected while there is no encrypter. -/
def encrypt (session : Session κ) (typeCode : UInt8) (plaintext : Bytes) (entropy : Entropy) :
    Except AlertDescription Bytes × Session κ × Entropy :=
  match session.encrypter with
  | none => (.ok plaintext, session, entropy)
  | some context =>
    let (result, context, entropy) :=
      session.provider.protect context typeCode session.version.code plaintext entropy
    (result, { session with encrypter := some context }, entropy)

/-- The plaintext of an inbound fragment, which is not protected while there is no decrypter. -/
def decrypt (session : Session κ) (typeCode : UInt8) (version : UInt16) (fragment : Bytes) :
    Except AlertDescription Bytes × Session κ :=
  match session.decrypter with
  | none => (.ok fragment, session)
  | some context =>
    let (result, context) := session.provider.unprotect context typeCode version fragment
    (result, { session with decrypter := some context })

/-- The verify data of `sender` over the transcript. Either context will do. -/
def verifyData (session : Session κ) (sender : Role) : Except AlertDescription VerifyData :=
  match session.transcript, session.decrypter.or session.encrypter with
  | some transcript, some context => session.provider.verifyData context sender transcript
  | _, _ => .error .internalError

end Session

end PresharedTls
