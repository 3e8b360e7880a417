import PresharedTls.Connection
import PresharedTls.KeyTable

/-!
# Settings

What an application decides about an endpoint, and the connections made from it. Every field has a
default, apart from the provider of record protection.
-/

namespace PresharedTls

inductive SettingsError where
  | noSuiteOffered
  | noSuiteSupported
  | versionsReversed (minimum maximum : Version)
  deriving DecidableEq

def SettingsError.message : SettingsError → String
  | noSuiteOffered => "At least one cipher suite must be offered"
  | noSuiteSupported => "At least one cipher suite must be supported"
  | versionsReversed minimum maximum => s!"Minimum version {minimum.name} is above maximum {maximum.name}"

structure ClientSettings (κ : Type) where
  provider : Provider κ
  /-- The identity to show and its key. A handshake without them fails. -/
  credentials : Option (Bytes × Bytes) := none
  suites : List CipherSuite := CipherSuite.all
  suites_ne_nil : suites ≠ [] := by decide
  /-- The only version that is offered and accepted. -/
  version : Version := .tls12
  maxFragmentLength : Option MaxFragmentLength := none
  encryptThenMac : Bool := false
  truncatedHmac : Bool := false
  ciphertextSetting : UInt16 := defaultCiphertextLimit

namespace ClientSettings

variable {κ : Type}

/-- The settings with other suites, of which there has to be one. -/
def withSuites (settings : ClientSettings κ) (suites : List CipherSuite) :
    Except SettingsError (ClientSettings κ) :=
  if h : suites = [] then .error .noSuiteOffered
  else .ok { settings with suites := suites, suites_ne_nil := h }

def extensions (settings : ClientSettings κ) : ExtensionMap :=
  let requested (wanted : Bool) (type : ExtensionType) (data : Bytes) : List (UInt16 × Bytes) :=
    if wanted then [(type.code, data)] else []
  ExtensionMap.ofList <|
    (settings.maxFragmentLength.toList.map fun length => (ExtensionType.maxFragmentLength.code, [length.code])) ++
    requested settings.encryptThenMac .encryptThenMac [] ++
    requested settings.truncatedHmac .truncatedHmac []

def offer (settings : ClientSettings κ) : ClientOffer :=
  ⟨settings.version, settings.suites, settings.extensions⟩

def connection (settings : ClientSettings κ) (entropy : Entropy) : Connection κ :=
  let session := Session.fresh settings.version (effectiveCiphertextLimit settings.ciphertextSetting)
    settings.provider
  let session := match settings.credentials with
    | none => session
    | some (identity, key) => session.withKey identity key
  Connection.fresh (.client settings.offer) session entropy

end ClientSettings

structure ServerSettings (κ : Type) where
  provider : Provider κ
  keys : KeyTable := .empty
  /-- What looks up keys in the stead of the table. -/
  resolver : Option (Bytes → Option Bytes) := none
  /-- A hint that helps a client choose between identities. -/
  identityHint : Bytes := []
  suites : List CipherSuite := CipherSuite.all
  suites_ne_nil : suites ≠ [] := by decide
  minimumVersion : Version := .tls10
  maximumVersion : Version := .tls12
  /-- The extensions that are echoed where a client asks for them. -/
  extensions : List ExtensionType := ExtensionType.all
  ciphertextSetting : UInt16 := defaultCiphertextLimit

namespace ServerSettings

variable {κ : Type}

/-- The settings with other suites, of which there has to be one. -/
def withSuites (settings : ServerSettings κ) (suites : List CipherSuite) :
    Except SettingsError (ServerSettings κ) :=
  if h : suites = [] then .error .noSuiteSupported
  else .ok { settings with suites := suites, suites_ne_nil := h }

def resolve (settings : ServerSettings κ) : Bytes → Option Bytes :=
  settings.resolver.getD settings.keys.resolve

def policy (settings : ServerSettings κ) : ServerPolicy where
  resolve := settings.resolve
  identityHint := settings.identityHint
  suites := settings.suites
  minimumVersion := settings.minimumVersion
  maximumVersion := settings.maximumVersion
  extensions := settings.extensions

def connection (settings : ServerSettings κ) (entropy : Entropy) : Except SettingsError (Connection κ) :=
  if settings.maximumVersion < settings.minimumVersion then
    .error (.versionsReversed settings.minimumVersion settings.maximumVersion)
  else
    let session := Session.fresh settings.maximumVersion (effectiveCiphertextLimit settings.ciphertextSetting)
      settings.provider
    .ok (Connection.fresh (.server settings.policy) session entropy)

end ServerSettings

end PresharedTls
