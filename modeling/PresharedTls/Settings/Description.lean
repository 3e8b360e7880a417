import PresharedTls.Settings
import PresharedTls.Text.Quoted
import PresharedTls.Text.Utf8

/-!
# Settings as text

One line that shows the settings of an endpoint, for logs and error reports. Keys are never shown,
and neither are a provider and a resolver, of which there is nothing to show.
-/

namespace PresharedTls

def describeIdentity (identity : Bytes) : String :=
  Text.quote (Text.decode identity)

def describeList (items : List String) : String :=
  "[" ++ ", ".intercalate items ++ "]"

/-- A name and fields; the dots say that there is more. -/
def describeFields (name : String) (fields : List (String × String)) : String :=
  name ++ " \x7b " ++ String.join (fields.map fun field => field.1 ++ ": " ++ field.2 ++ ", ") ++ ".. \x7d"

def MaxFragmentLength.describe (length : MaxFragmentLength) : String :=
  s!"MaxFragmentLength({length.code.toNat})"

def ClientSettings.describe {κ : Type} (settings : ClientSettings κ) : String :=
  describeFields "TlsClientBuilder" [
    ("identity", describeIdentity ((settings.credentials.map (·.1)).getD [])),
    ("cipher_suites", describeList (settings.suites.map (·.name))),
    ("version", settings.version.name),
    ("max_fragment_length", match settings.maxFragmentLength with
      | none => "None"
      | some length => "Some(" ++ length.describe ++ ")"),
    ("encrypt_then_mac", toString settings.encryptThenMac),
    ("truncated_hmac", toString settings.truncatedHmac),
    ("crypt_limit", toString (effectiveCiphertextLimit settings.ciphertextSetting))]

def ServerSettings.describe {κ : Type} (settings : ServerSettings κ) : String :=
  describeFields "TlsServerBuilder" [
    ("psks", describeList (settings.keys.identities.map describeIdentity)),
    ("identity_hint", describeIdentity settings.identityHint),
    ("cipher_suites", describeList (settings.suites.map (·.name))),
    ("min_version", settings.minimumVersion.name),
    ("max_version", settings.maximumVersion.name),
    ("supported_extensions", describeList (settings.extensions.map fun type => toString type.code.toNat)),
    ("crypt_limit", toString (effectiveCiphertextLimit settings.ciphertextSetting))]

end PresharedTls
