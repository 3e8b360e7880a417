import PresharedTls.Alert
import PresharedTls.Reader

/-!
# Key exchange and Finished

The body of a key exchange message is an identity (from a client) or a hint at one (from a server),
behind two bytes of length. The body of Finished is the verify data alone.
-/

namespace PresharedTls

namespace KeyIdentity

/-- The identity that a key exchange body holds. -/
def ofBody? (b : Bytes) : Option Bytes :=
  (Reader.vector16 0 1).readAll? b

/-- The key exchange body for an identity, which has to fit the two bytes of the length. -/
def body (identity : Bytes) : Except AlertDescription Bytes :=
  if identity.length < 65536 then .ok (bigEndian 2 identity.length ++ identity) else .error .internalError

end KeyIdentity

/-- What a Finished message carries, twelve bytes for every suite. -/
abbrev VerifyData := FixedBytes 12

end PresharedTls
