import PresharedTls.Protection

/-!
# Providers of record protection

A session does not know how records are guarded. It is handed a provider, which makes contexts of a
type `κ` of its own choosing and works on them. Every operation may refuse with an alert, so that
keys can live where this library cannot look.
-/

namespace PresharedTls

structure Provider (κ : Type) where
  /-- The context for what `sender` sends, on the side of the sender. -/
  createEncoder : (params : SecurityParameters) → (sender : Role) → Except AlertDescription κ
  /-- The context for what `sender` sends, on the side of its peer. -/
  createDecoder : (params : SecurityParameters) → (sender : Role) → Except AlertDescription κ
  protect : κ → (typeCode : UInt8) → (version : UInt16) → (plaintext : Bytes) → Entropy →
    Except AlertDescription Bytes × κ × Entropy
  unprotect : κ → (typeCode : UInt8) → (version : UInt16) → (fragment : Bytes) →
    Except AlertDescription Bytes × κ
  /-- What `sender` has to put into its Finished after the handshake messages of `transcript`. -/
  verifyData : κ → (sender : Role) → (transcript : Bytes) → Except AlertDescription VerifyData

namespace Provider

def standard : Provider Protection where
  createEncoder := Protection.create
  createDecoder := Protection.create
  protect := Protection.protect
  unprotect := Protection.unprotect
  verifyData context sender transcript := .ok (context.verifyData sender transcript)

end Provider

end PresharedTls
