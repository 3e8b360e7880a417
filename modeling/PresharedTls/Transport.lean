import PresharedTls.Entropy

/-!
# Transports

A transport carries bytes to the peer and back. It may take fewer bytes than it is offered, deliver
fewer than are wanted, and fail at any call. The far end may be an endpoint in the same process, so
every call is lent the source of random bytes.
-/

namespace PresharedTls

/-- What a call fails with. Besides the kinds that are told apart here a transport may have any others, of type `ε`. -/
inductive TransportFault (ε : Type := Empty) where
  | connectionReset
  | brokenPipe
  | timedOut
  /-- The peer's bytes have come to an end. -/
  | unexpectedEof
  /-- Not one byte was taken. -/
  | writeZero
  | other (error : ε)
  deriving DecidableEq

def TransportFault.message {ε : Type} [ToString ε] : TransportFault ε → String
  | connectionReset => "connection reset"
  | brokenPipe => "broken pipe"
  | timedOut => "timed out"
  | unexpectedEof => "unexpected end of file"
  | writeZero => "failed to write whole buffer"
  | other error => toString error

/-- Where there are no other faults, none has to be described. -/
instance toStringEmpty : ToString Empty where
  toString error := nomatch error

class Transport (τ : Type) (ε : outParam Type) where
  /-- At most `limit` of the bytes that arrived; none of them at the end. -/
  read : (limit : Nat) → τ → Entropy → Except (TransportFault ε) Bytes × τ × Entropy
  /-- Offers bytes and tells how many of them, from the front, were taken. An interrupted write is made again, and is no
  fault. -/
  write : (b : Bytes) → τ → Entropy → Except (TransportFault ε) Nat × τ × Entropy
  /-- Sees to it that the bytes taken so far are on their way. -/
  flush : τ → Entropy → Except (TransportFault ε) Unit × τ × Entropy

end PresharedTls
