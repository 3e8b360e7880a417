import PresharedTls.Bytes

/-!
# Reading wire structures

A reader takes a value off the front of a byte string and leaves the rest. There is one way to fail,
a malformed message, so `Option` says it all. Readers are sequenced in the order of the structure
they read.
-/

namespace PresharedTls

abbrev Reader := StateT Bytes Option

namespace Reader

def take (n : Nat) : Reader Bytes := fun b =>
  if n ≤ b.length then some (b.take n, b.drop n) else none

def uint8 : Reader UInt8
  | [] => none
  | byte :: rest => some (byte, rest)

def uint16 : Reader UInt16
  | high :: low :: rest => some (UInt16.ofNat (ofBigEndian [high, low]), rest)
  | _ => none

/-- The next `n` bytes, with their number in the type. -/
def fixed (n : Nat) : Reader (FixedBytes n) := fun b =>
  if h : n ≤ b.length then some (⟨b.take n, List.length_take_of_le h⟩, b.drop n) else none

/-- Bytes behind a one-byte length, which is from `minimum` to `maximum`. -/
def vector8 (minimum maximum : Nat) : Reader Bytes := do
  let length ← uint8
  guard (minimum ≤ length.toNat ∧ length.toNat ≤ maximum)
  take length.toNat

/-- Bytes behind a two-byte length, which is at least `minimum` and a multiple of `multiple`. -/
def vector16 (minimum multiple : Nat) : Reader Bytes := do
  let length ← uint16
  guard (minimum ≤ length.toNat ∧ length.toNat % multiple = 0)
  take length.toNat

def done : Reader Unit := fun b =>
  if b.isEmpty then some ((), b) else none

/-- The value of a reader that has to use up all of `b`. -/
def readAll? {α : Type} (reader : Reader α) (b : Bytes) : Option α := do
  let (value, _) ← (do let value ← reader; done; return value : Reader α) b
  return value

end Reader

/-- The byte string as one of fixed length, if it has that length. -/
def FixedBytes.ofBytes? (n : Nat) (b : Bytes) : Option (FixedBytes n) :=
  if h : b.length = n then some ⟨b, h⟩ else none

end PresharedTls
