import PresharedTls.Bytes

/-!
# Message padding of the hash functions

A hash function extends a message to a whole number of blocks by a set bit, zeros and the message's
length in bits, and then takes in one block after the other.
-/

namespace PresharedTls

/-- The padded message in blocks of `size` bytes; `length` is the length field that ends it. -/
def messageBlocks (size : Nat) (length message : Bytes) : List Bytes :=
  let used := (message.length + 1 + length.length) % size
  pieces size (message ++ 0x80 :: List.replicate ((size - used) % size) 0 ++ length)

/-- The 32-bit words of a block, most significant byte first. -/
def words32 : Bytes → List UInt32
  | a :: b :: c :: d :: rest =>
    (a.toUInt32 <<< 24 ||| b.toUInt32 <<< 16 ||| c.toUInt32 <<< 8 ||| d.toUInt32) :: words32 rest
  | _ => []

/-- The 32-bit words of a block, least significant byte first. -/
def wordsLittleEndian32 : Bytes → List UInt32
  | a :: b :: c :: d :: rest =>
    (d.toUInt32 <<< 24 ||| c.toUInt32 <<< 16 ||| b.toUInt32 <<< 8 ||| a.toUInt32) :: wordsLittleEndian32 rest
  | _ => []

/-- The 64-bit words of a block, most significant byte first. -/
def words64 (block : Bytes) : List UInt64 :=
  go (words32 block)
where
  go : List UInt32 → List UInt64
    | high :: low :: rest => (high.toUInt64 <<< 32 ||| low.toUInt64) :: go rest
    | _ => []

end PresharedTls
