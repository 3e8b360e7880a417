import PresharedTls.Block

/-!
# Block padding

Padding fills the last block with bytes that each hold the number of padding bytes less one. A
sender pads as little as possible; up to 256 bytes are accepted.
-/

namespace PresharedTls.Padding

/-- The data with its last block filled up, by one byte at least. -/
def add (data : Bytes) : Bytes :=
  let more := Block.size - 1 - data.length % Block.size
  data ++ List.replicate (more + 1) (UInt8.ofNat more)

/-- The number of padding bytes at the end of `data`, if they are all right and leave `reserved`
bytes in front of them. Every byte that could be padding is looked at, wherever the padding ends.
What is needed in all is added up in a machine word, so a sum that does not fit one wraps around. -/
def check (data : Bytes) (reserved : UInt64) : Option Nat :=
  match data.getLast? with
  | none => none
  | some last =>
    let length := last.toNat + 1
    let needed := UInt64.ofNat length + reserved
    let scanned := (data.reverse.take 256).zipIdx.all fun (byte, i) => length ≤ i || byte = last
    if needed.toNat ≤ data.length && scanned then some length else none

end PresharedTls.Padding
