import PresharedTls.Bytes

/-!
# Words and blocks

The block ciphers here work on blocks of sixteen bytes, seen as four words of four bytes.
-/

namespace PresharedTls

structure Word where
  b0 : UInt8
  b1 : UInt8
  b2 : UInt8
  b3 : UInt8
  deriving DecidableEq

namespace Word

def zero : Word :=
  ⟨0, 0, 0, 0⟩

def xor (v w : Word) : Word :=
  ⟨v.b0 ^^^ w.b0, v.b1 ^^^ w.b1, v.b2 ^^^ w.b2, v.b3 ^^^ w.b3⟩

def map (f : UInt8 → UInt8) (w : Word) : Word :=
  ⟨f w.b0, f w.b1, f w.b2, f w.b3⟩

def bytes (w : Word) : Bytes :=
  [w.b0, w.b1, w.b2, w.b3]

end Word

structure Block where
  w0 : Word
  w1 : Word
  w2 : Word
  w3 : Word
  deriving DecidableEq

namespace Block

def size : Nat := 16

def zero : Block :=
  ⟨.zero, .zero, .zero, .zero⟩

def xor (a b : Block) : Block :=
  ⟨a.w0.xor b.w0, a.w1.xor b.w1, a.w2.xor b.w2, a.w3.xor b.w3⟩

def map (f : UInt8 → UInt8) (a : Block) : Block :=
  ⟨a.w0.map f, a.w1.map f, a.w2.map f, a.w3.map f⟩

def bytes (a : Block) : Bytes :=
  a.w0.bytes ++ a.w1.bytes ++ a.w2.bytes ++ a.w3.bytes

@[simp] theorem length_bytes (a : Block) : a.bytes.length = size := rfl

/-- The words of a byte string, without what is left over at its end. -/
def words : Bytes → List Word
  | b0 :: b1 :: b2 :: b3 :: rest => ⟨b0, b1, b2, b3⟩ :: words rest
  | _ => []

/-- The blocks of a list of words, without what is left over at its end. -/
def ofWords : List Word → List Block
  | w0 :: w1 :: w2 :: w3 :: rest => ⟨w0, w1, w2, w3⟩ :: ofWords rest
  | _ => []

/-- The blocks of a byte string, without what is left over at its end. -/
def split (b : Bytes) : List Block :=
  ofWords (words b)

def join (blocks : List Block) : Bytes :=
  blocks.flatMap bytes

/-- The first block of a byte string, filled up with zeros where bytes are missing. -/
def ofBytes (b : Bytes) : Block :=
  (split (b ++ List.replicate 16 0)).headD zero

end Block

/-- A permutation of blocks for each key, in both directions. -/
structure BlockCipher where
  encrypt : Block → Block
  decrypt : Block → Block

end PresharedTls
