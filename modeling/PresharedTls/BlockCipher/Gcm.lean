import PresharedTls.Block

/-!
# Galois/counter mode

Authenticated encryption: the plaintext is combined with a key stream of encrypted counters, and a
tag over the ciphertext and the additional data is computed in a field of 2^128 elements.
-/

namespace PresharedTls.Gcm

def tagSize : Nat := 16

/-- The most plaintext that one nonce can serve. -/
def maximumPlaintext : Nat := 68719476736

/-! ### The authenticating field -/

/-- An element of the field of 2^128 elements, coefficients from the highest bit of `high` on. -/
structure Element where
  high : UInt64
  low : UInt64

namespace Element

def zero : Element :=
  ⟨0, 0⟩

def xor (a b : Element) : Element :=
  ⟨a.high ^^^ b.high, a.low ^^^ b.low⟩

def word64 (v w : Word) : UInt64 :=
  (v.bytes ++ w.bytes).foldl (fun n byte => n <<< 8 ||| byte.toUInt64) 0

def ofBlock (block : Block) : Element :=
  ⟨word64 block.w0 block.w1, word64 block.w2 block.w3⟩

def bytes (a : Element) : Bytes :=
  bigEndian 8 a.high.toNat ++ bigEndian 8 a.low.toNat

def shift (a : Element) : Element :=
  let low := a.low >>> 1 ||| a.high <<< 63
  if a.low &&& 1 = 0 then ⟨a.high >>> 1, low⟩ else ⟨a.high >>> 1 ^^^ 0xe100000000000000, low⟩

/-- Adds the products of `factor` with the top `bits` coefficients of `word`, one after the other,
and gives the sum and the shifted factor. -/
def mulWord (word : UInt64) : (bits : Nat) → (sum factor : Element) → Element × Element
  | 0, sum, factor => (sum, factor)
  | bits + 1, sum, factor =>
    mulWord (word <<< 1) bits (if word &&& 0x8000000000000000 = 0 then sum else sum.xor factor) factor.shift

def mul (a b : Element) : Element :=
  let (sum, factor) := mulWord a.high 64 zero b
  (mulWord a.low 64 sum factor).1

end Element

/-- The blocks of a byte string, the last one filled up with zeros. -/
def paddedBlocks (b : Bytes) : List Block :=
  Block.split (b ++ List.replicate ((16 - b.length % 16) % 16) 0)

/-- The authenticating hash of additional data and ciphertext under the key element `key`. -/
def hash (key : Element) (additional ciphertext : Bytes) : Bytes :=
  let lengths := bigEndian 8 (8 * additional.length) ++ bigEndian 8 (8 * ciphertext.length)
  let blocks := paddedBlocks additional ++ paddedBlocks ciphertext ++ Block.split lengths
  (blocks.foldl (fun sum block => (sum.xor (.ofBlock block)).mul key) Element.zero).bytes

/-! ### Counters -/

def counter (nonce : Bytes) (n : Nat) : Block :=
  Block.ofBytes (nonce ++ bigEndian 4 n)

/-- The first `n` or more bytes of the key stream for the text. -/
def keyStream (cipher : BlockCipher) (nonce : Bytes) (n : Nat) : Bytes :=
  (List.range ((n + 15) / 16)).flatMap fun i => (cipher.encrypt (counter nonce (i + 2))).bytes

/-- Combines a text with the key stream; doing it twice gives the text back. -/
def applyKeyStream (cipher : BlockCipher) (nonce text : Bytes) : Bytes :=
  xorBytes text (keyStream cipher nonce text.length)

def tag (cipher : BlockCipher) (nonce additional ciphertext : Bytes) : Bytes :=
  let key := Element.ofBlock (cipher.encrypt .zero)
  xorBytes (hash key additional ciphertext) (cipher.encrypt (counter nonce 1)).bytes

/-! ### Encryption and decryption -/

/-- Ciphertext and tag, unless the plaintext is too long for one nonce. -/
def encrypt (cipher : BlockCipher) (nonce additional plaintext : Bytes) : Option Bytes :=
  if maximumPlaintext < plaintext.length then none
  else
    let ciphertext := applyKeyStream cipher nonce plaintext
    some (ciphertext ++ tag cipher nonce additional ciphertext)

/-- The plaintext under a ciphertext and its tag, if the tag is right. -/
def decrypt (cipher : BlockCipher) (nonce additional input : Bytes) : Option Bytes :=
  let ciphertext := input.take (input.length - tagSize)
  if input.length < tagSize ∨ maximumPlaintext + tagSize < ciphertext.length then none
  else if tag cipher nonce additional ciphertext = input.drop (input.length - tagSize) then
    some (applyKeyStream cipher nonce ciphertext)
  else none

end PresharedTls.Gcm
