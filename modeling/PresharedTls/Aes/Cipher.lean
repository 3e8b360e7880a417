import PresharedTls.Block
import PresharedTls.Aes.Field

/-!
# AES

The cipher adds a round key, and then in each round substitutes bytes, shifts rows, mixes columns
and adds the next round key; the last round does not mix. Decryption undoes these steps in reverse.
-/

namespace PresharedTls.Aes

/-! ### Steps of a round -/

def shiftRows (s : Block) : Block :=
  ⟨⟨s.w0.b0, s.w1.b1, s.w2.b2, s.w3.b3⟩, ⟨s.w1.b0, s.w2.b1, s.w3.b2, s.w0.b3⟩,
    ⟨s.w2.b0, s.w3.b1, s.w0.b2, s.w1.b3⟩, ⟨s.w3.b0, s.w0.b1, s.w1.b2, s.w2.b3⟩⟩

def unshiftRows (s : Block) : Block :=
  ⟨⟨s.w0.b0, s.w3.b1, s.w2.b2, s.w1.b3⟩, ⟨s.w1.b0, s.w0.b1, s.w3.b2, s.w2.b3⟩,
    ⟨s.w2.b0, s.w1.b1, s.w0.b2, s.w3.b3⟩, ⟨s.w3.b0, s.w2.b1, s.w1.b2, s.w0.b3⟩⟩

def triple (b : UInt8) : UInt8 :=
  double b ^^^ b

def mixColumn (w : Word) : Word :=
  ⟨double w.b0 ^^^ triple w.b1 ^^^ w.b2 ^^^ w.b3, w.b0 ^^^ double w.b1 ^^^ triple w.b2 ^^^ w.b3,
    w.b0 ^^^ w.b1 ^^^ double w.b2 ^^^ triple w.b3, triple w.b0 ^^^ w.b1 ^^^ w.b2 ^^^ double w.b3⟩

/-- Mixing a column after adding the fourfold of every second byte undoes a mixing. -/
def unmixColumn (w : Word) : Word :=
  let even := double (double (w.b0 ^^^ w.b2))
  let odd := double (double (w.b1 ^^^ w.b3))
  mixColumn ⟨w.b0 ^^^ even, w.b1 ^^^ odd, w.b2 ^^^ even, w.b3 ^^^ odd⟩

def mixColumns (s : Block) : Block :=
  ⟨mixColumn s.w0, mixColumn s.w1, mixColumn s.w2, mixColumn s.w3⟩

def unmixColumns (s : Block) : Block :=
  ⟨unmixColumn s.w0, unmixColumn s.w1, unmixColumn s.w2, unmixColumn s.w3⟩

/-! ### Keys -/

/-- The key added before the first round, those of the rounds that mix, and that of the last one. -/
structure KeySchedule where
  first : Block
  inner : List Block
  last : Block

def rotateWord (w : Word) : Word :=
  ⟨w.b1, w.b2, w.b3, w.b0⟩

/-- One more word of the expansion of a key of `keyWords` words. -/
def extendKey (keyWords : Nat) (expanded : Array Word) : Array Word :=
  let i := expanded.size
  let previous := expanded.getD (i - 1) .zero
  let next :=
    if i % keyWords = 0 then
      ((rotateWord previous).map substitute).xor ⟨Nat.repeat double (i / keyWords - 1) 1, 0, 0, 0⟩
    else if 6 < keyWords ∧ i % keyWords = 4 then previous.map substitute
    else previous
  expanded.push ((expanded.getD (i - keyWords) .zero).xor next)

/-- The round keys for a key of 16 or 32 bytes: six more of them than the key has words, and one. -/
def KeySchedule.ofKey (key : Bytes) : KeySchedule :=
  let words := Block.words key
  let keyWords := words.length
  let expanded := Nat.repeat (extendKey keyWords) (4 * (keyWords + 7) - keyWords) words.toArray
  let keys := Block.ofWords expanded.toList
  ⟨keys.headD .zero, (keys.drop 1).dropLast, keys.getLastD .zero⟩

/-! ### The cipher -/

def innerRound (s key : Block) : Block :=
  (mixColumns (shiftRows (s.map substitute))).xor key

def undoInnerRound (key s : Block) : Block :=
  (unshiftRows (unmixColumns (s.xor key))).map unsubstitute

def encrypt (keys : KeySchedule) (plain : Block) : Block :=
  (shiftRows ((keys.inner.foldl innerRound (plain.xor keys.first)).map substitute)).xor keys.last

def decrypt (keys : KeySchedule) (cipher : Block) : Block :=
  (keys.inner.foldr undoInnerRound ((unshiftRows (cipher.xor keys.last)).map unsubstitute)).xor keys.first

def blockCipher (key : Bytes) : BlockCipher :=
  let keys := KeySchedule.ofKey key
  ⟨encrypt keys, decrypt keys⟩

end PresharedTls.Aes
