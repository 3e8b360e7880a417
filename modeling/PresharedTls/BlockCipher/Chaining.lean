import PresharedTls.Block

/-!
# Cipher block chaining

Each block is combined with the ciphertext block before it and then encrypted; the first one is
combined with an initialisation vector.
-/

namespace PresharedTls.Chaining

def encryptBlocks (cipher : BlockCipher) (iv : Block) : List Block → List Block
  | [] => []
  | block :: rest =>
    let encrypted := cipher.encrypt (block.xor iv)
    encrypted :: encryptBlocks cipher encrypted rest

def decryptBlocks (cipher : BlockCipher) (iv : Block) : List Block → List Block
  | [] => []
  | block :: rest => (cipher.decrypt block).xor iv :: decryptBlocks cipher block rest

def encrypt (cipher : BlockCipher) (iv : Block) (plaintext : Bytes) : Bytes :=
  Block.join (encryptBlocks cipher iv (Block.split plaintext))

def decrypt (cipher : BlockCipher) (iv : Block) (ciphertext : Bytes) : Bytes :=
  Block.join (decryptBlocks cipher iv (Block.split ciphertext))

/-- The vector that continues the chain behind `ciphertext`, which is `iv` where there is no block. -/
def nextVector (iv : Block) (ciphertext : Bytes) : Block :=
  (Block.split ciphertext).getLastD iv

end PresharedTls.Chaining
