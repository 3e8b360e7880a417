import PresharedTls.Hash.Message

/-!
# SHA-1

Eighty rounds over five 32-bit words for each block of 64 bytes.
-/

namespace PresharedTls.Sha1

structure State where
  a : UInt32
  b : UInt32
  c : UInt32
  d : UInt32
  e : UInt32

def initial : State :=
  ⟨0x67452301, 0xefcdab89, 0x98badcfe, 0x10325476, 0xc3d2e1f0⟩

def rotateLeft (x : UInt32) (n : UInt32) : UInt32 :=
  x <<< n ||| x >>> (32 - n)

/-- One more word of the message schedule. -/
def extend (schedule : Array UInt32) : Array UInt32 :=
  let t := schedule.size
  schedule.push (rotateLeft (schedule.getD (t - 3) 0 ^^^ schedule.getD (t - 8) 0 ^^^
    schedule.getD (t - 14) 0 ^^^ schedule.getD (t - 16) 0) 1)

/-- The mixing function and the constant of round `t`. -/
def mixing (t : Nat) (b c d : UInt32) : UInt32 × UInt32 :=
  if t < 20 then ((b &&& c) ||| (~~~b &&& d), 0x5a827999)
  else if t < 40 then (b ^^^ c ^^^ d, 0x6ed9eba1)
  else if t < 60 then ((b &&& c) ||| (b &&& d) ||| (c &&& d), 0x8f1bbcdc)
  else (b ^^^ c ^^^ d, 0xca62c1d6)

/-- Round `t` with its schedule word. -/
def round (s : State) (t : Nat) (word : UInt32) : State :=
  let (mixed, constant) := mixing t s.b s.c s.d
  ⟨rotateLeft s.a 5 + mixed + s.e + constant + word, s.a, rotateLeft s.b 30, s.c, s.d⟩

def compress (s : State) (block : Bytes) : State :=
  let schedule := Nat.repeat extend 64 (words32 block).toArray
  let r := schedule.zipIdx.foldl (fun s (word, t) => round s t word) s
  ⟨s.a + r.a, s.b + r.b, s.c + r.c, s.d + r.d, s.e + r.e⟩

def State.bytes (s : State) : Bytes :=
  [s.a, s.b, s.c, s.d, s.e].flatMap fun word => bigEndian 4 word.toNat

def digest (message : Bytes) : Bytes :=
  ((messageBlocks 64 (bigEndian 8 (8 * message.length)) message).foldl compress initial).bytes

@[simp] theorem length_digest (message : Bytes) : (digest message).length = 20 := by
  simp [digest, State.bytes]

end PresharedTls.Sha1
