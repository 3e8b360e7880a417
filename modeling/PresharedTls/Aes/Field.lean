import PresharedTls.Bytes

/-!
# The field of AES

Bytes are polynomials over the field of two elements, modulo `x^8 + x^4 + x^3 + x + 1`. The
substitution box is inversion in this field followed by an affine map; both directions are tabulated
once.
-/

namespace PresharedTls.Aes

/-- Multiplication by `x`. -/
def double (b : UInt8) : UInt8 :=
  if b &&& 0x80 = 0 then b <<< 1 else (b <<< 1) ^^^ 0x1b

/-- The product of `a` and the low `bits` bits of `b`. -/
def mulBits (a b : UInt8) : (bits : Nat) → UInt8
  | 0 => 0
  | bits + 1 => (if b &&& 1 = 0 then 0 else a) ^^^ mulBits (double a) (b >>> 1) bits

def mul (a b : UInt8) : UInt8 :=
  mulBits a b 8

/-- The inverse of a byte, zero for zero: its power to 254, which is 2 + 4 + 8 + … + 128. -/
def inverse (b : UInt8) : UInt8 :=
  go (mul b b) 6
where
  /-- The product of `square`, its square and so on, one factor more than `more`. -/
  go (square : UInt8) : (more : Nat) → UInt8
    | 0 => square
    | more + 1 => mul square (go (mul square square) more)

def rotateLeft (b n : UInt8) : UInt8 :=
  b <<< n ||| b >>> (8 - n)

/-- The affine half of the substitution box. -/
def affine (b : UInt8) : UInt8 :=
  b ^^^ rotateLeft b 1 ^^^ rotateLeft b 2 ^^^ rotateLeft b 3 ^^^ rotateLeft b 4 ^^^ 0x63

def unaffine (b : UInt8) : UInt8 :=
  rotateLeft b 1 ^^^ rotateLeft b 3 ^^^ rotateLeft b 6 ^^^ 0x05

def substitutionTable : Vector UInt8 256 :=
  Vector.ofFn fun i => affine (inverse (UInt8.ofFin i))

def inverseTable : Vector UInt8 256 :=
  Vector.ofFn fun i => inverse (unaffine (UInt8.ofFin i))

def substitute (b : UInt8) : UInt8 :=
  substitutionTable.get b.toFin

def unsubstitute (b : UInt8) : UInt8 :=
  inverseTable.get b.toFin

end PresharedTls.Aes
