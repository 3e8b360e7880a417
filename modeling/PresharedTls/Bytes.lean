/-!
# Bytes

Byte strings are lists: the statements about messages take them apart from the front. This module
holds the number encodings and the cuts that every wire format shares.
-/

namespace PresharedTls

abbrev Bytes := List UInt8

/-- The low `width` bytes of `n`, most significant first. -/
def bigEndian : (width : Nat) → (n : Nat) → Bytes
  | 0, _ => []
  | width + 1, n => bigEndian width (n / 256) ++ [UInt8.ofNat n]

/-- The number that `b` spells, most significant byte first. -/
def ofBigEndian (b : Bytes) : Nat :=
  b.foldl (fun n byte => n * 256 + byte.toNat) 0

/-- The low `width` bytes of `n`, least significant first. -/
def littleEndian (width n : Nat) : Bytes :=
  (bigEndian width n).reverse

@[simp] theorem length_bigEndian (width n : Nat) : (bigEndian width n).length = width := by
  induction width generalizing n with
  | zero => rfl
  | succ width ih => simp [bigEndian, ih]

@[simp] theorem length_littleEndian (width n : Nat) : (littleEndian width n).length = width := by
  simp [littleEndian]

theorem ofBigEndian_concat (b : Bytes) (byte : UInt8) :
    ofBigEndian (b ++ [byte]) = ofBigEndian b * 256 + byte.toNat := by
  simp [ofBigEndian]

/-- Reading back what was written gives the number, reduced to the width. -/
theorem ofBigEndian_bigEndian (width n : Nat) : ofBigEndian (bigEndian width n) = n % 1 <<< (8 * width) := by
  induction width generalizing n with
  | zero => simp [bigEndian, ofBigEndian, Nat.mod_one]
  | succ width ih =>
    have low : (UInt8.ofNat n).toNat = n % 256 := by simp
    have wider : 1 <<< (8 * (width + 1)) = 256 * 1 <<< (8 * width) := by
      rw [Nat.mul_succ, Nat.add_comm, Nat.shiftLeft_add, Nat.shiftLeft_eq, Nat.shiftLeft_eq, Nat.shiftLeft_eq,
        Nat.one_mul, Nat.one_mul]
    rw [bigEndian, ofBigEndian_concat, ih, low, wider, Nat.mod_mul]
    omega

/-- Bytewise exclusive or, as long as the shorter argument. -/
def xorBytes (a b : Bytes) : Bytes :=
  List.zipWith (· ^^^ ·) a b

@[simp] theorem length_xorBytes (a b : Bytes) : (xorBytes a b).length = min a.length b.length := by
  simp [xorBytes]

/-- Consecutive pieces of `size` elements, the last one shorter where the list ends early. -/
def pieces {α : Type} (size : Nat) : List α → List (List α)
  | [] => []
  | x :: xs => (x :: xs.take (size - 1)) :: pieces size (xs.drop (size - 1))
termination_by l => l.length
decreasing_by simp only [List.length_drop, List.length_cons]; omega

structure FixedBytes (n : Nat) where
  bytes : Bytes
  length_bytes : bytes.length = n
  deriving DecidableEq

end PresharedTls
