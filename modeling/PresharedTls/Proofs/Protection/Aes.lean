import PresharedTls.Aes.Cipher

/-!
# AES is undone by its inverse

Every step of a round is undone by its counterpart. Only two of them ask for an argument. The
substitution box is checked byte by byte. Mixing a column is linear, and doing it twice adds the
fourfold of every second byte, so doing it four times changes nothing.
-/

namespace PresharedTls

theorem Word.xor_xor_cancel (v w : Word) : (v.xor w).xor w = v := by
  simp only [Word.xor, UInt8.xor_assoc, UInt8.xor_self, UInt8.xor_zero]

theorem Block.xor_xor_cancel (a b : Block) : (a.xor b).xor b = a := by
  simp [Block.xor, Word.xor_xor_cancel]

namespace Aes

/-! ### The substitution box -/

/-! The field once more on numbers, which are quicker to compute with when all bytes are checked. -/

def doubleNat (n : Nat) : Nat :=
  if n < 128 then 2 * n else (2 * n - 256) ^^^ 27

def mulNat (a b : Nat) : (bits : Nat) → Nat
  | 0 => 0
  | bits + 1 => (b % 2 * a) ^^^ mulNat (doubleNat a) (b / 2) bits

def inverseNat (b : Nat) : Nat :=
  go (mulNat b b 8) 6
where
  go (square : Nat) : (more : Nat) → Nat
    | 0 => square
    | more + 1 => mulNat square (go (mulNat square square 8) more) 8

theorem toNat_double (b : UInt8) : (double b).toNat = doubleNat b.toNat := by
  have hall : ∀ i : Fin 256, (double (UInt8.ofFin i)).toNat = doubleNat (UInt8.ofFin i).toNat := by decide +kernel
  exact hall b.toFin

theorem toNat_mulBits (a b : UInt8) (bits : Nat) : (mulBits a b bits).toNat = mulNat a.toNat b.toNat bits := by
  induction bits generalizing a b with
  | zero => rfl
  | succ bits ih =>
    have hlow : (if b &&& 1 = 0 then 0 else a).toNat = b.toNat % 2 * a.toNat := by
      have hbit : (b &&& 1).toNat = b.toNat % 2 := by simp
      split
      · next hzero =>
        rw [hzero] at hbit
        rw [← hbit]
        simp
      · next hone =>
        have hne : b.toNat % 2 ≠ 0 := fun hzero => hone (UInt8.toNat_inj.mp (hbit.trans hzero))
        rw [show b.toNat % 2 = 1 by omega, Nat.one_mul]
    have hshift : (b >>> 1).toNat = b.toNat / 2 := by simp [Nat.shiftRight_eq_div_pow]
    rw [mulBits, UInt8.toNat_xor, hlow, ih, toNat_double, hshift]
    rfl

theorem toNat_inverse (b : UInt8) : (inverse b).toNat = inverseNat b.toNat := by
  have hgo (square : UInt8) (more : Nat) : (inverse.go square more).toNat = inverseNat.go square.toNat more := by
    induction more generalizing square with
    | zero => rfl
    | succ more ih => rw [inverse.go, mul, toNat_mulBits, ih, mul, toNat_mulBits, inverseNat.go]
  rw [inverse, hgo, mul, toNat_mulBits, inverseNat]

theorem inverse_inverse (b : UInt8) : inverse (inverse b) = b := by
  have hall : ∀ i : Fin 256, inverseNat (inverseNat i.val) = i.val := by decide +kernel
  apply UInt8.toNat_inj.mp
  rw [toNat_inverse, toNat_inverse]
  exact hall b.toFin

theorem unaffine_affine (b : UInt8) : unaffine (affine b) = b := by
  have hall : ∀ i : Fin 256, unaffine (affine (UInt8.ofFin i)) = UInt8.ofFin i := by decide +kernel
  exact hall b.toFin

theorem substitute_eq (b : UInt8) : substitute b = affine (inverse b) := by
  have hentry : substitutionTable[b.toFin.val] = affine (inverse (UInt8.ofFin b.toFin)) := Vector.getElem_ofFn _
  exact hentry

theorem unsubstitute_eq (b : UInt8) : unsubstitute b = inverse (unaffine b) := by
  have hentry : inverseTable[b.toFin.val] = inverse (unaffine (UInt8.ofFin b.toFin)) := Vector.getElem_ofFn _
  exact hentry

theorem unsubstitute_substitute (b : UInt8) : unsubstitute (substitute b) = b := by
  rw [substitute_eq, unsubstitute_eq, unaffine_affine, inverse_inverse]

theorem map_unsubstitute (s : Block) : (s.map substitute).map unsubstitute = s := by
  simp [Block.map, Word.map, unsubstitute_substitute]

/-! ### Rows and columns -/

theorem unshiftRows_shiftRows (s : Block) : unshiftRows (shiftRows s) = s := rfl

theorem double_eq (b : UInt8) : double b = b <<< 1 ^^^ (if b &&& 0x80 = 0 then 0 else 0x1b) := by
  rw [double]
  split <;> simp

theorem high_cases (b : UInt8) : b &&& 0x80 = 0 ∨ b &&& 0x80 = 0x80 := by
  have hall : ∀ i : Fin 256, UInt8.ofFin i &&& 0x80 = 0 ∨ UInt8.ofFin i &&& 0x80 = 0x80 := by decide +kernel
  exact hall b.toFin

theorem xor_left_comm (a b c : UInt8) : a ^^^ (b ^^^ c) = b ^^^ (a ^^^ c) := by
  rw [← UInt8.xor_assoc, UInt8.xor_comm a b, UInt8.xor_assoc]

theorem xor_left_cancel (a b : UInt8) : a ^^^ (a ^^^ b) = b := by
  rw [← UInt8.xor_assoc, UInt8.xor_self, UInt8.zero_xor]

theorem double_xor (a b : UInt8) : double (a ^^^ b) = double a ^^^ double b := by
  have hhigh : (a ^^^ b) &&& 0x80 = (a &&& 0x80) ^^^ (b &&& 0x80) := by
    apply UInt8.toNat_inj.mp
    rw [UInt8.toNat_and, UInt8.toNat_xor, UInt8.toNat_xor, UInt8.toNat_and, UInt8.toNat_and,
      Nat.and_xor_distrib_right]
  rw [double_eq, double_eq, double_eq, UInt8.shiftLeft_xor, hhigh]
  rcases high_cases a with ha | ha <;> rcases high_cases b with hb | hb
  · simp [ha, hb]
  · simp [ha, hb, UInt8.xor_assoc]
  · simp [ha, hb, UInt8.xor_assoc, UInt8.xor_comm 27]
  · simp [ha, hb, UInt8.xor_assoc, xor_left_comm 27]

/-- A column with the fourfold of every second byte added. -/
def addFourfold (w : Word) : Word :=
  let even := double (double (w.b0 ^^^ w.b2))
  let odd := double (double (w.b1 ^^^ w.b3))
  ⟨w.b0 ^^^ even, w.b1 ^^^ odd, w.b2 ^^^ even, w.b3 ^^^ odd⟩

theorem mixColumn_mixColumn (w : Word) : mixColumn (mixColumn w) = addFourfold w := by
  simp only [mixColumn, addFourfold, triple, double_xor, Word.mk.injEq]
  refine ⟨?_, ?_, ?_, ?_⟩
  all_goals
    simp only [UInt8.xor_assoc, UInt8.xor_comm, xor_left_comm, xor_left_cancel, UInt8.xor_self, UInt8.zero_xor]

theorem addFourfold_addFourfold (w : Word) : addFourfold (addFourfold w) = w := by
  simp only [addFourfold, double_xor, UInt8.xor_comm, xor_left_comm, UInt8.xor_self, UInt8.xor_zero]

theorem unmixColumn_mixColumn (w : Word) : unmixColumn (mixColumn w) = w := by
  have hunmix : unmixColumn (mixColumn w) = mixColumn (addFourfold (mixColumn w)) := rfl
  rw [hunmix, ← mixColumn_mixColumn, mixColumn_mixColumn w, mixColumn_mixColumn, addFourfold_addFourfold]

theorem unmixColumns_mixColumns (s : Block) : unmixColumns (mixColumns s) = s := by
  simp [unmixColumns, mixColumns, unmixColumn_mixColumn]

/-! ### Rounds -/

theorem undoInnerRound_innerRound (s key : Block) : undoInnerRound key (innerRound s key) = s := by
  rw [undoInnerRound, innerRound, Block.xor_xor_cancel, unmixColumns_mixColumns, unshiftRows_shiftRows,
    map_unsubstitute]

theorem foldr_undoInnerRound (keys : List Block) (s : Block) :
    keys.foldr undoInnerRound (keys.foldl innerRound s) = s := by
  induction keys generalizing s with
  | nil => rfl
  | cons key rest ih => rw [List.foldl_cons, List.foldr_cons, ih, undoInnerRound_innerRound]

/-- Decryption undoes encryption under every key schedule. -/
theorem decrypt_encrypt (keys : KeySchedule) (plain : Block) : decrypt keys (encrypt keys plain) = plain := by
  rw [decrypt, encrypt, Block.xor_xor_cancel, unshiftRows_shiftRows, map_unsubstitute, foldr_undoInnerRound,
    Block.xor_xor_cancel]

end Aes

end PresharedTls
