import PresharedTls.Proofs.Protection.Ranges

/-!
# What is taken for padding

The check runs over all bytes that could be padding, from the last one back, and keeps one bit, which a wrong byte
clears and nothing sets again. How far it runs depends on the length of the data only. In the end the bit says
exactly whether the data ends in as many equal bytes as the last one asks for, and whether what is needed in all is
there; what a sender adds is such an end. The sum of the two lengths is one of machine words. It wraps around where it is
too long for one, or is an error there where sums are checked.
-/

namespace PresharedTls

namespace Ranged

/-- The bit behind one more byte, which has `i` bytes between it and the end. One of the last `count` that differs
from `last` clears it. -/
def step (last : UInt8) (count i : Nat) (right : Bool) (byte : UInt8) : Bool :=
  right && (!decide (i < count) || decide (byte = last))

/-- The bit behind all of `scanned`, in which the byte that is nearest to the end comes first. -/
def scan (last : UInt8) (count i : Nat) (right : Bool) : (scanned : Bytes) → Bool
  | [] => right
  | byte :: rest => scan last count (i + 1) (step last count i right byte) rest

variable {last : UInt8} {count i : Nat} {right : Bool}

theorem step_eq_true {byte : UInt8} :
    step last count i right byte = true ↔ right = true ∧ (i < count → byte = last) := by
  rw [step, Bool.and_eq_true, Bool.or_eq_true, Bool.not_eq_true', decide_eq_false_iff_not, decide_eq_true_eq,
    ← Decidable.imp_iff_not_or]

/-- From any place on, the bit stays where no byte of the padding that is still to come is wrong. -/
theorem scan_eq_true {scanned : Bytes} :
    scan last count i right scanned = true ↔ right = true ∧ ∀ byte ∈ scanned.take (count - i), byte = last := by
  induction scanned generalizing i right with
  | nil => simp [scan]
  | cons byte rest ih =>
    rw [scan, ih, step_eq_true]
    by_cases hinside : i < count
    · obtain ⟨more, hmore⟩ : ∃ more, count - i = more + 1 := ⟨count - i - 1, by omega⟩
      have hnext : count - (i + 1) = more := by omega
      simp [hinside, hmore, hnext, and_assoc]
    · have hbehind : count - i = 0 := by omega
      have hnext : count - (i + 1) = 0 := by omega
      simp [hinside, hbehind, hnext]

end Ranged

namespace Padding

/-- The answer of the check, and the length of what it found, which is nothing where it refuses. -/
def verdict (data : Bytes) (reserved : UInt64) : Bool × Nat :=
  ((check data reserved).isSome, (check data reserved).getD 0)

/-- What is needed in all, as machine words add it up. -/
def needed (count : Nat) (reserved : UInt64) : Nat :=
  (UInt64.ofNat count + reserved).toNat

variable {data : Bytes} {reserved : UInt64} {count : Nat}

/-- A whole block of padding is accepted where nothing has to be in front of it. -/
example : verdict (List.replicate 16 15) 0 = (true, 16) ∧ verdict (List.replicate 16 15) 1 = (false, 0) := by decide

end Padding

end PresharedTls
