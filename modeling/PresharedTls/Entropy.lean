import PresharedTls.Bytes

/-!
# Random bytes

A source of random bytes is a sequence that says which byte comes next, at whatever position, and
how many were drawn already. Nothing is assumed of the sequence, so what holds for every source
holds for whatever a system's generator delivers.
-/

namespace PresharedTls

structure Entropy where
  sequence : Nat → UInt8
  drawn : Nat

namespace Entropy

/-- The next `n` bytes and the source behind them. -/
def draw (n : Nat) (entropy : Entropy) : FixedBytes n × Entropy :=
  (⟨(List.range n).map fun i => entropy.sequence (entropy.drawn + i), by simp⟩,
    { entropy with drawn := entropy.drawn + n })

/-! ### A reproducible source -/

/-- An affine map on 64-bit words, `x ↦ factor * x + summand`. -/
structure AffineMap where
  factor : UInt64
  summand : UInt64

namespace AffineMap

def apply (f : AffineMap) (x : UInt64) : UInt64 :=
  f.factor * x + f.summand

def comp (f g : AffineMap) : AffineMap :=
  ⟨f.factor * g.factor, f.factor * g.summand + f.summand⟩

def iterate (f : AffineMap) (n : Nat) : AffineMap :=
  if n = 0 then ⟨1, 0⟩
  else
    let half := iterate (comp f f) (n / 2)
    if n % 2 = 1 then comp half f else half

end AffineMap

/-- The step of the linear congruential generator behind `ofSeed`. -/
def congruentialStep : AffineMap :=
  ⟨6364136223846793005, 1442695040888963407⟩

/-- The source that takes the top byte of each state of a linear congruential generator, for runs
that have to be repeated. -/
def ofSeed (seed : UInt64) : Entropy :=
  ⟨fun i => (((congruentialStep.iterate (i + 1)).apply seed) >>> 56).toUInt8, 0⟩

end Entropy

end PresharedTls
