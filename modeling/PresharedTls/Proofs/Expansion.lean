import PresharedTls.Proofs.Protection.Ranges

/-!
# Output of the pseudorandom functions

A buffer of any length is filled in place, one digest at a time and with a part of the last one. What
is in it then is the front of the stream that the links of the chain give, whatever was in it before.
As with the fragments of records, every cut and every copy has to be in range here, and all of them are.
-/

namespace PresharedTls

namespace Ranged

/-- Copies `source` over `target`, which has to have the same length. -/
def overwrite (target source : Bytes) : Option Bytes :=
  if target.length = source.length then some source else none

/-- Writes a digest over each part of a buffer, the first from the link `a` of the chain. A part that
is shorter takes the front of its digest. -/
def writeParts (hash : HashFunction) (secret seed a : Bytes) : List Bytes → Option Bytes
  | [] => some []
  | part :: rest => do
    let front ← slice (hash.hmac secret (a ++ seed)) 0 part.length
    let written ← overwrite part front
    let others ← writeParts hash secret seed (hash.hmac secret a) rest
    return written ++ others

/-- Fills `out` with the expansion of `seed` under `secret`. A buffer has no parts of length zero. -/
def expandOver (hash : HashFunction) (secret seed out : Bytes) : Option Bytes :=
  let a := hash.hmac secret seed
  if a.length = 0 then none else writeParts hash secret seed a (pieces a.length out)

/-- Combines `out` with `other` as far as that goes, and leaves the rest of `out` as it is. -/
def xorOver (out other : Bytes) : Bytes :=
  xorBytes out other ++ out.drop other.length

/-- Fills `out` with what is derived from a secret, a label and a seed. -/
def deriveOver (prf : Prf) (secret label seed out : Bytes) : Option Bytes :=
  match prf with
  | .md5Sha1 => do
    let half := (secret.length + 1) / 2
    let front ← slice secret 0 half
    let filled ← expandOver .md5 front (label ++ seed) out
    let start ← minus secret.length half
    let behind ← slice secret start secret.length
    let other ← expandOver .sha1 behind (label ++ seed) (List.replicate filled.length 0)
    return xorOver filled other
  | .single hash => expandOver hash.function secret (label ++ seed) out

end Ranged

namespace HashFunction

variable (hash : HashFunction) (secret seed : Bytes)

/-- The chain starts with the seed, and each further link is the HMAC of the one before. -/
def link : Nat → Bytes
  | 0 => seed
  | i + 1 => hash.hmac secret (link i)

/-- The first blocks of the stream: a digest for every link behind the seed, with the seed put behind the link. -/
def stream (count : Nat) : Bytes :=
  (List.range count).flatMap fun i => hash.hmac secret (hash.link secret seed (i + 1) ++ seed)

theorem expandFrom_link (start count : Nat) :
    hash.expandFrom secret seed (hash.link secret seed (start + 1)) count =
      (List.range count).flatMap fun i => hash.hmac secret (hash.link secret seed (start + i + 1) ++ seed) := by
  induction count generalizing start with
  | zero => simp [expandFrom]
  | succ count ih =>
    have hnext : hash.hmac secret (hash.link secret seed (start + 1)) = hash.link secret seed (start + 1 + 1) := rfl
    rw [expandFrom, hnext, ih, List.range_succ_eq_map, List.flatMap_cons, List.flatMap_map]
    simp only [Nat.add_zero, Nat.succ_eq_add_one, Nat.add_assoc, Nat.add_comm 1]

theorem expandFrom_eq_stream (count : Nat) :
    hash.expandFrom secret seed (hash.hmac secret seed) count = hash.stream secret seed count := by
  have hlink := hash.expandFrom_link secret seed 0 count
  simpa [link, stream] using hlink

theorem length_stream (count : Nat) : (hash.stream secret seed count).length = count * hash.digestSize := by
  rw [← expandFrom_eq_stream, length_expandFrom]

theorem stream_prefix {count more : Nat} (h : count ≤ more) :
    hash.stream secret seed count <+: hash.stream secret seed more := by
  obtain ⟨further, rfl⟩ := Nat.exists_eq_add_of_le h
  rw [stream, stream, List.range_add, List.flatMap_append]
  exact List.prefix_append _ _

theorem take_stream {length count more : Nat} (hmore : count ≤ more) (h : length ≤ count * hash.digestSize) :
    (hash.stream secret seed more).take length = (hash.stream secret seed count).take length := by
  obtain ⟨behind, hbehind⟩ := hash.stream_prefix secret seed hmore
  rw [← hbehind, List.take_append_of_le_length]
  rwa [length_stream]

/-- However many blocks of the stream there are, if they are enough the expansion is in front. -/
theorem expand_eq_take_stream {length count : Nat} (h : length ≤ count * hash.digestSize) :
    hash.expand secret seed length = (hash.stream secret seed count).take length := by
  have hpositive := hash.digestSize_pos
  have hleast : (length + hash.digestSize - 1) / hash.digestSize < count + 1 := by
    apply Nat.div_lt_of_lt_mul
    rw [Nat.mul_comm, Nat.succ_mul]
    omega
  have henough : length ≤ (length + hash.digestSize - 1) / hash.digestSize * hash.digestSize := by
    have hsplit := Nat.div_add_mod' (length + hash.digestSize - 1) hash.digestSize
    have hbelow := Nat.mod_lt (length + hash.digestSize - 1) hpositive
    omega
  rw [expand, expandFrom_eq_stream, hash.take_stream secret seed (Nat.le_of_lt_succ hleast) henough]

theorem expand_prefix {length more : Nat} (h : length ≤ more) :
    hash.expand secret seed length <+: hash.expand secret seed more := by
  have hpositive := hash.digestSize_pos
  have hblocks : more ≤ more * hash.digestSize := Nat.le_mul_of_pos_right _ hpositive
  rw [hash.expand_eq_take_stream secret seed (Nat.le_trans h hblocks), hash.expand_eq_take_stream secret seed hblocks]
  exact List.take_prefix_take_left h

end HashFunction

theorem Prf.derive_prefix (prf : Prf) (secret label seed : Bytes) {length more : Nat} (h : length ≤ more) :
    prf.derive secret label seed length <+: prf.derive secret label seed more := by
  cases prf with
  | single hash => exact hash.function.expand_prefix secret (label ++ seed) h
  | md5Sha1 =>
    obtain ⟨behind, hbehind⟩ :=
      HashFunction.md5.expand_prefix (secret.take ((secret.length + 1) / 2)) (label ++ seed) h
    obtain ⟨behind', hbehind'⟩ :=
      HashFunction.sha1.expand_prefix (secret.drop (secret.length - (secret.length + 1) / 2)) (label ++ seed) h
    simp only [derive, ← hbehind, ← hbehind', xorBytes]
    rw [List.zipWith_append (by simp)]
    exact List.prefix_append _ _

namespace Ranged

theorem overwrite_of_length {target source : Bytes} (h : target.length = source.length) :
    overwrite target source = some source :=
  if_pos h

theorem xorOver_of_length {out other : Bytes} (h : out.length = other.length) : xorOver out other = xorBytes out other := by
  rw [xorOver, List.drop_of_length_le (Nat.le_of_eq h), List.append_nil]

/-- What the loop writes depends on the length of the buffer only. -/
theorem writeParts_pieces (hash : HashFunction) (secret seed a out : Bytes) {count : Nat}
    (h : out.length ≤ count * hash.digestSize) :
    writeParts hash secret seed a (pieces hash.digestSize out) =
      some ((hash.expandFrom secret seed a count).take out.length) := by
  induction out using pieces.induct hash.digestSize generalizing a count with
  | case1 => simp [pieces, writeParts]
  | case2 x xs ih =>
    have hpositive := hash.digestSize_pos
    obtain ⟨digest, hdigest⟩ : ∃ digest, digest = hash.hmac secret (a ++ seed) := ⟨_, rfl⟩
    have hsize : digest.length = hash.digestSize := by rw [hdigest, HashFunction.length_hmac]
    rw [List.length_cons] at h
    obtain ⟨others, rfl⟩ : ∃ others, count = others + 1 := Nat.exists_eq_succ_of_ne_zero (by rintro rfl; omega)
    have henough : (xs.drop (hash.digestSize - 1)).length ≤ others * hash.digestSize := by
      rw [List.length_drop]
      rw [Nat.succ_mul] at h
      omega
    have hrest := ih (hash.hmac secret a) henough
    have hpart : (x :: xs.take (hash.digestSize - 1)).length ≤ digest.length := by
      rw [List.length_cons, List.length_take]
      omega
    have hcopy : overwrite (x :: xs.take (hash.digestSize - 1))
        (digest.take (x :: xs.take (hash.digestSize - 1)).length) =
          some (digest.take (x :: xs.take (hash.digestSize - 1)).length) :=
      overwrite_of_length (List.length_take_of_le hpart).symm
    rw [pieces, writeParts, ← hdigest, slice_front hpart, some_bind, hcopy, some_bind, hrest, some_bind,
      HashFunction.expandFrom, ← hdigest]
    have hfront : digest.take (x :: xs.take (hash.digestSize - 1)).length = digest.take (x :: xs).length := by
      rw [List.take_eq_take_iff, List.length_cons, List.length_cons, List.length_take]
      omega
    have hbehind : (xs.drop (hash.digestSize - 1)).length = (x :: xs).length - digest.length := by
      rw [List.length_drop, List.length_cons]
      omega
    rw [List.take_append, hfront, hbehind]
    rfl

theorem expandOver_eq (hash : HashFunction) (secret seed out : Bytes) :
    expandOver hash secret seed out = some (hash.expand secret seed out.length) := by
  have hsize : (hash.hmac secret seed).length = hash.digestSize := hash.length_hmac secret seed
  have hpositive := hash.digestSize_pos
  have hblocks : out.length ≤ out.length * hash.digestSize := Nat.le_mul_of_pos_right _ hpositive
  rw [expandOver, hsize, if_neg (by omega), writeParts_pieces hash secret seed _ out hblocks,
    HashFunction.expandFrom_eq_stream, hash.expand_eq_take_stream secret seed hblocks]

/-- Every cut and every copy is in range, and what is filled in is what is derived. -/
theorem deriveOver_eq (prf : Prf) (secret label seed out : Bytes) :
    deriveOver prf secret label seed out = some (prf.derive secret label seed out.length) := by
  cases prf with
  | single hash => exact expandOver_eq hash.function secret (label ++ seed) out
  | md5Sha1 =>
    have hhalf : (secret.length + 1) / 2 ≤ secret.length := by omega
    simp only [deriveOver, expandOver_eq]
    rw [slice_front hhalf, some_bind, some_bind, minus_of_le hhalf, some_bind, slice_behind (Nat.sub_le _ _), some_bind,
      some_bind, xorOver_of_length (by simp)]
    simp [Prf.derive]

end Ranged

/-- Filling a buffer never fails, and leaves in it what is derived for its length: under one hash the front
of that hash's stream, and under MD5 and SHA-1 the fronts of both streams combined byte by byte, where
the first half of the secret is the key of one and the last half that of the other. What the buffer
held before is gone, and a longer buffer starts with what a shorter one gets. -/
theorem Prf.filled_with_stream (secret label seed out : Bytes) :
    (∀ prf : Prf, Ranged.deriveOver prf secret label seed out = some (prf.derive secret label seed out.length)) ∧
      (∀ (hash : PrfHash) (count : Nat), out.length ≤ count * hash.function.digestSize →
        Ranged.deriveOver (.single hash) secret label seed out =
          some ((hash.function.stream secret (label ++ seed) count).take out.length)) ∧
      (∀ count : Nat, out.length ≤ count * HashFunction.md5.digestSize →
        Ranged.deriveOver .md5Sha1 secret label seed out =
          some (List.zipWith (· ^^^ ·)
            ((HashFunction.md5.stream (secret.take ((secret.length + 1) / 2)) (label ++ seed) count).take out.length)
            ((HashFunction.sha1.stream (secret.drop (secret.length - (secret.length + 1) / 2)) (label ++ seed)
              count).take out.length))) ∧
      (∀ (prf : Prf) (other : Bytes), other.length = out.length →
        Ranged.deriveOver prf secret label seed other = Ranged.deriveOver prf secret label seed out) ∧
      ∀ (prf : Prf) (more : Bytes), ∃ shorter longer, Ranged.deriveOver prf secret label seed out = some shorter ∧
        Ranged.deriveOver prf secret label seed (out ++ more) = some longer ∧ shorter <+: longer := by
  refine ⟨fun prf => Ranged.deriveOver_eq prf secret label seed out, ?_, ?_, ?_, ?_⟩
  · intro hash count hcount
    rw [Ranged.deriveOver_eq, derive, hash.function.expand_eq_take_stream secret (label ++ seed) hcount]
  · intro count hcount
    have hcount' : out.length ≤ count * HashFunction.sha1.digestSize :=
      Nat.le_trans hcount (Nat.mul_le_mul_left count (by decide))
    rw [Ranged.deriveOver_eq, derive, HashFunction.md5.expand_eq_take_stream _ (label ++ seed) hcount,
      HashFunction.sha1.expand_eq_take_stream _ (label ++ seed) hcount', xorBytes]
  · intro prf other hlength
    rw [Ranged.deriveOver_eq, Ranged.deriveOver_eq, hlength]
  · intro prf more
    refine ⟨_, _, Ranged.deriveOver_eq _ _ _ _ _, Ranged.deriveOver_eq _ _ _ _ _, prf.derive_prefix secret label seed ?_⟩
    rw [List.length_append]
    exact Nat.le_add_right _ _

/-- Both halves of a secret of five bytes hold the byte in the middle. -/
theorem Prf.filled_with_stream_odd :
    (List.replicate 40 (0xff : UInt8)).length ≤ 3 * HashFunction.md5.digestSize ∧
      Ranged.deriveOver .md5Sha1 [1, 2, 3, 4, 5] [108] [115] (List.replicate 40 0xff) =
        some (List.zipWith (· ^^^ ·) ((HashFunction.md5.stream [1, 2, 3] [108, 115] 3).take 40)
          ((HashFunction.sha1.stream [3, 4, 5] [108, 115] 3).take 40)) := by
  have hcount : (List.replicate 40 (0xff : UInt8)).length ≤ 3 * HashFunction.md5.digestSize := by decide
  obtain ⟨-, -, hcombined, -, -⟩ := Prf.filled_with_stream [1, 2, 3, 4, 5] [108] [115] (List.replicate 40 0xff)
  exact ⟨hcount, hcombined 3 hcount⟩

end PresharedTls
