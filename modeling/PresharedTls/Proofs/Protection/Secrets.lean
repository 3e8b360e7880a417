import PresharedTls.Proofs.Expansion
import PresharedTls.Protection.Keys

/-!
# The secrets

The key that both ends share is padded to the premaster secret, and out of it and the randoms of both hellos
comes the master secret, from which all keys are derived. Here both are written out down to the digests that are
chained for them.
-/

namespace PresharedTls

/-- The key behind as many zeros, and each of the two behind that number in two bytes. -/
def paddedKey (key : Bytes) : Bytes :=
  [.ofNat (key.length / 0x100), .ofNat key.length] ++ List.replicate key.length 0 ++
    [.ofNat (key.length / 0x100), .ofNat key.length] ++ key

/-- Every key whose length fits two bytes is padded. -/
theorem premasterSecret_eq (key : Bytes) :
    premasterSecret key = if key.length ≤ 65535 then .ok (paddedKey key) else .error .internalError := by
  rw [premasterSecret]
  split <;> split
  · rfl
  · omega
  · omega
  · rfl

/-- The bytes of "master secret". -/
def masterLabel : Bytes :=
  [109, 97, 115, 116, 101, 114, 32, 115, 101, 99, 114, 101, 116]

theorem ascii_masterLabel : ascii "master secret" = masterLabel := rfl

namespace SecurityParameters

variable (params : SecurityParameters)

/-- The label and the randoms, the client's first. -/
def masterSeed : Bytes :=
  masterLabel ++ (params.clientRandom.bytes ++ params.serverRandom.bytes)

/-- The master secret of the padded key, out of three digests of the suite's hash, or of MD5 and of SHA-1 over one half
each. The halves share the middle byte of an odd length. -/
def expandedKey : Bytes :=
  let premaster := paddedKey params.key
  let half := (premaster.length + 1) / 2
  if params.version < .tls12 then
    xorBytes ((HashFunction.md5.stream (premaster.take half) params.masterSeed 3).take 48)
      ((HashFunction.sha1.stream (premaster.drop (premaster.length - half)) params.masterSeed 3).take 48)
  else (params.suite.prfHash.function.stream premaster params.masterSeed 3).take 48

theorem derive_paddedKey : params.prf.derive (paddedKey params.key) (ascii "master secret")
    (params.clientRandom.bytes ++ params.serverRandom.bytes) 48 = params.expandedKey := by
  rw [ascii_masterLabel, prf, Prf.select, expandedKey]
  split
  · rw [Prf.derive, HashFunction.md5.expand_eq_take_stream _ _ (show 48 ≤ 3 * HashFunction.md5.digestSize by decide),
      HashFunction.sha1.expand_eq_take_stream _ _ (show 48 ≤ 3 * HashFunction.sha1.digestSize by decide)]
    rfl
  · have henough : 48 ≤ 3 * params.suite.prfHash.function.digestSize := by
      cases params.suite.prfHash <;> decide
    rw [Prf.derive, HashFunction.expand_eq_take_stream _ _ _ henough]
    rfl

variable {params}

/-- There is a master secret for every key that can be padded, and it is the expansion of the padded key. -/
theorem masterSecret_eq_ok_iff {masterSecret : FixedBytes 48} :
    params.masterSecret = .ok masterSecret ↔ params.key.length ≤ 65535 ∧ masterSecret.bytes = params.expandedKey := by
  rw [SecurityParameters.masterSecret, premasterSecret_eq]
  split
  · next hkey =>
    constructor
    · intro h
      cases h
      exact ⟨hkey, params.derive_paddedKey⟩
    · rintro ⟨-, hbytes⟩
      refine congrArg Except.ok ?_
      cases masterSecret
      simp only [FixedBytes.mk.injEq]
      exact params.derive_paddedKey.trans hbytes.symm
  · next hlong =>
    constructor
    · intro h
      cases h
    · exact fun h => absurd h.1 hlong

end SecurityParameters

end PresharedTls
