import PresharedTls.Handshake.KeyExchange
import PresharedTls.Proofs.Codec.Grammar

/-!
# Reading back message bodies

What one end writes into the body of a message, the other end reads out of it.
-/

namespace PresharedTls

open Reader

/-! ### Hello messages -/

theorem length_suiteBytes (suites : List CipherSuite) :
    (suites.flatMap fun suite => bigEndian 2 suite.code.toNat).length = 2 * suites.length := by
  have hcodes := ClientHello.length_codeBytes (suites.map (·.code))
  rwa [List.flatMap_map, List.length_map] at hcodes

/-- What is written as a hello is laid out like one. -/
theorem ClientHello.layout_of_bytes {hello : ClientHello} {b : Bytes} (h : hello.bytes = .ok b) : Layout b hello := by
  obtain ⟨version, random, suites, extensions⟩ := hello
  by_cases hcount : suites.length = 0 ∨ 32768 ≤ suites.length
  · simp only [bytes, if_pos hcount] at h
    cases h
  cases hblock : extensions.bytes with
  | error alert =>
    simp only [bytes, if_neg hcount, hblock] at h
    cases h
  | ok block =>
    simp only [bytes, if_neg hcount, hblock] at h
    cases h
    have hcodes : suites.map (·.code) ≠ [] := fun hnone => hcount (.inl (by simpa using hnone))
    have hlayout := @Layout.intro version random [] (suites.map (·.code)) [0] block extensions (by decide) hcodes
      (by rw [List.length_map]; omega) (by decide) (by decide) (ExtensionMap.block_of_bytes hblock)
    rw [filterMap_ofCode?, List.flatMap_map, List.length_map] at hlayout
    rw [List.append_assoc (_ ++ [0])]
    exact hlayout

theorem ServerHello.layout_of_bytes {hello : ServerHello} {b : Bytes} (h : hello.bytes = .ok b) : Layout b hello := by
  obtain ⟨version, random, suite, extensions⟩ := hello
  cases hblock : extensions.bytes with
  | error alert =>
    simp only [bytes, hblock] at h
    cases h
  | ok block =>
    simp only [bytes, hblock] at h
    cases h
    exact @Layout.intro version random [] suite block extensions (by decide) (ExtensionMap.block_of_bytes hblock)

theorem ClientHello.ofBytes?_bytes {hello : ClientHello} {b : Bytes} (h : hello.bytes = .ok b) :
    ofBytes? b = some hello :=
  ofBytes?_eq_some_iff.mpr (layout_of_bytes h)

theorem ServerHello.ofBytes?_bytes {hello : ServerHello} {b : Bytes} (h : hello.bytes = .ok b) :
    ofBytes? b = some hello :=
  ofBytes?_eq_some_iff.mpr (layout_of_bytes h)

/-! ### Key exchange and Finished -/

theorem KeyIdentity.ofBody?_body {identity b : Bytes} (h : body identity = .ok b) : ofBody? b = some identity := by
  rw [body] at h
  split at h
  · next hbound =>
    cases h
    exact (reads_vector16 (Nat.zero_le _) (Nat.mod_one _) hbound).readAll?
  · cases h

theorem FixedBytes.ofBytes?_bytes {n : Nat} (b : FixedBytes n) : ofBytes? n b.bytes = some b := by
  rw [ofBytes?, dif_pos b.length_bytes]

theorem FixedBytes.eq_of_ofBytes? {n : Nat} {b : Bytes} {value : FixedBytes n} (h : ofBytes? n b = some value) :
    b = value.bytes := by
  rw [ofBytes?] at h
  split at h
  · cases h
    rfl
  · cases h

end PresharedTls
