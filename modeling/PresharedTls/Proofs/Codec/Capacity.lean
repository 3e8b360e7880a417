import PresharedTls.Proofs.Codec.Hello
import PresharedTls.Proofs.Codec.Messages
import PresharedTls.Proofs.Negotiated

/-!
# Room for what is written

A body that was read fits into the lengths that it is written with again: the extensions of a hello took no
more room there than two bytes can count, so a server can always echo them. What a client puts into its own
hello has room by its settings.
-/

namespace PresharedTls

theorem KeyIdentity.length_of_ofBody? {b identity : Bytes} (h : ofBody? b = some identity) : identity.length < 65536 :=
  Reader.length_of_vector16 h

theorem KeyIdentity.exists_body {identity : Bytes} (h : identity.length < 65536) (type : HandshakeType) :
    ∃ body, KeyIdentity.body identity = .ok body ∧ HandshakeMessage.Framed ⟨type, body⟩ := by
  refine ⟨_, if_pos h, ?_⟩
  show (bigEndian 2 identity.length ++ identity).length < 16777216
  rw [List.length_append, length_bigEndian]
  omega

/-! ### Extensions -/

namespace ExtensionMap

/-- The block of a map has at most the size of its body and two bytes. -/
theorem exists_bytes_of_body {map : ExtensionMap} (h : map.body.length < 65536) :
    ∃ block, map.bytes = .ok block ∧ block.length ≤ map.body.length + 2 := by
  rw [bytes]
  split
  · exact ⟨[], rfl, Nat.zero_le _⟩
  · have hall : (map.entries.all (·.2.length < 65536) && decide (map.body.length < 65536)) = true := by
      rw [Bool.and_eq_true, List.all_eq_true, decide_eq_true_eq]
      exact ⟨fun entry hmem => decide_eq_true (Nat.lt_of_le_of_lt (length_le_of_mem hmem) h), h⟩
    rw [if_pos hall]
    refine ⟨_, rfl, ?_⟩
    rw [List.length_append, length_bigEndian]
    omega

theorem Block.length_lt {map : ExtensionMap} {b : Bytes} (h : Block b map) : b.length < 65538 := by
  cases h with
  | absent => decide
  | present _ hlength _ =>
    rw [List.length_append, length_bigEndian]
    omega

/-- A map that was read can be written, in no more bytes than it was read from. -/
theorem Block.exists_bytes {map : ExtensionMap} {b : Bytes} (h : Block b map) :
    ∃ block, map.bytes = .ok block ∧ block.length ≤ b.length := by
  cases h with
  | absent => exact ⟨[], rfl, Nat.le_refl _⟩
  | @present entries map _ hlength hmap =>
    have hbody : map.body.length = (entries.flatMap entryBytes).length := (hmap.flatMap_right entryBytes).length_eq
    obtain ⟨block, hblock, hshort⟩ := exists_bytes_of_body (hbody ▸ hlength)
    refine ⟨block, hblock, ?_⟩
    rw [List.length_append, length_bigEndian]
    omega

end ExtensionMap

/-! ### Hello messages -/

theorem ClientHello.Layout.exists_block {b : Bytes} {hello : ClientHello} (h : Layout b hello) :
    ∃ block, ExtensionMap.Block block hello.extensions := by
  cases h with
  | intro _ _ _ _ _ hblock => exact ⟨_, hblock⟩

/-- A hello has a body where its suites can be counted and its extensions fit. -/
theorem ClientHello.exists_bytes {hello : ClientHello} (hsuites : hello.suites ≠ []) (hcount : hello.suites.length < 32768)
    {block : Bytes} (hblock : hello.extensions.bytes = .ok block) :
    ∃ b, hello.bytes = .ok b ∧ b.length = 2 * hello.suites.length + block.length + 39 := by
  have hcounted : ¬ (hello.suites.length = 0 ∨ 32768 ≤ hello.suites.length) := by
    rw [List.length_eq_zero_iff]
    exact fun h => h.elim hsuites (Nat.not_le.mpr hcount)
  rw [bytes, if_neg hcounted, hblock]
  refine ⟨_, rfl, ?_⟩
  simp only [List.length_append, length_bigEndian, hello.random.length_bytes, length_suiteBytes, List.length_cons,
    List.length_nil]
  omega

theorem ServerHello.exists_bytes {hello : ServerHello} {block : Bytes} (hblock : hello.extensions.bytes = .ok block) :
    ∃ b, hello.bytes = .ok b ∧ b.length = block.length + 38 := by
  rw [bytes, hblock]
  refine ⟨_, rfl, ?_⟩
  simp only [List.length_append, length_bigEndian, hello.random.length_bytes, List.length_cons, List.length_nil]
  omega

/-- What a server chooses from a hello that it has read can be written. -/
theorem ServerPolicy.exists_bytes_of_read (policy : ServerPolicy) (version : Version) (suite : CipherSuite)
    {hello : ClientHello} {b : Bytes} (hread : ClientHello.ofBytes? b = some hello) (random : HelloRandom) :
    ∃ body, (policy.answering hello version suite random).bytes = .ok body ∧ body.length < 65576 := by
  obtain ⟨_, hextensions⟩ := (ClientHello.ofBytes?_eq_some_iff.mp hread).exists_block
  have hlength := hextensions.length_lt
  obtain ⟨block, hblock, hless⟩ := hextensions.exists_bytes
  obtain ⟨chosen, hchosen, hfewer⟩ :=
    ExtensionMap.exists_bytes_of_sublist (policy.sublist_chooseExtensions suite hello.extensions) hblock
  obtain ⟨body, hbody, hsize⟩ := @ServerHello.exists_bytes (policy.answering hello version suite random) _ hchosen
  exact ⟨body, hbody, by omega⟩

theorem ClientSettings.length_body_extensions {κ : Type} (settings : ClientSettings κ) :
    settings.extensions.body.length < 65536 := by
  rw [extensions]
  generalize settings.maxFragmentLength = wanted, settings.encryptThenMac = encrypt, settings.truncatedHmac = truncated
  revert encrypt truncated
  rcases wanted with _ | wanted
  · decide
  · cases wanted <;> decide

/-- The extensions that a client can ask for take little room. -/
theorem ClientSettings.exists_bytes_extensions {κ : Type} (settings : ClientSettings κ) :
    ∃ block, settings.extensions.bytes = .ok block ∧ block.length < 65538 := by
  have hbody : settings.extensions.body.length < 65536 := settings.length_body_extensions
  obtain ⟨block, hblock, hlength⟩ := ExtensionMap.exists_bytes_of_body hbody
  exact ⟨block, hblock, by omega⟩

end PresharedTls
