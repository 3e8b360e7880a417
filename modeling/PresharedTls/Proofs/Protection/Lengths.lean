import PresharedTls.Proofs.Protection.Format
import PresharedTls.Proofs.Terms

/-!
# How long fragments are

The length of a fragment depends on that of its plaintext, on the suite, the version and the options, and
not on the keys or on what was protected before. It is longer than the plaintext, by 80 bytes at most.
-/

namespace PresharedTls

/-- The length of the fragment that a suite makes of a plaintext of so many bytes. Blocks are filled up, with
the tag inside or behind them, and follow their vector, unless in TLS 1.0. -/
def CipherSuite.sealedLength (suite : CipherSuite) (version : Version) (encryptThenMac truncatedHmac : Bool)
    (length : Nat) : Nat :=
  match suite.macHash? with
  | none => length + (GcmRecords.explicitLength + Gcm.tagSize)
  | some hash =>
    let tag := if truncatedHmac then 10 else hash.outputLength
    if suite.bulkCipher.isBlockCipher then
      let vector := if version = .tls10 then 0 else Block.size
      if encryptThenMac then vector + (length + Padding.amount length) + tag
      else vector + (length + tag + Padding.amount (length + tag))
    else length + tag

/-- The same for a suite that is in use. -/
def RecordCipher.sealedLength : RecordCipher → (length : Nat) → Nat
  | gcm _ _, length => length + (GcmRecords.explicitLength + Gcm.tagSize)
  | cbc records, length =>
    if records.encryptThenMac then records.vectorLength + (length + Padding.amount length) + records.mac.length
    else records.vectorLength + (length + records.mac.length + Padding.amount (length + records.mac.length))
  | null mac, length => length + mac.length

/-! ### Bounds -/

theorem CipherSuite.sealedLength_bounds (suite : CipherSuite) (version : Version) (encryptThenMac truncatedHmac : Bool)
    (length : Nat) :
    length < suite.sealedLength version encryptThenMac truncatedHmac length ∧
      suite.sealedLength version encryptThenMac truncatedHmac length ≤ length + 80 := by
  rw [sealedLength]
  cases suite.macHash? with
  | none =>
    dsimp only [GcmRecords.explicitLength, Gcm.tagSize]
    omega
  | some hash =>
    have htag : 0 < (if truncatedHmac then 10 else hash.outputLength) ∧
        (if truncatedHmac then 10 else hash.outputLength) ≤ 48 := by
      cases hash <;> cases truncatedHmac <;> decide
    have hvector : (if version = .tls10 then 0 else Block.size) ≤ 16 := by
      split <;> decide
    dsimp only [Padding.amount]
    generalize (if truncatedHmac then 10 else hash.outputLength) = tag at htag ⊢
    generalize (if version = .tls10 then 0 else Block.size) = vector at hvector ⊢
    split
    · split <;> omega
    · omega

/-! ### Ciphers in use -/

theorem CbcRecords.length_protect (records : CbcRecords) (sequence : Nat) (typeCode : UInt8) (version : UInt16)
    (plaintext : Bytes) (entropy : Entropy) :
    (records.protect sequence typeCode version plaintext entropy).1.length =
      (RecordCipher.cbc records).sealedLength plaintext.length := by
  obtain ⟨more, hmore, hprotect⟩ := records.exists_protect_eq sequence typeCode version plaintext entropy
  have hciphertext := length_ciphertext (records.drawVector entropy).1 (hmore ▸ Padding.add_amount_mod _)
  rw [hprotect, RecordCipher.sealedLength]
  dsimp only [fragment]
  split
  · next houtside =>
    rw [content, houtside, if_pos rfl] at hciphertext hmore
    rw [List.length_append, RecordMac.length_tag, length_body, hciphertext, hmore]
  · next hinside =>
    rw [content, if_neg hinside, List.length_append, RecordMac.length_tag] at hciphertext hmore
    rw [length_body, hciphertext, hmore]

theorem GcmRecords.length_of_protect {cipher : BlockCipher} {salt : Bytes} {sequence : Nat} {typeCode : UInt8}
    {version : UInt16} {plaintext fragment : Bytes}
    (h : protect cipher salt sequence typeCode version plaintext = some fragment) :
    fragment.length = plaintext.length + (explicitLength + Gcm.tagSize) := by
  by_cases hlength : plaintext.length ≤ Gcm.maximumPlaintext
  · obtain ⟨other, hother, hlength', -⟩ := exists_protect cipher salt sequence typeCode version hlength
    obtain rfl := Option.some.inj (h.symm.trans hother)
    exact hlength'
  · rw [protect, Gcm.encrypt, if_pos (Nat.lt_of_not_le hlength)] at h
    cases h

/-- The chain moves on with each record, but whether there is one stays. -/
theorem RecordCipher.Continues.sealedLength_eq {first second : RecordCipher} (h : first.Continues second) :
    second.sealedLength = first.sealedLength := by
  cases h with
  | same => rfl
  | moved records hchained =>
    funext length
    simp only [RecordCipher.sealedLength, CbcRecords.vectorLength, hchained]

namespace Protection

variable {params : SecurityParameters} {sender : Role} {context later : Protection} {typeCode : UInt8} {version : UInt16}
  {plaintext fragment : Bytes} {entropy entropy' : Entropy}

theorem length_of_protect (h : context.protect typeCode version plaintext entropy = (.ok fragment, later, entropy')) :
    fragment.length = context.cipher.sealedLength plaintext.length ∧
      later.cipher.sealedLength = context.cipher.sealedLength := by
  have hlater : later.cipher.sealedLength = context.cipher.sealedLength := by
    have hcontinues := (context.protect_continues typeCode version plaintext entropy).2
    rw [h] at hcontinues
    exact hcontinues.sealedLength_eq
  refine ⟨?_, hlater⟩
  obtain ⟨prf, masterSecret, cipher, sequence⟩ := context
  rw [protect] at h
  split at h
  · cases h
  cases cipher with
  | gcm cipher salt =>
    dsimp only at h
    split at h
    · next hsealed =>
      cases h
      exact GcmRecords.length_of_protect hsealed
    · cases h
  | cbc records =>
    cases h
    exact records.length_protect sequence typeCode version plaintext entropy
  | null mac =>
    cases h
    rw [NullRecords.protect, List.length_append, RecordMac.length_tag]
    rfl

theorem sealedLength_recordCipher (params : SecurityParameters) (masterSecret : Bytes) (sender : Role) :
    (recordCipher params (params.directionKeys masterSecret sender)).sealedLength =
      params.suite.sealedLength params.version params.encryptThenMac params.truncatedHmac := by
  have hvector := fun hsuite => params.isSome_vector hsuite masterSecret sender
  funext length
  rw [recordCipher, CipherSuite.sealedLength]
  cases params.suite.macHash? with
  | none => rfl
  | some hash =>
    dsimp only
    split
    · next hsuite =>
      have hchained : (if (Block.split (params.directionKeys masterSecret sender).vector).head?.isSome then 0
          else Block.size) = if params.version = .tls10 then 0 else Block.size := if_congr (hvector hsuite) rfl rfl
      simp only [RecordCipher.sealedLength, CbcRecords.vectorLength, RecordMac.length, hchained]
    · rfl

/-- All that a suite protects is as long as the suite says. -/
theorem Reached.sealedLength_eq (h : Reached params sender context) :
    context.cipher.sealedLength = params.suite.sealedLength params.version params.encryptThenMac params.truncatedHmac := by
  rw [h.continues.2.sealedLength_eq, sealedLength_recordCipher]

/-- What a context has become by so many records. -/
structure Follows (context later : Protection) (count : Nat) : Prop where
  invertible : later.cipher.Invertible
  sequence : later.sequence = context.sequence + count
  sealedLength : later.cipher.sealedLength = context.cipher.sealedLength

theorem Follows.refl (h : context.cipher.Invertible) : context.Follows context 0 :=
  ⟨h, rfl, rfl⟩

theorem Follows.trans {between : Protection} {first second : Nat} (h : context.Follows between first)
    (h' : between.Follows later second) : context.Follows later (first + second) where
  invertible := h'.invertible
  sequence := by rw [h'.sequence, h.sequence, Nat.add_assoc]
  sealedLength := h'.sealedLength.trans h.sealedLength

end Protection

/-! ### Terms -/

/-- The length of the fragments that ends with these terms send, which have a suite. -/
def Terms.sealedLength (terms : Terms) (length : Nat) : Nat :=
  match terms.suite with
  | none => length
  | some suite =>
    suite.sealedLength terms.version terms.parameters.encryptThenMac terms.parameters.truncatedHmac length

theorem Terms.sealedLength_bounds {terms : Terms} {suite : CipherSuite} (h : terms.suite = some suite) (length : Nat) :
    length < terms.sealedLength length ∧ terms.sealedLength length ≤ length + 80 := by
  simp only [sealedLength, h]
  exact suite.sealedLength_bounds _ _ _ length

theorem Session.parameters_of_securityParameters {κ : Type} {session : Session κ} {params : SecurityParameters}
    (h : session.securityParameters? = some params) :
    session.terms.suite = some params.suite ∧ session.terms.sealedLength =
      params.suite.sealedLength params.version params.encryptThenMac params.truncatedHmac := by
  obtain ⟨suite, hsuite, h⟩ := Option.bind_eq_some_iff.mp h
  obtain ⟨clientRandom, -, h⟩ := Option.bind_eq_some_iff.mp h
  obtain ⟨serverRandom, -, h⟩ := Option.bind_eq_some_iff.mp h
  obtain ⟨key, -, h⟩ := Option.bind_eq_some_iff.mp h
  cases h
  have hterms : session.terms.suite = some suite := hsuite
  refine ⟨hterms, ?_⟩
  funext length
  simp only [Terms.sealedLength, hterms]
  rfl

end PresharedTls
