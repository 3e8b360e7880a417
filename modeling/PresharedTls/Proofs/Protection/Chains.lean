import PresharedTls.Proofs.Protection.Format

/-!
# Chained records are one encryption

Where each record starts from the last ciphertext block of the record before, as in TLS 1.0, the
records of a run are the pieces of a single encryption of their padded contents. The end that opens
them follows the chain: behind every record it holds the vector that the sender held there.
-/

namespace PresharedTls

/-! ### Blocks -/

namespace Block

theorem split_join_append (blocks : List Block) (behind : Bytes) :
    split (join blocks ++ behind) = blocks ++ split behind := by
  induction blocks with
  | nil => simp [join]
  | cons block rest ih =>
    rw [join, List.flatMap_cons, List.append_assoc, split_append, ← join, ih, List.cons_append]

theorem split_append_of_whole {front : Bytes} (h : front.length % 16 = 0) (behind : Bytes) :
    split (front ++ behind) = split front ++ split behind := by
  conv_lhs => rw [← join_split h, split_join_append]

theorem join_append (front behind : List Block) : join (front ++ behind) = join front ++ join behind := by
  simp [join]

end Block

namespace Chaining

variable {cipher : BlockCipher}

theorem encryptBlocks_append (iv : Block) (front behind : List Block) :
    encryptBlocks cipher iv (front ++ behind) =
      encryptBlocks cipher iv front ++
        encryptBlocks cipher ((encryptBlocks cipher iv front).getLastD iv) behind := by
  induction front generalizing iv with
  | nil => simp [encryptBlocks]
  | cons block rest ih =>
    rw [List.cons_append, encryptBlocks, ih, encryptBlocks, List.cons_append, List.getLastD_cons]

/-- A long text is encrypted piece by piece if each piece but the last is whole and the chain goes on. -/
theorem encrypt_append (iv : Block) {front : Bytes} (h : front.length % 16 = 0) (behind : Bytes) :
    encrypt cipher iv (front ++ behind) =
      encrypt cipher iv front ++ encrypt cipher (nextVector iv (encrypt cipher iv front)) behind := by
  simp only [encrypt, nextVector, Block.split_append_of_whole h, Block.split_join, encryptBlocks_append,
    Block.join_append]

end Chaining

theorem Padding.length_add_mod (data : Bytes) : (add data).length % 16 = 0 := by
  obtain ⟨more, hadd, hmore⟩ := exists_add data
  rw [hadd, List.length_append, length_filler, hmore, add_amount_mod]

namespace CbcRecords

/-! ### One record -/

/-- A record's content with the padding that a sender gives it. -/
def padded (records : CbcRecords) (numbered : Nat × Record) : Bytes :=
  let (sequence, record) := numbered
  Padding.add (records.content sequence record.typeCode record.version record.fragment)

/-- A fragment without the tag that stands behind the ciphertext where the tag is outside. -/
def withoutTag (records : CbcRecords) (fragment : Bytes) : Bytes :=
  if records.encryptThenMac then fragment.take (fragment.length - records.mac.length) else fragment

/-- With a chained vector a fragment starts with the ciphertext, and the chain moves behind it. -/
theorem protect_chained {records : CbcRecords} {vector : Block} (hchained : records.chained = some vector)
    (sequence : Nat) (record : Record) (entropy : Entropy) :
    ∃ fragment,
      records.protect sequence record.typeCode record.version record.fragment entropy =
        (fragment, { records with chained := some (Chaining.nextVector vector (records.withoutTag fragment)) },
          entropy) ∧
      records.withoutTag fragment = Chaining.encrypt records.cipher vector (records.padded (sequence, record)) := by
  obtain ⟨ciphertext, hciphertext⟩ : ∃ ciphertext,
      ciphertext = Chaining.encrypt records.cipher vector (records.padded (sequence, record)) := ⟨_, rfl⟩
  have hprotect : records.protect sequence record.typeCode record.version record.fragment entropy =
      (if records.encryptThenMac then
          ciphertext ++ records.mac.tag (macHeader sequence record.typeCode record.version ciphertext.length) ciphertext
        else ciphertext,
        records.advance ciphertext, entropy) := by
    simp [protect, drawVector, hchained, hciphertext, padded, content]
  have hwithout : records.withoutTag (records.protect sequence record.typeCode record.version record.fragment
      entropy).1 = ciphertext := by
    rw [hprotect, withoutTag]
    cases records.encryptThenMac <;> simp
  refine ⟨_, ?_, hwithout.trans hciphertext⟩
  rw [hwithout, hprotect, advance, hchained]
  rfl

/-! ### Runs of records -/

/-- Protects numbered records in order, and gives each with the context that stands behind it. -/
def protectEach (records : CbcRecords) (entropy : Entropy) : List (Nat × Record) → List ((Nat × Record) × CbcRecords)
  | [] => []
  | (sequence, record) :: rest =>
    let (fragment, later, entropy) := records.protect sequence record.typeCode record.version record.fragment entropy
    ((sequence, { record with fragment := fragment }), later) :: later.protectEach entropy rest

/-- Opens numbered records in order, and gives each plaintext with the context that stands behind it.
It fails at a record that is not right. -/
def unprotectEach (records : CbcRecords) : List (Nat × Record) → Option (List (Bytes × CbcRecords))
  | [] => some []
  | (sequence, record) :: rest =>
    match records.unprotect sequence record.typeCode record.version record.fragment with
    | none => none
    | some (plaintext, later) => (later.unprotectEach rest).map fun opened => (plaintext, later) :: opened

theorem flatMap_withoutTag_protectEach {records : CbcRecords} {iv : Block} (hchained : records.chained = some iv)
    (entropy : Entropy) (numbered : List (Nat × Record)) :
    ((records.protectEach entropy numbered).flatMap fun made => records.withoutTag made.1.2.fragment) =
      Chaining.encrypt records.cipher iv (numbered.flatMap records.padded) := by
  induction numbered generalizing records iv entropy with
  | nil => simp [protectEach, Chaining.encrypt, Block.split, Block.words, Block.ofWords, Chaining.encryptBlocks, Block.join]
  | cons head rest ih =>
    obtain ⟨sequence, record⟩ := head
    obtain ⟨fragment, hprotect, hfragment⟩ := protect_chained hchained sequence record entropy
    have hwhole : (records.padded (sequence, record)).length % 16 = 0 := Padding.length_add_mod _
    have hrest := @ih { records with chained := some (Chaining.nextVector iv (records.withoutTag fragment)) } _ rfl
      entropy
    simp only [protectEach, hprotect, List.flatMap_cons]
    rw [Chaining.encrypt_append _ hwhole, ← hfragment]
    exact congrArg _ hrest

theorem exists_unprotectEach {records : CbcRecords}
    (hcipher : ∀ block, records.cipher.decrypt (records.cipher.encrypt block) = block) (entropy : Entropy)
    (numbered : List (Nat × Record)) :
    ∃ opened, records.unprotectEach ((records.protectEach entropy numbered).map Prod.fst) = some opened ∧
      opened.map Prod.fst = numbered.map (·.2.fragment) ∧
      opened.map Prod.snd = (records.protectEach entropy numbered).map Prod.snd := by
  induction numbered generalizing records entropy with
  | nil => exact ⟨[], rfl, rfl, rfl⟩
  | cons head rest ih =>
    obtain ⟨sequence, record⟩ := head
    obtain ⟨fragment, later, entropy', hprotect⟩ : ∃ fragment later entropy',
        records.protect sequence record.typeCode record.version record.fragment entropy =
          (fragment, later, entropy') := ⟨_, _, _, rfl⟩
    have hopened := unprotect_protect hcipher sequence record.typeCode record.version record.fragment entropy
    have hlater : later.cipher = records.cipher := by
      have hcontext := congrArg (·.2.1.cipher) hprotect
      exact hcontext.symm
    obtain ⟨opened, hrest, hplaintexts, hcontexts⟩ := ih (by rwa [hlater]) entropy'
    rw [hprotect] at hopened
    refine ⟨(record.fragment, later) :: opened, ?_, ?_, ?_⟩
    · simp [protectEach, unprotectEach, hprotect, hopened, hrest]
    · simp [hplaintexts]
    · simp [protectEach, hprotect, hcontexts]

/-- A run of chained records is one long encryption of the padded contents under the first vector, with
the tags that stand outside left out. The end that starts from the same context opens the records in
order, and behind each of them it holds what the sender held there, the vector for the next record
included. Encryption and decryption of whole blocks undo each other under every vector. -/
theorem one_encryption {records : CbcRecords} {iv : Block} (hchained : records.chained = some iv)
    (hcipher : ∀ block, records.cipher.decrypt (records.cipher.encrypt block) = block) (entropy : Entropy)
    (numbered : List (Nat × Record)) :
    ((records.protectEach entropy numbered).flatMap fun made => records.withoutTag made.1.2.fragment) =
        Chaining.encrypt records.cipher iv (numbered.flatMap records.padded) ∧
      (∃ opened, records.unprotectEach ((records.protectEach entropy numbered).map Prod.fst) = some opened ∧
        opened.map Prod.fst = numbered.map (·.2.fragment) ∧
        opened.map Prod.snd = (records.protectEach entropy numbered).map Prod.snd) ∧
      ∀ (vector : Block) (data : Bytes), data.length % Block.size = 0 →
        Chaining.decrypt records.cipher vector (Chaining.encrypt records.cipher vector data) = data ∧
          Chaining.encrypt records.cipher vector (Chaining.decrypt records.cipher vector data) = data := by
  refine ⟨flatMap_withoutTag_protectEach hchained entropy numbered, exists_unprotectEach hcipher entropy numbered, ?_⟩
  intro vector data hdata
  exact ⟨Chaining.decrypt_encrypt hcipher vector hdata,
    Chaining.encrypt_decrypt (BlockCipher.encrypt_decrypt hcipher) vector hdata⟩

/-- The tags of these records stand outside. -/
def chainedRecords : CbcRecords :=
  ⟨Aes.blockCipher (List.replicate 16 0x42), ⟨.sha1, List.replicate 20 7, false⟩, true, some .zero⟩

/-- A record of one whole block, and an empty one. -/
def chainedRun : List (Nat × Record) :=
  [(0, ⟨22, 0x0301, List.replicate 16 7⟩), (1, ⟨23, 0x0301, []⟩)]

theorem one_encryption_aes :
    chainedRecords.chained = some .zero ∧
      (∀ block, chainedRecords.cipher.decrypt (chainedRecords.cipher.encrypt block) = block) ∧
      ((chainedRecords.protectEach (.ofSeed 1) chainedRun).flatMap
          fun made => chainedRecords.withoutTag made.1.2.fragment) =
        Chaining.encrypt chainedRecords.cipher .zero (List.replicate 16 7 ++ List.replicate 32 15) ∧
      ∃ opened, chainedRecords.unprotectEach ((chainedRecords.protectEach (.ofSeed 1) chainedRun).map Prod.fst) =
          some opened ∧
        opened.map Prod.fst = [List.replicate 16 7, []] ∧
        opened.map Prod.snd = (chainedRecords.protectEach (.ofSeed 1) chainedRun).map Prod.snd := by
  have hinverse := Aes.decrypt_encrypt (.ofKey (List.replicate 16 0x42))
  obtain ⟨hstream, hopened, -⟩ := @one_encryption chainedRecords _ rfl hinverse (.ofSeed 1) chainedRun
  exact ⟨rfl, hinverse, hstream, hopened⟩

end CbcRecords

end PresharedTls
