import Mathlib.Data.Finite.Prod
import Mathlib.Data.Fintype.EquivFin
import PresharedTls.Proofs.Protection.Ranges
import PresharedTls.Proofs.Protection.Runs

/-!
# Which fragments are opened

A fragment is opened to a plaintext exactly if it has the format of the suite around it and is
authenticated under the context's sequence number; everything else is a bad record MAC. There is
more that is opened than a sender makes: padding may be up to 256 bytes long.
-/

namespace PresharedTls

/-! ### Permutations of blocks -/

/-- There are finitely many blocks, so a cipher that can be undone takes all of them as values. -/
theorem BlockCipher.encrypt_decrypt {cipher : BlockCipher} (h : ∀ block, cipher.decrypt (cipher.encrypt block) = block)
    (block : Block) : cipher.encrypt (cipher.decrypt block) = block := by
  have hbytes : Finite UInt8 := Finite.of_injective UInt8.toFin fun _ _ => UInt8.toFin_inj.mp
  have hwords : Finite Word := Finite.of_injective (fun w : Word => (w.b0, w.b1, w.b2, w.b3)) fun v w heq => by
    cases v
    cases w
    simpa using heq
  have hblocks : Finite Block := Finite.of_injective (fun b : Block => (b.w0, b.w1, b.w2, b.w3)) fun a b heq => by
    cases a
    cases b
    simpa using heq
  have hinjective : Function.Injective cipher.encrypt := Function.LeftInverse.injective h
  obtain ⟨plain, rfl⟩ := Finite.surjective_of_injective hinjective block
  rw [h]

namespace Chaining

variable {cipher : BlockCipher}

theorem encryptBlocks_decryptBlocks (hcipher : ∀ block, cipher.encrypt (cipher.decrypt block) = block) (iv : Block)
    (blocks : List Block) : encryptBlocks cipher iv (decryptBlocks cipher iv blocks) = blocks := by
  induction blocks generalizing iv with
  | nil => rfl
  | cons block rest ih => rw [decryptBlocks, encryptBlocks, Block.xor_xor_cancel, hcipher, ih]

theorem encrypt_decrypt (hcipher : ∀ block, cipher.encrypt (cipher.decrypt block) = block) (iv : Block) {b : Bytes}
    (h : b.length % 16 = 0) : encrypt cipher iv (decrypt cipher iv b) = b := by
  rw [encrypt, decrypt, Block.split_join, encryptBlocks_decryptBlocks hcipher, Block.join_split h]

end Chaining

/-! ### What each cipher opens -/

theorem NullRecords.unprotect_eq_some {mac : RecordMac} {sequence : Nat} {typeCode : UInt8} {version : UInt16}
    {fragment plaintext : Bytes} :
    unprotect mac sequence typeCode version fragment = some plaintext ↔
      fragment = plaintext ++ mac.tag (macHeader sequence typeCode version plaintext.length) plaintext := by
  constructor
  · intro h
    rw [unprotect] at h
    split at h
    · cases h
    · next hlong =>
      split at h
      · next htag =>
        cases h
        rw [List.length_take_of_le (Nat.sub_le _ _), htag, List.take_append_drop]
      · cases h
  · rintro rfl
    exact unprotect_protect mac sequence typeCode version plaintext

theorem Gcm.length_of_decrypt {cipher : BlockCipher} {nonce additional input plaintext : Bytes}
    (h : decrypt cipher nonce additional input = some plaintext) : input.length = plaintext.length + tagSize := by
  rw [decrypt] at h
  split at h
  · cases h
  · next hsize =>
    split at h
    · cases h
      rw [length_applyKeyStream, List.length_take]
      omega
    · cases h

theorem GcmRecords.unprotect_eq_some {cipher : BlockCipher} {salt : Bytes} {sequence : Nat} {typeCode : UInt8}
    {version : UInt16} {fragment plaintext : Bytes} :
    unprotect cipher salt sequence typeCode version fragment = some plaintext ↔
      ∃ explicit sealed, explicit.length = explicitLength ∧ fragment = explicit ++ sealed ∧
        Gcm.decrypt cipher (salt ++ explicit) (macHeader sequence typeCode version plaintext.length) sealed =
          some plaintext := by
  constructor
  · intro h
    rw [unprotect] at h
    split at h
    · cases h
    · next hlong =>
      have hsealed := Gcm.length_of_decrypt h
      rw [List.length_drop] at hsealed
      have hlength : fragment.length - (explicitLength + Gcm.tagSize) = plaintext.length := by omega
      rw [hlength] at h
      refine ⟨_, _, ?_, (List.take_append_drop explicitLength fragment).symm, h⟩
      rw [List.length_take]
      omega
  · rintro ⟨explicit, sealed, hexplicit, rfl, hopened⟩
    have hsealed := Gcm.length_of_decrypt hopened
    have hlength : (explicit ++ sealed).length - (explicitLength + Gcm.tagSize) = plaintext.length := by
      rw [List.length_append]
      omega
    rw [unprotect, hlength, List.take_left' hexplicit, List.drop_left' hexplicit, if_neg, hopened]
    rw [List.length_append]
    omega

namespace CbcRecords

variable {records : CbcRecords} (hcipher : ∀ block, records.cipher.encrypt (records.cipher.decrypt block) = block)
  {sequence : Nat} {typeCode : UInt8} {version : UInt16} {fragment plaintext : Bytes} {later : CbcRecords}
include hcipher

theorem exists_fragment_of_macInside (hinside : records.encryptThenMac = false)
    (h : records.unprotectMacInside sequence typeCode version fragment = some (plaintext, later)) :
    ∃ vector more, (∀ chained, records.chained = some chained → chained = vector) ∧
      ((records.content sequence typeCode version plaintext).length + (more.toNat + 1)) % 16 = 0 ∧
      fragment = records.fragment vector more sequence typeCode version plaintext ∧
      later = records.advance (records.ciphertext vector more sequence typeCode version plaintext) := by
  dsimp only [unprotectMacInside] at h
  rw [guard_bind] at h
  split at h
  · next hsizes =>
    obtain ⟨⟨vector, ciphertext⟩, hsplit, hrest⟩ := Option.bind_eq_some_iff.mp h
    obtain ⟨rfl, hchained⟩ := body_of_splitVector hsplit
    rw [length_body] at hsizes
    have hwhole : ciphertext.length % 16 = 0 := by omega
    obtain ⟨padding, hcheck, hresult⟩ := Option.bind_eq_some_iff.mp hrest
    obtain ⟨front, more, hfront, rfl, hmac⟩ := (Padding.check_eq_some records.mac.length_le).mp hcheck
    have hdata : front.length + (more.toNat + 1) = ciphertext.length := by
      rw [← Chaining.length_decrypt vector hwhole, hfront, List.length_append, Padding.length_filler]
    have hlength : (front ++ Padding.filler more).length - (more.toNat + 1) - records.mac.length =
        front.length - records.mac.length := by
      rw [Padding.length_append_filler_sub]
    have hbehind : (front.drop (front.length - records.mac.length)).length = records.mac.length := by
      rw [List.length_drop]
      omega
    rw [guard_bind, hfront, hlength, List.take_append_of_le_length (Nat.sub_le _ _),
      List.drop_append_of_le_length (Nat.sub_le _ _), List.take_left' hbehind] at hresult
    split at hresult
    · next htag =>
      cases hresult
      have hcontent : records.content sequence typeCode version (front.take (front.length - records.mac.length)) =
          front := by
        rw [content, hinside, if_neg Bool.false_ne_true, List.length_take_of_le (Nat.sub_le _ _), htag,
          List.take_append_drop]
      have hciphertext : records.ciphertext vector more sequence typeCode version
          (front.take (front.length - records.mac.length)) = ciphertext := by
        rw [CbcRecords.ciphertext, hcontent, ← hfront, Chaining.encrypt_decrypt hcipher vector hwhole]
      refine ⟨vector, more, hchained, by rw [hcontent, hdata, hwhole], ?_, by rw [hciphertext]⟩
      rw [CbcRecords.fragment, hciphertext, hinside, if_neg Bool.false_ne_true]
    · cases hresult
  · cases h

theorem exists_fragment_of_macOutside (houtside : records.encryptThenMac = true)
    (h : records.unprotectMacOutside sequence typeCode version fragment = some (plaintext, later)) :
    ∃ vector more, (∀ chained, records.chained = some chained → chained = vector) ∧
      ((records.content sequence typeCode version plaintext).length + (more.toNat + 1)) % 16 = 0 ∧
      fragment = records.fragment vector more sequence typeCode version plaintext ∧
      later = records.advance (records.ciphertext vector more sequence typeCode version plaintext) := by
  dsimp only [unprotectMacOutside] at h
  rw [guard_bind] at h
  split at h
  · next hsizes =>
    obtain ⟨body, hbody⟩ : ∃ body, body = fragment.take (fragment.length - records.mac.length) := ⟨_, rfl⟩
    have hlength : body.length = fragment.length - records.mac.length := by
      rw [hbody, List.length_take_of_le (Nat.sub_le _ _)]
    rw [guard_bind, ← hbody, ← hlength] at h
    split at h
    · next htag =>
      obtain ⟨⟨vector, ciphertext⟩, hsplit, hrest⟩ := Option.bind_eq_some_iff.mp h
      obtain ⟨hbodyEq, hchained⟩ := body_of_splitVector hsplit
      have hwhole : ciphertext.length % 16 = 0 := by
        rw [← hlength, hbodyEq, length_body] at hsizes
        omega
      obtain ⟨padding, hcheck, hresult⟩ := Option.bind_eq_some_iff.mp hrest
      obtain ⟨front, more, hfront, rfl, -⟩ := (Padding.check_eq_some (Nat.zero_le _)).mp hcheck
      have hdata : front.length + (more.toNat + 1) = ciphertext.length := by
        rw [← Chaining.length_decrypt vector hwhole, hfront, List.length_append, Padding.length_filler]
      rw [hfront, Padding.length_append_filler_sub, List.take_left] at hresult
      cases hresult
      have hcontent : records.content sequence typeCode version plaintext = plaintext := by
        rw [content, houtside, if_pos rfl]
      have hciphertext : records.ciphertext vector more sequence typeCode version plaintext = ciphertext := by
        rw [CbcRecords.ciphertext, hcontent, ← hfront, Chaining.encrypt_decrypt hcipher vector hwhole]
      refine ⟨vector, more, hchained, by rw [hcontent, hdata, hwhole], ?_, by rw [hciphertext]⟩
      rw [CbcRecords.fragment, hciphertext, houtside, if_pos rfl, ← hbodyEq, htag, hlength, hbody,
        List.take_append_drop]
    · cases h
  · cases h

omit hcipher in
/-- Every vector, where it is not the chain's, and every padding to a whole block is opened, and
nothing else. -/
theorem unprotect_eq_some (hcipher : ∀ block, records.cipher.decrypt (records.cipher.encrypt block) = block) :
    records.unprotect sequence typeCode version fragment = some (plaintext, later) ↔
      ∃ vector more, (∀ chained, records.chained = some chained → chained = vector) ∧
        ((records.content sequence typeCode version plaintext).length + (more.toNat + 1)) % 16 = 0 ∧
        fragment = records.fragment vector more sequence typeCode version plaintext ∧
        later = records.advance (records.ciphertext vector more sequence typeCode version plaintext) := by
  constructor
  · intro h
    rw [unprotect] at h
    split at h
    · next houtside => exact exists_fragment_of_macOutside (BlockCipher.encrypt_decrypt hcipher) houtside h
    · next hinside =>
      exact exists_fragment_of_macInside (BlockCipher.encrypt_decrypt hcipher) (Bool.eq_false_iff.mpr hinside) h
  · rintro ⟨vector, more, hchained, hwhole, rfl, rfl⟩
    exact unprotect_fragment hcipher hwhole hchained

end CbcRecords

/-! ### Contexts in use -/

/-- Ciphers that differ in their places in the chain at most. -/
inductive RecordCipher.Continues : RecordCipher → RecordCipher → Prop where
  | same (cipher : RecordCipher) : Continues cipher cipher
  | moved (records : CbcRecords) {chained : Option Block} (h : chained.isSome = records.chained.isSome) :
      Continues (.cbc records) (.cbc { records with chained := chained })

theorem RecordCipher.Continues.trans {first second third : RecordCipher} (h : first.Continues second)
    (h' : second.Continues third) : first.Continues third := by
  cases h with
  | same => exact h'
  | moved records hsecond =>
    cases h' with
    | same => exact .moved records hsecond
    | moved _ hthird => exact .moved records (hthird.trans hsecond)

theorem RecordCipher.Continues.invertible {first second : RecordCipher} (h : first.Continues second)
    (hfirst : first.Invertible) : second.Invertible := by
  cases h with
  | same => exact hfirst
  | moved => exact hfirst

theorem CbcRecords.continues_advance (records : CbcRecords) (ciphertext : Bytes) :
    (RecordCipher.cbc records).Continues (.cbc (records.advance ciphertext)) :=
  .moved records (by rw [Option.isSome_map])

namespace Protection

/-- The contexts that come of protecting and opening records under the keys of `params`. -/
inductive Reached (params : SecurityParameters) (sender : Role) : Protection → Prop where
  | created {context : Protection} (h : create params sender = .ok context) : Reached params sender context
  | protects {context : Protection} (h : Reached params sender context) (typeCode : UInt8) (version : UInt16)
      (plaintext : Bytes) (entropy : Entropy) :
      Reached params sender (context.protect typeCode version plaintext entropy).2.1
  | unprotects {context : Protection} (h : Reached params sender context) (typeCode : UInt8) (version : UInt16)
      (fragment : Bytes) : Reached params sender (context.unprotect typeCode version fragment).2

theorem protect_continues (context : Protection) (typeCode : UInt8) (version : UInt16) (plaintext : Bytes)
    (entropy : Entropy) :
    (context.protect typeCode version plaintext entropy).2.1.masterSecret = context.masterSecret ∧
      context.cipher.Continues (context.protect typeCode version plaintext entropy).2.1.cipher := by
  obtain ⟨prf, masterSecret, cipher, sequence⟩ := context
  rw [protect]
  split
  · exact ⟨rfl, .same _⟩
  cases cipher with
  | gcm block salt =>
    dsimp only
    split <;> exact ⟨rfl, .same _⟩
  | cbc records => exact ⟨rfl, records.continues_advance _⟩
  | null mac => exact ⟨rfl, .same _⟩

theorem unprotect_continues {context : Protection} (hcipher : context.cipher.Invertible) (typeCode : UInt8)
    (version : UInt16) (fragment : Bytes) :
    context.cipher.Continues (context.unprotect typeCode version fragment).2.cipher := by
  obtain ⟨prf, masterSecret, cipher, sequence⟩ := context
  rw [unprotect]
  split
  · exact .same _
  cases cipher with
  | gcm block salt =>
    dsimp only
    split <;> exact .same _
  | cbc records =>
    dsimp only
    split
    · next plaintext later hopened =>
      obtain ⟨_, _, _, _, _, rfl⟩ := (CbcRecords.unprotect_eq_some hcipher).mp hopened
      exact records.continues_advance _
    · exact .same _
  | null mac =>
    dsimp only
    split <;> exact .same _

theorem sequence_of_unprotect {context later : Protection} {typeCode : UInt8} {version : UInt16}
    {fragment plaintext : Bytes} (h : context.unprotect typeCode version fragment = (.ok plaintext, later)) :
    later.sequence = context.sequence + 1 := by
  obtain ⟨prf, masterSecret, cipher, sequence⟩ := context
  rw [unprotect] at h
  split at h
  · cases h
  cases cipher with
  | _ =>
    dsimp only at h
    split at h <;> cases h
    rfl

theorem Reached.continues {params : SecurityParameters} {sender : Role} {context : Protection}
    (h : Reached params sender context) :
    params.masterSecret = .ok context.masterSecret ∧
      (recordCipher params (params.directionKeys context.masterSecret.bytes sender)).Continues context.cipher := by
  induction h with
  | created h =>
    obtain ⟨masterSecret, hsecret, rfl⟩ := eq_of_create h
    exact ⟨hsecret, .same _⟩
  | @protects context h typeCode version plaintext entropy ih =>
    obtain ⟨hsecret, hcipher⟩ := context.protect_continues typeCode version plaintext entropy
    rw [hsecret]
    exact ⟨ih.1, ih.2.trans hcipher⟩
  | @unprotects context h typeCode version fragment ih =>
    have hcipher : context.cipher.Invertible := ih.2.invertible (invertible_recordCipher _ _)
    rw [(context.unprotect_keeps typeCode version fragment).2]
    exact ⟨ih.1, ih.2.trans (unprotect_continues hcipher typeCode version fragment)⟩

section

variable {params : SecurityParameters} {sender : Role} {context : Protection} (h : context.Begun params sender)
include h

theorem Begun.reached : Reached params sender context := by
  cases h with
  | @opened _ _ typeCode version fragment _ hmade hopened =>
    have hreached := (Reached.created hmade).unprotects typeCode version fragment
    rwa [hopened] at hreached

theorem Begun.invertible : context.cipher.Invertible :=
  h.reached.continues.2.invertible (invertible_recordCipher _ _)

theorem Begun.sequence : context.sequence = 1 := by
  obtain ⟨hmade, hopened⟩ := h
  rw [sequence_of_unprotect hopened]
  obtain ⟨masterSecret, -, rfl⟩ := eq_of_create hmade
  rfl

end

end Protection

/-! ### Headers and tags

What is authenticated is written out here byte by byte, and then found to be what the record protection
computes. -/

/-- What is authenticated in front of the data: the sequence number in eight bytes, the content type, the version
and the length of the data in two bytes each, all of them with the most significant byte first. -/
def authenticatedHeader (sequence : Nat) (typeCode : UInt8) (version : UInt16) (length : Nat) : Bytes :=
  [.ofNat (sequence / 0x100000000000000), .ofNat (sequence / 0x1000000000000), .ofNat (sequence / 0x10000000000),
    .ofNat (sequence / 0x100000000), .ofNat (sequence / 0x1000000), .ofNat (sequence / 0x10000),
    .ofNat (sequence / 0x100), .ofNat sequence, typeCode, .ofNat (version.toNat / 0x100), .ofNat version.toNat,
    .ofNat (length / 0x100), .ofNat length]

theorem macHeader_eq (sequence : Nat) (typeCode : UInt8) (version : UInt16) (length : Nat) :
    macHeader sequence typeCode version length = authenticatedHeader sequence typeCode version length := by
  simp only [macHeader, authenticatedHeader, bigEndian, Nat.div_div_eq_div_mul, List.nil_append, List.cons_append]

/-- The number of bytes of a tag that is not truncated. -/
def MacHash.tagLength : MacHash → Nat
  | sha1 => 20
  | sha256 => 32
  | sha384 => 48

theorem RecordMac.tag_eq (mac : RecordMac) (header data : Bytes) :
    mac.tag header data =
      (mac.hash.function.hmac mac.key (header ++ data)).take (if mac.truncated then 10 else mac.hash.tagLength) := by
  rw [tag, length]
  cases mac.hash <;> rfl

/-! ### Formats -/

namespace SecurityParameters

variable (params : SecurityParameters) (keys : DirectionKeys)

/-- The tag over a record's header and the bytes it covers: their HMAC under the MAC key, of which truncation
leaves ten bytes. -/
def tagOver (hash : MacHash) (sequence : Nat) (typeCode : UInt8) (version : UInt16) (covered : Bytes) : Bytes :=
  (hash.function.hmac keys.macKey (authenticatedHeader sequence typeCode version covered.length ++ covered)).take
    (if params.truncatedHmac then 10 else hash.tagLength)

/-- The tag is the one that the record protection computes. -/
theorem tagOver_eq (hash : MacHash) (sequence : Nat) (typeCode : UInt8) (version : UInt16) (covered : Bytes) :
    params.tagOver keys hash sequence typeCode version covered =
      RecordMac.tag ⟨hash, keys.macKey, params.truncatedHmac⟩ (macHeader sequence typeCode version covered.length)
        covered := by
  rw [RecordMac.tag_eq, macHeader_eq, tagOver]

/-- Data encrypted in a chain of blocks, behind its vector except in TLS 1.0. -/
def chainOf (vector : Block) (data : Bytes) : Bytes :=
  (if params.version = .tls10 then [] else vector.bytes) ++
    Chaining.encrypt (Aes.blockCipher keys.encryptionKey) vector data

/-- The fragments of a plaintext, by the suite. In TLS 1.0 the vector of a chain of blocks is that of the
context. -/
inductive Format (chained : Option Block) (sequence : Nat) (typeCode : UInt8) (version : UInt16) :
    (fragment plaintext : Bytes) → Prop where
  | null {hash : MacHash} (hsuite : params.suite.bulkCipher = .null) (hhash : params.suite.macHash? = some hash)
      (plaintext : Bytes) :
      Format chained sequence typeCode version
        (plaintext ++ params.tagOver keys hash sequence typeCode version plaintext) plaintext
  | macInside {hash : MacHash} (hsuite : params.suite.bulkCipher.isBlockCipher)
      (hhash : params.suite.macHash? = some hash) (hinside : params.encryptThenMac = false) (vector : Block)
      (hvector : params.version = .tls10 → chained = some vector) (more : UInt8) (plaintext : Bytes)
      (hwhole : (plaintext ++ params.tagOver keys hash sequence typeCode version plaintext ++
        Padding.filler more).length % 16 = 0) :
      Format chained sequence typeCode version
        (params.chainOf keys vector
          (plaintext ++ params.tagOver keys hash sequence typeCode version plaintext ++ Padding.filler more)) plaintext
  | macOutside {hash : MacHash} (hsuite : params.suite.bulkCipher.isBlockCipher)
      (hhash : params.suite.macHash? = some hash) (houtside : params.encryptThenMac = true) (vector : Block)
      (hvector : params.version = .tls10 → chained = some vector) (more : UInt8) (plaintext : Bytes)
      (hwhole : (plaintext ++ Padding.filler more).length % 16 = 0) {body : Bytes}
      (hbody : body = params.chainOf keys vector (plaintext ++ Padding.filler more)) :
      Format chained sequence typeCode version (body ++ params.tagOver keys hash sequence typeCode version body) plaintext
  | gcm (hsuite : params.suite.bulkCipher = .aes128Gcm ∨ params.suite.bulkCipher = .aes256Gcm)
      {explicit sealed plaintext : Bytes} (hexplicit : explicit.length = 8)
      (hopened : Gcm.decrypt (Aes.blockCipher keys.encryptionKey) (keys.vector ++ explicit)
        (authenticatedHeader sequence typeCode version plaintext.length) sealed = some plaintext) :
      Format chained sequence typeCode version (explicit ++ sealed) plaintext

theorem length_vector (masterSecret : Bytes) (sender : Role) :
    (params.directionKeys masterSecret sender).vector.length = params.vectorLength := by
  cases sender <;>
    simp only [directionKeys, pairMember, keyBlock, List.length_take, List.length_drop, Prf.length_derive] <;>
    omega

theorem vectorLength_of_isBlockCipher {params : SecurityParameters} (hsuite : params.suite.bulkCipher.isBlockCipher) :
    params.vectorLength = if params.version = .tls10 then 16 else 0 := by
  rw [vectorLength]
  cases hbulk : params.suite.bulkCipher with
  | aes128Cbc | aes256Cbc => rfl
  | _ =>
    rw [hbulk] at hsuite
    cases hsuite

/-- Records start from the vector of the key block in TLS 1.0, and from none later on. -/
theorem isSome_vector (hsuite : params.suite.bulkCipher.isBlockCipher) (masterSecret : Bytes) (sender : Role) :
    (Block.split (params.directionKeys masterSecret sender).vector).head?.isSome ↔ params.version = .tls10 := by
  have hlength := params.length_vector masterSecret sender
  rw [vectorLength_of_isBlockCipher hsuite] at hlength
  split at hlength
  · next hold =>
    obtain ⟨block, hblock⟩ := Block.exists_bytes hlength
    rw [← hblock]
    exact ⟨fun _ => hold, fun _ => rfl⟩
  · next hnew =>
    rw [List.length_eq_zero_iff.mp hlength]
    exact ⟨fun h => (Bool.false_ne_true h).elim, fun h => absurd h hnew⟩

end SecurityParameters

/-! ### What contexts open -/

namespace RecordCipher

/-- The cipher takes the fragment for a record of the plaintext. -/
def Opens (cipher : RecordCipher) (sequence : Nat) (typeCode : UInt8) (version : UInt16) (fragment plaintext : Bytes) :
    Prop :=
  match cipher with
  | .gcm block salt => GcmRecords.unprotect block salt sequence typeCode version fragment = some plaintext
  | .cbc records => ∃ later, records.unprotect sequence typeCode version fragment = some (plaintext, later)
  | .null mac => NullRecords.unprotect mac sequence typeCode version fragment = some plaintext

/-- The vector for the next record, where records are chained. -/
def chained : RecordCipher → Option Block
  | .cbc records => records.chained
  | _ => none

end RecordCipher

section

variable {params : SecurityParameters} {keys : DirectionKeys} {hash : MacHash} {sequence : Nat} {typeCode : UInt8}
  {version : UInt16} {fragment plaintext : Bytes}

/-- The cipher of a block suite somewhere in its chain. -/
def SecurityParameters.cbcRecords (params : SecurityParameters) (keys : DirectionKeys) (hash : MacHash)
    (chained : Option Block) : CbcRecords :=
  ⟨Aes.blockCipher keys.encryptionKey, ⟨hash, keys.macKey, params.truncatedHmac⟩, params.encryptThenMac, chained⟩

section

variable {chained : Option Block} (hchained : chained.isSome ↔ params.version = .tls10)
include hchained

theorem own_vector (vector : Block) :
    (params.version = .tls10 → chained = some vector) ↔ ∀ other, chained = some other → other = vector := by
  cases chained with
  | none =>
    have hnew : params.version ≠ .tls10 := fun hold => absurd (hchained.mpr hold) Bool.false_ne_true
    refine ⟨fun _ other h => ?_, fun _ hold => absurd hold hnew⟩
    cases h
  | some other =>
    have hold : params.version = .tls10 := hchained.mp rfl
    exact ⟨fun h _ hother => (Option.some.inj hother).symm.trans (Option.some.inj (h hold)),
      fun h _ => congrArg some (h other rfl)⟩

theorem chainOf_eq_body (vector : Block) (data : Bytes) :
    params.chainOf keys vector data = (params.cbcRecords keys hash chained).body vector
      (Chaining.encrypt (Aes.blockCipher keys.encryptionKey) vector data) := by
  rw [SecurityParameters.chainOf, CbcRecords.body]
  show _ = if chained.isSome then _ else _
  by_cases hold : params.version = .tls10
  · rw [if_pos hold, if_pos (hchained.mpr hold), List.nil_append]
  · rw [if_neg hold, if_neg (fun h => hold (hchained.mp h))]

omit hchained in
theorem content_inside (hinside : params.encryptThenMac = false) :
    (params.cbcRecords keys hash chained).content sequence typeCode version plaintext =
      plaintext ++ params.tagOver keys hash sequence typeCode version plaintext := by
  have hoption : (params.cbcRecords keys hash chained).encryptThenMac = false := hinside
  rw [CbcRecords.content, hoption, if_neg Bool.false_ne_true, SecurityParameters.tagOver_eq]
  rfl

theorem fragment_inside (hinside : params.encryptThenMac = false) (vector : Block) (more : UInt8) :
    (params.cbcRecords keys hash chained).fragment vector more sequence typeCode version plaintext =
      params.chainOf keys vector
        (plaintext ++ params.tagOver keys hash sequence typeCode version plaintext ++ Padding.filler more) := by
  have hoption : (params.cbcRecords keys hash chained).encryptThenMac = false := hinside
  rw [chainOf_eq_body hchained, CbcRecords.fragment, CbcRecords.ciphertext, content_inside hinside, hoption,
    if_neg Bool.false_ne_true]
  rfl

theorem fragment_outside (houtside : params.encryptThenMac = true) (vector : Block) (more : UInt8) :
    (params.cbcRecords keys hash chained).fragment vector more sequence typeCode version plaintext =
      params.chainOf keys vector (plaintext ++ Padding.filler more) ++
        params.tagOver keys hash sequence typeCode version
          (params.chainOf keys vector (plaintext ++ Padding.filler more)) := by
  have hoption : (params.cbcRecords keys hash chained).encryptThenMac = true := houtside
  rw [chainOf_eq_body hchained, CbcRecords.fragment, CbcRecords.ciphertext, CbcRecords.content, hoption,
    if_pos rfl, if_pos rfl, SecurityParameters.tagOver_eq]
  rfl

/-- A chain of blocks is opened where it has the format of its suite. -/
theorem opens_cbc (hsuite : params.suite.bulkCipher.isBlockCipher) (hhash : params.suite.macHash? = some hash) :
    (RecordCipher.cbc (params.cbcRecords keys hash chained)).Opens sequence typeCode version fragment plaintext ↔
      params.Format keys chained sequence typeCode version fragment plaintext := by
  have hinvertible : ∀ block, (params.cbcRecords keys hash chained).cipher.decrypt
      ((params.cbcRecords keys hash chained).cipher.encrypt block) = block := Aes.decrypt_encrypt _
  have houtside (hoption : params.encryptThenMac = true) :
      (params.cbcRecords keys hash chained).content sequence typeCode version plaintext = plaintext := if_pos hoption
  constructor
  · rintro ⟨later, h⟩
    obtain ⟨vector, more, hown, hwhole, rfl, -⟩ := (CbcRecords.unprotect_eq_some hinvertible).mp h
    have hvector := (own_vector hchained vector).mpr hown
    cases hoption : params.encryptThenMac with
    | true =>
      rw [fragment_outside hchained hoption]
      refine .macOutside hsuite hhash hoption vector hvector more plaintext ?_ rfl
      rwa [List.length_append, Padding.length_filler, ← houtside hoption]
    | false =>
      rw [fragment_inside hchained hoption]
      refine .macInside hsuite hhash hoption vector hvector more plaintext ?_
      rwa [List.length_append, Padding.length_filler, ← content_inside hoption]
  · intro h
    cases h with
    | null hnull hother plaintext =>
      rw [hnull] at hsuite
      cases hsuite
    | gcm hgcm hexplicit hopened =>
      rcases hgcm with hgcm | hgcm
      all_goals
        rw [hgcm] at hsuite
        cases hsuite
    | @macInside other _ hother hoption vector hvector more plaintext hwhole =>
      obtain rfl : hash = other := Option.some.inj (hhash.symm.trans hother)
      refine ⟨_, (CbcRecords.unprotect_eq_some hinvertible).mpr ⟨vector, more, (own_vector hchained vector).mp hvector, ?_,
        (fragment_inside hchained hoption vector more).symm, rfl⟩⟩
      rwa [content_inside hoption, ← Padding.length_filler, ← List.length_append]
    | @macOutside other _ hother hoption vector hvector more plaintext hwhole body hbody =>
      obtain rfl : hash = other := Option.some.inj (hhash.symm.trans hother)
      subst hbody
      refine ⟨_, (CbcRecords.unprotect_eq_some hinvertible).mpr ⟨vector, more, (own_vector hchained vector).mp hvector, ?_,
        (fragment_outside hchained hoption vector more).symm, rfl⟩⟩
      rwa [houtside hoption, ← Padding.length_filler, ← List.length_append]

end

theorem opens_gcm (hhash : params.suite.macHash? = none) :
    (RecordCipher.gcm (Aes.blockCipher keys.encryptionKey) keys.vector).Opens sequence typeCode version fragment
        plaintext ↔
      params.Format keys none sequence typeCode version fragment plaintext := by
  constructor
  · intro h
    obtain ⟨explicit, sealed, hexplicit, rfl, hopened⟩ := GcmRecords.unprotect_eq_some.mp h
    have hsuite : params.suite.bulkCipher = .aes128Gcm ∨ params.suite.bulkCipher = .aes256Gcm := by
      revert hhash
      cases params.suite <;> decide
    rw [macHeader_eq] at hopened
    exact .gcm hsuite hexplicit hopened
  · intro h
    cases h with
    | gcm _ hexplicit hopened =>
      rw [← macHeader_eq] at hopened
      exact GcmRecords.unprotect_eq_some.mpr ⟨_, _, hexplicit, rfl, hopened⟩
    | null _ hother | macInside _ hother | macOutside _ hother => cases hhash.symm.trans hother

theorem opens_null (hhash : params.suite.macHash? = some hash) (hsuite : params.suite.bulkCipher = .null) :
    (RecordCipher.null ⟨hash, keys.macKey, params.truncatedHmac⟩).Opens sequence typeCode version fragment
        plaintext ↔
      params.Format keys none sequence typeCode version fragment plaintext := by
  constructor
  · intro h
    rw [NullRecords.unprotect_eq_some.mp h, ← params.tagOver_eq keys]
    exact .null hsuite hhash plaintext
  · intro h
    cases h with
    | null _ hother =>
      obtain rfl := Option.some.inj (hhash.symm.trans hother)
      exact NullRecords.unprotect_eq_some.mpr (congrArg (plaintext ++ ·) (params.tagOver_eq ..))
    | macInside hblock | macOutside hblock =>
      rw [hsuite] at hblock
      cases hblock
    | gcm hgcm =>
      rw [hsuite] at hgcm
      cases hgcm <;> contradiction

/-- A cipher of these keys, wherever it is in its chain, opens what has the format. -/
theorem opens_of_continues {cipher : RecordCipher}
    (hvector : params.suite.bulkCipher.isBlockCipher →
      ((Block.split keys.vector).head?.isSome ↔ params.version = .tls10))
    (h : (Protection.recordCipher params keys).Continues cipher) :
    cipher.Opens sequence typeCode version fragment plaintext ↔
      params.Format keys cipher.chained sequence typeCode version fragment plaintext := by
  rw [Protection.recordCipher] at h
  split at h
  · next hhash =>
    cases h
    exact opens_gcm hhash
  · next hash hhash =>
    dsimp only at h
    split at h
    · next hsuite =>
      cases h with
      | same => exact opens_cbc (hvector hsuite) hsuite hhash
      | @moved _ chained hchained =>
        have hown : chained.isSome ↔ params.version = .tls10 := by
          rw [hchained]
          exact hvector hsuite
        exact opens_cbc hown hsuite hhash
    · next hsuite =>
      cases h
      have hnull : params.suite.bulkCipher = .null := by
        revert hhash hsuite
        cases params.suite <;> simp [CipherSuite.macHash?, CipherSuite.bulkCipher, BulkCipher.isBlockCipher]
      exact opens_null hhash hnull

end

namespace Protection

theorem unprotect_cases {context : Protection} (hsequence : context.sequence < sequenceBound) (typeCode : UInt8)
    (version : UInt16) (fragment : Bytes) :
    (∀ plaintext, (context.unprotect typeCode version fragment).1 = .ok plaintext ↔
      context.cipher.Opens context.sequence typeCode version fragment plaintext) ∧
    ((∀ plaintext, ¬ context.cipher.Opens context.sequence typeCode version fragment plaintext) →
      (context.unprotect typeCode version fragment).1 = .error .badRecordMac) := by
  obtain ⟨prf, masterSecret, cipher, sequence⟩ := context
  simp only [unprotect, if_neg (Nat.not_le.mpr hsequence), RecordCipher.Opens]
  cases cipher with
  | gcm block salt => cases hopened : GcmRecords.unprotect block salt sequence typeCode version fragment <;> simp [hopened]
  | cbc records => cases hopened : records.unprotect sequence typeCode version fragment <;> simp [hopened, Prod.ext_iff]
  | null mac => cases hopened : NullRecords.unprotect mac sequence typeCode version fragment <;> simp [hopened]

/-- A context opens the fragments that have the format of its suite under its keys, its sequence number
and its chain, to the plaintexts they are made of, and takes every other one for a bad record MAC; none
makes it look outside of the fragment. -/
theorem unprotect_iff_format {params : SecurityParameters} {sender : Role} {context : Protection}
    (hreached : Reached params sender context) (hsequence : context.sequence < sequenceBound) :
    ∃ masterSecret, params.masterSecret = .ok masterSecret ∧ ∀ typeCode version fragment,
      (∀ plaintext, (context.unprotect typeCode version fragment).1 = .ok plaintext ↔
        params.Format (params.directionKeys masterSecret.bytes sender) context.cipher.chained context.sequence typeCode
          version fragment plaintext) ∧
      ((∀ plaintext, ¬ params.Format (params.directionKeys masterSecret.bytes sender) context.cipher.chained
          context.sequence typeCode version fragment plaintext) →
        (context.unprotect typeCode version fragment).1 = .error .badRecordMac) ∧
      Ranged.unprotect context typeCode version fragment = some (context.unprotect typeCode version fragment) := by
  obtain ⟨hsecret, hcontinues⟩ := hreached.continues
  refine ⟨context.masterSecret, hsecret, fun typeCode version fragment => ?_⟩
  have hopens (plaintext : Bytes) := @opens_of_continues params _ context.sequence typeCode version fragment plaintext _
    (fun hsuite => params.isSome_vector hsuite context.masterSecret.bytes sender) hcontinues
  obtain ⟨hok, hbad⟩ := unprotect_cases hsequence typeCode version fragment
  refine ⟨fun plaintext => (hok plaintext).trans (hopens plaintext), fun hnone => hbad fun plaintext h => ?_,
    Ranged.unprotect_eq context typeCode version fragment⟩
  exact hnone plaintext ((hopens plaintext).mp h)

theorem unprotect_iff_format_chained :
    ∃ context, Reached chainedParameters .client context ∧ context.sequence < sequenceBound ∧
      ∃ masterSecret, chainedParameters.masterSecret = .ok masterSecret ∧ ∀ typeCode version fragment,
        (∀ plaintext, (context.unprotect typeCode version fragment).1 = .ok plaintext ↔
          chainedParameters.Format (chainedParameters.directionKeys masterSecret.bytes .client) context.cipher.chained
            context.sequence typeCode version fragment plaintext) ∧
        ((∀ plaintext, ¬ chainedParameters.Format (chainedParameters.directionKeys masterSecret.bytes .client)
            context.cipher.chained context.sequence typeCode version fragment plaintext) →
          (context.unprotect typeCode version fragment).1 = .error .badRecordMac) ∧
        Ranged.unprotect context typeCode version fragment = some (context.unprotect typeCode version fragment) := by
  obtain ⟨context, hcontext⟩ := @exists_create chainedParameters (by decide) (by decide) .client
  have hreached : Reached chainedParameters .client context := .created hcontext
  have hsequence := sequence_lt_of_create hcontext
  exact ⟨context, hreached, hsequence, unprotect_iff_format hreached hsequence⟩

end Protection

end PresharedTls
