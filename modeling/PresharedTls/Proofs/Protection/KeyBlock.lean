import PresharedTls.Proofs.Protection.Format
import PresharedTls.Proofs.Protection.Secrets

/-!
# The key block and the contexts made of it

A key block holds six parts side by side, a MAC key, an encryption key and a vector for each direction, and nothing
else. Each part has just the length that is taken where it is used, so of the steps that make a context out of them
none fails: whether there is a context depends on the version and on the length of the shared key alone.
-/

namespace PresharedTls

/-! ### Places in the block -/

/-- The kinds of key material, in the order in which a key block holds them. -/
inductive KeyKind where
  | mac
  | encryption
  | vector

def DirectionKeys.part (keys : DirectionKeys) : KeyKind → Bytes
  | .mac => keys.macKey
  | .encryption => keys.encryptionKey
  | .vector => keys.vector

namespace SecurityParameters

variable (params : SecurityParameters)

/-- How many bytes of a kind each direction has. -/
def partLength : KeyKind → Nat
  | .mac => params.macKeyLength
  | .encryption => params.encryptionKeyLength
  | .vector => params.vectorLength

/-- Where the parts of a kind begin, of which the client's is the first. -/
def kindStart : KeyKind → Nat
  | .mac => 0
  | .encryption => 2 * params.macKeyLength
  | .vector => 2 * params.macKeyLength + 2 * params.encryptionKeyLength

def partStart (kind : KeyKind) : Role → Nat
  | .client => params.kindStart kind
  | .server => params.kindStart kind + params.partLength kind

def blockLength : Nat :=
  2 * (params.macKeyLength + params.encryptionKeyLength + params.vectorLength)

theorem length_keyBlock (masterSecret : Bytes) : (params.keyBlock masterSecret).length = params.blockLength :=
  Prf.length_derive _ _ _ _ _

theorem kindStart_le (kind : KeyKind) : params.kindStart kind + 2 * params.partLength kind ≤ params.blockLength := by
  cases kind <;> simp only [kindStart, partLength, blockLength] <;> omega

theorem partStart_le (kind : KeyKind) (sender : Role) :
    params.partStart kind sender + params.partLength kind ≤ params.blockLength := by
  have hkind := params.kindStart_le kind
  cases sender <;> simp only [partStart] <;> omega

theorem part_directionKeys (masterSecret : Bytes) (kind : KeyKind) (sender : Role) :
    (params.directionKeys masterSecret sender).part kind =
      ((params.keyBlock masterSecret).drop (params.partStart kind sender)).take (params.partLength kind) := by
  cases kind <;> cases sender <;> simp [directionKeys, DirectionKeys.part, pairMember, partStart, kindStart, partLength]

theorem length_part (masterSecret : Bytes) (kind : KeyKind) (sender : Role) :
    ((params.directionKeys masterSecret sender).part kind).length = params.partLength kind := by
  have hwithin := params.partStart_le kind sender
  rw [part_directionKeys, List.length_take, List.length_drop, length_keyBlock]
  omega

theorem length_macKey (masterSecret : Bytes) (sender : Role) :
    (params.directionKeys masterSecret sender).macKey.length =
      match params.suite.macHash? with
      | some hash => hash.outputLength
      | none => 0 := by
  have hlength : (params.directionKeys masterSecret sender).macKey.length = params.macKeyLength :=
    params.length_part masterSecret .mac sender
  rw [hlength, macKeyLength]
  cases params.suite.macHash? <;> rfl

theorem length_encryptionKey (masterSecret : Bytes) (sender : Role) :
    (params.directionKeys masterSecret sender).encryptionKey.length =
      match params.suite.bulkCipher with
      | .aes128Cbc | .aes128Gcm => 16
      | .aes256Cbc | .aes256Gcm => 32
      | .null => 0 := by
  have hlength : (params.directionKeys masterSecret sender).encryptionKey.length = params.encryptionKeyLength :=
    params.length_part masterSecret .encryption sender
  rw [hlength, encryptionKeyLength]
  cases params.suite.bulkCipher <;> rfl

/-- The parts of one kind are side by side. -/
theorem parts_append (masterSecret : Bytes) (kind : KeyKind) :
    (params.directionKeys masterSecret .client).part kind ++ (params.directionKeys masterSecret .server).part kind =
      ((params.keyBlock masterSecret).drop (params.kindStart kind)).take (2 * params.partLength kind) := by
  rw [part_directionKeys, part_directionKeys, partStart, partStart, Nat.two_mul, List.take_add, List.drop_drop]

/-- All parts, kind after kind and the client's first, are the block. -/
theorem parts_eq_keyBlock (masterSecret : Bytes) :
    (params.directionKeys masterSecret .client).macKey ++ (params.directionKeys masterSecret .server).macKey ++
      (params.directionKeys masterSecret .client).encryptionKey ++
      (params.directionKeys masterSecret .server).encryptionKey ++
      (params.directionKeys masterSecret .client).vector ++ (params.directionKeys masterSecret .server).vector =
    params.keyBlock masterSecret := by
  have hmac := params.parts_append masterSecret .mac
  have hencryption := params.parts_append masterSecret .encryption
  have hvector := params.parts_append masterSecret .vector
  have hlength := params.length_keyBlock masterSecret
  simp only [DirectionKeys.part, kindStart, partLength, List.drop_zero] at hmac hencryption hvector
  rw [List.append_assoc _ _ (params.directionKeys masterSecret .server).vector, hvector,
    List.append_assoc _ _ (params.directionKeys masterSecret .server).encryptionKey, hencryption, hmac,
    ← List.take_add, ← List.take_add]
  apply List.take_of_length_le
  rw [hlength, blockLength]
  omega

/-- The byte at `i` belongs to a part. -/
def Covers (kind : KeyKind) (sender : Role) (i : Nat) : Prop :=
  params.partStart kind sender ≤ i ∧ i < params.partStart kind sender + params.partLength kind

/-- The byte at `i` belongs to one of the two parts of a kind. -/
def CoversBoth (kind : KeyKind) (i : Nat) : Prop :=
  params.kindStart kind ≤ i ∧ i < params.kindStart kind + 2 * params.partLength kind

variable {params} {i : Nat}

theorem exists_coversBoth (h : i < params.blockLength) : ∃ kind, params.CoversBoth kind i := by
  rw [blockLength] at h
  by_cases hmac : i < 2 * params.macKeyLength
  · exact ⟨.mac, Nat.zero_le _, by simpa only [kindStart, partLength, Nat.zero_add] using hmac⟩
  by_cases hencryption : i < 2 * params.macKeyLength + 2 * params.encryptionKeyLength
  · exact ⟨.encryption, Nat.le_of_not_lt hmac, hencryption⟩
  · refine ⟨.vector, Nat.le_of_not_lt hencryption, ?_⟩
    simp only [kindStart, partLength]
    omega

theorem CoversBoth.unique {kind other : KeyKind} (h : params.CoversBoth kind i) (h' : params.CoversBoth other i) :
    kind = other := by
  cases kind <;> cases other <;> simp only [CoversBoth, kindStart, partLength, reduceCtorEq] at h h' ⊢ <;> omega

theorem Covers.both {kind : KeyKind} {sender : Role} (h : params.Covers kind sender i) : params.CoversBoth kind i := by
  cases sender <;> simp only [Covers, CoversBoth, partStart] at h ⊢ <;> omega

theorem CoversBoth.exists_covers {kind : KeyKind} (h : params.CoversBoth kind i) :
    ∃ sender, params.Covers kind sender i := by
  obtain ⟨hstart, hstop⟩ := h
  by_cases hclient : i < params.kindStart kind + params.partLength kind
  · exact ⟨.client, hstart, hclient⟩
  · refine ⟨.server, Nat.le_of_not_lt hclient, ?_⟩
    rw [partStart]
    omega

/-- Every byte of the block belongs to one part, and to no other. -/
theorem existsUnique_covers (h : i < params.blockLength) :
    ∃! place : KeyKind × Role, params.Covers place.1 place.2 i := by
  obtain ⟨kind, hkind⟩ := exists_coversBoth h
  obtain ⟨sender, hcovers⟩ := hkind.exists_covers
  refine ⟨(kind, sender), hcovers, ?_⟩
  rintro ⟨kind', sender'⟩ hother
  obtain rfl : kind' = kind := hother.both.unique hkind
  cases sender <;> cases sender' <;>
    simp only [Covers, partStart, Prod.mk.injEq, reduceCtorEq, and_false] at hcovers hother ⊢ <;> omega

end SecurityParameters

/-! ### Steps that can fail -/

namespace Ranged

/-- AES under a key that has to have `size` bytes. -/
def aes (size : Nat) (key : Bytes) : Except AlertDescription BlockCipher :=
  if key.length = size then .ok (Aes.blockCipher key) else .error .internalError

/-- The cipher of a chain of blocks, which there has to be for the suite. -/
def chainCipher (bulk : BulkCipher) (key : Bytes) : Except AlertDescription BlockCipher :=
  match bulk with
  | .aes128Cbc => aes 16 key
  | .aes256Cbc => aes 32 key
  | _ => .error .internalError

/-- The part of a GCM nonce that is not sent, which has to have four bytes. -/
def salt (vector : Bytes) : Except AlertDescription Bytes :=
  if vector.length = 4 then .ok vector else .error .internalError

/-- The vector to start a chain with, if there is just one block. -/
def firstVector (vector : Bytes) : Option Block :=
  if vector.length = Block.size then some (Block.ofBytes vector) else none

def recordCipher (params : SecurityParameters) (keys : DirectionKeys) : Except AlertDescription RecordCipher :=
  let mac? : Option RecordMac := params.suite.macHash?.map fun hash => ⟨hash, keys.macKey, params.truncatedHmac⟩
  match params.suite.bulkCipher, mac? with
  | .aes128Gcm, _ => do
    let cipher ← aes 16 keys.encryptionKey
    return .gcm cipher (← salt keys.vector)
  | .aes256Gcm, _ => do
    let cipher ← aes 32 keys.encryptionKey
    return .gcm cipher (← salt keys.vector)
  | .null, some mac => .ok (.null mac)
  | bulk, some mac => do
    let cipher ← chainCipher bulk keys.encryptionKey
    return .cbc ⟨cipher, mac, params.encryptThenMac, firstVector keys.vector⟩
  | _, none => .error .internalError

def part (params : SecurityParameters) (masterSecret : Bytes) (kind : KeyKind) (sender : Role) : Option Bytes :=
  slice (params.keyBlock masterSecret) (params.partStart kind sender)
    (params.partStart kind sender + params.partLength kind)

def directionKeys (params : SecurityParameters) (masterSecret : Bytes) (sender : Role) : Option DirectionKeys := do
  let macKey ← part params masterSecret .mac sender
  let encryptionKey ← part params masterSecret .encryption sender
  let vector ← part params masterSecret .vector sender
  return ⟨macKey, encryptionKey, vector⟩

/-- A context by way of the steps that can fail, or nothing where a part is out of the block. -/
def create (params : SecurityParameters) (sender : Role) : Option (Except AlertDescription Protection) :=
  if params.version < params.suite.minimumVersion then some (.error .illegalParameter)
  else
    match params.masterSecret with
    | .error alert => some (.error alert)
    | .ok masterSecret => do
      let keys ← directionKeys params masterSecret.bytes sender
      return (recordCipher params keys).map fun cipher => ⟨params.prf, masterSecret, cipher, 0⟩

theorem part_eq (params : SecurityParameters) (masterSecret : Bytes) (kind : KeyKind) (sender : Role) :
    part params masterSecret kind sender = some ((params.directionKeys masterSecret sender).part kind) := by
  have hwithin := params.partStart_le kind sender
  rw [← params.length_keyBlock masterSecret] at hwithin
  rw [part, slice_add hwithin, params.part_directionKeys]

theorem directionKeys_eq (params : SecurityParameters) (masterSecret : Bytes) (sender : Role) :
    directionKeys params masterSecret sender = some (params.directionKeys masterSecret sender) := by
  rw [directionKeys, part_eq, some_bind, part_eq, some_bind, part_eq, some_bind]
  rfl

theorem aes_of_length {size : Nat} {key : Bytes} (h : key.length = size) : aes size key = .ok (Aes.blockCipher key) :=
  if_pos h

theorem salt_of_length {vector : Bytes} (h : vector.length = 4) : salt vector = .ok vector :=
  if_pos h

theorem firstVector_eq {vector : Bytes} (h : vector.length = 16 ∨ vector.length = 0) :
    firstVector vector = (Block.split vector).head? := by
  rcases h with hblock | hempty
  · obtain ⟨block, rfl⟩ := Block.exists_bytes hblock
    rfl
  · rw [List.length_eq_zero_iff.mp hempty]
    rfl

/-- With keys of the right lengths every step succeeds. -/
theorem recordCipher_eq {params : SecurityParameters} {keys : DirectionKeys}
    (hkey : keys.encryptionKey.length = params.encryptionKeyLength) (hvector : keys.vector.length = params.vectorLength) :
    recordCipher params keys = .ok (Protection.recordCipher params keys) := by
  have hfirst (hsuite : params.suite.bulkCipher.isBlockCipher) :
      firstVector keys.vector = (Block.split keys.vector).head? := by
    apply firstVector_eq
    rw [hvector, SecurityParameters.vectorLength_of_isBlockCipher hsuite]
    split
    · exact .inl rfl
    · exact .inr rfl
  obtain ⟨version, suite, clientRandom, serverRandom, key, encryptThenMac, truncatedHmac⟩ := params
  cases suite with
  | aes128GcmSha256 | aes256GcmSha384 =>
    have hcipher := aes_of_length hkey
    have hsalt := salt_of_length hvector
    simp only [SecurityParameters.encryptionKeyLength, CipherSuite.bulkCipher, BulkCipher.keyLength] at hcipher
    simp only [recordCipher, CipherSuite.bulkCipher, hcipher, hsalt]
    rfl
  | aes128CbcSha | aes256CbcSha | aes128CbcSha256 | aes256CbcSha384 =>
    have hcipher := aes_of_length hkey
    simp only [SecurityParameters.encryptionKeyLength, CipherSuite.bulkCipher, BulkCipher.keyLength] at hcipher
    simp only [recordCipher, CipherSuite.bulkCipher, CipherSuite.macHash?, Option.map_some, chainCipher, hcipher,
      hfirst rfl]
    rfl
  | nullSha256 | nullSha384 => rfl

/-- Every part is in the block and every step succeeds. -/
theorem create_eq (params : SecurityParameters) (sender : Role) :
    create params sender = some (Protection.create params sender) := by
  rw [create, Protection.create]
  split
  · rfl
  · cases params.masterSecret with
    | error alert => rfl
    | ok masterSecret =>
      have hkey := params.length_part masterSecret.bytes .encryption sender
      have hvector := params.length_part masterSecret.bytes .vector sender
      dsimp only
      rw [directionKeys_eq, some_bind, recordCipher_eq hkey hvector]
      rfl

end Ranged

/-! ### Contexts -/

theorem Version.tls10_lt_iff {version : Version} : .tls10 < version ↔ version ≠ .tls10 := by
  cases version <;> decide

namespace SecurityParameters

variable (params : SecurityParameters)

/-- The cipher that guards the first record under the keys, by the suite and the version. -/
inductive Initial (keys : DirectionKeys) : RecordCipher → Prop where
  | gcm (hsuite : params.suite.bulkCipher = .aes128Gcm ∨ params.suite.bulkCipher = .aes256Gcm) :
      Initial keys (.gcm (Aes.blockCipher keys.encryptionKey) keys.vector)
  | chained {hash : MacHash} (hsuite : params.suite.bulkCipher = .aes128Cbc ∨ params.suite.bulkCipher = .aes256Cbc)
      (hhash : params.suite.macHash? = some hash) (hold : params.version = .tls10) {first : Block}
      (hfirst : first.bytes = keys.vector) : Initial keys (.cbc (params.cbcRecords keys hash (some first)))
  | explicit {hash : MacHash} (hsuite : params.suite.bulkCipher = .aes128Cbc ∨ params.suite.bulkCipher = .aes256Cbc)
      (hhash : params.suite.macHash? = some hash) (hnew : .tls10 < params.version) :
      Initial keys (.cbc (params.cbcRecords keys hash none))
  | null {hash : MacHash} (hsuite : params.suite.bulkCipher = .null) (hhash : params.suite.macHash? = some hash) :
      Initial keys (.null ⟨hash, keys.macKey, params.truncatedHmac⟩)

theorem initial_recordCipher {keys : DirectionKeys} (hvector : keys.vector.length = params.vectorLength) :
    params.Initial keys (Protection.recordCipher params keys) := by
  rw [Protection.recordCipher]
  cases hhash : params.suite.macHash? with
  | none =>
    apply Initial.gcm
    revert hhash
    cases params.suite <;> decide
  | some hash =>
    dsimp only
    split
    · next hblock =>
      have hsuite : params.suite.bulkCipher = .aes128Cbc ∨ params.suite.bulkCipher = .aes256Cbc := by
        revert hblock
        cases params.suite <;> decide
      rw [vectorLength_of_isBlockCipher hblock] at hvector
      split at hvector
      · next hold =>
        obtain ⟨first, hfirst⟩ := Block.exists_bytes hvector
        rw [← hfirst]
        exact .chained hsuite hhash hold hfirst
      · next hnew =>
        rw [List.length_eq_zero_iff.mp hvector]
        exact .explicit hsuite hhash (Version.tls10_lt_iff.mpr hnew)
    · next hstream =>
      refine .null ?_ hhash
      revert hhash hstream
      cases params.suite <;> simp [CipherSuite.macHash?, CipherSuite.bulkCipher, BulkCipher.isBlockCipher]

variable {params}

/-- Vectors go with the records of a suite with a chain of blocks from TLS 1.1 on. -/
theorem Initial.explicit_iff {keys : DirectionKeys} {cipher : RecordCipher} (h : params.Initial keys cipher) :
    (∃ records, cipher = .cbc records ∧ records.chained = none) ↔
      (params.suite.bulkCipher = .aes128Cbc ∨ params.suite.bulkCipher = .aes256Cbc) ∧ .tls10 < params.version := by
  cases h with
  | gcm hsuite =>
    rcases hsuite with hsuite | hsuite
    all_goals simp [hsuite]
  | chained hsuite hhash hold hfirst =>
    have hnot : ¬ .tls10 < params.version := fun hnew => Version.tls10_lt_iff.mp hnew hold
    simp [cbcRecords, hnot]
  | explicit hsuite hhash hnew => simp [cbcRecords, hsuite, hnew]
  | null hsuite => simp [hsuite]

end SecurityParameters

namespace Protection

variable {params : SecurityParameters} {sender : Role}

theorem create_of_old (h : params.version < params.suite.minimumVersion) :
    create params sender = .error .illegalParameter := by
  rw [create, if_pos h]
  rfl

theorem create_of_long (hversion : ¬ params.version < params.suite.minimumVersion) (hkey : 65535 < params.key.length) :
    create params sender = .error .internalError := by
  have hlong : ¬ params.key.length < 65536 := by omega
  simp only [create, if_neg hversion, SecurityParameters.masterSecret, premasterSecret, if_neg hlong]
  rfl

/-- Both directions have the same master secret. -/
theorem exists_initial (hversion : ¬ params.version < params.suite.minimumVersion) (hkey : params.key.length ≤ 65535) :
    ∃ masterSecret, params.masterSecret = .ok masterSecret ∧ ∀ sender, ∃ cipher,
      create params sender = .ok ⟨params.prf, masterSecret, cipher, 0⟩ ∧
      params.Initial (params.directionKeys masterSecret.bytes sender) cipher := by
  have hmade := exists_create (UInt16.not_lt.mp hversion) (Nat.lt_succ_of_le hkey)
  obtain ⟨client, hclient⟩ := hmade .client
  obtain ⟨masterSecret, hsecret, -⟩ := eq_of_create hclient
  refine ⟨masterSecret, hsecret, fun sender => ?_⟩
  obtain ⟨context, hcontext⟩ := hmade sender
  obtain ⟨other, hother, rfl⟩ := eq_of_create hcontext
  obtain rfl : masterSecret = other := Except.ok.inj (hsecret.symm.trans hother)
  exact ⟨_, hcontext, params.initial_recordCipher (params.length_vector masterSecret.bytes sender)⟩

/-- There are three outcomes, and the parameters say which one it is. -/
theorem create_cases (params : SecurityParameters) (sender : Role) :
    params.version < params.suite.minimumVersion ∧ create params sender = .error .illegalParameter ∨
    ¬ params.version < params.suite.minimumVersion ∧ 65535 < params.key.length ∧
      create params sender = .error .internalError ∨
    ¬ params.version < params.suite.minimumVersion ∧ params.key.length ≤ 65535 ∧
      ∃ context, create params sender = .ok context := by
  by_cases hversion : params.version < params.suite.minimumVersion
  · exact .inl ⟨hversion, create_of_old hversion⟩
  by_cases hkey : params.key.length ≤ 65535
  · exact .inr (.inr ⟨hversion, hkey, exists_create (UInt16.not_lt.mp hversion) (Nat.lt_succ_of_le hkey) sender⟩)
  · have hlong : 65535 < params.key.length := Nat.lt_of_not_le hkey
    exact .inr (.inl ⟨hversion, hlong, create_of_long hversion hlong⟩)

theorem create_eq_illegalParameter_iff :
    create params sender = .error .illegalParameter ↔ params.version < params.suite.minimumVersion := by
  rcases create_cases params sender with ⟨hold, h⟩ | ⟨hnew, -, h⟩ | ⟨hnew, -, context, h⟩
  · simp [h, hold]
  · simp [h, hnew]
  · simp [h, hnew]

theorem create_eq_internalError_iff :
    create params sender = .error .internalError ↔
      ¬ params.version < params.suite.minimumVersion ∧ 65535 < params.key.length := by
  rcases create_cases params sender with ⟨hold, h⟩ | ⟨hnew, hlong, h⟩ | ⟨hnew, hfits, context, h⟩
  · simp [h, hold]
  · simp [h, hnew, hlong]
  · simp [h, Nat.not_lt.mpr hfits]

theorem explicit_iff_of_create {context : Protection} (h : create params sender = .ok context) :
    context.sequence = 0 ∧ ((∃ records, context.cipher = .cbc records ∧ records.chained = none) ↔
      (params.suite.bulkCipher = .aes128Cbc ∨ params.suite.bulkCipher = .aes256Cbc) ∧ .tls10 < params.version) := by
  obtain ⟨masterSecret, -, rfl⟩ := eq_of_create h
  exact ⟨rfl, (params.initial_recordCipher (params.length_vector masterSecret.bytes sender)).explicit_iff⟩

end Protection

/-! ### All of it -/

namespace SecurityParameters

variable (params : SecurityParameters)

/-- A key block that is divided among the two directions. -/
structure Divides (masterSecret : Bytes) : Prop where
  whole :
    (params.directionKeys masterSecret .client).macKey ++ (params.directionKeys masterSecret .server).macKey ++
      (params.directionKeys masterSecret .client).encryptionKey ++
      (params.directionKeys masterSecret .server).encryptionKey ++
      (params.directionKeys masterSecret .client).vector ++ (params.directionKeys masterSecret .server).vector =
    params.prf.derive masterSecret (ascii "key expansion") (params.serverRandom.bytes ++ params.clientRandom.bytes)
      params.blockLength
  /-- Each part is cut out of the block at its place. -/
  part : ∀ kind sender, Ranged.slice (params.keyBlock masterSecret) (params.partStart kind sender)
    (params.partStart kind sender + params.partLength kind) = some ((params.directionKeys masterSecret sender).part kind)
  /-- No two places overlap, and no byte of the block is left over. -/
  apart : ∀ i < params.blockLength, ∃! place : KeyKind × Role, params.Covers place.1 place.2 i
  macKey : ∀ sender, (params.directionKeys masterSecret sender).macKey.length =
    match params.suite.macHash? with
    | some hash => hash.outputLength
    | none => 0
  encryptionKey : ∀ sender, (params.directionKeys masterSecret sender).encryptionKey.length =
    match params.suite.bulkCipher with
    | .aes128Cbc | .aes128Gcm => 16
    | .aes256Cbc | .aes256Gcm => 32
    | .null => 0
  vector : ∀ sender, (params.directionKeys masterSecret sender).vector.length =
    match params.suite.bulkCipher with
    | .aes128Gcm | .aes256Gcm => 4
    | .aes128Cbc | .aes256Cbc => if params.version = .tls10 then 16 else 0
    | .null => 0

/-- Contexts that are made wherever version and key allow it. -/
structure Equips : Prop where
  /-- The secret that the key block comes from is expanded out of the key and the randoms of both hellos. -/
  masterSecret_iff : ∀ masterSecret, params.masterSecret = .ok masterSecret ↔
    params.key.length ≤ 65535 ∧ masterSecret.bytes = params.expandedKey
  refuses_version_iff : ∀ sender, Protection.create params sender = .error .illegalParameter ↔
    params.version < params.suite.minimumVersion
  refuses_key_iff : ∀ sender, Protection.create params sender = .error .internalError ↔
    ¬ params.version < params.suite.minimumVersion ∧ 65535 < params.key.length
  creates : ¬ params.version < params.suite.minimumVersion → params.key.length ≤ 65535 →
    ∃ masterSecret, params.masterSecret = .ok masterSecret ∧ ∀ sender, ∃ cipher,
      Protection.create params sender = .ok ⟨params.prf, masterSecret, cipher, 0⟩ ∧
      params.Initial (params.directionKeys masterSecret.bytes sender) cipher
  /-- No step on the way to a context can fail apart from these two, and no part is out of the block. -/
  attempted : ∀ sender, Ranged.create params sender = some (Protection.create params sender)
  explicit_iff : ∀ sender context, Protection.create params sender = .ok context → context.sequence = 0 ∧
    ((∃ records, context.cipher = .cbc records ∧ records.chained = none) ↔
      (params.suite.bulkCipher = .aes128Cbc ∨ params.suite.bulkCipher = .aes256Cbc) ∧ .tls10 < params.version)
  verifyData_eq : ∀ client server, Protection.create params .client = .ok client →
    Protection.create params .server = .ok server → client.verifyData = server.verifyData

/-- **The key block is divided without overlap or rest, and contexts are made of it unless the version or the key
forbids it.** -/
theorem divides_and_equips : (∀ masterSecret, params.Divides masterSecret) ∧ params.Equips where
  left masterSecret :=
    { whole := params.parts_eq_keyBlock masterSecret
      part := Ranged.part_eq params masterSecret
      apart := fun _ h => existsUnique_covers h
      macKey := params.length_macKey masterSecret
      encryptionKey := params.length_encryptionKey masterSecret
      vector := params.length_vector masterSecret }
  right :=
    { masterSecret_iff := fun _ => masterSecret_eq_ok_iff
      refuses_version_iff := fun _ => Protection.create_eq_illegalParameter_iff
      refuses_key_iff := fun _ => Protection.create_eq_internalError_iff
      creates := Protection.exists_initial
      attempted := Ranged.create_eq params
      explicit_iff := fun _ _ h => Protection.explicit_iff_of_create h
      verifyData_eq := fun _ _ hclient hserver => by
        funext role said
        exact Protection.verifyData_of_create hclient hserver role said }

end SecurityParameters

end PresharedTls
