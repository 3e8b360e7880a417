import PresharedTls.Proofs.Protection.Aes
import PresharedTls.Session

/-!
# Records are opened as they were protected

What one end protects, the other end opens to the same plaintext, and both are left with the same
context: keys, chain and sequence number. It takes a block cipher whose decryption undoes its
encryption, which AES does under every key, and a sequence number that is not used up.
-/

namespace PresharedTls

/-- A condition in front of an optional computation. -/
theorem guard_bind {α : Type} {condition : Prop} [Decidable condition] (next : Unit → Option α) :
    (guard condition >>= next) = if condition then next () else none := by
  by_cases h : condition
  · show ((if condition then pure () else failure : Option Unit) >>= next) = _
    rw [if_pos h, if_pos h]
    rfl
  · show ((if condition then pure () else failure : Option Unit) >>= next) = _
    rw [if_neg h, if_neg h]
    rfl

/-! ### Blocks and bytes -/

namespace Block

theorem split_append (a : Block) (b : Bytes) : split (a.bytes ++ b) = a :: split b := rfl

theorem split_join (blocks : List Block) : split (join blocks) = blocks := by
  induction blocks with
  | nil => rfl
  | cons block rest ih => rw [join, List.flatMap_cons, split_append, ← join, ih]

theorem ofBytes_bytes (a : Block) : ofBytes a.bytes = a := rfl

theorem length_join (blocks : List Block) : (join blocks).length = 16 * blocks.length := by
  induction blocks with
  | nil => rfl
  | cons block rest ih =>
    rw [join, List.flatMap_cons, List.length_append, ← join, ih, length_bytes, List.length_cons, size]
    omega

theorem exists_bytes {b : Bytes} (h : b.length = 16) : ∃ block : Block, block.bytes = b :=
  match b, h with
  | [b0, b1, b2, b3, b4, b5, b6, b7, b8, b9, b10, b11, b12, b13, b14, b15], _ =>
    ⟨⟨⟨b0, b1, b2, b3⟩, ⟨b4, b5, b6, b7⟩, ⟨b8, b9, b10, b11⟩, ⟨b12, b13, b14, b15⟩⟩, rfl⟩

/-- A whole number of blocks is split without a rest. -/
theorem join_split {b : Bytes} (h : b.length % 16 = 0) : join (split b) = b := by
  by_cases hempty : b.length = 0
  · rw [List.length_eq_zero_iff.mp hempty]
    rfl
  · obtain ⟨block, hblock⟩ : ∃ block : Block, block.bytes = b.take 16 := by
      apply exists_bytes
      rw [List.length_take]
      omega
    have hrest : join (split (b.drop 16)) = b.drop 16 := by
      apply join_split
      rw [List.length_drop]
      omega
    have hwhole : b = block.bytes ++ b.drop 16 := by rw [hblock, List.take_append_drop]
    calc join (split b) = join (split (block.bytes ++ b.drop 16)) := by rw [← hwhole]
      _ = block.bytes ++ join (split (b.drop 16)) := rfl
      _ = b := by rw [hrest, ← hwhole]
termination_by b.length
decreasing_by
  rw [List.length_drop]
  omega

theorem length_split {b : Bytes} (h : b.length % 16 = 0) : 16 * (split b).length = b.length := by
  rw [← length_join, join_split h]

end Block

namespace Chaining

variable {cipher : BlockCipher}

theorem decryptBlocks_encryptBlocks (hcipher : ∀ block, cipher.decrypt (cipher.encrypt block) = block) (iv : Block)
    (blocks : List Block) : decryptBlocks cipher iv (encryptBlocks cipher iv blocks) = blocks := by
  induction blocks generalizing iv with
  | nil => rfl
  | cons block rest ih => rw [encryptBlocks, decryptBlocks, hcipher, Block.xor_xor_cancel, ih]

theorem length_encryptBlocks (iv : Block) (blocks : List Block) :
    (encryptBlocks cipher iv blocks).length = blocks.length := by
  induction blocks generalizing iv with
  | nil => rfl
  | cons block rest ih => rw [encryptBlocks, List.length_cons, ih, List.length_cons]

theorem decrypt_encrypt (hcipher : ∀ block, cipher.decrypt (cipher.encrypt block) = block) (iv : Block) {b : Bytes}
    (h : b.length % 16 = 0) : decrypt cipher iv (encrypt cipher iv b) = b := by
  rw [decrypt, encrypt, Block.split_join, decryptBlocks_encryptBlocks hcipher, Block.join_split h]

theorem length_decryptBlocks (iv : Block) (blocks : List Block) :
    (decryptBlocks cipher iv blocks).length = blocks.length := by
  induction blocks generalizing iv with
  | nil => rfl
  | cons block rest ih => rw [decryptBlocks, List.length_cons, ih, List.length_cons]

theorem length_decrypt (iv : Block) {b : Bytes} (h : b.length % 16 = 0) : (decrypt cipher iv b).length = b.length := by
  rw [decrypt, Block.length_join, length_decryptBlocks, Block.length_split h]

theorem length_encrypt (iv : Block) {b : Bytes} (h : b.length % 16 = 0) : (encrypt cipher iv b).length = b.length := by
  rw [encrypt, Block.length_join, length_encryptBlocks, Block.length_split h]

end Chaining

/-! ### Padding -/

namespace Padding

def amount (length : Nat) : Nat :=
  16 - length % 16

/-- Padding of `more` bytes and one, each of them holding `more`. -/
def filler (more : UInt8) : Bytes :=
  List.replicate (more.toNat + 1) more

@[simp] theorem length_filler (more : UInt8) : (filler more).length = more.toNat + 1 := by
  rw [filler, List.length_replicate]

theorem getLast?_append_filler (front : Bytes) (more : UInt8) : (front ++ filler more).getLast? = some more := by
  rw [filler, List.replicate_succ', ← List.append_assoc, List.getLast?_concat]

theorem length_append_filler_sub (front : Bytes) (more : UInt8) :
    (front ++ filler more).length - (more.toNat + 1) = front.length := by
  rw [List.length_append, length_filler, Nat.add_sub_cancel]

theorem drop_eq_filler {data : Bytes} {more : UInt8} (hfits : more.toNat + 1 ≤ data.length)
    (hbytes : ∀ byte ∈ data.drop (data.length - (more.toNat + 1)), byte = more) :
    data.drop (data.length - (more.toNat + 1)) = filler more := by
  refine List.eq_replicate_iff.mpr ⟨?_, hbytes⟩
  rw [List.length_drop]
  omega

theorem exists_add (data : Bytes) :
    ∃ more, add data = data ++ filler more ∧ more.toNat + 1 = amount data.length := by
  have hvalue : (UInt8.ofNat (15 - data.length % 16)).toNat = 15 - data.length % 16 := by
    rw [UInt8.toNat_ofNat']
    omega
  refine ⟨UInt8.ofNat (15 - data.length % 16), ?_, ?_⟩
  · rw [filler, hvalue]
    rfl
  · rw [hvalue, amount]
    omega

theorem add_amount_mod (length : Nat) : (length + amount length) % 16 = 0 := by
  rw [amount]
  omega

/-- Looking at every byte, and passing those from `count` on, comes to looking at the first `count`. -/
theorem scan_eq_true {scanned : Bytes} {last : UInt8} {count : Nat} {right : UInt8 × Nat → Bool}
    (hright : ∀ byte i, right (byte, i) = (decide (count ≤ i) || decide (byte = last))) :
    scanned.zipIdx.all right = true ↔ ∀ byte ∈ scanned.take count, byte = last := by
  rw [List.all_eq_true]
  constructor
  · intro hall byte hmem
    obtain ⟨i, hi, hbyte⟩ := List.mem_iff_getElem.mp hmem
    rw [List.length_take] at hi
    rw [List.getElem_take] at hbyte
    have hentry : right (byte, i) = true :=
      hall _ (List.mem_zipIdx_iff_getElem?.mpr (List.getElem?_eq_some_iff.mpr ⟨by omega, hbyte⟩))
    rw [hright, Bool.or_eq_true, decide_eq_true_eq, decide_eq_true_eq] at hentry
    exact hentry.resolve_left (by omega)
  · rintro hfront entry hmem
    have hbyte : scanned[entry.2]? = some entry.1 := List.mem_zipIdx_iff_getElem?.mp hmem
    have hentry := hright entry.1 entry.2
    rw [Prod.eta] at hentry
    rw [hentry, Bool.or_eq_true, decide_eq_true_eq, decide_eq_true_eq]
    by_cases hinside : entry.2 < count
    · right
      apply hfront
      rw [List.mem_iff_getElem?]
      exact ⟨entry.2, by rw [List.getElem?_take, if_pos hinside, hbyte]⟩
    · exact .inl (by omega)

/-- The check looks at the last byte, at what is needed in all, and at as many bytes as the last one says. -/
theorem check_eq_some_iff {data : Bytes} {reserved : UInt64} {count : Nat} :
    check data reserved = some count ↔
      ∃ last, data.getLast? = some last ∧ count = last.toNat + 1 ∧
        (∀ byte ∈ data.drop (data.length - count), byte = last) ∧ (UInt64.ofNat count + reserved).toNat ≤ data.length := by
  have hscan (last : UInt8) : (data.reverse.take 256).take (last.toNat + 1) =
      (data.drop (data.length - (last.toNat + 1))).reverse := by
    have hbyte := last.toNat_lt
    rw [List.take_take, Nat.min_eq_left (by omega), List.take_reverse]
  rw [check]
  cases hlast : data.getLast? with
  | none => simp
  | some last =>
    dsimp only
    rw [Option.ite_none_right_eq_some, Bool.and_eq_true, decide_eq_true_eq, scan_eq_true (fun _ _ => rfl), hscan]
    constructor
    · rintro ⟨⟨hneeded, hbytes⟩, hcount⟩
      obtain rfl := Option.some.inj hcount
      exact ⟨last, rfl, rfl, fun byte hmem => hbytes byte (List.mem_reverse.mpr hmem), hneeded⟩
    · rintro ⟨other, hother, rfl, hbytes, hneeded⟩
      obtain rfl := Option.some.inj hother
      exact ⟨⟨hneeded, fun byte hmem => hbytes byte (List.mem_reverse.mp hmem)⟩, rfl⟩

/-- No tag is so long that the sum of it and of a padding wraps around. -/
theorem toNat_needed {last : UInt8} {reserved : Nat} (h : reserved ≤ 48) :
    (UInt64.ofNat (last.toNat + 1) + UInt64.ofNat reserved).toNat = last.toNat + 1 + reserved := by
  have hbyte := last.toNat_lt
  rw [UInt64.toNat_add, UInt64.toNat_ofNat', UInt64.toNat_ofNat']
  omega

/-- Padding is accepted where the data ends in it and it leaves `reserved` bytes. -/
theorem check_eq_some {data : Bytes} {reserved count : Nat} (h : reserved ≤ 48) :
    check data (.ofNat reserved) = some count ↔
      ∃ front more, data = front ++ filler more ∧ count = more.toNat + 1 ∧ reserved ≤ front.length := by
  rw [check_eq_some_iff]
  constructor
  · rintro ⟨last, -, rfl, hbytes, hneeded⟩
    rw [toNat_needed h] at hneeded
    refine ⟨data.take (data.length - (last.toNat + 1)), last, ?_, rfl, ?_⟩
    · rw [← drop_eq_filler (by omega) hbytes, List.take_append_drop]
    · rw [List.length_take]
      omega
  · rintro ⟨front, more, rfl, rfl, hreserved⟩
    refine ⟨more, getLast?_append_filler front more, rfl, ?_, ?_⟩
    · rw [length_append_filler_sub, List.drop_left]
      exact fun byte hmem => List.eq_of_mem_replicate hmem
    · rw [toNat_needed h, List.length_append, length_filler]
      omega

end Padding

/-! ### GCM -/

theorem xorBytes_xorBytes_cancel {text stream : Bytes} (h : text.length ≤ stream.length) :
    xorBytes (xorBytes text stream) stream = text := by
  induction text generalizing stream with
  | nil => rfl
  | cons byte rest ih =>
    cases stream with
    | nil => simp at h
    | cons other behind =>
      have hbyte : byte ^^^ other ^^^ other = byte := by rw [UInt8.xor_assoc, UInt8.xor_self, UInt8.xor_zero]
      have hrest : xorBytes (xorBytes rest behind) behind = rest := ih (by simpa using h)
      show (byte ^^^ other ^^^ other) :: xorBytes (xorBytes rest behind) behind = byte :: rest
      rw [hbyte, hrest]

namespace Gcm

variable (cipher : BlockCipher) (nonce additional : Bytes)

theorem le_length_keyStream (n : Nat) : n ≤ (keyStream cipher nonce n).length := by
  have hlength : (keyStream cipher nonce n).length = (n + 15) / 16 * 16 := by
    simp only [keyStream, List.length_flatMap, Block.length_bytes, Block.size, List.map_const', List.length_range,
      List.sum_replicate_nat]
  omega

theorem length_applyKeyStream (text : Bytes) : (applyKeyStream cipher nonce text).length = text.length := by
  have hlong := le_length_keyStream cipher nonce text.length
  rw [applyKeyStream, length_xorBytes]
  omega

theorem applyKeyStream_applyKeyStream (text : Bytes) :
    applyKeyStream cipher nonce (applyKeyStream cipher nonce text) = text := by
  have hlength := length_applyKeyStream cipher nonce text
  rw [applyKeyStream, hlength, applyKeyStream, xorBytes_xorBytes_cancel (le_length_keyStream cipher nonce _)]

theorem length_tag (ciphertext : Bytes) : (tag cipher nonce additional ciphertext).length = tagSize := by
  have hhash (a : Element) : a.bytes.length = 16 := by simp [Element.bytes]
  rw [tag, length_xorBytes, hash, hhash, Block.length_bytes]
  rfl

theorem exists_encrypt {plaintext : Bytes} (h : plaintext.length ≤ maximumPlaintext) :
    ∃ output, encrypt cipher nonce additional plaintext = some output ∧ output.length = plaintext.length + tagSize ∧
      decrypt cipher nonce additional output = some plaintext := by
  have hlength := length_applyKeyStream cipher nonce plaintext
  have htag := length_tag cipher nonce additional (applyKeyStream cipher nonce plaintext)
  refine ⟨_, if_neg (by omega), by rw [List.length_append, hlength, htag], ?_⟩
  have hsize : (applyKeyStream cipher nonce plaintext ++
      tag cipher nonce additional (applyKeyStream cipher nonce plaintext)).length - tagSize =
        (applyKeyStream cipher nonce plaintext).length := by
    rw [List.length_append, htag, Nat.add_sub_cancel]
  rw [decrypt, hsize, List.take_left, List.drop_left, if_neg, if_pos rfl, applyKeyStream_applyKeyStream]
  rw [List.length_append, htag, hlength]
  omega

end Gcm

theorem GcmRecords.exists_protect (cipher : BlockCipher) (salt : Bytes) (sequence : Nat) (typeCode : UInt8)
    (version : UInt16) {plaintext : Bytes} (h : plaintext.length ≤ Gcm.maximumPlaintext) :
    ∃ fragment, protect cipher salt sequence typeCode version plaintext = some fragment ∧
      fragment.length = plaintext.length + 24 ∧
      unprotect cipher salt sequence typeCode version fragment = some plaintext := by
  obtain ⟨output, hencrypt, hlength, hdecrypt⟩ := Gcm.exists_encrypt cipher (salt ++ bigEndian explicitLength sequence)
    (macHeader sequence typeCode version plaintext.length) h
  have hexplicit : (bigEndian explicitLength sequence).length = explicitLength := length_bigEndian _ _
  have hfragment : (bigEndian explicitLength sequence ++ output).length = plaintext.length + 24 := by
    rw [List.length_append, hlength, hexplicit, explicitLength, Gcm.tagSize]
    omega
  refine ⟨bigEndian explicitLength sequence ++ output, ?_, hfragment, ?_⟩
  · simp only [protect, hencrypt, Option.map_some]
  · have hplaintext : plaintext.length + 24 - (explicitLength + Gcm.tagSize) = plaintext.length := by
      rw [explicitLength, Gcm.tagSize]
      omega
    rw [unprotect, hfragment, if_neg (by rw [explicitLength, Gcm.tagSize]; omega), hplaintext,
      List.take_left' hexplicit, List.drop_left' hexplicit]
    exact hdecrypt

theorem RecordMac.length_le (mac : RecordMac) : mac.length ≤ 48 := by
  have hhash : mac.hash.outputLength ≤ 48 := by cases mac.hash <;> decide
  exact Nat.le_trans mac.length_le_outputLength hhash

/-! ### Records without encryption -/

theorem NullRecords.unprotect_protect (mac : RecordMac) (sequence : Nat) (typeCode : UInt8) (version : UInt16)
    (plaintext : Bytes) :
    unprotect mac sequence typeCode version (protect mac sequence typeCode version plaintext) = some plaintext := by
  have hlength : (protect mac sequence typeCode version plaintext).length = plaintext.length + mac.length := by
    simp [protect]
  rw [unprotect, hlength, Nat.add_sub_cancel, protect, List.take_left, List.drop_left, if_neg (by omega), if_pos rfl]

/-! ### CBC -/

namespace CbcRecords

variable {records : CbcRecords} {vector : Block} {more : UInt8}

/-- What a record holds in front of the tag that is outside. -/
def body (records : CbcRecords) (vector : Block) (ciphertext : Bytes) : Bytes :=
  if records.chained.isSome then ciphertext else vector.bytes ++ ciphertext

/-- The plaintext, with its tag where that goes inside. -/
def content (records : CbcRecords) (sequence : Nat) (typeCode : UInt8) (version : UInt16) (plaintext : Bytes) : Bytes :=
  if records.encryptThenMac then plaintext
  else plaintext ++ records.mac.tag (macHeader sequence typeCode version plaintext.length) plaintext

/-- The ciphertext of a record under this vector and with this padding. -/
def ciphertext (records : CbcRecords) (vector : Block) (more : UInt8) (sequence : Nat) (typeCode : UInt8)
    (version : UInt16) (plaintext : Bytes) : Bytes :=
  Chaining.encrypt records.cipher vector (records.content sequence typeCode version plaintext ++ Padding.filler more)

/-- The record of a ciphertext, with its tag where that goes outside. -/
def fragment (records : CbcRecords) (vector : Block) (more : UInt8) (sequence : Nat) (typeCode : UInt8)
    (version : UInt16) (plaintext : Bytes) : Bytes :=
  let body := records.body vector (records.ciphertext vector more sequence typeCode version plaintext)
  if records.encryptThenMac then body ++ records.mac.tag (macHeader sequence typeCode version body.length) body
  else body

theorem length_body (ciphertext : Bytes) :
    (records.body vector ciphertext).length = records.vectorLength + ciphertext.length := by
  rw [body, vectorLength]
  split
  · rw [Nat.zero_add]
  · rw [List.length_append, Block.length_bytes]

theorem splitVector_body (hchained : ∀ chained, records.chained = some chained → chained = vector) (ciphertext : Bytes) :
    records.splitVector (records.body vector ciphertext) = some (vector, ciphertext) := by
  cases h : records.chained with
  | some chained =>
    obtain rfl := hchained chained h
    simp only [splitVector, body, h, Option.isSome_some, if_true]
  | none =>
    have hlength : vector.bytes.length = Block.size := vector.length_bytes
    simp only [splitVector, body, h, Option.isSome_none, Bool.false_eq_true, if_false]
    rw [if_neg (by rw [List.length_append, hlength]; omega), List.take_left' hlength, List.drop_left' hlength,
      Block.ofBytes_bytes]

theorem body_of_splitVector {b ciphertext : Bytes} (h : records.splitVector b = some (vector, ciphertext)) :
    b = records.body vector ciphertext ∧ ∀ chained, records.chained = some chained → chained = vector := by
  rw [splitVector] at h
  split at h
  · next chained hchained =>
    cases h
    exact ⟨by rw [body, hchained]; rfl, fun _ hother => (Option.some.inj (hchained.symm.trans hother)).symm⟩
  · next hchained =>
    split at h
    · cases h
    · next hlong =>
      obtain ⟨block, hblock⟩ : ∃ block : Block, block.bytes = b.take Block.size := by
        apply Block.exists_bytes
        rw [List.length_take, Block.size]
        rw [Block.size] at hlong
        omega
      rw [← hblock, Block.ofBytes_bytes] at h
      cases h
      refine ⟨?_, fun _ hother => ?_⟩
      · rw [body, hchained, hblock]
        exact (List.take_append_drop Block.size b).symm
      · cases hchained.symm.trans hother

theorem chained_eq_of_drawVector (records : CbcRecords) (entropy : Entropy) (chained : Block) (h : records.chained = some chained) :
    chained = (records.drawVector entropy).1 := by
  simp only [drawVector, h]

/-- A sender pads up to the next whole block. -/
theorem exists_protect_eq (sequence : Nat) (typeCode : UInt8) (version : UInt16) (plaintext : Bytes) (entropy : Entropy) :
    ∃ more : UInt8,
      more.toNat + 1 = Padding.amount (records.content sequence typeCode version plaintext).length ∧
      records.protect sequence typeCode version plaintext entropy =
        let vector := (records.drawVector entropy).1
        (records.fragment vector more sequence typeCode version plaintext,
          records.advance (records.ciphertext vector more sequence typeCode version plaintext),
          (records.drawVector entropy).2) := by
  obtain ⟨more, hadd, hmore⟩ := Padding.exists_add (records.content sequence typeCode version plaintext)
  refine ⟨more, hmore, ?_⟩
  dsimp only [fragment, ciphertext]
  rw [← hadd]
  rfl

theorem length_ciphertext (vector : Block) {sequence : Nat} {typeCode : UInt8} {version : UInt16} {plaintext : Bytes}
    (hwhole : ((records.content sequence typeCode version plaintext).length + (more.toNat + 1)) % 16 = 0) :
    (records.ciphertext vector more sequence typeCode version plaintext).length =
      (records.content sequence typeCode version plaintext).length + (more.toNat + 1) := by
  rw [ciphertext, Chaining.length_encrypt, List.length_append, Padding.length_filler]
  rw [List.length_append, Padding.length_filler, hwhole]

section

variable (hcipher : ∀ block, records.cipher.decrypt (records.cipher.encrypt block) = block)
  {sequence : Nat} {typeCode : UInt8} {version : UInt16} {plaintext : Bytes}
  (hwhole : ((records.content sequence typeCode version plaintext).length + (more.toNat + 1)) % 16 = 0)
include hcipher hwhole

theorem decrypt_ciphertext (vector : Block) :
    Chaining.decrypt records.cipher vector (records.ciphertext vector more sequence typeCode version plaintext) =
      records.content sequence typeCode version plaintext ++ Padding.filler more := by
  rw [ciphertext, Chaining.decrypt_encrypt hcipher]
  rw [List.length_append, Padding.length_filler, hwhole]

variable (hchained : ∀ chained, records.chained = some chained → chained = vector)
include hchained

theorem unprotectMacInside_fragment (hinside : records.encryptThenMac = false) :
    records.unprotectMacInside sequence typeCode version
        (records.fragment vector more sequence typeCode version plaintext) =
      some (plaintext, records.advance (records.ciphertext vector more sequence typeCode version plaintext)) := by
  have hcontent : records.content sequence typeCode version plaintext =
      plaintext ++ records.mac.tag (macHeader sequence typeCode version plaintext.length) plaintext := by
    rw [content, hinside, if_neg Bool.false_ne_true]
  have hlength := length_ciphertext vector hwhole
  have hdata := decrypt_ciphertext hcipher hwhole vector
  obtain ⟨tag, htag⟩ : ∃ tag, tag = records.mac.tag (macHeader sequence typeCode version plaintext.length) plaintext :=
    ⟨_, rfl⟩
  have hmac : tag.length = records.mac.length := by rw [htag, RecordMac.length_tag]
  rw [hcontent, ← htag] at hlength hdata hwhole
  rw [List.length_append] at hwhole hlength
  rw [fragment, hinside, if_neg Bool.false_ne_true]
  have hsizes : records.vectorLength + (records.mac.length + 1 + 15) / 16 * 16 ≤
      (records.body vector (records.ciphertext vector more sequence typeCode version plaintext)).length ∧
        ((records.body vector (records.ciphertext vector more sequence typeCode version plaintext)).length -
          records.vectorLength) % 16 = 0 := by
    rw [length_body, hlength]
    omega
  have hcheck : Padding.check (plaintext ++ tag ++ Padding.filler more) (.ofNat records.mac.length) =
      some (more.toNat + 1) := by
    refine (Padding.check_eq_some records.mac.length_le).mpr ⟨plaintext ++ tag, more, rfl, rfl, ?_⟩
    rw [List.length_append, hmac]
    exact Nat.le_add_left _ _
  have hfront : (plaintext ++ tag ++ Padding.filler more).length - (more.toNat + 1) - records.mac.length =
      plaintext.length := by
    rw [List.length_append, List.length_append, Padding.length_filler, hmac]
    omega
  dsimp only [unprotectMacInside]
  rw [guard_bind, if_pos hsizes, splitVector_body hchained, Option.bind_eq_bind, Option.bind_some, hdata, hcheck,
    Option.bind_eq_bind, Option.bind_some, hfront, guard_bind, List.append_assoc, List.take_left, List.drop_left,
    List.take_left' hmac, if_pos htag.symm]
  rfl

theorem unprotectMacOutside_fragment (houtside : records.encryptThenMac = true) :
    records.unprotectMacOutside sequence typeCode version
        (records.fragment vector more sequence typeCode version plaintext) =
      some (plaintext, records.advance (records.ciphertext vector more sequence typeCode version plaintext)) := by
  have hcontent : records.content sequence typeCode version plaintext = plaintext := by
    rw [content, houtside, if_pos rfl]
  have hlength := length_ciphertext vector hwhole
  have hdata := decrypt_ciphertext hcipher hwhole vector
  rw [hcontent] at hlength hdata hwhole
  rw [fragment, houtside, if_pos rfl]
  obtain ⟨body, hbody⟩ : ∃ body, body =
      records.body vector (records.ciphertext vector more sequence typeCode version plaintext) := ⟨_, rfl⟩
  obtain ⟨tag, htag⟩ : ∃ tag, tag = records.mac.tag (macHeader sequence typeCode version body.length) body := ⟨_, rfl⟩
  have hmac : tag.length = records.mac.length := by rw [htag, RecordMac.length_tag]
  have hwithout : (body ++ tag).length - records.mac.length = body.length := by
    rw [List.length_append, hmac, Nat.add_sub_cancel]
  have hsizes : records.mac.length ≤ (body ++ tag).length ∧ records.vectorLength + Block.size ≤ body.length ∧
      (body.length - records.vectorLength) % 16 = 0 := by
    rw [List.length_append, hmac, hbody, length_body, hlength, Block.size]
    omega
  have hsplit : records.splitVector body =
      some (vector, records.ciphertext vector more sequence typeCode version plaintext) := by
    rw [hbody, splitVector_body hchained]
  have hcheck : Padding.check (plaintext ++ Padding.filler more) 0 = some (more.toNat + 1) :=
    (Padding.check_eq_some (Nat.zero_le _)).mpr ⟨plaintext, more, rfl, rfl, Nat.zero_le _⟩
  have hfront := Padding.length_append_filler_sub plaintext more
  dsimp only [unprotectMacOutside]
  rw [← hbody, ← htag, hwithout, guard_bind, if_pos hsizes, List.take_left, List.drop_left, guard_bind, if_pos htag.symm,
    hsplit, Option.bind_eq_bind, Option.bind_some, hdata, hcheck, Option.bind_eq_bind, Option.bind_some, hfront,
    List.take_left]
  rfl

/-- A record is opened whatever its padding, so long as that fills the last block. -/
theorem unprotect_fragment :
    records.unprotect sequence typeCode version
        (records.fragment vector more sequence typeCode version plaintext) =
      some (plaintext, records.advance (records.ciphertext vector more sequence typeCode version plaintext)) := by
  rw [unprotect]
  split
  · next houtside => exact unprotectMacOutside_fragment hcipher hwhole hchained houtside
  · next hinside => exact unprotectMacInside_fragment hcipher hwhole hchained (Bool.eq_false_iff.mpr hinside)

end

theorem length_protect_le (sequence : Nat) (typeCode : UInt8) (version : UInt16) (plaintext : Bytes) (entropy : Entropy) :
    (records.protect sequence typeCode version plaintext entropy).1.length ≤ plaintext.length + 80 := by
  obtain ⟨more, hmore, hprotect⟩ := records.exists_protect_eq sequence typeCode version plaintext entropy
  have hmac := records.mac.length_le
  have hvector : records.vectorLength ≤ 16 := by
    rw [vectorLength]
    split <;> decide
  have hpadding : more.toNat + 1 ≤ 16 := by
    rw [hmore, Padding.amount]
    omega
  have hciphertext := length_ciphertext (records.drawVector entropy).1 (hmore ▸ Padding.add_amount_mod _)
  rw [hprotect]
  dsimp only [fragment]
  split
  · next houtside =>
    rw [content, houtside, if_pos rfl] at hciphertext
    rw [List.length_append, RecordMac.length_tag, length_body, hciphertext]
    omega
  · next hinside =>
    rw [content, if_neg hinside, List.length_append, RecordMac.length_tag] at hciphertext
    rw [length_body, hciphertext]
    omega

theorem unprotect_protect (hcipher : ∀ block, records.cipher.decrypt (records.cipher.encrypt block) = block)
    (sequence : Nat) (typeCode : UInt8) (version : UInt16) (plaintext : Bytes) (entropy : Entropy) :
    records.unprotect sequence typeCode version (records.protect sequence typeCode version plaintext entropy).1 =
      some (plaintext, (records.protect sequence typeCode version plaintext entropy).2.1) := by
  obtain ⟨more, hmore, hprotect⟩ := records.exists_protect_eq sequence typeCode version plaintext entropy
  rw [hprotect]
  exact unprotect_fragment hcipher (hmore ▸ Padding.add_amount_mod _) (chained_eq_of_drawVector records entropy)

end CbcRecords

/-! ### Contexts -/

/-- Decryption, where it is used, undoes encryption. -/
def RecordCipher.Invertible : RecordCipher → Prop
  | cbc records => ∀ block, records.cipher.decrypt (records.cipher.encrypt block) = block
  | _ => True

namespace Protection

theorem eq_of_create {params : SecurityParameters} {sender : Role} {context : Protection}
    (h : create params sender = .ok context) :
    ∃ masterSecret, params.masterSecret = .ok masterSecret ∧
      context = ⟨params.prf, masterSecret, recordCipher params (params.directionKeys masterSecret.bytes sender), 0⟩ := by
  simp only [create] at h
  split at h
  · cases h
  · cases hsecret : params.masterSecret with
    | error alert =>
      rw [hsecret] at h
      cases h
    | ok masterSecret =>
      rw [hsecret] at h
      exact ⟨masterSecret, rfl, (Except.ok.inj h).symm⟩

theorem invertible_recordCipher (params : SecurityParameters) (keys : DirectionKeys) :
    (recordCipher params keys).Invertible := by
  rw [recordCipher]
  split
  · trivial
  · dsimp only
    split
    · exact Aes.decrypt_encrypt _
    · trivial

theorem invertible_of_create {params : SecurityParameters} {sender : Role} {context : Protection}
    (h : create params sender = .ok context) : context.cipher.Invertible := by
  obtain ⟨masterSecret, -, rfl⟩ := eq_of_create h
  exact invertible_recordCipher params _

theorem sequence_lt_of_create {params : SecurityParameters} {sender : Role} {context : Protection}
    (h : create params sender = .ok context) : context.sequence < sequenceBound := by
  obtain ⟨masterSecret, -, rfl⟩ := eq_of_create h
  exact (by decide : 0 < sequenceBound)

theorem verifyData_of_create {params : SecurityParameters} {sender other : Role} {context context' : Protection}
    (h : create params sender = .ok context) (h' : create params other = .ok context') (role : Role) (said : Bytes) :
    context.verifyData role said = context'.verifyData role said := by
  obtain ⟨masterSecret, hsecret, rfl⟩ := eq_of_create h
  obtain ⟨masterSecret', hsecret', rfl⟩ := eq_of_create h'
  rw [hsecret] at hsecret'
  rw [verifyData, verifyData, Except.ok.inj hsecret']

theorem unprotect_keeps (context : Protection) (typeCode : UInt8) (version : UInt16) (fragment : Bytes) :
    (context.unprotect typeCode version fragment).2.prf = context.prf ∧
      (context.unprotect typeCode version fragment).2.masterSecret = context.masterSecret := by
  rw [unprotect]
  split
  · exact ⟨rfl, rfl⟩
  · dsimp only
    split
    all_goals
      split
      · exact ⟨rfl, rfl⟩
      · exact ⟨rfl, rfl⟩

theorem verifyData_unprotect (context : Protection) (typeCode : UInt8) (version : UInt16) (fragment : Bytes) (sender : Role)
    (said : Bytes) : (context.unprotect typeCode version fragment).2.verifyData sender said = context.verifyData sender said := by
  obtain ⟨hprf, hsecret⟩ := context.unprotect_keeps typeCode version fragment
  rw [verifyData, hprf, hsecret, verifyData]

/-- Keys can be derived where the suite is old enough and the key short enough. -/
theorem exists_create {params : SecurityParameters} (hversion : params.suite.minimumVersion ≤ params.version)
    (hkey : params.key.length < 65536) (sender : Role) : ∃ context, create params sender = .ok context := by
  have hnewer : ¬ params.version < params.suite.minimumVersion := UInt16.not_lt.mpr hversion
  simp only [create, if_neg hnewer, SecurityParameters.masterSecret, premasterSecret, if_pos hkey]
  exact ⟨_, rfl⟩

/-- A context that has guarded one record since it was made. -/
inductive Begun (params : SecurityParameters) (sender : Role) : Protection → Prop where
  | opened {context later : Protection} {typeCode : UInt8} {version : UInt16} {fragment plaintext : Bytes}
      (hmade : create params sender = .ok context)
      (hopened : context.unprotect typeCode version fragment = (.ok plaintext, later)) : Begun params sender later

/-- What is protected is opened to the same plaintext, and leaves both ends with the same context, which
can go on unless the sequence numbers are used up. -/
theorem exists_protect {context : Protection} (hcipher : context.cipher.Invertible)
    (hsequence : context.sequence < sequenceBound) (typeCode : UInt8) (version : UInt16) {plaintext : Bytes}
    (hlength : plaintext.length ≤ Gcm.maximumPlaintext) (entropy : Entropy) :
    ∃ fragment later entropy',
      context.protect typeCode version plaintext entropy = (.ok fragment, later, entropy') ∧
      fragment.length ≤ plaintext.length + 80 ∧
      context.unprotect typeCode version fragment = (.ok plaintext, later) ∧
      later.cipher.Invertible ∧ later.sequence = context.sequence + 1 := by
  obtain ⟨prf, masterSecret, cipher, sequence⟩ := context
  have hcount : ¬ sequenceBound ≤ sequence := Nat.not_le.mpr hsequence
  simp only [protect, unprotect, if_neg hcount]
  cases cipher with
  | gcm cipher salt =>
    obtain ⟨fragment, hprotect, hfragment, hunprotect⟩ :=
      GcmRecords.exists_protect cipher salt sequence typeCode version hlength
    refine ⟨fragment, ⟨prf, masterSecret, .gcm cipher salt, sequence + 1⟩, entropy, ?_, by omega, ?_, hcipher, rfl⟩
    · simp only [hprotect]
    · simp only [hunprotect]
  | cbc records =>
    have hopened := CbcRecords.unprotect_protect hcipher sequence typeCode version plaintext entropy
    refine ⟨_, _, _, rfl, records.length_protect_le sequence typeCode version plaintext entropy, ?_, ?_, rfl⟩
    · simp only [hopened]
    · exact hcipher
  | null mac =>
    have hopened := NullRecords.unprotect_protect mac sequence typeCode version plaintext
    refine ⟨_, _, _, rfl, ?_, ?_, hcipher, rfl⟩
    · have hmac := mac.length_le
      rw [NullRecords.protect, List.length_append, RecordMac.length_tag]
      omega
    · simp only [hopened]

end Protection

end PresharedTls
