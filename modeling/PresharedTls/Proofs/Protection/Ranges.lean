import PresharedTls.Proofs.Protection.Records

/-!
# Fragments are read within their bounds

Opening a record takes lengths off the length of its fragment and cuts the fragment and what it
decrypts to at such lengths. Lists and natural numbers give something for every cut and difference;
here each of them has to be in range, and there is no result where one is not. For every fragment
there is a result, and it is the same.
-/

namespace PresharedTls.Ranged

/-! ### Accesses -/

/-- A difference that has to be one. -/
def minus (a b : Nat) : Option Nat :=
  if b ≤ a then some (a - b) else none

/-- The bytes from `start` on and in front of `stop`. -/
def slice (b : Bytes) (start stop : Nat) : Option Bytes :=
  if start ≤ stop ∧ stop ≤ b.length then some ((b.drop start).take (stop - start)) else none

theorem minus_of_le {a b : Nat} (h : b ≤ a) : minus a b = some (a - b) :=
  if_pos h

theorem slice_front {b : Bytes} {stop : Nat} (h : stop ≤ b.length) : slice b 0 stop = some (b.take stop) :=
  if_pos ⟨Nat.zero_le _, h⟩

theorem slice_behind {b : Bytes} {start : Nat} (h : start ≤ b.length) : slice b start b.length = some (b.drop start) := by
  rw [slice, if_pos ⟨h, Nat.le_refl _⟩, List.take_of_length_le (Nat.le_of_eq List.length_drop)]

theorem slice_add {b : Bytes} {start length : Nat} (h : start + length ≤ b.length) :
    slice b start (start + length) = some ((b.drop start).take length) := by
  rw [slice, if_pos ⟨Nat.le_add_right _ _, h⟩, Nat.add_sub_cancel_left]

/-! ### Opening -/

/-- Whether the padding is right, and its length, which counts as nothing where it is not. -/
def checkPadding (data : Bytes) (reserved : UInt64) : Option (Bool × Nat) :=
  match data.getLast? with
  | none => some (false, 0)
  | some last => do
    let start ← minus data.length (min data.length 256)
    let scanned ← slice data start data.length
    let length := last.toNat + 1
    let needed := UInt64.ofNat length + reserved
    if needed.toNat ≤ data.length && scanned.reverse.zipIdx.all fun (byte, i) => length ≤ i || byte = last then
      return (true, length)
    else return (false, 0)

def unprotectMacInside (records : CbcRecords) (sequence : Nat) (typeCode : UInt8) (version : UInt16)
    (fragment : Bytes) : Option (Option (Bytes × CbcRecords)) :=
  if fragment.length < records.vectorLength + (records.mac.length + 1 + 15) / 16 * 16 then some none
  else do
    let behind ← minus fragment.length records.vectorLength
    if behind % 16 ≠ 0 then return none
    else match records.splitVector fragment with
      | none => return none
      | some (vector, ciphertext) =>
        let data := Chaining.decrypt records.cipher vector ciphertext
        let (right, padding) ← checkPadding data (.ofNat records.mac.length)
        let unpadded ← minus data.length padding
        let length ← minus unpadded records.mac.length
        let plaintext ← slice data 0 length
        let tag ← slice data length (length + records.mac.length)
        if right ∧ records.mac.tag (macHeader sequence typeCode version length) plaintext = tag then
          return some (plaintext, records.advance ciphertext)
        else return none

def unprotectMacOutside (records : CbcRecords) (sequence : Nat) (typeCode : UInt8) (version : UInt16)
    (fragment : Bytes) : Option (Option (Bytes × CbcRecords)) :=
  if fragment.length < records.mac.length then some none
  else do
    let length ← minus fragment.length records.mac.length
    if length < records.vectorLength + Block.size then return none
    else
      let behind ← minus length records.vectorLength
      if behind % 16 ≠ 0 then return none
      else
        let body ← slice fragment 0 length
        let tag ← slice fragment length fragment.length
        if records.mac.tag (macHeader sequence typeCode version length) body ≠ tag then return none
        else match records.splitVector body with
          | none => return none
          | some (vector, ciphertext) =>
            let data := Chaining.decrypt records.cipher vector ciphertext
            let (right, padding) ← checkPadding data 0
            if right then
              let length ← minus data.length padding
              let plaintext ← slice data 0 length
              return some (plaintext, records.advance ciphertext)
            else return none

def unprotectGcm (cipher : BlockCipher) (salt : Bytes) (sequence : Nat) (typeCode : UInt8) (version : UInt16)
    (fragment : Bytes) : Option (Option Bytes) :=
  if fragment.length < GcmRecords.explicitLength + Gcm.tagSize then some none
  else do
    let length ← minus fragment.length (GcmRecords.explicitLength + Gcm.tagSize)
    let explicit ← slice fragment 0 GcmRecords.explicitLength
    let sealed ← slice fragment GcmRecords.explicitLength fragment.length
    return Gcm.decrypt cipher (salt ++ explicit) (macHeader sequence typeCode version length) sealed

def unprotectNull (mac : RecordMac) (sequence : Nat) (typeCode : UInt8) (version : UInt16) (fragment : Bytes) :
    Option (Option Bytes) :=
  if fragment.length < mac.length then some none
  else do
    let length ← minus fragment.length mac.length
    let plaintext ← slice fragment 0 length
    let tag ← slice fragment length fragment.length
    if mac.tag (macHeader sequence typeCode version length) plaintext = tag then return some plaintext
    else return none

/-- A plaintext under the cipher that is left behind, or the cipher as it was. -/
def opened (cipher : RecordCipher) (typeCode : UInt8) (version : UInt16) (sequence : Nat) (fragment : Bytes) :
    Option (Option (Bytes × RecordCipher)) :=
  match cipher with
  | .gcm block salt => (unprotectGcm block salt sequence typeCode version fragment).map (·.map (·, cipher))
  | .cbc records =>
    (if records.encryptThenMac then unprotectMacOutside records sequence typeCode version fragment
      else unprotectMacInside records sequence typeCode version fragment).map
        (·.map fun (plaintext, records) => (plaintext, .cbc records))
  | .null mac => (unprotectNull mac sequence typeCode version fragment).map (·.map (·, cipher))

def unprotect (context : Protection) (typeCode : UInt8) (version : UInt16) (fragment : Bytes) :
    Option (Except AlertDescription Bytes × Protection) :=
  if Protection.sequenceBound ≤ context.sequence then some (.error .internalError, context)
  else
    (opened context.cipher typeCode version context.sequence fragment).map fun
      | some (plaintext, cipher) => (.ok plaintext, { context with cipher := cipher, sequence := context.sequence + 1 })
      | none => (.error .badRecordMac, { context with sequence := context.sequence + 1 })

/-! ### Every access is in range -/

theorem some_bind {α β : Type} (a : α) (next : α → Option β) : (some a >>= next) = next a := rfl

theorem checkPadding_eq (data : Bytes) (reserved : UInt64) :
    checkPadding data reserved = some ((Padding.check data reserved).isSome, (Padding.check data reserved).getD 0) := by
  cases hlast : data.getLast? with
  | none => simp only [checkPadding, Padding.check, hlast, Option.isSome_none, Option.getD_none]
  | some last =>
    have hstart : data.length - min data.length 256 = data.length - 256 := by omega
    have hscanned : (data.drop (data.length - 256)).reverse = data.reverse.take 256 := List.take_reverse.symm
    simp only [checkPadding, Padding.check, hlast, minus_of_le (Nat.min_le_left _ _), slice_behind (Nat.sub_le _ _),
      Option.bind_eq_bind, Option.bind_some, hstart, hscanned]
    split
    · rfl
    · rfl

/-- What padding is found leaves the bytes that were reserved. -/
theorem getD_check_add_le (data : Bytes) {reserved : Nat} (hreserved : reserved ≤ 48) (h : reserved ≤ data.length) :
    (Padding.check data (.ofNat reserved)).getD 0 + reserved ≤ data.length := by
  cases hcheck : Padding.check data (.ofNat reserved) with
  | none => simpa using h
  | some count =>
    obtain ⟨front, more, rfl, rfl, hfront⟩ := (Padding.check_eq_some hreserved).mp hcheck
    rw [Option.getD_some, List.length_append, Padding.length_filler]
    omega

theorem unprotectMacInside_eq (records : CbcRecords) (sequence : Nat) (typeCode : UInt8) (version : UInt16)
    (fragment : Bytes) :
    unprotectMacInside records sequence typeCode version fragment =
      some (records.unprotectMacInside sequence typeCode version fragment) := by
  dsimp only [unprotectMacInside, CbcRecords.unprotectMacInside]
  rw [guard_bind]
  by_cases hshort : fragment.length < records.vectorLength + (records.mac.length + 1 + 15) / 16 * 16
  · rw [if_pos hshort, if_neg (fun h => absurd h.1 (Nat.not_le.mpr hshort))]
  rw [if_neg hshort, minus_of_le (by omega), some_bind]
  by_cases hwhole : (fragment.length - records.vectorLength) % 16 = 0
  · rw [if_neg (not_not_intro hwhole), if_pos ⟨Nat.le_of_not_lt hshort, hwhole⟩]
    cases hsplit : records.splitVector fragment with
    | none => rfl
    | some split =>
      obtain ⟨vector, ciphertext⟩ := split
      obtain ⟨rfl, -⟩ := CbcRecords.body_of_splitVector hsplit
      rw [CbcRecords.length_body] at hshort hwhole
      have hdata : (Chaining.decrypt records.cipher vector ciphertext).length = ciphertext.length :=
        Chaining.length_decrypt vector (by omega)
      have hpadding := getD_check_add_le (Chaining.decrypt records.cipher vector ciphertext) records.mac.length_le
        (by omega)
      dsimp only
      rw [checkPadding_eq, some_bind, some_bind]
      dsimp only
      rw [minus_of_le (by omega), some_bind, minus_of_le (by omega), some_bind, slice_front (by omega), some_bind,
        slice_add (by omega), some_bind]
      cases Padding.check (Chaining.decrypt records.cipher vector ciphertext) (.ofNat records.mac.length) with
      | none =>
        rw [if_neg (fun h => Bool.false_ne_true h.1)]
        rfl
      | some padding =>
        rw [some_bind, guard_bind, Option.getD_some, Option.isSome_some]
        simp only [true_and]
        split
        · rfl
        · rfl
  · rw [if_pos hwhole, if_neg (fun h => hwhole h.2)]
    rfl

theorem unprotectMacOutside_eq (records : CbcRecords) (sequence : Nat) (typeCode : UInt8) (version : UInt16)
    (fragment : Bytes) :
    unprotectMacOutside records sequence typeCode version fragment =
      some (records.unprotectMacOutside sequence typeCode version fragment) := by
  dsimp only [unprotectMacOutside, CbcRecords.unprotectMacOutside]
  rw [guard_bind]
  by_cases hshort : fragment.length < records.mac.length
  · rw [if_pos hshort, if_neg (fun h => absurd h.1 (Nat.not_le.mpr hshort))]
  rw [if_neg hshort, minus_of_le (by omega), some_bind]
  by_cases hblock : fragment.length - records.mac.length < records.vectorLength + Block.size
  · rw [if_pos hblock, if_neg (fun h => absurd h.2.1 (Nat.not_le.mpr hblock))]
    rfl
  rw [if_neg hblock, minus_of_le (by omega), some_bind]
  by_cases hwhole : (fragment.length - records.mac.length - records.vectorLength) % 16 = 0
  · rw [if_neg (not_not_intro hwhole), if_pos ⟨Nat.le_of_not_lt hshort, Nat.le_of_not_lt hblock, hwhole⟩,
      slice_front (Nat.sub_le _ _), some_bind, slice_behind (Nat.sub_le _ _), some_bind, guard_bind]
    by_cases htag : records.mac.tag (macHeader sequence typeCode version (fragment.length - records.mac.length))
        (fragment.take (fragment.length - records.mac.length)) = fragment.drop (fragment.length - records.mac.length)
    · rw [if_neg (not_not_intro htag), if_pos htag]
      cases records.splitVector (fragment.take (fragment.length - records.mac.length)) with
      | none => rfl
      | some split =>
        obtain ⟨vector, ciphertext⟩ := split
        have hpadding : (Padding.check (Chaining.decrypt records.cipher vector ciphertext) 0).getD 0 + 0 ≤ _ :=
          getD_check_add_le _ (Nat.zero_le _) (Nat.zero_le _)
        dsimp only
        rw [checkPadding_eq, some_bind, some_bind]
        dsimp only
        rw [minus_of_le (by omega), some_bind, slice_front (Nat.sub_le _ _), some_bind]
        cases Padding.check (Chaining.decrypt records.cipher vector ciphertext) 0 with
        | none => rfl
        | some padding => rfl
    · rw [if_pos htag, if_neg htag]
      rfl
  · rw [if_pos hwhole, if_neg (fun h => hwhole h.2.2)]
    rfl

theorem unprotectGcm_eq (cipher : BlockCipher) (salt : Bytes) (sequence : Nat) (typeCode : UInt8) (version : UInt16)
    (fragment : Bytes) :
    unprotectGcm cipher salt sequence typeCode version fragment =
      some (GcmRecords.unprotect cipher salt sequence typeCode version fragment) := by
  rw [unprotectGcm, GcmRecords.unprotect]
  split
  · rfl
  · next hlong =>
    rw [Nat.not_lt] at hlong
    have hexplicit : GcmRecords.explicitLength ≤ fragment.length := Nat.le_trans (Nat.le_add_right _ _) hlong
    rw [minus_of_le hlong, slice_front hexplicit, slice_behind hexplicit]
    rfl

theorem unprotectNull_eq (mac : RecordMac) (sequence : Nat) (typeCode : UInt8) (version : UInt16) (fragment : Bytes) :
    unprotectNull mac sequence typeCode version fragment =
      some (NullRecords.unprotect mac sequence typeCode version fragment) := by
  rw [unprotectNull, NullRecords.unprotect]
  split
  · rfl
  · next hlong =>
    rw [Nat.not_lt] at hlong
    rw [minus_of_le hlong, some_bind, slice_front (Nat.sub_le _ _), some_bind, slice_behind (Nat.sub_le _ _), some_bind]
    split <;> rfl

/-- Whatever the fragment, opening it stays in range and gives what it gives. -/
theorem unprotect_eq (context : Protection) (typeCode : UInt8) (version : UInt16) (fragment : Bytes) :
    unprotect context typeCode version fragment = some (context.unprotect typeCode version fragment) := by
  obtain ⟨prf, masterSecret, cipher, sequence⟩ := context
  rw [unprotect, Protection.unprotect]
  split
  · rfl
  cases cipher with
  | gcm block salt =>
    simp only [opened, unprotectGcm_eq, Option.map_some]
    cases GcmRecords.unprotect block salt sequence typeCode version fragment <;> rfl
  | cbc records =>
    have hopened : (if records.encryptThenMac then unprotectMacOutside records sequence typeCode version fragment
        else unprotectMacInside records sequence typeCode version fragment) =
          some (records.unprotect sequence typeCode version fragment) := by
      rw [unprotectMacOutside_eq, unprotectMacInside_eq, CbcRecords.unprotect]
      split <;> rfl
    simp only [opened, hopened, Option.map_some]
    cases records.unprotect sequence typeCode version fragment <;> rfl
  | null mac =>
    simp only [opened, unprotectNull_eq, Option.map_some]
    cases NullRecords.unprotect mac sequence typeCode version fragment <;> rfl

end PresharedTls.Ranged
