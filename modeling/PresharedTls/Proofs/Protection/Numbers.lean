import PresharedTls.Proofs.Codec.Reader
import PresharedTls.Proofs.Protection.Format
import PresharedTls.Record

/-!
# Sequence numbers

A context counts the records that it protects. A protection that succeeds uses up one number, and where
the numbers are used up it fails and changes nothing. So the records of a context that never failed in
between have the numbers in order, one each (`Numbers.exists_protect`). Of a GCM record the number is the
explicit part of the nonce, so no nonce comes twice (`Numbers.nodup_explicit`).
-/

namespace PresharedTls.Protection

variable {context initial later : Protection} {records : List Record}

theorem sequence_of_protect {typeCode : UInt8} {version : UInt16} {plaintext fragment : Bytes} {entropy entropy' : Entropy}
    (h : context.protect typeCode version plaintext entropy = (.ok fragment, later, entropy')) :
    context.sequence < sequenceBound ∧ later.sequence = context.sequence + 1 := by
  obtain ⟨prf, masterSecret, cipher, sequence⟩ := context
  rw [protect] at h
  split at h
  · cases h
  next hcount =>
  refine ⟨Nat.lt_of_not_le hcount, ?_⟩
  cases cipher with
  | gcm block salt =>
    dsimp only at h
    split at h <;> cases h
    rfl
  | cbc cbcRecords =>
    cases h
    rfl
  | null mac =>
    cases h
    rfl

/-- A number is used up also where protecting fails, as long as there are any. -/
theorem protect_uses_up (context : Protection) (typeCode : UInt8) (version : UInt16) (plaintext : Bytes) (entropy : Entropy) :
    (context.protect typeCode version plaintext entropy).2.1 = context ∨
      (context.protect typeCode version plaintext entropy).2.1.sequence = context.sequence + 1 := by
  obtain ⟨prf, masterSecret, cipher, sequence⟩ := context
  rw [protect]
  split
  · exact .inl rfl
  · right
    cases cipher with
    | gcm block salt =>
      dsimp only
      split <;> rfl
    | cbc cbcRecords => rfl
    | null mac => rfl

/-- The records that a context protects one after the other while it becomes another, with no failure in
between. -/
inductive Numbers (initial : Protection) : List Record → Protection → Prop where
  | made : Numbers initial [] initial
  | next {records : List Record} {context later : Protection} (h : Numbers initial records context) (record : Record)
      {plaintext : Bytes} {entropy entropy' : Entropy}
      (hprotect : context.protect record.typeCode record.version plaintext entropy =
        (.ok record.fragment, later, entropy')) : Numbers initial (records ++ [record]) later

namespace Numbers

theorem sequence_eq (h : Numbers initial records context) : context.sequence = initial.sequence + records.length := by
  induction h with
  | made => rfl
  | next _ record hprotect ih =>
    rw [(sequence_of_protect hprotect).2, ih, List.length_append, List.length_singleton, Nat.add_assoc]

theorem sequence_le (h : Numbers initial records context) (hinitial : initial.sequence ≤ sequenceBound) :
    context.sequence ≤ sequenceBound := by
  cases h with
  | made => exact hinitial
  | next _ record hprotect =>
    obtain ⟨hcount, hlater⟩ := sequence_of_protect hprotect
    omega

theorem continues (h : Numbers initial records context) : initial.cipher.Continues context.cipher := by
  induction h with
  | made => exact .same _
  | @next _ context later _ record plaintext entropy _ hprotect ih =>
    have hcontinues := (context.protect_continues record.typeCode record.version plaintext entropy).2
    rw [hprotect] at hcontinues
    exact ih.trans hcontinues

/-- Each record is protected with the number of its place. -/
theorem exists_protect (h : Numbers initial records context) {place : Nat} {record : Record}
    (hplace : records[place]? = some record) :
    ∃ (before : Protection) (plaintext : Bytes) (entropy : Entropy) (after : Protection) (entropy' : Entropy),
      before.sequence = initial.sequence + place ∧ initial.cipher.Continues before.cipher ∧
      before.protect record.typeCode record.version plaintext entropy = (.ok record.fragment, after, entropy') := by
  induction h with
  | made => cases hplace
  | @next records before after h last plaintext entropy entropy' hprotect ih =>
    rw [List.getElem?_append] at hplace
    split at hplace
    · exact ih hplace
    · next hbehind =>
      obtain ⟨hzero, rfl⟩ := List.getElem?_eq_some_iff.mp hplace
      rw [List.length_singleton] at hzero
      obtain rfl : place = records.length := by omega
      simp only [Nat.sub_self, List.getElem_singleton]
      exact ⟨before, plaintext, entropy, after, entropy', h.sequence_eq, h.continues, hprotect⟩

/-! ### Nonces -/

section

variable {cipher : BlockCipher} {salt : Bytes} (h : Numbers initial records context)
  (hcipher : initial.cipher = .gcm cipher salt)
include h hcipher

/-- Under GCM the cipher and the salt stay, and the number enters the nonce. -/
theorem exists_protect_gcm {place : Nat} {record : Record} (hplace : records[place]? = some record) :
    ∃ plaintext, GcmRecords.protect cipher salt (initial.sequence + place) record.typeCode record.version plaintext =
      some record.fragment := by
  obtain ⟨⟨prf, masterSecret, beforeCipher, sequence⟩, plaintext, entropy, after, entropy', hsequence, hcontinues, hprotect⟩ :=
    h.exists_protect hplace
  rw [hcipher] at hcontinues
  cases hcontinues
  obtain rfl : sequence = initial.sequence + place := hsequence
  refine ⟨plaintext, ?_⟩
  rw [protect] at hprotect
  split at hprotect
  · cases hprotect
  dsimp only at hprotect
  split at hprotect
  · next fragment hsealed =>
    cases hprotect
    exact hsealed
  · cases hprotect

theorem explicit_eq {place : Nat} {record : Record} (hplace : records[place]? = some record) :
    record.fragment.take GcmRecords.explicitLength = bigEndian GcmRecords.explicitLength (initial.sequence + place) := by
  obtain ⟨plaintext, hprotect⟩ := h.exists_protect_gcm hcipher hplace
  obtain ⟨ciphertext, -, hfragment⟩ := Option.map_eq_some_iff.mp hprotect
  rw [← hfragment, List.take_left' (length_bigEndian _ _)]

/-- No explicit part of a nonce comes twice. -/
theorem nodup_explicit (hinitial : initial.sequence ≤ sequenceBound) :
    (records.map fun record => record.fragment.take GcmRecords.explicitLength).Nodup := by
  rw [List.nodup_iff_getElem?_ne_getElem?]
  intro first second hlt hsecond heq
  rw [List.length_map] at hsecond
  have hlast : initial.sequence + records.length ≤ sequenceBound := h.sequence_eq ▸ h.sequence_le hinitial
  have hexplicit {place : Nat} (hplace : place < records.length) :
      (records.map fun record => record.fragment.take GcmRecords.explicitLength)[place]? =
        some (bigEndian GcmRecords.explicitLength (initial.sequence + place)) := by
    rw [List.getElem?_map, List.getElem?_eq_getElem hplace, Option.map_some,
      h.explicit_eq hcipher (List.getElem?_eq_getElem hplace)]
  have hread {place : Nat} (hplace : place < records.length) :
      ofBigEndian (bigEndian GcmRecords.explicitLength (initial.sequence + place)) = initial.sequence + place :=
    ofBigEndian_bigEndian_of_lt (Nat.lt_of_lt_of_le (by omega : _ < sequenceBound) (by decide))
  rw [hexplicit (hlt.trans hsecond), hexplicit hsecond] at heq
  have hnumbers := congrArg ofBigEndian (Option.some.inj heq)
  rw [hread (hlt.trans hsecond), hread hsecond] at hnumbers
  omega

end

end Numbers

end PresharedTls.Protection
