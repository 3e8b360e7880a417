import Mathlib.Data.List.Forall2
import PresharedTls.Proofs.Protection.Records
import PresharedTls.Record

/-!
# Runs of records

A context protects one record after the other, and each moves its sequence number and, in TLS 1.0,
its chain. The context that opens the records in the same order makes the same moves, so the two
agree after every record. A record's fragment is its plaintext on one side of the protection and
what is sent on the other.
-/

namespace PresharedTls.Protection

/-- Protects records in order, up to the first that cannot be. -/
def protectAll (context : Protection) (entropy : Entropy) :
    List Record → Except AlertDescription (List Record × Protection × Entropy)
  | [] => .ok ([], context, entropy)
  | record :: rest =>
    match context.protect record.typeCode record.version record.fragment entropy with
    | (.error alert, _, _) => .error alert
    | (.ok fragment, context, entropy) =>
      (context.protectAll entropy rest).map fun (sealed, end') => ({ record with fragment := fragment } :: sealed, end')

/-- Opens records in order, up to the first that is not right, and gives their plaintexts. -/
def unprotectAll (context : Protection) : List Record → Except AlertDescription (List Bytes × Protection)
  | [] => .ok ([], context)
  | record :: rest =>
    match context.unprotect record.typeCode record.version record.fragment with
    | (.error alert, _) => .error alert
    | (.ok plaintext, context) => (context.unprotectAll rest).map fun (plaintexts, end') => (plaintext :: plaintexts, end')

section

variable {context : Protection} {plaintexts : List Bytes} {later : Protection}

theorem unprotectAll_cons {record : Record} {rest : List Record}
    (h : context.unprotectAll (record :: rest) = .ok (plaintexts, later)) :
    ∃ plaintext next others, context.unprotect record.typeCode record.version record.fragment = (.ok plaintext, next) ∧
      next.unprotectAll rest = .ok (others, later) ∧ plaintexts = plaintext :: others := by
  rw [unprotectAll] at h
  split at h
  · cases h
  · next plaintext next hopened =>
    cases hrest : next.unprotectAll rest with
    | error alert =>
      rw [hrest] at h
      cases h
    | ok others =>
      rw [hrest] at h
      cases h
      exact ⟨plaintext, next, others.1, hopened, hrest, rfl⟩

theorem unprotectAll_cons_of_ok {record : Record} {rest : List Record} {plaintext : Bytes} {next : Protection}
    (hopened : context.unprotect record.typeCode record.version record.fragment = (.ok plaintext, next))
    (hrest : next.unprotectAll rest = .ok (plaintexts, later)) :
    context.unprotectAll (record :: rest) = .ok (plaintext :: plaintexts, later) := by
  rw [unprotectAll, hopened]
  simp only [hrest]
  rfl

/-- Records are opened in two parts as in one. -/
theorem unprotectAll_append {first second : List Record} :
    context.unprotectAll (first ++ second) = .ok (plaintexts, later) ↔
      ∃ front next behind, context.unprotectAll first = .ok (front, next) ∧
        next.unprotectAll second = .ok (behind, later) ∧ plaintexts = front ++ behind := by
  induction first generalizing context plaintexts with
  | nil =>
    constructor
    · exact fun h => ⟨[], context, plaintexts, rfl, h, rfl⟩
    · rintro ⟨front, next, behind, hfirst, hsecond, rfl⟩
      cases hfirst
      exact hsecond
  | cons record rest ih =>
    constructor
    · intro h
      obtain ⟨plaintext, between, others, hopened, hrest, rfl⟩ := unprotectAll_cons h
      obtain ⟨front, next, behind, hfront, hsecond, rfl⟩ := ih.mp hrest
      exact ⟨plaintext :: front, next, behind, unprotectAll_cons_of_ok hopened hfront, hsecond, rfl⟩
    · rintro ⟨front, next, behind, hfirst, hsecond, rfl⟩
      obtain ⟨plaintext, between, others, hopened, hrest, rfl⟩ := unprotectAll_cons hfirst
      exact unprotectAll_cons_of_ok hopened (ih.mpr ⟨others, next, behind, hrest, hsecond, rfl⟩)

end

/-- A sealed record keeps type and version, and is little longer. -/
def Seals (record sealed : Record) : Prop :=
  sealed.typeCode = record.typeCode ∧ sealed.version = record.version ∧
    sealed.fragment.length ≤ record.fragment.length + 80

theorem exists_protectAll {context : Protection} (hcipher : context.cipher.Invertible) {records : List Record}
    (hcount : context.sequence + records.length ≤ sequenceBound)
    (hlength : ∀ record ∈ records, record.fragment.length ≤ Gcm.maximumPlaintext) (entropy : Entropy) :
    ∃ sealed later entropy', context.protectAll entropy records = .ok (sealed, later, entropy') ∧
      List.Forall₂ Seals records sealed ∧ context.unprotectAll sealed = .ok (records.map (·.fragment), later) := by
  induction records generalizing context entropy with
  | nil => exact ⟨[], context, entropy, rfl, .nil, rfl⟩
  | cons record rest ih =>
    rw [List.length_cons] at hcount
    obtain ⟨fragment, next, entropy', hprotect, hfragment, hunprotect, hnext, hsequence⟩ :=
      exists_protect hcipher (show context.sequence < sequenceBound by omega) record.typeCode record.version
        (hlength record List.mem_cons_self) entropy
    obtain ⟨sealed, later, entropy'', hrest, hseals, hopened⟩ := ih hnext (by omega)
      (fun other hmem => hlength other (List.mem_cons_of_mem _ hmem)) entropy'
    refine ⟨{ record with fragment := fragment } :: sealed, later, entropy'', ?_, .cons ⟨rfl, rfl, hfragment⟩ hseals, ?_⟩
    · simp only [protectAll, hprotect, hrest]
      rfl
    · simp only [unprotectAll, hunprotect, hopened]
      rfl

/-- What is protected in order is opened in order by another context of the same keys, whatever the
random vectors are, until the sequence numbers are used up. -/
theorem unprotectAll_protectAll {params : SecurityParameters} {sender : Role} {context : Protection}
    (h : create params sender = .ok context) {records : List Record} (hcount : records.length ≤ sequenceBound)
    (hlength : ∀ record ∈ records, record.fragment.length ≤ Gcm.maximumPlaintext) (entropy : Entropy) :
    ∃ sealed later entropy', context.protectAll entropy records = .ok (sealed, later, entropy') ∧
      List.Forall₂ Seals records sealed ∧
      ∀ other, create params sender = .ok other →
        other.unprotectAll sealed = .ok (records.map (·.fragment), later) := by
  have hzero : context.sequence = 0 := by
    obtain ⟨masterSecret, -, rfl⟩ := eq_of_create h
    rfl
  obtain ⟨sealed, later, entropy', hprotect, hseals, hopened⟩ :=
    exists_protectAll (invertible_of_create h) (by omega) hlength entropy
  refine ⟨sealed, later, entropy', hprotect, hseals, fun other hother => ?_⟩
  rw [Except.ok.inj (hother.symm.trans h), hopened]

/-- Keys of TLS 1.0 and CBC, where each record starts from the last block of the one before. -/
def chainedParameters : SecurityParameters :=
  ⟨.tls10, .aes128CbcSha, ⟨List.replicate 32 1, rfl⟩, ⟨List.replicate 32 2, rfl⟩, [1, 2, 3], false, true⟩

theorem unprotectAll_protectAll_chained :
    ∃ context, create chainedParameters .client = .ok context ∧
      ∃ sealed later entropy',
        context.protectAll (.ofSeed 1) [⟨22, 0x0301, List.replicate 16 7⟩, ⟨23, 0x0301, []⟩] =
          .ok (sealed, later, entropy') ∧
        List.Forall₂ Seals [⟨22, 0x0301, List.replicate 16 7⟩, ⟨23, 0x0301, []⟩] sealed ∧
        ∀ other, create chainedParameters .client = .ok other →
          other.unprotectAll sealed = .ok ([List.replicate 16 7, []], later) := by
  obtain ⟨context, hcontext⟩ := @exists_create chainedParameters (by decide) (by decide) .client
  exact ⟨context, hcontext, unprotectAll_protectAll hcontext (by decide) (by decide) (.ofSeed 1)⟩

end PresharedTls.Protection
