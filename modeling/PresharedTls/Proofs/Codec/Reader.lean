import PresharedTls.Reader

/-!
# What readers read

A reader is judged by what it takes off the front of a byte string, whatever follows. The judgement
passes through sequencing, so a structure is read back by reading back its fields in order.
-/

namespace PresharedTls

theorem bigEndian_two (n : Nat) : bigEndian 2 n = [UInt8.ofNat (n / 256), UInt8.ofNat n] := rfl

theorem ofBigEndian_bigEndian_of_lt {width n : Nat} (h : n < 1 <<< (8 * width)) :
    ofBigEndian (bigEndian width n) = n := by
  rw [ofBigEndian_bigEndian, Nat.mod_eq_of_lt h]

theorem ofBigEndian_uint16 (n : UInt16) : UInt16.ofNat (ofBigEndian (bigEndian 2 n.toNat)) = n := by
  have hbound : n.toNat < 1 <<< (8 * 2) := n.toNat_lt
  rw [ofBigEndian_bigEndian_of_lt hbound]
  exact UInt16.ofNat_toNat

theorem bigEndian_ofBigEndian_two (first second : UInt8) :
    bigEndian 2 (UInt16.ofNat (ofBigEndian [first, second])).toNat = [first, second] := by
  have hfirst := first.toNat_lt
  have hsecond := second.toNat_lt
  have hvalue : ofBigEndian [first, second] = first.toNat * 256 + second.toNat := by
    simp [ofBigEndian]
  rw [bigEndian_two, hvalue, UInt16.toNat_ofNat']
  simp only [List.cons.injEq, and_true, ← UInt8.toNat_inj, UInt8.toNat_ofNat']
  omega

namespace Reader

variable {α β : Type}

/-- A reader takes `b` off the front of whatever begins with it, and gives `value`. -/
def Reads (reader : Reader α) (b : Bytes) (value : α) : Prop :=
  ∀ rest, reader.run (b ++ rest) = some (value, rest)

theorem reads_pure (value : α) : Reads (pure value) [] value :=
  fun _ => rfl

theorem Reads.bind {reader : Reader α} {next : α → Reader β} {b more : Bytes} {value : α} {result : β}
    (hreader : Reads reader b value) (hnext : Reads (next value) more result) :
    Reads (reader >>= next) (b ++ more) result := by
  intro rest
  rw [StateT.run_bind, List.append_assoc, hreader]
  exact hnext rest

theorem reads_guard {condition : Prop} [Decidable condition] (h : condition) :
    Reads (guard condition) [] () := by
  show Reads (if condition then pure () else failure) [] ()
  rw [if_pos h]
  exact reads_pure ()

theorem reads_uint8 (byte : UInt8) : Reads uint8 [byte] byte :=
  fun _ => rfl

theorem reads_uint16 (n : UInt16) : Reads uint16 (bigEndian 2 n.toNat) n := by
  intro rest
  have hvalue := ofBigEndian_uint16 n
  rw [bigEndian_two] at hvalue ⊢
  show some (UInt16.ofNat (ofBigEndian _), rest) = _
  rw [hvalue]

theorem reads_take (b : Bytes) : Reads (take b.length) b b := by
  intro rest
  show (if b.length ≤ (b ++ rest).length then _ else _) = _
  rw [if_pos (by simp), List.take_left, List.drop_left]

theorem reads_fixed {n : Nat} (b : FixedBytes n) : Reads (fixed n) b.bytes b := by
  obtain ⟨b, rfl⟩ := b
  intro rest
  show (if h : b.length ≤ (b ++ rest).length then _ else _) = _
  rw [dif_pos (by simp)]
  simp

theorem reads_vector8 {minimum maximum : Nat} {b : Bytes} (hminimum : minimum ≤ b.length)
    (hmaximum : b.length ≤ maximum) (hbound : b.length < 256) :
    Reads (vector8 minimum maximum) (UInt8.ofNat b.length :: b) b := by
  have hlength : (UInt8.ofNat b.length).toNat = b.length := by
    simpa using hbound
  have hguard : minimum ≤ (UInt8.ofNat b.length).toNat ∧ (UInt8.ofNat b.length).toNat ≤ maximum := by
    rw [hlength]
    exact ⟨hminimum, hmaximum⟩
  refine Reads.bind (reads_uint8 _) (Reads.bind (reads_guard hguard) ?_)
  rw [hlength]
  exact reads_take b

theorem reads_vector16 {minimum multiple : Nat} {b : Bytes} (hminimum : minimum ≤ b.length)
    (hmultiple : b.length % multiple = 0) (hbound : b.length < 65536) :
    Reads (vector16 minimum multiple) (bigEndian 2 b.length ++ b) b := by
  have hlength : (UInt16.ofNat b.length).toNat = b.length := by
    simpa using hbound
  have hfield := reads_uint16 (UInt16.ofNat b.length)
  rw [hlength] at hfield
  have hguard : minimum ≤ (UInt16.ofNat b.length).toNat ∧ (UInt16.ofNat b.length).toNat % multiple = 0 := by
    rw [hlength]
    exact ⟨hminimum, hmultiple⟩
  refine Reads.bind hfield (Reads.bind (reads_guard hguard) ?_)
  rw [hlength]
  exact reads_take b

/-! ### Whole byte strings -/

theorem run_readAll? (reader : Reader α) (b : Bytes) :
    readAll? reader b = (reader.run b).bind fun (value, rest) => if rest.isEmpty then some value else none := by
  show ((reader.run b).bind fun result => ((done result.2).bind fun _ => some (result.1, _))).bind _ = _
  cases reader.run b with
  | none => rfl
  | some result =>
    obtain ⟨value, rest⟩ := result
    cases rest <;> rfl

theorem Reads.readAll? {reader : Reader α} {b : Bytes} {value : α} (h : Reads reader b value) :
    readAll? reader b = some value := by
  have hrun := h []
  rw [List.append_nil] at hrun
  rw [run_readAll?, hrun]
  rfl

/-- Behind what a reader has taken, the rest is read as a whole by what comes next. -/
theorem Reads.readAll?_bind {reader : Reader α} {next : α → Reader β} {b : Bytes} {value : α}
    (hreader : Reads reader b value) (more : Bytes) :
    Reader.readAll? (reader >>= next) (b ++ more) = Reader.readAll? (next value) more := by
  rw [run_readAll?, run_readAll?, StateT.run_bind, hreader more]
  rfl

theorem readAll?_guard_bind {condition : Prop} [Decidable condition] (h : condition) {next : Unit → Reader β} {b : Bytes} :
    Reader.readAll? (guard condition >>= next) b = Reader.readAll? (next ()) b :=
  (reads_guard h).readAll?_bind b

/-! ### What was read -/

section

variable {b rest : Bytes}

theorem exists_of_run_bind {reader : Reader α} {next : α → Reader β} {result : β}
    (h : (reader >>= next).run b = some (result, rest)) :
    ∃ value behind, reader.run b = some (value, behind) ∧ (next value).run behind = some (result, rest) := by
  rw [StateT.run_bind] at h
  obtain ⟨⟨value, behind⟩, hreader, hnext⟩ := Option.bind_eq_some_iff.mp h
  exact ⟨value, behind, hreader, hnext⟩

/-- What was read in a sequence was read by its parts. -/
theorem exists_of_readAll?_bind {reader : Reader α} {next : α → Reader β} {result : β}
    (h : readAll? (reader >>= next) b = some result) :
    ∃ value rest, reader.run b = some (value, rest) ∧ readAll? (next value) rest = some result := by
  rw [run_readAll?, StateT.run_bind] at h
  cases hreader : reader.run b with
  | none =>
    rw [hreader] at h
    cases h
  | some read =>
    rw [hreader] at h
    exact ⟨read.1, read.2, rfl, (run_readAll? _ _).trans h⟩

theorem of_run_guard {condition : Prop} [Decidable condition] {value : Unit}
    (h : (guard condition : Reader Unit).run b = some (value, rest)) : condition ∧ rest = b := by
  change StateT.run (if condition then pure () else failure) b = _ at h
  split at h
  · next hholds =>
    cases h
    exact ⟨hholds, rfl⟩
  · cases h

theorem of_readAll?_guard {condition : Prop} [Decidable condition] {next : Unit → Reader β} {result : β}
    (h : readAll? (guard condition >>= next) b = some result) : condition ∧ readAll? (next ()) b = some result := by
  obtain ⟨_, rest, hguard, hnext⟩ := exists_of_readAll?_bind h
  obtain ⟨hholds, rfl⟩ := of_run_guard hguard
  exact ⟨hholds, hnext⟩

theorem of_run_uint8 {byte : UInt8} (h : uint8.run b = some (byte, rest)) : b = byte :: rest := by
  cases b with
  | nil => cases h
  | cons first tail =>
    cases h
    rfl

theorem of_run_uint16 {n : UInt16} (h : uint16.run b = some (n, rest)) : b = bigEndian 2 n.toNat ++ rest := by
  match b with
  | [] => cases h
  | [_] => cases h
  | high :: low :: tail =>
    cases h
    rw [bigEndian_ofBigEndian_two]
    rfl

theorem of_run_take {n : Nat} {value : Bytes} (h : (take n).run b = some (value, rest)) :
    b = value ++ rest ∧ value.length = n := by
  change (if n ≤ b.length then some (b.take n, b.drop n) else none) = _ at h
  split at h
  · next henough =>
    cases h
    exact ⟨(List.take_append_drop n b).symm, List.length_take_of_le henough⟩
  · cases h

theorem of_run_fixed {n : Nat} {value : FixedBytes n} (h : (fixed n).run b = some (value, rest)) :
    b = value.bytes ++ rest := by
  change (if h : n ≤ b.length then some ((⟨b.take n, List.length_take_of_le h⟩ : FixedBytes n), b.drop n)
    else none) = _ at h
  split at h
  · cases h
    exact (List.take_append_drop n b).symm
  · cases h

theorem of_run_vector8 {minimum maximum : Nat} {value : Bytes}
    (h : (vector8 minimum maximum).run b = some (value, rest)) :
    b = UInt8.ofNat value.length :: value ++ rest ∧ minimum ≤ value.length ∧ value.length ≤ maximum := by
  obtain ⟨length, behind, hlength, h⟩ := exists_of_run_bind h
  obtain ⟨_, _, hguard, htake⟩ := exists_of_run_bind h
  obtain ⟨⟨hminimum, hmaximum⟩, rfl⟩ := of_run_guard hguard
  obtain ⟨rfl, hvalue⟩ := of_run_take htake
  rw [hvalue, UInt8.ofNat_toNat]
  exact ⟨of_run_uint8 hlength, hminimum, hmaximum⟩

theorem of_run_vector16 {minimum multiple : Nat} {value : Bytes}
    (h : (vector16 minimum multiple).run b = some (value, rest)) :
    b = bigEndian 2 value.length ++ value ++ rest ∧ minimum ≤ value.length ∧ value.length % multiple = 0 ∧
      value.length < 65536 := by
  obtain ⟨length, behind, hlength, h⟩ := exists_of_run_bind h
  obtain ⟨_, _, hguard, htake⟩ := exists_of_run_bind h
  obtain ⟨⟨hminimum, hmultiple⟩, rfl⟩ := of_run_guard hguard
  obtain ⟨rfl, hvalue⟩ := of_run_take htake
  rw [hvalue, List.append_assoc]
  exact ⟨of_run_uint16 hlength, hminimum, hmultiple, length.toNat_lt⟩

theorem of_readAll? {reader : Reader α} {value : α} (h : readAll? reader b = some value) :
    reader.run b = some (value, []) := by
  rw [run_readAll?] at h
  obtain ⟨⟨read, rest⟩, hrun, hvalue⟩ := Option.bind_eq_some_iff.mp h
  dsimp only at hvalue
  split at hvalue
  · next hnone =>
    rw [hrun, ← Option.some.inj hvalue, List.isEmpty_iff.mp hnone]
  · cases hvalue

theorem length_of_vector16 {minimum multiple : Nat} {value : Bytes}
    (h : (vector16 minimum multiple).readAll? b = some value) : value.length < 65536 :=
  (of_run_vector16 (of_readAll? h)).2.2.2

end

end Reader

end PresharedTls
