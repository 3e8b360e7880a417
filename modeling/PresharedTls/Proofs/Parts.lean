import PresharedTls.Proofs.Endpoint.Flights

/-!
# Parts of records and of messages

What a framing waits behind is a part of what it would cut off. It is the front of one record or of one
message and not all of it, and as far as its header is there the header is one that is not refused. So no
more waits than the longest of those that are taken.
-/

namespace PresharedTls

namespace RecordHeader

variable {buffer : Bytes}

theorem length_lt_of_read? (h : read? buffer = none) : buffer.length < 5 := by
  unfold read? at h
  split at h
  · cases h
  · next hshort =>
    match buffer with
    | [] | [_] | [_, _] | [_, _, _] | [_, _, _, _] => simp
    | type :: major :: minor :: high :: low :: rest => exact absurd rfl (hshort type major minor high low rest)

/-- The front of a header can be made whole. -/
theorem exists_append (h : buffer.length < 5) :
    ∃ (header : RecordHeader) (more : Bytes), more ≠ [] ∧ buffer ++ more = header.bytes := by
  obtain ⟨more, hmore⟩ : ∃ more : Bytes, more = List.replicate (5 - buffer.length) 0 := ⟨_, rfl⟩
  have hlength : (buffer ++ more).length = 5 := by
    rw [hmore, List.length_append, List.length_replicate]
    omega
  have hnonempty : more ≠ [] := by
    rw [hmore, Ne, List.replicate_eq_nil_iff]
    omega
  cases hread : read? (buffer ++ more) with
  | none => exact absurd (length_lt_of_read? hread) (by omega)
  | some found =>
    obtain ⟨header, rest⟩ := found
    have hrest := length_of_read? hread
    obtain rfl : rest = [] := List.length_eq_zero_iff.mp (by omega)
    refine ⟨header, more, hnonempty, ?_⟩
    rw [eq_of_read? hread, List.append_nil]

/-- A header and the front of its fragment are the front of a record. -/
theorem exists_record (header : RecordHeader) {body : Bytes} (h : body.length ≤ header.length.toNat) :
    ∃ (record : Record) (more : Bytes), record.fragment.length < 65536 ∧
      body.length + more.length = header.length.toNat ∧ header.bytes ++ body ++ more = record.bytes := by
  obtain ⟨more, hmore⟩ : ∃ more : Bytes, more = List.replicate (header.length.toNat - body.length) 0 := ⟨_, rfl⟩
  have hlength : (body ++ more).length = header.length.toNat := by
    rw [hmore, List.length_append, List.length_replicate]
    omega
  refine ⟨⟨header.typeCode, header.version, body ++ more⟩, more, ?_, ?_, ?_⟩
  · rw [hlength]
    exact header.length.toNat_lt
  · rw [← List.length_append, hlength]
  · rw [Record.bytes, hlength, UInt16.ofNat_toNat, List.append_assoc]

end RecordHeader

namespace Record

variable {limit : Nat} {buffer : Bytes}

/-- The front of one record, but not all of it. -/
structure Part (limit : Nat) (buffer : Bytes) : Prop where
  strict : ∃ (record : Record) (more : Bytes), record.fragment.length < 65536 ∧ more ≠ [] ∧
    buffer ++ more = record.bytes
  short : buffer.length < 5 + limit
  announced : ∀ header body, RecordHeader.read? buffer = some (header, body) → header.length.toNat ≤ limit

/-- What is waited behind is a part of a record. -/
theorem part_of_next (h : next limit buffer = .ok none) : Part limit buffer := by
  rw [next] at h
  cases hread : RecordHeader.read? buffer with
  | none =>
    have hshort := RecordHeader.length_lt_of_read? hread
    obtain ⟨header, missing, hmissing, hheader⟩ := RecordHeader.exists_append hshort
    obtain ⟨record, more, hlength, -, hrecord⟩ := @RecordHeader.exists_record header [] (Nat.zero_le _)
    rw [List.append_nil, ← hheader, List.append_assoc] at hrecord
    exact ⟨⟨record, missing ++ more, hlength, by simp [hmissing], hrecord⟩, by omega, by simp [hread]⟩
  | some found =>
    obtain ⟨header, body⟩ := found
    simp only [hread] at h
    split at h
    · cases h
    · next hlimit =>
      split at h
      · next hshort =>
        obtain ⟨record, more, hlength, hmore, hrecord⟩ := header.exists_record (Nat.le_of_lt hshort)
        have hmissing : more ≠ [] := by
          rintro rfl
          rw [List.length_nil] at hmore
          omega
        rw [← RecordHeader.eq_of_read? hread] at hrecord
        have hbuffer := RecordHeader.length_of_read? hread
        refine ⟨⟨record, more, hlength, hmissing, hrecord⟩, by omega, ?_⟩
        intro other rest hother
        cases hread.symm.trans hother
        exact Nat.le_of_not_lt hlimit
      · cases h

end Record

namespace HandshakeMessage

variable {buffer : Bytes}

/-- A message as it is on the wire, of a type that may have no name. -/
def wire (code : UInt8) (body : Bytes) : Bytes :=
  code :: bigEndian 3 body.length ++ body

/-- The front of one message, but not all of it. -/
structure Part (buffer : Bytes) : Prop where
  strict : ∃ (code : UInt8) (body more : Bytes), body.length < 16777216 ∧ more ≠ [] ∧ buffer ++ more = wire code body
  short : buffer.length < 4 + HandshakeHeader.maximumLength
  known : ∀ code high middle low rest, buffer = code :: high :: middle :: low :: rest →
    (HandshakeType.ofCode? code).isSome ∧ ofBigEndian [high, middle, low] ≤ HandshakeHeader.maximumLength

/-- A header and the front of its body are the front of a message. -/
theorem exists_wire (code high middle low : UInt8) {rest : Bytes} (h : rest.length ≤ ofBigEndian [high, middle, low]) :
    ∃ body more : Bytes, body.length < 16777216 ∧ rest.length + more.length = ofBigEndian [high, middle, low] ∧
      code :: high :: middle :: low :: rest ++ more = wire code body := by
  obtain ⟨more, hmore⟩ : ∃ more : Bytes,
      more = List.replicate (ofBigEndian [high, middle, low] - rest.length) 0 := ⟨_, rfl⟩
  have hlength : (rest ++ more).length = ofBigEndian [high, middle, low] := by
    rw [hmore, List.length_append, List.length_replicate]
    omega
  refine ⟨rest ++ more, more, ?_, ?_, ?_⟩
  · have hhigh := high.toNat_lt
    have hmiddle := middle.toNat_lt
    have hlow := low.toNat_lt
    rw [hlength, ofBigEndian_three]
    omega
  · rw [← List.length_append, hlength]
  · rw [wire, hlength, bigEndian_ofBigEndian_three]
    rfl

/-- The front of a header can be made whole. -/
theorem exists_header (h : buffer.length < 4) :
    ∃ (code high middle low : UInt8) (more : Bytes), more ≠ [] ∧ buffer ++ more = [code, high, middle, low] := by
  match buffer with
  | [] => exact ⟨0, 0, 0, 0, [0, 0, 0, 0], by simp, rfl⟩
  | [code] => exact ⟨code, 0, 0, 0, [0, 0, 0], by simp, rfl⟩
  | [code, high] => exact ⟨code, high, 0, 0, [0, 0], by simp, rfl⟩
  | [code, high, middle] => exact ⟨code, high, middle, 0, [0], by simp, rfl⟩
  | code :: high :: middle :: low :: rest =>
    simp only [List.length_cons] at h
    omega

/-- A header that is there has been looked at. -/
theorem of_next_none {code high middle low : UInt8} {rest : Bytes}
    (h : next (code :: high :: middle :: low :: rest) = .ok none) :
    (HandshakeType.ofCode? code).isSome ∧ ofBigEndian [high, middle, low] ≤ HandshakeHeader.maximumLength ∧
      rest.length < ofBigEndian [high, middle, low] := by
  rw [next, HandshakeHeader.ofBytes] at h
  cases htype : HandshakeType.ofCode? code with
  | none =>
    simp only [htype] at h
    cases h
  | some type =>
    simp only [htype] at h
    by_cases hlong : HandshakeHeader.maximumLength < ofBigEndian [high, middle, low]
    · simp only [hlong, if_true] at h
      cases h
    · simp only [hlong, if_false] at h
      split at h
      · next hshort => exact ⟨rfl, Nat.le_of_not_lt hlong, hshort⟩
      · cases h

/-- What is waited behind is a part of a message. -/
theorem part_of_next (h : next buffer = .ok none) : Part buffer := by
  by_cases hheader : buffer.length < 4
  · obtain ⟨code, high, middle, low, missing, hmissing, hwhole⟩ := exists_header hheader
    obtain ⟨body, more, hlength, -, hwire⟩ := @exists_wire code high middle low [] (Nat.zero_le _)
    rw [← hwhole, List.append_assoc] at hwire
    refine ⟨⟨code, body, missing ++ more, hlength, by simp [hmissing], hwire⟩, by omega, ?_⟩
    rintro code high middle low rest rfl
    simp only [List.length_cons] at hheader
    omega
  · match buffer with
    | code :: high :: middle :: low :: rest =>
      obtain ⟨hcode, hlimit, hshort⟩ := of_next_none h
      obtain ⟨body, more, hlength, hmore, hwire⟩ := exists_wire code high middle low (Nat.le_of_lt hshort)
      have hmissing : more ≠ [] := by
        rintro rfl
        rw [List.length_nil] at hmore
        omega
      refine ⟨⟨code, body, more, hlength, hmissing, hwire⟩, ?_, ?_⟩
      · simp only [List.length_cons]
        omega
      · intro _ _ _ _ _ hsame
        cases hsame
        exact ⟨hcode, hlimit⟩
    | [] | [_] | [_, _] | [_, _, _] => simp at hheader

end HandshakeMessage

end PresharedTls
