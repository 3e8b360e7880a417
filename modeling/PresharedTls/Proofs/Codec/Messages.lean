import PresharedTls.Handshake.Message
import PresharedTls.Proofs.Codec.Reader

/-!
# The one reading of a transcript

Framed messages one after the other can be taken apart in one way only, because every message says
how long it is. So two transcripts are equal as bytes exactly if they are equal as messages.
-/

namespace PresharedTls.HandshakeMessage

variable {message other : HandshakeMessage}

/-- The length of the body fits the three bytes in front of it. -/
def Framed (message : HandshakeMessage) : Prop :=
  message.body.length < 16777216

theorem frame_of_framed (h : message.Framed) : message.frame = .ok message.bytes :=
  if_pos h

theorem framed_of_frame {b : Bytes} (h : message.frame = .ok b) : message.Framed ∧ b = message.bytes := by
  rw [frame] at h
  split at h
  · next hframed =>
    cases h
    exact ⟨hframed, rfl⟩
  · cases h

theorem bigEndian_three (n : Nat) :
    bigEndian 3 n = [UInt8.ofNat (n / 256 / 256), UInt8.ofNat (n / 256), UInt8.ofNat n] := rfl

theorem ofBigEndian_three (high middle low : UInt8) :
    ofBigEndian [high, middle, low] = (high.toNat * 256 + middle.toNat) * 256 + low.toNat := by
  simp [ofBigEndian]

theorem bigEndian_ofBigEndian_three (high middle low : UInt8) :
    bigEndian 3 (ofBigEndian [high, middle, low]) = [high, middle, low] := by
  have hhigh := high.toNat_lt
  have hmiddle := middle.toNat_lt
  have hlow := low.toNat_lt
  rw [bigEndian_three, ofBigEndian_three]
  simp only [List.cons.injEq, and_true, ← UInt8.toNat_inj, UInt8.toNat_ofNat']
  omega

theorem ofBigEndian_bodyLength (h : message.Framed) :
    ofBigEndian (bigEndian 3 message.body.length) = message.body.length := by
  have hbound : message.body.length < 1 <<< (8 * 3) := h
  exact ofBigEndian_bigEndian_of_lt hbound

theorem code_injective {type other : HandshakeType} (h : type.code = other.code) : type = other := by
  have hsame : HandshakeType.ofCode? type.code = HandshakeType.ofCode? other.code := by rw [h]
  simpa using hsame

theorem eq_of_bytes_append (hmessage : message.Framed) (hother : other.Framed) {rest otherRest : Bytes}
    (h : message.bytes ++ rest = other.bytes ++ otherRest) : message = other ∧ rest = otherRest := by
  obtain ⟨type, body⟩ := message
  obtain ⟨otherType, otherBody⟩ := other
  simp only [bytes, List.cons_append, List.append_assoc, List.cons.injEq] at h
  obtain ⟨hcode, hrest⟩ := h
  obtain ⟨hheader, htail⟩ := List.append_inj hrest (by rw [length_bigEndian, length_bigEndian])
  have hlength : body.length = otherBody.length := by
    have hvalue := congrArg ofBigEndian hheader
    rwa [ofBigEndian_bodyLength hmessage, ofBigEndian_bodyLength hother] at hvalue
  obtain ⟨hbody, hbehind⟩ := List.append_inj htail hlength
  exact ⟨by rw [code_injective hcode, hbody], hbehind⟩

theorem bytes_ne_nil (message : HandshakeMessage) : message.bytes ≠ [] := by
  simp [bytes]

/-- A transcript has one reading. -/
theorem eq_of_flatMap_bytes {messages others : List HandshakeMessage} (hmessages : ∀ message ∈ messages, message.Framed)
    (hothers : ∀ message ∈ others, message.Framed) (h : messages.flatMap bytes = others.flatMap bytes) :
    messages = others := by
  induction messages generalizing others with
  | nil =>
    cases others with
    | nil => rfl
    | cons other rest => simp [bytes] at h
  | cons message rest ih =>
    cases others with
    | nil => simp [bytes] at h
    | cons other otherRest =>
      rw [List.flatMap_cons, List.flatMap_cons] at h
      obtain ⟨rfl, hrest⟩ := eq_of_bytes_append (hmessages _ List.mem_cons_self) (hothers _ List.mem_cons_self) h
      rw [ih (fun item mem => hmessages item (List.mem_cons_of_mem _ mem))
        (fun item mem => hothers item (List.mem_cons_of_mem _ mem)) hrest]

/-! ### Cutting a stream -/

/-- A message that is cut off a stream was at its front, and is no longer than a peer may send. -/
theorem of_next {buffer rest : Bytes} (h : next buffer = .ok (some (message, rest))) :
    buffer = message.bytes ++ rest ∧ message.body.length ≤ HandshakeHeader.maximumLength := by
  unfold next at h
  split at h
  case h_2 => cases h
  case h_1 code high middle low tail =>
    rw [HandshakeHeader.ofBytes] at h
    cases htype : HandshakeType.ofCode? code with
    | none => simp [htype] at h
    | some type =>
      simp only [htype] at h
      by_cases hlong : HandshakeHeader.maximumLength < ofBigEndian [high, middle, low]
      · simp [hlong] at h
      simp only [hlong, if_false] at h
      split at h
      · cases h
      next henough =>
      cases h
      have hlength : (tail.take (ofBigEndian [high, middle, low])).length = ofBigEndian [high, middle, low] := by
        rw [List.length_take]
        omega
      refine ⟨?_, ?_⟩
      · simp only [bytes, hlength, bigEndian_ofBigEndian_three, HandshakeType.code_of_ofCode? htype, List.cons_append,
          List.nil_append, List.take_append_drop]
      · show (tail.take _).length ≤ _
        rw [hlength]
        omega

theorem next_bytes (h : message.body.length ≤ HandshakeHeader.maximumLength) (rest : Bytes) :
    next (message.bytes ++ rest) = .ok (some (message, rest)) := by
  have hframed : message.Framed := Nat.lt_of_le_of_lt h (by decide)
  have hlength := ofBigEndian_bodyLength hframed
  rw [bigEndian_three] at hlength
  simp only [bytes, bigEndian_three, List.cons_append, List.nil_append, next, HandshakeHeader.ofBytes,
    HandshakeType.ofCode?_code, hlength]
  rw [if_neg (Nat.not_lt.mpr h)]
  simp

theorem framed_of_le (h : message.body.length ≤ HandshakeHeader.maximumLength) : message.Framed :=
  Nat.lt_of_le_of_lt h (by decide)

theorem flatMap_bytes_cut (buffer : Bytes) :
    (framing.cut buffer).items.flatMap bytes ++ (framing.cut buffer).rest = buffer ∧
      ∀ message ∈ (framing.cut buffer).items, message.body.length ≤ HandshakeHeader.maximumLength := by
  fun_induction Framing.cut framing buffer with
  | case1 => exact ⟨rfl, fun _ mem => absurd mem List.not_mem_nil⟩
  | case2 => exact ⟨rfl, fun _ mem => absurd mem List.not_mem_nil⟩
  | case3 buffer message rest hitem behind ih =>
    obtain ⟨hbuffer, hlength⟩ := of_next hitem
    refine ⟨?_, fun item mem => ?_⟩
    · rw [hbuffer, List.flatMap_cons, List.append_assoc, ih.1]
    · rcases List.mem_cons.mp mem with rfl | hbehind
      · exact hlength
      · exact ih.2 item hbehind

end PresharedTls.HandshakeMessage
