import PresharedTls.Proofs.Chunking
import PresharedTls.Proofs.Endpoint.Flights
import PresharedTls.Proofs.Endpoint.Rules
import PresharedTls.Proofs.Protection.Lengths

/-!
# The passage of application data

Once two ends are connected, what one of them is given to send is cut into pieces, and each goes into a
record of its own. The bytes of the records reach the other end in whatever chunks. What is in front of
a chunk's end is opened, and the records behind it wait, so at any time the context at one end opens the
records on their way and becomes the context at the other end.
-/

namespace PresharedTls

/-! ### Endpoints that talk -/

/-- A record of application data whose length fits its header and the limit on ciphertexts. -/
structure Record.Carries (room : Nat) (record : Record) : Prop where
  typeCode : record.typeCode = ContentType.applicationData.code
  length_le : record.fragment.length ≤ room
  length_lt : record.fragment.length < 65536

theorem Record.Carries.mono {room more : Nat} {record : Record} (h : record.Carries room) (hmore : room ≤ more) :
    record.Carries more :=
  ⟨h.typeCode, Nat.le_trans h.length_le hmore, h.length_lt⟩

theorem Record.Carries.next {room : Nat} {record : Record} (h : record.Carries room) (rest : Bytes) :
    (framing room).next (record.bytes ++ rest) = .ok (some (record, rest)) :=
  next_bytes h.length_lt h.length_le rest

namespace Endpoint

/-- An endpoint that is connected, with its limit on plaintexts and its contexts. -/
structure Talks (limit : Nat) (encoder decoder : Protection) (endpoint : Endpoint Protection) : Prop where
  phase : endpoint.phase = .connected
  handshakeDone : endpoint.session.handshakeDone = true
  provider : endpoint.session.provider = .standard
  plaintextLimit : endpoint.session.plaintextLimit = limit
  encrypter : endpoint.session.encrypter = some encoder
  decrypter : endpoint.session.decrypter = some decoder

/-- The endpoint once it has opened records. -/
def hearing (decoder : Protection) (data : List Bytes) (endpoint : Endpoint Protection) : Endpoint Protection :=
  { endpoint with
    session := { endpoint.session with decrypter := some decoder }
    received := endpoint.received ++ data }

/-- The endpoint once it has protected records. -/
def telling (encoder : Protection) (records : List Record) (entropy : Entropy) (endpoint : Endpoint Protection) :
    Endpoint Protection :=
  { endpoint with
    session := { endpoint.session with encrypter := some encoder }
    outgoing := endpoint.outgoing ++ records
    entropy := entropy }

variable {endpoint : Endpoint Protection} {limit : Nat} {encoder decoder later : Protection}

theorem Talks.hearing (h : endpoint.Talks limit encoder decoder) (data : List Bytes) :
    (endpoint.hearing later data).Talks limit encoder later :=
  ⟨h.phase, h.handshakeDone, h.provider, h.plaintextLimit, h.encrypter, rfl⟩

theorem Talks.telling (h : endpoint.Talks limit encoder decoder) (records : List Record) (entropy : Entropy) :
    (endpoint.telling later records entropy).Talks limit later decoder :=
  ⟨h.phase, h.handshakeDone, h.provider, h.plaintextLimit, rfl, h.decrypter⟩

theorem Talks.withQueues (h : endpoint.Talks limit encoder decoder) (outgoing : List Record) (received : List Bytes) :
    ({ endpoint with outgoing := outgoing, received := received } : Endpoint Protection).Talks limit encoder decoder :=
  ⟨h.phase, h.handshakeDone, h.provider, h.plaintextLimit, h.encrypter, h.decrypter⟩

/-! ### Receiving -/

theorem Talks.run_receiveRecord (h : endpoint.Talks limit encoder decoder) {record : Record}
    (hrecord : record.typeCode = ContentType.applicationData.code) {plaintext : Bytes}
    (hopened : decoder.unprotect record.typeCode record.version record.fragment = (.ok plaintext, later))
    (hlimit : plaintext.length ≤ limit) :
    (receiveRecord record).run endpoint = .ok () (endpoint.hearing later [plaintext]) := by
  obtain ⟨typeCode, version, fragment⟩ := record
  obtain rfl : typeCode = ContentType.applicationData.code := hrecord
  have hdecrypt : endpoint.session.decrypt ContentType.applicationData.code version fragment =
      (.ok plaintext, { endpoint.session with decrypter := some later }) := by
    have hunprotect : endpoint.session.provider.unprotect decoder ContentType.applicationData.code version fragment =
        (.ok plaintext, later) := by
      rw [h.provider]
      exact hopened
    simp only [Session.decrypt, h.decrypter, hunprotect]
  apply (Endpoint.run_receiveRecord hdecrypt (h.plaintextLimit ▸ hlimit)).trans
  show EStateM.run (receiveApplicationData plaintext) _ = _
  rw [receiveApplicationData]
  show EStateM.run (if ¬ endpoint.session.handshakeDone then _ else _) _ = _
  rw [if_neg (not_not_intro h.handshakeDone)]
  rfl

/-- Records are opened one by one, and each plaintext is for the reader. -/
theorem Talks.run_receiveRecords (h : endpoint.Talks limit encoder decoder) {records : List Record}
    (hrecords : ∀ record ∈ records, record.typeCode = ContentType.applicationData.code) {plaintexts : List Bytes}
    (hopened : decoder.unprotectAll records = .ok (plaintexts, later))
    (hlimit : ∀ plaintext ∈ plaintexts, plaintext.length ≤ limit) :
    (records.forM receiveRecord).run endpoint = .ok () (endpoint.hearing later plaintexts) := by
  induction records generalizing endpoint decoder plaintexts with
  | nil =>
    cases hopened
    have hsame : endpoint.hearing later [] = endpoint := by
      rw [Endpoint.hearing, List.append_nil, ← h.decrypter]
    rw [hsame]
    rfl
  | cons record rest ih =>
    obtain ⟨plaintext, next, others, hfirst, hrest, rfl⟩ := Protection.unprotectAll_cons hopened
    have hreceived := h.run_receiveRecord (hrecords record List.mem_cons_self) hfirst (hlimit plaintext List.mem_cons_self)
    have hbehind := ih (h.hearing [plaintext]) (fun other hmem => hrecords other (List.mem_cons_of_mem _ hmem)) hrest
      fun other hmem => hlimit other (List.mem_cons_of_mem _ hmem)
    show EStateM.run (receiveRecord record >>= fun _ => rest.forM receiveRecord) _ = _
    rw [run_bind_of_ok hreceived, hbehind]
    simp only [Endpoint.hearing, List.append_assoc, List.cons_append, List.nil_append]

/-! ### Sending -/

/-- A piece of data is protected, and opened by a context that is where this one was. -/
theorem Talks.exists_run_sendRecord (h : endpoint.Talks limit encoder decoder) (hmaximum : limit ≤ maximumPlaintext)
    (hcipher : encoder.cipher.Invertible) (hsequence : encoder.sequence < Protection.sequenceBound) {piece : Bytes}
    (hpiece : piece.length ≤ limit) :
    ∃ record later entropy, record.Carries (encoder.cipher.sealedLength piece.length) ∧
      record.fragment.length = encoder.cipher.sealedLength piece.length ∧
      (sendRecord .applicationData piece).run endpoint = .ok () (endpoint.telling later [record] entropy) ∧
      encoder.unprotect record.typeCode record.version record.fragment = (.ok piece, later) ∧
      encoder.Follows later 1 := by
  obtain ⟨fragment, later, entropy, hprotect, hfragment, hunprotect, hlater, hcount⟩ :=
    Protection.exists_protect hcipher hsequence ContentType.applicationData.code endpoint.session.version.code
      (show piece.length ≤ Gcm.maximumPlaintext from Nat.le_trans hpiece (Nat.le_trans hmaximum (by decide)))
      endpoint.entropy
  obtain ⟨hsealed, hkept⟩ := Protection.length_of_protect hprotect
  have hencrypt : endpoint.session.encrypt ContentType.applicationData.code piece endpoint.entropy =
      (.ok fragment, { endpoint.session with encrypter := some later }, entropy) := by
    have hstandard : endpoint.session.provider.protect encoder ContentType.applicationData.code
        endpoint.session.version.code piece endpoint.entropy = (.ok fragment, later, entropy) := by
      rw [h.provider]
      exact hprotect
    simp only [Session.encrypt, h.encrypter, hstandard]
  have hlength : fragment.length < 65536 := by
    rw [maximumPlaintext] at hmaximum
    omega
  exact ⟨⟨ContentType.applicationData.code, endpoint.session.version.code, fragment⟩, later, entropy,
    ⟨rfl, Nat.le_of_eq hsealed, hlength⟩, hsealed, run_sendRecord hencrypt (h.plaintextLimit ▸ hpiece) hlength,
    hunprotect, hlater, hcount, hkept⟩

/-- Pieces are protected one by one, as long as there are sequence numbers for them. -/
theorem Talks.exists_run_forM_sendRecord (h : endpoint.Talks limit encoder decoder) (hmaximum : limit ≤ maximumPlaintext)
    (hcipher : encoder.cipher.Invertible) {parts : List Bytes}
    (hsequence : encoder.sequence + parts.length ≤ Protection.sequenceBound)
    (hparts : ∀ piece ∈ parts, piece.length ≤ limit) {room : Nat}
    (hroom : ∀ piece ∈ parts, encoder.cipher.sealedLength piece.length ≤ room) :
    ∃ records later entropy, (∀ record ∈ records, record.Carries room) ∧
      (parts.forM (sendRecord .applicationData)).run endpoint = .ok () (endpoint.telling later records entropy) ∧
      encoder.unprotectAll records = .ok (parts, later) ∧ encoder.Follows later parts.length := by
  induction parts generalizing endpoint encoder with
  | nil =>
    have hsame : endpoint.telling encoder [] endpoint.entropy = endpoint := by
      rw [Endpoint.telling, List.append_nil, ← h.encrypter]
    refine ⟨[], encoder, endpoint.entropy, fun _ hmem => absurd hmem List.not_mem_nil, ?_, rfl, .refl hcipher⟩
    rw [hsame]
    rfl
  | cons piece rest ih =>
    rw [List.length_cons] at hsequence
    obtain ⟨record, next, entropy, hrecord, -, hsent, hopened, hnext⟩ := h.exists_run_sendRecord hmaximum hcipher
      (by omega) (hparts piece List.mem_cons_self)
    have hcount := hnext.sequence
    obtain ⟨records, later, entropy', hrecords, hrest, hbehind, hlater⟩ :=
      ih (h.telling [record] entropy) hnext.invertible (by omega)
        (fun other hmem => hparts other (List.mem_cons_of_mem _ hmem))
        fun other hmem => hnext.sealedLength ▸ hroom other (List.mem_cons_of_mem _ hmem)
    have hfirst := hrecord.mono (hroom piece List.mem_cons_self)
    refine ⟨record :: records, later, entropy', List.forall_mem_cons.mpr ⟨hfirst, hrecords⟩, ?_,
      Protection.unprotectAll_cons_of_ok hopened hbehind, ?_⟩
    · show EStateM.run (sendRecord .applicationData piece >>= fun _ => rest.forM (sendRecord .applicationData)) _ = _
      rw [run_bind_of_ok hsent, hrest]
      simp only [Endpoint.telling, List.append_assoc, List.cons_append, List.nil_append]
    · rw [List.length_cons, Nat.add_comm]
      exact hnext.trans hlater

end Endpoint

/-! ### Connections -/

namespace Connection

variable {connection : Connection Protection} {limit : Nat} {encoder decoder : Protection}

/-- A chunk of the bytes on their way brings the records that it completes. -/
theorem exists_receive_of_talks (h : connection.toEndpoint.Talks limit encoder decoder) {pending : List Record}
    (hpending : ∀ record ∈ pending, record.Carries connection.session.ciphertextLimit) {awaited : List Bytes}
    {last : Protection} (hopened : decoder.unprotectAll pending = .ok (awaited, last))
    (hawaited : ∀ data ∈ awaited, data.length ≤ limit) {chunk back : Bytes}
    (hbytes : connection.incoming ++ chunk ++ back = pending.flatMap Record.bytes) :
    ∃ whole left opened closed next rest, pending = whole ++ left ∧ awaited = opened ++ closed ∧
      connection.receive chunk = (.ok (), ⟨connection.toEndpoint.hearing next opened, rest⟩) ∧
      next.unprotectAll left = .ok (closed, last) ∧ connection.incoming ++ chunk = whole.flatMap Record.bytes ++ rest := by
  have hnext (record : Record) (hmem : record ∈ pending) (rest : Bytes) :
      (Record.framing connection.session.ciphertextLimit).next (record.bytes ++ rest) = .ok (some (record, rest)) :=
    (hpending record hmem).next rest
  obtain ⟨whole, left, rest, rfl, hcut, hleft⟩ := Framing.cut_of_prefix rfl hnext hbytes
  obtain ⟨opened, next, closed, hwhole, hclosed, rfl⟩ := Protection.unprotectAll_append.mp hopened
  have hready : connection.phase.TakesInput := by
    rw [h.phase]
    exact ⟨by decide, by decide⟩
  have hreceived := h.run_receiveRecords
    (fun record hmem => (hpending record (List.mem_append_left _ hmem)).typeCode) hwhole
    fun data hmem => hawaited data (List.mem_append_left _ hmem)
  have harriving : connection.arriving chunk = ⟨whole, rest, none⟩ := hcut
  have hrun : (Endpoint.receiveRecords (connection.arriving chunk)).run connection.toEndpoint =
      .ok () (connection.toEndpoint.hearing next opened) := by
    rw [Endpoint.run_receiveRecords, harriving, hreceived]
  refine ⟨whole, left, opened, closed, next, rest, rfl, rfl, ?_, hclosed, ?_⟩
  · rw [receive_of_ok hready hrun, harriving]
  · rw [List.flatMap_append, ← hleft, ← List.append_assoc] at hbytes
    exact List.append_cancel_right hbytes

theorem send_of_talks (h : connection.toEndpoint.Talks limit encoder decoder) {data : Bytes} {after : Endpoint Protection}
    (hrun : ((pieces limit data).forM (Endpoint.sendRecord .applicationData)).run connection.toEndpoint = .ok () after) :
    connection.send data = (.ok (), ⟨after, connection.incoming⟩) := by
  have hsent : (Endpoint.sendFragmented .applicationData data).run connection.toEndpoint = .ok () after := by
    rw [← hrun, ← h.plaintextLimit]
    rfl
  rw [Connection.send, if_neg (by rw [h.phase]; decide), if_neg (not_not_intro h.handshakeDone)]
  exact perform_of_ok hsent

theorem exists_send_of_talks (h : connection.toEndpoint.Talks limit encoder decoder) (hpositive : 0 < limit)
    (hmaximum : limit ≤ maximumPlaintext) (hcipher : encoder.cipher.Invertible) {data : Bytes}
    (hsequence : encoder.sequence + (pieces limit data).length ≤ Protection.sequenceBound) {room : Nat}
    (hroom : ∀ piece ∈ pieces limit data, encoder.cipher.sealedLength piece.length ≤ room) :
    ∃ records later entropy, (∀ record ∈ records, record.Carries room) ∧
      connection.send data = (.ok (), ⟨connection.toEndpoint.telling later records entropy, connection.incoming⟩) ∧
      encoder.unprotectAll records = .ok (pieces limit data, later) ∧
      encoder.Follows later (pieces limit data).length := by
  obtain ⟨records, later, entropy, hrecords, hrun, hopened, hlater⟩ := h.exists_run_forM_sendRecord hmaximum hcipher
    hsequence (fun piece hmem => (length_le_of_mem_pieces hpositive hmem).2) hroom
  exact ⟨records, later, entropy, hrecords, send_of_talks h hrun, hopened, hlater⟩

end Connection

/-! ### Nothing is overheard

A connected endpoint takes whole messages of application data only, and keeps them, so of bytes that leave
nothing behind there were none. -/

namespace Endpoint

variable {κ : Type} {endpoint : Endpoint κ}

/-- How much an endpoint holds of what it was sent. -/
def held (endpoint : Endpoint κ) : Nat :=
  endpoint.handshake.length + endpoint.received.length

theorem run_receiveMessage_of_connected (h : endpoint.phase = .connected) (message : HandshakeMessage) :
    (receiveMessage message).run endpoint = .error (.sentAlert .unexpectedMessage) endpoint := by
  rw [receiveMessage]
  apply (run_bind_of_ok (EStateM.run_get _)).trans
  rw [h]
  cases endpoint.side <;> rfl

theorem ends_receiveHandshake_of_connected (h : endpoint.phase = .connected) (plaintext : Bytes) :
    Ends (receiveHandshake plaintext) endpoint
      (fun _ after => after.phase = .connected ∧ after.outgoing = endpoint.outgoing ∧ endpoint.held < after.held)
      fun _ _ => True := by
  rw [receiveHandshake]
  refine ends_guard (fun _ => trivial) fun hsome => ?_
  have hmore : 0 < plaintext.length := List.length_pos_iff.mpr (by simpa using hsome)
  show Ends (takeMessages (HandshakeMessage.framing.cut (endpoint.handshake ++ plaintext)))
    { endpoint with handshake := endpoint.handshake ++ plaintext } _ _
  rw [takeMessages, ends_bind]
  cases hitems : (HandshakeMessage.framing.cut (endpoint.handshake ++ plaintext)).items with
  | nil =>
    cases (HandshakeMessage.framing.cut (endpoint.handshake ++ plaintext)).fault with
    | none =>
      refine ⟨h, rfl, ?_⟩
      rw [held, held]
      simp only [List.length_append]
      omega
    | some alert => trivial
  | cons message rest =>
    show Ends (receiveMessage message >>= fun _ => rest.forM takeMessage) { endpoint with handshake := _ } _ _
    rw [ends_bind, Ends, run_receiveMessage_of_connected (by exact h)]
    trivial

theorem ends_receiveRecord_of_connected (h : endpoint.phase = .connected) (record : Record) :
    Ends (receiveRecord record) endpoint
      (fun _ after => after.phase = .connected ∧ after.outgoing = endpoint.outgoing ∧ endpoint.held < after.held)
      fun _ _ => True := by
  rw [receiveRecord, ends_bind, perform_eq, Deed.step_unprotect]
  refine ends_onSession (fun plaintext _ => ?_) fun _ _ => trivial
  rw [step_eq, ends_get_bind]
  refine ends_guard (fun _ => trivial) fun _ => ?_
  split
  · exact ends_receiveHandshake_of_connected (by exact h) plaintext
  · rw [receiveChangeCipherSpec]
    refine ends_guard (fun _ => trivial) fun _ => ?_
    rw [step_eq, ends_get_bind]
    refine ends_guard (fun _ => trivial) fun _ => ends_guard (fun _ => trivial) fun hwaiting => ?_
    exact absurd (show endpoint.phase ≠ .waitChangeCipher by rw [h]; decide) hwaiting
  · rw [step_eq, receiveApplicationData, ends_get_bind]
    refine ends_guard (fun _ => trivial) fun _ => ⟨h, rfl, ?_⟩
    rw [held, held]
    simp only [List.length_append, List.length_cons, List.length_nil]
    omega
  · rw [receiveAlert, ends_bind]
    exact ends_readBody (fun _ _ => trivial) trivial
  · trivial

theorem ends_forM_receiveRecord_of_connected (h : endpoint.phase = .connected) (records : List Record) :
    Ends (records.forM receiveRecord) endpoint
      (fun _ after => after.phase = .connected ∧ after.outgoing = endpoint.outgoing ∧
        endpoint.held + records.length ≤ after.held) fun _ _ => True := by
  induction records generalizing endpoint with
  | nil => exact ⟨h, rfl, Nat.le_refl _⟩
  | cons record rest ih =>
    show Ends (receiveRecord record >>= fun _ => rest.forM receiveRecord) _ _ _
    rw [ends_bind]
    refine (ends_receiveRecord_of_connected h record).mono (fun _ after hafter => ?_) fun _ _ => id
    obtain ⟨hphase, houtgoing, hless⟩ := hafter
    refine (ih hphase).mono (fun _ last hlast => ⟨hlast.1, hlast.2.1.trans houtgoing, ?_⟩) fun _ _ => id
    have hmore := hlast.2.2
    rw [List.length_cons]
    omega

end Endpoint

namespace Connection

variable {κ : Type} {connection after : Connection κ}

/-- What a connected connection takes is kept, and nothing is sent for it. -/
theorem ok_receive_of_connected (h : connection.phase = .connected) {b : Bytes} (hreceive : connection.receive b = (.ok (), after)) :
    after.phase = .connected ∧ after.outgoing = connection.outgoing ∧
      connection.held + (connection.arriving b).items.length ≤ after.held ∧ after.incoming = (connection.arriving b).rest := by
  have hready : connection.phase.TakesInput := by
    rw [h]
    exact ⟨by decide, by decide⟩
  cases hrun : (Endpoint.receiveRecords (connection.arriving b)).run connection.toEndpoint with
  | error failure endpoint =>
    rw [receive_of_error hready hrun] at hreceive
    cases hreceive
  | ok value endpoint =>
    rw [receive_of_ok hready hrun] at hreceive
    obtain rfl := (Prod.mk.inj hreceive).2
    have hall := Endpoint.ends_forM_receiveRecord_of_connected h (connection.arriving b).items
    rw [Ends, Endpoint.forM_of_receiveRecords hrun] at hall
    exact ⟨hall.1, hall.2.1, hall.2.2, rfl⟩

theorem eq_nil_of_receive (h : connection.phase = .connected) {b : Bytes} (hreceive : connection.receive b = (.ok (), after))
    (hheld : after.held = 0) (hincoming : after.incoming = []) : b = [] := by
  obtain ⟨-, -, hless, hrest⟩ := ok_receive_of_connected h hreceive
  have hnone : (connection.arriving b).items = [] := by
    apply List.length_eq_zero_iff.mp
    omega
  have hall : (connection.arriving b).rest = connection.incoming ++ b := Framing.rest_of_cut hnone
  exact (List.append_eq_nil_iff.mp (hall.symm.trans (hrest.symm.trans hincoming))).2

end Connection

end PresharedTls
