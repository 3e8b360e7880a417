import PresharedTls.Proofs.Codec.Messages
import PresharedTls.Proofs.Reachable

/-!
# Messages in records

A message goes out in as many records as the limit on plaintexts asks for, and comes in as if it had
been in one.
-/

namespace PresharedTls

/-! ### Pieces -/

section

variable {α : Type} {size : Nat}

theorem flatten_pieces (l : List α) : (pieces size l).flatten = l := by
  induction l using pieces.induct size with
  | case1 => rw [pieces, List.flatten_nil]
  | case2 x xs ih =>
    rw [pieces, List.flatten_cons, ih, List.cons_append, List.take_append_drop]

theorem length_le_of_mem_pieces (hsize : 0 < size) {l piece : List α} (h : piece ∈ pieces size l) :
    piece ≠ [] ∧ piece.length ≤ size := by
  induction l using pieces.induct size with
  | case1 =>
    rw [pieces] at h
    cases h
  | case2 x xs ih =>
    rw [pieces] at h
    obtain rfl | hrest := List.mem_cons.mp h
    · refine ⟨List.cons_ne_nil _ _, ?_⟩
      rw [List.length_cons, List.length_take]
      omega
    · exact ih hrest

theorem length_pieces (hsize : 0 < size) (l : List α) :
    (pieces size l).length = (l.length + size - 1) / size := by
  induction l using pieces.induct size with
  | case1 =>
    rw [pieces, List.length_nil, List.length_nil, Nat.zero_add, Nat.div_eq_of_lt (by omega)]
  | case2 x xs ih =>
    rw [pieces, List.length_cons, ih, List.length_drop, List.length_cons]
    by_cases hlong : size - 1 ≤ xs.length
    · rw [show xs.length - (size - 1) + size - 1 = xs.length by omega,
        show xs.length + 1 + size - 1 = xs.length + size by omega, Nat.add_div_right _ hsize]
    · rw [Nat.div_eq_of_lt (by omega), show xs.length + 1 + size - 1 = xs.length + size by omega,
        Nat.add_div_right _ hsize, Nat.div_eq_of_lt (by omega)]

theorem length_of_mem_dropLast_pieces (hsize : 0 < size) {l piece : List α}
    (h : piece ∈ (pieces size l).dropLast) : piece.length = size := by
  induction l using pieces.induct size with
  | case1 =>
    rw [pieces] at h
    exact absurd h List.not_mem_nil
  | case2 x xs ih =>
    rw [pieces] at h
    cases hrest : xs.drop (size - 1) with
    | nil =>
      rw [hrest, pieces] at h
      exact absurd h List.not_mem_nil
    | cons y ys =>
      rw [hrest] at ih h
      have hlong := congrArg List.length hrest
      rw [List.length_drop, List.length_cons] at hlong
      rw [pieces, List.dropLast_cons_cons, ← pieces] at h
      obtain rfl | hmem := List.mem_cons.mp h
      · rw [List.length_cons, List.length_take]
        omega
      · exact ih hmem

theorem pieces_of_length_le {l : List α} (hne : l ≠ []) (h : l.length ≤ size) : pieces size l = [l] := by
  cases l with
  | nil => exact absurd rfl hne
  | cons x xs =>
    rw [List.length_cons] at h
    rw [pieces, List.take_of_length_le (by omega), List.drop_of_length_le (by omega), pieces]

end

/-- Data cut into records of which only the last may be shorter than the limit. -/
structure CutInto (limit : Nat) (data : Bytes) (records : List Bytes) : Prop where
  flatten : records.flatten = data
  length : records.length = (data.length + limit - 1) / limit
  full : ∀ record ∈ records.dropLast, record.length = limit
  short : ∀ record ∈ records, record ≠ [] ∧ record.length ≤ limit

theorem cutInto_pieces {limit : Nat} (hlimit : 0 < limit) (data : Bytes) : CutInto limit data (pieces limit data) where
  flatten := flatten_pieces data
  length := length_pieces hlimit data
  full _ := length_of_mem_dropLast_pieces hlimit
  short _ := length_le_of_mem_pieces hlimit

/-! ### Cutting what was put together -/

namespace Framing

variable {α : Type} {framing : Framing α} {bytes : α → Bytes}

theorem cut_flatMap {items : List α} (hnil : framing.next [] = .ok none)
    (hnext : ∀ item ∈ items, ∀ rest, framing.next (bytes item ++ rest) = .ok (some (item, rest))) :
    framing.cut (items.flatMap bytes) = ⟨items, [], none⟩ := by
  induction items with
  | nil => exact cut_of_none hnil
  | cons item rest ih =>
    rw [List.flatMap_cons, cut_of_item (hnext item List.mem_cons_self _),
      ih fun other hmem => hnext other (List.mem_cons_of_mem _ hmem)]

/-- The bytes of one item are no item before they are complete. -/
theorem next_of_append {item : α} {front back : Bytes} (h : framing.next (front ++ back) = .ok (some (item, [])))
    (hback : back ≠ []) : framing.next front = .ok none := by
  cases hfront : framing.next front with
  | error fault =>
    rw [framing.next_append_of_fault back hfront] at h
    cases h
  | ok found =>
    cases found with
    | none => rfl
    | some found =>
      rw [framing.next_append_of_item back hfront] at h
      have hrest := congrArg (·.map (·.2)) (Except.ok.inj h)
      exact absurd (List.append_eq_nil_iff.mp (Option.some.inj hrest)).2 hback

/-- The front of some items' bytes is cut into the items that are whole. -/
theorem cut_of_prefix {items : List α} {front back : Bytes}
    (hnil : framing.next [] = .ok none)
    (hnext : ∀ item ∈ items, ∀ rest, framing.next (bytes item ++ rest) = .ok (some (item, rest)))
    (h : front ++ back = items.flatMap bytes) :
    ∃ whole left rest, items = whole ++ left ∧ framing.cut front = ⟨whole, rest, none⟩ ∧
      rest ++ back = left.flatMap bytes := by
  induction items generalizing front with
  | nil =>
    obtain ⟨rfl, rfl⟩ := List.append_eq_nil_iff.mp h
    exact ⟨[], [], [], rfl, cut_of_none hnil, rfl⟩
  | cons item tail ih =>
    have hitem := hnext item List.mem_cons_self
    rw [List.flatMap_cons] at h
    have hwhole (behind : Bytes) (hfront : front = bytes item ++ behind) (hback : behind ++ back = tail.flatMap bytes) :
        ∃ whole left rest, item :: tail = whole ++ left ∧ framing.cut front = ⟨whole, rest, none⟩ ∧
          rest ++ back = left.flatMap bytes := by
      obtain ⟨whole, left, rest, rfl, hcut, hleft⟩ :=
        ih (fun other hmem => hnext other (List.mem_cons_of_mem _ hmem)) hback
      refine ⟨item :: whole, left, rest, rfl, ?_, hleft⟩
      rw [hfront, cut_of_item (hitem _), hcut]
    rcases List.append_eq_append_iff.mp h with ⟨missing, hfront, hback⟩ | ⟨behind, hfront, hback⟩
    · by_cases hmissing : missing = []
      · rw [hmissing, List.append_nil] at hfront
        rw [hmissing, List.nil_append] at hback
        exact hwhole [] (by rw [List.append_nil, hfront]) hback
      · have hpartial := hitem []
        rw [List.append_nil, hfront] at hpartial
        refine ⟨[], item :: tail, front, rfl, cut_of_none (next_of_append hpartial hmissing), ?_⟩
        rw [List.flatMap_cons, ← h]
    · exact hwhole behind hfront hback.symm

/-- Where no item was cut all bytes are left. -/
theorem rest_of_cut {buffer : Bytes} (h : (framing.cut buffer).items = []) :
    (framing.cut buffer).rest = buffer := by
  fun_induction cut framing buffer with
  | case1 => rfl
  | case2 => rfl
  | case3 => cases h

end Framing

theorem RecordHeader.read?_bytes (header : RecordHeader) (rest : Bytes) :
    read? (header.bytes ++ rest) = some (header, rest) := by
  have hversion := ofBigEndian_uint16 header.version
  have hcount := ofBigEndian_uint16 header.length
  rw [bigEndian_two] at hversion hcount
  simp only [bytes, bigEndian_two, List.cons_append, List.nil_append, read?, hversion, hcount]

theorem RecordHeader.eq_of_read? {b rest : Bytes} {header : RecordHeader} (h : read? b = some (header, rest)) :
    b = header.bytes ++ rest := by
  unfold read? at h
  split at h
  · cases h
    simp only [bytes, bigEndian_ofBigEndian_two, List.cons_append, List.nil_append]
  · cases h

namespace Record

variable {record : Record} {limit : Nat}

section

variable (hlength : record.fragment.length < 65536)
include hlength

theorem toNat_length : (UInt16.ofNat record.fragment.length).toNat = record.fragment.length := by
  rw [UInt16.toNat_ofNat']
  omega

theorem next_bytes (hlimit : record.fragment.length ≤ limit) (rest : Bytes) :
    next limit (record.bytes ++ rest) = .ok (some (record, rest)) := by
  have hheader := toNat_length hlength
  rw [bytes, List.append_assoc, next, RecordHeader.read?_bytes]
  simp only [hheader]
  rw [if_neg (by omega), if_neg (by rw [List.length_append]; omega), List.take_left, List.drop_left]

/-- A record that is too long is refused. -/
theorem next_of_oversize (hlimit : limit < record.fragment.length) (rest : Bytes) :
    next limit (record.bytes ++ rest) = .error .recordOverflow := by
  have hheader := toNat_length hlength
  rw [bytes, List.append_assoc, next, RecordHeader.read?_bytes]
  simp only [hheader]
  rw [if_pos hlimit]

end

/-- What is cut off is a record as it was written. -/
theorem of_next {buffer rest : Bytes} (h : next limit buffer = .ok (some (record, rest))) :
    buffer = record.bytes ++ rest ∧ record.fragment.length < 65536 := by
  unfold next at h
  split at h
  · cases h
  next header body hread =>
  split at h
  · cases h
  split at h
  · cases h
  next henough =>
  cases h
  have hlength : (body.take header.length.toNat).length = header.length.toNat :=
    List.length_take_of_le (Nat.le_of_not_lt henough)
  refine ⟨?_, Nat.lt_of_le_of_lt (List.length_take_le _ _) header.length.toNat_lt⟩
  rw [RecordHeader.eq_of_read? hread, bytes, hlength, UInt16.ofNat_toNat, List.append_assoc, List.take_append_drop]

theorem flatMap_bytes_cut (limit : Nat) (buffer : Bytes) :
    ((framing limit).cut buffer).items.flatMap bytes ++ ((framing limit).cut buffer).rest = buffer ∧
      ∀ record ∈ ((framing limit).cut buffer).items, record.fragment.length < 65536 := by
  fun_induction Framing.cut (framing limit) buffer with
  | case1 => exact ⟨rfl, fun _ hmem => absurd hmem List.not_mem_nil⟩
  | case2 => exact ⟨rfl, fun _ hmem => absurd hmem List.not_mem_nil⟩
  | case3 buffer record rest hitem behind ih =>
    obtain ⟨hbuffer, hlength⟩ := of_next hitem
    refine ⟨?_, fun item hmem => ?_⟩
    · rw [hbuffer, List.flatMap_cons, List.append_assoc, ih.1]
    · rcases List.mem_cons.mp hmem with rfl | hbehind
      · exact hlength
      · exact ih.2 item hbehind

/-- Records can be told from their bytes, one after the other. -/
theorem prefix_of_flatMap_bytes {first second : List Record} (hfirst : ∀ record ∈ first, record.fragment.length < 65536)
    (hsecond : ∀ record ∈ second, record.fragment.length < 65536) (h : first.flatMap bytes <+: second.flatMap bytes) :
    first <+: second := by
  induction first generalizing second with
  | nil => exact List.nil_prefix
  | cons record rest ih =>
    obtain ⟨more, hmore⟩ := h
    rw [List.flatMap_cons, List.append_assoc] at hmore
    have hread {record : Record} (hlength : record.fragment.length < 65536) (rest : Bytes) :
        next 65536 (record.bytes ++ rest) = .ok (some (record, rest)) :=
      next_bytes hlength (Nat.le_of_lt hlength) rest
    have hrecord := hread (hfirst record List.mem_cons_self) (rest.flatMap bytes ++ more)
    cases second with
    | nil =>
      rw [hmore] at hrecord
      cases hrecord
    | cons other behind =>
      have hother := hread (hsecond other List.mem_cons_self) (behind.flatMap bytes)
      rw [hmore, List.flatMap_cons, hother] at hrecord
      obtain ⟨rfl, hbehind⟩ := Prod.mk.inj (Option.some.inj (Except.ok.inj hrecord))
      have hprefix := ih (fun item hmem => hfirst item (List.mem_cons_of_mem _ hmem))
        (fun item hmem => hsecond item (List.mem_cons_of_mem _ hmem)) ⟨more, hbehind.symm⟩
      exact (List.prefix_cons_inj other).mpr hprefix

end Record

theorem Connection.arriving_flight {κ : Type} {connection : Connection κ} (hincoming : connection.incoming = [])
    {records : List Record} (hlimit : ∀ record ∈ records, record.fragment.length ≤ connection.session.ciphertextLimit)
    (hlength : ∀ record ∈ records, record.fragment.length < 65536) :
    connection.arriving (records.flatMap Record.bytes) = ⟨records, [], none⟩ := by
  rw [arriving, hincoming, List.nil_append]
  apply Framing.cut_flatMap rfl
  intro record hmem rest
  exact Record.next_bytes (hlength record hmem) (hlimit record hmem) rest

namespace HandshakeMessage

variable {message : HandshakeMessage}

theorem cut_bytes (h : message.body.length ≤ HandshakeHeader.maximumLength) :
    framing.cut message.bytes = ⟨[message], [], none⟩ := by
  have hnext : ∀ item ∈ [message], ∀ rest, framing.next (item.bytes ++ rest) = .ok (some (item, rest)) := by
    intro item hmem rest
    obtain rfl := List.mem_singleton.mp hmem
    exact next_bytes h rest
  have hcut := Framing.cut_flatMap rfl hnext
  rwa [List.flatMap_singleton] at hcut

theorem cut_front (h : message.body.length ≤ HandshakeHeader.maximumLength) {front back : Bytes}
    (hbytes : front ++ back = message.bytes) (hback : back ≠ []) : framing.cut front = ⟨[], front, none⟩ := by
  have hnext := next_bytes h []
  rw [List.append_nil, ← hbytes] at hnext
  exact Framing.cut_of_none (framing.next_of_append hnext hback)

/-- The records of a message before there is an encrypter. -/
def records (message : HandshakeMessage) (version : UInt16) (limit : Nat) : List Record :=
  (pieces limit message.bytes).map fun piece => ⟨ContentType.handshake.code, version, piece⟩

theorem length_of_mem_records {version : UInt16} {limit : Nat} (hlimit : 0 < limit) {record : Record}
    (h : record ∈ message.records version limit) : record.fragment.length ≤ limit := by
  obtain ⟨piece, hpiece, rfl⟩ := List.mem_map.mp h
  exact (length_le_of_mem_pieces hlimit hpiece).2

end HandshakeMessage

theorem Record.make_of_length_lt (type : ContentType) (version : UInt16) {fragment : Bytes} (h : fragment.length < 65536) :
    Record.make type version fragment = .ok ⟨type.code, version, fragment⟩ := by
  rw [Record.make, RecordHeader.make, if_pos h]
  rfl

namespace Endpoint

variable {κ : Type} {endpoint : Endpoint κ}

/-! ### Sending -/

theorem run_sendRecord {type : ContentType} {plaintext fragment : Bytes} {session : Session κ} {entropy : Entropy}
    (hencrypt : endpoint.session.encrypt type.code plaintext endpoint.entropy = (.ok fragment, session, entropy))
    (hlimit : plaintext.length ≤ endpoint.session.plaintextLimit) (hlength : fragment.length < 65536) :
    (sendRecord type plaintext).run endpoint = .ok () { endpoint with
      session := session
      entropy := entropy
      outgoing := endpoint.outgoing ++ [⟨type.code, session.version.code, fragment⟩] } := by
  have hmake := Record.make_of_length_lt type session.version.code hlength
  simp only [sendRecord, EStateM.run_bind, EStateM.run_get, if_neg (Nat.not_lt.mpr hlimit), hencrypt, EStateM.run_set,
    run_accept_ok, hmake]
  rfl

/-! ### Receiving -/

theorem run_onSession_of_ok {α : Type} (work : Session κ → Except AlertDescription α × Session κ) {value : α}
    {session : Session κ} (h : work endpoint.session = (.ok value, session)) :
    (onSession work).run endpoint = .ok value { endpoint with session := session } := by
  rw [run_onSession, h, run_accept_ok]

/-- What becomes of a plaintext, by the type of its record. -/
def receivePlaintext (type : ContentType) (plaintext : Bytes) : Step κ Unit :=
  match type with
  | .handshake => receiveHandshake plaintext
  | .changeCipherSpec => receiveChangeCipherSpec plaintext
  | .applicationData => receiveApplicationData plaintext
  | .alert => receiveAlert plaintext

theorem run_receiveRecord {session : Session κ} {type : ContentType} {version : UInt16} {fragment plaintext : Bytes}
    (hopened : endpoint.session.decrypt type.code version fragment = (.ok plaintext, session))
    (hlimit : plaintext.length ≤ session.plaintextLimit) :
    (receiveRecord ⟨type.code, version, fragment⟩).run endpoint =
      (receivePlaintext type plaintext).run { endpoint with session := session } := by
  have hunprotected : (perform (.unprotect ⟨type.code, version, fragment⟩)).run endpoint =
      .ok plaintext { endpoint with session := session } :=
    run_onSession_of_ok (·.decrypt type.code version fragment) hopened
  rw [receiveRecord, EStateM.run_bind, hunprotected]
  show EStateM.run (if session.plaintextLimit < plaintext.length then _ else _) _ = _
  rw [if_neg (Nat.not_lt.mpr hlimit), ContentType.ofCode?_code]
  cases type <;> rfl

theorem run_receiveRecord_clear (hclear : endpoint.session.decrypter = none) {type : ContentType} {version : UInt16}
    {plaintext : Bytes} (hlimit : plaintext.length ≤ endpoint.session.plaintextLimit) :
    (receiveRecord ⟨type.code, version, plaintext⟩).run endpoint = (receivePlaintext type plaintext).run endpoint := by
  have hopened : endpoint.session.decrypt type.code version plaintext = (.ok plaintext, endpoint.session) := by
    simp only [Session.decrypt, hclear]
  exact run_receiveRecord hopened hlimit

theorem run_receiveHandshake {plaintext : Bytes} (hne : plaintext ≠ []) {messages : Cut HandshakeMessage}
    (hcut : HandshakeMessage.framing.cut (endpoint.handshake ++ plaintext) = messages) :
    (receiveHandshake plaintext).run endpoint =
      (takeMessages messages).run { endpoint with handshake := endpoint.handshake ++ plaintext } := by
  have hsome : plaintext.isEmpty = false := by simpa using hne
  rw [receiveHandshake, hsome]
  show EStateM.run (takeMessages (HandshakeMessage.framing.cut (endpoint.handshake ++ plaintext))) _ = _
  rw [hcut]

/-- The last plaintext of a message hands it over. -/
theorem run_receiveHandshake_last {front piece : Bytes} {message : HandshakeMessage}
    (hbody : message.body.length ≤ HandshakeHeader.maximumLength) (hpiece : piece ≠ [])
    (hbytes : front ++ piece = message.bytes) :
    (receiveHandshake piece).run { endpoint with handshake := front } =
      (receiveMessage message).run { endpoint with handshake := [] } := by
  have hcut : HandshakeMessage.framing.cut (front ++ piece) = ⟨[message], [], none⟩ := by
    rw [hbytes]
    exact HandshakeMessage.cut_bytes hbody
  have htaken : (takeMessage message).run { endpoint with handshake := front ++ piece } =
      (receiveMessage message).run { endpoint with handshake := [] } := by
    show (receiveMessage message).run { endpoint with handshake := (front ++ piece).drop message.bytes.length } = _
    rw [hbytes, List.drop_length]
  refine (@run_receiveHandshake _ { endpoint with handshake := front } _ hpiece _ hcut).trans ?_
  show EStateM.run ((takeMessage message >>= fun _ => pure PUnit.unit) >>= fun _ => pure PUnit.unit) _ = _
  rw [EStateM.run_bind, EStateM.run_bind, htaken]
  cases (receiveMessage message).run { endpoint with handshake := [] } <;> rfl

/-- Records that are not protected bring a message, whatever it was cut into. -/
theorem run_forM_pieces (hclear : endpoint.session.decrypter = none) {message : HandshakeMessage}
    (hbody : message.body.length ≤ HandshakeHeader.maximumLength) (version : UInt16) {parts : List Bytes} (front : Bytes)
    (hparts : ∀ part ∈ parts, part ≠ [] ∧ part.length ≤ endpoint.session.plaintextLimit) (hne : parts ≠ [])
    (hbytes : front ++ parts.flatten = message.bytes) :
    ((parts.map fun part => (⟨ContentType.handshake.code, version, part⟩ : Record)).forM receiveRecord).run
        { endpoint with handshake := front } =
      (receiveMessage message).run { endpoint with handshake := [] } := by
  induction parts generalizing front with
  | nil => exact absurd rfl hne
  | cons part rest ih =>
    obtain ⟨hpart, hlimit⟩ := hparts part List.mem_cons_self
    have hrecord : (receiveRecord ⟨ContentType.handshake.code, version, part⟩).run { endpoint with handshake := front } =
        (receiveHandshake part).run { endpoint with handshake := front } :=
      @run_receiveRecord_clear _ { endpoint with handshake := front } hclear _ _ _ hlimit
    show EStateM.run (receiveRecord _ >>= fun _ => (rest.map _).forM receiveRecord) _ = _
    rw [EStateM.run_bind, hrecord]
    by_cases hlast : rest = []
    · subst hlast
      rw [List.flatten_singleton] at hbytes
      rw [run_receiveHandshake_last hbody hpart hbytes]
      cases (receiveMessage message).run { endpoint with handshake := [] } <;> rfl
    · have hback : rest.flatten ≠ [] := by
        obtain ⟨next, behind, rfl⟩ := List.exists_cons_of_ne_nil hlast
        have hnext := (hparts next (List.mem_cons_of_mem _ List.mem_cons_self)).1
        simp [hnext]
      rw [List.flatten_cons, ← List.append_assoc] at hbytes
      have hcut := HandshakeMessage.cut_front hbody hbytes hback
      have hcollected : (receiveHandshake part).run { endpoint with handshake := front } =
          .ok () { endpoint with handshake := front ++ part } :=
        @run_receiveHandshake _ { endpoint with handshake := front } _ hpart _ hcut
      rw [hcollected]
      exact ih (front ++ part) (fun other hmem => hparts other (List.mem_cons_of_mem _ hmem)) hlast hbytes

theorem run_forM_records (hclear : endpoint.session.decrypter = none) (hnothing : endpoint.handshake = [])
    {message : HandshakeMessage} (hbody : message.body.length ≤ HandshakeHeader.maximumLength) {limit : Nat}
    (hpositive : 0 < limit) (hlimit : limit ≤ endpoint.session.plaintextLimit) (version : UInt16) :
    ((message.records version limit).forM receiveRecord).run endpoint = (receiveMessage message).run endpoint := by
  have hsame : { endpoint with handshake := [] } = endpoint := by
    cases endpoint
    simp_all
  have hparts : ∀ part ∈ pieces limit message.bytes, part ≠ [] ∧ part.length ≤ endpoint.session.plaintextLimit := by
    intro part hmem
    obtain ⟨hne, hlength⟩ := length_le_of_mem_pieces hpositive hmem
    exact ⟨hne, Nat.le_trans hlength hlimit⟩
  have hflatten := @flatten_pieces _ limit message.bytes
  have hne : pieces limit message.bytes ≠ [] := by
    intro hnil
    rw [hnil] at hflatten
    exact message.bytes_ne_nil hflatten.symm
  have hrun := run_forM_pieces hclear hbody version [] hparts hne hflatten
  rwa [hsame] at hrun

end Endpoint

end PresharedTls
