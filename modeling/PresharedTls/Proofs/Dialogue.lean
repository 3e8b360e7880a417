import PresharedTls.Proofs.Outcome
import PresharedTls.Proofs.Passage

/-!
# Dialogues

Two applications that talk over a network, each when it likes. An end is early until the last byte of the
handshake has reached it, and then it is late. What has reached an early end is a part of what reaches it in
any handshake between the two, so its state is known from there. A late end is known by its contexts and
by what went through them: all that its peer has sent is what it has opened, the bytes of a record that is
not whole, and what is on its way.
-/

namespace PresharedTls

variable {κ : Type}

inductive Turn where
  | move (move : Move)
  /-- The application at an end sends. -/
  | send (role : Role) (data : Bytes)
  /-- The application at an end reads one record. -/
  | read (role : Role)

structure Dialogue (κ : Type) where
  network : Network κ
  /-- What an end was given to send since its handshake was done; before that it is refused. -/
  sent : Role → List Bytes
  /-- What the application at an end has read, a record each. -/
  read : Role → List Bytes

def Network.withConnection (network : Network κ) (role : Role) (connection : Connection κ) : Network κ :=
  { network with connection := Function.update network.connection role connection }

namespace Dialogue

/-- Nothing has been sent or read over the network. -/
def fresh (network : Network κ) : Dialogue κ :=
  ⟨network, fun _ => [], fun _ => []⟩

def step (dialogue : Dialogue κ) : Turn → Dialogue κ
  | .move move => { dialogue with network := dialogue.network.step move }
  | .send role data =>
    let connection := dialogue.network.connection role
    { dialogue with
      network := dialogue.network.withConnection role (connection.send data).2
      sent := if connection.session.handshakeDone then
          Function.update dialogue.sent role (dialogue.sent role ++ [data])
        else dialogue.sent }
  | .read role =>
    let connection := dialogue.network.connection role
    { dialogue with
      network := dialogue.network.withConnection role connection.read.2
      read := Function.update dialogue.read role (dialogue.read role ++ connection.read.1.toList) }

def run (dialogue : Dialogue κ) (turns : List Turn) : Dialogue κ :=
  turns.foldl step dialogue

end Dialogue

/-! ### The two ends -/

/-- What went through one end of a direction, and the context there. -/
structure Gate where
  records : List Record
  data : List Bytes
  context : Protection

/-- What there is to know about one end of a dialogue. -/
structure End where
  connection : Connection Protection
  sent : List Bytes
  read : List Bytes
  /-- The bytes that have reached it. -/
  heard : Bytes
  /-- The records that it has handed over. -/
  taken : List Record
  outlet : Gate
  inlet : Gate

namespace Gate

/-- Nothing went through. -/
def shut (context : Protection) : Gate :=
  ⟨[], [], context⟩

/-- The data were protected in order, from the context `initial` on, in records within the far end's limit. -/
structure Sound (limit room : Nat) (initial : Protection) (outlet : Gate) : Prop where
  carries : ∀ record ∈ outlet.records, record.Carries room
  short : ∀ piece ∈ outlet.data, piece.length ≤ limit
  follows : initial.Follows outlet.context outlet.data.length

/-- The context at the far end opens the records on their way, and becomes the one at the near end. -/
def Reaches (outlet inlet : Gate) : Prop :=
  ∃ pending awaited, outlet.records = inlet.records ++ pending ∧ outlet.data = inlet.data ++ awaited ∧
    inlet.context.unprotectAll pending = .ok (awaited, outlet.context)

theorem Reaches.refl (gate : Gate) : gate.Reaches gate :=
  ⟨[], [], (List.append_nil _).symm, (List.append_nil _).symm, rfl⟩

end Gate

/-- A handshake that succeeds at both ends when the bytes `streams` have reached them. -/
structure Handshaken (origin : Role → Connection Protection) (streams : Role → Bytes) (context : Role → Protection)
    (limit : Nat) : Prop where
  ready : ∀ role, (origin role).phase.TakesInput
  waits : ∀ role, (origin role).Waits
  unconnected : ∀ role, (origin role).phase ≠ .connected
  balanced : Network.Balanced origin streams
  succeeds : ∀ role, ((origin role).receive (streams role)).1 = .ok ()
  talks : ∀ role, ((origin role).receive (streams role)).2.toEndpoint.Talks limit (context role) (context role.peer)
  held : ∀ role, ((origin role).receive (streams role)).2.held = 0
  incoming : ∀ role, ((origin role).receive (streams role)).2.incoming = []
  connected : ∀ role b, ((origin role).receive b).2.phase.isOver = false →
    ((origin role).receive b).2.session.handshakeDone = true → ((origin role).receive b).2.phase = .connected
  begun : ∀ role, ∃ params, (context role).Begun params role
  positive : 0 < limit
  maximum : limit ≤ maximumPlaintext

variable {origin : Role → Connection Protection} {streams : Role → Bytes} {context : Role → Protection} {limit : Nat}
  {role : Role}

theorem Handshaken.receive_of_prefix (h : Handshaken origin streams context limit) {heard rest : Bytes}
    (hstream : streams role = heard ++ rest) : ((origin role).receive heard).1 = .ok () := by
  have hboth := (Connection.receive_receive (h.ready role) heard rest).2
  rw [← hstream, h.succeeds] at hboth
  exact failureOf_eq_none.mp (Option.or_eq_none_iff.mp hboth).1

namespace End

/-- An end that has not heard the whole handshake. -/
structure Early (origin : Connection Protection) (stream : Bytes) (own other : Protection) (near : End) : Prop where
  within : near.heard <+: stream
  more : near.heard ≠ stream
  connection : near.connection.behind near.taken [] = (origin.receive near.heard).2
  sent : near.sent = []
  read : near.read = []
  outlet : near.outlet = .shut own
  inlet : near.inlet = .shut other

/-- An end that has. It has given the `answer` before any data, and takes records with `room` for them. -/
structure Late (stream answer : Bytes) (limit room : Nat) (near : End) : Prop where
  talks : near.connection.toEndpoint.Talks limit near.outlet.context near.inlet.context
  ciphertextLimit : near.connection.session.ciphertextLimit = room
  waits : near.connection.Waits
  taken : (near.taken ++ near.connection.outgoing).flatMap Record.bytes =
    answer ++ near.outlet.records.flatMap Record.bytes
  heard : near.heard = stream ++ (near.inlet.records.flatMap Record.bytes ++ near.connection.incoming)
  sent : near.sent.flatMap (pieces limit) = near.outlet.data
  read : near.read ++ near.connection.received = near.inlet.data

variable {near : End}

/-- The end that nothing has reached. -/
def fresh (connection : Connection Protection) (own other : Protection) : End :=
  ⟨connection, [], [], [], [], .shut own, .shut other⟩

/-! ### Early ends -/

namespace Early

theorem exists_rest {stream : Bytes} {start : Connection Protection} {own other : Protection}
    (hearly : near.Early start stream own other) : ∃ rest, rest ≠ [] ∧ stream = near.heard ++ rest := by
  obtain ⟨rest, hrest⟩ := hearly.within
  refine ⟨rest, fun hnil => hearly.more ?_, hrest.symm⟩
  rw [← hrest, hnil, List.append_nil]

section

variable (hearly : near.Early (origin role) (streams role) (context role) (context role.peer))
  (h : Handshaken origin streams context limit)
include h hearly

/-- Bytes of the handshake are taken without a failure. -/
theorem receive {chunk rest : Bytes} (hstream : streams role = near.heard ++ chunk ++ rest) :
    (near.connection.receive chunk).1 = .ok () ∧
      (near.connection.receive chunk).2.behind near.taken [] = ((origin role).receive (near.heard ++ chunk)).2 := by
  obtain ⟨hconnection, hfailure⟩ := Connection.receive_receive (h.ready role) near.heard chunk
  rw [h.receive_of_prefix hstream, ← hearly.connection, Connection.receive_behind] at hfailure
  rw [← hearly.connection, Connection.receive_behind] at hconnection
  exact ⟨failureOf_eq_none.mp (Option.or_eq_none_iff.mp hfailure).2, hconnection⟩

/-- So are its last bytes. -/
theorem receive_last {chunk : Bytes} (hstream : streams role = near.heard ++ chunk) :
    (near.connection.receive chunk).1 = .ok () ∧
      (near.connection.receive chunk).2.behind near.taken [] = ((origin role).receive (streams role)).2 := by
  have hall : streams role = near.heard ++ chunk ++ [] := by
    rw [List.append_nil]
    exact hstream
  rw [hstream]
  exact hearly.receive h hall

theorem takesInput : near.connection.phase.TakesInput := by
  obtain ⟨rest, -, hstream⟩ := hearly.exists_rest
  have hready : ((origin role).receive near.heard).2.phase.TakesInput :=
    Connection.takesInput_of_receive (h.ready role) (Prod.ext (h.receive_of_prefix hstream) rfl)
  rw [← hearly.connection] at hready
  exact hready

theorem received : near.connection.received = [] := by
  obtain ⟨rest, -, hstream⟩ := hearly.exists_rest
  have hkept := ((origin role).receive near.heard).2.received_receive rest
  have hnone : ((origin role).receive (streams role)).2.received = [] :=
    List.length_eq_zero_iff.mp (Nat.eq_zero_of_add_eq_zero_left (h.held role))
  rw [(Connection.receive_receive (h.ready role) near.heard rest).1, ← hstream, hnone, ← hearly.connection] at hkept
  exact List.prefix_nil.mp hkept

/-- An end whose handshake is done takes nothing more that belongs to it. -/
theorem handshakeDone : near.connection.session.handshakeDone = false := by
  obtain ⟨rest, hmore, hstream⟩ := hearly.exists_rest
  have hready := hearly.takesInput h
  have hconnected := h.connected role near.heard
  obtain ⟨hsucceeds, hbehind⟩ := hearly.receive_last h hstream
  rw [← hearly.connection] at hconnected
  by_contra hdone
  have hreceive : (near.connection.behind near.taken []).receive rest = (.ok (), ((origin role).receive (streams role)).2) := by
    rw [Connection.receive_behind, ← hbehind, ← hsucceeds]
  exact hmore (Connection.eq_nil_of_receive (hconnected hready.2 ((Bool.not_eq_false _).mp hdone)) hreceive (h.held role)
    (h.incoming role))

end

end Early

/-! ### What reaches an end -/

/-- The end once more bytes have reached it. -/
def hears (chunk : Bytes) (inlet : Gate) (near : End) : End :=
  { near with
    connection := (near.connection.receive chunk).2
    heard := near.heard ++ chunk
    inlet := inlet }

theorem Late.exists_hears {stream answer : Bytes} {room : Nat} (hlate : near.Late stream answer limit room)
    {initial : Protection} {outlet : Gate} (hsound : outlet.Sound limit room initial)
    (hreaches : outlet.Reaches near.inlet) {chunk back : Bytes}
    (hbytes : near.heard ++ chunk ++ back = stream ++ outlet.records.flatMap Record.bytes) :
    ∃ inlet, (near.connection.receive chunk).1 = .ok () ∧ outlet.Reaches inlet ∧
      (near.hears chunk inlet).Late stream answer limit room := by
  obtain ⟨pending, awaited, hrecords, hdata, hopened⟩ := hreaches
  have hpending : near.connection.incoming ++ chunk ++ back = pending.flatMap Record.bytes := by
    rw [hlate.heard, hrecords, List.flatMap_append] at hbytes
    simpa only [List.append_assoc, List.append_cancel_left_eq] using hbytes
  obtain ⟨whole, left, opened, closed, next, rest, rfl, rfl, hreceive, hclosed, hwhole⟩ :=
    near.connection.exists_receive_of_talks hlate.talks (fun record hmem =>
        hlate.ciphertextLimit ▸ hsound.carries record (hrecords ▸ List.mem_append_right _ hmem)) hopened
      (fun data hmem => hsound.short data (hdata ▸ List.mem_append_right _ hmem)) hpending
  have hwaits := hlate.waits.receive chunk
  rw [hreceive] at hwaits
  refine ⟨⟨near.inlet.records ++ whole, near.inlet.data ++ opened, next⟩, by rw [hreceive],
    ⟨left, closed, by rw [hrecords, List.append_assoc], by rw [hdata, List.append_assoc], hclosed⟩, ?_⟩
  rw [hears, hreceive]
  exact
    { talks := hlate.talks.hearing opened
      ciphertextLimit := hlate.ciphertextLimit
      waits := hwaits
      taken := hlate.taken
      heard := by
        rw [hlate.heard, List.append_assoc, List.append_assoc, hwhole, List.flatMap_append, List.append_assoc]
      sent := hlate.sent
      read := by
        rw [← hlate.read, List.append_assoc]
        rfl }

section

variable (hearly : near.Early (origin role) (streams role) (context role) (context role.peer))
  (h : Handshaken origin streams context limit)
include h hearly

theorem Early.hears_early {chunk rest : Bytes} (hstream : streams role = near.heard ++ chunk ++ rest) (hrest : rest ≠ []) :
    (near.hears chunk near.inlet).Early (origin role) (streams role) (context role) (context role.peer) where
  within := ⟨rest, hstream.symm⟩
  more hall := hrest (List.self_eq_append_right.mp ((show near.heard ++ chunk = streams role from hall).trans hstream))
  connection := (hearly.receive h hstream).2
  sent := hearly.sent
  read := hearly.read
  outlet := hearly.outlet
  inlet := hearly.inlet

/-- The last bytes of the handshake make an early end late. -/
theorem Early.hears_late {chunk : Bytes} (hstream : streams role = near.heard ++ chunk) :
    (near.hears chunk near.inlet).Late (streams role) (streams role.peer) limit
      (origin role).session.ciphertextLimit := by
  have hconnection := (hearly.receive_last h hstream).2
  have htalks := h.talks role
  have hincoming := h.incoming role
  have hheld := h.held role
  have houtput := h.balanced role
  have hroom : ((origin role).receive (streams role)).2.session.ciphertextLimit = (origin role).session.ciphertextLimit :=
    ((origin role).fixed_run [.receive (streams role)]).session.ciphertextLimit
  rw [Connection.output] at houtput
  rw [← hconnection] at htalks hincoming hheld houtput hroom
  have hreceived : (near.connection.receive chunk).2.received = [] :=
    List.length_eq_zero_iff.mp (Nat.eq_zero_of_add_eq_zero_left hheld)
  exact
    { talks := by
        rw [hears, hearly.outlet, hearly.inlet]
        exact ⟨htalks.phase, htalks.handshakeDone, htalks.provider, htalks.plaintextLimit, htalks.encrypter,
          htalks.decrypter⟩
      ciphertextLimit := hroom
      waits := Connection.waits_of_incoming_nil hincoming
      taken := by
        rw [houtput, hears, hearly.outlet, Gate.shut, List.flatMap_nil, List.append_nil]
        rfl
      heard := by
        show near.heard ++ chunk = _
        rw [hears, hearly.inlet, Gate.shut, List.flatMap_nil, List.nil_append, ← hstream]
        exact (hincoming ▸ List.append_nil _).symm
      sent := by
        rw [hears, hearly.sent, hearly.outlet]
        rfl
      read := by
        rw [hears, hearly.read, hearly.inlet]
        exact hreceived }

end

/-- Where an end is. -/
def Placed (origin : Role → Connection Protection) (streams : Role → Bytes) (context : Role → Protection) (limit : Nat)
    (role : Role) (near : End) : Prop :=
  near.Early (origin role) (streams role) (context role) (context role.peer) ∨
    near.Late (streams role) (streams role.peer) limit (origin role).session.ciphertextLimit

theorem Late.flush {stream answer : Bytes} {room : Nat} (hlate : near.Late stream answer limit room) : ({ near with
    connection := near.connection.takeOutgoing.2
    taken := near.taken ++ near.connection.outgoing } : End).Late stream answer limit room := by
  refine ⟨hlate.talks.withQueues [] near.connection.received, hlate.ciphertextLimit, hlate.waits, ?_, hlate.heard,
    hlate.sent, hlate.read⟩
  rw [← hlate.taken]
  exact congrArg _ (List.append_nil _)

section

variable (hplaced : near.Placed origin streams context limit role) (h : Handshaken origin streams context limit)
include h hplaced

/-- No delivery fails. -/
theorem Placed.exists_hears {initial : Protection} {outlet : Gate}
    (hsound : outlet.Sound limit (origin role).session.ciphertextLimit initial) (hreaches : outlet.Reaches near.inlet)
    {chunk back : Bytes} (hbytes : near.heard ++ chunk ++ back = streams role ++ outlet.records.flatMap Record.bytes) :
    ∃ inlet, (near.connection.receive chunk).1 = .ok () ∧ outlet.Reaches inlet ∧
      (near.hears chunk inlet).Placed origin streams context limit role := by
  rcases hplaced with hearly | hlate
  · rcases List.append_eq_append_iff.mp hbytes with ⟨missing, hstream, -⟩ | ⟨extra, hheard, hbehind⟩
    · refine ⟨near.inlet, (hearly.receive h hstream).1, hreaches, ?_⟩
      by_cases hmissing : missing = []
      · rw [hmissing, List.append_nil] at hstream
        exact .inr (hearly.hears_late h hstream)
      · exact .inl (hearly.hears_early h hstream hmissing)
    · -- The chunk ends the handshake and goes on with data.
      obtain ⟨rest, -, hstream⟩ := hearly.exists_rest
      obtain rfl : chunk = rest ++ extra := by
        rw [hstream, List.append_assoc] at hheard
        exact List.append_cancel_left hheard
      have hfirst := (hearly.receive_last h hstream).1
      have hmore : (near.hears rest near.inlet).heard ++ extra ++ back =
          streams role ++ outlet.records.flatMap Record.bytes := by
        show near.heard ++ rest ++ extra ++ back = _
        rw [← hstream, hbehind, List.append_assoc]
      obtain ⟨inlet, hok, hreached, hlast⟩ := (hearly.hears_late h hstream).exists_hears hsound hreaches hmore
      have hreceive : near.connection.receive (rest ++ extra) = (near.hears rest near.inlet).connection.receive extra := by
        have hboth : near.connection.receive rest = (.ok (), (near.hears rest near.inlet).connection) := Prod.ext hfirst rfl
        rw [Connection.receive_append (hearly.takesInput h), hboth]
      refine ⟨inlet, by rw [hreceive, hok], hreached, .inr ?_⟩
      have hsame : near.hears (rest ++ extra) inlet = (near.hears rest near.inlet).hears extra inlet := by
        simp only [hears, hreceive, List.append_assoc]
      rw [hsame]
      exact hlast
  · obtain ⟨inlet, hok, hreached, hnext⟩ := hlate.exists_hears hsound hreaches hbytes
    exact ⟨inlet, hok, hreached, .inr hnext⟩

/-! ### What an end does -/

/-- What was handed over is a part of what the peer is to hear. -/
theorem Placed.exists_back : ∃ back, near.taken.flatMap Record.bytes ++ back =
    streams role.peer ++ near.outlet.records.flatMap Record.bytes := by
  rcases hplaced with hearly | hlate
  · have hmono := Connection.output_mono (h.ready role) hearly.within
    rw [← h.balanced role, Connection.output, ← hearly.connection] at hmono
    obtain ⟨back, hback⟩ := hmono
    refine ⟨near.connection.outgoing.flatMap Record.bytes ++ back, ?_⟩
    rw [hearly.outlet, Gate.shut, List.flatMap_nil, List.append_nil, ← hback, ← List.append_assoc, ← List.flatMap_append]
    rfl
  · exact ⟨near.connection.outgoing.flatMap Record.bytes, by rw [← List.flatMap_append, hlate.taken]⟩

omit h in
theorem Placed.flush : ({ near with
    connection := near.connection.takeOutgoing.2
    taken := near.taken ++ near.connection.outgoing } : End).Placed origin streams context limit role := by
  rcases hplaced with hearly | hlate
  · refine .inl ⟨hearly.within, hearly.more, ?_, hearly.sent, hearly.read, hearly.outlet, hearly.inlet⟩
    rw [← hearly.connection]
    simp [Connection.behind, Endpoint.behind, Connection.takeOutgoing]
  · exact .inr hlate.flush

theorem Placed.pop : ({ near with
    connection := near.connection.read.2
    read := near.read ++ near.connection.read.1.toList } : End).Placed origin streams context limit role := by
  rcases hplaced with hearly | hlate
  · have hnothing : near.connection.read = (none, near.connection) := by
      rw [Connection.read, hearly.received h]
    rw [hnothing]
    exact .inl ⟨hearly.within, hearly.more, hearly.connection, hearly.sent, (List.append_nil _).trans hearly.read,
      hearly.outlet, hearly.inlet⟩
  · cases hreceived : near.connection.received with
    | nil =>
      have hnothing : near.connection.read = (none, near.connection) := by
        rw [Connection.read, hreceived]
      rw [hnothing]
      exact .inr ⟨hlate.talks, hlate.ciphertextLimit, hlate.waits, hlate.taken, hlate.heard, hlate.sent, by
        rw [← hlate.read]
        simp⟩
    | cons data rest =>
      have hpopped : near.connection.read = (some data, { near.connection with received := rest }) := by
        rw [Connection.read, hreceived]
      rw [hpopped]
      refine .inr ⟨hlate.talks.withQueues near.connection.outgoing rest, hlate.ciphertextLimit, hlate.waits, hlate.taken,
        hlate.heard, hlate.sent, ?_⟩
      rw [← hlate.read, hreceived]
      simp

/-- Data that an end is given go through its outlet if its handshake is done, and nowhere otherwise. -/
theorem Placed.exists_give {room : Nat} (hsound : near.outlet.Sound limit room (context role)) {inlet : Gate}
    (hreaches : near.outlet.Reaches inlet) {data : Bytes} (hcount : near.connection.session.handshakeDone = true →
      ((near.sent ++ [data]).flatMap (pieces limit)).length < Protection.sequenceBound)
    (hroom : near.connection.session.handshakeDone = true →
      ∀ piece ∈ pieces limit data, (context role).cipher.sealedLength piece.length ≤ room) :
    ∃ outlet, outlet.Sound limit room (context role) ∧ outlet.Reaches inlet ∧ ({ near with
      connection := (near.connection.send data).2
      sent := if near.connection.session.handshakeDone then near.sent ++ [data] else near.sent
      outlet := outlet } : End).Placed origin streams context limit role := by
  rcases hplaced with hearly | hlate
  · have hdone := hearly.handshakeDone h
    have hrefused : (near.connection.send data).2 = near.connection := by
      rw [Connection.send, hdone]
      split <;> rfl
    refine ⟨near.outlet, hsound, hreaches, .inl ?_⟩
    rw [hrefused, hdone]
    exact hearly
  · have hfew := hcount hlate.talks.handshakeDone
    have hfits := hroom hlate.talks.handshakeDone
    obtain ⟨_, hbegun⟩ := h.begun role
    rw [List.flatMap_append, List.flatMap_singleton, List.length_append, hlate.sent] at hfew
    rw [← hsound.follows.sealedLength] at hfits
    obtain ⟨records, later, entropy, hcarries, hsend, hopened, hlater⟩ :=
      near.connection.exists_send_of_talks hlate.talks h.positive h.maximum hsound.follows.invertible
        (show _ + (pieces limit data).length ≤ _ by rw [hsound.follows.sequence, hbegun.sequence]; omega) hfits
    have hwaits := hlate.waits.send data
    rw [hsend] at hwaits
    refine ⟨⟨near.outlet.records ++ records, near.outlet.data ++ pieces limit data, later⟩, ?_, ?_, .inr ?_⟩
    · refine ⟨fun record hmem => ?_, fun piece hmem => ?_, ?_⟩
      · exact (List.mem_append.mp hmem).elim (hsound.carries record) (hcarries record)
      · exact (List.mem_append.mp hmem).elim (hsound.short piece) fun hnew => (length_le_of_mem_pieces h.positive hnew).2
      · rw [List.length_append]
        exact hsound.follows.trans hlater
    · obtain ⟨pending, awaited, hrecords, hdata, hall⟩ := hreaches
      refine ⟨pending ++ records, awaited ++ pieces limit data, ?_, ?_,
        Protection.unprotectAll_append.mpr ⟨awaited, _, _, hall, hopened, rfl⟩⟩
      · rw [hrecords, List.append_assoc]
      · rw [hdata, List.append_assoc]
    · rw [hsend, if_pos hlate.talks.handshakeDone]
      refine ⟨hlate.talks.telling records entropy, hlate.ciphertextLimit, hwaits, ?_, hlate.heard, ?_, hlate.read⟩
      · show (near.taken ++ (near.connection.outgoing ++ records)).flatMap Record.bytes = _
        rw [← List.append_assoc, List.flatMap_append, hlate.taken, List.flatMap_append, List.append_assoc]
      · rw [List.flatMap_append, List.flatMap_singleton, hlate.sent]

/-! ### What that comes to -/

omit h in
theorem Placed.sent_eq : near.sent.flatMap (pieces limit) = near.outlet.data := by
  rcases hplaced with hearly | hlate
  · rw [hearly.sent, hearly.outlet]
    rfl
  · exact hlate.sent

theorem Placed.read_eq : near.read ++ near.connection.received = near.inlet.data := by
  rcases hplaced with hearly | hlate
  · rw [hearly.read, hearly.received h, hearly.inlet]
    rfl
  · exact hlate.read

theorem Placed.takesInput : near.connection.phase.TakesInput := by
  rcases hplaced with hearly | hlate
  · exact hearly.takesInput h
  · rw [hlate.talks.phase]
    exact ⟨by decide, by decide⟩

theorem Placed.waits : near.connection.Waits := by
  rcases hplaced with hearly | hlate
  · have hwaits := (h.waits role).receive near.heard
    rw [← hearly.connection] at hwaits
    exact hwaits
  · exact hlate.waits

theorem Placed.plaintextLimit (hdone : near.connection.session.handshakeDone = true) :
    near.connection.session.plaintextLimit = limit := by
  rcases hplaced with hearly | hlate
  · cases (hearly.handshakeDone h).symm.trans hdone
  · exact hlate.talks.plaintextLimit

end

end End

end PresharedTls
