import Mathlib.Algebra.GroupWithZero.Nat
import PresharedTls.Proofs.Delivery

/-!
# Records that are too long

The limit on ciphertexts is at least that on plaintexts, and what protection adds to a plaintext is not
taken into account. So an end whose limit is set low refuses records that another end has to make of
plaintexts within the limit, and which ones is decided by the length of the fragment alone.
-/

namespace PresharedTls

/-! ### Refusals -/

namespace Connection

/-- Between records, one that is too long ends the connection, and what waits for the reader stays. -/
theorem exists_receive_of_oversize {κ : Type} {connection after : Connection κ} (hready : connection.phase.TakesInput)
    {front : Bytes} (hfront : connection.receive front = (.ok (), after)) (hincoming : after.incoming = []) {record : Record}
    (hlength : record.fragment.length < 65536) (hlimit : after.session.ciphertextLimit < record.fragment.length) :
    ∃ last, connection.receive (front ++ record.bytes) = (.error (.sentAlert .recordOverflow), last) ∧
      last.received = after.received := by
  have hnext := Record.next_of_oversize hlength hlimit []
  rw [List.append_nil] at hnext
  have harriving : after.arriving record.bytes = ⟨[], record.bytes, some .recordOverflow⟩ := by
    rw [arriving, hincoming, List.nil_append]
    exact Framing.cut_of_fault hnext
  have hrun : (Endpoint.receiveRecords (after.arriving record.bytes)).run after.toEndpoint =
      .error (.sentAlert .recordOverflow) after.toEndpoint := by
    rw [harriving]
    rfl
  have hboth : connection.receive (front ++ record.bytes) = after.receive record.bytes := by
    rw [receive_append hready, hfront]
  exact ⟨_, hboth.trans (receive_of_error (takesInput_of_receive hready hfront) hrun), Endpoint.received_fail _ _⟩

/-- A piece within the limit goes into one record, as long as the context says. -/
theorem exists_send_piece {connection : Connection Protection} {limit : Nat} {encoder decoder : Protection}
    (h : connection.toEndpoint.Talks limit encoder decoder) (hmaximum : limit ≤ maximumPlaintext)
    (hcipher : encoder.cipher.Invertible) (hsequence : encoder.sequence < Protection.sequenceBound) {piece : Bytes}
    (hsome : piece ≠ []) (hpiece : piece.length ≤ limit) :
    ∃ record later entropy, record.fragment.length = encoder.cipher.sealedLength piece.length ∧
      record.fragment.length < 65536 ∧
      connection.send piece = (.ok (), ⟨connection.toEndpoint.telling later [record] entropy, connection.incoming⟩) := by
  obtain ⟨record, later, entropy, hcarries, hlength, hrun, -⟩ := h.exists_run_sendRecord hmaximum hcipher hsequence hpiece
  refine ⟨record, later, entropy, hlength, hcarries.length_lt, send_of_talks h ?_⟩
  rw [pieces_of_length_le hsome hpiece]
  exact run_bind_of_ok hrun

end Connection

/-- However it is cut, what is delivered to an end comes to the same. -/
theorem Network.run_deliver {κ : Type} {connection : Connection κ} (hready : connection.phase.TakesInput) {role : Role}
    (counts : List Nat) {network : Network κ} {heard : Bytes}
    (hconnection : network.connection role = (connection.receive heard).2)
    (hfailure : network.failure role = failureOf (connection.receive heard).1) :
    (network.run (counts.map (.deliver role))).connection role =
        (connection.receive (heard ++ (network.arriving role).take counts.sum)).2 ∧
      (network.run (counts.map (.deliver role))).failure role =
        failureOf (connection.receive (heard ++ (network.arriving role).take counts.sum)).1 ∧
      (network.run (counts.map (.deliver role))).arriving role = (network.arriving role).drop counts.sum := by
  induction counts generalizing network heard with
  | nil =>
    rw [List.sum_nil, List.take_zero, List.append_nil]
    exact ⟨hconnection, hfailure, rfl⟩
  | cons count rest ih =>
    obtain ⟨hboth, hfirst⟩ :=
      Connection.receive_receive hready heard ((network.arriving role).take count)
    rw [← hconnection] at hboth hfirst
    have hstep := @ih (network.step (.deliver role count)) (heard ++ (network.arriving role).take count)
      (by simpa [step] using hboth) (by simpa [step, hfailure] using hfirst)
    have hrest : (network.step (.deliver role count)).arriving role = (network.arriving role).drop count := by
      simp [step]
    rw [hrest, List.append_assoc, ← List.take_add, List.drop_drop] at hstep
    exact hstep

/-! ### One piece more -/

namespace Dialogue

variable {κ : Type}

/-- The dialogue once an end has sent one more piece and the other one was given chunks of these sizes. -/
def telling (dialogue : Dialogue κ) (role : Role) (piece : Bytes) (counts : List Nat) : Dialogue κ :=
  dialogue.run (.send role piece :: .move (.flush role) :: counts.map fun count => .move (.deliver role.peer count))

/-- One more piece is too long for the other end. When all bytes have arrived there it has failed, and all
that its reader gets is what was sent before. -/
def Overflows (dialogue : Dialogue κ) (limit : Nat) (role : Role) (piece : Bytes) : Prop :=
  ∀ counts, (dialogue.telling role piece counts).network.arriving role.peer = [] →
    (dialogue.telling role piece counts).network.failure role.peer = some (.sentAlert .recordOverflow) ∧
      (dialogue.telling role piece counts).read role.peer ++
          ((dialogue.telling role piece counts).network.connection role.peer).received =
        (dialogue.sent role).flatMap (pieces limit)

/-- When all bytes have arrived, the other end has received what was on its way and what was queued. -/
theorem telling_between {ends : Role → End} {arriving : Role → Bytes} {role : Role} {piece : Bytes} {counts : List Nat}
    (hready : (ends role.peer).connection.phase.TakesInput) (hwaits : (ends role.peer).connection.Waits) {all : Bytes}
    (hall : all = arriving role.peer ++ ((ends role).connection.send piece).2.outgoing.flatMap Record.bytes)
    (harrived : ((between ends arriving).telling role piece counts).network.arriving role.peer = []) :
    ((between ends arriving).telling role piece counts).network.connection role.peer =
        ((ends role.peer).connection.receive all).2 ∧
      ((between ends arriving).telling role piece counts).network.failure role.peer =
        failureOf ((ends role.peer).connection.receive all).1 ∧
      ((between ends arriving).telling role piece counts).read role.peer = (ends role.peer).read := by
  obtain ⟨told, htold⟩ : ∃ told, told = ((between ends arriving).step (.send role piece)).step (.move (.flush role)) :=
    ⟨_, rfl⟩
  have hmoves : (between ends arriving).telling role piece counts =
      { told with network := told.network.run (counts.map (.deliver role.peer)) } := by
    rw [htold, ← run_moves, List.map_map]
    rfl
  have hconnection : told.network.connection role.peer = (ends role.peer).connection := by
    simp [htold, step, Network.step, Network.withConnection, between, role.peer_ne]
  have hway : told.network.arriving role.peer = all := by
    simp [htold, step, Network.step, Network.withConnection, between, Connection.takeOutgoing, hall]
  have hnothing := Connection.receive_nil hwaits hready
  obtain ⟨hlast, hfailure, hrest⟩ := @Network.run_deliver _ _ hready role.peer counts told.network []
    (by rw [hconnection, hnothing]) (by rw [hnothing, htold]; rfl)
  rw [hmoves] at harrived ⊢
  dsimp only at harrived ⊢
  rw [hrest, hway, List.drop_eq_nil_iff] at harrived
  rw [hlast, hfailure, hway, List.nil_append, List.take_of_length_le harrived]
  refine ⟨rfl, rfl, ?_⟩
  rw [htold]
  rfl

end Dialogue

namespace Converses

variable {origin : Role → Connection Protection} {streams : Role → Bytes} {context : Role → Protection} {limit : Nat}
  {ends : Role → End} {arriving : Role → Bytes}

/-- The other end of a late one has all data between records, once it has received what is on its way and
what is queued. -/
theorem exists_caught_up (hands : Handshaken origin streams context limit)
    (h : Converses origin streams context limit ends arriving) {role : Role}
    (hlate : (ends role).Late (streams role) (streams role.peer) limit (origin role).session.ciphertextLimit)
    {way : Bytes} (hway : way = arriving role.peer ++ (ends role).connection.outgoing.flatMap Record.bytes) :
    ∃ after, (ends role.peer).connection.receive way = (.ok (), after) ∧ after.incoming = [] ∧
      after.session.ciphertextLimit = (origin role.peer).session.ciphertextLimit ∧
      (ends role.peer).read ++ after.received = (ends role).outlet.data := by
  have hjoined := h.joined role
  have hown := hlate.flush
  have hsound := h.sound role
  have hbytes : (ends role.peer).heard ++ way ++ [] =
      streams role.peer ++ (ends role).outlet.records.flatMap Record.bytes := by
    rw [← hlate.taken, List.flatMap_append, hjoined.bytes, hway, List.append_nil, List.append_assoc]
  obtain ⟨inlet, hok, hreaches, hplaced⟩ :=
    (h.placed role.peer).exists_hears hands hsound hjoined.reaches hbytes
  have harrived : End.Joined { ends role with
      connection := (ends role).connection.takeOutgoing.2
      taken := (ends role).taken ++ (ends role).connection.outgoing } ((ends role.peer).hears way inlet) [] := by
    refine ⟨?_, hreaches⟩
    rw [List.flatMap_append, hjoined.bytes, List.append_assoc, ← hway, List.append_nil]
    rfl
  obtain ⟨hpeer, hincoming, hrecords⟩ :=
    harrived.late (by rw [Role.peer_peer]; exact hown) hplaced (by rw [Role.peer_peer]; exact hsound) rfl
  exact ⟨_, Prod.ext hok rfl, hincoming, hpeer.ciphertextLimit, hpeer.read.trans (hreaches.data_eq hrecords)⟩

/-- A late end that sends a piece too long for the other one gets it refused. -/
theorem overflows (hands : Handshaken origin streams context limit)
    (h : Converses origin streams context limit ends arriving) {role : Role}
    (hdone : (ends role).connection.session.handshakeDone = true)
    (hfew : ((ends role).sent.flatMap (pieces limit)).length + 1 < Protection.sequenceBound) {piece : Bytes}
    (hsome : piece ≠ []) (hpiece : piece.length ≤ limit)
    (hover : (origin role.peer).session.ciphertextLimit < (context role).cipher.sealedLength piece.length) :
    (Dialogue.between ends arriving).Overflows limit role piece := by
  rcases h.placed role with hearly | hlate
  · cases (hearly.handshakeDone hands).symm.trans hdone
  obtain ⟨_, hbegun⟩ := hands.begun role
  have hfollows := (h.sound role).follows
  have hsequence : (ends role).outlet.context.sequence < Protection.sequenceBound := by
    rw [hfollows.sequence, hbegun.sequence, ← hlate.sent]
    omega
  obtain ⟨record, later, entropy, hfragment, hlength, hsend⟩ :=
    (ends role).connection.exists_send_piece hlate.talks hands.maximum hfollows.invertible hsequence hsome hpiece
  rw [hfollows.sealedLength] at hfragment
  have hready := (h.placed role.peer).takesInput hands
  obtain ⟨after, hfront, hincoming, hroom, hread⟩ := h.exists_caught_up hands hlate rfl
  obtain ⟨last, hrefused, hreceived⟩ := Connection.exists_receive_of_oversize hready hfront hincoming hlength
    (by rw [hroom, hfragment]; exact hover)
  intro counts harrived
  obtain ⟨hlast, hfailure, hkept⟩ := Dialogue.telling_between hready ((h.placed role.peer).waits hands) rfl harrived
  -- What arrives behind everything else is the record alone.
  have hall : arriving role.peer ++ ((ends role).connection.send piece).2.outgoing.flatMap Record.bytes =
      arriving role.peer ++ (ends role).connection.outgoing.flatMap Record.bytes ++ record.bytes := by
    rw [hsend, List.append_assoc]
    show _ ++ ((ends role).connection.outgoing ++ [record]).flatMap Record.bytes = _
    rw [List.flatMap_append, List.flatMap_singleton]
  rw [hall, hrefused] at hlast hfailure
  rw [hlast, hfailure, hkept, hreceived, hread]
  exact ⟨rfl, hlate.sent.symm⟩

end Converses

/-! ### Settings -/

namespace Meets

variable {client : ClientSettings Protection} {server : ServerSettings Protection} {clientEntropy serverEntropy : Entropy}
  {identity key : Bytes} {connection : Connection Protection}

/-- Between a client and a server that have completed a handshake, data arrive in order and whole as long as
the fragments they go into are within the limits on ciphertexts, and the first one that is not is
refused. A fragment is longer than its plaintext, so the lowest limit, 16384, refuses a record with as
many bytes of plaintext whatever the suite is; 80 bytes more are enough for all suites. -/
theorem accepts_what_fits (h : Meets client server clientEntropy identity key)
    (hmade : server.connection serverEntropy = .ok connection) (hkey : server.resolve identity = some key)
    {network : Network Protection} (hleads : (Network.opened (client.connection clientEntropy) connection).Leads network)
    (hquiet : network.Quiet) (hdone : ∀ role, (network.connection role).session.handshakeDone = true) {terms : Terms}
    (hterms : (network.connection .client).session.terms = terms) {turns : List Turn} {dialogue : Dialogue Protection}
    (hrun : (Dialogue.fresh (Network.opened (client.connection clientEntropy) connection)).run turns = dialogue)
    (hfew : ∀ role, ((dialogue.sent role).flatMap (pieces terms.parameters.plaintextLimit)).length <
      Protection.sequenceBound)
    (hfits : dialogue.Fits terms.parameters.plaintextLimit (fun _ => terms.sealedLength) (ciphertextLimits client server)) :
    (∀ length, length < terms.sealedLength length ∧ terms.sealedLength length ≤ length + 80) ∧
    dialogue.Delivers terms.parameters.plaintextLimit ∧
    ∀ role piece, (dialogue.network.connection role).session.handshakeDone = true →
      ((dialogue.sent role).flatMap (pieces terms.parameters.plaintextLimit)).length + 1 < Protection.sequenceBound →
      piece ≠ [] → piece.length ≤ terms.parameters.plaintextLimit →
      ciphertextLimits client server role.peer < terms.sealedLength piece.length →
      dialogue.Overflows terms.parameters.plaintextLimit role piece := by
  have hsuits := h.suits_of_handshakeDone hmade hleads hquiet (hdone .client)
  obtain ⟨other, -, said, asked, shown, known, concluded, completed, showing, leaving, hcompletes⟩ :=
    h.exists_completes_of_suits hmade hsuits hkey
  have hbegins := h.begins hmade
  obtain rfl : other = terms := by
    obtain ⟨moves, rfl⟩ := hleads
    have hagreed := (hcompletes.settles hbegins).1 moves hquiet
    exact (hagreed.terms .client).symm.trans hterms
  obtain ⟨streams, context, hands, hsuite, hsealed⟩ := hcompletes.exists_sealed hbegins (h.unconnected_opened hmade)
    (connected_opened hmade)
  obtain ⟨suite, hsuite⟩ := Option.isSome_iff_exists.mp hsuite
  have hrooms := h.session_ciphertextLimit_opened hmade
  subst hrun
  obtain ⟨ends, arriving, hrun, hconverses⟩ := hands.conversing hbegins hfew (by simpa only [hsealed, hrooms] using hfits)
  rw [hrun]
  refine ⟨Terms.sealedLength_bounds hsuite, hconverses.delivers hands,
    fun role piece hdone hroom hsome hpiece hover => ?_⟩
  refine hconverses.overflows hands hdone hroom hsome hpiece ?_
  rw [hsealed, hrooms]
  exact hover

/-- A client that asks for no room beyond the plaintext. -/
def lowClient (identity key : Bytes) : ClientSettings Protection :=
  { usualClient identity key with ciphertextSetting := 0 }

theorem low_meets : Meets (lowClient [1] [2]) (usualServer [1] [2]) (.ofSeed 1) [1] [2] := by
  have hmeets := @usual_meets (.ofSeed 1) [1] [2] [1] [2] (by decide) (by decide)
  exact ⟨rfl, rfl, rfl, hmeets.hello, hmeets.identityLength, hmeets.hintLength, hmeets.keyLength⟩

/-- What the limits are set to makes no difference to the handshake. -/
theorem low_suits : (lowClient [1] [2]).Suits (usualServer [1] [2]) where
  minimum := (usual_suits [1] [2] [1] [2]).minimum
  maximum := (usual_suits [1] [2] [1] [2]).maximum
  suite := (usual_suits [1] [2] [1] [2]).suite

/-- Neither side offers an extension, so plaintexts may have any length that a record can have. -/
theorem exists_low_completes : ∃ connection terms said asked shown known concluded completed showing leaving,
    (usualServer [1] [2]).connection (.ofSeed 2) = .ok connection ∧ terms.suite.isSome ∧
      terms.parameters.plaintextLimit = maximumPlaintext ∧
      Completes (Network.opened ((lowClient [1] [2]).connection (.ofSeed 1)) connection) terms said asked shown known
        concluded completed showing leaving := by
  have hmade : (usualServer [1] [2]).connection (.ofSeed 2) = .ok _ := rfl
  obtain ⟨body, hbytes, hbody⟩ := low_meets.hello
  obtain ⟨suite, hversion, hsuite⟩ := low_suits.exists_suite
  obtain ⟨terms, ⟨-, hchosen, -, hparameters⟩, said, asked, shown, known, concluded, completed, showing, leaving,
    hcompletes⟩ := low_meets.exists_completes hmade hbytes hbody hversion hsuite rfl
  refine ⟨_, terms, said, asked, shown, known, concluded, completed, showing, leaving, hmade,
    Option.isSome_of_eq_some hchosen, ?_, hcompletes⟩
  have hnone := (usualServer [1] [2]).policy.sublist_chooseExtensions suite (lowClient [1] [2]).extensions
  rw [hparameters, List.sublist_nil.mp hnone]
  rfl

/-- A client with the least limit says something to a server, which goes on with a record that is full. -/
theorem accepts_what_fits_low : ∃ connection turns dialogue,
    (usualServer [1] [2]).connection (.ofSeed 2) = .ok connection ∧
    (Dialogue.fresh (Network.opened ((lowClient [1] [2]).connection (.ofSeed 1)) connection)).run turns = dialogue ∧
    dialogue.sent .client = [[1, 2, 3]] ∧ Dialogue.Delivers maximumPlaintext dialogue ∧
    dialogue.Overflows maximumPlaintext .server (List.replicate maximumPlaintext 0) := by
  obtain ⟨connection, terms, said, asked, shown, known, concluded, completed, showing, leaving, hmade, hchosen, hlimit,
    hcompletes⟩ := exists_low_completes
  obtain ⟨suite, hchosen⟩ := Option.isSome_iff_exists.mp hchosen
  have hbounds := Terms.sealedLength_bounds hchosen
  have hdone := hcompletes.agreed.handshakeDone
  obtain ⟨moves, hmoves⟩ := hcompletes.leads_end
  have hsent := Dialogue.sent_send_behind hmoves (hdone .client) [1, 2, 3]
  obtain ⟨dialogue, hrun⟩ : ∃ dialogue, (Dialogue.fresh (Network.opened ((lowClient [1] [2]).connection (.ofSeed 1))
    connection)).run (moves.map .move ++ [.send .client [1, 2, 3]]) = dialogue := ⟨_, rfl⟩
  rw [hrun] at hsent
  have hserver : (dialogue.network.connection .server).session.handshakeDone = true := by
    rw [← hrun, Dialogue.run_append, Dialogue.run_moves]
    refine Eq.trans ?_ (hdone .server)
    rw [← hmoves]
    rfl
  have hpieces : dialogue.sent .client = [[1, 2, 3]] ∧
      (dialogue.sent .client).flatMap (pieces terms.parameters.plaintextLimit) = [[1, 2, 3]] ∧
      (dialogue.sent .server).flatMap (pieces terms.parameters.plaintextLimit) = [] := by
    rw [hsent, hlimit]
    refine ⟨rfl, (List.flatMap_singleton _ _).trans (pieces_of_length_le (by decide) (by decide)), rfl⟩
  have hfew (role : Role) : ((dialogue.sent role).flatMap (pieces terms.parameters.plaintextLimit)).length + 1 <
      Protection.sequenceBound := by
    cases role with
    | client =>
      rw [hpieces.2.1]
      decide
    | server =>
      rw [hpieces.2.2]
      decide
  have hfits : dialogue.Fits terms.parameters.plaintextLimit (fun _ => terms.sealedLength)
      (ciphertextLimits (lowClient [1] [2]) (usualServer [1] [2])) := by
    intro role piece hmem
    cases role with
    | client =>
      rw [hpieces.2.1, List.mem_singleton] at hmem
      rw [hmem]
      exact Nat.le_trans (hbounds 3).2 (by decide)
    | server =>
      rw [hpieces.2.2] at hmem
      cases hmem
  obtain ⟨-, hdelivers, hoverflows⟩ := low_meets.accepts_what_fits hmade rfl ⟨moves, hmoves⟩ hcompletes.quiet hdone
    (hcompletes.agreed.terms .client) hrun (fun role => Nat.lt_of_succ_lt (hfew role)) hfits
  have hsome : List.replicate maximumPlaintext (0 : UInt8) ≠ [] := by
    rw [Ne, List.replicate_eq_nil_iff]
    decide
  have hfull := hoverflows .server _ hserver (hfew .server) hsome (by rw [List.length_replicate, hlimit]) (by
    rw [List.length_replicate]
    exact (hbounds maximumPlaintext).1)
  rw [hlimit] at hdelivers hfull
  exact ⟨connection, _, dialogue, hmade, hrun, hpieces.1, hdelivers, hfull⟩

end Meets

end PresharedTls
