import Mathlib.Data.List.TakeWhile
import PresharedTls.Proofs.Chunking
import PresharedTls.Proofs.Endpoint.Refusals

/-!
# The end of what a peer sends

A peer that sends no more says so by an alert. A connection that hears its peer out has by then all
the data for its reader, and where in the bytes the handshake is done, which comes before, matters to
those who hand them in piece by piece: `SettlesWithin` says that it is done where a piece ends.
-/

namespace PresharedTls

/-- One more byte completes no more than one record. -/
theorem Record.rest_of_next_singleton {limit : Nat} {buffer rest : Bytes} {byte : UInt8} {record : Record}
    (hnone : Record.next limit buffer = .ok none)
    (h : Record.next limit (buffer ++ [byte]) = .ok (some (record, rest))) : rest = [] := by
  cases hread : RecordHeader.read? buffer with
  | none =>
    have hshort : buffer.length < 5 := by
      rcases buffer with _ | ⟨_, _ | ⟨_, _ | ⟨_, _ | ⟨_, _ | ⟨_, rest⟩⟩⟩⟩⟩
      iterate 5 · simp
      cases hread
    rw [next] at h
    split at h
    · cases h
    next header body hbody =>
    have hlength := RecordHeader.length_of_read? hbody
    rw [List.length_append, List.length_singleton] at hlength
    have hempty : body = [] := List.length_eq_zero_iff.mp (by omega)
    subst hempty
    split at h
    · cases h
    split at h
    · cases h
    cases h
    exact List.drop_nil
  | some found =>
    obtain ⟨header, body⟩ := found
    simp only [next, RecordHeader.read?_append hread] at h
    simp only [next, hread] at hnone
    split at h
    · cases h
    · next hlimit =>
      rw [if_neg hlimit] at hnone
      split at h
      · cases h
      split at hnone
      · next hlong hshort =>
        cases h
        rw [List.length_append, List.length_singleton] at hlong
        rw [List.drop_eq_nil_iff, List.length_append, List.length_singleton]
        omega
      · cases hnone

variable {κ : Type}

/-- An endpoint that has heard nothing of its peer. -/
structure Endpoint.Unheard (endpoint : Endpoint κ) : Prop where
  listens : endpoint.peerClosed = false
  undone : endpoint.session.handshakeDone = false

theorem Endpoint.keepsUnheard_sendClientHello (offer : ClientOffer) :
    Keeps (Unheard (κ := κ)) (fun _ => True) (sendClientHello offer) := by
  have haccept {α : Type} (result : Except AlertDescription α) :
      Keeps (Unheard (κ := κ)) (fun _ => True) (accept result) :=
    fun _ h => ends_accept (fun _ _ => h) fun _ _ => trivial
  have hsend (b : Bytes) : Keeps (Unheard (κ := κ)) (fun _ => True) (sendFragmented .handshake b) :=
    fun _ h => ends_of_onlySent (keepsOnlySent_sendFragmented _ _) (fun _ _ _ _ => ⟨h.listens, h.undone⟩)
      fun _ _ _ _ => trivial
  have hmessage (message : HandshakeMessage) : Keeps (Unheard (κ := κ)) (fun _ => True) (sendMessage message) :=
    Keeps.bind (haccept _) fun _ => Keeps.bind (Keeps.modify fun _ h => ⟨h.listens, h.undone⟩) fun _ => hsend _
  rw [sendClientHello]
  refine Keeps.get_bind fun endpoint h => Keeps.bind (Keeps.set ⟨h.listens, h.undone⟩) fun _ => ?_
  refine Keeps.bind (haccept _) fun _ => Keeps.bind (Keeps.modify fun _ h => ⟨h.listens, h.undone⟩) fun _ => ?_
  exact Keeps.bind (hmessage _) fun _ => Keeps.modify fun _ h => ⟨h.listens, h.undone⟩

theorem Configuration.unheard_start {configuration : Configuration κ} {entropy : Entropy}
    {connection opened : Connection κ} (hmade : configuration.connection entropy = .ok connection)
    (hstart : connection.start = (.ok (), opened)) : opened.toEndpoint.Unheard := by
  have hfresh : connection.toEndpoint.Unheard := by
    obtain ⟨side, version, setting, session, rfl, hsession⟩ := exists_fresh hmade
    rcases hsession with rfl | ⟨identity, key, rfl⟩ <;> exact ⟨rfl, rfl⟩
  rw [Connection.start] at hstart
  split at hstart
  · cases hstart
  split at hstart
  · cases hstart
  split at hstart
  · next offer _ =>
    have hends := Endpoint.keepsUnheard_sendClientHello offer connection.toEndpoint hfresh
    rw [Connection.perform] at hstart
    rw [Ends] at hends
    split at hstart
    · next endpoint hrun =>
      cases hstart
      simpa only [hrun] using hends
    · cases hstart
  · cases hstart
    exact ⟨hfresh.listens, hfresh.undone⟩

namespace Connection

variable {connection : Connection κ} {b data : Bytes}

/-- Only a connection that takes input is told anything. -/
theorem takesInput_of_told {description : AlertDescription} {after : Connection κ}
    (h : connection.receive b = (.error (.receivedAlert description), after)) : connection.phase.TakesInput :=
  takesInput_of_result (congrArg Prod.fst h) (by simp) (by simp)

theorem receive_of_takeOutgoing (connection : Connection κ) (b : Bytes) :
    connection.receive b = ((connection.takeOutgoing.2.receive b).1,
      (connection.takeOutgoing.2.receive b).2.behind connection.outgoing []) := by
  rw [← receive_behind, behind_takeOutgoing]

/-- A connection that hears its peer out: `b` goes on from where it stands and comes to the alert
that announces the end, and all that the reader has to get by then is `data`. -/
structure Hears (connection : Connection κ) (b data : Bytes) : Prop where
  waits : connection.Waits
  ready : connection.phase.TakesInput
  listens : connection.peerClosed = false
  told : ∃ final, connection.receive b = (.error (.receivedAlert .closeNotify), final) ∧ final.received.flatten = data

theorem Hears.takeOutgoing (h : connection.Hears b data) : connection.takeOutgoing.2.Hears b data where
  waits := h.waits
  ready := h.ready
  listens := h.listens
  told := by
    obtain ⟨final, hfinal, hdata⟩ := h.told
    rw [receive_of_takeOutgoing] at hfinal
    obtain ⟨hresult, rfl⟩ := Prod.mk.inj hfinal
    exact ⟨_, Prod.ext hresult rfl, hdata⟩

/-- What is taken off the queue is what the rest comes behind. -/
theorem Hears.drop {front rest : List Bytes} (h : connection.Hears b data) (hreceived : connection.received = front ++ rest) :
    ∃ more, data = front.flatten ++ more ∧ Hears { connection with received := rest } b more := by
  have hbehind : connection = behind [] front { connection with received := rest } := by
    rw [behind, Endpoint.behind]
    simp only [List.nil_append, ← hreceived]
  obtain ⟨final, hfinal, hdata⟩ := h.told
  rw [hbehind, receive_behind] at hfinal
  obtain ⟨hresult, rfl⟩ := Prod.mk.inj hfinal
  refine ⟨_, ?_, h.waits, h.ready, h.listens, _, Prod.ext hresult rfl, rfl⟩
  rw [← hdata]
  exact List.flatten_append

/-- A connection that owes its reader `data`: what is in its queue and what `b` brings, unless it
knows already that no more is coming. -/
def Owes (connection : Connection κ) (b data : Bytes) : Prop :=
  connection.Hears b data ∨ connection.peerClosed = true ∧ connection.received.flatten = data

theorem Owes.drop {front rest : List Bytes} (h : connection.Owes b data) (hreceived : connection.received = front ++ rest) :
    ∃ more, data = front.flatten ++ more ∧ Owes { connection with received := rest } b more := by
  rcases h with hhears | ⟨hclosed, rfl⟩
  · obtain ⟨more, hmore, hrest⟩ := hhears.drop hreceived
    exact ⟨more, hmore, .inl hrest⟩
  · exact ⟨rest.flatten, by rw [hreceived, List.flatten_append], .inr ⟨hclosed, rfl⟩⟩

/-- Empty data at the front of the queue can be left out. -/
theorem Owes.skip (h : connection.Owes b data) :
    Owes { connection with received := connection.received.dropWhile List.isEmpty } b data := by
  obtain ⟨more, hmore, howes⟩ := h.drop List.takeWhile_append_dropWhile.symm
  have hempty : (connection.received.takeWhile List.isEmpty).flatten = [] :=
    List.flatten_eq_nil_iff.mpr fun _ hmem => List.isEmpty_iff.mp (List.mem_takeWhile_imp hmem)
  rwa [hmore, hempty]

theorem Hears.receive {piece rest : Bytes} (h : connection.Hears (piece ++ rest) data) :
    (∃ next, connection.receive piece = (.ok (), next) ∧ next.Hears rest data) ∨
      ∃ final, connection.receive piece = (.error (.receivedAlert .closeNotify), final) ∧ final.peerClosed = true ∧
        final.received.flatten = data := by
  obtain ⟨final, hfinal, hdata⟩ := h.told
  rw [receive_append h.ready] at hfinal
  split at hfinal
  · next next hnext =>
    have hwaits : next.Waits := by simpa only [hnext] using h.waits.receive piece
    have hlistens := (peerClosed_of_receive h.ready hnext).trans h.listens
    exact .inl ⟨next, hnext, hwaits, takesInput_of_receive h.ready hnext, hlistens, final, hfinal, hdata⟩
  · next failure after hafter =>
    cases hfinal
    exact .inr ⟨final, hafter, peerClosed_of_closeNotify h.ready hafter, hdata⟩

theorem Hears.ne_nil (h : connection.Hears b data) : b ≠ [] := by
  rintro rfl
  obtain ⟨final, hfinal, _⟩ := h.told
  rw [receive_nil h.waits h.ready] at hfinal
  cases hfinal

/-- The handshake is done where one of the pieces ends. -/
def SettlesWithin (connection : Connection κ) (pieces : List Bytes) : Prop :=
  ∃ early late after, pieces = early ++ late ∧ connection.receive early.flatten = (.ok (), after) ∧
    after.session.handshakeDone = true

theorem settlesWithin_cons (hwaits : connection.Waits) (hready : connection.phase.TakesInput) (piece : Bytes)
    (rest : List Bytes) : connection.SettlesWithin (piece :: rest) ↔ connection.session.handshakeDone = true ∨
      ∃ next, connection.receive piece = (.ok (), next) ∧ next.SettlesWithin rest := by
  constructor
  · rintro ⟨early, late, after, hsplit, hafter, hdone⟩
    rcases List.cons_eq_append_iff.mp hsplit with ⟨rfl, rfl⟩ | ⟨early, rfl, rfl⟩
    · rw [List.flatten_nil, receive_nil hwaits hready] at hafter
      cases hafter
      exact .inl hdone
    · rw [List.flatten_cons, receive_append hready] at hafter
      split at hafter
      · next next hnext => exact .inr ⟨next, hnext, early, late, after, rfl, hafter, hdone⟩
      · cases hafter
  · rintro (hdone | ⟨next, hnext, early, late, after, rfl, hafter, hdone⟩)
    · exact ⟨[], _, connection, rfl, receive_nil hwaits hready, hdone⟩
    · refine ⟨piece :: early, late, after, rfl, ?_, hdone⟩
      rw [List.flatten_cons, receive_append hready, hnext]
      exact hafter

theorem settlesWithin_takeOutgoing (connection : Connection κ) (pieces : List Bytes) :
    connection.takeOutgoing.2.SettlesWithin pieces ↔ connection.SettlesWithin pieces := by
  constructor
  · rintro ⟨early, late, after, hsplit, hafter, hdone⟩
    exact ⟨early, late, after.behind connection.outgoing [], hsplit, by rw [receive_of_takeOutgoing, hafter], hdone⟩
  · rintro ⟨early, late, after, hsplit, hafter, hdone⟩
    rw [receive_of_takeOutgoing] at hafter
    obtain ⟨hresult, rfl⟩ := Prod.mk.inj hafter
    exact ⟨early, late, _, hsplit, Prod.ext hresult rfl, hdone⟩

theorem arriving_singleton (h : connection.Waits) (byte : UInt8) :
    (connection.arriving [byte]).items = [] ∨ ∃ record, connection.arriving [byte] = ⟨[record], [], none⟩ := by
  rw [arriving]
  cases hnext : (Record.framing connection.session.ciphertextLimit).next (connection.incoming ++ [byte]) with
  | error fault =>
    rw [Framing.cut_of_fault hnext]
    exact .inl rfl
  | ok found =>
    rcases found with _ | ⟨record, rest⟩
    · rw [Framing.cut_of_none hnext]
      exact .inl rfl
    · obtain rfl := Record.rest_of_next_singleton h hnext
      rw [Framing.cut_of_item hnext, Framing.cut_of_none rfl]
      exact .inr ⟨record, rfl⟩

theorem handshakeDone_of_singleton {byte : UInt8} {description : AlertDescription} {after : Connection κ}
    (hwaits : connection.Waits) (hready : connection.phase.TakesInput)
    (h : connection.receive [byte] = (.error (.receivedAlert description), after)) :
    after.session.handshakeDone = connection.session.handshakeDone := by
  cases hrun : (Endpoint.receiveRecords (connection.arriving [byte])).run connection.toEndpoint with
  | ok value endpoint =>
    rw [receive_of_ok hready hrun] at h
    cases h
  | error failure endpoint =>
    rw [receive_of_error hready hrun] at h
    cases h
    rw [Endpoint.run_receiveRecords] at hrun
    rcases arriving_singleton hwaits byte with hnone | ⟨record, hrecord⟩
    · rw [hnone, show EStateM.run (List.forM [] Endpoint.receiveRecord) connection.toEndpoint =
        .ok ⟨⟩ connection.toEndpoint from rfl] at hrun
      split at hrun
      · cases hrun
      · cases hrun
      · contradiction
    · rw [hrecord] at hrun
      have htold := Endpoint.told_receiveRecord record connection.toEndpoint
      rw [Ends] at htold
      cases hone : (Endpoint.receiveRecord record).run connection.toEndpoint with
      | ok value behind =>
        rw [show EStateM.run ([record].forM Endpoint.receiveRecord) connection.toEndpoint = .ok ⟨⟩ behind from
          run_bind_of_ok hone] at hrun
        cases hrun
      | error failure behind =>
        rw [show EStateM.run ([record].forM Endpoint.receiveRecord) connection.toEndpoint = .error failure behind from
          run_bind_of_error hone] at hrun
        cases hrun
        rw [hone] at htold
        rcases htold with ⟨_, hrefused⟩ | hkept
        · cases hrefused
        · exact hkept

/-- Byte by byte, the handshake is done before the alert that announces the end arrives. -/
theorem settlesWithin_bytes {description : AlertDescription} {final : Connection κ} (hwaits : connection.Waits)
    (hready : connection.phase.TakesInput) (htold : connection.receive b = (.error (.receivedAlert description), final))
    (hdone : final.session.handshakeDone = true) : connection.SettlesWithin (b.map fun byte => [byte]) := by
  induction b generalizing connection with
  | nil =>
    rw [receive_nil hwaits hready] at htold
    cases htold
  | cons byte rest ih =>
    rw [← List.singleton_append, receive_append hready] at htold
    rw [List.map_cons, settlesWithin_cons hwaits hready]
    split at htold
    · next next hnext =>
      have hstill : next.Waits := by simpa only [hnext] using hwaits.receive [byte]
      exact .inr ⟨next, hnext, ih hstill (takesInput_of_receive hready hnext) htold⟩
    · next failure after hafter =>
      cases htold
      exact .inl ((handshakeDone_of_singleton hwaits hready hafter).symm.trans hdone)

/-- In one piece with the alert that announces the end, the handshake is not done before it. -/
theorem not_settlesWithin_whole {failure : ConnectionError} {final : Connection κ} (hwaits : connection.Waits)
    (hready : connection.phase.TakesInput) (hfailed : connection.receive b = (.error failure, final))
    (hundone : connection.session.handshakeDone = false) : ¬ connection.SettlesWithin [b] := by
  rw [settlesWithin_cons hwaits hready]
  rintro (hdone | ⟨next, hnext, _⟩)
  · rw [hundone] at hdone
    cases hdone
  · rw [hfailed] at hnext
    cases hnext

end Connection

end PresharedTls
