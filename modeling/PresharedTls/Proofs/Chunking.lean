import PresharedTls.Proofs.Endpoint.Queues
import PresharedTls.Proofs.Reachable

/-!
# The pieces in which bytes arrive

A transport cuts the bytes it delivers as it likes, and an application empties the queues when it
likes. Neither makes a difference. The reason is `receive_append`: handing in two pieces one after
the other is handing in both at once, because what is left of the first piece is cut again together
with the second, and a failure in the first piece drops the second in either case.
-/

namespace PresharedTls.Connection

variable {κ : Type} {connection : Connection κ}

/-! ### Pieces one after the other -/

/-- Hands in pieces one by one, up to the first failure. -/
def receiveAll (connection : Connection κ) : (pieces : List Bytes) → Except ConnectionError Unit × Connection κ
  | [] => (.ok (), connection)
  | piece :: rest =>
    match connection.receive piece with
    | (.ok (), connection) => connection.receiveAll rest
    | (.error failure, connection) => (.error failure, connection)

theorem takesInput_of_receive {after : Connection κ} {b : Bytes} (hready : connection.phase.TakesInput)
    (h : connection.receive b = (.ok (), after)) : after.phase.TakesInput := by
  cases hrun : (Endpoint.receiveRecords (connection.arriving b)).run connection.toEndpoint with
  | ok value endpoint =>
    have hkeeps : Endpoint.KeepsFixed connection.toEndpoint Phase.TakesInput
        (Endpoint.receiveRecords (connection.arriving b)) :=
      Endpoint.keepsFixed_receiveRecords (fun _ => id) _
    rw [receive_of_ok hready hrun] at h
    cases h
    exact (hkeeps.of_ok hrun ⟨rfl, ⟨rfl, rfl⟩, hready⟩).phase
  | error failure endpoint =>
    rw [receive_of_error hready hrun] at h
    cases h

theorem arriving_append_of_fault {first : Bytes} {fault : AlertDescription}
    (h : (connection.arriving first).fault = some fault) (second : Bytes) :
    connection.arriving (first ++ second) =
      ⟨(connection.arriving first).items, (connection.arriving first).rest ++ second, some fault⟩ := by
  unfold arriving at h ⊢
  rw [← List.append_assoc, Framing.cut_append, h]

/-- What is left of the first piece is cut again, together with the second. -/
theorem arriving_append {first : Bytes} (h : (connection.arriving first).fault = none) (second : Bytes)
    {behind : Cut Record} (hbehind : behind =
      (Record.framing connection.session.ciphertextLimit).cut ((connection.arriving first).rest ++ second)) :
    connection.arriving (first ++ second) =
      ⟨(connection.arriving first).items ++ behind.items, behind.rest, behind.fault⟩ := by
  subst hbehind
  unfold arriving at h ⊢
  rw [← List.append_assoc, Framing.cut_append, h]

theorem run_receiveRecords_append (first second : List Record) (rest : Bytes) (fault : Option AlertDescription)
    (endpoint : Endpoint κ) :
    (Endpoint.receiveRecords ⟨first ++ second, rest, fault⟩).run endpoint =
      match (first.forM Endpoint.receiveRecord).run endpoint with
      | .ok () endpoint => (Endpoint.receiveRecords ⟨second, rest, fault⟩).run endpoint
      | .error failure endpoint => .error failure endpoint := by
  simp only [Endpoint.run_receiveRecords, run_forM_append]
  cases (first.forM Endpoint.receiveRecord).run endpoint <;> rfl

theorem receive_append (hready : connection.phase.TakesInput) (first second : Bytes) :
    connection.receive (first ++ second) =
      match connection.receive first with
      | (.ok (), connection) => connection.receive second
      | (.error failure, connection) => (.error failure, connection) := by
  cases hrun : (Endpoint.receiveRecords (connection.arriving first)).run connection.toEndpoint with
  | error failure endpoint =>
    rw [receive_of_error hready hrun]
    apply receive_of_error hready
    cases hfault : (connection.arriving first).fault with
    | some fault =>
      rw [arriving_append_of_fault hfault]
      rw [Endpoint.run_receiveRecords, hfault] at hrun
      rwa [Endpoint.run_receiveRecords]
    | none =>
      rw [arriving_append hfault second rfl, run_receiveRecords_append]
      rw [Endpoint.run_receiveRecords, hfault] at hrun
      split at hrun <;> simp_all
  | ok value endpoint =>
    have hfirst := receive_of_ok hready hrun
    have hnext := takesInput_of_receive hready hfirst
    have hfault := Endpoint.fault_of_receiveRecords hrun
    have hkeeps : Endpoint.KeepsFixed connection.toEndpoint Phase.TakesInput
        (Endpoint.receiveRecords (connection.arriving first)) :=
      Endpoint.keepsFixed_receiveRecords (fun _ => id) _
    have hfixed := hkeeps.of_ok hrun ⟨rfl, ⟨rfl, rfl⟩, hready⟩
    have hbehind : (⟨endpoint, (connection.arriving first).rest⟩ : Connection κ).arriving second =
        (Record.framing connection.session.ciphertextLimit).cut ((connection.arriving first).rest ++ second) := by
      rw [arriving, hfixed.session.ciphertextLimit]
    have hboth := arriving_append hfault second hbehind
    have hitems : ((connection.arriving first).items.forM Endpoint.receiveRecord).run connection.toEndpoint =
        .ok () endpoint := by
      rw [Endpoint.run_receiveRecords, hfault] at hrun
      split at hrun <;> simp_all
    rw [hfirst]
    cases hsecond : (Endpoint.receiveRecords
        ((⟨endpoint, (connection.arriving first).rest⟩ : Connection κ).arriving second)).run endpoint with
    | ok value after =>
      have hwhole : (Endpoint.receiveRecords (connection.arriving (first ++ second))).run connection.toEndpoint =
          .ok () after := by
        rw [hboth, run_receiveRecords_append, hitems]
        exact hsecond
      rw [receive_of_ok hready hwhole, hboth]
      exact (receive_of_ok hnext hsecond).symm
    | error failure after =>
      have hwhole : (Endpoint.receiveRecords (connection.arriving (first ++ second))).run connection.toEndpoint =
          .error failure after := by
        rw [hboth, run_receiveRecords_append, hitems]
        exact hsecond
      rw [receive_of_error hready hwhole]
      exact (receive_of_error hnext hsecond).symm

/-! ### Queues emptied in between -/

inductive Feeding where
  | piece (b : Bytes)
  | takeOutgoing
  | read

def Feeding.bytes : Feeding → Bytes
  | piece b => b
  | _ => []

/-- What came of feeding a connection. -/
structure Fed (κ : Type) where
  result : Except ConnectionError Unit
  connection : Connection κ
  taken : Bytes
  popped : List Bytes

/-- Hands in pieces one by one, up to the first failure, and empties queues in between. -/
def feed (connection : Connection κ) : (feedings : List Feeding) → Fed κ
  | [] => ⟨.ok (), connection, [], []⟩
  | .piece b :: rest =>
    match connection.receive b with
    | (.ok (), connection) => connection.feed rest
    | (.error failure, connection) => ⟨.error failure, connection, [], []⟩
  | .takeOutgoing :: rest =>
    let fed := connection.takeOutgoing.2.feed rest
    { fed with taken := connection.takeOutgoing.1 ++ fed.taken }
  | .read :: rest =>
    let fed := connection.read.2.feed rest
    { fed with popped := connection.read.1.toList ++ fed.popped }

/-- The connection with more in front of its queues. -/
def behind (records : List Record) (data : List Bytes) (connection : Connection κ) : Connection κ :=
  { connection with toEndpoint := connection.toEndpoint.behind records data }

def emptied (connection : Connection κ) : Connection κ :=
  { connection with outgoing := [], received := [] }

theorem behind_takeOutgoing (connection : Connection κ) :
    connection.takeOutgoing.2.behind connection.outgoing [] = connection := by
  simp [behind, Endpoint.behind, takeOutgoing]

theorem behind_read (connection : Connection κ) : connection.read.2.behind [] connection.read.1.toList = connection := by
  obtain ⟨⟨phase, side, session, handshake, outgoing, received, peerClosed, entropy⟩, incoming⟩ := connection
  cases received <;> rfl

/-- What waits in the queues makes no difference to what comes in. -/
theorem receive_behind (records : List Record) (data : List Bytes) (connection : Connection κ) (b : Bytes) :
    (connection.behind records data).receive b =
      ((connection.receive b).1, (connection.receive b).2.behind records data) := by
  by_cases hready : connection.phase.TakesInput
  · have hreadyBehind : (connection.behind records data).phase.TakesInput := hready
    have hignores : Endpoint.IgnoresQueues records data (Endpoint.receiveRecords (κ := κ) (connection.arriving b)) :=
      Endpoint.ignoresQueues_receiveRecords _
    cases hrun : (Endpoint.receiveRecords (connection.arriving b)).run connection.toEndpoint with
    | ok value endpoint =>
      obtain ⟨_, hbehind, rfl⟩ := hignores.of_ok hrun rfl
      rw [receive_of_ok hready hrun]
      exact receive_of_ok hreadyBehind hbehind
    | error failure endpoint =>
      obtain ⟨_, hbehind, rfl⟩ := hignores.of_error hrun rfl
      rw [receive_of_error hready hrun]
      apply (receive_of_error hreadyBehind hbehind).trans
      rw [Endpoint.behind_fail]
      rfl
  · by_cases hidle : connection.phase = .idle
    · have hidleBehind : (connection.behind records data).phase = .idle := hidle
      rw [receive_of_idle hidle, receive_of_idle hidleBehind]
    · have hover : connection.phase.isOver = true := Phase.isOver_of_not_takesInput hready hidle
      have hoverBehind : (connection.behind records data).phase.isOver = true := hover
      rw [receive_of_isOver hover, receive_of_isOver hoverBehind]

theorem receive_nil (hwaits : connection.Waits) (hready : connection.phase.TakesInput) :
    connection.receive [] = (.ok (), connection) := by
  have hnothing : connection.arriving [] = ⟨[], connection.incoming, none⟩ := by
    rw [arriving, List.append_nil]
    exact Framing.cut_of_none hwaits
  have hrun : (Endpoint.receiveRecords (connection.arriving [])).run connection.toEndpoint =
      .ok () connection.toEndpoint := by
    rw [hnothing]
    rfl
  rw [receive_of_ok hready hrun, hnothing]

theorem receiveAll_eq (hwaits : connection.Waits) (hready : connection.phase.TakesInput) (pieces : List Bytes) :
    connection.receiveAll pieces = connection.receive pieces.flatten := by
  induction pieces generalizing connection with
  | nil => exact (receive_nil hwaits hready).symm
  | cons piece rest ih =>
    rw [List.flatten_cons, receive_append hready]
    rw [receiveAll]
    split
    · next after hafter =>
      have hstill : after.Waits := by simpa only [hafter] using hwaits.receive piece
      exact ih hstill (takesInput_of_receive hready hafter)
    · rfl

/-- What was fed comes to what one call gave: the same result and connection, and in each queue what
was taken out and what is left. -/
structure Fed.ComesTo (fed : Fed κ) (whole : Except ConnectionError Unit × Connection κ) : Prop where
  result : fed.result = whole.1
  connection : fed.connection.emptied = whole.2.emptied
  outgoing : fed.taken ++ fed.connection.takeOutgoing.1 = whole.2.takeOutgoing.1
  received : fed.popped ++ fed.connection.received = whole.2.received

/-- What was taken before is in front of what the rest comes to. -/
theorem Fed.ComesTo.behind {fed : Fed κ} {whole : Except ConnectionError Unit × Connection κ} (h : fed.ComesTo whole)
    (records : List Record) (data : List Bytes) :
    Fed.ComesTo ⟨fed.result, fed.connection, records.flatMap Record.bytes ++ fed.taken, data ++ fed.popped⟩
      (whole.1, whole.2.behind records data) where
  result := h.result
  connection := h.connection
  outgoing := by
    have houtgoing := h.outgoing
    simp only [takeOutgoing, Connection.behind, Endpoint.behind, List.flatMap_append, List.append_assoc] at houtgoing ⊢
    rw [houtgoing]
  received := by
    have hreceived := h.received
    simp only [Connection.behind, Endpoint.behind, List.append_assoc]
    rw [hreceived]

theorem feed_comesTo (hwaits : connection.Waits) (hready : connection.phase.TakesInput) (feedings : List Feeding) :
    (connection.feed feedings).ComesTo (connection.receive (feedings.flatMap Feeding.bytes)) := by
  induction feedings generalizing connection with
  | nil =>
    rw [List.flatMap_nil, receive_nil hwaits hready]
    exact ⟨rfl, rfl, rfl, rfl⟩
  | cons feeding rest ih =>
    cases feeding with
    | piece b =>
      rw [List.flatMap_cons, Feeding.bytes, receive_append hready]
      rw [feed]
      split
      · next after hafter =>
        have hstill : after.Waits := by simpa only [hafter] using hwaits.receive b
        exact ih hstill (takesInput_of_receive hready hafter)
      · exact ⟨rfl, rfl, rfl, rfl⟩
    | takeOutgoing =>
      have hrest : (connection.takeOutgoing.2.feed rest).ComesTo _ := ih hwaits hready
      have hboth := hrest.behind connection.outgoing []
      rwa [← receive_behind, behind_takeOutgoing] at hboth
    | read =>
      have hsame : connection.read.2.Waits ∧ connection.read.2.phase.TakesInput := by
        rw [Connection.read]
        split <;> exact ⟨hwaits, hready⟩
      have hrest : (connection.read.2.feed rest).ComesTo _ := ih hsame.1 hsame.2
      have hboth := hrest.behind [] connection.read.1.toList
      rwa [← receive_behind, behind_read] at hboth

/-- **The pieces in which bytes arrive make no difference.** Handed in one by one up to the first
failure, they give the same result and the same connection as all of them at once, also where queues
are emptied in between. -/
theorem receive_independent_of_pieces (reachable : Reachable connection) (hready : connection.phase.TakesInput) :
    (∀ pieces, connection.receiveAll pieces = connection.receive pieces.flatten) ∧
      ∀ feedings, (connection.feed feedings).ComesTo (connection.receive (feedings.flatMap Feeding.bytes)) :=
  ⟨receiveAll_eq reachable.waits hready, feed_comesTo reachable.waits hready⟩

/-- An alert for a server that waits for a hello, cut in its header and in its body. -/
theorem receive_independent_of_pieces_alert :
    let settings : ServerSettings Protection := { provider := .standard }
    ∃ server, settings.connection (.ofSeed 0) = .ok server ∧ server.start.2.phase.TakesInput ∧
      server.start.2.receiveAll [[21, 3], [], [3, 0, 2, 2], [40]] =
        server.start.2.receive [21, 3, 3, 0, 2, 2, 40] ∧
      (server.start.2.feed [.piece [21, 3, 3], .takeOutgoing, .piece [0, 2, 2, 40]]).ComesTo
        (server.start.2.receive [21, 3, 3, 0, 2, 2, 40]) := by
  intro settings
  have hopened := Reachable.opened (show (Configuration.server settings).connection (.ofSeed 0) = .ok _ from rfl)
  have hpieces := receive_independent_of_pieces (hopened.operated .start) ⟨by decide, by decide⟩
  exact ⟨_, rfl, ⟨by decide, by decide⟩, hpieces.1 [[21, 3], [], [3, 0, 2, 2], [40]],
    hpieces.2 [.piece [21, 3, 3], .takeOutgoing, .piece [0, 2, 2, 40]]⟩

/-- A message that is refused is off the handshake bytes, and those behind it are left. -/
example :
    (({ provider := .standard } : ServerSettings Protection).connection (.ofSeed 0)).map
      (fun server => (server.start.2.receive [22, 3, 3, 0, 8, 20, 0, 0, 0, 20, 0, 0, 0]).2.handshake) =
      .ok [20, 0, 0, 0] := by cbv

end PresharedTls.Connection
