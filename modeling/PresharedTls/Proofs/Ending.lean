import PresharedTls.Proofs.Chunking
import PresharedTls.Proofs.Endpoint.Changes
import PresharedTls.Proofs.Guarded

/-!
# How a connection ends

While a connection goes on it queues no alert. What ends it queues at most one, behind everything else:
its own failure, or that it is closed. The peer's alert is not answered. After that nothing is queued
any more, all that is left to do is to take out what waits in the queues, and closing.
-/

namespace PresharedTls

variable {κ : Type}

/-- None of the records is an alert. -/
def Unalarmed (records : List Record) : Prop :=
  ∀ record ∈ records, record.typeCode ≠ ContentType.alert.code

/-- Nothing is behind an alert. So there is at most one. -/
def AlertLast (records : List Record) : Prop :=
  ∀ front alert rear, records = front ++ alert :: rear → alert.typeCode = ContentType.alert.code → rear = []

theorem Unalarmed.append {records more : List Record} (h : Unalarmed records) (hmore : Unalarmed more) :
    Unalarmed (records ++ more) := by
  intro record hmem
  rcases List.mem_append.mp hmem with hmem | hmem
  · exact h record hmem
  · exact hmore record hmem

theorem Unalarmed.alertLast {records : List Record} (h : Unalarmed records) : AlertLast records := by
  rintro front alert rear rfl htype
  exact absurd htype (h alert (by simp))

theorem Unalarmed.alertLast_append {records : List Record} (h : Unalarmed records) (last : Option Record) :
    AlertLast (records ++ last.toList) := by
  cases last with
  | none => exact (List.append_nil records).symm ▸ h.alertLast
  | some record =>
    intro front alert rear hsplit htype
    rcases List.eq_nil_or_concat rear with hnil | ⟨between, last, rfl⟩
    · exact hnil
    · -- Then the alert is not the last record, so it is one of those before.
      have hfront : records = front ++ alert :: between := by
        rw [List.concat_eq_append, ← List.cons_append, ← List.append_assoc] at hsplit
        exact (List.append_inj' hsplit rfl).1
      exact absurd htype (h alert (by simp [hfront]))

theorem ContentType.IsRoutine.code_ne {type : ContentType} (h : type.IsRoutine) : type.code ≠ ContentType.alert.code := by
  revert h
  cases type <;> decide

namespace Endpoint

variable {origin endpoint after : Endpoint κ}

/-- An endpoint with more in its queues, and no alert among it. -/
structure Adds (origin endpoint : Endpoint κ) : Prop where
  outgoing : ∃ records, Unalarmed records ∧ endpoint.outgoing = origin.outgoing ++ records
  received : origin.received <+: endpoint.received

theorem Adds.of_same (h : origin.Adds endpoint) (houtgoing : after.outgoing = endpoint.outgoing)
    (hreceived : after.received = endpoint.received) : origin.Adds after :=
  ⟨houtgoing ▸ h.outgoing, hreceived ▸ h.received⟩

theorem Adds.change (h : origin.Adds endpoint) (hchange : Change ContentType.IsRoutine endpoint after) :
    origin.Adds after := by
  cases hchange with
  | @sent type htype plaintext fragment session entropy hsealed _ _ =>
    obtain ⟨records, hrecords, houtgoing⟩ := h.outgoing
    refine ⟨⟨records ++ [⟨type.code, session.version.code, fragment⟩], hrecords.append ?_, ?_⟩, h.received⟩
    · intro record hmem
      rw [List.mem_singleton.mp hmem]
      exact htype.code_ne
    · rw [houtgoing, List.append_assoc]
  | taken hopened hdone => exact ⟨h.outgoing, h.received.trans (List.prefix_append _ _)⟩
  | _ => exact h.of_same rfl rfl

theorem Changes.adds (h : Changes ContentType.IsRoutine origin endpoint) : origin.Adds endpoint :=
  h.keep (fun _ _ hchange hadds => hadds.change hchange)
    ⟨⟨[], fun _ hmem => absurd hmem List.not_mem_nil, (List.append_nil _).symm⟩, List.prefix_rfl⟩

/-- Whatever is sent, no more than one record is queued for it. -/
theorem outgoing_after_sendRecord (type : ContentType) (plaintext : Bytes) (endpoint : Endpoint κ) :
    ∃ record : Option Record,
      (endpoint.after (sendRecord type plaintext)).outgoing = endpoint.outgoing ++ record.toList := by
  let Queued (after : Endpoint κ) : Prop :=
    ∃ record : Option Record, after.outgoing = endpoint.outgoing ++ record.toList
  have hsame : Queued endpoint := ⟨none, (List.append_nil _).symm⟩
  have hsent : Ends (sendRecord type plaintext) endpoint (fun _ => Queued) fun _ => Queued :=
    ends_sendRecord (fun _ _ _ _ => ⟨some _, rfl⟩) (fun _ => hsame) fun _ => hsame
  exact hsent.after

/-- A failure is told to the peer in one record, unless the peer is where it comes from. -/
theorem outgoing_fail (failure : ConnectionError) (endpoint : Endpoint κ) :
    ∃ alert : Option Record, (endpoint.fail failure).outgoing = endpoint.outgoing ++ alert.toList ∧
      (alert ≠ none → ∀ description, failure ≠ .receivedAlert description) := by
  cases failure with
  | sentAlert alert =>
    obtain ⟨record, hqueued⟩ := outgoing_after_sendRecord .alert (Alert.fatal alert).bytes endpoint
    exact ⟨record, hqueued, fun _ _ => nofun⟩
  | _ => exact ⟨none, (List.append_nil _).symm, fun h => absurd rfl h⟩

end Endpoint

namespace Connection

variable {connection : Connection κ} {taken : List Record}

/-! ### What comes out of a connection -/

/-- The data that an operation reads. -/
def data (connection : Connection κ) : Operation → List Bytes
  | .read => connection.read.1.toList
  | _ => []

/-- The data that a run reads. -/
def delivered (connection : Connection κ) : List Operation → List Bytes
  | [] => []
  | operation :: rest => connection.data operation ++ (connection.operate operation).delivered rest

/-- The bytes that an operation takes for the transport. -/
def bytesTaken (connection : Connection κ) : Operation → Bytes
  | .takeOutgoing => connection.takeOutgoing.1
  | _ => []

/-- The bytes that a run takes for the transport. -/
def stream (connection : Connection κ) : List Operation → Bytes
  | [] => []
  | operation :: rest => connection.bytesTaken operation ++ (connection.operate operation).stream rest

/-- All records that were queued in a run, taken or not. -/
def log (connection : Connection κ) (operations : List Operation) : List Record :=
  connection.departed operations ++ (connection.run operations).outgoing

theorem departed_append (connection : Connection κ) (operations more : List Operation) :
    connection.departed (operations ++ more) =
      connection.departed operations ++ (connection.run operations).departed more := by
  induction operations generalizing connection with
  | nil => rfl
  | cons operation rest ih =>
    rw [List.cons_append, departed, ih, departed, List.append_assoc]
    rfl

theorem log_append (connection : Connection κ) (operations more : List Operation) :
    connection.log (operations ++ more) = connection.departed operations ++ (connection.run operations).log more := by
  rw [log, departed_append, run_append, List.append_assoc, log]

theorem stream_eq (connection : Connection κ) (operations : List Operation) :
    connection.stream operations = (connection.departed operations).flatMap Record.bytes := by
  induction operations generalizing connection with
  | nil => rfl
  | cons operation rest ih =>
    have hfirst : connection.bytesTaken operation = (connection.records operation).flatMap Record.bytes := by
      cases operation <;> rfl
    rw [stream, departed, List.flatMap_append, ih, hfirst]

/-- The bytes of a connection are those of the records that were queued, in that order. -/
theorem stream_append_takeOutgoing (connection : Connection κ) (operations : List Operation) :
    connection.stream operations ++ (connection.run operations).takeOutgoing.1 =
      (connection.log operations).flatMap Record.bytes := by
  rw [stream_eq, log, List.flatMap_append]
  rfl

theorem run_replicate_read (connection : Connection κ) (count : Nat) :
    connection.delivered (List.replicate count .read) = connection.received.take count := by
  induction count generalizing connection with
  | zero => rfl
  | succ count ih =>
    rw [List.replicate_succ, delivered, ih, data, operate, Connection.read]
    split <;> simp_all

/-! ### A connection that is over -/

theorem start_of_isOver (h : connection.phase.isOver = true) : connection.start = (.error .closed, connection) := by
  rw [Connection.start, if_pos h]

theorem send_of_isOver (h : connection.phase.isOver = true) (data : Bytes) :
    connection.send data = (.error .closed, connection) := by
  rw [Connection.send, if_pos h]

theorem close_of_isOver (h : connection.phase.isOver = true) : connection.close = connection.abandon := by
  rw [Connection.close, if_pos (.inl h)]

theorem phase_close (connection : Connection κ) : connection.close.phase = .closed := by
  rw [Connection.close]
  split <;> rfl

/-- The end of a connection is for good, and all that an operation can do is take from the queues. -/
structure Rests (operation : Operation) (connection : Connection κ) : Prop where
  phase : (connection.operate operation).phase = connection.phase ∨
    (operation = .close ∨ operation = .abandon) ∧ (connection.operate operation).phase = .closed
  records : connection.records operation ++ (connection.operate operation).outgoing = connection.outgoing
  data : connection.data operation ++ (connection.operate operation).received = connection.received

theorem rests_of_isOver (h : connection.phase.isOver = true) (operation : Operation) : connection.Rests operation := by
  have hsame (hoperate : connection.operate operation = connection) (hrecords : connection.records operation = [])
      (hdata : connection.data operation = []) : connection.Rests operation := by
    constructor
    · exact .inl (congrArg (·.phase) hoperate)
    · rw [hoperate, hrecords, List.nil_append]
    · rw [hoperate, hdata, List.nil_append]
  cases operation with
  | start => exact hsame (congrArg Prod.snd (start_of_isOver h)) rfl rfl
  | receive b => exact hsame (congrArg Prod.snd (receive_of_isOver h b)) rfl rfl
  | send data => exact hsame (congrArg Prod.snd (send_of_isOver h data)) rfl rfl
  | takeOutgoing => exact ⟨.inl rfl, List.append_nil _, rfl⟩
  | read =>
    have hread := congrArg (·.received) (behind_read connection)
    have hqueues : connection.read.2.phase = connection.phase ∧ connection.read.2.outgoing = connection.outgoing := by
      rw [Connection.read]
      split <;> exact ⟨rfl, rfl⟩
    exact ⟨.inl hqueues.1, hqueues.2, hread⟩
  | close =>
    have habandon : connection.operate .close = connection.abandon := close_of_isOver h
    constructor
    · exact .inr ⟨.inl rfl, phase_close connection⟩
    · rw [habandon]
      rfl
    · rw [habandon]
      rfl
  | abandon => exact ⟨.inr ⟨.inr rfl, rfl⟩, rfl, rfl⟩
  | reseed entropy => exact ⟨.inl rfl, rfl, rfl⟩

theorem Rests.isOver {operation : Operation} (hrests : connection.Rests operation)
    (h : connection.phase.isOver = true) : (connection.operate operation).phase.isOver = true := by
  rcases hrests.phase with hphase | ⟨-, hphase⟩
  · rwa [hphase]
  · rw [hphase]
    rfl

theorem log_of_isOver (h : connection.phase.isOver = true) (operations : List Operation) :
    connection.log operations = connection.outgoing := by
  induction operations generalizing connection with
  | nil => rfl
  | cons operation rest ih =>
    have hrests := rests_of_isOver h operation
    have hlog : connection.log (operation :: rest) =
        connection.records operation ++ (connection.operate operation).log rest := List.append_assoc ..
    rw [hlog, ih (hrests.isOver h), hrests.records]

theorem delivered_of_isOver (h : connection.phase.isOver = true) (operations : List Operation) :
    connection.delivered operations ++ (connection.run operations).received = connection.received := by
  induction operations generalizing connection with
  | nil => rfl
  | cons operation rest ih =>
    have hrests := rests_of_isOver h operation
    have hrest := ih (hrests.isOver h)
    rw [delivered, List.append_assoc]
    exact (congrArg (connection.data operation ++ ·) hrest).trans hrests.data

/-! ### A connection that goes on -/

/-- What may come of an operation on a connection that goes on: no alert is queued, or one by a failure
that is not the peer's, behind all else. -/
structure Proceeds (connection : Connection κ) (outcome : Except ConnectionError Unit × Connection κ) : Prop where
  phase : outcome.2.phase ≠ .closed
  received : connection.received <+: outcome.2.received
  outgoing : ∃ (records : List Record) (alert : Option Record), Unalarmed records ∧
    outcome.2.outgoing = connection.outgoing ++ records ++ alert.toList ∧
    (alert ≠ none → outcome.2.phase = .error ∧ ∀ description, outcome.1 ≠ .error (.receivedAlert description))
  ended : ∀ description, outcome.1 = .error (.receivedAlert description) → outcome.2.phase = .error

theorem proceeds_of_same (hlive : connection.phase.isOver = false) {failure : ConnectionError}
    (h : ∀ description, failure ≠ .receivedAlert description) : connection.Proceeds (.error failure, connection) where
  phase hclosed := by
    rw [hclosed] at hlive
    cases hlive
  received := List.prefix_rfl
  outgoing := ⟨[], none, fun _ hmem => absurd hmem List.not_mem_nil, by simp, fun hsome => absurd rfl hsome⟩
  ended description hfailure := absurd (Except.error.inj hfailure) (h description)

theorem proceeds_perform {step : Endpoint.Step κ Unit} (hlive : connection.phase.isOver = false)
    (hchanges : Endpoint.KeepsChanges connection.toEndpoint step)
    (hfixed : Endpoint.KeepsFixed connection.toEndpoint (·.isOver = false) step) :
    connection.Proceeds (connection.perform step) := by
  cases hrun : step.run connection.toEndpoint with
  | ok value endpoint =>
    have hadds := Endpoint.Changes.adds (hchanges.of_ok hrun .refl)
    have hphase := (hfixed.of_ok hrun ⟨rfl, ⟨rfl, rfl⟩, hlive⟩).phase
    obtain ⟨records, hrecords, houtgoing⟩ := hadds.outgoing
    rw [perform_of_ok hrun]
    refine ⟨fun hclosed => ?_, hadds.received, ⟨records, none, hrecords, ?_, fun h => absurd rfl h⟩, fun _ => nofun⟩
    · rw [show endpoint.phase = .closed from hclosed] at hphase
      cases hphase
    · rw [Option.toList_none, List.append_nil]
      exact houtgoing
  | error failure endpoint =>
    have hadds := Endpoint.Changes.adds (hchanges.of_error hrun .refl)
    obtain ⟨records, hrecords, houtgoing⟩ := hadds.outgoing
    obtain ⟨alert, hqueued, halert⟩ := endpoint.outgoing_fail failure
    rw [perform_of_error hrun]
    refine ⟨nofun, ?_, ⟨records, alert, hrecords, ?_, fun hsome => ⟨rfl, fun description hfailure => ?_⟩⟩, fun _ _ => rfl⟩
    · rw [Endpoint.received_fail]
      exact hadds.received
    · rw [← houtgoing]
      exact hqueued
    · exact halert hsome description (Except.error.inj hfailure)

theorem proceeds_start (hlive : connection.phase.isOver = false) : connection.Proceeds connection.start := by
  by_cases hidle : connection.phase = .idle
  · cases hside : connection.side with
    | client offer =>
      rw [start_of_client hidle hside]
      exact proceeds_perform hlive (Endpoint.keepsChanges_sendClientHello offer)
        (Endpoint.keepsFixed_sendClientHello (by decide) offer)
    | server policy =>
      rw [start_of_server hidle hside]
      exact proceeds_perform hlive (Endpoint.keepsChanges_enter .waitHello) (Endpoint.keepsFixed_enter (by decide))
  · rw [Connection.start, if_neg (by simp [hlive]), if_pos hidle]
    exact proceeds_of_same hlive fun _ hother => by cases hother

theorem proceeds_receive (hlive : connection.phase.isOver = false) (b : Bytes) :
    connection.Proceeds (connection.receive b) := by
  by_cases hidle : connection.phase = .idle
  · rw [receive_of_idle hidle]
    exact proceeds_of_same hlive fun _ hother => by cases hother
  · rw [receive_of_takesInput ⟨hidle, hlive⟩]
    -- The bytes that wait are in neither queue.
    have hperform := @proceeds_perform _ { connection with incoming := (connection.arriving b).rest } _ hlive
      (Endpoint.keepsChanges_receiveRecords (connection.arriving b))
      (Endpoint.keepsFixed_receiveRecords (fun _ h => h.2) (connection.arriving b))
    exact ⟨hperform.phase, hperform.received, hperform.outgoing, hperform.ended⟩

theorem proceeds_send (hlive : connection.phase.isOver = false) (data : Bytes) :
    connection.Proceeds (connection.send data) := by
  rw [Connection.send, if_neg (by simp [hlive])]
  split
  · exact proceeds_of_same hlive fun _ hother => by cases hother
  · exact proceeds_perform hlive (Endpoint.keepsChanges_sendFragmented (by decide) data)
      (Endpoint.keepsFixed_sendFragmented _ _)

/-- An operation loses nothing that was received. -/
theorem received_prefix_operate (connection : Connection κ) (operation : Operation) :
    connection.received <+: connection.data operation ++ (connection.operate operation).received := by
  cases hover : connection.phase.isOver with
  | true => exact (rests_of_isOver hover operation).data ▸ List.prefix_rfl
  | false =>
    cases operation with
    | start => exact (proceeds_start hover).received
    | receive b => exact (proceeds_receive hover b).received
    | send data => exact (proceeds_send hover data).received
    | read => exact (congrArg (·.received) (behind_read connection)) ▸ List.prefix_rfl
    | close =>
      simp only [data, operate, Connection.close]
      split
      · exact List.prefix_rfl
      · obtain ⟨encrypter, outgoing, entropy, hafter⟩ := Endpoint.OnlySent.after
          (Endpoint.keepsOnlySent_sendRecord connection.toEndpoint .alert (Alert.warning .closeNotify).bytes)
        rw [hafter]
        exact List.prefix_rfl
    | _ => exact List.prefix_rfl

theorem received_prefix_run (connection : Connection κ) (operations : List Operation) :
    connection.received <+: connection.delivered operations ++ (connection.run operations).received := by
  induction operations generalizing connection with
  | nil => exact List.prefix_rfl
  | cons operation rest ih =>
    refine (received_prefix_operate connection operation).trans ?_
    rw [delivered, List.append_assoc, List.prefix_append_right_inj]
    exact ih (connection.operate operation)

/-- What a call accepts of the first bytes stays, whatever comes behind them in the same call. -/
theorem received_prefix_receive_append (connection : Connection κ) (first second : Bytes) :
    (connection.receive first).2.received <+: (connection.receive (first ++ second)).2.received := by
  by_cases hready : connection.phase.TakesInput
  · rw [receive_append hready]
    split
    · next after hfirst =>
      rw [hfirst]
      exact (proceeds_receive (takesInput_of_receive hready hfirst).2 second).received
    · next hfirst => rw [hfirst]
  · rw [receive_of_not_takesInput hready, receive_of_not_takesInput hready]

/-! ### Runs -/

/-- A connection that goes on has queued no alert, and one that is over has none with something behind it. -/
structure Tidy (taken : List Record) (connection : Connection κ) : Prop where
  live : connection.phase.isOver = false → Unalarmed (taken ++ connection.outgoing)
  last : AlertLast (taken ++ connection.outgoing)

theorem Proceeds.tidy {outcome : Except ConnectionError Unit × Connection κ} (hproceeds : connection.Proceeds outcome)
    (h : Unalarmed (taken ++ connection.outgoing)) : outcome.2.Tidy taken := by
  obtain ⟨records, alert, hrecords, houtgoing, halert⟩ := hproceeds.outgoing
  have hfront : Unalarmed (taken ++ connection.outgoing ++ records) := h.append hrecords
  constructor
  · intro hlive
    cases alert with
    | none =>
      rw [houtgoing, Option.toList_none, List.append_nil, ← List.append_assoc]
      exact hfront
    | some record =>
      rw [(halert (by simp)).1] at hlive
      cases hlive
  · rw [houtgoing, ← List.append_assoc, ← List.append_assoc]
    exact hfront.alertLast_append alert

theorem Tidy.operate (h : connection.Tidy taken) (operation : Operation) :
    (connection.operate operation).Tidy (taken ++ connection.records operation) := by
  cases hover : connection.phase.isOver with
  | true =>
    have hrests := rests_of_isOver hover operation
    refine ⟨fun hlive => ?_, ?_⟩
    · cases (hrests.isOver hover).symm.trans hlive
    · rw [List.append_assoc, hrests.records]
      exact h.last
  | false =>
    have hnone := h.live hover
    cases operation with
    | start => exact (List.append_nil taken).symm ▸ (proceeds_start hover).tidy hnone
    | receive b => exact (List.append_nil taken).symm ▸ (proceeds_receive hover b).tidy hnone
    | send data => exact (List.append_nil taken).symm ▸ (proceeds_send hover data).tidy hnone
    | takeOutgoing =>
      have hall : Unalarmed (taken ++ connection.outgoing ++ []) := (List.append_nil _).symm ▸ hnone
      exact ⟨fun _ => hall, hall.alertLast⟩
    | read =>
      have hsame : (connection.operate .read).outgoing = connection.outgoing := by
        simp only [Connection.operate, Connection.read]
        split <;> rfl
      refine (List.append_nil taken).symm ▸ ⟨fun _ => ?_, ?_⟩
      · exact hsame ▸ hnone
      · exact hsame ▸ h.last
    | close =>
      refine (List.append_nil taken).symm ▸ ⟨fun hlive => ?_, ?_⟩
      · rw [Connection.operate, phase_close] at hlive
        cases hlive
      · simp only [Connection.operate, Connection.close]
        split
        · exact h.last
        · obtain ⟨record, hqueued⟩ := Endpoint.outgoing_after_sendRecord .alert (Alert.warning .closeNotify).bytes
            connection.toEndpoint
          simp only [abandon, hqueued, ← List.append_assoc]
          exact hnone.alertLast_append record
    | abandon =>
      refine (List.append_nil taken).symm ▸ ⟨fun hlive => ?_, h.last⟩
      cases hlive
    | reseed entropy => exact (List.append_nil taken).symm ▸ ⟨h.live, h.last⟩

theorem Tidy.run (h : connection.Tidy taken) (operations : List Operation) :
    (connection.run operations).Tidy (taken ++ connection.departed operations) := by
  induction operations generalizing taken connection with
  | nil => exact (List.append_nil taken).symm ▸ h
  | cons operation rest ih =>
    rw [departed, ← List.append_assoc]
    exact ih (h.operate operation)

end Connection

theorem Connection.abandon_close (connection : Connection κ) : connection.close.abandon = connection.close := by
  rw [Connection.close]
  split <;> rfl

theorem Connection.abandon_read (connection : Connection κ) :
    connection.read.2.phase = connection.phase ∧ connection.read.2.abandon = connection.abandon.read.2 := by
  simp only [Connection.read, Connection.abandon]
  split <;> exact ⟨rfl, rfl⟩

/-- A connection is closed by closing it only, and then it waits for nothing. -/
theorem Reachable.abandon_of_closed {connection : Connection κ} (h : Reachable connection)
    (hclosed : connection.phase = .closed) : connection.abandon = connection := by
  induction h with
  | opened hmade =>
    obtain ⟨side, version, setting, session, rfl, -⟩ := Configuration.exists_fresh hmade
    cases hclosed
  | @operated connection operation _ ih =>
    -- What may fail does not close, and does nothing to what is closed.
    have hresult {outcome : Except ConnectionError Unit × Connection κ}
        (hover : connection.phase.isOver = true → outcome = (.error .closed, connection))
        (hlive : connection.phase.isOver = false → connection.Proceeds outcome)
        (hclosed : outcome.2.phase = .closed) : outcome.2.abandon = outcome.2 := by
      cases hphase : connection.phase.isOver with
      | true =>
        rw [hover hphase] at hclosed ⊢
        exact ih hclosed
      | false => exact absurd hclosed (hlive hphase).phase
    cases operation with
    | start => exact hresult Connection.start_of_isOver Connection.proceeds_start hclosed
    | receive b =>
      exact hresult (Connection.receive_of_isOver · b) (Connection.proceeds_receive · b) hclosed
    | send data => exact hresult (Connection.send_of_isOver · data) (Connection.proceeds_send · data) hclosed
    | takeOutgoing => exact congrArg (·.takeOutgoing.2) (ih hclosed)
    | read =>
      obtain ⟨hphase, hread⟩ := connection.abandon_read
      exact hread.trans (congrArg (·.read.2) (ih (hphase.symm.trans hclosed)))
    | close => exact connection.abandon_close
    | abandon => rfl
    | reseed entropy => exact congrArg (·.withEntropy entropy) (ih hclosed)

/-- How a connection ends, as seen from where a run leaves it. -/
structure Connection.EndsOnce (connection : Connection κ) (operations : List Operation) : Prop where
  /-- The bytes for the transport, taken and not taken, are those of the records that were queued. -/
  stream : connection.stream operations ++ (connection.run operations).takeOutgoing.1 =
    (connection.log operations).flatMap Record.bytes
  /-- At most one of the records is an alert, and it is the last. -/
  alertLast : AlertLast (connection.log operations)
  /-- When an alert of the peer has come, no alert was queued, and nothing is queued again. -/
  unanswered : ∀ b description, ((connection.run operations).receive b).1 = .error (.receivedAlert description) →
    Unalarmed (connection.log (operations ++ [.receive b])) ∧
      ∀ more, connection.log (operations ++ [.receive b] ++ more) = connection.log (operations ++ [.receive b])
  /-- After the end it takes no input and no data, and stays as it is. -/
  refused : (connection.run operations).phase.isOver = true →
    (connection.run operations).start = (.error .closed, connection.run operations) ∧
    (∀ b, (connection.run operations).receive b = (.error .closed, connection.run operations)) ∧
    ∀ data, (connection.run operations).send data = (.error .closed, connection.run operations)
  /-- All that can become of the end is that the connection is closed. -/
  phase : (connection.run operations).phase.isOver = true → ∀ operation,
    ((connection.run operations).operate operation).phase = (connection.run operations).phase ∨
      (operation = .close ∨ operation = .abandon) ∧ (connection.run operations).phase = .error ∧
        ((connection.run operations).operate operation).phase = .closed
  /-- It can be closed at any time, and once. -/
  closed : ((connection.run operations).close.phase = .closed ∧ (connection.run operations).abandon.phase = .closed) ∧
    ((connection.run operations).phase = .closed → (connection.run operations).close = connection.run operations ∧
      (connection.run operations).abandon = connection.run operations)
  /-- What was received is read in order. -/
  readings : ∀ count, (connection.run operations).delivered (List.replicate count .read) =
    (connection.run operations).received.take count
  /-- No operation takes away what was received, and after the end none adds to it. -/
  received : ∀ more,
    (connection.run operations).received <+: (connection.run operations).delivered more ++
      (connection.run (operations ++ more)).received ∧
    ((connection.run operations).phase.isOver = true → (connection.run operations).delivered more ++
      (connection.run (operations ++ more)).received = (connection.run operations).received)
  /-- What was accepted before a failure in the same call stays as well. -/
  accepted : ∀ first second, ((connection.run operations).receive first).2.received <+:
    ((connection.run operations).receive (first ++ second)).2.received

namespace Connection

variable {connection : Connection κ}

theorem Tidy.unanswered {operations : List Operation} (h : (connection.run operations).Tidy (connection.departed operations))
    {b : Bytes} {description : AlertDescription}
    (hanswer : ((connection.run operations).receive b).1 = .error (.receivedAlert description)) :
    Unalarmed (connection.log (operations ++ [.receive b])) ∧
      ∀ more, connection.log (operations ++ [.receive b] ++ more) = connection.log (operations ++ [.receive b]) := by
  have hlog : connection.log (operations ++ [.receive b]) =
      connection.departed operations ++ ((connection.run operations).receive b).2.outgoing := log_append ..
  have hlive : (connection.run operations).phase.isOver = false := by
    rw [← Bool.not_eq_true]
    intro hover
    rw [receive_of_isOver hover] at hanswer
    cases hanswer
  have hproceeds := proceeds_receive hlive b
  constructor
  · obtain ⟨records, alert, hrecords, houtgoing, halert⟩ := hproceeds.outgoing
    obtain rfl : alert = none := by
      by_contra hsome
      exact (halert hsome).2 description hanswer
    rw [hlog, houtgoing, Option.toList_none, List.append_nil, ← List.append_assoc]
    exact (h.live hlive).append hrecords
  · intro more
    have hover : (connection.run (operations ++ [.receive b])).phase.isOver = true := by
      rw [run_append]
      exact congrArg Phase.isOver (hproceeds.ended description hanswer)
    rw [log_append, log_of_isOver hover, log]

end Connection

/-- **The end of a connection.** All that it sends holds at most one alert, as the last record, and none
where the peer's alert came first; after its end it changes in nothing but that its queues are emptied
and that it may be closed. -/
theorem Configuration.endsOnce {configuration : Configuration κ} {entropy : Entropy} {connection : Connection κ}
    (hmade : configuration.connection entropy = .ok connection) (operations : List Operation) :
    connection.EndsOnce operations := by
  have hfresh : connection.Tidy [] := by
    obtain ⟨side, version, setting, session, rfl, -⟩ := exists_fresh hmade
    have hnone : Unalarmed [] := fun _ hmem => absurd hmem List.not_mem_nil
    exact ⟨fun _ => hnone, hnone.alertLast⟩
  have htidy : (connection.run operations).Tidy (connection.departed operations) := hfresh.run operations
  have hreachable := (Reachable.opened hmade).run operations
  refine
    { stream := connection.stream_append_takeOutgoing operations
      alertLast := htidy.last
      unanswered := fun b description => htidy.unanswered
      refused := fun hover => ⟨Connection.start_of_isOver hover, Connection.receive_of_isOver hover,
        Connection.send_of_isOver hover⟩
      phase := fun hover operation => ?_
      closed := ⟨⟨Connection.phase_close _, rfl⟩, fun hclosed => ?_⟩
      readings := Connection.run_replicate_read _
      received := fun more => ?_
      accepted := Connection.received_prefix_receive_append _ }
  · rcases (Connection.rests_of_isOver hover operation).phase with hsame | ⟨hclosing, hclosed⟩
    · exact .inl hsame
    · cases hphase : (connection.run operations).phase with
      | error => exact .inr ⟨hclosing, rfl, hclosed⟩
      | closed => exact .inl hclosed
      | _ => simp [hphase, Phase.isOver] at hover
  · have habandon := hreachable.abandon_of_closed hclosed
    exact ⟨(Connection.close_of_isOver (by rw [hclosed]; rfl)).trans habandon, habandon⟩
  · rw [Connection.run_append]
    exact ⟨Connection.received_prefix_run _ more, fun hover => Connection.delivered_of_isOver hover more⟩

/-- A client without a key ends with an alert. -/
theorem Configuration.endsOnce_keyless :
    (keylessClient.connection ⟨fun _ => 7, 0⟩).EndsOnce keylessRun ∧
      ∃ front, (keylessClient.connection ⟨fun _ => 7, 0⟩).log keylessRun = front ++ [⟨21, 0x0303, [2, 80]⟩] := by
  have hends := @Configuration.endsOnce _ (.client keylessClient) ⟨fun _ => 7, 0⟩ _ rfl keylessRun
  refine ⟨hends, (keylessClient.connection ⟨fun _ => 7, 0⟩).departed keylessRun ++
    [⟨22, 0x0303, [16, 0, 0, 2, 0, 0]⟩, ⟨20, 0x0303, [1]⟩], ?_⟩
  rw [Connection.log, outgoing_keylessRun, List.append_assoc]
  rfl

end PresharedTls
