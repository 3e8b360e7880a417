import Mathlib.Logic.Function.Iterate
import PresharedTls.Proofs.Assertions
import PresharedTls.Proofs.Endpoint.Stages

/-!
# Receiving, one item at a time

`Connection.receive` cuts all that arrived into records, and all that a record brings into messages. Here a
tick takes one record or one message off its buffer and handles it, so the buffers can be looked at between
any two of them. The ticks come to rest, with the result and the connection of `receive`.
-/

namespace PresharedTls

open Endpoint (settle takeRecord takeMessage takeMessages takeNext)

variable {κ : Type}

/-- A connection that has work to do, or rests with the result of the last operation. -/
inductive Moment (κ : Type) where
  | busy (stage : Stage) (connection : Connection κ)
  | rest (result : Except ConnectionError Unit) (connection : Connection κ)

namespace Moment

def connection : Moment κ → Connection κ
  | busy _ connection | rest _ connection => connection

/-- Runs a step that says what is taken next. Its failure is the connection's end. -/
def proceed (step : Endpoint.Step κ Stage) (connection : Connection κ) : Moment κ :=
  match step.run connection.toEndpoint with
  | .ok stage endpoint => busy stage ⟨endpoint, connection.incoming⟩
  | .error failure endpoint => rest (.error failure) ⟨endpoint.fail failure, []⟩

/-- Takes the next record, or the next message. Where there is no more of a message the next record is
looked for, and where there is no more of a record all is done. -/
def tick : Moment κ → Moment κ
  | rest result connection => rest result connection
  | busy .records connection =>
    match (Record.framing connection.session.ciphertextLimit).next connection.incoming with
    | .error alert => proceed (Endpoint.refuse alert) connection
    | .ok none => rest (.ok ()) connection
    | .ok (some (record, behind)) => proceed (takeRecord record) { connection with incoming := behind }
  | busy .messages connection =>
    match HandshakeMessage.framing.next connection.handshake with
    | .error alert => proceed (Endpoint.refuse alert) connection
    | .ok none => busy .records connection
    | .ok (some (message, _)) => proceed (takeNext message) connection

/-- What a moment comes to if all the work is done at once. -/
def verdict : Moment κ → Except ConnectionError Unit × Connection κ
  | rest result connection => (result, connection)
  | busy stage connection =>
    let records := (Record.framing connection.session.ciphertextLimit).cut connection.incoming
    Connection.perform (settle stage >>= fun _ => Endpoint.receiveRecords records)
      { connection with incoming := records.rest }

theorem verdict_proceed {step : Endpoint.Step κ Stage} {connection : Connection κ}
    (hstep : Endpoint.KeepsFixed connection.toEndpoint (fun _ => True) step) {records : Cut Record}
    (hrecords : records = (Record.framing connection.session.ciphertextLimit).cut connection.incoming) :
    (proceed step connection).verdict =
      Connection.perform (step >>= fun stage => settle stage >>= fun _ => Endpoint.receiveRecords records)
        { connection with incoming := records.rest } := by
  subst hrecords
  cases hrun : step.run connection.toEndpoint with
  | ok stage endpoint =>
    have hfixed := hstep.of_ok hrun ⟨rfl, ⟨rfl, rfl⟩, trivial⟩
    simp only [proceed, hrun, verdict, Connection.perform, hfixed.session.ciphertextLimit, run_bind_of_ok hrun]
  | error failure endpoint =>
    simp only [proceed, hrun, verdict, Connection.perform, run_bind_of_error hrun]

end Moment

namespace Connection

/-- The first moment of receiving. -/
def begin (connection : Connection κ) (b : Bytes) : Moment κ :=
  if connection.phase.isOver then .rest (.error .closed) connection
  else if connection.phase = .idle then .rest (.error .notStarted) connection
  else .busy .records { connection with incoming := connection.incoming ++ b }

theorem verdict_begin (connection : Connection κ) (b : Bytes) : (connection.begin b).verdict = connection.receive b := by
  rw [begin, receive]
  split
  · rfl
  · split
    · rfl
    · rfl

end Connection

namespace Moment

theorem run_receiveRecords_cons (record : Record) (records : Cut Record) :
    Endpoint.receiveRecords (κ := κ) ⟨record :: records.items, records.rest, records.fault⟩ =
      Endpoint.receiveRecord record >>= fun _ => Endpoint.receiveRecords records := by
  rw [Endpoint.receiveRecords, Endpoint.receiveRecords, ← bind_assoc]
  rfl

/-- A tick that takes a record, or finds that there is none, does not change what is come to. -/
theorem verdict_tick_records (connection : Connection κ) :
    (busy .records connection).tick.verdict = (busy .records connection).verdict := by
  cases hnext : (Record.framing connection.session.ciphertextLimit).next connection.incoming with
  | error alert =>
    simp only [tick, hnext, verdict, Framing.cut_of_fault hnext]
    rfl
  | ok taken =>
    cases taken with
    | none =>
      simp only [tick, hnext, verdict, Framing.cut_of_none hnext]
      rfl
    | some item =>
      obtain ⟨record, behind⟩ := item
      have hkeeps : Endpoint.KeepsFixed connection.toEndpoint (fun _ => True) (takeRecord record) :=
        Endpoint.keepsFixed_takeRecord trivial record
      simp only [tick, hnext]
      rw [@verdict_proceed _ _ { connection with incoming := behind } hkeeps _ rfl]
      simp only [verdict, Framing.cut_of_item hnext, run_receiveRecords_cons, Endpoint.receiveRecord_eq, bind_assoc]
      rfl

/-- A tick that takes a message, or finds that there is none, does not change what is come to. -/
theorem verdict_tick_messages (connection : Connection κ) :
    (busy .messages connection).tick.verdict = (busy .messages connection).verdict := by
  have hsettle : (settle .messages).run connection.toEndpoint =
      (takeMessages (HandshakeMessage.framing.cut connection.handshake)).run connection.toEndpoint := rfl
  cases hnext : HandshakeMessage.framing.next connection.handshake with
  | error alert =>
    have hfails : (settle .messages).run connection.toEndpoint = .error (.sentAlert alert) connection.toEndpoint := by
      rw [hsettle, Framing.cut_of_fault hnext]
      rfl
    simp only [tick, hnext, verdict, Connection.perform, run_bind_of_error hfails]
    rfl
  | ok taken =>
    cases taken with
    | none =>
      have hdone : (settle .messages).run connection.toEndpoint = .ok () connection.toEndpoint := by
        rw [hsettle, Framing.cut_of_none hnext]
        rfl
      simp only [tick, hnext, verdict, Connection.perform, run_bind_of_ok hdone]
      rfl
    | some item =>
      obtain ⟨message, behind⟩ := item
      have hkeeps : Endpoint.KeepsFixed connection.toEndpoint (fun _ => True) (takeNext message) :=
        Endpoint.keepsFixed_takeNext (fun _ _ => trivial) message
      have hnexts : takeNext (κ := κ) message >>= settle = takeMessage message >>= fun _ => settle .messages := by
        rw [takeNext, bind_assoc]
        rfl
      have hsame (next : Unit → Endpoint.Step κ Unit) :
          ((takeMessage message >>= fun _ => settle .messages) >>= next).run connection.toEndpoint =
            (settle .messages >>= next).run connection.toEndpoint := by
        rw [EStateM.run_bind, ← Endpoint.settle_of_next hnext, ← EStateM.run_bind]
      simp only [tick, hnext]
      rw [verdict_proceed hkeeps rfl, ← bind_assoc, hnexts]
      simp only [verdict, Connection.perform, hsame]

/-- **A tick does not change what is come to.** -/
theorem verdict_tick (moment : Moment κ) : moment.tick.verdict = moment.verdict := by
  cases moment with
  | rest result connection => rfl
  | busy stage connection =>
    cases stage with
    | records => exact verdict_tick_records connection
    | messages => exact verdict_tick_messages connection

/-! ### Ticks come to rest -/

def AtRest : Moment κ → Prop
  | rest _ _ => True
  | busy _ _ => False

/-- What there is to be taken: bytes for records, and then bytes for messages if these are being taken. -/
def work : Moment κ → Nat × Nat × Nat
  | rest _ _ => (0, 0, 0)
  | busy .records connection => (connection.incoming.length + 1, 0, 0)
  | busy .messages connection => (connection.incoming.length + 1, 1, connection.handshake.length)

theorem work_proceed_le (step : Endpoint.Step κ Stage) (connection : Connection κ) :
    (proceed step connection).work.1 ≤ connection.incoming.length + 1 := by
  rw [proceed]
  split
  · next stage _ _ => cases stage <;> simp [work]
  · simp [work]

/-- There is less work behind a tick: a record is off the bytes that arrived, or a message off the others. -/
theorem work_tick {moment : Moment κ} (h : ¬ moment.AtRest) :
    Prod.Lex (· < ·) (Prod.Lex (· < ·) (· < ·)) moment.tick.work moment.work := by
  cases moment with
  | rest result connection => exact absurd trivial h
  | busy stage connection =>
    cases stage with
    | records =>
      have hless (other : Moment κ) (hother : other.work.1 < connection.incoming.length + 1) :
          Prod.Lex (· < ·) (Prod.Lex (· < ·) (· < ·)) other.work (busy .records connection).work :=
        .left _ _ hother
      cases hnext : (Record.framing connection.session.ciphertextLimit).next connection.incoming with
      | error alert =>
        simp only [tick, hnext]
        exact hless _ (Nat.succ_pos _)
      | ok taken =>
        cases taken with
        | none =>
          simp only [tick, hnext]
          exact hless _ (Nat.succ_pos _)
        | some item =>
          obtain ⟨record, behind⟩ := item
          have hshorter := (Record.framing connection.session.ciphertextLimit).length_lt hnext
          have hwork := work_proceed_le (takeRecord record) { connection with incoming := behind }
          simp only [tick, hnext]
          exact hless _ (Nat.lt_of_le_of_lt hwork (Nat.succ_lt_succ hshorter))
    | messages =>
      cases hnext : HandshakeMessage.framing.next connection.handshake with
      | error alert =>
        simp only [tick, hnext]
        exact .left _ _ (Nat.succ_pos _)
      | ok taken =>
        cases taken with
        | none =>
          simp only [tick, hnext]
          exact .right _ (.left _ _ Nat.zero_lt_one)
        | some item =>
          obtain ⟨message, behind⟩ := item
          have hshorter := HandshakeMessage.framing.length_lt hnext
          have hends := Endpoint.ends_takeNext hnext
          simp only [tick, hnext, proceed]
          rw [Ends] at hends
          split at hends
          · next stage after hrun =>
            obtain ⟨rfl, hafter⟩ := hends
            rw [hrun]
            refine .right _ (.right _ ?_)
            show after.handshake.length < connection.handshake.length
            rwa [hafter]
          · next failure after hrun =>
            rw [hrun]
            exact .left _ _ (Nat.succ_pos _)

/-- However much there is to do, some number of ticks does it. -/
theorem exists_atRest (moment : Moment κ) : ∃ count, (tick^[count] moment).AtRest := by
  by_cases hrest : moment.AtRest
  · exact ⟨0, hrest⟩
  · obtain ⟨count, hcount⟩ := exists_atRest moment.tick
    exact ⟨count + 1, hcount⟩
termination_by moment.work
decreasing_by exact work_tick hrest

end Moment

namespace Connection

/-! ### The moments of a run -/

/-- The first moment of an operation. All but receiving is done at once. -/
def undertake (connection : Connection κ) : Operation → Moment κ
  | .receive b => connection.begin b
  | operation => .rest (connection.outcome operation).1 (connection.operate operation)

/-- The moments that a connection goes through, with the operations that were called so far. None is called
before the last one has come to rest. -/
inductive Occurs (connection : Connection κ) : List Operation → Moment κ → Prop
  | opened : connection.Occurs [] (.rest (.ok ()) connection)
  | called {operations : List Operation} {result : Except ConnectionError Unit} {before : Connection κ}
      (h : connection.Occurs operations (.rest result before)) (operation : Operation) :
      connection.Occurs (operations ++ [operation]) (before.undertake operation)
  | ticked {operations : List Operation} {moment : Moment κ} (h : connection.Occurs operations moment) :
      connection.Occurs operations moment.tick

variable {connection : Connection κ}

theorem verdict_undertake (connection : Connection κ) (operation : Operation) :
    (connection.undertake operation).verdict = connection.outcome operation := by
  cases operation with
  | receive b => exact verdict_begin connection b
  | _ => rfl

theorem results_concat (connection : Connection κ) (operations : List Operation) (operation : Operation) :
    connection.results (operations ++ [operation]) =
      connection.results operations ++ [((connection.run operations).outcome operation).1] := by
  induction operations generalizing connection with
  | nil => rfl
  | cons first rest ih =>
    rw [List.cons_append, results, ih, results]
    rfl

/-- All moments of an operation come to what the operation says, and to the connection behind it. -/
theorem Occurs.verdict {operations : List Operation} {moment : Moment κ} (h : connection.Occurs operations moment) :
    moment.verdict = ((connection.results operations).getLastD (.ok ()), connection.run operations) := by
  induction h with
  | opened => rfl
  | @called operations result before _ operation ih =>
    obtain rfl : before = connection.run operations := congrArg Prod.snd ih
    have hrun : connection.run (operations ++ [operation]) = ((connection.run operations).outcome operation).2 := by
      rw [run_append, outcome_snd]
      rfl
    rw [verdict_undertake, results_concat, hrun, List.getLastD_concat]
  | @ticked operations moment _ ih => exact moment.verdict_tick.trans ih

end Connection

end PresharedTls
