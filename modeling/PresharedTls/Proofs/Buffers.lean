import PresharedTls.Proofs.Chunking
import PresharedTls.Proofs.Coherence
import PresharedTls.Proofs.Guarded
import PresharedTls.Proofs.Parts
import PresharedTls.Proofs.Ticks

/-!
# Bounds on what waits

A peer sets every length field and a transport makes every cut, and still no more of what arrived is kept
than the longest record and the longest message. A header is looked at before the bytes behind it are waited
for, and nothing that is whole is left behind. A record adds no more than its plaintext to the handshake
bytes, so they stay bounded even while their messages are taken.
-/

namespace PresharedTls

variable {κ : Type}

/-! ### Limits on plaintexts -/

namespace Endpoint

variable {α : Type}

/-- A step that leaves the limits of the session in order. -/
abbrev KeepsLimited (step : Step κ α) : Prop :=
  Keeps (fun endpoint => endpoint.session.Limited) (fun endpoint => endpoint.session.Limited) step

theorem Changes.limited {sends : ContentType → Prop} {origin endpoint : Endpoint κ} (h : Changes sends origin endpoint)
    (horigin : origin.session.Limited) : endpoint.session.Limited :=
  h.keep (fun _ _ hchange hlimited => hchange.limited hlimited) horigin

theorem keepsLimited_of_changes {step : Step κ α} (hstep : ∀ origin, KeepsChanges origin step) : KeepsLimited step := by
  intro endpoint h
  have hchanges := hstep endpoint endpoint .refl
  exact hchanges.mono (fun _ _ hafter => hafter.limited h) fun _ _ hafter => hafter.limited h

theorem keepsLimited_refuse (alert : AlertDescription) : KeepsLimited (refuse alert : Step κ α) :=
  Keeps.throw fun _ => id

theorem keepsLimited_guard {condition : Prop} [Decidable condition] {alert : AlertDescription} {next : PUnit → Step κ α}
    (h : KeepsLimited (next ⟨⟩)) : KeepsLimited (if condition then refuse alert >>= next else next ⟨⟩) :=
  Keeps.ite (fun _ => Keeps.bind (keepsLimited_refuse alert) fun _ => h) fun _ => h

theorem keepsLimited_takeRecord (record : Record) : KeepsLimited (takeRecord (κ := κ) record) := by
  rw [takeRecord]
  apply Keeps.bind (keepsLimited_of_changes fun _ => keepsChanges_onSession fun _ => .opened _ _ _)
  intro plaintext
  apply Keeps.get_bind
  intro endpoint _
  apply keepsLimited_guard
  split
  · rw [gather]
    apply keepsLimited_guard
    exact Keeps.bind (Keeps.modify fun _ h => h) fun _ => Keeps.pure _
  · exact Keeps.bind (keepsLimited_of_changes fun _ => keepsChanges_receiveChangeCipherSpec plaintext) fun _ => Keeps.pure _
  · have hreceives : KeepsLimited (receiveApplicationData (κ := κ) plaintext) := by
      rw [receiveApplicationData]
      apply Keeps.get_bind
      intro endpoint h
      apply keepsLimited_guard
      exact Keeps.set h
    exact Keeps.bind hreceives fun _ => Keeps.pure _
  · exact Keeps.bind (keepsLimited_of_changes fun _ => keepsChanges_receiveAlert plaintext) fun _ => Keeps.pure _
  · exact keepsLimited_refuse _

theorem keepsLimited_takeMessage (message : HandshakeMessage) : KeepsLimited (takeMessage (κ := κ) message) :=
  keepsLimited_of_changes fun _ => keepsChanges_takeMessage message

theorem keepsLimited_takeNext (message : HandshakeMessage) : KeepsLimited (takeNext (κ := κ) message) :=
  Keeps.bind (keepsLimited_takeMessage message) fun _ => Keeps.pure _

/-! ### Handshake bytes -/

/-- What the handshake bytes stay below: a message that is not whole, and a plaintext behind it. -/
def handshakeBound : Nat := 4 + HandshakeHeader.maximumLength + maximumPlaintext

/-- An endpoint that has not too many handshake bytes. -/
structure Bounded (endpoint : Endpoint κ) : Prop where
  limited : endpoint.session.Limited
  short : endpoint.handshake.length < handshakeBound

/-- An endpoint between two records. No message is whole. -/
structure Waiting (endpoint : Endpoint κ) : Prop where
  limited : endpoint.session.Limited
  next : HandshakeMessage.next endpoint.handshake = .ok none

/-- What there is where a stage begins. -/
def Poised : Stage → Endpoint κ → Prop
  | .records => Waiting
  | .messages => Bounded

/-- An endpoint between two operations. -/
structure Resting (endpoint : Endpoint κ) : Prop extends endpoint.Bounded where
  next : endpoint.phase.isOver = false → HandshakeMessage.next endpoint.handshake = .ok none

variable {endpoint : Endpoint κ}

theorem Waiting.bounded (h : endpoint.Waiting) : endpoint.Bounded :=
  ⟨h.limited, Nat.lt_of_lt_of_le (HandshakeMessage.part_of_next h.next).short (Nat.le_add_right _ _)⟩

theorem Waiting.resting (h : endpoint.Waiting) : endpoint.Resting :=
  ⟨h.bounded, fun _ => h.next⟩

theorem Bounded.fail (h : endpoint.Bounded) (failure : ConnectionError) : (endpoint.fail failure).Resting := by
  refine ⟨⟨(endpoint.changes_fail failure).limited h.limited, ?_⟩, ?_⟩
  · rw [handshake_fail]
    exact h.short
  · intro hlive
    cases hlive

/-- Where no message is whole, there is room for the plaintext of a record. -/
theorem Waiting.takeRecord (h : endpoint.Waiting) (record : Record) :
    Ends (takeRecord record) endpoint (fun stage after => after.Poised stage) fun _ after => after.Bounded := by
  have hlimited := keepsLimited_takeRecord record endpoint h.limited
  refine (hlimited.and (ends_takeRecord record endpoint)).mono ?_ ?_
  · rintro stage after ⟨hafter, hgathers⟩
    cases stage with
    | records =>
      have hsame : after.handshake = endpoint.handshake := hgathers
      refine ⟨hafter, ?_⟩
      rw [hsame, h.next]
    | messages =>
      obtain ⟨plaintext, hplaintext, hgathered⟩ := hgathers
      have hwaits := (HandshakeMessage.part_of_next h.next).short
      have hlimit := le_maximumPlaintext_of_mem h.limited.plaintext
      refine ⟨hafter, ?_⟩
      rw [hgathered, List.length_append, handshakeBound]
      omega
  · rintro _ after ⟨hafter, hsame⟩
    refine ⟨hafter, ?_⟩
    rw [hsame]
    exact h.bounded.short

/-- A message that is taken makes room. -/
theorem Bounded.takeNext (h : endpoint.Bounded) {message : HandshakeMessage} {behind : Bytes}
    (hnext : HandshakeMessage.framing.next endpoint.handshake = .ok (some (message, behind))) :
    Ends (takeNext message) endpoint (fun stage after => after.Poised stage) fun _ after => after.Bounded := by
  have hshorter : behind.length < handshakeBound := Nat.lt_trans (HandshakeMessage.framing.length_lt hnext) h.short
  refine ((keepsLimited_takeNext message endpoint h.limited).and (ends_takeNext hnext)).mono ?_ ?_
  · rintro stage after ⟨hafter, rfl, hsame⟩
    refine ⟨hafter, ?_⟩
    rw [hsame]
    exact hshorter
  · rintro _ after ⟨hafter, hsame⟩
    refine ⟨hafter, ?_⟩
    rw [hsame]
    exact hshorter

/-- What is left behind all messages is not one yet, and a failure leaves no more than there was. -/
theorem ends_takeMessages_cut (endpoint : Endpoint κ) :
    Ends (takeMessages (HandshakeMessage.framing.cut endpoint.handshake)) endpoint
      (fun _ after => HandshakeMessage.next after.handshake = .ok none)
      fun _ after => after.handshake.length ≤ endpoint.handshake.length := by
  have hfront := (HandshakeMessage.flatMap_bytes_cut endpoint.handshake).1.symm
  rw [takeMessages, ends_bind]
  refine (ends_forM_takeMessage hfront).mono (fun _ after hafter => ?_) fun _ _ => List.IsSuffix.length_le
  cases hfault : (HandshakeMessage.framing.cut endpoint.handshake).fault with
  | none =>
    show HandshakeMessage.next after.handshake = .ok none
    rw [hafter]
    exact Framing.next_rest_of_cut _ _ hfault
  | some alert =>
    show after.handshake.length ≤ endpoint.handshake.length
    rw [hafter]
    exact List.IsSuffix.length_le ⟨_, hfront.symm⟩

theorem keepsLimited_takeMessages (messages : Cut HandshakeMessage) : KeepsLimited (takeMessages (κ := κ) messages) := by
  refine Keeps.bind (Keeps.forM keepsLimited_takeMessage _) fun _ => ?_
  cases messages.fault with
  | none => exact Keeps.pure _
  | some alert => exact keepsLimited_refuse alert

/-- All messages at once leave what taking them one by one leaves. -/
theorem Poised.settle {stage : Stage} (h : endpoint.Poised stage) :
    Ends (settle stage) endpoint (fun _ after => after.Waiting) fun _ after => after.Bounded := by
  cases stage with
  | records => exact h
  | messages =>
    have hbounded : endpoint.Bounded := h
    refine ((keepsLimited_takeMessages _ endpoint hbounded.limited).and (ends_takeMessages_cut endpoint)).mono ?_ ?_
    · exact fun _ after hafter => ⟨hafter.1, hafter.2⟩
    · exact fun _ after hafter => ⟨hafter.1, Nat.lt_of_le_of_lt hafter.2 hbounded.short⟩

theorem Waiting.receiveRecord (h : endpoint.Waiting) (record : Record) :
    Ends (receiveRecord record) endpoint (fun _ after => after.Waiting) fun _ after => after.Bounded := by
  rw [receiveRecord_eq, ends_bind]
  exact (h.takeRecord record).mono (fun _ _ hpoised => hpoised.settle) fun _ _ => id

theorem Waiting.receiveRecords (h : endpoint.Waiting) (records : Cut Record) :
    Ends (receiveRecords records) endpoint (fun _ after => after.Waiting) fun _ after => after.Bounded := by
  rw [Endpoint.receiveRecords, ends_bind]
  refine (ends_forM (fun record _ _ hwaiting => hwaiting.receiveRecord record) h).mono ?_ fun _ _ => id
  intro _ after hafter
  cases records.fault with
  | none => exact hafter
  | some alert => exact hafter.bounded

end Endpoint

/-! ### Moments -/

namespace Moment

open Endpoint (handshakeBound)

def Bounded : Moment κ → Prop
  | busy stage connection => connection.toEndpoint.Poised stage
  | rest _ connection => connection.toEndpoint.Resting

theorem Bounded.short {moment : Moment κ} (h : moment.Bounded) : moment.connection.handshake.length < handshakeBound := by
  cases moment with
  | rest result connection => exact h.toBounded.short
  | busy stage connection =>
    cases stage with
    | records =>
      have hwaiting : connection.toEndpoint.Waiting := h
      exact hwaiting.bounded.short
    | messages =>
      have hbounded : connection.toEndpoint.Bounded := h
      exact hbounded.short

theorem bounded_proceed {step : Endpoint.Step κ Stage} {connection : Connection κ}
    (h : Ends step connection.toEndpoint (fun stage after => after.Poised stage) fun _ after => after.Bounded) :
    (proceed step connection).Bounded := by
  rw [Ends] at h
  rw [proceed]
  split
  · next stage after hrun =>
    rw [hrun] at h
    exact h
  · next failure after hrun =>
    rw [hrun] at h
    exact h.fail failure

theorem Bounded.tick {moment : Moment κ} (h : moment.Bounded) : moment.tick.Bounded := by
  cases moment with
  | rest result connection => exact h
  | busy stage connection =>
    cases stage with
    | records =>
      have hwaiting : connection.toEndpoint.Waiting := h
      simp only [Moment.tick]
      split
      · exact bounded_proceed hwaiting.bounded
      · exact hwaiting.resting
      · next record behind _ => exact bounded_proceed (hwaiting.takeRecord record)
    | messages =>
      have hbounded : connection.toEndpoint.Bounded := h
      simp only [Moment.tick]
      split
      · exact bounded_proceed hbounded
      · next hnext => exact ⟨hbounded.limited, hnext⟩
      · next hnext => exact bounded_proceed (hbounded.takeNext hnext)

end Moment

namespace Connection

variable {connection : Connection κ}

theorem handshake_perform {step : Endpoint.Step κ Unit} (hstep : Endpoint.KeepsHandshake connection.handshake step) :
    (connection.perform step).2.handshake = connection.handshake :=
  holds_perform (P := fun after => after.handshake = connection.handshake)
    ((hstep _ rfl).mono (fun _ _ => id) fun failure endpoint => (Endpoint.handshake_fail failure endpoint).trans)

theorem handshake_start (connection : Connection κ) : connection.start.2.handshake = connection.handshake := by
  have hunseen := Endpoint.unseen_withHandshake (κ := κ) connection.handshake
  rw [Connection.start]
  split
  · rfl
  · split
    · rfl
    · split
      · next offer _ => exact handshake_perform (Endpoint.keepsHandshake_of_overlooks (hunseen.overlooks_sendClientHello offer))
      · exact handshake_perform (Endpoint.keepsHandshake_of_overlooks (hunseen.overlooks_enter .waitHello))

theorem handshake_send (connection : Connection κ) (data : Bytes) :
    (connection.send data).2.handshake = connection.handshake := by
  have hunseen := Endpoint.unseen_withHandshake (κ := κ) connection.handshake
  rw [Connection.send]
  split
  · rfl
  · split
    · rfl
    · exact handshake_perform (Endpoint.keepsHandshake_of_overlooks (hunseen.overlooks_sendFragmented .applicationData data))

/-- All but receiving leaves the handshake bytes as they are, or drops them. -/
theorem handshake_operate (connection : Connection κ) {operation : Operation} (h : ∀ b, operation ≠ .receive b) :
    (connection.operate operation).handshake = connection.handshake ∨ (connection.operate operation).handshake = [] := by
  cases operation with
  | start => exact .inl connection.handshake_start
  | receive b => exact absurd rfl (h b)
  | send data => exact .inl (connection.handshake_send data)
  | takeOutgoing => exact .inl rfl
  | read =>
    left
    simp only [operate, Connection.read]
    split <;> rfl
  | close =>
    right
    simp only [operate, Connection.close]
    split <;> rfl
  | abandon => exact .inr rfl
  | reseed entropy => exact .inl rfl

theorem limited_operate (h : connection.session.Limited) (operation : Operation) :
    (connection.operate operation).session.Limited :=
  session_run (fun _ _ => Endpoint.Change.limited) h [operation]

theorem isOver_operate (h : connection.phase.isOver = true) (operation : Operation) :
    (connection.operate operation).phase.isOver = true :=
  (rests_of_isOver h operation).isOver h

theorem resting_receive (h : connection.toEndpoint.Resting) (b : Bytes) : (connection.receive b).2.toEndpoint.Resting := by
  by_cases hready : connection.phase.TakesInput
  · have hwaiting : connection.toEndpoint.Waiting := ⟨h.limited, h.next hready.2⟩
    have hends := hwaiting.receiveRecords (connection.arriving b)
    rw [Ends] at hends
    cases hrun : (Endpoint.receiveRecords (connection.arriving b)).run connection.toEndpoint with
    | ok value endpoint =>
      rw [receive_of_ok hready hrun]
      rw [hrun] at hends
      exact hends.resting
    | error failure endpoint =>
      rw [receive_of_error hready hrun]
      rw [hrun] at hends
      exact hends.fail failure
  · rw [receive_of_not_takesInput hready]
    exact h

theorem resting_operate (h : connection.toEndpoint.Resting) (operation : Operation) :
    (connection.operate operation).toEndpoint.Resting := by
  by_cases hreceives : ∃ b, operation = .receive b
  · obtain ⟨b, rfl⟩ := hreceives
    exact resting_receive h b
  · have hlimited := limited_operate h.limited operation
    have hlive (hlive : (connection.operate operation).phase.isOver = false) : connection.phase.isOver = false := by
      by_contra hover
      rw [isOver_operate (Bool.eq_true_of_not_eq_false hover) operation] at hlive
      cases hlive
    rcases connection.handshake_operate (not_exists.mp hreceives) with hsame | hnone
    · refine ⟨⟨hlimited, ?_⟩, fun hafter => ?_⟩
      · rw [hsame]
        exact h.short
      · rw [hsame]
        exact h.next (hlive hafter)
    · apply Endpoint.Waiting.resting
      refine ⟨hlimited, ?_⟩
      rw [hnone]
      rfl

theorem resting_run (h : connection.toEndpoint.Resting) (operations : List Operation) :
    (connection.run operations).toEndpoint.Resting := by
  induction operations generalizing connection with
  | nil => exact h
  | cons operation rest ih => exact ih (resting_operate h operation)

theorem bounded_begin (h : connection.toEndpoint.Resting) (b : Bytes) : (connection.begin b).Bounded := by
  rw [begin]
  split
  · exact h
  · next hlive =>
    split
    · exact h
    · exact ⟨h.limited, h.next (Bool.eq_false_iff.mpr hlive)⟩

theorem bounded_undertake (h : connection.toEndpoint.Resting) (operation : Operation) :
    (connection.undertake operation).Bounded := by
  cases operation with
  | receive b => exact bounded_begin h b
  | _ => exact resting_operate h _

theorem Occurs.bounded {operations : List Operation} {moment : Moment κ} (h : connection.Occurs operations moment)
    (hmade : connection.toEndpoint.Resting) : moment.Bounded := by
  induction h with
  | opened => exact hmade
  | called _ operation ih => exact bounded_undertake ih operation
  | ticked _ ih => exact ih.tick

/-! ### Every operation comes to its last moment -/

theorem Occurs.iterate {operations : List Operation} {moment : Moment κ} (h : connection.Occurs operations moment)
    (count : Nat) : connection.Occurs operations (Moment.tick^[count] moment) := by
  induction count with
  | zero => exact h
  | succ count ih =>
    rw [Function.iterate_succ_apply']
    exact ih.ticked

/-- Some number of ticks behind any moment, the operation is done, with what it says and what it leaves. -/
theorem Occurs.comes_to_rest {operations : List Operation} {moment : Moment κ} (h : connection.Occurs operations moment) :
    ∃ count, Moment.tick^[count] moment =
      .rest ((connection.results operations).getLastD (.ok ())) (connection.run operations) := by
  obtain ⟨count, hrest⟩ := moment.exists_atRest
  have hverdict := (h.iterate count).verdict
  refine ⟨count, ?_⟩
  cases hlast : Moment.tick^[count] moment with
  | busy stage later =>
    rw [hlast] at hrest
    cases hrest
  | rest result after =>
    rw [hlast] at hverdict
    obtain ⟨rfl, rfl⟩ := Prod.mk.inj hverdict
    rfl

theorem exists_occurs_rest (connection : Connection κ) (operations : List Operation) :
    ∃ result after, connection.Occurs operations (.rest result after) := by
  induction operations using List.reverseRecOn with
  | nil => exact ⟨_, _, .opened⟩
  | append_singleton operations operation ih =>
    obtain ⟨result, before, hbefore⟩ := ih
    have hcalled := hbefore.called operation
    obtain ⟨count, hafter⟩ := hcalled.comes_to_rest
    exact ⟨_, _, hafter ▸ hcalled.iterate count⟩

/-! ### Incoming bytes behind a failure -/

/-- Where no input is taken, none is kept. -/
def Quiet (connection : Connection κ) : Prop :=
  connection.phase.TakesInput ∨ connection.incoming = []

theorem Quiet.perform {step : Endpoint.Step κ Unit} (h : connection.Quiet)
    (hstep : Endpoint.KeepsFixed connection.toEndpoint Phase.TakesInput step) : (connection.perform step).2.Quiet := by
  cases hrun : step.run connection.toEndpoint with
  | ok value endpoint =>
    rw [perform_of_ok hrun]
    exact h.imp (fun hready => (hstep.of_ok hrun ⟨rfl, ⟨rfl, rfl⟩, hready⟩).phase) id
  | error failure endpoint =>
    rw [perform_of_error hrun]
    exact .inr rfl

theorem Quiet.operate (h : connection.Quiet) (operation : Operation) : (connection.operate operation).Quiet := by
  cases operation with
  | start =>
    simp only [Connection.operate, Connection.start]
    repeat' split
    · exact h
    · exact h
    · exact h.perform (Endpoint.keepsFixed_sendClientHello ⟨by decide, rfl⟩ _)
    · exact h.perform (Endpoint.keepsFixed_enter ⟨by decide, rfl⟩)
  | receive b =>
    by_cases hready : connection.phase.TakesInput
    · have hperform := @Quiet.perform _ { connection with incoming := (connection.arriving b).rest } _ (.inl hready)
        (Endpoint.keepsFixed_receiveRecords (fun _ => id) (connection.arriving b))
      rw [Connection.operate, receive_of_takesInput hready]
      exact hperform
    · rw [Connection.operate, receive_of_not_takesInput hready]
      exact h
  | send data =>
    simp only [Connection.operate, Connection.send]
    repeat' split
    · exact h
    · exact h
    · exact h.perform (Endpoint.keepsFixed_sendFragmented _ _)
  | takeOutgoing => exact h
  | read =>
    simp only [Connection.operate, Connection.read]
    split <;> exact h
  | close =>
    simp only [Connection.operate, Connection.close]
    split <;> exact .inr rfl
  | abandon => exact .inr rfl
  | reseed entropy => exact h

theorem Quiet.run (h : connection.Quiet) (operations : List Operation) : (connection.run operations).Quiet := by
  induction operations generalizing connection with
  | nil => exact h
  | cons operation rest ih => exact ih (h.operate operation)

theorem incoming_of_perform {step : Endpoint.Step κ Unit} {failure : ConnectionError}
    (h : (connection.perform step).1 = .error failure) : (connection.perform step).2.incoming = [] := by
  cases hrun : step.run connection.toEndpoint with
  | ok value endpoint =>
    rw [perform_of_ok hrun] at h
    cases h
  | error other endpoint => rw [perform_of_error hrun]

theorem Quiet.incoming_of_receive {b : Bytes} {failure : ConnectionError} (h : connection.Quiet)
    (hfailed : (connection.receive b).1 = .error failure) : (connection.receive b).2.incoming = [] := by
  by_cases hready : connection.phase.TakesInput
  · rw [receive_of_takesInput hready] at hfailed ⊢
    exact incoming_of_perform hfailed
  · rw [receive_of_not_takesInput hready]
    exact h.resolve_left hready

/-- An operation that is not for the phase of the connection is refused, and one that fails drops what arrived. -/
theorem Quiet.incoming_of_failure {operation : Operation} {failure : ConnectionError} (h : connection.Quiet)
    (hfailed : (connection.outcome operation).1 = .error failure) :
    (connection.operate operation).incoming = [] ∨
      (failure = .alreadyStarted ∨ failure = .notConnected) ∧ connection.operate operation = connection := by
  have hover (hover : connection.phase.isOver = true) : connection.incoming = [] := by
    apply h.resolve_left
    rintro ⟨-, hlive⟩
    rw [hover] at hlive
    cases hlive
  cases operation with
  | start =>
    rw [outcome] at hfailed
    rw [Connection.operate]
    by_cases hidle : connection.phase = .idle
    · left
      cases hside : connection.side with
      | client offer =>
        rw [start_of_client hidle hside] at hfailed ⊢
        exact incoming_of_perform hfailed
      | server policy =>
        rw [start_of_server hidle hside] at hfailed ⊢
        exact incoming_of_perform hfailed
    · rw [start_of_not_idle hidle]
      cases hphase : connection.phase.isOver with
      | true => exact .inl (hover hphase)
      | false =>
        rw [Connection.start, if_neg (by simp [hphase]), if_pos hidle] at hfailed
        cases hfailed
        exact .inr ⟨.inl rfl, rfl⟩
  | receive b => exact .inl (h.incoming_of_receive hfailed)
  | send data =>
    rw [outcome] at hfailed
    rw [Connection.operate]
    cases hphase : connection.phase.isOver with
    | true =>
      rw [send_of_isOver hphase]
      exact .inl (hover hphase)
    | false =>
      rw [Connection.send, if_neg (by simp [hphase])] at hfailed ⊢
      by_cases hdone : connection.session.handshakeDone = true
      · rw [if_neg (by simp [hdone])] at hfailed ⊢
        exact .inl (incoming_of_perform hfailed)
      · rw [if_pos hdone] at hfailed ⊢
        cases hfailed
        exact .inr ⟨.inr rfl, rfl⟩
  | _ => cases hfailed

/-! ### All of a run -/

theorem takesInput_of_success {b : Bytes} {after : Connection κ} (h : connection.receive b = (.ok (), after)) :
    connection.phase.TakesInput :=
  takesInput_of_result (congrArg Prod.fst h) (by simp) (by simp)

/-- What is kept of what arrived, behind the operations of a run and at every moment of it. -/
structure Confined (connection : Connection κ) (operations : List Operation) : Prop where
  success : ∀ b after, (connection.run operations).receive b = (.ok (), after) →
    Record.Part after.session.ciphertextLimit after.incoming ∧ HandshakeMessage.Part after.handshake
  failure : ∀ b failure after, (connection.run operations).receive b = (.error failure, after) → after.incoming = []
  /-- Another operation that fails leaves no incoming bytes either, unless it was called at the wrong time. -/
  refusal : ∀ operation failure after, (connection.run operations).outcome operation = (.error failure, after) →
    after.incoming = [] ∨ (failure = .alreadyStarted ∨ failure = .notConnected) ∧ after = connection.run operations
  kept : (connection.run operations).handshake.length < Endpoint.handshakeBound
  moments : ∀ moment, connection.Occurs operations moment → moment.connection.handshake.length < Endpoint.handshakeBound
  /-- The moments are those of the run: each comes to rest with what the last operation says and what it leaves. -/
  rests : ∀ moment, connection.Occurs operations moment → ∃ count, Moment.tick^[count] moment =
    .rest ((connection.results operations).getLastD (.ok ())) (connection.run operations)
  reached : ∃ result after, connection.Occurs operations (.rest result after)

end Connection

namespace Configuration

variable {configuration : Configuration κ} {entropy : Entropy} {connection : Connection κ}

theorem resting (hmade : configuration.connection entropy = .ok connection) : connection.toEndpoint.Resting := by
  apply Endpoint.Waiting.resting
  refine ⟨limited hmade, ?_⟩
  obtain ⟨side, version, setting, session, rfl, -⟩ := exists_fresh hmade
  rfl

/-- **What waits stays bounded.** Behind any operations, on any connection that can be made, a success leaves the
front of one record and the front of one message, a failure leaves no incoming bytes, and at no moment are there
more handshake bytes than a message that is not whole and a plaintext. -/
theorem confined_run (hmade : configuration.connection entropy = .ok connection) (operations : List Operation) :
    connection.Confined operations := by
  have hresting := Connection.resting_run (resting hmade) operations
  have hquiet : (connection.run operations).Quiet := Connection.Quiet.run (.inr (incoming_connection hmade)) operations
  constructor
  · intro b after h
    have hreachable : Reachable after := by
      have hafter := ((Reachable.opened hmade).run operations).operated (.receive b)
      rwa [Connection.operate, h] at hafter
    have hafter : after.toEndpoint.Resting := by
      have hreceived := Connection.resting_receive hresting b
      rwa [h] at hreceived
    have hready := Connection.takesInput_of_receive (Connection.takesInput_of_success h) h
    exact ⟨Record.part_of_next hreachable.waits, HandshakeMessage.part_of_next (hafter.next hready.2)⟩
  · intro b failure after h
    have hfailed := hquiet.incoming_of_receive (congrArg Prod.fst h)
    rwa [h] at hfailed
  · intro operation failure after h
    have hfailed := hquiet.incoming_of_failure (congrArg Prod.fst h)
    rwa [← Connection.outcome_snd, h] at hfailed
  · exact hresting.short
  · intro moment hoccurs
    exact (hoccurs.bounded (resting hmade)).short
  · intro moment hoccurs
    exact hoccurs.comes_to_rest
  · exact connection.exists_occurs_rest operations

/-- A client that gets the greeting of its server as far as into the second record. -/
theorem confined_run_greeted :
    (keylessClient.connection ⟨fun _ => 7, 0⟩).Confined [.start] ∧
      (((keylessClient.connection ⟨fun _ => 7, 0⟩).run [.start]).receive (usualGreeting.take 50)).1 = .ok () ∧
      (((keylessClient.connection ⟨fun _ => 7, 0⟩).run [.start]).receive (usualGreeting.take 50)).2.incoming = [22, 3, 3] := by
  refine ⟨?_, ?_, ?_⟩
  · exact @confined_run _ (.client keylessClient) ⟨fun _ => 7, 0⟩ _ rfl [.start]
  · cbv
  · cbv

end Configuration

end PresharedTls
