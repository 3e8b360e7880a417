import PresharedTls.Proofs.Endpoint.Changes
import PresharedTls.Proofs.Endpoint.Fixed
import PresharedTls.Proofs.Endpoint.Unseen

/-!
# A record in stages

A handshake record is received in stages: its plaintext is put behind the handshake bytes that wait, and
then the messages are taken off the front of these one at a time. Any other record is one stage. A message
does not see the bytes behind it, so they can be cut again behind it, and one stage after the other comes to
what is done with the record (`receiveRecord_eq`, `settle_of_next`).
-/

namespace PresharedTls

/-- What is taken next: a record off the bytes that arrived, or a message off the handshake bytes. -/
inductive Stage where
  | records
  | messages
  deriving DecidableEq

namespace Endpoint

variable {κ α : Type}

/-- Puts the plaintext of a handshake record, which must not be empty, behind the bytes that wait. -/
def gather (plaintext : Bytes) : Step κ Stage := do
  if plaintext.isEmpty then
    refuse .unexpectedMessage
  modify fun endpoint => { endpoint with handshake := endpoint.handshake ++ plaintext }
  return .messages

def takeRecord (record : Record) : Step κ Stage := do
  let plaintext ← onSession (·.decrypt record.typeCode record.version record.fragment)
  let endpoint ← get
  if endpoint.session.plaintextLimit < plaintext.length then
    refuse .recordOverflow
  match ContentType.ofCode? record.typeCode with
  | some .handshake => gather plaintext
  | some .changeCipherSpec => do
    receiveChangeCipherSpec plaintext
    return .records
  | some .applicationData => do
    receiveApplicationData plaintext
    return .records
  | some .alert => do
    receiveAlert plaintext
    return .records
  | none => refuse .unexpectedMessage

/-- Takes one message, behind which there may be others. -/
def takeNext (message : HandshakeMessage) : Step κ Stage := do
  takeMessage message
  return .messages

/-- Does what a stage leaves to be done before the next record. -/
def settle : Stage → Step κ Unit
  | .records => pure ()
  | .messages => do
    let endpoint ← get
    takeMessages (HandshakeMessage.framing.cut endpoint.handshake)

theorem receiveHandshake_eq (plaintext : Bytes) :
    receiveHandshake (κ := κ) plaintext = gather plaintext >>= settle := by
  funext endpoint
  rw [receiveHandshake, gather]
  split
  · rfl
  · rfl

/-- A record that is one stage leaves nothing to be done. -/
theorem bind_records_settle (step : Step κ Unit) : (step >>= fun _ => pure Stage.records) >>= settle = step := by
  simp [settle]

theorem receiveRecord_eq (record : Record) : receiveRecord (κ := κ) record = takeRecord record >>= settle := by
  rw [receiveRecord, takeRecord, bind_assoc]
  congr 1
  funext plaintext
  rw [bind_assoc]
  congr 1
  funext endpoint
  generalize ContentType.ofCode? record.typeCode = type
  by_cases hlong : endpoint.session.plaintextLimit < plaintext.length
  · simp only [if_pos hlong]
    cases type with
    | none => rfl
    | some type => cases type <;> rfl
  · simp only [if_neg hlong]
    cases type with
    | none => rfl
    | some type =>
      cases type with
      | handshake => exact receiveHandshake_eq plaintext
      | changeCipherSpec => exact (bind_records_settle _).symm
      | applicationData => exact (bind_records_settle _).symm
      | alert => exact (bind_records_settle _).symm

/-! ### What stages keep -/

theorem keepsFixed_takeRecord {origin : Endpoint κ} {live : Phase → Prop} (hlive : live .waitFinished) (record : Record) :
    KeepsFixed origin live (takeRecord (κ := κ) record) := by
  rw [takeRecord]
  apply Keeps.bind (keepsFixed_onSession fun session h => h.decrypt _ _ _)
  intro plaintext
  refine Keeps.get_bind fun endpoint _ => keepsFixed_guard ?_
  split
  · rw [gather]
    apply keepsFixed_guard
    exact Keeps.bind (Keeps.modify fun _ h => ⟨h.side, h.session, h.phase⟩) fun _ => Keeps.pure _
  · exact Keeps.bind (keepsFixed_receiveChangeCipherSpec hlive plaintext) fun _ => Keeps.pure _
  · exact Keeps.bind (keepsFixed_receiveApplicationData plaintext) fun _ => Keeps.pure _
  · exact Keeps.bind (keepsFixed_receiveAlert plaintext) fun _ => Keeps.pure _
  · exact keepsFixed_refuse _

theorem keepsFixed_takeNext {origin : Endpoint κ} {live : Phase → Prop}
    (hlive : ∀ phase : Phase, phase.TakesInput → live phase) (message : HandshakeMessage) :
    KeepsFixed origin live (takeNext (κ := κ) message) :=
  Keeps.bind (keepsFixed_takeMessage hlive message) fun _ => Keeps.pure _

/-! ### The handshake bytes -/

/-- The endpoint with other handshake bytes that wait. -/
def withHandshake (handshake : Bytes) (endpoint : Endpoint κ) : Endpoint κ :=
  { endpoint with handshake := handshake }

theorem unseen_withHandshake (handshake : Bytes) : Unseen (withHandshake (κ := κ) handshake) := by
  constructor <;> intros <;> rfl

/-- A step that leaves the handshake bytes as they are. -/
abbrev KeepsHandshake (handshake : Bytes) (step : Step κ α) : Prop :=
  Keeps (fun endpoint => endpoint.handshake = handshake) (fun endpoint => endpoint.handshake = handshake) step

/-- What does not see the handshake bytes does not change them. -/
theorem keepsHandshake_of_overlooks {handshake : Bytes} {step : Step κ α}
    (hstep : Overlooks (withHandshake handshake) step) : KeepsHandshake handshake step := by
  intro endpoint h
  have hsame : Changed (withHandshake handshake) endpoint endpoint := by rw [Changed, withHandshake, ← h]
  rw [Ends]
  cases hrun : step.run endpoint with
  | ok value after =>
    obtain ⟨other, hother, hafter⟩ := hstep.of_ok hrun hsame
    cases hrun.symm.trans hother
    exact congrArg (·.handshake) hafter
  | error failure after =>
    obtain ⟨other, hother, hafter⟩ := hstep.of_error hrun hsame
    cases hrun.symm.trans hother
    exact congrArg (·.handshake) hafter

theorem handshake_fail (failure : ConnectionError) (endpoint : Endpoint κ) :
    (endpoint.fail failure).handshake = endpoint.handshake := by
  have hfail := (unseen_withHandshake endpoint.handshake).fail_change failure endpoint
  exact congrArg (·.handshake) hfail

/-- A message that is taken is off the handshake bytes, and the others are still there. -/
theorem ends_takeMessage {message : HandshakeMessage} {behind : Bytes} {endpoint : Endpoint κ}
    (h : endpoint.handshake = message.bytes ++ behind) :
    Ends (takeMessage message) endpoint (fun _ after => after.handshake = behind)
      fun _ after => after.handshake = behind := by
  have hoverlooks := (unseen_withHandshake (κ := κ) behind).overlooks_receiveMessage message
  refine keepsHandshake_of_overlooks hoverlooks (endpoint.withHandshake (endpoint.handshake.drop message.bytes.length)) ?_
  show endpoint.handshake.drop message.bytes.length = behind
  rw [h, List.drop_left]

/-- Messages that are taken are off the handshake bytes. Those behind a failure are left. -/
theorem ends_forM_takeMessage {messages : List HandshakeMessage} {behind : Bytes} {endpoint : Endpoint κ}
    (h : endpoint.handshake = messages.flatMap HandshakeMessage.bytes ++ behind) :
    Ends (messages.forM takeMessage) endpoint (fun _ after => after.handshake = behind)
      fun _ after => after.handshake <:+ endpoint.handshake := by
  induction messages generalizing endpoint with
  | nil => exact h
  | cons message others ih =>
    rw [List.flatMap_cons, List.append_assoc] at h
    have hsuffix {after : Endpoint κ} (hafter : after.handshake = others.flatMap HandshakeMessage.bytes ++ behind) :
        after.handshake <:+ endpoint.handshake := hafter ▸ h ▸ List.suffix_append _ _
    refine ends_bind.mpr ((ends_takeMessage h).mono (fun _ after hafter => ?_) fun _ after hafter => hsuffix hafter)
    exact (ih hafter).mono (fun _ _ => id) fun _ _ hlater => hlater.trans (hsuffix hafter)

/-- A message that is taken alone leaves the same to be done as when all are cut at once. -/
theorem settle_of_next {endpoint : Endpoint κ} {message : HandshakeMessage} {behind : Bytes}
    (hnext : HandshakeMessage.framing.next endpoint.handshake = .ok (some (message, behind))) :
    (settle .messages).run endpoint = (takeMessage message >>= fun _ => settle .messages).run endpoint := by
  have hsettle (other : Endpoint κ) : (settle .messages).run other =
      (takeMessages (HandshakeMessage.framing.cut other.handshake)).run other := rfl
  have hforM (messages : Cut HandshakeMessage) :
      takeMessages (κ := κ) (m := Step κ) ⟨message :: messages.items, messages.rest, messages.fault⟩ =
        takeMessage message >>= fun _ => takeMessages messages := by
    rw [takeMessages, takeMessages, ← bind_assoc]
    rfl
  have htaken := ends_takeMessage (κ := κ) (HandshakeMessage.of_next hnext).1
  rw [hsettle, Framing.cut_of_item hnext, hforM]
  cases hrun : (takeMessage message).run endpoint with
  | ok value after =>
    rw [Ends, hrun] at htaken
    have hbehind : after.handshake = behind := htaken
    rw [run_bind_of_ok hrun, run_bind_of_ok hrun, hsettle, hbehind]
  | error failure after => rw [run_bind_of_error hrun, run_bind_of_error hrun]

/-- What a record does to the handshake bytes: if messages are to be taken next, its plaintext is behind
them, and otherwise they are the same. -/
def Gathers (endpoint : Endpoint κ) : Stage → Endpoint κ → Prop
  | .records, after => after.handshake = endpoint.handshake
  | .messages, after => ∃ plaintext : Bytes, plaintext.length ≤ endpoint.session.plaintextLimit ∧
      after.handshake = endpoint.handshake ++ plaintext

theorem keepsHandshake_receiveChangeCipherSpec (handshake plaintext : Bytes) :
    KeepsHandshake handshake (receiveChangeCipherSpec (κ := κ) plaintext) := by
  have hunseen := unseen_withHandshake (κ := κ) handshake
  intro endpoint h
  rw [receiveChangeCipherSpec]
  apply ends_guard (fun _ => h)
  intro _
  rw [step_eq, ends_get_bind]
  apply ends_guard (fun _ => h)
  intro _
  apply ends_guard (fun _ => h)
  intro _
  have hswitch := keepsHandshake_of_overlooks (hunseen.overlooks_onSession (·.createDecrypter endpoint.role.peer))
  exact Keeps.bind hswitch (fun _ => keepsHandshake_of_overlooks (hunseen.overlooks_enter .waitFinished)) endpoint h

theorem ends_takeNext {message : HandshakeMessage} {behind : Bytes} {endpoint : Endpoint κ}
    (hnext : HandshakeMessage.framing.next endpoint.handshake = .ok (some (message, behind))) :
    Ends (takeNext message) endpoint (fun stage after => stage = .messages ∧ after.handshake = behind)
      fun _ after => after.handshake = behind := by
  rw [takeNext, ends_bind]
  exact (ends_takeMessage (HandshakeMessage.of_next hnext).1).mono (fun _ _ hafter => ⟨rfl, hafter⟩) fun _ _ => id

theorem ends_bind_records {origin endpoint : Endpoint κ} {step : Step κ Unit}
    (hstep : KeepsHandshake origin.handshake step) (h : endpoint.handshake = origin.handshake) :
    Ends (step >>= fun _ => pure Stage.records) endpoint (fun stage after => origin.Gathers stage after)
      fun _ after => after.handshake = origin.handshake :=
  ends_bind.mpr ((hstep endpoint h).mono (fun _ _ hafter => hafter) fun _ _ hafter => hafter)

theorem ends_takeRecord (record : Record) (endpoint : Endpoint κ) :
    Ends (takeRecord record) endpoint (fun stage after => endpoint.Gathers stage after)
      fun _ after => after.handshake = endpoint.handshake := by
  rw [takeRecord, ends_bind]
  refine ends_onSession (fun plaintext _ => ?_) fun _ _ => rfl
  rw [ends_get_bind]
  refine ends_guard (fun _ => rfl) fun hshort => ?_
  have hlimit : (endpoint.session.decrypt record.typeCode record.version record.fragment).2.plaintextLimit =
      endpoint.session.plaintextLimit := by rw [Session.decrypt_snd]
  split
  · rw [gather]
    apply ends_guard (fun _ => rfl)
    intro _
    refine ⟨plaintext, ?_, rfl⟩
    rw [← hlimit]
    exact Nat.le_of_not_lt hshort
  · exact ends_bind_records (keepsHandshake_receiveChangeCipherSpec _ plaintext) rfl
  · rw [ends_bind, receiveApplicationData, ends_get_bind]
    exact ends_guard (fun _ => rfl) fun _ => rfl
  · rw [ends_bind, receiveAlert, ends_bind]
    exact ends_readBody (fun _ _ => rfl) rfl
  · rfl

end Endpoint

end PresharedTls
