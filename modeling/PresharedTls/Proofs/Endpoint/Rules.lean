import PresharedTls.Proofs.Talk

/-!
# How steps end

One rule for each step that others are made of: to show how it ends, show what is left where it
succeeds and where it fails. Sending a message is the step with the weakest rule, for nothing outside
an endpoint's sending half depends on what becomes of its records.
-/

namespace PresharedTls

variable {κ α : Type}

theorem ends_get_bind {ε σ β : Type} {next : σ → EStateM ε σ β} {state : σ} {good : β → σ → Prop}
    {bad : ε → σ → Prop} : Ends (get >>= next) state good bad ↔ Ends (next state) state good bad :=
  Iff.rfl

/-- A decrypter is made once and of known parameters, or the session stays as it is. -/
theorem Session.createDecrypter_cases (session : Session κ) (sender : Role) :
    (∃ params context, session.decrypter = none ∧ session.securityParameters? = some params ∧
      session.provider.createDecoder params sender = .ok context ∧
      session.createDecrypter sender = (.ok (), { session with decrypter := some context })) ∨
    ∃ alert, session.createDecrypter sender = (.error alert, session) := by
  rw [createDecrypter]
  split
  · next params hnone hparams =>
    cases hcreated : session.provider.createDecoder params sender with
    | error alert => exact .inr ⟨alert, rfl⟩
    | ok context => exact .inl ⟨params, context, hnone, hparams, hcreated, rfl⟩
  · exact .inr ⟨_, rfl⟩

theorem Session.decrypt_snd (session : Session κ) (typeCode : UInt8) (version : UInt16) (fragment : Bytes) :
    (session.decrypt typeCode version fragment).2 = { session with
      decrypter := session.decrypter.map fun context =>
        (session.provider.unprotect context typeCode version fragment).2 } := by
  rw [Session.decrypt]
  split
  · next hnone =>
    rw [hnone]
    exact congrArg (fun decrypter => { session with decrypter := decrypter }) hnone
  · next context hsome =>
    rw [hsome]
    rfl

namespace Endpoint

variable {endpoint : Endpoint κ} {good : α → Endpoint κ → Prop} {bad : ConnectionError → Endpoint κ → Prop}

theorem ends_accept {result : Except AlertDescription α} (hok : ∀ value, result = .ok value → good value endpoint)
    (herror : ∀ alert, result = .error alert → bad (.sentAlert alert) endpoint) :
    Ends (accept result) endpoint good bad := by
  cases result with
  | ok value => exact hok value rfl
  | error alert => exact herror alert rfl

theorem ends_readBody {value : Option α} (hsome : ∀ result, value = some result → good result endpoint)
    (hnone : bad (.sentAlert .decodeError) endpoint) : Ends (readBody value) endpoint good bad := by
  cases value with
  | none => exact hnone
  | some result => exact hsome result rfl

theorem ends_onSession {work : Session κ → Except AlertDescription α × Session κ}
    (hok : ∀ value, (work endpoint.session).1 = .ok value →
      good value { endpoint with session := (work endpoint.session).2 })
    (herror : ∀ alert, (work endpoint.session).1 = .error alert →
      bad (.sentAlert alert) { endpoint with session := (work endpoint.session).2 }) :
    Ends (onSession work) endpoint good bad := by
  rw [onSession, ends_get_bind, ends_bind]
  exact ends_accept hok herror

theorem ends_updateSession_bind {update : Session κ → Session κ} {next : PUnit → Step κ α} :
    Ends (updateSession update >>= next) endpoint good bad ↔
      Ends (next ⟨⟩) { endpoint with session := update endpoint.session } good bad :=
  Iff.rfl

theorem ends_guard {condition : Prop} [Decidable condition] {alert : AlertDescription} {next : PUnit → Step κ α}
    (hrefused : condition → bad (.sentAlert alert) endpoint)
    (hnext : ¬ condition → Ends (next ⟨⟩) endpoint good bad) :
    Ends (if condition then refuse alert >>= next else next ⟨⟩) endpoint good bad := by
  split
  · exact hrefused ‹_›
  · exact hnext ‹_›

/-- The endpoint with another sending half. -/
def sending (encrypter : Option κ) (outgoing : List Record) (entropy : Entropy) (endpoint : Endpoint κ) : Endpoint κ :=
  { endpoint with
    session := { endpoint.session with encrypter := encrypter }
    outgoing := outgoing
    entropy := entropy }

/-- The endpoint with another sending half and another transcript. -/
def saying (transcript : Option Bytes) (encrypter : Option κ) (outgoing : List Record) (entropy : Entropy)
    (endpoint : Endpoint κ) : Endpoint κ :=
  { endpoint with session := { endpoint.session with transcript := transcript } }.sending encrypter outgoing entropy

def entering (phase : Phase) (endpoint : Endpoint κ) : Endpoint κ :=
  { endpoint with phase := phase }

section

variable (transcript other : Option Bytes) (encrypter encrypter' : Option κ) (outgoing outgoing' : List Record)
  (entropy entropy' : Entropy) (endpoint : Endpoint κ)

@[simp] theorem saying_saying :
    (endpoint.saying transcript encrypter outgoing entropy).saying other encrypter' outgoing' entropy' =
      endpoint.saying other encrypter' outgoing' entropy' := rfl

@[simp] theorem sending_saying :
    (endpoint.saying transcript encrypter outgoing entropy).sending encrypter' outgoing' entropy' =
      endpoint.saying transcript encrypter' outgoing' entropy' := rfl

@[simp] theorem role_saying : (endpoint.saying transcript encrypter outgoing entropy).role = endpoint.role := rfl

@[simp] theorem identity_saying :
    (endpoint.saying transcript encrypter outgoing entropy).session.identity = endpoint.session.identity := rfl

theorem remember_eq (message : Bytes) : { endpoint with session := endpoint.session.addToTranscript message } =
    endpoint.saying (endpoint.session.transcript.map (· ++ message)) endpoint.session.encrypter endpoint.outgoing
      endpoint.entropy := rfl

end

/-- An endpoint that has changed in its sending half only. -/
def OnlySent (origin endpoint : Endpoint κ) : Prop :=
  ∃ encrypter outgoing entropy, endpoint = origin.sending encrypter outgoing entropy

theorem OnlySent.refl (endpoint : Endpoint κ) : OnlySent endpoint endpoint :=
  ⟨_, _, _, rfl⟩

variable {origin : Endpoint κ}

theorem OnlySent.encrypt (h : OnlySent origin endpoint) (typeCode : UInt8) (plaintext : Bytes) (entropy : Entropy) :
    OnlySent origin { endpoint with
      session := (endpoint.session.encrypt typeCode plaintext endpoint.entropy).2.1
      entropy := entropy } := by
  obtain ⟨encrypter, outgoing, entropy, rfl⟩ := h
  rw [Session.encrypt]
  split
  · exact ⟨_, _, _, rfl⟩
  · exact ⟨_, _, _, rfl⟩

theorem keepsOnlySent_accept (result : Except AlertDescription α) :
    Keeps (OnlySent origin) (OnlySent origin) (accept result : Step κ α) :=
  fun _ h => ends_accept (fun _ _ => h) fun _ _ => h

theorem keepsOnlySent_sendRecord (origin : Endpoint κ) (type : ContentType) (plaintext : Bytes) :
    Keeps (OnlySent origin) (OnlySent origin) (sendRecord (κ := κ) type plaintext) := by
  rw [sendRecord]
  refine Keeps.get_bind fun endpoint hsent => fun state h => ends_guard (fun _ => h) fun _ => ?_
  revert state
  apply Keeps.bind (Keeps.set (hsent.encrypt _ _ _))
  intro _
  apply Keeps.bind (keepsOnlySent_accept _)
  intro _
  apply Keeps.bind (keepsOnlySent_accept _)
  intro record
  apply Keeps.modify
  intro endpoint h
  obtain ⟨encrypter, outgoing, entropy, rfl⟩ := h
  exact ⟨encrypter, outgoing ++ [record], entropy, rfl⟩

theorem keepsOnlySent_sendFragmented (type : ContentType) (b : Bytes) :
    Keeps (OnlySent origin) (OnlySent origin) (sendFragmented (κ := κ) type b) :=
  Keeps.get_bind fun _ _ => Keeps.forM (keepsOnlySent_sendRecord _ type) _

theorem keepsOnlySent_createEncrypter (sender : Role) :
    Keeps (OnlySent origin) (OnlySent origin) (onSession (κ := κ) (·.createEncrypter sender)) := by
  rintro endpoint ⟨encrypter, outgoing, entropy, rfl⟩
  have hcreated : OnlySent origin { origin.sending encrypter outgoing entropy with
      session := ((origin.sending encrypter outgoing entropy).session.createEncrypter sender).2 } := by
    rw [Session.createEncrypter]
    repeat' split
    · exact ⟨_, _, _, rfl⟩
    · exact ⟨_, _, _, rfl⟩
    · exact ⟨_, _, _, rfl⟩
  exact ends_onSession (fun _ _ => hcreated) fun _ _ => hcreated

theorem keepsOnlySent_sendChangeCipherSpec :
    Keeps (OnlySent origin) (OnlySent origin) (sendChangeCipherSpec (κ := κ)) :=
  Keeps.bind (keepsOnlySent_sendRecord _ _ _) fun _ => Keeps.get_bind fun endpoint _ =>
    keepsOnlySent_createEncrypter endpoint.role

theorem OnlySent.after {step : Step κ α} (hstep : Keeps (OnlySent endpoint) (OnlySent endpoint) step) :
    OnlySent endpoint (endpoint.after step) :=
  (hstep endpoint (OnlySent.refl endpoint)).after

theorem fail_eq (failure : ConnectionError) (endpoint : Endpoint κ) :
    ∃ encrypter outgoing entropy,
      endpoint.fail failure = (endpoint.sending encrypter outgoing entropy).entering .error := by
  cases failure with
  | sentAlert alert =>
    obtain ⟨encrypter, outgoing, entropy, hafter⟩ :=
      OnlySent.after (keepsOnlySent_sendRecord endpoint .alert (Alert.fatal alert).bytes)
    refine ⟨encrypter, outgoing, entropy, ?_⟩
    rw [fail, announce, hafter]
    rfl
  | _ => exact ⟨_, _, _, rfl⟩

theorem received_fail (failure : ConnectionError) (endpoint : Endpoint κ) :
    (endpoint.fail failure).received = endpoint.received := by
  obtain ⟨encrypter, outgoing, entropy, hfail⟩ := fail_eq failure endpoint
  rw [hfail]
  rfl

theorem ends_of_onlySent {step : Step κ α} (hstep : Keeps (OnlySent endpoint) (OnlySent endpoint) step)
    (hgood : ∀ value encrypter outgoing entropy, good value (endpoint.sending encrypter outgoing entropy))
    (hbad : ∀ failure encrypter outgoing entropy, bad failure (endpoint.sending encrypter outgoing entropy)) :
    Ends step endpoint good bad := by
  refine (hstep endpoint (OnlySent.refl endpoint)).mono ?_ ?_
  · rintro value _ ⟨encrypter, outgoing, entropy, rfl⟩
    exact hgood value encrypter outgoing entropy
  · rintro failure _ ⟨encrypter, outgoing, entropy, rfl⟩
    exact hbad failure encrypter outgoing entropy

end Endpoint

namespace Recorded

open Endpoint (perform)

variable {endpoint : Endpoint κ} {events : List Event} {good : Unit → Endpoint κ × List Event → Prop}
  {bad : ConnectionError → Endpoint κ × List Event → Prop}

theorem ends_send {message : HandshakeMessage}
    (hgood : message.Framed → ∀ encrypter outgoing entropy,
      good () (endpoint.saying (endpoint.session.transcript.map (· ++ message.bytes)) encrypter outgoing entropy,
        events ++ [.sent message]))
    (hbad : ∀ failure transcript encrypter outgoing entropy,
      bad failure (endpoint.saying transcript encrypter outgoing entropy, events)) :
    Ends (perform (.send message) : Recorded κ Unit) (endpoint, events) good bad := by
  rw [Noted.ends_perform, Endpoint.Deed.step_send, Endpoint.sendMessage, ends_bind]
  refine Endpoint.ends_accept (fun framed hframe => ?_) fun alert _ => ?_
  · obtain ⟨hframed, rfl⟩ := HandshakeMessage.framed_of_frame hframe
    rw [Endpoint.ends_updateSession_bind]
    exact Endpoint.ends_of_onlySent (Endpoint.keepsOnlySent_sendFragmented _ _)
      (fun _ => hgood hframed) fun failure => hbad failure _
  · exact hbad _ endpoint.session.transcript endpoint.session.encrypter endpoint.outgoing endpoint.entropy

/-- Verify data is noted together with the transcript it is computed over. -/
theorem ends_compute {session : Session κ} {sender : Role} {good : VerifyData → Endpoint κ × List Event → Prop}
    (hgood : ∀ transcript context verifyData, session.transcript = some transcript →
      session.decrypter.or session.encrypter = some context →
      session.provider.verifyData context sender transcript = .ok verifyData →
      good verifyData (endpoint, events ++ [.computed sender transcript verifyData]))
    (hbad : ∀ failure, bad failure (endpoint, events)) :
    Ends (perform (.compute session sender) : Recorded κ VerifyData) (endpoint, events) good bad := by
  rw [Noted.ends_perform]
  refine Endpoint.ends_accept (fun computed hcomputed => ?_) fun _ _ => hbad _
  rw [Session.verifyData] at hcomputed
  split at hcomputed
  · next transcript context htranscript hcontext =>
    show good computed (endpoint, events ++ [.computed sender (session.transcript.getD []) computed])
    rw [htranscript]
    exact hgood transcript context computed htranscript hcontext hcomputed
  · cases hcomputed

theorem ends_enter {phase : Phase} (h : good () (endpoint.entering phase, events)) :
    Ends (perform (.enter phase) : Recorded κ Unit) (endpoint, events) good bad :=
  h

theorem ends_sendChangeCipherSpec
    (hgood : ∀ encrypter outgoing entropy, good () (endpoint.sending encrypter outgoing entropy, events))
    (hbad : ∀ failure encrypter outgoing entropy, bad failure (endpoint.sending encrypter outgoing entropy, events)) :
    Ends (Endpoint.sendChangeCipherSpec : Recorded κ Unit) (endpoint, events) good bad := by
  rw [Endpoint.sendChangeCipherSpec, ends_bind, Noted.ends_step]
  refine Endpoint.ends_of_onlySent (Endpoint.keepsOnlySent_sendRecord _ _ _) (fun _ _ _ _ => ?_) hbad
  rw [Noted.ends_get_bind, Noted.ends_perform]
  exact Endpoint.ends_of_onlySent (Endpoint.keepsOnlySent_createEncrypter _) (fun _ => hgood) hbad

end Recorded

end PresharedTls
