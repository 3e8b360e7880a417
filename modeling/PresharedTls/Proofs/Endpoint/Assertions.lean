import PresharedTls.Proofs.Endpoint.Outline

/-!
# Assertions

Two things are asserted of an endpoint: that a phase which is entered is another than the one before, and that
the handshake is done once. Both are asserted where a deed is done, so what handles messages and records also runs
where assertions are checked, and then it stops at the first that does not hold. On an endpoint that is in order
nothing stops it, and it does what it does without the checks (`agrees_receiveRecords`).
-/

namespace PresharedTls

open Endpoint (Step Deed Handling)

/-- A step that checks assertions. Where one does not hold it fails for no reason that a connection knows. -/
abbrev Asserted (κ α : Type) := EStateM (Option ConnectionError) (Endpoint κ) α

namespace Asserted

variable {κ α β : Type}

/-- A step without assertions. -/
def lift (step : Step κ α) : Asserted κ α := fun endpoint =>
  match step.run endpoint with
  | .ok value after => .ok value after
  | .error failure after => .error (some failure) after

def assert (holds : Bool) : Asserted κ Unit :=
  if holds then pure () else throw none

/-- What is asserted before a deed. -/
def allows (deed : Deed κ α) (endpoint : Endpoint κ) : Bool :=
  match deed with
  | .enter phase => endpoint.phase ≠ phase
  | .finish => ¬ endpoint.session.handshakeDone
  | _ => true

/-- A deed with what is asserted before it. -/
def perform (deed : Deed κ α) : Asserted κ α := do
  let endpoint ← get
  assert (allows deed endpoint)
  lift deed.step

instance : Handling κ (Asserted κ) where
  step := lift
  perform := perform
  attend _ work := work

/-- Enters a phase unless that is where the endpoint is. -/
def ensure (phase : Phase) : Asserted κ Unit := do
  let endpoint ← get
  if endpoint.phase ≠ phase then
    Endpoint.perform (.enter phase)

def fail (failure : ConnectionError) : Asserted κ Unit := do
  match failure with
  | .sentAlert alert => modify (·.announce alert)
  | _ => pure ()
  ensure .error

/-! ### Where an assertion fails -/

/-- A deed that is not allowed is not done. -/
theorem run_perform_of_not_allows {deed : Deed κ α} {endpoint : Endpoint κ} (h : allows deed endpoint = false) :
    (Endpoint.perform deed : Asserted κ α).run endpoint = .error none endpoint := by
  show (assert (allows deed endpoint) >>= fun _ => lift deed.step).run endpoint = _
  rw [h]
  rfl

/-- The phase that an endpoint is in cannot be entered. -/
theorem run_enter_of_same {phase : Phase} {endpoint : Endpoint κ} (h : endpoint.phase = phase) :
    (Endpoint.perform (.enter phase) : Asserted κ Unit).run endpoint = .error none endpoint :=
  run_perform_of_not_allows (decide_eq_false (not_not_intro h))

/-- A handshake that is done cannot be done again. -/
theorem run_finish_of_done {endpoint : Endpoint κ} (h : endpoint.session.handshakeDone = true) :
    (Endpoint.finish : Asserted κ Unit).run endpoint = .error none endpoint :=
  run_bind_of_error (run_perform_of_not_allows (decide_eq_false (not_not_intro h)))

/-! ### Where all assertions hold -/

/-- From an endpoint as `P` says, no assertion fails, and the step does what it does without. -/
def Agrees (P : Endpoint κ → Prop) (asserted : Asserted κ α) (step : Step κ α) : Prop :=
  ∀ endpoint, P endpoint → asserted.run endpoint = (lift step).run endpoint

section

variable {P Q : Endpoint κ → Prop}

theorem run_lift (step : Step κ α) (endpoint : Endpoint κ) :
    (lift step).run endpoint =
      match step.run endpoint with
      | .ok value after => .ok value after
      | .error failure after => .error (some failure) after :=
  rfl

theorem agrees_step (step : Step κ α) : Agrees P (Endpoint.step step) (Endpoint.step step) :=
  fun _ _ => rfl

theorem agrees_perform {deed : Deed κ α} (h : ∀ endpoint, P endpoint → allows deed endpoint = true) :
    Agrees P (Endpoint.perform deed) (Endpoint.perform deed) := by
  intro endpoint hendpoint
  show (assert (allows deed endpoint) >>= fun _ => lift deed.step).run endpoint = _
  rw [h endpoint hendpoint]
  rfl

theorem agrees_send (message : HandshakeMessage) :
    Agrees (κ := κ) P (Endpoint.perform (.send message)) (Endpoint.perform (.send message)) :=
  agrees_perform fun _ _ => rfl

theorem Agrees.of_imp {asserted : Asserted κ α} {step : Step κ α} (h : Agrees P asserted step)
    (himp : ∀ endpoint, Q endpoint → P endpoint) : Agrees Q asserted step :=
  fun endpoint hendpoint => h endpoint (himp endpoint hendpoint)

theorem agrees_bind {asserted : Asserted κ α} {step : Step κ α} {next : α → Asserted κ β} {next' : α → Step κ β}
    (h : Agrees P asserted step) (hstep : ∀ endpoint, P endpoint → Ends step endpoint (fun _ => Q) fun _ _ => True)
    (hnext : ∀ value, Agrees Q (next value) (next' value)) : Agrees P (asserted >>= next) (step >>= next') := by
  intro endpoint hendpoint
  have hends := hstep endpoint hendpoint
  rw [EStateM.run_bind, h endpoint hendpoint, run_lift, run_lift, EStateM.run_bind]
  rw [Ends] at hends
  cases hrun : step.run endpoint with
  | ok value after =>
    rw [hrun] at hends
    exact hnext value after hends
  | error failure after => rfl

theorem agrees_get_bind {next : Endpoint κ → Asserted κ β} {next' : Endpoint κ → Step κ β}
    (hnext : ∀ endpoint, P endpoint → Agrees (· = endpoint) (next endpoint) (next' endpoint)) :
    Agrees P (Endpoint.step get >>= next) (Endpoint.step get >>= next') :=
  fun endpoint h => hnext endpoint h endpoint rfl

theorem agrees_set_bind {after : Endpoint κ} {next : PUnit → Asserted κ β} {next' : PUnit → Step κ β} (h : Q after)
    (hnext : Agrees Q (next ⟨⟩) (next' ⟨⟩)) :
    Agrees P (Endpoint.step (set after) >>= next) (Endpoint.step (set after) >>= next') :=
  fun _ _ => hnext after h

theorem agrees_guard {condition : Prop} [Decidable condition] {alert : AlertDescription}
    {next : PUnit → Asserted κ α} {next' : PUnit → Step κ α} (h : ¬ condition → Agrees P (next ⟨⟩) (next' ⟨⟩)) :
    Agrees P (if condition then Endpoint.step (Endpoint.refuse alert) >>= next else next ⟨⟩)
      (if condition then Endpoint.step (Endpoint.refuse alert) >>= next' else next' ⟨⟩) := by
  split
  · exact fun _ _ => rfl
  · exact h ‹_›

theorem agrees_forM {work : β → Asserted κ PUnit} {work' : β → Step κ PUnit}
    (h : ∀ item, Agrees P (work item) (work' item)) (hkeeps : ∀ item, Keeps P (fun _ => True) (work' item))
    (items : List β) : Agrees P (items.forM work) (items.forM work') := by
  induction items with
  | nil => exact fun _ _ => rfl
  | cons item rest ih => exact agrees_bind (h item) (hkeeps item) fun _ => ih

theorem agrees_enter {phase : Phase} (h : ∀ endpoint, P endpoint → endpoint.phase ≠ phase) :
    Agrees P (Endpoint.perform (.enter phase)) (Endpoint.perform (.enter phase)) :=
  agrees_perform fun endpoint hendpoint => decide_eq_true (h endpoint hendpoint)

/-! ### Handlers in which nothing is asserted -/

theorem agrees_bind_of_all {asserted : Asserted κ α} {step : Step κ α} {next : α → Asserted κ β} {next' : α → Step κ β}
    (h : Agrees P asserted step) (hnext : ∀ value, Agrees (fun _ => True) (next value) (next' value)) :
    Agrees P (asserted >>= next) (step >>= next') := by
  refine agrees_bind h (fun endpoint _ => ?_) hnext
  rw [Ends]
  cases step.run endpoint <;> trivial

theorem agrees_sendChangeCipherSpec : Agrees (κ := κ) P Endpoint.sendChangeCipherSpec Endpoint.sendChangeCipherSpec :=
  agrees_bind_of_all (agrees_step _) fun _ => agrees_get_bind fun _ _ => agrees_perform fun _ _ => rfl

theorem agrees_sendFinished : Agrees (κ := κ) P Endpoint.sendFinished Endpoint.sendFinished :=
  agrees_get_bind fun _ _ => agrees_bind_of_all (agrees_perform fun _ _ => rfl) fun _ => agrees_send _

theorem agrees_receiveFinished (message : HandshakeMessage) :
    Agrees (κ := κ) P (Endpoint.receiveFinished message) (Endpoint.receiveFinished message) := by
  refine agrees_bind_of_all (agrees_step _) fun verifyData => agrees_get_bind fun endpoint _ => ?_
  exact agrees_bind_of_all (agrees_perform fun _ _ => rfl) fun expected => agrees_guard fun _ => agrees_step _

end

/-! ### Steps that enter nothing -/

/-- An endpoint in a phase before the end of the handshake. -/
def At (phase : Phase) (endpoint : Endpoint κ) : Prop :=
  endpoint.phase = phase ∧ endpoint.session.handshakeDone = false

theorem at_of_inOrder {data : List Bytes} {endpoint : Endpoint κ} (h : endpoint.outline.InOrder data) {phase : Phase}
    (hphase : endpoint.phase = phase) (hbefore : phase ≠ .connected) : At phase endpoint := by
  have hdone : endpoint.session.handshakeDone = decide (endpoint.phase = .connected) := h.done_eq
  rw [hphase, decide_eq_false hbefore] at hdone
  exact ⟨hphase, hdone⟩

/-- A step that leaves an endpoint where it is if it succeeds. -/
abbrev Stays (phase : Phase) (step : Step κ α) : Prop :=
  Keeps (At phase) (fun _ => True) step

section

variable {phase : Phase}

theorem stays_of_keepsOutline {step : Step κ α} (h : ∀ outline : Outline κ, Endpoint.KeepsOutline outline step) :
    Stays phase step := by
  rintro endpoint ⟨hphase, hdone⟩
  refine (h _ endpoint rfl).mono (fun _ after hafter => ?_) fun _ _ _ => trivial
  exact ⟨(congrArg (·.phase) hafter).trans hphase, (congrArg (·.done) hafter).trans hdone⟩

theorem stays_accept (result : Except AlertDescription α) : Stays phase (Endpoint.accept result : Step κ α) :=
  stays_of_keepsOutline fun _ => Endpoint.keepsOutline_accept result

theorem stays_readBody (value : Option α) : Stays phase (Endpoint.readBody value : Step κ α) :=
  fun _ h => Endpoint.ends_readBody (fun _ _ => h) trivial

theorem stays_remember (message : HandshakeMessage) : Stays phase (Endpoint.remember (κ := κ) message) :=
  stays_of_keepsOutline fun _ => Endpoint.keepsOutline_remember message

theorem stays_updateSession {update : Session κ → Session κ}
    (h : ∀ session, (update session).handshakeDone = session.handshakeDone) : Stays phase (Endpoint.updateSession update) :=
  Keeps.modify fun endpoint hat => ⟨hat.1, (h endpoint.session).trans hat.2⟩

theorem stays_applyServerHello (answer : ServerHello) :
    Stays phase (Endpoint.onSession (κ := κ) (·.applyServerHello answer)) := by
  intro endpoint h
  obtain ⟨terms, hsession, -⟩ := endpoint.session.applyServerHello_eq answer
  refine Endpoint.ends_onSession (fun _ _ => ?_) fun _ _ => trivial
  rw [hsession]
  exact h

theorem stays_createDecrypter (sender : Role) : Stays phase (Endpoint.onSession (κ := κ) (·.createDecrypter sender)) := by
  intro endpoint h
  refine Endpoint.ends_onSession (fun _ _ => ?_) fun _ _ => trivial
  rcases endpoint.session.createDecrypter_cases sender with ⟨_, _, -, -, -, hcreated⟩ | ⟨_, hfailed⟩
  · rw [hcreated]
    exact h
  · rw [hfailed]
    exact h

theorem stays_sendMessage (message : HandshakeMessage) : Stays phase (Endpoint.sendMessage (κ := κ) message) :=
  stays_of_keepsOutline fun _ => Endpoint.keepsOutline_sendMessage message

theorem stays_sendChangeCipherSpec : Stays phase (Endpoint.sendChangeCipherSpec (κ := κ)) :=
  fun _ h => Endpoint.ends_of_onlySent Endpoint.keepsOnlySent_sendChangeCipherSpec (fun _ _ _ _ => h) fun _ _ _ _ => trivial

theorem stays_sendFinished : Stays phase (Endpoint.sendFinished (κ := κ)) :=
  stays_of_keepsOutline fun _ => Endpoint.keepsOutline_sendFinished

theorem stays_receiveFinished (message : HandshakeMessage) : Stays phase (Endpoint.receiveFinished (κ := κ) message) :=
  stays_of_keepsOutline fun _ => Endpoint.keepsOutline_receiveFinished message

/-! ### Handshake messages -/

theorem agrees_bind_at {asserted : Asserted κ α} {step : Step κ α} {next : α → Asserted κ β} {next' : α → Step κ β}
    (h : Agrees (At phase) asserted step) (hstays : Stays phase step)
    (hnext : ∀ value, Agrees (At phase) (next value) (next' value)) :
    Agrees (At phase) (asserted >>= next) (step >>= next') :=
  agrees_bind h hstays hnext

theorem agrees_step_bind {step : Step κ α} {next : α → Asserted κ β} {next' : α → Step κ β} (h : Stays phase step)
    (hnext : ∀ value, Agrees (At phase) (next value) (next' value)) :
    Agrees (At phase) (Endpoint.step step >>= next) (Endpoint.step step >>= next') :=
  agrees_bind (agrees_step step) h hnext

theorem agrees_send_bind {message : HandshakeMessage} {next : Unit → Asserted κ β} {next' : Unit → Step κ β}
    (hnext : ∀ value, Agrees (At phase) (next value) (next' value)) :
    Agrees (At phase) (Endpoint.perform (.send message) >>= next) (Endpoint.perform (.send message) >>= next') :=
  agrees_bind (agrees_send message) (stays_sendMessage message) hnext

theorem agrees_endpoint_bind {next : Endpoint κ → Asserted κ β} {next' : Endpoint κ → Step κ β}
    (hnext : ∀ endpoint, At phase endpoint → Agrees (At phase) (next endpoint) (next' endpoint)) :
    Agrees (At phase) (Endpoint.step get >>= next) (Endpoint.step get >>= next') :=
  agrees_get_bind fun endpoint h => (hnext endpoint h).of_imp fun _ hsame => hsame ▸ h

theorem agrees_enter_at {other : Phase} (h : phase ≠ other) :
    Agrees (κ := κ) (At phase) (Endpoint.perform (.enter other)) (Endpoint.perform (.enter other)) :=
  agrees_enter fun _ hat => hat.1 ▸ h

theorem agrees_finish (h : phase ≠ .connected) : Agrees (κ := κ) (At phase) Endpoint.finish Endpoint.finish := by
  refine agrees_bind (Q := fun endpoint => endpoint.phase = phase) ?_ (fun _ hat => hat.1) fun _ => ?_
  · refine agrees_perform fun endpoint hat => decide_eq_true ?_
    rw [hat.2]
    exact Bool.false_ne_true
  · exact agrees_enter fun _ hphase => hphase ▸ h

end

theorem agrees_sendClientHello (offer : ClientOffer) :
    Agrees (κ := κ) (At .idle) (Endpoint.sendClientHello offer) (Endpoint.sendClientHello offer) :=
  agrees_endpoint_bind fun endpoint h => agrees_set_bind h <| agrees_step_bind (stays_accept _) fun _ =>
    agrees_step_bind (stays_updateSession fun _ => rfl) fun _ => agrees_send_bind fun _ => agrees_enter_at (by decide)

theorem agrees_receiveServerHello (offer : ClientOffer) (message : HandshakeMessage) :
    Agrees (κ := κ) (At .waitHello) (Endpoint.receiveServerHello offer message)
      (Endpoint.receiveServerHello offer message) :=
  agrees_step_bind (stays_readBody _) fun answer => agrees_step_bind (stays_remember message) fun _ =>
    agrees_step_bind (stays_accept _) fun _ => agrees_step_bind (stays_applyServerHello answer) fun _ =>
      agrees_enter_at (by decide)

theorem agrees_receiveIdentityHint (message : HandshakeMessage) :
    Agrees (κ := κ) (At .waitKeyExchange) (Endpoint.receiveIdentityHint message) (Endpoint.receiveIdentityHint message) :=
  agrees_step_bind (stays_readBody _) fun _ => agrees_step_bind (stays_remember message) fun _ =>
    agrees_enter_at (by decide)

theorem agrees_receiveServerHelloDone {phase : Phase} (hphase : phase ≠ .waitChangeCipher) (message : HandshakeMessage) :
    Agrees (κ := κ) (At phase) (Endpoint.receiveServerHelloDone message) (Endpoint.receiveServerHelloDone message) := by
  rw [Endpoint.receiveServerHelloDone, Endpoint.receiveServerHelloDone]
  refine agrees_guard fun _ => agrees_step_bind (stays_remember message) fun _ => ?_
  refine agrees_endpoint_bind fun endpoint _ => ?_
  refine agrees_step_bind (stays_accept _) fun body => agrees_send_bind fun _ => ?_
  refine agrees_bind_at agrees_sendChangeCipherSpec stays_sendChangeCipherSpec fun _ => ?_
  exact agrees_bind_at agrees_sendFinished stays_sendFinished fun _ => agrees_enter_at hphase

theorem agrees_receiveClientHello (policy : ServerPolicy) (message : HandshakeMessage) :
    Agrees (κ := κ) (At .waitHello) (Endpoint.receiveClientHello policy message)
      (Endpoint.receiveClientHello policy message) := by
  rw [Endpoint.receiveClientHello, Endpoint.receiveClientHello]
  refine agrees_step_bind (stays_readBody _) fun hello => agrees_step_bind (stays_remember message) fun _ => ?_
  refine agrees_endpoint_bind fun endpoint h => agrees_step_bind (stays_accept _) fun answer => ?_
  have hdrew : At .waitHello { endpoint with entropy := answer.2 } := h
  refine agrees_set_bind hdrew (agrees_step_bind (stays_updateSession fun _ => rfl) fun _ => ?_)
  refine agrees_step_bind (stays_applyServerHello answer.1) fun _ => agrees_step_bind (stays_accept _) fun _ => ?_
  refine agrees_send_bind fun _ => agrees_step_bind (stays_accept _) fun _ => ?_
  exact agrees_send_bind fun _ => agrees_send_bind fun _ => agrees_enter_at (by decide)

theorem agrees_receiveIdentity (policy : ServerPolicy) (message : HandshakeMessage) :
    Agrees (κ := κ) (At .waitKeyExchange) (Endpoint.receiveIdentity policy message)
      (Endpoint.receiveIdentity policy message) := by
  rw [Endpoint.receiveIdentity, Endpoint.receiveIdentity]
  refine agrees_step_bind (stays_readBody _) fun identity => agrees_step_bind (stays_remember message) fun _ => ?_
  cases policy.resolve identity with
  | none => exact agrees_step _
  | some key => exact agrees_step_bind (stays_updateSession fun _ => rfl) fun _ => agrees_enter_at (by decide)

/-- An endpoint in order that no alert has ended. -/
def Live (data : List Bytes) (endpoint : Endpoint κ) : Prop :=
  endpoint.outline.InOrder data ∧ endpoint.phase.TakesInput

variable {data : List Bytes}

theorem agrees_receiveMessage (message : HandshakeMessage) :
    Agrees (κ := κ) (Live data) (Endpoint.receiveMessage message) (Endpoint.receiveMessage message) := by
  refine agrees_get_bind fun endpoint hlive => ?_
  have hat {phase : Phase} : endpoint.phase = phase → phase ≠ .connected → At phase endpoint := at_of_inOrder hlive.1
  have hsame {phase : Phase} (h : At phase endpoint) {asserted : Asserted κ Unit} {step : Step κ Unit}
      (hagrees : Agrees (At phase) asserted step) : Agrees (· = endpoint) asserted step :=
    hagrees.of_imp fun _ heq => heq ▸ h
  have hfinished {phase : Phase} {next : Asserted κ Unit} {next' : Step κ Unit} (hnext : Agrees (At phase) next next') :
      Agrees (At phase) (Endpoint.receiveFinished message >>= fun _ => next)
        (Endpoint.receiveFinished message >>= fun _ => next') :=
    agrees_bind_at (agrees_receiveFinished message) (stays_receiveFinished message) fun _ => hnext
  split
  · next hphase _ => exact hsame (hat hphase (by decide)) (agrees_receiveServerHello _ message)
  · next hphase _ => exact hsame (hat hphase (by decide)) (agrees_receiveIdentityHint message)
  · next hphase _ => exact hsame (hat hphase (by decide)) (agrees_receiveServerHelloDone (by decide) message)
  · next hphase _ => exact hsame (hat hphase (by decide)) (agrees_receiveServerHelloDone (by decide) message)
  · next hphase _ => exact hsame (hat hphase (by decide)) (hfinished (agrees_finish (by decide)))
  · next hphase _ => exact hsame (hat hphase (by decide)) (agrees_receiveClientHello _ message)
  · next hphase _ => exact hsame (hat hphase (by decide)) (agrees_receiveIdentity _ message)
  · next hphase _ =>
    refine hsame (hat hphase (by decide)) (hfinished ?_)
    refine agrees_bind_at agrees_sendChangeCipherSpec stays_sendChangeCipherSpec fun _ => ?_
    exact agrees_bind_at agrees_sendFinished stays_sendFinished fun _ => agrees_finish (by decide)
  · exact agrees_step _

/-! ### Records -/

theorem keepsLive {step : Step κ α}
    (horders : Keeps (fun endpoint : Endpoint κ => endpoint.outline.InOrder data)
      (fun endpoint => endpoint.outline.Consistent data) step)
    (hfixed : ∀ origin : Endpoint κ, Endpoint.KeepsFixed origin Phase.TakesInput step) :
    Keeps (Live data) (fun _ => True) step := by
  rintro endpoint ⟨hinOrder, hphase⟩
  refine ((horders endpoint hinOrder).and (hfixed endpoint endpoint ⟨rfl, ⟨rfl, rfl⟩, hphase⟩)).mono ?_ fun _ _ _ => trivial
  exact fun _ after hafter => ⟨hafter.1, hafter.2.phase⟩

theorem agrees_takeMessage (message : HandshakeMessage) :
    Agrees (κ := κ) (Live data) (Endpoint.takeMessage message) (Endpoint.takeMessage message) :=
  agrees_bind (agrees_perform fun _ _ => rfl) (Keeps.modify fun _ h => h) fun _ => agrees_receiveMessage message

theorem agrees_receiveHandshake (plaintext : Bytes) :
    Agrees (κ := κ) (Live data) (Endpoint.receiveHandshake plaintext) (Endpoint.receiveHandshake plaintext) := by
  rw [Endpoint.receiveHandshake, Endpoint.receiveHandshake]
  refine agrees_guard fun _ => agrees_get_bind fun endpoint hlive => ?_
  have hkeeps (message : HandshakeMessage) : Keeps (Live data) (fun _ => True) (Endpoint.takeMessage (κ := κ) message) :=
    keepsLive (Endpoint.orders_takeMessage message) fun _ => Endpoint.keepsFixed_takeMessage (fun _ => id) message
  have hgathered : Live data { endpoint with handshake := endpoint.handshake ++ plaintext } := hlive
  refine agrees_set_bind hgathered ?_
  exact agrees_bind (agrees_forM agrees_takeMessage hkeeps _) (Keeps.forM hkeeps _) fun _ => agrees_step _

theorem agrees_receiveChangeCipherSpec (plaintext : Bytes) :
    Agrees (κ := κ) (Live data) (Endpoint.receiveChangeCipherSpec plaintext)
      (Endpoint.receiveChangeCipherSpec plaintext) := by
  rw [Endpoint.receiveChangeCipherSpec, Endpoint.receiveChangeCipherSpec]
  refine agrees_guard fun _ => agrees_get_bind fun endpoint hlive => agrees_guard fun _ => agrees_guard fun hwaiting => ?_
  have hat : At .waitChangeCipher endpoint := at_of_inOrder hlive.1 (Decidable.not_not.mp hwaiting) (by decide)
  refine Agrees.of_imp ?_ fun _ hsame => hsame ▸ hat
  exact agrees_bind_at (agrees_perform fun _ _ => rfl) (stays_createDecrypter _) fun _ => agrees_enter_at (by decide)

/-- The phase that an alert ends is never the one of the end. -/
theorem agrees_receiveAlert (plaintext : Bytes) :
    Agrees (κ := κ) (Live data) (Endpoint.receiveAlert plaintext) (Endpoint.receiveAlert plaintext) := by
  have hlive (endpoint : Endpoint κ) (h : Live data endpoint) : endpoint.phase ≠ .error := by
    intro herror
    have hover : endpoint.phase.isOver = false := h.2.2
    rw [herror] at hover
    cases hover
  refine Agrees.of_imp ?_ hlive
  refine agrees_bind (agrees_step _) (fun _ h => Endpoint.ends_readBody (fun _ _ => h) trivial) fun alert => ?_
  refine agrees_bind (agrees_step _) (Keeps.modify fun _ h => h) fun _ => ?_
  exact agrees_bind (Q := fun _ => True) (agrees_enter fun _ h => h) (fun _ _ => trivial) fun _ => agrees_step _

theorem agrees_receiveRecord (record : Record) :
    Agrees (κ := κ) (Live data) (Endpoint.receiveRecord record) (Endpoint.receiveRecord record) := by
  have hdecrypt : Keeps (Live data) (fun _ => True)
      (Endpoint.onSession (κ := κ) (·.decrypt record.typeCode record.version record.fragment)) := by
    rintro endpoint ⟨hinOrder, hphase⟩
    exact Endpoint.ends_onSession (fun _ _ => ⟨(Endpoint.inOrder_decrypt hinOrder rfl).1, hphase⟩) fun _ _ => trivial
  rw [Endpoint.receiveRecord, Endpoint.receiveRecord]
  refine agrees_bind (agrees_perform fun _ _ => rfl) hdecrypt fun plaintext => ?_
  refine agrees_get_bind fun endpoint hlive => agrees_guard fun _ => ?_
  refine Agrees.of_imp ?_ fun _ hsame => hsame ▸ hlive
  generalize ContentType.ofCode? record.typeCode = type
  rcases type with _ | (_ | _ | _ | _)
  · exact agrees_step _
  · exact agrees_receiveChangeCipherSpec plaintext
  · exact agrees_receiveAlert plaintext
  · exact agrees_receiveHandshake plaintext
  · exact agrees_step _

theorem agrees_receiveRecords (records : Cut Record) :
    Agrees (κ := κ) (Live data) (Endpoint.receiveRecords records) (Endpoint.receiveRecords records) := by
  have hkeeps (record : Record) : Keeps (Live data) (fun _ => True) (Endpoint.receiveRecord (κ := κ) record) :=
    keepsLive (Endpoint.orders_receiveRecord record) fun _ => Endpoint.keepsFixed_receiveRecord (fun _ => id) record
  exact agrees_bind (agrees_forM agrees_receiveRecord hkeeps _) (Keeps.forM hkeeps _) fun _ => agrees_step _

/-! ### The end -/

theorem run_ensure (phase : Phase) (endpoint : Endpoint κ) :
    (ensure phase).run endpoint = .ok () { endpoint with phase := phase } := by
  by_cases hphase : endpoint.phase = phase
  · subst hphase
    show (if endpoint.phase ≠ endpoint.phase then _ else _ : Asserted κ Unit).run endpoint = _
    rw [if_neg (not_not_intro rfl)]
    rfl
  · show (if endpoint.phase ≠ phase then _ else _ : Asserted κ Unit).run endpoint = _
    rw [if_pos hphase]
    exact agrees_enter (fun _ hsame => hsame ▸ hphase) endpoint (Eq.refl endpoint)

theorem run_fail (failure : ConnectionError) (endpoint : Endpoint κ) :
    (fail failure).run endpoint = .ok () (endpoint.fail failure) := by
  cases failure with
  | sentAlert alert => exact run_ensure .error (endpoint.announce alert)
  | _ => exact run_ensure .error endpoint

end Asserted

end PresharedTls
