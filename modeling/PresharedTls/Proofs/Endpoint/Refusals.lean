import PresharedTls.Proofs.Endpoint.Rules

/-!
# Why steps fail

A step fails for a fault that is found on this side, or because the peer has sent an alert. Only the
second says anything about what the peer will send, and only one alert says that no more is coming.
-/

namespace PresharedTls

theorem Session.handshakeDone_decrypt {κ : Type} (session : Session κ) (typeCode : UInt8) (version : UInt16)
    (fragment : Bytes) : (session.decrypt typeCode version fragment).2.handshakeDone = session.handshakeDone := by
  rw [decrypt]
  split <;> rfl

namespace Endpoint

variable {κ α β : Type} {closed : Bool}

/-- A step that fails only for a fault found on this side and learns nothing about what the peer will
send, taken from endpoints that know of the peer's end as `closed` says. -/
def Refuses (closed : Bool) (step : Step κ α) : Prop :=
  ∀ endpoint : Endpoint κ, endpoint.peerClosed = closed →
    Ends step endpoint (fun _ after => after.peerClosed = closed)
      fun failure after => after.peerClosed = closed ∧ ∃ alert, failure = .sentAlert alert

/-! ### The parts of steps -/

namespace Refuses

theorem pure (value : α) : Refuses closed (Pure.pure value : Step κ α) :=
  fun _ h => h

theorem bind {step : Step κ α} {next : α → Step κ β} (hstep : Refuses closed step)
    (hnext : ∀ value, Refuses closed (next value)) : Refuses closed (step >>= next) := by
  intro endpoint h
  rw [ends_bind]
  exact (hstep endpoint h).mono (fun value => hnext value) fun _ _ => id

theorem get_bind {next : Endpoint κ → Step κ α}
    (hnext : ∀ endpoint : Endpoint κ, endpoint.peerClosed = closed → Refuses closed (next endpoint)) :
    Refuses closed (get >>= next) :=
  fun endpoint h => hnext endpoint h endpoint h

theorem set {endpoint : Endpoint κ} (h : endpoint.peerClosed = closed) :
    Refuses closed (MonadStateOf.set endpoint : Step κ PUnit) :=
  fun _ _ => h

theorem modify {change : Endpoint κ → Endpoint κ} (h : ∀ endpoint, (change endpoint).peerClosed = endpoint.peerClosed) :
    Refuses closed (modify change : Step κ PUnit) :=
  fun endpoint hclosed => (h endpoint).trans hclosed

theorem refuse (alert : AlertDescription) : Refuses closed (refuse alert : Step κ α) :=
  fun _ h => ⟨h, alert, rfl⟩

theorem accept (result : Except AlertDescription α) : Refuses closed (accept result : Step κ α) :=
  fun _ h => ends_accept (fun _ _ => h) fun alert _ => ⟨h, alert, rfl⟩

theorem readBody (value : Option α) : Refuses closed (readBody value : Step κ α) :=
  fun _ h => ends_readBody (fun _ _ => h) ⟨h, _, rfl⟩

theorem onSession (work : Session κ → Except AlertDescription α × Session κ) :
    Refuses closed (onSession work : Step κ α) :=
  fun _ h => ends_onSession (fun _ _ => h) fun alert _ => ⟨h, alert, rfl⟩

theorem updateSession (update : Session κ → Session κ) : Refuses closed (updateSession update : Step κ Unit) :=
  fun _ h => h

theorem enter (phase : Phase) : Refuses closed (enter phase : Step κ Unit) :=
  fun _ h => h

theorem guard {condition : Prop} [Decidable condition] {alert : AlertDescription} {next : PUnit → Step κ α}
    (h : Refuses closed (next ⟨⟩)) :
    Refuses closed (if condition then Endpoint.refuse alert >>= next else next ⟨⟩) :=
  fun endpoint hclosed => ends_guard (fun _ => ⟨hclosed, alert, rfl⟩) fun _ => h endpoint hclosed

theorem forM {work : β → Step κ PUnit} (h : ∀ item, Refuses closed (work item)) (items : List β) :
    Refuses closed (items.forM work) := by
  induction items with
  | nil => exact pure _
  | cons item rest ih => exact bind (h item) fun _ => ih

end Refuses

/-! ### Sending -/

theorem refuses_sendRecord (type : ContentType) (plaintext : Bytes) :
    Refuses closed (sendRecord (κ := κ) type plaintext) := by
  rw [sendRecord]
  refine .get_bind fun endpoint h => .guard (.bind (.set h) fun _ => ?_)
  exact .bind (.accept _) fun _ => .bind (.accept _) fun _ => .modify fun _ => rfl

theorem refuses_sendMessage (message : HandshakeMessage) : Refuses closed (sendMessage (κ := κ) message) :=
  .bind (.accept _) fun _ => .bind (.updateSession _) fun _ => .get_bind fun _ _ => .forM (refuses_sendRecord _) _

theorem refuses_remember (message : HandshakeMessage) : Refuses closed (remember (κ := κ) message) :=
  .updateSession _

theorem refuses_sendChangeCipherSpec : Refuses closed (sendChangeCipherSpec (κ := κ)) :=
  .bind (refuses_sendRecord _ _) fun _ => .get_bind fun _ _ => .onSession (·.createEncrypter _)

theorem refuses_sendFinished : Refuses closed (sendFinished (κ := κ)) :=
  .get_bind fun _ _ => .bind (.accept _) fun _ => refuses_sendMessage _

/-! ### Handshake messages -/

theorem refuses_receiveFinished (message : HandshakeMessage) : Refuses closed (receiveFinished (κ := κ) message) :=
  .bind (.readBody _) fun _ => .get_bind fun _ _ => .bind (.accept _) fun _ => .guard (refuses_remember message)

theorem refuses_finish : Refuses closed (finish (κ := κ)) :=
  .bind (.updateSession (·.finish)) fun _ => .enter _

theorem refuses_receiveServerHello (offer : ClientOffer) (message : HandshakeMessage) :
    Refuses closed (receiveServerHello (κ := κ) offer message) :=
  .bind (.readBody _) fun _ => .bind (refuses_remember message) fun _ => .bind (.accept _) fun _ =>
    .bind (.onSession _) fun _ => .enter _

theorem refuses_receiveIdentityHint (message : HandshakeMessage) :
    Refuses closed (receiveIdentityHint (κ := κ) message) :=
  .bind (.readBody _) fun _ => .bind (refuses_remember message) fun _ => .enter _

theorem refuses_receiveServerHelloDone (message : HandshakeMessage) :
    Refuses closed (receiveServerHelloDone (κ := κ) message) := by
  rw [receiveServerHelloDone]
  refine .guard (.bind (refuses_remember message) fun _ => .get_bind fun _ _ => .bind (.accept _) fun _ => ?_)
  exact .bind (refuses_sendMessage _) fun _ => .bind refuses_sendChangeCipherSpec fun _ =>
    .bind refuses_sendFinished fun _ => .enter _

theorem refuses_receiveClientHello (policy : ServerPolicy) (message : HandshakeMessage) :
    Refuses closed (receiveClientHello (κ := κ) policy message) := by
  rw [receiveClientHello]
  refine .bind (.readBody _) fun hello => .bind (refuses_remember message) fun _ => .get_bind fun endpoint h => ?_
  refine .bind (.accept _) fun answer => .bind (.set h) fun _ => .bind (.updateSession _) fun _ => ?_
  refine .bind (.onSession _) fun _ => .bind (.accept _) fun _ => .bind (refuses_sendMessage _) fun _ => ?_
  refine .bind (.accept _) fun _ => .bind (refuses_sendMessage _) fun _ => ?_
  exact .bind (refuses_sendMessage ⟨.serverHelloDone, []⟩) fun _ => .enter _

theorem refuses_receiveIdentity (policy : ServerPolicy) (message : HandshakeMessage) :
    Refuses closed (receiveIdentity (κ := κ) policy message) := by
  rw [receiveIdentity]
  refine .bind (.readBody _) fun identity => .bind (refuses_remember message) fun _ => ?_
  split
  · exact .refuse _
  · exact .bind (.updateSession _) fun _ => .enter _

theorem refuses_receiveMessage (message : HandshakeMessage) : Refuses closed (receiveMessage (κ := κ) message) := by
  rw [receiveMessage]
  refine .get_bind fun endpoint _ => ?_
  split
  · exact refuses_receiveServerHello _ message
  · exact refuses_receiveIdentityHint message
  · exact refuses_receiveServerHelloDone message
  · exact refuses_receiveServerHelloDone message
  · exact .bind (refuses_receiveFinished message) fun _ => refuses_finish
  · exact refuses_receiveClientHello _ message
  · exact refuses_receiveIdentity _ message
  · exact .bind (refuses_receiveFinished message) fun _ => .bind refuses_sendChangeCipherSpec fun _ =>
      .bind refuses_sendFinished fun _ => refuses_finish
  · exact .refuse _

/-! ### Records -/

theorem refuses_takeMessage (message : HandshakeMessage) : Refuses closed (takeMessage (κ := κ) message) :=
  .bind (.modify fun _ => rfl) fun _ => refuses_receiveMessage message

theorem refuses_receiveHandshake (plaintext : Bytes) : Refuses closed (receiveHandshake (κ := κ) plaintext) := by
  rw [receiveHandshake]
  refine .guard (.get_bind fun endpoint h => .bind (.set h) fun _ => ?_)
  refine .bind (.forM refuses_takeMessage _) fun _ => ?_
  cases (HandshakeMessage.framing.cut (endpoint.handshake ++ plaintext)).fault with
  | none => exact .pure _
  | some alert => exact .refuse alert

theorem refuses_receiveChangeCipherSpec (plaintext : Bytes) :
    Refuses closed (receiveChangeCipherSpec (κ := κ) plaintext) := by
  rw [receiveChangeCipherSpec]
  exact .guard (.get_bind fun _ _ => .guard (.guard (.bind (.onSession (·.createDecrypter _)) fun _ => .enter _)))

theorem refuses_receiveApplicationData (plaintext : Bytes) :
    Refuses closed (receiveApplicationData (κ := κ) plaintext) := by
  rw [receiveApplicationData]
  exact .get_bind fun endpoint h => .guard (.set h)

/-- How the work on what has arrived fails: for a fault found on this side, or with an alert of the
peer's, which may be the one that announces its end. -/
inductive Explains (closed : Bool) : ConnectionError → Endpoint κ → Prop where
  | refused {alert : AlertDescription} {after : Endpoint κ} (h : after.peerClosed = closed) :
      Explains closed (.sentAlert alert) after
  | told {description : AlertDescription} {after : Endpoint κ}
      (h : after.peerClosed = (closed || description = .closeNotify)) :
      Explains closed (.receivedAlert description) after

theorem Refuses.explains {step : Step κ α} (hstep : Refuses closed step) {endpoint : Endpoint κ}
    (h : endpoint.peerClosed = closed) : Ends step endpoint (fun _ after => after.peerClosed = closed) (Explains closed) := by
  refine (hstep endpoint h).mono (fun _ _ => id) ?_
  rintro _ after ⟨hafter, alert, rfl⟩
  exact .refused hafter

theorem explains_receiveAlert (plaintext : Bytes) {endpoint : Endpoint κ} (h : endpoint.peerClosed = closed) :
    Ends (receiveAlert plaintext) endpoint (fun _ after => after.peerClosed = closed) (Explains closed) := by
  rw [receiveAlert, ends_bind]
  exact ends_readBody (fun alert _ => .told (h ▸ rfl)) (.refused h)

theorem explains_receiveRecord (record : Record) {endpoint : Endpoint κ} (h : endpoint.peerClosed = closed) :
    Ends (receiveRecord record) endpoint (fun _ after => after.peerClosed = closed) (Explains closed) := by
  rw [receiveRecord, ends_bind, perform_eq, Deed.step_unprotect]
  refine ends_onSession (fun plaintext _ => ?_) fun _ _ => .refused h
  rw [step_eq, ends_get_bind]
  refine ends_guard (fun _ => .refused h) fun _ => ?_
  split
  · exact (refuses_receiveHandshake plaintext).explains h
  · exact (refuses_receiveChangeCipherSpec plaintext).explains h
  · exact (refuses_receiveApplicationData plaintext).explains h
  · exact explains_receiveAlert plaintext h
  · exact .refused h

theorem explains_receiveRecords (records : Cut Record) {endpoint : Endpoint κ} (h : endpoint.peerClosed = closed) :
    Ends (receiveRecords records) endpoint (fun _ after => after.peerClosed = closed) (Explains closed) := by
  rw [receiveRecords, ends_bind]
  have hitems : Ends (records.items.forM receiveRecord) endpoint (fun _ after => after.peerClosed = closed)
      (Explains closed) := ends_forM (fun record _ _ => explains_receiveRecord record) h
  refine hitems.mono (fun _ after hafter => ?_) fun _ _ => id
  cases records.fault with
  | none => exact hafter
  | some alert => exact .refused hafter

/-- The alert of a record changes nothing about the handshake. -/
theorem told_receiveRecord (record : Record) (endpoint : Endpoint κ) :
    Ends (receiveRecord record) endpoint (fun _ _ => True) fun failure after =>
      (∃ alert, failure = .sentAlert alert) ∨ after.session.handshakeDone = endpoint.session.handshakeDone := by
  have hrefuses {step : Step κ Unit} {state : Endpoint κ} (hstep : Refuses state.peerClosed step) :
      Ends step state (fun _ _ => True) fun failure after =>
        (∃ alert, failure = .sentAlert alert) ∨ after.session.handshakeDone = endpoint.session.handshakeDone :=
    (hstep state rfl).mono (fun _ _ _ => trivial) fun _ _ hrefused => .inl hrefused.2
  rw [receiveRecord, ends_bind, perform_eq, Deed.step_unprotect]
  refine ends_onSession (fun plaintext _ => ?_) fun alert _ => .inl ⟨alert, rfl⟩
  rw [step_eq, ends_get_bind]
  refine ends_guard (fun _ => .inl ⟨_, rfl⟩) fun _ => ?_
  split
  · exact hrefuses (refuses_receiveHandshake plaintext)
  · exact hrefuses (refuses_receiveChangeCipherSpec plaintext)
  · exact hrefuses (refuses_receiveApplicationData plaintext)
  · rw [receiveAlert, ends_bind]
    exact ends_readBody (fun alert _ => .inr (Session.handshakeDone_decrypt _ _ _ _)) (.inl ⟨_, rfl⟩)
  · exact .inl ⟨_, rfl⟩

end Endpoint

namespace Connection

variable {κ : Type} {connection after : Connection κ} {b : Bytes}

/-- A connection that goes on has heard of no end of its peer's. -/
theorem peerClosed_of_receive (hready : connection.phase.TakesInput) (h : connection.receive b = (.ok (), after)) :
    after.peerClosed = connection.peerClosed := by
  have hends := Endpoint.explains_receiveRecords (connection.arriving b)
    (rfl : connection.toEndpoint.peerClosed = connection.peerClosed)
  cases hrun : (Endpoint.receiveRecords (connection.arriving b)).run connection.toEndpoint with
  | ok value endpoint =>
    rw [receive_of_ok hready hrun] at h
    cases h
    simpa only [Ends, hrun] using hends
  | error failure endpoint =>
    rw [receive_of_error hready hrun] at h
    cases h

/-- A connection that was told of the end of its peer's data knows of it. -/
theorem peerClosed_of_closeNotify (hready : connection.phase.TakesInput)
    (h : connection.receive b = (.error (.receivedAlert .closeNotify), after)) : after.peerClosed = true := by
  have hends := Endpoint.explains_receiveRecords (connection.arriving b)
    (rfl : connection.toEndpoint.peerClosed = connection.peerClosed)
  cases hrun : (Endpoint.receiveRecords (connection.arriving b)).run connection.toEndpoint with
  | ok value endpoint =>
    rw [receive_of_ok hready hrun] at h
    cases h
  | error failure endpoint =>
    rw [receive_of_error hready hrun] at h
    simp only [Ends, hrun] at hends
    cases h
    cases hends with
    | told hclosed => simpa [Endpoint.fail] using hclosed

end Connection

end PresharedTls
