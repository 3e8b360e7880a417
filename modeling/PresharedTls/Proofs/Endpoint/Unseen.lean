import PresharedTls.Proofs.Steps

/-!
# What steps do not see

Sending and the handling of a handshake message go by the phase, the side, the session and the entropy of
an endpoint, and all they do to the rest is to queue records. So whatever else is changed of an endpoint,
they do the same, and the change is there when they end. Two changes are of use: the queues hold more, and
other handshake bytes wait to become a message.
-/

namespace PresharedTls.Endpoint

variable {κ α : Type}

/-- A change of an endpoint in what steps do not see, which commutes with what they do. -/
structure Unseen (change : Endpoint κ → Endpoint κ) : Prop where
  phase : ∀ endpoint, (change endpoint).phase = endpoint.phase
  side : ∀ endpoint, (change endpoint).side = endpoint.side
  session : ∀ endpoint, (change endpoint).session = endpoint.session
  entropy : ∀ endpoint, (change endpoint).entropy = endpoint.entropy
  enters : ∀ (endpoint : Endpoint κ) (phase : Phase),
    change { endpoint with phase := phase } = { change endpoint with phase := phase }
  updates : ∀ (endpoint : Endpoint κ) (session : Session κ),
    change { endpoint with session := session } = { change endpoint with session := session }
  draws : ∀ (endpoint : Endpoint κ) (entropy : Entropy),
    change { endpoint with entropy := entropy } = { change endpoint with entropy := entropy }
  queues : ∀ (endpoint : Endpoint κ) (records : List Record),
    change { endpoint with outgoing := endpoint.outgoing ++ records } =
      { change endpoint with outgoing := (change endpoint).outgoing ++ records }

/-- The relation of an endpoint to the changed one. -/
def Changed (change : Endpoint κ → Endpoint κ) (endpoint other : Endpoint κ) : Prop :=
  other = change endpoint

/-- A step that does the same on a changed endpoint. -/
abbrev Overlooks (change : Endpoint κ → Endpoint κ) (step : Step κ α) : Prop :=
  Corresponds (Changed change) step step

namespace Unseen

variable {change : Endpoint κ → Endpoint κ}

/-! ### The parts of steps -/

theorem overlooks_refuse (alert : AlertDescription) : Overlooks change (refuse alert : Step κ α) :=
  Corresponds.throw _

theorem overlooks_accept (result : Except AlertDescription α) : Overlooks change (accept result : Step κ α) := by
  cases result with
  | ok value => exact Corresponds.pure value
  | error alert => exact overlooks_refuse alert

theorem overlooks_readBody (value : Option α) : Overlooks change (readBody value : Step κ α) := by
  cases value with
  | none => exact overlooks_refuse .decodeError
  | some value => exact Corresponds.pure value

theorem overlooks_guard {condition : Prop} [Decidable condition] {alert : AlertDescription} {next : PUnit → Step κ α}
    (h : Overlooks change (next ⟨⟩)) :
    Overlooks change (if condition then refuse alert >>= next else next ⟨⟩) := by
  refine Corresponds.ite (fun endpoint other hother => ?_) h
  exact ⟨other, rfl, hother⟩

theorem overlooks_get_bind {next : Endpoint κ → Step κ α}
    (hnext : ∀ endpoint, Corresponds (Changed change) (next endpoint) (next (change endpoint))) :
    Overlooks change (get >>= next) := by
  apply Corresponds.get_bind
  intro endpoint other h
  obtain rfl := h
  exact hnext endpoint

theorem corresponds_set_bind {endpoint other : Endpoint κ} (hother : change endpoint = other)
    {next next' : PUnit → Step κ α} (hnext : Corresponds (Changed change) (next ⟨⟩) (next' ⟨⟩)) :
    Corresponds (Changed change) (set endpoint >>= next) (set other >>= next') :=
  Corresponds.bind (Corresponds.set hother.symm) fun _ => hnext

variable (h : Unseen change)
include h

theorem overlooks_updateSession (update : Session κ → Session κ) : Overlooks change (updateSession update) := by
  apply Corresponds.modify
  rintro endpoint _ rfl
  simp only [h.session]
  exact (h.updates endpoint _).symm

theorem overlooks_onSession (work : Session κ → Except AlertDescription α × Session κ) :
    Overlooks change (onSession work) := by
  apply overlooks_get_bind
  intro endpoint
  simp only [h.session]
  exact corresponds_set_bind (h.updates endpoint _) (overlooks_accept _)

theorem overlooks_enter (phase : Phase) : Overlooks change (enter phase : Step κ Unit) := by
  apply Corresponds.modify
  rintro endpoint _ rfl
  exact (h.enters endpoint phase).symm

/-! ### Sending -/

theorem overlooks_sendRecord (type : ContentType) (plaintext : Bytes) :
    Overlooks change (sendRecord (κ := κ) type plaintext) := by
  rw [sendRecord]
  apply overlooks_get_bind
  intro endpoint
  simp only [h.session, h.entropy]
  refine Corresponds.ite (fun _ other hother => ⟨other, rfl, hother⟩) ?_
  have hset (session : Session κ) (entropy : Entropy) :
      change { endpoint with session := session, entropy := entropy } =
        { change endpoint with session := session, entropy := entropy } := by
    have hdraws := h.draws { endpoint with session := session } entropy
    rwa [h.updates] at hdraws
  apply corresponds_set_bind (hset _ _)
  apply Corresponds.bind (overlooks_accept _)
  intro fragment
  apply Corresponds.bind (overlooks_accept _)
  intro record
  apply Corresponds.modify
  rintro before _ rfl
  exact (h.queues before [record]).symm

theorem overlooks_sendFragmented (type : ContentType) (b : Bytes) :
    Overlooks change (sendFragmented (κ := κ) type b) := by
  apply overlooks_get_bind
  intro endpoint
  rw [h.session]
  exact Corresponds.forM (h.overlooks_sendRecord type) _

theorem overlooks_sendMessage (message : HandshakeMessage) : Overlooks change (sendMessage (κ := κ) message) := by
  apply Corresponds.bind (overlooks_accept _)
  intro framed
  exact Corresponds.bind (h.overlooks_updateSession _) fun _ => h.overlooks_sendFragmented _ _

theorem overlooks_sendChangeCipherSpec : Overlooks change (sendChangeCipherSpec (κ := κ)) := by
  apply Corresponds.bind (h.overlooks_sendRecord _ _)
  intro _
  apply overlooks_get_bind
  intro endpoint
  simp only [role, h.side]
  exact h.overlooks_onSession (·.createEncrypter endpoint.side.role)

theorem overlooks_sendFinished : Overlooks change (sendFinished (κ := κ)) := by
  apply overlooks_get_bind
  intro endpoint
  simp only [role, h.side, h.session]
  exact Corresponds.bind (overlooks_accept _) fun _ => h.overlooks_sendMessage _

theorem overlooks_sendClientHello (offer : ClientOffer) : Overlooks change (sendClientHello (κ := κ) offer) := by
  apply overlooks_get_bind
  intro endpoint
  simp only [h.entropy]
  apply corresponds_set_bind (h.draws endpoint _)
  apply Corresponds.bind (overlooks_accept _)
  intro body
  apply Corresponds.bind (h.overlooks_updateSession _)
  intro _
  exact Corresponds.bind (h.overlooks_sendMessage _) fun _ => h.overlooks_enter _

/-! ### Handshake messages -/

theorem overlooks_remember (message : HandshakeMessage) : Overlooks change (remember (κ := κ) message) :=
  h.overlooks_updateSession _

theorem overlooks_receiveFinished (message : HandshakeMessage) :
    Overlooks change (receiveFinished (κ := κ) message) := by
  apply Corresponds.bind (overlooks_readBody _)
  intro verifyData
  apply overlooks_get_bind
  intro endpoint
  simp only [role, h.side, h.session]
  exact Corresponds.bind (overlooks_accept _) fun _ => overlooks_guard (h.overlooks_remember message)

theorem overlooks_finish : Overlooks change (finish (κ := κ)) :=
  Corresponds.bind (h.overlooks_updateSession _) fun _ => h.overlooks_enter _

theorem overlooks_receiveServerHello (offer : ClientOffer) (message : HandshakeMessage) :
    Overlooks change (receiveServerHello (κ := κ) offer message) := by
  apply Corresponds.bind (overlooks_readBody _)
  intro answer
  apply Corresponds.bind (h.overlooks_remember message)
  intro _
  apply Corresponds.bind (overlooks_accept _)
  intro _
  exact Corresponds.bind (h.overlooks_onSession _) fun _ => h.overlooks_enter _

theorem overlooks_receiveIdentityHint (message : HandshakeMessage) :
    Overlooks change (receiveIdentityHint (κ := κ) message) := by
  apply Corresponds.bind (overlooks_readBody _)
  intro hint
  exact Corresponds.bind (h.overlooks_remember message) fun _ => h.overlooks_enter _

theorem overlooks_receiveServerHelloDone (message : HandshakeMessage) :
    Overlooks change (receiveServerHelloDone (κ := κ) message) := by
  rw [receiveServerHelloDone]
  apply overlooks_guard
  apply Corresponds.bind (h.overlooks_remember message)
  intro _
  apply overlooks_get_bind
  intro endpoint
  rw [h.session]
  apply Corresponds.bind (overlooks_accept _)
  intro body
  apply Corresponds.bind (h.overlooks_sendMessage _)
  intro _
  apply Corresponds.bind h.overlooks_sendChangeCipherSpec
  intro _
  exact Corresponds.bind h.overlooks_sendFinished fun _ => h.overlooks_enter _

theorem overlooks_receiveClientHello (policy : ServerPolicy) (message : HandshakeMessage) :
    Overlooks change (receiveClientHello (κ := κ) policy message) := by
  rw [receiveClientHello]
  apply Corresponds.bind (overlooks_readBody _)
  intro hello
  apply Corresponds.bind (h.overlooks_remember message)
  intro _
  apply overlooks_get_bind
  intro endpoint
  rw [h.entropy]
  apply Corresponds.bind (overlooks_accept _)
  rintro ⟨answer, entropy⟩
  apply corresponds_set_bind (h.draws endpoint entropy)
  apply Corresponds.bind (h.overlooks_updateSession _)
  intro _
  apply Corresponds.bind (h.overlooks_onSession _)
  intro _
  apply Corresponds.bind (overlooks_accept _)
  intro answerBody
  apply Corresponds.bind (h.overlooks_sendMessage _)
  intro _
  apply Corresponds.bind (overlooks_accept _)
  intro hintBody
  apply Corresponds.bind (h.overlooks_sendMessage _)
  intro _
  exact Corresponds.bind (h.overlooks_sendMessage ⟨.serverHelloDone, []⟩) fun _ => h.overlooks_enter _

theorem overlooks_receiveIdentity (policy : ServerPolicy) (message : HandshakeMessage) :
    Overlooks change (receiveIdentity (κ := κ) policy message) := by
  rw [receiveIdentity]
  apply Corresponds.bind (overlooks_readBody _)
  intro identity
  apply Corresponds.bind (h.overlooks_remember message)
  intro _
  split
  · exact overlooks_refuse _
  · exact Corresponds.bind (h.overlooks_updateSession _) fun _ => h.overlooks_enter _

theorem overlooks_receiveMessage (message : HandshakeMessage) : Overlooks change (receiveMessage (κ := κ) message) := by
  apply overlooks_get_bind
  intro endpoint
  rw [h.side, h.phase]
  generalize endpoint.side = side, endpoint.phase = phase, message.type = type
  split
  · exact h.overlooks_receiveServerHello _ message
  · exact h.overlooks_receiveIdentityHint message
  · exact h.overlooks_receiveServerHelloDone message
  · exact h.overlooks_receiveServerHelloDone message
  · exact Corresponds.bind (h.overlooks_receiveFinished message) fun _ => h.overlooks_finish
  · exact h.overlooks_receiveClientHello _ message
  · exact h.overlooks_receiveIdentity _ message
  · apply Corresponds.bind (h.overlooks_receiveFinished message)
    intro _
    apply Corresponds.bind h.overlooks_sendChangeCipherSpec
    intro _
    exact Corresponds.bind h.overlooks_sendFinished fun _ => h.overlooks_finish
  · exact overlooks_refuse _

/-! ### Failures -/

omit h in
theorem after_change {step : Step κ α} (hstep : Overlooks change step) (endpoint : Endpoint κ) :
    (change endpoint).after step = change (endpoint.after step) := by
  have hends := hstep endpoint _ rfl
  rw [Ends] at hends
  unfold after
  split at hends
  · obtain ⟨_, hother, rfl⟩ := hends
    simp_all
  · obtain ⟨_, hother, rfl⟩ := hends
    simp_all

theorem fail_change (failure : ConnectionError) (endpoint : Endpoint κ) :
    (change endpoint).fail failure = change (endpoint.fail failure) := by
  cases failure with
  | sentAlert alert =>
    have hannounced : (change endpoint).announce alert = change (endpoint.announce alert) :=
      after_change (h.overlooks_sendRecord .alert (Alert.fatal alert).bytes) endpoint
    rw [fail, hannounced]
    exact (h.enters _ .error).symm
  | _ => exact (h.enters _ .error).symm

end Unseen

end PresharedTls.Endpoint
