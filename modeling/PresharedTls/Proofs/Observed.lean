import PresharedTls.Proofs.Handling

/-!
# Records and operations keep what the events say

From single messages to whole runs: an endpoint that can go on stays one as records come in, and what
is left when it fails is a past that holds. At the level of connections this is one invariant, kept by
every operation.
-/

namespace PresharedTls

variable {κ : Type} {endpoint : Endpoint κ} {events : List Event} {message : HandshakeMessage}

open Event (spoken receivedBytes handshakeBytes)

/-- Work that leaves an endpoint which can go on, or fails and leaves one that is over. -/
def GoesOn (endpoint : Endpoint κ) (events : List Event) (work : Recorded κ Unit) : Prop :=
  Ends work (endpoint, events) (fun _ state => Live [] state.1 state.2) fun _ state => Over state.1.view state.2

/-! ### Messages -/

/-- A message that comes when the handshake is done, or at the wrong time, is the end. -/
theorem Live.over_received (h : Live message.bytes endpoint events)
    (hlength : message.body.length ≤ HandshakeHeader.maximumLength) :
    Over endpoint.view (events ++ [.received message]) := by
  obtain ⟨hpast, -⟩ := h.takeOff hlength
  refine ⟨hpast, fun hdone => ?_⟩
  obtain ⟨talk, refused, hspoken, htalk, hrefused⟩ := h.toOver.done hdone
  refine ⟨talk, refused ++ [.received message], ?_, htalk, ?_⟩
  · rw [Event.spoken_append, hspoken, List.append_assoc]
    rfl
  · intro event hmem
    rcases List.mem_append.mp hmem with hmem | hmem
    · exact hrefused event hmem
    · exact ⟨message, List.mem_singleton.mp hmem⟩

theorem Live.receiveMessage (h : Live message.bytes endpoint events)
    (hlength : message.body.length ≤ HandshakeHeader.maximumLength) :
    Handles message endpoint events (Endpoint.receiveMessage message) := by
  have hrole {role : Role} {side : Side} (hside : endpoint.side = side) (hrole : side.role = role) :
      endpoint.role = role := by
    rw [← hrole, ← hside]
    rfl
  have hbegins {phase : Phase} (hphase : endpoint.phase = phase) (hconnected : phase ≠ .connected) :
      Begins message endpoint events := h.begins hlength (hphase ▸ hconnected)
  rw [Handles, Endpoint.receiveMessage, Noted.ends_get_bind]
  split
  · next hside hphase htype => exact (hbegins hphase (by decide)).receiveServerHello (hrole hside rfl) hphase htype
  · next hside hphase htype => exact (hbegins hphase (by decide)).receiveIdentityHint (hrole hside rfl) hphase htype
  · next hside hphase htype =>
    exact (hbegins hphase (by decide)).receiveServerHelloDone (hrole hside rfl) (.inl hphase) htype
  · next hside hphase htype =>
    exact (hbegins hphase (by decide)).receiveServerHelloDone (hrole hside rfl) (.inr hphase) htype
  · next hside hphase htype => exact (hbegins hphase (by decide)).receiveServerFinished (hrole hside rfl) hphase htype
  · next hside hphase htype => exact (hbegins hphase (by decide)).receiveClientHello (hrole hside rfl) hphase htype
  · next hside hphase htype => exact (hbegins hphase (by decide)).receiveIdentity (hrole hside rfl) hphase htype
  · next hside hphase htype => exact (hbegins hphase (by decide)).receiveClientFinished (hrole hside rfl) hphase htype
  · exact h.over_received hlength

/-- A message at the front of the handshake bytes is taken off them, and handled. -/
theorem Live.takeMessage {rest : Bytes} (h : Live [] { endpoint with handshake := message.bytes ++ rest } events)
    (hlength : message.body.length ≤ HandshakeHeader.maximumLength) :
    Ends (Endpoint.takeMessage message : Recorded κ Unit) ({ endpoint with handshake := message.bytes ++ rest }, events)
      (fun _ state => Live [] state.1 state.2 ∧ state.1.handshake = rest) fun _ state => Over state.1.view state.2 := by
  have htaken : Live message.bytes { endpoint with handshake := rest } events := by
    refine ⟨h.toPast, h.talk, h.done, h.transcript, h.decrypter, ?_⟩
    rw [h.stream, List.append_nil, List.append_assoc]
  rw [Endpoint.takeMessage, ends_bind]
  show Ends _
    ({ endpoint with handshake := (message.bytes ++ rest).drop message.bytes.length }, events ++ [.received message]) _ _
  rw [List.drop_left, Noted.ends_attend]
  refine (htaken.receiveMessage hlength).mono ?_ fun _ _ => id
  rintro _ ⟨after, log⟩ ⟨tail, rfl, hhandled⟩
  exact ⟨hhandled.live htaken hlength, hhandled.handshake⟩

/-- The messages at the front of the handshake bytes are taken off one by one. -/
theorem Live.takeMessages {messages : List HandshakeMessage} {rest : Bytes}
    (hlength : ∀ message ∈ messages, message.body.length ≤ HandshakeHeader.maximumLength)
    (h : Live [] endpoint events) (hfront : endpoint.handshake = messages.flatMap HandshakeMessage.bytes ++ rest) :
    GoesOn endpoint events (messages.forM Endpoint.takeMessage) := by
  induction messages generalizing endpoint events with
  | nil => exact h
  | cons message others ih =>
    have hcons : (message :: others).forM (m := Recorded κ) Endpoint.takeMessage =
        Endpoint.takeMessage message >>= fun _ => others.forM Endpoint.takeMessage := rfl
    rw [List.flatMap_cons, List.append_assoc] at hfront
    have hsame :
        { endpoint with handshake := message.bytes ++ (others.flatMap HandshakeMessage.bytes ++ rest) } = endpoint := by
      rw [← hfront]
    have htaken := hsame ▸ Live.takeMessage (hsame.symm ▸ h) (hlength message List.mem_cons_self)
    rw [hcons, GoesOn, ends_bind]
    refine htaken.mono ?_ fun _ _ => id
    rintro _ ⟨after, log⟩ ⟨hafter, hbehind⟩
    exact ih (fun other hmem => hlength other (List.mem_cons_of_mem _ hmem)) hafter hbehind

/-! ### Records -/

/-- Opening a record leaves a decrypter that is used. -/
theorem Past.decrypted {view : View κ} (h : Past view events) (typeCode : UInt8) (version : UInt16) (fragment : Bytes) :
    Past { view with decrypter := view.decrypter.map fun context =>
      (view.provider.unprotect context typeCode version fragment).2 } events := by
  refine ⟨h.framed, h.sets, fun said verifyData hmem => ?_, h.sealed, h.received, h.switched⟩
  obtain ⟨context, later, hdecrypter, hused, hverify⟩ := h.judged said verifyData hmem
  refine ⟨context, _, ?_, hused.opened typeCode version fragment, hverify⟩
  show view.decrypter.map _ = _
  rw [hdecrypter]
  rfl

theorem Past.opened {view : View κ} (h : Past view events) {typeCode : UInt8} {plaintext : Bytes} {isSealed : Bool}
    (hsealed : .switched ∈ events → isSealed = true) : Past view (events ++ [.opened typeCode plaintext isSealed]) := by
  refine h.append (by simp [Event.exchanged?]) (by simp) (by simp) (fun _ _ _ hevent hmem => ?_) ?_ (by simp)
  · cases hevent
    exact hsealed hmem
  · rw [Event.receivedBytes_concat, Event.handshakeBytes_concat]
    exact (List.append_nil _).symm ▸ (h.received events List.prefix_rfl).trans (List.prefix_append _ _)

/-- A record that is opened adds to the incoming handshake bytes. -/
theorem Live.opened (h : Live [] endpoint events) (typeCode : UInt8) (version : UInt16) (fragment plaintext : Bytes)
    {handshake : Bytes} (hstream : endpoint.handshake ++ (Event.opened typeCode plaintext
      endpoint.session.decrypter.isSome).handshakePart = handshake) :
    Live [] { endpoint with
        session := (endpoint.session.decrypt typeCode version fragment).2
        handshake := handshake }
      (events ++ [.opened typeCode plaintext endpoint.session.decrypter.isSome]) := by
  have hspoken : spoken [.opened typeCode plaintext endpoint.session.decrypter.isSome] = [] := rfl
  rw [Session.decrypt_snd]
  refine ⟨(h.decrypted typeCode version fragment).opened h.decrypter, ?_, h.done, fun hphase => ?_, fun hmem => ?_, ?_⟩
  · rw [Event.spoken_append, hspoken, List.append_nil]
    exact h.talk
  · rw [Event.transcript_concat]
    exact (List.append_nil (Event.transcript events)).symm ▸ h.transcript hphase
  · have hbefore : .switched ∈ events := by simpa using hmem
    show (endpoint.session.decrypter.map _).isSome = true
    rw [Option.isSome_map]
    exact h.decrypter hbefore
  · have hbefore := h.stream
    rw [List.append_nil] at hbefore
    rw [Event.handshakeBytes_concat, Event.receivedBytes_concat, hbefore, List.append_assoc, hstream]
    simp [Event.received?]

theorem Live.receiveHandshake {plaintext : Bytes}
    (h : Live [] { endpoint with handshake := endpoint.handshake ++ plaintext } events) :
    GoesOn endpoint events (Endpoint.receiveHandshake plaintext) := by
  rw [GoesOn, Endpoint.receiveHandshake]
  apply Noted.ends_guard (fun _ => h.toOver)
  intro _
  obtain ⟨hbytes, hlength⟩ := HandshakeMessage.flatMap_bytes_cut (endpoint.handshake ++ plaintext)
  rw [Noted.ends_get_bind, Noted.ends_set_bind, Endpoint.takeMessages, ends_bind]
  refine (Live.takeMessages hlength h hbytes.symm).mono ?_ fun _ _ => id
  rintro _ ⟨after, log⟩ hafter
  cases (HandshakeMessage.framing.cut (endpoint.handshake ++ plaintext)).fault with
  | none => exact hafter
  | some alert => exact hafter.toOver

theorem Live.receiveChangeCipherSpec (h : Live [] endpoint events) (plaintext : Bytes) :
    GoesOn endpoint events (Endpoint.receiveChangeCipherSpec plaintext) := by
  rw [GoesOn, Endpoint.receiveChangeCipherSpec]
  apply Noted.ends_guard (fun _ => h.toOver)
  intro _
  rw [Noted.ends_get_bind]
  apply Noted.ends_guard (fun _ => h.toOver)
  intro hempty
  apply Noted.ends_guard (fun _ => h.toOver)
  intro hphase
  have hphase : endpoint.phase = .waitChangeCipher := Decidable.of_not_not hphase
  have hempty : endpoint.handshake = [] := by simpa using hempty
  have hstream : handshakeBytes events = receivedBytes events := by simpa [hempty] using h.stream
  rw [ends_bind, Noted.ends_perform, Endpoint.Deed.step_createDecrypter]
  refine Endpoint.ends_onSession (fun _ hok => ?_) fun alert herror => ?_
  · rcases endpoint.session.createDecrypter_cases endpoint.role.peer with ⟨_, context, hnone, -, -, hcreated⟩ | ⟨alert, hfailed⟩
    · rw [hcreated]
      have hspoken : spoken [.switched] = [.switched] := rfl
      have hpast : Past { endpoint.view with decrypter := some context } (events ++ [.switched]) := by
        have hbefore : Past { endpoint.view with decrypter := some context } events := by
          refine ⟨h.framed, h.sets, fun said verifyData hmem => ?_, h.sealed, h.received, h.toPast.switched⟩
          obtain ⟨_, later, hsome, -⟩ := h.judged said verifyData hmem
          cases hnone.symm.trans hsome
        exact hbefore.append (by simp [Event.exchanged?]) (by simp) (by simp) (by simp)
          (hbefore.received_of_quiet rfl rfl) fun _ => hstream
      have htalk := h.talk
      rw [hphase] at htalk
      show Live [] (Endpoint.entering .waitFinished { endpoint with
        session := { endpoint.session with decrypter := some context } }) (events ++ [.switched])
      refine ⟨hpast, ?_, ?_, fun _ => ?_, fun _ => rfl, ?_⟩
      · rw [Event.spoken_append, hspoken]
        exact htalk.switched
      · exact (h.not_done (by simp [hphase])).trans rfl
      · rw [Event.transcript_concat]
        exact (List.append_nil (Event.transcript events)).symm ▸ h.transcript (by simp [hphase])
      · rw [Event.handshakeBytes_concat, Event.receivedBytes_concat, hstream]
        simp [Event.handshakePart, Event.received?, hempty, Endpoint.entering]
    · rw [hfailed] at hok
      cases hok
  · rcases endpoint.session.createDecrypter_cases endpoint.role.peer with ⟨_, _, -, -, -, hcreated⟩ | ⟨other, hfailed⟩
    · rw [hcreated] at herror
      cases herror
    · rw [hfailed]
      exact h.toOver

theorem Live.receiveApplicationData (h : Live [] endpoint events) (plaintext : Bytes) :
    GoesOn endpoint events (Endpoint.step (Endpoint.receiveApplicationData plaintext)) := by
  rw [GoesOn, Noted.ends_step, Endpoint.receiveApplicationData, ends_get_bind]
  apply Endpoint.ends_guard (fun _ => h.toOver)
  intro _
  exact ⟨h.toPast, h.talk, h.done, h.transcript, h.decrypter, h.stream⟩

/-- An alert is the end. -/
theorem Over.receiveAlert (h : Over endpoint.view events) (plaintext : Bytes) :
    GoesOn endpoint events (Endpoint.receiveAlert plaintext) := by
  rw [GoesOn, Endpoint.receiveAlert, ends_bind, Noted.ends_step]
  exact Endpoint.ends_readBody (fun _ _ => h) h

theorem Live.receiveRecord (h : Live [] endpoint events) (record : Record) :
    GoesOn endpoint events (Endpoint.receiveRecord record) := by
  rw [GoesOn, Endpoint.receiveRecord, ends_bind, Noted.ends_perform, Endpoint.Deed.step_unprotect]
  refine Endpoint.ends_onSession (fun plaintext _ => ?_) fun _ _ => ?_
  · have hover := (h.opened record.typeCode record.version record.fragment plaintext rfl).toOver
    show Ends _ ({ endpoint with session := _ }, events ++ [.opened record.typeCode plaintext _]) _ _
    rw [Noted.ends_get_bind]
    apply Noted.ends_guard (fun _ => hover)
    intro _
    cases hcode : ContentType.ofCode? record.typeCode with
    | none => exact hover
    | some type =>
      have hpart (hother : type ≠ .handshake) (isSealed : Bool) :
          (Event.opened record.typeCode plaintext isSealed).handshakePart = [] := by
        simp [Event.handshakePart, hcode, hother]
      have hlive (hother : type ≠ .handshake) := h.opened record.typeCode record.version record.fragment plaintext
        (show endpoint.handshake ++ _ = endpoint.handshake by rw [hpart hother, List.append_nil])
      cases type with
      | handshake =>
        refine Live.receiveHandshake (h.opened record.typeCode record.version record.fragment plaintext ?_)
        simp [Event.handshakePart, hcode]
      | changeCipherSpec => exact (hlive (by decide)).receiveChangeCipherSpec plaintext
      | applicationData => exact (hlive (by decide)).receiveApplicationData plaintext
      | alert => exact (hlive (by decide)).toOver.receiveAlert plaintext
  · rw [Session.decrypt_snd]
    exact ⟨h.decrypted record.typeCode record.version record.fragment, h.toOver.done⟩

theorem Live.receiveRecords (h : Live [] endpoint events) (records : Cut Record) :
    GoesOn endpoint events (Endpoint.receiveRecords records) := by
  rw [GoesOn, Endpoint.receiveRecords, ends_bind]
  have hitems (items : List Record) : ∀ {endpoint : Endpoint κ} {events : List Event}, Live [] endpoint events →
      GoesOn endpoint events (items.forM Endpoint.receiveRecord) := by
    induction items with
    | nil => exact fun h => h
    | cons record rest ih =>
      intro endpoint events h
      have hcons : (record :: rest).forM (m := Recorded κ) Endpoint.receiveRecord =
          Endpoint.receiveRecord record >>= fun _ => rest.forM Endpoint.receiveRecord := rfl
      rw [hcons, GoesOn, ends_bind]
      exact (h.receiveRecord record).mono (fun _ _ hafter => ih hafter) fun _ _ => id
  refine (hitems records.items h).mono (fun _ state hafter => ?_) fun _ _ => id
  cases records.fault with
  | none => exact hafter
  | some alert => exact hafter.toOver

/-! ### Connections -/

theorem Over.fail (h : Over endpoint.view events) (failure : ConnectionError) :
    Over (endpoint.fail failure).view events := by
  obtain ⟨encrypter, outgoing, entropy, hfail⟩ := endpoint.fail_eq failure
  rw [hfail, Endpoint.view_entering, Endpoint.view_sending]
  exact h

theorem Live.sending (h : Live [] endpoint events) (encrypter : Option κ) (outgoing : List Record)
    (entropy : Entropy) : Live [] (endpoint.sending encrypter outgoing entropy) events :=
  ⟨h.toPast, h.talk, h.done, h.transcript, h.decrypter, h.stream⟩

/-- The hello that opens a handshake. -/
theorem Live.sendClientHello {offer : ClientOffer} (h : Live [] endpoint events) (hidle : endpoint.phase = .idle)
    (hrole : endpoint.role = .client) :
    GoesOn endpoint events (Endpoint.sendClientHello offer) := by
  have htalk := h.talk
  have hdone := h.not_done (by simp [hidle])
  rw [hrole, hidle] at htalk
  have hspoken : spoken events = [] := htalk.events_of_idle
  rw [hspoken] at htalk
  rw [GoesOn, Endpoint.sendClientHello, Noted.ends_get_bind]
  obtain ⟨hello, entropy⟩ := offer.hello endpoint.entropy
  rw [ends_bind, Noted.ends_step]
  show Ends _ ({ endpoint with entropy := entropy }, events) _ _
  rw [ends_bind, Noted.ends_step]
  refine Endpoint.ends_accept (fun body hbody => ?_) fun _ _ => h.toOver
  rw [ends_bind, Noted.ends_step]
  show Ends _ ({ endpoint with
    session := endpoint.session.withClientRandom hello.random, entropy := entropy }, events) _ _
  have hpast : Past { endpoint.view with terms := endpoint.session.terms.withClientRandom hello.random } events :=
    h.withTerms _ fun _ _ => h.not_computed (.inl hidle)
  have htranscript := h.transcript (by simp [hidle])
  rw [ends_bind]
  refine ends_sendMessage_over hpast hdone htranscript fun hsent _ _ _ => ?_
  apply Recorded.ends_enter
  refine ⟨hsent, ?_, hdone.trans rfl, fun _ => rfl, fun hmem => h.decrypter (by simpa using hmem), ?_⟩
  · rw [Event.spoken_append, hspoken]
    have hnext := htalk.clientHello hbody
    rw [← hrole] at hnext
    exact hnext
  · have hstream := h.stream
    rw [Event.handshakeBytes_concat, Event.receivedBytes_concat, hstream]
    simp [Event.handshakePart, Event.received?]
    rfl

namespace Connection

/-- What the events of a run say about its connection. -/
structure Sound (connection : Connection κ) (events : List Event) : Prop where
  toOver : Over connection.view events
  live : connection.phase.isOver = false → Live [] connection.toEndpoint events

variable {connection : Connection κ}

theorem Sound.fail (h : Over endpoint.view events) (failure : ConnectionError) (incoming : Bytes) :
    Sound ⟨endpoint.fail failure, incoming⟩ events := by
  refine ⟨h.fail failure, fun hphase => ?_⟩
  obtain ⟨encrypter, outgoing, entropy, hfail⟩ := endpoint.fail_eq failure
  rw [show (⟨endpoint.fail failure, incoming⟩ : Connection κ).phase = (endpoint.fail failure).phase from rfl, hfail] at hphase
  exact absurd (show true = false from hphase) (by decide)

theorem Sound.observeStep {step : Recorded κ Unit} (h : GoesOn connection.toEndpoint events step) :
    Sound (observeStep step connection events).1 (observeStep step connection events).2 := by
  refine holds_observeStep (P := fun state => Sound state.1 state.2) (Ends.mono h (fun _ state hlive => ?_) ?_)
  · exact ⟨hlive.toOver, fun _ => hlive⟩
  · exact fun failure state hover => Sound.fail hover failure []

theorem Sound.start (h : Sound connection events) (hidle : connection.phase = .idle) :
    Sound (observe (connection, events) .start).1 (observe (connection, events) .start).2 := by
  have hlive := h.live (by rw [hidle]; rfl)
  cases hside : connection.side with
  | client offer =>
    rw [observe_start_of_client hidle hside]
    refine Sound.observeStep (hlive.sendClientHello hidle ?_)
    show connection.side.role = .client
    rw [hside]
    rfl
  | server policy =>
    rw [observe_start_of_server hidle hside]
    have hrole : connection.role = .server := by
      show connection.side.role = .server
      rw [hside]
      rfl
    have htalk := hlive.talk
    rw [hidle, hrole] at htalk
    have hspoken : spoken events = [] := htalk.events_of_idle
    rw [hspoken] at htalk
    refine Sound.observeStep (Recorded.ends_enter ⟨h.toOver.toPast, ?_, ?_, fun _ => ?_, hlive.decrypter, hlive.stream⟩)
    · rw [hspoken]
      show Talk connection.role _ _ _
      rw [hrole]
      exact htalk.listening
    · exact (hlive.not_done (by simp [hidle])).trans rfl
    · exact hlive.transcript (by simp [hidle])

theorem Sound.receive (h : Sound connection events) (hready : connection.phase.TakesInput) (b : Bytes) :
    Sound (observe (connection, events) (.receive b)).1 (observe (connection, events) (.receive b)).2 := by
  have hlive := h.live hready.2
  rw [observe_receive_of_takesInput hready]
  exact Sound.observeStep (hlive.receiveRecords _)

theorem Sound.send (h : Sound connection events) (data : Bytes) : Sound (connection.send data).2 events := by
  rw [Connection.send]
  split
  · exact h
  next hover =>
  split
  · exact h
  · have hlive := h.live (by simpa using hover)
    have hsent : Ends (Endpoint.sendFragmented .applicationData data) connection.toEndpoint
        (fun _ after => Live [] after events) fun _ after => Over after.view events :=
      Endpoint.ends_of_onlySent (Endpoint.keepsOnlySent_sendFragmented _ _) (fun _ _ _ _ => hlive.sending _ _ _)
        fun _ _ _ _ => h.toOver
    refine holds_perform (P := fun after => Sound after events) (hsent.mono (fun _ _ hafter => ?_) ?_)
    · exact ⟨hafter.toOver, fun _ => hafter⟩
    · exact fun failure _ hover => Sound.fail hover failure []

theorem Sound.close (h : Sound connection events) : Sound connection.close events := by
  rw [Connection.close]
  split
  · exact ⟨h.toOver, fun hphase => absurd (show true = false from hphase) (by decide)⟩
  · obtain ⟨encrypter, outgoing, entropy, hafter⟩ := Endpoint.OnlySent.after
      (Endpoint.keepsOnlySent_sendRecord connection.toEndpoint .alert (Alert.warning .closeNotify).bytes)
    refine ⟨?_, fun hphase => absurd (show true = false from hphase) (by decide)⟩
    rw [hafter]
    exact h.toOver

/-- Queues and the source of random bytes do not matter. -/
theorem Sound.withQueues (h : Sound connection events) (outgoing : List Record) (received : List Bytes)
    (entropy : Entropy) :
    Sound { connection with outgoing := outgoing, received := received, entropy := entropy } events := by
  refine ⟨h.toOver, fun hphase => ?_⟩
  obtain ⟨hpast, htalk, hdone, htranscript, hdecrypter, hstream⟩ := h.live hphase
  exact ⟨hpast, htalk, hdone, htranscript, hdecrypter, hstream⟩

/-- Every operation keeps what the events say. -/
theorem Sound.observe (h : Sound connection events) (operation : Operation) :
    Sound (observe (connection, events) operation).1 (observe (connection, events) operation).2 := by
  cases operation with
  | start =>
    by_cases hidle : connection.phase = .idle
    · exact h.start hidle
    · simp only [Connection.observe, hidle, if_false]
      exact h
  | receive b =>
    by_cases hready : connection.phase.isOver = true ∨ connection.phase = .idle
    · simp only [Connection.observe, hready, if_true]
      exact h
    · exact h.receive ⟨fun hidle => hready (.inr hidle), by simpa using fun hover => hready (.inl hover)⟩ b
  | send data => exact h.send data
  | takeOutgoing => exact h.withQueues [] connection.received connection.entropy
  | read =>
    simp only [Connection.observe, operate, Connection.read]
    split
    · exact h
    · exact h.withQueues connection.outgoing _ connection.entropy
  | close => exact h.close
  | abandon => exact ⟨h.toOver, fun hphase => absurd (show true = false from hphase) (by decide)⟩
  | reseed entropy => exact h.withQueues connection.outgoing connection.received entropy

theorem Sound.foldl_observe (h : Sound connection events) (operations : List Operation) :
    Sound (operations.foldl Connection.observe (connection, events)).1
      (operations.foldl Connection.observe (connection, events)).2 := by
  induction operations generalizing connection events with
  | nil => exact h
  | cons operation rest ih => exact ih (h.observe operation)

/-- A connection that has not begun. -/
theorem sound_fresh {side : Side} {session : Session κ} {entropy : Entropy} {version : Version} {identity : Bytes}
    (hterms : session.terms = .start version identity) (hdone : session.handshakeDone = false)
    (htranscript : session.transcript = some []) : Sound (fresh side session entropy) [] := by
  have hpast : Past (fresh side session entropy).view [] :=
    ⟨by simp [Event.exchanged], by simp, by simp, .nil, fun early hearly => by simp [List.prefix_nil.mp hearly, receivedBytes],
      by simp⟩
  refine ⟨hpast.toOver hdone, fun _ => ⟨hpast, ?_, hdone, fun _ => htranscript, by simp, rfl⟩⟩
  show Talk _ .idle [] session.terms
  rw [hterms]
  exact .idle

theorem sound_of_configuration {configuration : Configuration κ} {entropy : Entropy}
    (h : configuration.connection entropy = .ok connection) : Sound connection [] := by
  cases configuration with
  | client settings =>
    obtain rfl := Except.ok.inj h
    rw [ClientSettings.connection]
    split <;> exact sound_fresh rfl rfl rfl
  | server settings =>
    simp only [Configuration.connection, ServerSettings.connection] at h
    split at h
    · cases h
    · obtain rfl := Except.ok.inj h
      exact sound_fresh rfl rfl rfl

/-- What the events of a run say about the connection behind it. -/
theorem sound_run {configuration : Configuration κ} {entropy : Entropy}
    (h : configuration.connection entropy = .ok connection) (operations : List Operation) :
    Sound (connection.run operations) (connection.events operations) := by
  have hsound := (sound_of_configuration h).foldl_observe operations
  rw [fst_foldl_observe] at hsound
  exact hsound

/-- Of the phases in which a connection goes on, only the last has the handshake done. -/
theorem connected_of_handshakeDone {configuration : Configuration κ} {entropy : Entropy}
    (h : configuration.connection entropy = .ok connection) (operations : List Operation)
    (hover : (connection.run operations).phase.isOver = false)
    (hdone : (connection.run operations).session.handshakeDone = true) : (connection.run operations).phase = .connected :=
  of_decide_eq_true (((sound_run h operations).live hover).done.symm.trans hdone)

end Connection

end PresharedTls
