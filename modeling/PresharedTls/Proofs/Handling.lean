import PresharedTls.Proofs.Sound

/-!
# Handling messages soundly

One lemma for each handler: a message that an endpoint waits for moves it along the grammar, and
whatever goes wrong on the way leaves a past that holds. All of them begin with the message taken off
and noted as received.
-/

namespace PresharedTls

variable {κ : Type} {endpoint : Endpoint κ} {events : List Event} {message : HandshakeMessage}

open Endpoint (perform ends_accept ends_readBody ends_onSession)
open Event (spoken)

/-! ### Saying something -/

/-- A message that is sent enters transcript and events, and a failure to send it leaves the past. -/
theorem ends_sendMessage_over {log : List Event} {good : Unit → Endpoint κ × List Event → Prop}
    (hpast : Past endpoint.view log) (hdone : endpoint.session.handshakeDone = false)
    (hsaid : endpoint.session.transcript = some (Event.transcript log))
    (hgood : Past endpoint.view (log ++ [.sent message]) → ∀ encrypter outgoing entropy,
      good () (endpoint.saying (some (Event.transcript (log ++ [.sent message]))) encrypter outgoing entropy,
        log ++ [.sent message])) :
    Ends (perform (.send message) : Recorded κ Unit) (endpoint, log) good fun _ state => Over state.1.view state.2 := by
  refine Recorded.ends_send (fun hframed encrypter outgoing entropy => ?_) fun _ _ _ _ _ => ?_
  · have hsent : Event.transcript (log ++ [.sent message]) = Event.transcript log ++ message.bytes := by
      rw [Event.transcript_concat]
      exact congrArg _ (List.append_nil _)
    have hdone := hgood (hpast.sent hframed) encrypter outgoing entropy
    rw [hsent] at hdone
    rw [hsaid]
    exact hdone
  · rw [Endpoint.view_saying]
    exact hpast.toOver hdone

/-- A Finished is computed over the transcript before it is sent. -/
theorem ends_sendFinished_over {log : List Event} {said : Bytes} {good : Unit → Endpoint κ × List Event → Prop}
    (hpast : Past endpoint.view log) (hdone : endpoint.session.handshakeDone = false)
    (hsaid : endpoint.session.transcript = some said) (hlog : said = Event.transcript log)
    (hset : endpoint.role = .client → SetBy said endpoint.session.terms)
    (hgood : ∀ (verifyData : VerifyData) (tail : List Event), tail = [.computed endpoint.role said verifyData,
      .sent ⟨.finished, verifyData.bytes⟩] → Past endpoint.view (log ++ tail) → ∀ encrypter outgoing entropy,
      good () (endpoint.saying (some (Event.transcript (log ++ tail))) encrypter outgoing entropy, log ++ tail)) :
    Ends (Endpoint.sendFinished : Recorded κ Unit) (endpoint, log) good fun _ state => Over state.1.view state.2 := by
  have hother : endpoint.role ≠ endpoint.view.role.peer := by
    show endpoint.role ≠ endpoint.role.peer
    cases endpoint.role <;> decide
  have hcomputed (verifyData : VerifyData) : Past endpoint.view (log ++ [.computed endpoint.role said verifyData]) :=
    hpast.computed hset fun hpeer => absurd hpeer hother
  rw [Endpoint.sendFinished, Noted.ends_get_bind, ends_bind]
  refine Recorded.ends_compute (fun transcript context verifyData htranscript _ _ => ?_) fun _ => hpast.toOver hdone
  obtain rfl := Option.some.inj (hsaid.symm.trans htranscript)
  refine ends_sendMessage_over (hcomputed verifyData) hdone ?_ fun hsent encrypter outgoing entropy => ?_
  · rw [hsaid, hlog, Event.transcript_concat]
    exact congrArg some (List.append_nil _).symm
  · have hgood := hgood verifyData _ rfl
    rw [List.append_assoc] at hsent ⊢
    exact hgood hsent encrypter outgoing entropy

/-! ### Handlers -/

/-- What is true of an endpoint as it begins to handle a message, and has not said anything yet. -/
structure Begins (message : HandshakeMessage) (endpoint : Endpoint κ) (events : List Event) : Prop where
  past : Past endpoint.view (events ++ [.received message])
  talk : Talk endpoint.role endpoint.phase (spoken events) endpoint.session.terms
  done : endpoint.session.handshakeDone = false
  transcript : endpoint.session.transcript = some (Event.transcript events)
  decrypter : .switched ∈ events → endpoint.session.decrypter.isSome = true

theorem Live.begins (h : Live message.bytes endpoint events)
    (hlength : message.body.length ≤ HandshakeHeader.maximumLength) (hphase : endpoint.phase ≠ .connected) :
    Begins message endpoint events :=
  ⟨(h.takeOff hlength).1, h.talk, h.not_done hphase, h.transcript hphase, h.decrypter⟩

namespace Begins

theorem remembered (h : Begins message endpoint events) :
    endpoint.session.transcript.map (· ++ message.bytes) =
      some (Event.transcript (events ++ [.received message])) := by
  rw [h.transcript, Event.transcript_concat]
  exact congrArg (fun b => some (Event.transcript events ++ b)) (List.append_nil _).symm

theorem toOver (h : Begins message endpoint events) : Over endpoint.view (events ++ [.received message]) :=
  h.past.toOver h.done

theorem withTerms (h : Begins message endpoint events) (terms : Terms)
    (hphase : endpoint.phase = .waitHello ∨ endpoint.phase = .waitKeyExchange) :
    Past { endpoint.view with terms := terms } (events ++ [.received message]) := by
  apply h.past.withTerms terms
  intro said verifyData hmem
  have hspoken : .computed .client said verifyData ∈ spoken events := by
    rw [Event.mem_spoken _ rfl]
    simpa using hmem
  refine h.talk.not_computed ?_ hspoken
  rcases hphase with hphase | hphase
  · exact .inr (.inl hphase)
  · exact .inr (.inr (.inl hphase))

theorem receiveServerHello {offer : ClientOffer} (h : Begins message endpoint events) (hrole : endpoint.role = .client)
    (hphase : endpoint.phase = .waitHello) (htype : message.type = .serverHello) :
    Handles message endpoint events (Endpoint.receiveServerHello offer message) := by
  have htalk := h.talk
  rw [hrole, hphase] at htalk
  rw [Handles, Endpoint.receiveServerHello, ends_bind, Noted.ends_step]
  refine ends_readBody (fun answer hanswer => ?_) h.toOver
  rw [Endpoint.remember, Noted.ends_updateSession_bind, ends_bind, Noted.ends_step]
  refine ends_accept (fun _ _ => ?_) fun _ _ => h.toOver
  obtain ⟨terms, hafter, hterms⟩ := (endpoint.session.addToTranscript message.bytes).applyServerHello_eq answer
  have hpast := h.withTerms terms (.inl hphase)
  rw [ends_bind, Noted.ends_step]
  refine ends_onSession (fun _ hok => ?_) fun _ _ => ?_
  · have hserverHello := Talk.serverHello htalk htype hanswer (hterms hok)
    rw [hafter]
    refine ⟨[], (List.append_nil _).symm, by simp, ?_, ?_, h.done, fun _ => ?_, rfl, rfl⟩
    · rw [List.append_nil]
      exact hpast
    · rw [← hrole] at hserverHello
      exact hserverHello
    · rw [List.append_nil]
      exact h.remembered
  · rw [hafter]
    exact hpast.toOver h.done

theorem receiveIdentityHint (h : Begins message endpoint events) (hrole : endpoint.role = .client)
    (hphase : endpoint.phase = .waitKeyExchange) (htype : message.type = .serverKeyExchange) :
    Handles message endpoint events (Endpoint.receiveIdentityHint message) := by
  have htalk := h.talk
  rw [hrole, hphase] at htalk
  rw [Handles, Endpoint.receiveIdentityHint, ends_bind, Noted.ends_step]
  refine ends_readBody (fun hint _ => ?_) h.toOver
  have hidentityHint := Talk.identityHint htalk htype
  refine ⟨[], (List.append_nil _).symm, by simp, ?_, ?_, h.done, fun _ => ?_, rfl, rfl⟩
  · rw [List.append_nil]
    exact h.past
  · rw [← hrole] at hidentityHint
    exact hidentityHint
  · rw [List.append_nil]
    exact h.remembered

theorem receiveIdentity {policy : ServerPolicy} (h : Begins message endpoint events) (hrole : endpoint.role = .server)
    (hphase : endpoint.phase = .waitKeyExchange) (htype : message.type = .clientKeyExchange) :
    Handles message endpoint events (Endpoint.receiveIdentity policy message) := by
  have htalk := h.talk
  rw [hrole, hphase] at htalk
  rw [Handles, Endpoint.receiveIdentity, ends_bind, Noted.ends_step]
  refine ends_readBody (fun identity hidentity => ?_) h.toOver
  rw [Endpoint.remember, Noted.ends_updateSession_bind]
  cases policy.resolve identity with
  | none => exact h.toOver
  | some key =>
    have hnext := Talk.identity htalk htype hidentity
    refine ⟨[], (List.append_nil _).symm, by simp, ?_, ?_, h.done, fun _ => ?_, rfl, rfl⟩
    · rw [List.append_nil]
      exact h.withTerms (endpoint.session.terms.withIdentity identity) (.inr hphase)
    · rw [← hrole] at hnext
      exact hnext
    · rw [List.append_nil]
      exact h.remembered

/-- A client's Finished is computed over the messages that set its terms. -/
theorem setBy_client (h : Begins message endpoint events) (hrole : endpoint.role = .client)
    (hphase : endpoint.phase = .waitKeyExchange ∨ endpoint.phase = .waitHelloDone) {body : Bytes}
    (hbody : KeyIdentity.body endpoint.session.identity = .ok body)
    (hpast : Past endpoint.view (events ++ [.received message] ++ [.sent ⟨.clientKeyExchange, body⟩])) :
    SetBy (Event.transcript (events ++ [.received message] ++ [.sent ⟨.clientKeyExchange, body⟩])) endpoint.session.terms := by
  have htalk := h.talk
  rw [hrole] at htalk
  have hsets := htalk.sets_client message hphase hbody
  refine ⟨_, rfl, hpast.framed, ?_⟩
  rw [List.append_assoc, Event.exchanged_append, ← Event.exchanged_spoken, ← Event.exchanged_append]
  exact hsets

theorem handled {tail : List Event} {phase : Phase} {said : Bytes} {encrypter : Option κ} {outgoing : List Record}
    {entropy : Entropy} (hdone : endpoint.session.handshakeDone = false) (hown : ∀ event ∈ tail, event.IsOwn)
    (hpast : Past endpoint.view (events ++ [.received message] ++ tail))
    (htalk : Talk endpoint.role phase (spoken events ++ (.received message :: (tail ++ [.accepted message])))
      endpoint.session.terms)
    (hsaid : said = Event.transcript (events ++ [.received message] ++ tail)) (hphase : phase ≠ .connected) :
    Handled message endpoint events tail ((endpoint.saying (some said) encrypter outgoing entropy).entering phase) := by
  refine ⟨hown, hpast, htalk, ?_, fun _ => ?_, rfl, rfl⟩
  · exact hdone.trans (decide_eq_false hphase).symm
  · exact congrArg some hsaid

theorem receiveServerHelloDone (h : Begins message endpoint events) (hrole : endpoint.role = .client)
    (hphase : endpoint.phase = .waitKeyExchange ∨ endpoint.phase = .waitHelloDone)
    (htype : message.type = .serverHelloDone) :
    Handles message endpoint events (Endpoint.receiveServerHelloDone message) := by
  have htalk := h.talk
  rw [hrole] at htalk
  rw [Handles, Endpoint.receiveServerHelloDone]
  apply Noted.ends_guard (fun _ => h.toOver)
  intro _
  rw [ends_bind, Noted.ends_step]
  show Ends _ ({ endpoint with session := endpoint.session.addToTranscript message.bytes }, _) _ _
  rw [Endpoint.remember_eq, Noted.ends_get_bind, ends_bind, Noted.ends_step, Endpoint.identity_saying,
    h.remembered]
  refine ends_accept (fun body hbody => ?_) fun _ _ => h.toOver
  rw [ends_bind]
  refine ends_sendMessage_over h.past h.done rfl fun hpast _ _ _ => ?_
  rw [ends_bind, Endpoint.saying_saying]
  refine Recorded.ends_sendChangeCipherSpec (fun _ _ _ => ?_) fun _ _ _ _ => ?_
  · rw [Endpoint.sending_saying, ends_bind]
    refine ends_sendFinished_over hpast h.done rfl rfl (fun _ => h.setBy_client hrole hphase hbody hpast) ?_
    rintro verifyData tail htail hfinished _ _ _
    apply Recorded.ends_enter
    rw [Endpoint.saying_saying]
    rw [Endpoint.role_saying, hrole] at htail
    rw [Endpoint.view_saying, List.append_assoc (events ++ _)] at hfinished
    rw [List.append_assoc (events ++ _)]
    refine ⟨_, rfl, handled h.done (by simp [htail, Event.IsOwn]) hfinished ?_ rfl (by decide)⟩
    have hnext := Talk.helloDone verifyData htalk hphase htype hbody rfl
    rw [hrole, htail, List.append_assoc events, Event.transcript_append, ← Event.transcript_spoken events,
      ← Event.transcript_append]
    rw [List.append_assoc] at hnext
    exact hnext
  · rw [Endpoint.sending_saying, Endpoint.view_saying]
    exact hpast.toOver h.done

theorem sendAnswer (answered : Endpoint κ) {answerBody : Bytes} (hint : Except AlertDescription Bytes)
    (hdone : answered.session.handshakeDone = false)
    (hpast : Past answered.view (events ++ [.received message]))
    (hsaid : answered.session.transcript = some (Event.transcript (events ++ [.received message])))
    (htalk : ∀ hintBody, Talk answered.role .waitKeyExchange (spoken events ++ [.received message,
      .sent ⟨.serverHello, answerBody⟩, .sent ⟨.serverKeyExchange, hintBody⟩, .sent ⟨.serverHelloDone, []⟩,
      .accepted message]) answered.session.terms) :
    Handles message answered events (do
      perform (.send ⟨.serverHello, answerBody⟩)
      let hintBody ← Endpoint.step (Endpoint.accept hint)
      perform (.send ⟨.serverKeyExchange, hintBody⟩)
      perform (.send ⟨.serverHelloDone, []⟩)
      perform (.enter .waitKeyExchange)) := by
  rw [Handles, ends_bind]
  apply ends_sendMessage_over hpast hdone hsaid
  intro hpast _ _ _
  rw [ends_bind, Noted.ends_step]
  refine ends_accept (fun hintBody _ => ?_) fun _ _ => ?_
  · rw [ends_bind]
    refine ends_sendMessage_over hpast hdone rfl fun hpast _ _ _ => ?_
    rw [ends_bind, Endpoint.saying_saying]
    refine ends_sendMessage_over hpast hdone rfl fun hpast _ _ _ => ?_
    apply Recorded.ends_enter
    rw [Endpoint.saying_saying]
    have htail : events ++ [.received message] ++ [.sent ⟨.serverHello, answerBody⟩] ++
        [.sent ⟨.serverKeyExchange, hintBody⟩] ++ [.sent ⟨.serverHelloDone, []⟩] =
        events ++ [.received message] ++ [.sent ⟨.serverHello, answerBody⟩, .sent ⟨.serverKeyExchange, hintBody⟩,
          .sent ⟨.serverHelloDone, []⟩] := by simp
    rw [htail] at hpast ⊢
    exact ⟨_, rfl, handled hdone (by simp [Event.IsOwn]) hpast (htalk hintBody) rfl (by decide)⟩
  · rw [Endpoint.view_saying]
    exact hpast.toOver hdone

theorem receiveClientHello {policy : ServerPolicy} (h : Begins message endpoint events) (hrole : endpoint.role = .server)
    (hphase : endpoint.phase = .waitHello) (htype : message.type = .clientHello) :
    Handles message endpoint events (Endpoint.receiveClientHello policy message) := by
  have htalk := h.talk
  rw [hrole, hphase] at htalk
  rw [Handles, Endpoint.receiveClientHello, ends_bind, Noted.ends_step]
  refine ends_readBody (fun hello hhello => ?_) h.toOver
  rw [ends_bind, Noted.ends_step]
  show Ends _ ({ endpoint with session := endpoint.session.addToTranscript message.bytes }, _) _ _
  rw [Noted.ends_get_bind, ends_bind, Noted.ends_step]
  refine ends_accept (fun chosen _ => ?_) fun _ _ => h.toOver
  obtain ⟨answer, entropy⟩ := chosen
  obtain ⟨session, hsession⟩ : ∃ session : Session κ, session =
      (endpoint.session.addToTranscript message.bytes).withClientRandom hello.random := ⟨_, rfl⟩
  obtain ⟨terms, hafter, hterms⟩ := session.applyServerHello_eq answer
  have hpast := h.withTerms terms (.inl hphase)
  rw [ends_bind, Noted.ends_step]
  show Ends _ ({ endpoint with
    session := endpoint.session.addToTranscript message.bytes, entropy := entropy }, _) _ _
  rw [ends_bind, Noted.ends_step]
  show Ends _ ({ endpoint with
    session := (endpoint.session.addToTranscript message.bytes).withClientRandom hello.random, entropy := entropy }, _) _ _
  rw [← hsession, ends_bind, Noted.ends_step]
  refine ends_onSession (fun _ hok => ?_) fun _ _ => ?_
  · rw [ends_bind, Noted.ends_step, hafter, hsession]
    refine ends_accept (fun answerBody hbytes => ?_) fun _ _ => ?_
    · have hanswered : (endpoint.session.terms.withClientRandom hello.random).answered answer = some terms := by
        have hsame : session.terms = endpoint.session.terms.withClientRandom hello.random := by
          rw [hsession]
          rfl
        rw [← hsame]
        exact hterms hok
      have hnext (hintBody : Bytes) := Talk.answered hintBody htalk htype hhello hbytes hanswered
      have hanswer := sendAnswer { endpoint with
          session := ((endpoint.session.addToTranscript message.bytes).withClientRandom hello.random).withTerms terms
          entropy := entropy } (KeyIdentity.body policy.identityHint) h.done hpast h.remembered (hrole ▸ hnext)
      refine hanswer.mono ?_ fun _ _ => id
      rintro _ state ⟨tail, htail, hhandled⟩
      exact ⟨tail, htail, hhandled.own, hhandled.past, hhandled.talk, hhandled.done, hhandled.transcript,
        hhandled.decrypter, hhandled.handshake⟩
    · exact hpast.toOver h.done
  · rw [hafter, hsession]
    exact hpast.toOver h.done

/-- A server checks the client's Finished over the messages that set its terms. -/
theorem setBy_server (h : Begins message endpoint events) (hphase : endpoint.phase = .waitFinished)
    (hrole : endpoint.role = .server) : SetBy (Event.transcript events) endpoint.session.terms := by
  have htalk := h.talk
  rw [hrole, hphase] at htalk
  have hsets := htalk.sets_server_switched
  rw [Event.exchanged_spoken] at hsets
  refine ⟨_, rfl, fun other hmem => h.past.framed other ?_, hsets⟩
  rw [Event.exchanged_append]
  exact List.mem_append_left _ hmem

/-- A Finished that is right is noted with the verify data it was compared with. -/
theorem receiveFinished (h : Begins message endpoint events) (hphase : endpoint.phase = .waitFinished)
    (htype : message.type = .finished) {good : Unit → Endpoint κ × List Event → Prop}
    (hgood : ∀ (verifyData : VerifyData), message = ⟨.finished, verifyData.bytes⟩ →
      Past endpoint.view (events ++ [.received message] ++
        [.computed endpoint.role.peer (Event.transcript events) verifyData]) → ∀ encrypter outgoing entropy,
      good () (endpoint.saying (some (Event.transcript (events ++ [.received message]))) encrypter outgoing entropy,
        events ++ [.received message] ++ [.computed endpoint.role.peer (Event.transcript events) verifyData])) :
    Ends (Endpoint.receiveFinished message : Recorded κ Unit) (endpoint, events ++ [.received message]) good
      fun _ state => Over state.1.view state.2 := by
  have hdecrypter : endpoint.session.decrypter.isSome = true := by
    have htalk := h.talk
    rw [hphase] at htalk
    exact h.decrypter ((Event.mem_spoken _ rfl).mp htalk.switched_mem)
  rw [Endpoint.receiveFinished, ends_bind, Noted.ends_step]
  refine ends_readBody (fun received hreceived => ?_) h.toOver
  have hbody := FixedBytes.eq_of_ofBytes? hreceived
  rw [Noted.ends_get_bind, ends_bind]
  refine Recorded.ends_compute (fun transcript context verifyData htranscript hcontext hverify => ?_) fun _ => h.toOver
  obtain rfl := Option.some.inj (h.transcript.symm.trans htranscript)
  obtain ⟨decrypter, hsome⟩ := Option.isSome_iff_exists.mp hdecrypter
  rw [hsome, Option.some_or, Option.some.injEq] at hcontext
  subst hcontext
  have hset (hpeer : endpoint.role.peer = .client) : SetBy (Event.transcript events) endpoint.view.terms := by
    have hserver : endpoint.role = .server := by
      revert hpeer
      cases endpoint.role <;> decide
    exact h.setBy_server hphase hserver
  have hpast : Past endpoint.view (events ++ [.received message] ++
      [.computed endpoint.role.peer (Event.transcript events) verifyData]) :=
    h.past.computed hset fun _ => ⟨decrypter, decrypter, hsome, .refl, hverify⟩
  apply Noted.ends_guard (fun _ => hpast.toOver h.done)
  intro hequal
  have hmessage : message = ⟨.finished, verifyData.bytes⟩ := by
    rw [show verifyData = received from Decidable.of_not_not hequal, ← htype, ← hbody]
  have hdone := hgood verifyData hmessage hpast endpoint.session.encrypter endpoint.outgoing endpoint.entropy
  rw [← h.remembered] at hdone
  exact hdone

theorem finished {tail : List Event} {said : Option Bytes} {encrypter : Option κ} {outgoing : List Record}
    {entropy : Entropy} (hown : ∀ event ∈ tail, event.IsOwn) (hpast : Past endpoint.view (events ++ [.received message] ++ tail))
    (htalk : Talk endpoint.role .connected (spoken events ++ (.received message :: (tail ++ [.accepted message])))
      endpoint.session.terms) :
    Ends (Endpoint.finish : Recorded κ Unit)
      (endpoint.saying said encrypter outgoing entropy, events ++ [.received message] ++ tail)
      (fun _ state => ∃ tail, state.2 = events ++ [.received message] ++ tail ∧
        Handled message endpoint events tail state.1)
      fun _ state => Over state.1.view state.2 := by
  rw [Endpoint.finish, ends_bind, Noted.ends_perform]
  refine ⟨tail, rfl, hown, hpast.withDone true, htalk, rfl, fun hphase => ?_, rfl, rfl⟩
  exact absurd rfl hphase

theorem receiveServerFinished (h : Begins message endpoint events) (hrole : endpoint.role = .client)
    (hphase : endpoint.phase = .waitFinished) (htype : message.type = .finished) :
    Handles message endpoint events (do
      Endpoint.receiveFinished message
      Endpoint.finish) := by
  have htalk := h.talk
  rw [hrole, hphase] at htalk
  rw [Handles, ends_bind]
  apply h.receiveFinished hphase htype
  intro verifyData hmessage hpast _ _ _
  apply finished (by simp [Event.IsOwn]) hpast
  have hnext := Talk.serverFinished htalk hmessage
  rw [Event.transcript_spoken] at hnext
  rw [hrole]
  exact hnext

theorem receiveClientFinished (h : Begins message endpoint events) (hrole : endpoint.role = .server)
    (hphase : endpoint.phase = .waitFinished) (htype : message.type = .finished) :
    Handles message endpoint events (do
      Endpoint.receiveFinished message
      Endpoint.sendChangeCipherSpec
      Endpoint.sendFinished
      Endpoint.finish) := by
  have htalk := h.talk
  rw [hrole, hphase] at htalk
  rw [Handles, ends_bind]
  apply h.receiveFinished hphase htype
  intro verifyData hmessage hpast _ _ _
  rw [ends_bind]
  refine Recorded.ends_sendChangeCipherSpec (fun _ _ _ => ?_) fun _ _ _ _ => ?_
  · rw [Endpoint.sending_saying, ends_bind]
    have hcontrary : endpoint.role ≠ .client := by simp [hrole]
    have hsaid : Event.transcript (events ++ [.received message]) = Event.transcript (events ++ [.received message] ++
        [.computed endpoint.role.peer (Event.transcript events) verifyData]) := by
      rw [Event.transcript_concat (events ++ _)]
      exact (List.append_nil _).symm
    refine ends_sendFinished_over hpast h.done rfl hsaid (fun hclient => absurd hclient hcontrary) ?_
    rintro own tail htail hfinished _ _ _
    rw [Endpoint.view_saying, List.append_assoc (events ++ _)] at hfinished
    rw [Endpoint.saying_saying, List.append_assoc (events ++ _)]
    rw [Endpoint.role_saying] at htail
    apply finished (by simp [htail, Event.IsOwn]) hfinished
    have hnext := Talk.clientFinished own htalk hmessage
    rw [Event.transcript_append, Event.transcript_spoken, ← Event.transcript_append] at hnext
    rw [htail, hrole]
    exact hnext
  · rw [Endpoint.sending_saying, Endpoint.view_saying]
    exact hpast.toOver h.done

end Begins

end PresharedTls
