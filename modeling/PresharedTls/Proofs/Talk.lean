import PresharedTls.Proofs.Codec.Hello
import PresharedTls.Proofs.Codec.Messages
import PresharedTls.Proofs.History
import PresharedTls.Proofs.Terms

/-!
# How a handshake goes

The events of a handshake, and the terms they set, as a grammar: `Talk` says for each phase by which
events an endpoint can have come there. Everything that depends on the order of messages is read off
this grammar. What records look like does not enter it.
-/

namespace PresharedTls

/-! ### Parts of a history -/

namespace Event

def exchanged? : Event → Option HandshakeMessage
  | received message | sent message => some message
  | _ => none

def received? : Event → Option HandshakeMessage
  | received message => some message
  | _ => none

/-- What a record adds to the incoming handshake bytes. -/
def handshakePart : Event → Bytes
  | opened typeCode plaintext _ => if ContentType.ofCode? typeCode = some .handshake then plaintext else []
  | _ => []

/-- All but the records. -/
def isSpoken : Event → Bool
  | opened .. => false
  | _ => true

/-- What the peer did that was accepted: a message of some type, or the switch to its keys. -/
inductive Milestone where
  | message (type : HandshakeType)
  | changeCipherSpec
  deriving DecidableEq

def milestone? : Event → Option Milestone
  | accepted message => some (.message message.type)
  | switched => some .changeCipherSpec
  | _ => none

def milestones (events : List Event) : List Milestone :=
  events.filterMap milestone?

def exchanged (events : List Event) : List HandshakeMessage :=
  events.filterMap exchanged?

/-- The framed messages that were sent and received, in the order in which that happened. -/
def transcript (events : List Event) : Bytes :=
  (exchanged events).flatMap HandshakeMessage.bytes

def receivedBytes (events : List Event) : Bytes :=
  (events.filterMap received?).flatMap HandshakeMessage.bytes

def handshakeBytes (events : List Event) : Bytes :=
  events.flatMap handshakePart

def spoken (events : List Event) : List Event :=
  events.filter isSpoken

variable (first second events : List Event)

@[simp] theorem exchanged_nil : exchanged [] = [] := rfl

@[simp] theorem milestones_nil : milestones [] = [] := rfl

theorem exchanged_cons (event : Event) : exchanged (event :: events) = event.exchanged?.toList ++ exchanged events := by
  cases event <;> rfl

theorem milestones_cons (event : Event) : milestones (event :: events) = event.milestone?.toList ++ milestones events := by
  cases event <;> rfl

@[simp] theorem exchanged_append : exchanged (first ++ second) = exchanged first ++ exchanged second :=
  List.filterMap_append

@[simp] theorem milestones_append : milestones (first ++ second) = milestones first ++ milestones second :=
  List.filterMap_append

@[simp] theorem transcript_append : transcript (first ++ second) = transcript first ++ transcript second := by
  rw [transcript, exchanged_append, List.flatMap_append]
  rfl

@[simp] theorem receivedBytes_append : receivedBytes (first ++ second) = receivedBytes first ++ receivedBytes second := by
  rw [receivedBytes, List.filterMap_append, List.flatMap_append]
  rfl

@[simp] theorem handshakeBytes_append :
    handshakeBytes (first ++ second) = handshakeBytes first ++ handshakeBytes second :=
  List.flatMap_append

theorem transcript_concat (event : Event) : transcript (events ++ [event]) =
    transcript events ++ event.exchanged?.toList.flatMap HandshakeMessage.bytes := by
  rw [transcript_append]
  cases event <;> rfl

theorem receivedBytes_concat (event : Event) : receivedBytes (events ++ [event]) =
    receivedBytes events ++ event.received?.toList.flatMap HandshakeMessage.bytes := by
  rw [receivedBytes_append]
  cases event <;> rfl

theorem handshakeBytes_concat (event : Event) :
    handshakeBytes (events ++ [event]) = handshakeBytes events ++ event.handshakePart := by
  rw [handshakeBytes_append]
  exact congrArg _ (List.append_nil _)

@[simp] theorem spoken_append : spoken (first ++ second) = spoken first ++ spoken second :=
  List.filter_append first second

@[simp] theorem exchanged_spoken : exchanged (spoken events) = exchanged events := by
  rw [exchanged, spoken, List.filterMap_filter]
  congr
  funext event
  cases event <;> rfl

@[simp] theorem milestones_spoken : milestones (spoken events) = milestones events := by
  rw [milestones, spoken, List.filterMap_filter]
  congr
  funext event
  cases event <;> rfl

@[simp] theorem transcript_spoken : transcript (spoken events) = transcript events := by
  rw [transcript, exchanged_spoken]
  rfl

theorem receivedBytes_spoken : receivedBytes (spoken events) = receivedBytes events := by
  rw [receivedBytes, spoken, List.filterMap_filter, receivedBytes]
  congr
  funext event
  cases event <;> rfl

theorem mem_spoken {event : Event} (h : event.isSpoken = true) : event ∈ spoken events ↔ event ∈ events := by
  rw [spoken, List.mem_filter, h]
  exact and_iff_left rfl

end Event

open Event (exchanged transcript)

/-! ### Terms set by messages -/

/-- The messages up to a client's key exchange, and the terms they set. -/
inductive Sets : List HandshakeMessage → Terms → Prop
  | intro {clientHello serverHello clientKeyExchange : HandshakeMessage} (between : List HandshakeMessage)
      {version : Version} {own identity : Bytes} {hello : ClientHello} {answer : ServerHello} {answered : Terms} :
      ClientHello.ofBytes? clientHello.body = some hello →
      ServerHello.ofBytes? serverHello.body = some answer →
      ((Terms.start version own).withClientRandom hello.random).answered answer = some answered →
      KeyIdentity.ofBody? clientKeyExchange.body = some identity →
      Sets (clientHello :: serverHello :: (between ++ [clientKeyExchange])) (answered.withIdentity identity)

/-- The same messages set the same terms, whichever end they are looked at from. -/
theorem Sets.unique {messages : List HandshakeMessage} {terms terms' : Terms} (h : Sets messages terms)
    (h' : Sets messages terms') : terms = terms' := by
  generalize hmessages : messages = messages' at h'
  obtain ⟨between, hhello, hanswer, hanswered, hidentity⟩ := h
  obtain ⟨between', hhello', hanswer', hanswered', hidentity'⟩ := h'
  simp only [List.cons.injEq] at hmessages
  obtain ⟨rfl, rfl, htail⟩ := hmessages
  obtain ⟨rfl, hlast⟩ := List.append_inj' htail rfl
  obtain rfl := List.singleton_inj.mp hlast
  obtain rfl := Option.some.inj (hhello.symm.trans hhello')
  obtain rfl := Option.some.inj (hanswer.symm.trans hanswer')
  obtain rfl := Option.some.inj (hidentity.symm.trans hidentity')
  rw [← Terms.answered_start hanswered hanswered']
  rfl

/-! ### Courses of a handshake -/

/-- What an endpoint accepts from its peer in a whole handshake. A server may leave out the hint. -/
def Role.course (hinted : Bool) : Role → List Event.Milestone
  | .client => [.message .serverHello] ++ (if hinted then [.message .serverKeyExchange] else []) ++
      [.message .serverHelloDone, .changeCipherSpec, .message .finished]
  | .server => [.message .clientHello, .message .clientKeyExchange, .changeCipherSpec, .message .finished]

/-- The messages that go either way before the Finished that an endpoint receives. -/
def Role.conversation (hinted : Bool) : Role → List HandshakeType
  | .client => [.clientHello, .serverHello] ++ (if hinted then [.serverKeyExchange] else []) ++
      [.serverHelloDone, .clientKeyExchange, .finished]
  | .server => [.clientHello, .serverHello, .serverKeyExchange, .serverHelloDone, .clientKeyExchange]

/-! ### The grammar -/

/-- The events, records aside, by which an endpoint comes to a phase, and the terms it has there. -/
inductive Talk : Role → Phase → List Event → Terms → Prop
  | idle {role : Role} {version : Version} {identity : Bytes} : Talk role .idle [] (.start version identity)
  | clientHello {terms : Terms} {hello : ClientHello} {body : Bytes} : Talk .client .idle [] terms →
      hello.bytes = .ok body →
      Talk .client .waitHello [.sent ⟨.clientHello, body⟩] (terms.withClientRandom hello.random)
  | listening {terms : Terms} : Talk .server .idle [] terms → Talk .server .waitHello [] terms
  | serverHello {events : List Event} {terms after : Terms} {message : HandshakeMessage} {answer : ServerHello} :
      Talk .client .waitHello events terms → message.type = .serverHello →
      ServerHello.ofBytes? message.body = some answer → terms.answered answer = some after →
      Talk .client .waitKeyExchange (events ++ [.received message, .accepted message]) after
  | identityHint {events : List Event} {terms : Terms} {message : HandshakeMessage} :
      Talk .client .waitKeyExchange events terms → message.type = .serverKeyExchange →
      Talk .client .waitHelloDone (events ++ [.received message, .accepted message]) terms
  | helloDone {phase : Phase} {events said : List Event} {terms : Terms} {message : HandshakeMessage} {body : Bytes}
      (verifyData : VerifyData) :
      Talk .client phase events terms → phase = .waitKeyExchange ∨ phase = .waitHelloDone →
      message.type = .serverHelloDone → KeyIdentity.body terms.identity = .ok body →
      said = events ++ [.received message, .sent ⟨.clientKeyExchange, body⟩] →
      Talk .client .waitChangeCipher
        (said ++ [.computed .client (transcript said) verifyData, .sent ⟨.finished, verifyData.bytes⟩,
          .accepted message]) terms
  | answered {events : List Event} {terms after : Terms} {message : HandshakeMessage} {hello : ClientHello}
      {answer : ServerHello} {answerBody : Bytes} (hintBody : Bytes) :
      Talk .server .waitHello events terms → message.type = .clientHello →
      ClientHello.ofBytes? message.body = some hello → answer.bytes = .ok answerBody →
      (terms.withClientRandom hello.random).answered answer = some after →
      Talk .server .waitKeyExchange
        (events ++ [.received message, .sent ⟨.serverHello, answerBody⟩, .sent ⟨.serverKeyExchange, hintBody⟩,
          .sent ⟨.serverHelloDone, []⟩, .accepted message]) after
  | identity {events : List Event} {terms : Terms} {message : HandshakeMessage} {identity : Bytes} :
      Talk .server .waitKeyExchange events terms → message.type = .clientKeyExchange →
      KeyIdentity.ofBody? message.body = some identity →
      Talk .server .waitChangeCipher (events ++ [.received message, .accepted message]) (terms.withIdentity identity)
  | switched {role : Role} {events : List Event} {terms : Terms} :
      Talk role .waitChangeCipher events terms → Talk role .waitFinished (events ++ [.switched]) terms
  | serverFinished {events : List Event} {terms : Terms} {verifyData : VerifyData} {message : HandshakeMessage} :
      Talk .client .waitFinished events terms → message = ⟨.finished, verifyData.bytes⟩ →
      Talk .client .connected
        (events ++ [.received message, .computed .server (transcript events) verifyData, .accepted message]) terms
  | clientFinished {events : List Event} {terms : Terms} {verifyData : VerifyData} {message : HandshakeMessage}
      (own : VerifyData) :
      Talk .server .waitFinished events terms → message = ⟨.finished, verifyData.bytes⟩ →
      Talk .server .connected
        (events ++ [.received message, .computed .client (transcript events) verifyData,
          .computed .server (transcript (events ++ [.received message])) own, .sent ⟨.finished, own.bytes⟩,
          .accepted message]) terms

namespace Talk

variable {role : Role} {phase : Phase} {events : List Event} {terms : Terms}

theorem not_computed (h : Talk role phase events terms) {sender : Role} {said : Bytes} {verifyData : VerifyData}
    (hphase : phase = .idle ∨ phase = .waitHello ∨ phase = .waitKeyExchange ∨ phase = .waitHelloDone) :
    .computed sender said verifyData ∉ events := by
  induction h with
  | idle => simp
  | clientHello => simp
  | listening => simp
  | serverHello _ _ _ _ ih => simpa using ih (by simp)
  | identityHint _ _ ih => simpa using ih (by simp)
  | answered _ _ _ _ _ _ ih => simpa using ih (by simp)
  | _ => simp at hphase

theorem events_of_idle (h : Talk role .idle events terms) : events = [] := by
  cases h
  rfl

theorem switched_mem (h : Talk role .waitFinished events terms) : .switched ∈ events := by
  cases h with
  | switched => simp

/-! ### From the first message to the Finished that is received -/

theorem client_waitKeyExchange (h : Talk .client .waitKeyExchange events terms) :
    ∃ (version : Version) (own : Bytes) (hello : ClientHello) (body : Bytes) (message : HandshakeMessage)
      (answer : ServerHello),
      events = [.sent ⟨.clientHello, body⟩, .received message, .accepted message] ∧
      hello.bytes = .ok body ∧ message.type = .serverHello ∧ ServerHello.ofBytes? message.body = some answer ∧
      ((Terms.start version own).withClientRandom hello.random).answered answer = some terms := by
  cases h with
  | serverHello hwait htype hanswer hanswered =>
    cases hwait with
    | clientHello hidle hhello =>
      cases hidle with
      | idle => exact ⟨_, _, _, _, _, _, rfl, hhello, htype, hanswer, hanswered⟩

/-- A server may send a hint at the identity before the end of its hello messages, or none. -/
theorem client_beforeHelloDone (h : Talk .client phase events terms)
    (hphase : phase = .waitKeyExchange ∨ phase = .waitHelloDone) :
    ∃ (opening : List Event) (hint : Option HandshakeMessage), Talk .client .waitKeyExchange opening terms ∧
      (∀ message ∈ hint, message.type = .serverKeyExchange) ∧
      events = opening ++ hint.toList.flatMap fun message => [.received message, .accepted message] := by
  rcases hphase with rfl | rfl
  · exact ⟨events, none, h, by simp, by simp⟩
  · cases h with
    | @identityHint opening _ message hopening htype =>
      refine ⟨opening, some message, hopening, fun other mem => ?_, rfl⟩
      obtain rfl := Option.mem_some.mp mem
      exact htype

theorem server_waitKeyExchange (h : Talk .server .waitKeyExchange events terms) :
    ∃ (version : Version) (own : Bytes) (message : HandshakeMessage) (hello : ClientHello) (answer : ServerHello)
      (answerBody hintBody : Bytes),
      events = [.received message, .sent ⟨.serverHello, answerBody⟩, .sent ⟨.serverKeyExchange, hintBody⟩,
        .sent ⟨.serverHelloDone, []⟩, .accepted message] ∧
      message.type = .clientHello ∧ ClientHello.ofBytes? message.body = some hello ∧ answer.bytes = .ok answerBody ∧
      ((Terms.start version own).withClientRandom hello.random).answered answer = some terms := by
  cases h with
  | answered hintBody hwait htype hhello hbytes hanswered =>
    cases hwait with
    | listening hidle =>
      cases hidle with
      | idle => exact ⟨_, _, _, _, _, _, _, rfl, htype, hhello, hbytes, hanswered⟩

theorem sets_client (message : HandshakeMessage) {body : Bytes} (h : Talk .client phase events terms)
    (hphase : phase = .waitKeyExchange ∨ phase = .waitHelloDone) (hbody : KeyIdentity.body terms.identity = .ok body) :
    Sets (exchanged (events ++ [.received message, .sent ⟨.clientKeyExchange, body⟩])) terms := by
  obtain ⟨opening, hint, hopening, -, rfl⟩ := client_beforeHelloDone h hphase
  obtain ⟨version, own, hello, helloBody, answerMessage, answer, rfl, hhello, -, hanswer, hanswered⟩ :=
    client_waitKeyExchange hopening
  have hsets : Sets (⟨.clientHello, helloBody⟩ :: answerMessage :: ((hint.toList ++ [message]) ++
      [⟨.clientKeyExchange, body⟩])) (terms.withIdentity terms.identity) :=
    .intro _ (ClientHello.ofBytes?_bytes hhello) hanswer hanswered (KeyIdentity.ofBody?_body hbody)
  cases hint <;> exact hsets

theorem sets_server (h : Talk .server .waitChangeCipher events terms) : Sets (exchanged events) terms := by
  cases h with
  | @identity opening _ message _ hopening _ hidentity =>
    obtain ⟨version, own, helloMessage, hello, answer, answerBody, hintBody, rfl, -, hhello, hbytes, hanswered⟩ :=
      server_waitKeyExchange hopening
    exact .intro [⟨.serverKeyExchange, hintBody⟩, ⟨.serverHelloDone, []⟩] hhello (ServerHello.ofBytes?_bytes hbytes)
      hanswered hidentity

theorem sets_server_switched (h : Talk .server .waitFinished events terms) : Sets (exchanged events) terms := by
  cases h with
  | switched htalk =>
    rw [Event.exchanged_append]
    exact (List.append_nil _).symm ▸ sets_server htalk

/-- A client that has taken leave has computed its verify data over all that came before its Finished. -/
theorem computed_of_client (h : Talk .client .waitChangeCipher events terms) :
    ∃ said own, .computed .client said own ∈ events ∧
      transcript events = said ++ (HandshakeMessage.mk .finished own.bytes).bytes := by
  cases h with
  | @helloDone _ before said _ message body verifyData hbefore hphase htype hbody hsaid =>
    refine ⟨transcript said, verifyData, by simp, ?_⟩
    rw [Event.transcript_append]
    exact congrArg (transcript said ++ ·) (List.append_nil _)

/-- What was said before the peer switches to its keys, if the handshake goes on to its end. -/
theorem waitChangeCipher (h : Talk role .waitChangeCipher events terms) :
    ∃ hinted : Bool, (exchanged events).map (·.type) = role.conversation hinted ∧
      Event.milestones events ++ [.changeCipherSpec, .message .finished] = role.course hinted := by
  cases h with
  | helloDone verifyData hbefore hphase htype hbody hsaid =>
    subst hsaid
    obtain ⟨opening, hint, hopening, hhint, rfl⟩ := client_beforeHelloDone hbefore hphase
    obtain ⟨version, own, hello, helloBody, answerMessage, answer, rfl, -, hanswer, -, -⟩ :=
      client_waitKeyExchange hopening
    cases hint with
    | none =>
      refine ⟨false, ?_, ?_⟩
      · simp [Event.exchanged_cons, Event.exchanged?, Role.conversation, hanswer, htype]
      · simp [Event.milestones_cons, Event.milestone?, Role.course, hanswer, htype]
    | some hint =>
      have hhintType : hint.type = .serverKeyExchange := hhint hint rfl
      refine ⟨true, ?_, ?_⟩
      · simp [Event.exchanged_cons, Event.exchanged?, Role.conversation, hanswer, htype, hhintType]
      · simp [Event.milestones_cons, Event.milestone?, Role.course, hanswer, htype, hhintType]
  | identity hopening htype hidentity =>
    obtain ⟨version, own, helloMessage, hello, answer, answerBody, hintBody, rfl, hhello, -, -, -⟩ :=
      server_waitKeyExchange hopening
    refine ⟨true, ?_, ?_⟩
    · simp [Event.exchanged_cons, Event.exchanged?, Role.conversation, hhello, htype]
    · simp [Event.milestones_cons, Event.milestone?, Role.course, hhello, htype]

theorem connected (h : Talk role .connected events terms) :
    ∃ (before after : List Event) (verifyData : VerifyData),
      events = before ++ .received ⟨.finished, verifyData.bytes⟩ ::
        .computed role.peer (transcript before) verifyData :: after ∧
      Talk role .waitFinished before terms ∧ Event.milestones after = [.message .finished] := by
  cases h with
  | @serverFinished before _ verifyData _ hwait hfinished =>
    subst hfinished
    exact ⟨before, _, verifyData, rfl, hwait, rfl⟩
  | @clientFinished before _ verifyData _ own hwait hfinished =>
    subst hfinished
    exact ⟨before, _, verifyData, rfl, hwait, rfl⟩

theorem length_of_server_waitChangeCipher (h : Talk .server .waitChangeCipher events terms) : events.length = 7 := by
  cases h with
  | identity hopening htype hidentity =>
    obtain ⟨version, own, helloMessage, hello, answer, answerBody, hintBody, rfl, -⟩ := server_waitKeyExchange hopening
    rfl

/-- A server that is connected has computed the client's verify data over what was said when it waited for
the switch. -/
theorem computed_of_server {later : Terms} {all : List Event} (hall : Talk .server .connected all later)
    (h : Talk .server .waitChangeCipher events terms) (hearlier : events <+: all) :
    ∃ expected, .computed .client (transcript events) expected ∈ all := by
  obtain ⟨before, after, verifyData, rfl, hbefore, -⟩ := connected hall
  cases hbefore with
  | @switched _ early _ hearly =>
    have hlength : events.length = early.length := by
      rw [length_of_server_waitChangeCipher h, length_of_server_waitChangeCipher hearly]
    rw [List.append_assoc] at hearlier
    obtain rfl : events = early :=
      (List.prefix_of_prefix_length_le hearlier (List.prefix_append _ _) (Nat.le_of_eq hlength)).eq_of_length hlength
    refine ⟨verifyData, ?_⟩
    have hsaid : transcript (events ++ [.switched]) = transcript events := by
      rw [Event.transcript_append]
      exact List.append_nil _
    simp [hsaid, Role.peer]

theorem concluded (h : Talk role .connected events terms) :
    ∃ (hinted : Bool) (early after : List Event) (verifyData : VerifyData),
      events = early ++ .switched :: .received ⟨.finished, verifyData.bytes⟩ ::
        .computed role.peer (transcript early) verifyData :: after ∧
      (exchanged early).map (·.type) = role.conversation hinted ∧ Event.milestones events = role.course hinted := by
  obtain ⟨before, after, verifyData, rfl, hbefore, hafter⟩ := connected h
  cases hbefore with
  | @switched _ early _ hearly =>
    obtain ⟨hinted, htypes, hcourse⟩ := waitChangeCipher hearly
    have hsaid : transcript (early ++ [.switched]) = transcript early := by
      rw [Event.transcript_append]
      exact List.append_nil _
    refine ⟨hinted, early, after, verifyData, ?_, htypes, ?_⟩
    · rw [hsaid, List.append_assoc]
      rfl
    · rw [← hcourse]
      simp [Event.milestones_cons, Event.milestone?, hafter]

end Talk

end PresharedTls
