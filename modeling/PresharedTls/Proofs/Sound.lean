import PresharedTls.Proofs.Endpoint.Rules

/-!
# What the events of a run say

Two invariants hold of an endpoint and its events. `Past` holds whatever becomes of the connection,
and speaks of what was computed and in which order bytes came in. `Live` holds while the connection
lasts, and says that the endpoint is where the grammar of handshakes puts it.
-/

namespace PresharedTls

variable {κ : Type}

/-- A context that has opened records since it was another. -/
inductive Provider.Used (provider : Provider κ) (context : κ) : κ → Prop
  | refl : Used provider context context
  | opened {later : κ} (typeCode : UInt8) (version : UInt16) (fragment : Bytes) :
      Used provider context later → Used provider context (provider.unprotect later typeCode version fragment).2

/-- What matters of an endpoint to its events. -/
structure View (κ : Type) where
  role : Role
  provider : Provider κ
  terms : Terms
  decrypter : Option κ
  done : Bool

def Endpoint.view (endpoint : Endpoint κ) : View κ where
  role := endpoint.role
  provider := endpoint.session.provider
  terms := endpoint.session.terms
  decrypter := endpoint.session.decrypter
  done := endpoint.session.handshakeDone

@[simp] theorem Endpoint.view_saying (transcript : Option Bytes) (encrypter : Option κ) (outgoing : List Record)
    (entropy : Entropy) (endpoint : Endpoint κ) :
    (endpoint.saying transcript encrypter outgoing entropy).view = endpoint.view := rfl

@[simp] theorem Endpoint.view_sending (encrypter : Option κ) (outgoing : List Record) (entropy : Entropy)
    (endpoint : Endpoint κ) : (endpoint.sending encrypter outgoing entropy).view = endpoint.view := rfl

@[simp] theorem Endpoint.view_entering (phase : Phase) (endpoint : Endpoint κ) :
    (endpoint.entering phase).view = endpoint.view := rfl

namespace View

/-- Verify data of the peer is right if a context that became the decrypter computes it. -/
def Judges (view : View κ) (said : Bytes) (verifyData : VerifyData) : Prop :=
  ∃ context later, view.decrypter = some later ∧ view.provider.Used context later ∧
    view.provider.verifyData context view.role.peer said = .ok verifyData

end View

open Event (exchanged transcript receivedBytes handshakeBytes spoken)

/-- A transcript sets terms if it is that of messages which set them. -/
def SetBy (said : Bytes) (terms : Terms) : Prop :=
  ∃ messages, said = messages.flatMap HandshakeMessage.bytes ∧
    (∀ message ∈ messages, HandshakeMessage.Framed message) ∧ Sets messages terms

theorem SetBy.unique {said : Bytes} {terms terms' : Terms} (h : SetBy said terms) (h' : SetBy said terms') :
    terms = terms' := by
  obtain ⟨messages, hsaid, hframed, hsets⟩ := h
  obtain ⟨messages', hsaid', hframed', hsets'⟩ := h'
  obtain rfl : messages = messages' := by
    apply HandshakeMessage.eq_of_flatMap_bytes hframed hframed'
    rw [← hsaid, hsaid']
  exact hsets.unique hsets'

structure Past (view : View κ) (events : List Event) : Prop where
  framed : ∀ message ∈ exchanged events, message.Framed
  sets : ∀ said verifyData, .computed .client said verifyData ∈ events → SetBy said view.terms
  judged : ∀ said verifyData, .computed view.role.peer said verifyData ∈ events → view.Judges said verifyData
  /-- A record behind the peer's ChangeCipherSpec is opened by a decrypter. -/
  sealed : events.Pairwise fun first second => first = .switched →
    ∀ typeCode plaintext isSealed, second = .opened typeCode plaintext isSealed → isSealed = true
  /-- Messages are taken off the bytes that records brought before. -/
  received : ∀ early, early <+: events → receivedBytes early <+: handshakeBytes early
  /-- No byte is left over when the peer's ChangeCipherSpec comes. -/
  switched : ∀ early late, events = early ++ .switched :: late → handshakeBytes early = receivedBytes early

/-- An endpoint whose handshake was done before it failed, or is still not done. -/
structure Over (view : View κ) (events : List Event) : Prop extends Past view events where
  done : view.done = true → ∃ talk refused : List Event, spoken events = talk ++ refused ∧
    Talk view.role .connected talk view.terms ∧ ∀ event ∈ refused, ∃ message, event = .received message

/-- An endpoint that can go on, with bytes `ahead` that are taken off the incoming ones and not noted yet. -/
structure Live (ahead : Bytes) (endpoint : Endpoint κ) (events : List Event) : Prop extends
    Past endpoint.view events where
  talk : Talk endpoint.role endpoint.phase (spoken events) endpoint.session.terms
  done : endpoint.session.handshakeDone = decide (endpoint.phase = .connected)
  transcript : endpoint.phase ≠ .connected → endpoint.session.transcript = some (transcript events)
  decrypter : .switched ∈ events → endpoint.session.decrypter.isSome = true
  stream : handshakeBytes events = receivedBytes events ++ ahead ++ endpoint.handshake

theorem Past.toOver {view : View κ} {events : List Event} (h : Past view events) (hdone : view.done = false) :
    Over view events :=
  ⟨h, fun hcontrary => absurd (hdone.symm.trans hcontrary) (by decide)⟩

theorem Live.toOver {ahead : Bytes} {endpoint : Endpoint κ} {events : List Event} (h : Live ahead endpoint events) :
    Over endpoint.view events := by
  refine ⟨h.toPast, fun hdone => ?_⟩
  have hconnected : endpoint.phase = .connected := by
    have hphase := h.done
    rw [show endpoint.session.handshakeDone = true from hdone] at hphase
    exact of_decide_eq_true hphase.symm
  have htalk := h.talk
  rw [hconnected] at htalk
  exact ⟨_, [], (List.append_nil _).symm, htalk, by simp⟩

/-! ### Events added to the past -/

namespace Past

variable {view : View κ} {events : List Event}

theorem append (h : Past view events) {event : Event} (hframed : ∀ message ∈ event.exchanged?, message.Framed)
    (hsets : ∀ said verifyData, event = .computed .client said verifyData → SetBy said view.terms)
    (hjudged : ∀ said verifyData, event = .computed view.role.peer said verifyData → view.Judges said verifyData)
    (hsealed : ∀ typeCode plaintext isSealed, event = .opened typeCode plaintext isSealed → .switched ∈ events →
      isSealed = true)
    (hreceived : receivedBytes (events ++ [event]) <+: handshakeBytes (events ++ [event]))
    (hswitched : event = .switched → handshakeBytes events = receivedBytes events) :
    Past view (events ++ [event]) where
  framed message hmem := by
    rw [Event.exchanged_append, List.mem_append] at hmem
    rcases hmem with hmem | hmem
    · exact h.framed message hmem
    · rw [Event.exchanged_cons, Event.exchanged_nil, List.append_nil, Option.mem_toList] at hmem
      exact hframed message hmem
  sets said verifyData hmem := by
    rcases List.mem_append.mp hmem with hmem | hmem
    · exact h.sets said verifyData hmem
    · exact hsets said verifyData (List.mem_singleton.mp hmem).symm
  judged said verifyData hmem := by
    rcases List.mem_append.mp hmem with hmem | hmem
    · exact h.judged said verifyData hmem
    · exact hjudged said verifyData (List.mem_singleton.mp hmem).symm
  sealed := by
    refine List.pairwise_append.mpr ⟨h.sealed, List.pairwise_singleton _ _, ?_⟩
    intro first hfirst second hsecond hswitch typeCode plaintext isSealed hopened
    obtain rfl := List.mem_singleton.mp hsecond
    exact hsealed typeCode plaintext isSealed hopened (hswitch ▸ hfirst)
  received early hearly := by
    rcases List.prefix_concat_iff.mp hearly with rfl | hearly
    · exact hreceived
    · exact h.received early hearly
  switched early late hsplit := by
    rcases List.eq_nil_or_concat late with rfl | ⟨tail, last, rfl⟩
    · obtain ⟨rfl, hlast⟩ := List.append_inj' hsplit rfl
      exact hswitched (List.singleton_inj.mp hlast)
    · rw [List.concat_eq_append, ← List.cons_append, ← List.append_assoc] at hsplit
      exact h.switched early tail (List.append_inj' hsplit rfl).1

theorem received_of_quiet (h : Past view events) {event : Event} (hreceived : event.received? = none)
    (hpart : event.handshakePart = []) : receivedBytes (events ++ [event]) <+: handshakeBytes (events ++ [event]) := by
  rw [Event.receivedBytes_concat, Event.handshakeBytes_concat, hreceived, hpart, Option.toList_none,
    List.flatMap_nil, List.append_nil, List.append_nil]
  exact h.received events List.prefix_rfl

theorem sent (h : Past view events) {message : HandshakeMessage} (hframed : message.Framed) :
    Past view (events ++ [.sent message]) := by
  refine h.append (fun other hmem => ?_) (by simp) (by simp) (by simp) (h.received_of_quiet rfl rfl) (by simp)
  obtain rfl := Option.mem_some.mp hmem
  exact hframed

theorem accepted (h : Past view events) (message : HandshakeMessage) : Past view (events ++ [.accepted message]) := by
  exact h.append (by simp [Event.exchanged?]) (by simp) (by simp) (by simp) (h.received_of_quiet rfl rfl) (by simp)

theorem computed (h : Past view events) {sender : Role} {said : Bytes} {verifyData : VerifyData}
    (hsets : sender = .client → SetBy said view.terms) (hjudged : sender = view.role.peer → view.Judges said verifyData) :
    Past view (events ++ [.computed sender said verifyData]) := by
  refine h.append (by simp [Event.exchanged?]) ?_ ?_ (by simp) (h.received_of_quiet rfl rfl) (by simp)
  · intro _ _ hevent
    cases hevent
    exact hsets rfl
  · intro _ _ hevent
    cases hevent
    exact hjudged rfl

theorem withDone (h : Past view events) (done : Bool) : Past { view with done := done } events :=
  ⟨h.framed, h.sets, h.judged, h.sealed, h.received, h.switched⟩

theorem withTerms (h : Past view events) (terms : Terms)
    (hnone : ∀ said verifyData, .computed .client said verifyData ∉ events) : Past { view with terms := terms } events :=
  ⟨h.framed, fun said verifyData hmem => absurd hmem (hnone said verifyData), h.judged, h.sealed, h.received, h.switched⟩

end Past

/-! ### A message taken off -/

variable {ahead : Bytes} {endpoint : Endpoint κ} {events : List Event} {message : HandshakeMessage}

/-- A message that is taken off enters the events before it is handled. -/
theorem Live.takeOff (h : Live message.bytes endpoint events)
    (hlength : message.body.length ≤ HandshakeHeader.maximumLength) :
    Past endpoint.view (events ++ [.received message]) ∧
      handshakeBytes (events ++ [.received message]) =
        receivedBytes (events ++ [.received message]) ++ endpoint.handshake := by
  have hstream : handshakeBytes (events ++ [.received message]) =
      receivedBytes (events ++ [.received message]) ++ endpoint.handshake := by
    have hbefore := h.stream
    rw [Event.receivedBytes_concat, Event.handshakeBytes_concat, hbefore]
    simp [Event.received?, Event.handshakePart]
  refine ⟨h.append (fun other hmem => ?_) (by simp) (by simp) (by simp) ?_ (by simp), hstream⟩
  · obtain rfl := Option.mem_some.mp hmem
    exact HandshakeMessage.framed_of_le hlength
  · rw [hstream]
    exact List.prefix_append _ _

theorem Live.not_computed (h : Live ahead endpoint events) {sender : Role} {said : Bytes} {verifyData : VerifyData}
    (hphase : endpoint.phase = .idle ∨ endpoint.phase = .waitHello ∨ endpoint.phase = .waitKeyExchange ∨
      endpoint.phase = .waitHelloDone) : .computed sender said verifyData ∉ events := by
  intro hmem
  exact h.talk.not_computed hphase ((Event.mem_spoken _ rfl).mpr hmem)

theorem Live.not_done (h : Live ahead endpoint events) (hphase : endpoint.phase ≠ .connected) :
    endpoint.view.done = false := by
  have hdone := h.done
  rw [decide_eq_false hphase] at hdone
  exact hdone

namespace Event

/-- What an endpoint does on its own while it handles a message. -/
def IsOwn : Event → Prop
  | sent _ | computed .. | accepted _ => True
  | _ => False

theorem of_isOwn {tail : List Event} (h : ∀ event ∈ tail, event.IsOwn) :
    spoken tail = tail ∧ handshakeBytes tail = [] ∧ receivedBytes tail = [] ∧ .switched ∉ tail := by
  induction tail with
  | nil => simp [spoken, handshakeBytes, receivedBytes]
  | cons event rest ih =>
    obtain ⟨hspoken, hhandshake, hreceived, hswitched⟩ := ih fun other hmem => h other (List.mem_cons_of_mem _ hmem)
    have hown := h event List.mem_cons_self
    cases event with
    | opened => exact hown.elim
    | received => exact hown.elim
    | switched => exact hown.elim
    | _ =>
      refine ⟨?_, hhandshake, hreceived, ?_⟩
      · exact congrArg _ hspoken
      · simpa using hswitched

end Event

/-- What is left by a message that was handled: the events that followed on it, and an endpoint where the
grammar puts it once the message counts as accepted. -/
structure Handled (message : HandshakeMessage) (origin : Endpoint κ) (events tail : List Event)
    (after : Endpoint κ) : Prop where
  own : ∀ event ∈ tail, event.IsOwn
  past : Past after.view (events ++ [.received message] ++ tail)
  talk : Talk after.role after.phase (spoken events ++ (.received message :: (tail ++ [.accepted message])))
    after.session.terms
  done : after.session.handshakeDone = decide (after.phase = .connected)
  transcript : after.phase ≠ .connected →
    after.session.transcript = some (transcript (events ++ [.received message] ++ tail))
  decrypter : after.session.decrypter = origin.session.decrypter
  handshake : after.handshake = origin.handshake

/-- How a message is to be handled by an endpoint: well, or so that the endpoint is over. -/
def Handles (message : HandshakeMessage) (origin : Endpoint κ) (events : List Event) (step : Recorded κ Unit) : Prop :=
  Ends step (origin, events ++ [.received message])
    (fun _ state => ∃ tail, state.2 = events ++ [.received message] ++ tail ∧
      Handled message origin events tail state.1)
    fun _ state => Over state.1.view state.2

theorem Handled.live {tail : List Event} {after : Endpoint κ} (h : Handled message endpoint events tail after)
    (hlive : Live message.bytes endpoint events)
    (hlength : message.body.length ≤ HandshakeHeader.maximumLength) :
    Live [] after (events ++ [.received message] ++ tail ++ [.accepted message]) := by
  obtain ⟨hspoken, hhandshake, hreceived, hswitched⟩ := Event.of_isOwn h.own
  obtain ⟨-, hstream⟩ := hlive.takeOff hlength
  refine ⟨h.past.accepted message, ?_, h.done, fun hphase => ?_, fun hmem => ?_, ?_⟩
  · have htalk := h.talk
    rw [Event.spoken_append, Event.spoken_append, Event.spoken_append, hspoken, List.append_assoc, List.append_assoc]
    exact htalk
  · rw [h.transcript hphase, Event.transcript_append _ [.accepted message]]
    exact congrArg some (List.append_nil _).symm
  · rw [h.decrypter]
    apply hlive.decrypter
    simpa [hswitched] using hmem
  · rw [Event.handshakeBytes_concat, Event.handshakeBytes_append _ tail, hhandshake, Event.receivedBytes_concat,
      Event.receivedBytes_append _ tail, hreceived, h.handshake, hstream]
    simp [Event.handshakePart, Event.received?]

end PresharedTls
