import PresharedTls.Proofs.Endpoint.Guarded

/-!
# Phases and contexts

Which contexts an endpoint has, what it has agreed on and whether its handshake is done can be told from
its role and its phase. Every step that succeeds keeps that in order. A step that fails may leave
it half-way, with the phase it came from, but what the application can see of it is sound all the same:
a handshake that is done has both contexts, and data in the queue came out of the decrypter.
-/

namespace PresharedTls

variable {κ α : Type} {data : List Bytes}

/-- The application data that a context has opened since it was `initial`, as far as it was delivered. -/
inductive Provider.Opens (provider : Provider κ) (initial : κ) : List Bytes → κ → Prop where
  | created : Opens provider initial [] initial
  | used {data : List Bytes} {context : κ} (h : Opens provider initial data context) (typeCode : UInt8) (version : UInt16)
      (fragment : Bytes) : Opens provider initial data (provider.unprotect context typeCode version fragment).2
  | delivered {data : List Bytes} {context later : κ} (h : Opens provider initial data context) (version : UInt16)
      (fragment : Bytes) {plaintext : Bytes}
      (hopened : provider.unprotect context ContentType.applicationData.code version fragment = (.ok plaintext, later)) :
      Opens provider initial (data ++ [plaintext]) later

/-! ### What is expected in a phase -/

/-- Whether version, suite and random values are agreed on. -/
def Phase.isAgreed : Phase → Bool
  | idle | waitHello | error | closed => false
  | waitKeyExchange | waitHelloDone | waitChangeCipher | waitFinished | connected => true

/-- Whether there is a context for what comes in. -/
def Phase.decrypts : Phase → Bool
  | waitFinished | connected => true
  | _ => false

/-- Whether there is a context for what goes out. A client switches before its peer does, and a server
after that. -/
def Role.encrypts : Role → Phase → Bool
  | _, .connected => true
  | client, .waitChangeCipher => true
  | client, .waitFinished => true
  | _, _ => false

/-- Whether the client's random value is known, which a client chooses itself. -/
def Role.hasClientRandom : Role → Phase → Bool
  | client, .waitHello => true
  | _, phase => phase.isAgreed

@[simp] theorem Role.encrypts_connected (role : Role) : role.encrypts .connected = true := by
  cases role <;> rfl

@[simp] theorem Role.hasClientRandom_of_isAgreed (role : Role) {phase : Phase} (h : phase.isAgreed = true) :
    role.hasClientRandom phase = true := by
  cases role <;> cases phase <;> first | rfl | cases h

/-- The part of an endpoint that listens. -/
structure Hearing (κ : Type) where
  role : Role
  provider : Provider κ
  decrypter : Option κ
  received : List Bytes

/-- What can be told of an endpoint by its phase, behind the part that listens. -/
structure Outline (κ : Type) extends Hearing κ where
  phase : Phase
  encrypts : Bool
  done : Bool
  recording : Bool
  hasSuite : Bool
  hasClientRandom : Bool
  hasServerRandom : Bool
  hasKey : Bool

def Endpoint.outline (endpoint : Endpoint κ) : Outline κ where
  role := endpoint.role
  provider := endpoint.session.provider
  decrypter := endpoint.session.decrypter
  received := endpoint.received
  phase := endpoint.phase
  encrypts := endpoint.session.encrypter.isSome
  done := endpoint.session.handshakeDone
  recording := endpoint.session.transcript.isSome
  hasSuite := endpoint.session.suite.isSome
  hasClientRandom := endpoint.session.clientRandom.isSome
  hasServerRandom := endpoint.session.serverRandom.isSome
  hasKey := endpoint.session.key.isSome

/-- All application data that came, `data` being what was read of it, came out of the one decrypter. -/
def Hearing.Sourced (data : List Bytes) (hearing : Hearing κ) : Prop :=
  match hearing.decrypter with
  | none => data ++ hearing.received = []
  | some context => ∃ params initial, hearing.provider.createDecoder params hearing.role.peer = .ok initial ∧
    hearing.provider.Opens initial (data ++ hearing.received) context

namespace Outline

variable {outline after : Outline κ}

/-- What holds of an endpoint in whatever state a failure left it. -/
structure Consistent (data : List Bytes) (outline : Outline κ) : Prop where
  done : outline.done = true → outline.encrypts = true ∧ outline.decrypter.isSome = true
  keyed : outline.encrypts = true ∨ outline.decrypter.isSome = true → outline.hasKey = true
  early : outline.done = false → data ++ outline.received = []
  sourced : outline.Sourced data

/-- What holds of an endpoint that goes on. -/
structure InOrder (data : List Bytes) (outline : Outline κ) : Prop extends Consistent data outline where
  encrypts_eq : outline.encrypts = outline.role.encrypts outline.phase
  decrypts_eq : outline.decrypter.isSome = outline.phase.decrypts
  done_eq : outline.done = decide (outline.phase = .connected)
  recording_eq : outline.recording = decide (outline.phase ≠ .connected)
  hasSuite_eq : outline.hasSuite = outline.phase.isAgreed
  hasClientRandom_eq : outline.hasClientRandom = outline.role.hasClientRandom outline.phase
  hasServerRandom_eq : outline.hasServerRandom = outline.phase.isAgreed

/-- Phase, transcript and what was agreed on do not matter. -/
theorem Consistent.of_same (h : outline.Consistent data) (hhearing : after.toHearing = outline.toHearing)
    (hencrypts : after.encrypts = outline.encrypts) (hdone : after.done = outline.done)
    (hkey : after.hasKey = outline.hasKey) : after.Consistent data := by
  obtain ⟨hdoneSound, hkeyed, hearly, hsourced⟩ := h
  refine ⟨?_, ?_, ?_, ?_⟩
  · rw [hdone, hencrypts, hhearing]
    exact hdoneSound
  · rw [hencrypts, hhearing, hkey]
    exact hkeyed
  · rw [hdone, hhearing]
    exact hearly
  · rw [hhearing]
    exact hsourced

/-- What is expected of an endpoint whose role and phase are known. -/
theorem InOrder.expected (h : outline.InOrder data) {role : Role} {phase : Phase} (hrole : outline.role = role)
    (hphase : outline.phase = phase) :
    outline.encrypts = role.encrypts phase ∧ outline.decrypter.isSome = phase.decrypts ∧
      outline.hasSuite = phase.isAgreed ∧ outline.hasClientRandom = role.hasClientRandom phase ∧
      outline.hasServerRandom = phase.isAgreed := by
  subst hrole hphase
  exact ⟨h.encrypts_eq, h.decrypts_eq, h.hasSuite_eq, h.hasClientRandom_eq, h.hasServerRandom_eq⟩

/-- Hearing more does not take an endpoint out of order. -/
theorem InOrder.hear (h : outline.InOrder data) {decrypter : Option κ} {received : List Bytes}
    (hsome : decrypter.isSome = outline.decrypter.isSome) (hearly : outline.done = false → data ++ received = [])
    (hsourced : Hearing.Sourced data { outline.toHearing with decrypter := decrypter, received := received }) :
    InOrder data { outline with decrypter := decrypter, received := received } := by
  obtain ⟨⟨hsound, hkeyed, -, -⟩, hencrypts, hdecrypts, hdone, hrecording, hsuite, hclient, hserver⟩ := h
  rw [← hsome] at hsound hkeyed hdecrypts
  exact ⟨⟨hsound, hkeyed, hearly, hsourced⟩, hencrypts, hdecrypts, hdone, hrecording, hsuite, hclient, hserver⟩

end Outline

theorem Session.encrypt_eq (session : Session κ) (typeCode : UInt8) (plaintext : Bytes) (entropy : Entropy) :
    ∃ encrypter : Option κ, encrypter.isSome = session.encrypter.isSome ∧
      (session.encrypt typeCode plaintext entropy).2.1 = { session with encrypter := encrypter } := by
  rw [encrypt]
  split
  · exact ⟨session.encrypter, rfl, rfl⟩
  · next context hcontext => exact ⟨some _, by rw [hcontext]; rfl, rfl⟩

theorem Session.isSome_key {session : Session κ} {params : SecurityParameters}
    (h : session.securityParameters? = some params) : session.key.isSome = true := by
  rw [securityParameters?] at h
  cases hkey : session.key with
  | some key => rfl
  | none =>
    rw [hkey] at h
    cases hsuite : session.suite <;> cases hclient : session.clientRandom <;> cases hserver : session.serverRandom <;>
      simp [hsuite, hclient, hserver] at h

theorem Terms.isSome_of_answered {terms answered : Terms} {answer : ServerHello} (h : terms.answered answer = some answered) :
    answered.suite.isSome = true ∧ answered.serverRandom.isSome = true ∧ answered.clientRandom = terms.clientRandom := by
  rw [Terms.answered] at h
  cases hversion : Version.ofCode? answer.version with
  | none => simp [hversion] at h
  | some version =>
    cases hsuite : CipherSuite.ofCode? answer.suite with
    | none => simp [hversion, hsuite] at h
    | some suite =>
      simp only [hversion, hsuite, Option.pure_def, Option.bind_eq_bind, Option.bind_some, Option.some.injEq] at h
      subst h
      exact ⟨rfl, rfl, rfl⟩

namespace Endpoint

variable {endpoint : Endpoint κ} {outline : Outline κ}

/-! ### Steps that the outline does not show -/

/-- A step that leaves the outline as it is, whether it fails or not. -/
abbrev KeepsOutline (outline : Outline κ) (step : Step κ α) : Prop :=
  Keeps (fun endpoint => endpoint.outline = outline) (fun endpoint => endpoint.outline = outline) step

theorem keepsOutline_accept (result : Except AlertDescription α) : KeepsOutline outline (accept result : Step κ α) :=
  fun _ h => ends_accept (fun _ _ => h) fun _ _ => h

theorem keepsOutline_addToTranscript (message : Bytes) :
    KeepsOutline outline (updateSession (κ := κ) (·.addToTranscript message)) := by
  refine Keeps.modify fun endpoint h => Eq.trans ?_ h
  simp only [Endpoint.outline, Session.addToTranscript, Option.isSome_map]
  rfl

theorem keepsOutline_sendRecord (type : ContentType) (plaintext : Bytes) :
    KeepsOutline outline (sendRecord (κ := κ) type plaintext) := by
  intro endpoint h
  obtain ⟨encrypter, hsome, hsession⟩ :=
    endpoint.session.encrypt_eq type.code plaintext endpoint.entropy
  have hsent (outgoing : List Record) (entropy : Entropy) :
      (endpoint.sending encrypter outgoing entropy).outline = outline := by
    rw [← h]
    simp only [Endpoint.outline, sending, hsome]
    rfl
  refine ends_sendRecord (fun fragment session entropy hsealed => ?_) (fun _ => ?_) fun _ => h
  · rw [hsealed] at hsession
    obtain rfl := hsession
    exact hsent _ entropy
  · rw [hsession]
    exact hsent _ _

theorem keepsOutline_sendFragmented (type : ContentType) (b : Bytes) :
    KeepsOutline outline (sendFragmented (κ := κ) type b) :=
  Keeps.get_bind fun _ _ => Keeps.forM (keepsOutline_sendRecord type) _

theorem keepsOutline_sendMessage (message : HandshakeMessage) : KeepsOutline outline (sendMessage (κ := κ) message) :=
  Keeps.bind (keepsOutline_accept _) fun _ => Keeps.bind (keepsOutline_addToTranscript _) fun _ =>
    keepsOutline_sendFragmented _ _

theorem keepsOutline_sendFinished : KeepsOutline outline (sendFinished (κ := κ)) :=
  Keeps.get_bind fun _ _ => Keeps.bind (keepsOutline_accept _) fun _ => keepsOutline_sendMessage _

theorem keepsOutline_remember (message : HandshakeMessage) : KeepsOutline outline (remember (κ := κ) message) :=
  keepsOutline_addToTranscript _

theorem keepsOutline_receiveFinished (message : HandshakeMessage) :
    KeepsOutline outline (receiveFinished (κ := κ) message) :=
  fun endpoint h => ends_receiveFinished (keepsOutline_addToTranscript message.bytes endpoint h) fun _ => h

/-- Announcing protection makes the encrypter, and a key has to be there for that. -/
theorem ends_sendChangeCipherSpec (endpoint : Endpoint κ) :
    Ends sendChangeCipherSpec endpoint
      (fun _ after => endpoint.outline.hasKey = true ∧ after.outline = { endpoint.outline with encrypts := true })
      fun _ after => after.outline = endpoint.outline := by
  rw [sendChangeCipherSpec, ends_bind]
  refine (keepsOutline_sendRecord .changeCipherSpec changeCipherSpecBody endpoint rfl).mono (fun _ after hafter => ?_)
    fun _ _ => id
  rw [step_eq, ends_get_bind, perform_eq, Deed.step_createEncrypter, ← hafter]
  have hcreated : (∃ alert, after.session.createEncrypter after.role = (.error alert, after.session)) ∨
      ∃ context, after.session.key.isSome = true ∧
        after.session.createEncrypter after.role = (.ok (), { after.session with encrypter := some context }) := by
    rw [Session.createEncrypter]
    split
    · next params _ hparams =>
      cases after.session.provider.createEncoder params after.role with
      | error alert => exact .inl ⟨alert, rfl⟩
      | ok context => exact .inr ⟨context, Session.isSome_key hparams, rfl⟩
    · exact .inl ⟨_, rfl⟩
  rcases hcreated with ⟨alert, hfailed⟩ | ⟨context, hkey, hmade⟩
  · refine ends_onSession (fun _ hok => ?_) fun _ _ => by rw [hfailed]
    rw [hfailed] at hok
    cases hok
  · refine ends_onSession (fun _ _ => ?_) fun _ herror => ?_
    · rw [hmade]
      exact ⟨hkey, rfl⟩
    · rw [hmade] at herror
      cases herror

/-! ### Handshake messages -/

/-- A step that puts an endpoint in order, or fails and leaves it consistent. -/
abbrev Orders (data : List Bytes) (step : Step κ α) (endpoint : Endpoint κ) : Prop :=
  Ends step endpoint (fun _ after => after.outline.InOrder data) fun _ after => after.outline.Consistent data

/-- A step that is not seen goes on in order or ends consistent. -/
theorem orders_bind_of_keepsOutline {β : Type} {step : Step κ β} {next : β → Step κ α}
    (h : endpoint.outline.Consistent data) (hstep : ∀ outline : Outline κ, KeepsOutline outline step)
    (hnext : ∀ value after, after.outline = endpoint.outline → Orders data (next value) after) :
    Orders data (step >>= next) endpoint := by
  rw [Orders, ends_bind]
  exact (hstep endpoint.outline endpoint rfl).mono (fun value after hafter => hnext value after hafter)
    fun _ _ hafter => hafter ▸ h

theorem orders_enter {phase : Phase} (h : Outline.InOrder data { endpoint.outline with phase := phase }) :
    Orders data (enter phase) endpoint :=
  h

theorem orders_sendClientHello {offer : ClientOffer} (h : endpoint.outline.InOrder data) (hrole : endpoint.role = .client)
    (hphase : endpoint.phase = .idle) : Orders data (sendClientHello offer) endpoint := by
  have hgreeted : Outline.InOrder data { endpoint.outline with phase := .waitHello, hasClientRandom := true } := by
    obtain ⟨hconsistent, hencrypts, hdecrypts, hdone, hrecording, hsuite, -, hserver⟩ := h
    simp only [Endpoint.outline, hrole, hphase] at *
    exact ⟨hconsistent.of_same rfl rfl rfl rfl, hencrypts, hdecrypts, hdone, hrecording, hsuite, rfl, hserver⟩
  rw [Orders, sendClientHello, step_eq, ends_get_bind, ends_bind]
  show Ends (accept _ >>= _) _ _ _
  rw [ends_bind]
  refine ends_accept (fun body _ => ?_) fun _ _ => h.toConsistent
  rw [step_eq, ends_updateSession_bind]
  refine orders_bind_of_keepsOutline (h.toConsistent.of_same rfl rfl rfl rfl) (fun _ => keepsOutline_sendMessage _)
    fun _ after hafter => orders_enter ?_
  rw [hafter]
  exact hgreeted

theorem orders_receiveServerHello {offer : ClientOffer} (message : HandshakeMessage) (h : endpoint.outline.InOrder data)
    (hrole : endpoint.role = .client) (hphase : endpoint.phase = .waitHello) :
    Orders data (receiveServerHello offer message) endpoint := by
  have hanswered : Outline.InOrder data { endpoint.outline with
      phase := .waitKeyExchange
      hasSuite := true
      hasServerRandom := true } := by
    obtain ⟨hconsistent, hencrypts, hdecrypts, hdone, hrecording, -, hclient, -⟩ := h
    simp only [Endpoint.outline, hrole, hphase] at *
    exact ⟨hconsistent.of_same rfl rfl rfl rfl, hencrypts, hdecrypts, hdone, hrecording, rfl, hclient, rfl⟩
  rw [Orders, receiveServerHello, ends_bind]
  refine ends_readBody (fun answer _ => ?_) h.toConsistent
  refine orders_bind_of_keepsOutline h.toConsistent (fun _ => keepsOutline_remember message) fun _ after hafter => ?_
  rw [← hafter] at h hanswered
  rw [Orders, ends_bind]
  refine ends_accept (fun _ _ => ?_) fun _ _ => h.toConsistent
  obtain ⟨terms, hsession, hterms⟩ := after.session.applyServerHello_eq answer
  rw [ends_bind]
  refine ends_onSession (fun _ hok => ?_) fun _ _ => ?_
  · obtain ⟨hsuite, hserver, hclient⟩ := Terms.isSome_of_answered (hterms hok)
    rw [hsession]
    refine orders_enter ?_
    simp only [Endpoint.outline, Session.withTerms, Session.withParameters, hsuite, hserver, hclient]
    exact hanswered
  · rw [hsession]
    exact h.toConsistent.of_same rfl rfl rfl rfl

theorem orders_receiveIdentityHint (message : HandshakeMessage) (h : endpoint.outline.InOrder data)
    (hrole : endpoint.role = .client) (hphase : endpoint.phase = .waitKeyExchange) :
    Orders data (receiveIdentityHint message) endpoint := by
  have hhinted : Outline.InOrder data { endpoint.outline with phase := .waitHelloDone } := by
    obtain ⟨hconsistent, hencrypts, hdecrypts, hdone, hrecording, hsuite, hclient, hserver⟩ := h
    simp only [Endpoint.outline, hrole, hphase] at *
    exact ⟨hconsistent.of_same rfl rfl rfl rfl, hencrypts, hdecrypts, hdone, hrecording, hsuite, hclient, hserver⟩
  rw [Orders, receiveIdentityHint, ends_bind]
  refine ends_readBody (fun _ _ => ?_) h.toConsistent
  refine orders_bind_of_keepsOutline h.toConsistent (fun _ => keepsOutline_remember message) fun _ after hafter => ?_
  refine orders_enter ?_
  rw [hafter]
  exact hhinted

/-- A client switches what it sends, and says goodbye in the new keys. -/
theorem orders_receiveServerHelloDone (message : HandshakeMessage) (h : endpoint.outline.InOrder data)
    (hrole : endpoint.role = .client) (hphase : endpoint.phase = .waitKeyExchange ∨ endpoint.phase = .waitHelloDone) :
    Orders data (receiveServerHelloDone message) endpoint := by
  have hswitched (hkey : endpoint.outline.hasKey = true) :
      Outline.InOrder data { endpoint.outline with phase := .waitChangeCipher, encrypts := true } := by
    obtain ⟨⟨hsound, hkeyed, hearly, hsourced⟩, hencrypts, hdecrypts, hdone, hrecording, hsuite, hclient, hserver⟩ := h
    rcases hphase with hphase | hphase <;> simp only [Endpoint.outline, hrole, hphase] at * <;>
      exact ⟨⟨fun hdone => ⟨rfl, (hsound hdone).2⟩, fun _ => hkey, hearly, hsourced⟩, rfl, hdecrypts, hdone, hrecording,
        hsuite, hclient, hserver⟩
  rw [receiveServerHelloDone]
  refine ends_guard (fun _ => h.toConsistent) fun _ => ?_
  refine orders_bind_of_keepsOutline h.toConsistent (fun _ => keepsOutline_remember message) fun _ remembered hremembered => ?_
  rw [← hremembered] at h hswitched
  rw [Orders, step_eq, ends_get_bind, ends_bind]
  refine ends_accept (fun body _ => ?_) fun _ _ => h.toConsistent
  refine orders_bind_of_keepsOutline h.toConsistent (fun _ => keepsOutline_sendMessage _) fun _ sent hsent => ?_
  rw [← hsent] at h hswitched
  rw [Orders, ends_bind]
  refine (ends_sendChangeCipherSpec sent).mono ?_ fun _ after hafter => hafter ▸ h.toConsistent
  rintro _ after ⟨hkey, hafter⟩
  have hconsistent : after.outline.Consistent data :=
    (hswitched hkey).toConsistent.of_same (by rw [hafter]) (by rw [hafter]) (by rw [hafter]) (by rw [hafter])
  refine orders_bind_of_keepsOutline hconsistent (fun _ => keepsOutline_sendFinished) fun _ finished hfinished => ?_
  refine orders_enter ?_
  rw [hfinished, hafter]
  exact hswitched hkey

theorem orders_receiveClientHello {policy : ServerPolicy} (message : HandshakeMessage) (h : endpoint.outline.InOrder data)
    (hrole : endpoint.role = .server) (hphase : endpoint.phase = .waitHello) :
    Orders data (receiveClientHello policy message) endpoint := by
  have hagreed : Outline.InOrder data { endpoint.outline with
      phase := .waitKeyExchange
      hasSuite := true
      hasClientRandom := true
      hasServerRandom := true } := by
    obtain ⟨hconsistent, hencrypts, hdecrypts, hdone, hrecording, -, -, -⟩ := h
    simp only [Endpoint.outline, hrole, hphase] at *
    exact ⟨hconsistent.of_same rfl rfl rfl rfl, hencrypts, hdecrypts, hdone, hrecording, rfl, rfl, rfl⟩
  rw [Orders, receiveClientHello, ends_bind]
  refine ends_readBody (fun hello _ => ?_) h.toConsistent
  refine orders_bind_of_keepsOutline h.toConsistent (fun _ => keepsOutline_remember message) fun _ remembered hremembered => ?_
  rw [← hremembered] at h hagreed
  rw [Orders, step_eq, ends_get_bind, ends_bind]
  refine ends_accept (fun answer _ => ?_) fun _ _ => h.toConsistent
  rw [ends_bind]
  show Ends (updateSession _ >>= _) _ _ _
  rw [ends_updateSession_bind, ends_bind]
  obtain ⟨terms, hsession, hterms⟩ :=
    (remembered.session.withClientRandom hello.random).applyServerHello_eq answer.1
  refine ends_onSession (fun _ hok => ?_) fun _ _ => ?_
  · obtain ⟨hsuite, hserver, hclient⟩ := Terms.isSome_of_answered (hterms hok)
    obtain ⟨answered, hanswered⟩ : ∃ answered, answered = { remembered with
        entropy := answer.2
        session := (remembered.session.withClientRandom hello.random).withTerms terms } := ⟨_, rfl⟩
    have houtline : { answered.outline with phase := .waitKeyExchange } = { remembered.outline with
        phase := .waitKeyExchange
        hasSuite := true
        hasClientRandom := true
        hasServerRandom := true } := by
      rw [hanswered]
      simp only [Endpoint.outline, Session.withTerms, Session.withParameters, hsuite, hserver, hclient]
      rfl
    have hconsistent : answered.outline.Consistent data := by
      rw [hanswered]
      exact h.toConsistent.of_same rfl rfl rfl rfl
    rw [← houtline] at hagreed
    rw [hsession, ends_bind, ← hanswered]
    refine ends_accept (fun answerBody _ => ?_) fun _ _ => hconsistent
    refine orders_bind_of_keepsOutline hconsistent (fun _ => keepsOutline_sendMessage _) fun _ said hsaid => ?_
    rw [← hsaid] at hconsistent hagreed
    rw [Orders, ends_bind]
    refine ends_accept (fun hintBody _ => ?_) fun _ _ => hconsistent
    refine orders_bind_of_keepsOutline hconsistent (fun _ => keepsOutline_sendMessage _) fun _ hinted hhinted => ?_
    rw [← hhinted] at hconsistent hagreed
    refine orders_bind_of_keepsOutline hconsistent (fun _ => keepsOutline_sendMessage ⟨.serverHelloDone, []⟩)
      fun _ done hdone => ?_
    refine orders_enter ?_
    rw [hdone]
    exact hagreed
  · rw [hsession]
    exact h.toConsistent.of_same rfl rfl rfl rfl

theorem orders_receiveIdentity {policy : ServerPolicy} (message : HandshakeMessage) (h : endpoint.outline.InOrder data)
    (hrole : endpoint.role = .server) (hphase : endpoint.phase = .waitKeyExchange) :
    Orders data (receiveIdentity policy message) endpoint := by
  have hkeyed : Outline.InOrder data { endpoint.outline with phase := .waitChangeCipher, hasKey := true } := by
    obtain ⟨⟨hsound, -, hearly, hsourced⟩, hencrypts, hdecrypts, hdone, hrecording, hsuite, hclient, hserver⟩ := h
    simp only [Endpoint.outline, hrole, hphase] at *
    exact ⟨⟨hsound, fun _ => rfl, hearly, hsourced⟩, hencrypts, hdecrypts, hdone, hrecording, hsuite, hclient, hserver⟩
  rw [Orders, receiveIdentity, ends_bind]
  refine ends_readBody (fun identity _ => ?_) h.toConsistent
  refine orders_bind_of_keepsOutline h.toConsistent (fun _ => keepsOutline_remember message) fun _ remembered hremembered => ?_
  rw [← hremembered] at h hkeyed
  split
  · exact h.toConsistent
  · exact hkeyed

/-- With both contexts the handshake can be done. -/
theorem orders_finish (h : endpoint.outline.Consistent data) (hencrypts : endpoint.outline.encrypts = true)
    (hdecrypts : endpoint.outline.decrypter.isSome = true) (hsuite : endpoint.outline.hasSuite = true)
    (hclient : endpoint.outline.hasClientRandom = true) (hserver : endpoint.outline.hasServerRandom = true) :
    Orders data finish endpoint := by
  obtain ⟨-, hkeyed, -, hsourced⟩ := h
  have hrole : endpoint.role.encrypts .connected = true := Role.encrypts_connected _
  have hrandom : endpoint.role.hasClientRandom .connected = true := Role.hasClientRandom_of_isAgreed _ rfl
  exact ⟨⟨fun _ => ⟨hencrypts, hdecrypts⟩, hkeyed, nofun, hsourced⟩, hencrypts.trans hrole.symm, hdecrypts, rfl, rfl,
    hsuite, hclient.trans hrandom.symm, hserver⟩

theorem orders_receiveServerFinished (message : HandshakeMessage) (h : endpoint.outline.InOrder data)
    (hrole : endpoint.role = .client) (hphase : endpoint.phase = .waitFinished) :
    Orders data (do receiveFinished message; finish) endpoint := by
  refine orders_bind_of_keepsOutline h.toConsistent (fun _ => keepsOutline_receiveFinished message) fun _ after hafter => ?_
  obtain ⟨hencrypts, hdecrypts, hsuite, hclient, hserver⟩ := h.expected hrole hphase
  rw [← hafter] at h hencrypts hdecrypts hsuite hclient hserver
  exact orders_finish h.toConsistent hencrypts hdecrypts hsuite hclient hserver

/-- A server has a decrypter by then, and makes its encrypter. -/
theorem orders_receiveClientFinished (message : HandshakeMessage) (h : endpoint.outline.InOrder data)
    (hrole : endpoint.role = .server) (hphase : endpoint.phase = .waitFinished) :
    Orders data (do receiveFinished message; sendChangeCipherSpec; sendFinished; finish) endpoint := by
  refine orders_bind_of_keepsOutline h.toConsistent (fun _ => keepsOutline_receiveFinished message) fun _ after hafter => ?_
  obtain ⟨-, hdecrypts, hsuite, hclient, hserver⟩ := h.expected hrole hphase
  rw [← hafter] at h hdecrypts hsuite hclient hserver
  rw [Orders, ends_bind]
  refine (ends_sendChangeCipherSpec after).mono ?_ fun _ later hlater => hlater ▸ h.toConsistent
  rintro _ switched ⟨hkey, hswitched⟩
  have hconsistent : switched.outline.Consistent data := by
    obtain ⟨hsound, hkeyed, hearly, hsourced⟩ := h.toConsistent
    rw [hswitched]
    exact ⟨fun hdone => ⟨rfl, (hsound hdone).2⟩, fun _ => hkey, hearly, hsourced⟩
  refine orders_bind_of_keepsOutline hconsistent (fun _ => keepsOutline_sendFinished) fun _ finished hfinished => ?_
  rw [← hfinished] at hconsistent
  rw [hswitched] at hfinished
  have hsame {β : Type} (part : Outline κ → β) {value : β}
      (hpart : part { after.outline with encrypts := true } = value) : part finished.outline = value :=
    hfinished ▸ hpart
  exact orders_finish hconsistent (hsame (·.encrypts) rfl) (hsame (·.decrypter.isSome) hdecrypts)
    (hsame (·.hasSuite) hsuite) (hsame (·.hasClientRandom) hclient) (hsame (·.hasServerRandom) hserver)

/-- Every handler is called in the phase that it expects. -/
theorem orders_receiveMessage (message : HandshakeMessage) :
    Keeps (fun endpoint : Endpoint κ => endpoint.outline.InOrder data) (fun endpoint => endpoint.outline.Consistent data)
      (receiveMessage message) := by
  intro endpoint h
  have hrole {role : Role} (hside : endpoint.side.role = role) : endpoint.role = role := hside
  rw [receiveMessage, step_eq, ends_get_bind]
  split
  · next hside hphase _ => exact orders_receiveServerHello message h (hrole (by rw [hside]; rfl)) hphase
  · next hside hphase _ => exact orders_receiveIdentityHint message h (hrole (by rw [hside]; rfl)) hphase
  · next hside hphase _ => exact orders_receiveServerHelloDone message h (hrole (by rw [hside]; rfl)) (.inl hphase)
  · next hside hphase _ => exact orders_receiveServerHelloDone message h (hrole (by rw [hside]; rfl)) (.inr hphase)
  · next hside hphase _ => exact orders_receiveServerFinished message h (hrole (by rw [hside]; rfl)) hphase
  · next hside hphase _ => exact orders_receiveClientHello message h (hrole (by rw [hside]; rfl)) hphase
  · next hside hphase _ => exact orders_receiveIdentity message h (hrole (by rw [hside]; rfl)) hphase
  · next hside hphase _ => exact orders_receiveClientFinished message h (hrole (by rw [hside]; rfl)) hphase
  · exact h.toConsistent

/-! ### Records -/

theorem orders_takeMessage (message : HandshakeMessage) :
    Keeps (fun endpoint : Endpoint κ => endpoint.outline.InOrder data) (fun endpoint => endpoint.outline.Consistent data)
      (takeMessage message) :=
  Keeps.bind (Keeps.modify fun _ h => h) fun _ => orders_receiveMessage message

theorem orders_receiveHandshake (plaintext : Bytes) :
    Keeps (fun endpoint : Endpoint κ => endpoint.outline.InOrder data) (fun endpoint => endpoint.outline.Consistent data)
      (receiveHandshake plaintext) := by
  intro endpoint h
  rw [receiveHandshake]
  refine ends_guard (fun _ => h.toConsistent) fun _ => ?_
  show Ends (takeMessages (HandshakeMessage.framing.cut (endpoint.handshake ++ plaintext)))
    { endpoint with handshake := endpoint.handshake ++ plaintext } _ _
  refine Keeps.bind (Keeps.forM orders_takeMessage _) (fun _ => ?_) _ h
  cases (HandshakeMessage.framing.cut (endpoint.handshake ++ plaintext)).fault with
  | none => exact Keeps.pure _
  | some alert => exact fun _ h => h.toConsistent

/-- The decrypter is made when the peer switches. No data has come before. -/
theorem orders_receiveChangeCipherSpec (plaintext : Bytes) (h : endpoint.outline.InOrder data) :
    Orders data (receiveChangeCipherSpec plaintext) endpoint := by
  rw [receiveChangeCipherSpec]
  refine ends_guard (fun _ => h.toConsistent) fun _ => ?_
  rw [step_eq, ends_get_bind]
  refine ends_guard (fun _ => h.toConsistent) fun _ => ends_guard (fun _ => h.toConsistent) fun hwaiting => ?_
  have hphase : endpoint.phase = .waitChangeCipher := Decidable.not_not.mp hwaiting
  rw [ends_bind, perform_eq, Deed.step_createDecrypter]
  rcases endpoint.session.createDecrypter_cases endpoint.role.peer with
    ⟨params, context, hnone, hparams, hcontext, hcreated⟩ | ⟨alert, hfailed⟩
  · refine ends_onSession (fun _ _ => ?_) fun _ herror => ?_
    · rw [hcreated]
      obtain ⟨⟨hsound, -, hearly, -⟩, hencrypts, -, hdone, hrecording, hsuite, hclient, hserver⟩ := h
      simp only [Endpoint.outline, hphase] at hencrypts hdone hrecording hsuite hclient hserver
      have hreceived : data ++ endpoint.received = [] := hearly hdone
      have hswitch (role : Role) : role.encrypts .waitFinished = role.encrypts .waitChangeCipher := by
        cases role <;> rfl
      have hrandom : endpoint.role.hasClientRandom .waitFinished = endpoint.role.hasClientRandom .waitChangeCipher := by
        cases endpoint.role <;> rfl
      have hopens : endpoint.session.provider.Opens context (data ++ endpoint.received) context := by
        rw [hreceived]
        exact .created
      exact orders_enter ⟨⟨fun hdone => ⟨(hsound hdone).1, rfl⟩, fun _ => Session.isSome_key hparams, fun _ => hreceived,
        params, context, hcontext, hopens⟩, hencrypts.trans (hswitch _).symm, rfl, hdone, hrecording, hsuite,
        hclient.trans hrandom.symm, hserver⟩
    · rw [hcreated] at herror
      cases herror
  · refine ends_onSession (fun _ hok => ?_) fun _ _ => ?_
    · rw [hfailed] at hok
      cases hok
    · rw [hfailed]
      exact h.toConsistent

theorem orders_receiveAlert (plaintext : Bytes) (h : endpoint.outline.InOrder data) :
    Orders data (receiveAlert plaintext) endpoint := by
  rw [Orders, receiveAlert, ends_bind]
  exact ends_readBody (fun _ _ => h.toConsistent.of_same rfl rfl rfl rfl) h.toConsistent

/-- What a record is opened to came out of the decrypter, whether it is delivered or not. -/
theorem inOrder_decrypt (h : endpoint.outline.InOrder data) {typeCode : UInt8} {version : UInt16} {fragment : Bytes}
    {result : Except AlertDescription Bytes} {session : Session κ}
    (hopened : endpoint.session.decrypt typeCode version fragment = (result, session)) :
    { endpoint with session := session }.outline.InOrder data ∧
      ∀ plaintext, typeCode = ContentType.applicationData.code → result = .ok plaintext → session.handshakeDone = true →
        { endpoint with session := session, received := endpoint.received ++ [plaintext] }.outline.InOrder data := by
  rw [Session.decrypt] at hopened
  split at hopened
  · next hnone =>
    obtain ⟨rfl, rfl⟩ := Prod.mk.inj hopened
    refine ⟨h, fun plaintext _ _ hdone => ?_⟩
    have hdecrypter := (h.done hdone).2
    rw [show endpoint.outline.decrypter = none from hnone] at hdecrypter
    cases hdecrypter
  · next context hcontext =>
    rcases hunprotect : endpoint.session.provider.unprotect context typeCode version fragment with ⟨opened, later⟩
    rw [hunprotect] at hopened
    obtain ⟨rfl, rfl⟩ := Prod.mk.inj hopened
    have hsome : (some later).isSome = endpoint.outline.decrypter.isSome := by
      rw [show endpoint.outline.decrypter = some context from hcontext]
      rfl
    have hsourced := h.sourced
    rw [Hearing.Sourced, show endpoint.outline.decrypter = some context from hcontext] at hsourced
    obtain ⟨params, initial, hinitial, hopens⟩ := hsourced
    refine ⟨?_, fun plaintext htype hplaintext hdone => ?_⟩
    · have hused := hopens.used typeCode version fragment
      rw [show endpoint.outline.provider = endpoint.session.provider from rfl, hunprotect] at hused
      exact h.hear hsome h.early ⟨params, initial, hinitial, hused⟩
    · subst htype hplaintext
      refine h.hear hsome (fun hearly => ?_) ⟨params, initial, hinitial, ?_⟩
      · cases hdone.symm.trans hearly
      · have hdelivered := hopens.delivered version fragment hunprotect
        rwa [List.append_assoc] at hdelivered

theorem orders_receiveRecord (record : Record) :
    Keeps (fun endpoint : Endpoint κ => endpoint.outline.InOrder data) (fun endpoint => endpoint.outline.Consistent data)
      (receiveRecord record) := by
  intro endpoint h
  rcases hopened : endpoint.session.decrypt record.typeCode record.version record.fragment with ⟨result, session⟩
  obtain ⟨hnext, hdelivered⟩ := inOrder_decrypt h hopened
  rw [receiveRecord, ends_bind, perform_eq, Deed.step_unprotect]
  refine ends_onSession (fun plaintext hplaintext => ?_) fun _ _ => ?_
  · rw [hopened] at hplaintext ⊢
    rw [step_eq, ends_get_bind]
    refine ends_guard (fun _ => hnext.toConsistent) fun _ => ?_
    split
    · exact orders_receiveHandshake plaintext _ hnext
    · exact orders_receiveChangeCipherSpec plaintext hnext
    · next htype =>
      rw [step_eq, receiveApplicationData, ends_get_bind]
      refine ends_guard (fun _ => hnext.toConsistent) fun hdone => ?_
      exact hdelivered plaintext (ContentType.code_of_ofCode? htype).symm hplaintext (Decidable.not_not.mp hdone)
    · exact orders_receiveAlert plaintext hnext
    · exact hnext.toConsistent
  · rw [hopened]
    exact hnext.toConsistent

theorem orders_receiveRecords (records : Cut Record) :
    Keeps (fun endpoint : Endpoint κ => endpoint.outline.InOrder data) (fun endpoint => endpoint.outline.Consistent data)
      (receiveRecords records) := by
  refine Keeps.bind (Keeps.forM orders_receiveRecord _) fun _ => ?_
  cases records.fault with
  | none => exact Keeps.pure _
  | some alert => exact fun _ h => h.toConsistent

/-! ### The end -/

/-- An alert that is sent is not seen, whether it says that the endpoint failed or that it is closed. -/
theorem outline_after_sendRecord (type : ContentType) (plaintext : Bytes) (endpoint : Endpoint κ) :
    (endpoint.after (sendRecord type plaintext)).outline = endpoint.outline :=
  (keepsOutline_sendRecord type plaintext endpoint rfl).after

theorem consistent_fail (h : endpoint.outline.Consistent data) (failure : ConnectionError) :
    (endpoint.fail failure).outline.Consistent data := by
  cases failure with
  | sentAlert alert =>
    have hannounced : (endpoint.announce alert).outline = endpoint.outline := outline_after_sendRecord _ _ _
    rw [← hannounced] at h
    exact h.of_same rfl rfl rfl rfl
  | _ => exact h.of_same rfl rfl rfl rfl

end Endpoint

end PresharedTls
