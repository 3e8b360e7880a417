import PresharedTls.Proofs.Blame
import PresharedTls.Proofs.Endpoint.Fixed
import PresharedTls.Proofs.Endpoint.Rules

/-!
# Messages that are rejected

A handshake message that cannot be read, is not awaited or does not verify is turned away with one of
three alerts. Each handler looks for these faults before it changes anything, and what it does behind its
first change fails with other alerts only. So the endpoint behind a rejection is the endpoint before it
(`Endpoint.eq_of_rejected`).
-/

namespace PresharedTls

variable {κ α β : Type}

/-- The alerts by which a handshake message is rejected as it stands. -/
def rejections : List AlertDescription :=
  [.decodeError, .unexpectedMessage, .decryptError]

/-! ### What fails with other alerts only -/

/-- A computation that does not fail with a rejection. -/
def Lenient (result : Except AlertDescription α) : Prop :=
  ∀ alert, result = .error alert → alert ∉ rejections

namespace Lenient

theorem ok (value : α) : Lenient (.ok value : Except AlertDescription α) :=
  nofun

theorem error {alert : AlertDescription} (h : alert ∉ rejections) :
    Lenient (.error alert : Except AlertDescription α) := by
  rintro other hother
  cases hother
  exact h

theorem bind {result : Except AlertDescription α} {next : α → Except AlertDescription β} (h : Lenient result)
    (hnext : ∀ value, Lenient (next value)) : Lenient (result >>= next) := by
  cases result with
  | ok value => exact hnext value
  | error alert => exact error (h alert rfl)

theorem ite {condition : Prop} [Decidable condition] {result other : Except AlertDescription α} (h : Lenient result)
    (hother : Lenient other) : Lenient (if condition then result else other) := by
  split
  · exact h
  · exact hother

end Lenient

theorem RecordHeader.lenient_make (type : ContentType) (version : UInt16) (length : Nat) :
    Lenient (make type version length) :=
  .ite (.ok _) (.error (by decide))

theorem Record.lenient_make (type : ContentType) (version : UInt16) (fragment : Bytes) :
    Lenient (make type version fragment) :=
  .bind (RecordHeader.lenient_make type version _) fun _ => .ok _

theorem HandshakeMessage.lenient_frame (message : HandshakeMessage) : Lenient message.frame :=
  .ite (.ok _) (.error (by decide))

theorem KeyIdentity.lenient_body (identity : Bytes) : Lenient (body identity) :=
  .ite (.ok _) (.error (by decide))

theorem ServerHello.lenient_bytes (hello : ServerHello) : Lenient hello.bytes :=
  .bind (.ite (.ok _) (.ite (.ok _) (.error (by decide)))) fun _ => .ok _

theorem ClientOffer.lenient_check (offer : ClientOffer) (answer : ServerHello) : Lenient (offer.check answer) :=
  .ite (.error (by decide)) (.ite (.error (by decide)) (.ite (.ok _) (.error (by decide))))

theorem ServerPolicy.lenient_chooseVersion (policy : ServerPolicy) (offered : UInt16) :
    Lenient (policy.chooseVersion offered) := by
  rw [chooseVersion]
  split
  · exact .error (by decide)
  · exact .ite (.error (by decide)) (.ok _)

theorem ServerPolicy.lenient_chooseSuite (policy : ServerPolicy) (version : Version) (offered : List CipherSuite) :
    Lenient (policy.chooseSuite version offered) := by
  rw [chooseSuite]
  split
  · exact .error (by decide)
  · exact .ok _

theorem ServerPolicy.lenient_answer (policy : ServerPolicy) (hello : ClientHello) (entropy : Entropy) :
    Lenient (policy.answer hello entropy) :=
  .bind (policy.lenient_chooseVersion _) fun version => .bind (policy.lenient_chooseSuite version _) fun _ => .ok _

theorem lenient_premasterSecret (key : Bytes) : Lenient (premasterSecret key) :=
  .ite (.ok _) (.error (by decide))

theorem Protection.lenient_create (params : SecurityParameters) (sender : Role) : Lenient (create params sender) := by
  rw [create]
  split
  · exact .error (by decide)
  · exact .bind (.bind (lenient_premasterSecret _) fun _ => .ok _) fun _ => .ok _

theorem Protection.lenient_protect (context : Protection) (typeCode : UInt8) (version : UInt16) (plaintext : Bytes)
    (entropy : Entropy) : Lenient (context.protect typeCode version plaintext entropy).1 := by
  rw [protect]
  split
  · exact .error (by decide)
  · dsimp only
    split
    · split
      · exact .ok _
      · exact .error (by decide)
    · exact .ok _
    · exact .ok _

/-- A provider that leaves rejections to the endpoints. -/
structure Provider.Lenient (provider : Provider κ) : Prop where
  createEncoder : ∀ params sender, PresharedTls.Lenient (provider.createEncoder params sender)
  protect : ∀ context typeCode version plaintext entropy,
    PresharedTls.Lenient (provider.protect context typeCode version plaintext entropy).1
  verifyData : ∀ context sender transcript, PresharedTls.Lenient (provider.verifyData context sender transcript)

theorem Provider.lenient_standard : standard.Lenient where
  createEncoder := Protection.lenient_create
  protect := Protection.lenient_protect
  verifyData _ _ _ := .ok _

namespace Session

variable {session : Session κ}

theorem lenient_applyServerHello (session : Session κ) (answer : ServerHello) :
    Lenient (session.applyServerHello answer).1 := by
  rw [applyServerHello]
  split
  · exact .error (by decide)
  · split
    · exact .error (by decide)
    · split
      · next hextensions =>
        obtain rfl := error_of_applyExtensions (congrArg Prod.fst hextensions)
        exact .error (by decide)
      · exact .ok _

theorem lenient_createEncrypter (hprovider : session.provider.Lenient) (sender : Role) :
    Lenient (session.createEncrypter sender).1 := by
  rw [createEncrypter]
  split
  · next params _ _ =>
    split
    · next alert hfailed => exact .error (hprovider.createEncoder params sender alert hfailed)
    · exact .ok _
  · exact .error (by decide)

theorem lenient_encrypt (hprovider : session.provider.Lenient) (typeCode : UInt8) (plaintext : Bytes) (entropy : Entropy) :
    Lenient (session.encrypt typeCode plaintext entropy).1 := by
  rw [encrypt]
  split
  · exact .ok _
  · exact hprovider.protect _ _ _ _ _

theorem lenient_verifyData (hprovider : session.provider.Lenient) (sender : Role) : Lenient (session.verifyData sender) := by
  rw [verifyData]
  split
  · exact hprovider.verifyData _ _ _
  · exact .error (by decide)

end Session

/-! ### Steps that reject nothing -/

/-- A failure for which a message is rejected. -/
def ConnectionError.Rejects (failure : ConnectionError) : Prop :=
  ∃ alert ∈ rejections, failure = .sentAlert alert

theorem ConnectionError.not_rejects_sentAlert {alert : AlertDescription} (h : alert ∉ rejections) :
    ¬ (sentAlert alert).Rejects := by
  rintro ⟨other, hmem, hother⟩
  cases hother
  exact h hmem

namespace Endpoint

/-- A step that is never a rejection, at endpoints that have `provider`. -/
def Spares (provider : Provider κ) (step : Step κ α) : Prop :=
  ∀ endpoint : Endpoint κ, endpoint.session.provider = provider →
    Ends step endpoint (fun _ after => after.session.provider = provider) fun failure _ => ¬ failure.Rejects

variable {provider : Provider κ}

namespace Spares

theorem pure (value : α) : Spares provider (Pure.pure value) :=
  fun _ h => h

theorem bind {step : Step κ α} {next : α → Step κ β} (hstep : Spares provider step)
    (hnext : ∀ value, Spares provider (next value)) : Spares provider (step >>= next) := by
  intro endpoint h
  rw [ends_bind]
  exact (hstep endpoint h).mono (fun value => hnext value) fun _ _ => id

theorem get_bind {next : Endpoint κ → Step κ α}
    (hnext : ∀ endpoint : Endpoint κ, endpoint.session.provider = provider → Spares provider (next endpoint)) :
    Spares provider (get >>= next) :=
  fun endpoint h => hnext endpoint h endpoint h

theorem set {endpoint : Endpoint κ} (h : endpoint.session.provider = provider) :
    Spares provider (MonadStateOf.set endpoint : Step κ PUnit) :=
  fun _ _ => h

theorem modify {change : Endpoint κ → Endpoint κ}
    (h : ∀ endpoint, (change endpoint).session.provider = endpoint.session.provider) :
    Spares provider (modify change : Step κ PUnit) :=
  fun endpoint hprovider => (h endpoint).trans hprovider

theorem refuse {alert : AlertDescription} (h : alert ∉ rejections) : Spares provider (refuse alert : Step κ α) :=
  fun _ _ => ConnectionError.not_rejects_sentAlert h

theorem accept {result : Except AlertDescription α} (h : Lenient result) : Spares provider (accept result : Step κ α) :=
  fun _ hprovider => ends_accept (fun _ _ => hprovider) fun alert halert => ConnectionError.not_rejects_sentAlert (h alert halert)

theorem onSession {work : Session κ → Except AlertDescription α × Session κ}
    (h : ∀ session, session.provider = provider → Lenient (work session).1 ∧ (work session).2.provider = provider) :
    Spares provider (onSession work) :=
  fun endpoint hprovider => ends_onSession (fun _ _ => (h endpoint.session hprovider).2)
    fun alert halert => ConnectionError.not_rejects_sentAlert ((h endpoint.session hprovider).1 alert halert)

theorem updateSession {update : Session κ → Session κ} (h : ∀ session, (update session).provider = session.provider) :
    Spares provider (updateSession update) :=
  fun endpoint hprovider => (h endpoint.session).trans hprovider

theorem enter (phase : Phase) : Spares provider (enter phase : Step κ Unit) :=
  fun _ h => h

theorem guard {condition : Prop} [Decidable condition] {alert : AlertDescription} {next : PUnit → Step κ α}
    (halert : alert ∉ rejections) (h : Spares provider (next ⟨⟩)) :
    Spares provider (if condition then Endpoint.refuse alert >>= next else next ⟨⟩) :=
  fun endpoint hprovider => ends_guard (fun _ => ConnectionError.not_rejects_sentAlert halert) fun _ => h endpoint hprovider

theorem forM {work : β → Step κ PUnit} (h : ∀ item, Spares provider (work item)) (items : List β) :
    Spares provider (items.forM work) := by
  induction items with
  | nil => exact pure _
  | cons item rest ih => exact bind (h item) fun _ => ih

end Spares

section

variable (hprovider : provider.Lenient)
include hprovider

theorem spares_sendRecord (type : ContentType) (plaintext : Bytes) : Spares provider (sendRecord type plaintext) := by
  rw [sendRecord]
  refine .get_bind fun endpoint h => .guard (by decide) ?_
  have hencrypted : (endpoint.session.encrypt type.code plaintext endpoint.entropy).2.1.provider = provider :=
    (Session.Inherits.encrypt ⟨rfl, rfl⟩ _ _ _).provider.trans h
  refine .bind (.set hencrypted) fun _ => .bind (.accept ?_) fun fragment => ?_
  · exact Session.lenient_encrypt (h ▸ hprovider) _ _ _
  · exact .bind (.accept (Record.lenient_make _ _ _)) fun _ => .modify fun _ => rfl

theorem spares_sendMessage (message : HandshakeMessage) : Spares provider (sendMessage message) :=
  .bind (.accept message.lenient_frame) fun _ => .bind (.updateSession fun _ => rfl) fun _ =>
    .get_bind fun _ _ => .forM (spares_sendRecord hprovider _) _

theorem spares_sendChangeCipherSpec : Spares provider (sendChangeCipherSpec (κ := κ)) :=
  .bind (spares_sendRecord hprovider _ _) fun _ => .get_bind fun _ _ => .onSession fun _ h =>
    ⟨Session.lenient_createEncrypter (h ▸ hprovider) _, (Session.Inherits.createEncrypter ⟨rfl, rfl⟩ _).provider.trans h⟩

theorem spares_sendFinished : Spares provider (sendFinished (κ := κ)) :=
  .get_bind fun _ h => .bind (.accept (Session.lenient_verifyData (h ▸ hprovider) _)) fun _ =>
    spares_sendMessage hprovider _

omit hprovider in
theorem spares_remember (message : HandshakeMessage) : Spares provider (remember message) :=
  .updateSession fun _ => rfl

omit hprovider in
theorem spares_finish : Spares provider (finish (κ := κ)) :=
  .bind (.updateSession fun _ => rfl) fun _ => .enter _

omit hprovider in
theorem spares_applyServerHello (answer : ServerHello) : Spares provider (onSession (·.applyServerHello answer)) :=
  .onSession fun session h => ⟨session.lenient_applyServerHello answer,
    (Session.Inherits.applyServerHello ⟨rfl, rfl⟩ answer).provider.trans h⟩

end

/-! ### Steps that reject before they change anything -/

/-- A step from `endpoint` that leaves it as it is where it rejects. -/
def Rejects (provider : Provider κ) (endpoint : Endpoint κ) (step : Step κ α) : Prop :=
  Ends step endpoint (fun _ after => after.session.provider = provider) fun failure after =>
    failure.Rejects → after = endpoint

variable {endpoint : Endpoint κ}

theorem Spares.rejects {step : Step κ α} (h : Spares provider step) (hprovider : endpoint.session.provider = provider) :
    Rejects provider endpoint step :=
  (h endpoint hprovider).mono (fun _ _ => id) fun _ _ hspared hrejects => absurd hrejects hspared

namespace Rejects

/-- Behind a step that rejects comes what rejects nothing. -/
theorem bind {step : Step κ α} {next : α → Step κ β} (hstep : Rejects provider endpoint step)
    (hnext : ∀ value, Spares provider (next value)) : Rejects provider endpoint (step >>= next) := by
  refine ends_bind.mpr (hstep.mono (fun value after hprovider => ?_) fun _ _ => id)
  exact (hnext value after hprovider).mono (fun _ _ => id) fun _ _ hspared hrejects => absurd hrejects hspared

theorem refuse (alert : AlertDescription) : Rejects provider endpoint (refuse alert : Step κ α) :=
  fun _ => rfl

theorem get_bind {next : Endpoint κ → Step κ α} (h : Rejects provider endpoint (next endpoint)) :
    Rejects provider endpoint (get >>= next) :=
  h

theorem readBody_bind {value : Option α} {next : α → Step κ β} (h : ∀ body, Rejects provider endpoint (next body)) :
    Rejects provider endpoint (readBody value >>= next) :=
  ends_bind.mpr (ends_readBody (fun body _ => h body) fun _ => rfl)

theorem accept_bind {result : Except AlertDescription α} {next : α → Step κ β}
    (h : ∀ value, Rejects provider endpoint (next value)) : Rejects provider endpoint (accept result >>= next) :=
  ends_bind.mpr (ends_accept (fun value _ => h value) fun _ _ _ => rfl)

theorem guard {condition : Prop} [Decidable condition] {alert : AlertDescription} {next : PUnit → Step κ α}
    (h : Rejects provider endpoint (next ⟨⟩)) :
    Rejects provider endpoint (if condition then Endpoint.refuse alert >>= next else next ⟨⟩) :=
  ends_guard (fun _ _ => rfl) fun _ => h

end Rejects

section

variable (hlenient : provider.Lenient) (hprovider : endpoint.session.provider = provider)
include hprovider

theorem rejects_receiveFinished (message : HandshakeMessage) : Rejects provider endpoint (receiveFinished message) :=
  .readBody_bind fun _ => .get_bind (.accept_bind fun _ => .guard ((spares_remember message).rejects hprovider))

theorem rejects_receiveServerHello (offer : ClientOffer) (message : HandshakeMessage) :
    Rejects provider endpoint (receiveServerHello offer message) :=
  .readBody_bind fun answer => Spares.rejects (.bind (spares_remember message) fun _ =>
    .bind (.accept (offer.lenient_check answer)) fun _ => .bind (spares_applyServerHello answer) fun _ => .enter _) hprovider

theorem rejects_receiveIdentityHint (message : HandshakeMessage) :
    Rejects provider endpoint (receiveIdentityHint message) :=
  .readBody_bind fun _ => Spares.rejects (.bind (spares_remember message) fun _ => .enter _) hprovider

theorem rejects_receiveIdentity (policy : ServerPolicy) (message : HandshakeMessage) :
    Rejects provider endpoint (receiveIdentity policy message) := by
  refine .readBody_bind fun identity => Spares.rejects (.bind (spares_remember message) fun _ => ?_) hprovider
  split
  · exact .refuse (by decide)
  · exact .bind (.updateSession fun _ => rfl) fun _ => .enter _

include hlenient

theorem rejects_receiveServerHelloDone (message : HandshakeMessage) :
    Rejects provider endpoint (receiveServerHelloDone message) := by
  rw [receiveServerHelloDone]
  refine .guard (Spares.rejects (.bind (spares_remember message) fun _ => .get_bind fun _ _ => ?_) hprovider)
  refine .bind (.accept (KeyIdentity.lenient_body _)) fun _ => .bind (spares_sendMessage hlenient _) fun _ => ?_
  exact .bind (spares_sendChangeCipherSpec hlenient) fun _ => .bind (spares_sendFinished hlenient) fun _ => .enter _

theorem rejects_receiveClientHello (policy : ServerPolicy) (message : HandshakeMessage) :
    Rejects provider endpoint (receiveClientHello policy message) := by
  refine .readBody_bind fun hello => Spares.rejects (.bind (spares_remember message) fun _ => ?_) hprovider
  refine .get_bind fun endpoint h => .bind (.accept (policy.lenient_answer hello _)) fun (answer, _) => ?_
  refine .bind (.set h) fun _ => .bind (.updateSession fun _ => rfl) fun _ => .bind (spares_applyServerHello answer) fun _ => ?_
  refine .bind (.accept answer.lenient_bytes) fun _ => .bind (spares_sendMessage hlenient _) fun _ => ?_
  refine .bind (.accept (KeyIdentity.lenient_body _)) fun _ => .bind (spares_sendMessage hlenient _) fun _ => ?_
  exact .bind (spares_sendMessage hlenient ⟨.serverHelloDone, []⟩) fun _ => .enter _

theorem rejects_receiveMessage (message : HandshakeMessage) : Rejects provider endpoint (receiveMessage message) := by
  rw [receiveMessage]
  refine .get_bind ?_
  split
  · exact rejects_receiveServerHello hprovider _ message
  · exact rejects_receiveIdentityHint hprovider message
  · exact rejects_receiveServerHelloDone hlenient hprovider message
  · exact rejects_receiveServerHelloDone hlenient hprovider message
  · exact .bind (rejects_receiveFinished hprovider message) fun _ => spares_finish
  · exact rejects_receiveClientHello hlenient hprovider _ message
  · exact rejects_receiveIdentity hprovider _ message
  · exact .bind (rejects_receiveFinished hprovider message) fun _ => .bind (spares_sendChangeCipherSpec hlenient) fun _ =>
      .bind (spares_sendFinished hlenient) fun _ => spares_finish
  · exact .refuse _

end

/-- A message that is rejected changes nothing. -/
theorem eq_of_rejected {message : HandshakeMessage} (hlenient : endpoint.session.provider.Lenient) {alert : AlertDescription}
    (halert : alert ∈ rejections) {failed : Endpoint κ}
    (hrun : (receiveMessage message).run endpoint = .error (.sentAlert alert) failed) : failed = endpoint := by
  have hrejects := rejects_receiveMessage hlenient rfl message
  rw [Rejects, Ends, hrun] at hrejects
  exact hrejects ⟨alert, halert, rfl⟩

end Endpoint

end PresharedTls
