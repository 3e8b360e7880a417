import PresharedTls.Proofs.Endpoint.Sturdy
import PresharedTls.Proofs.FirstContext

/-!
# Endpoints that differ in their keys

Two endpoints that differ in nothing but keys, and that have made no contexts of them, do the same: what is
handled ends alike at both and they differ in nothing but keys still, or a context is made at both, and where that
happens they still differ in nothing but keys. Nothing else looks at a key, and where one is looked for in vain the
other is too.
-/

namespace PresharedTls

variable {κ α β : Type}

/-- Two keys that may be any, as long as they are short enough for a premaster secret, or two that are missing. -/
inductive KeysAlike : Option Bytes → Option Bytes → Prop
  | missing : KeysAlike none none
  | known {key other : Bytes} (h : key.length ≤ 65535) (hother : other.length ≤ 65535) : KeysAlike (some key) (some other)

/-- A provider that makes contexts of all keys, or of none for a reason that is the same for all. -/
structure Provider.Evenhanded (provider : Provider κ) : Prop where
  createEncoder : ∀ params key sender, KeysAlike (some params.key) (some key) →
    (provider.createEncoder { params with key := key } sender).map (fun _ => ()) =
      (provider.createEncoder params sender).map fun _ => ()
  createDecoder : ∀ params key sender, KeysAlike (some params.key) (some key) →
    (provider.createDecoder { params with key := key } sender).map (fun _ => ()) =
      (provider.createDecoder params sender).map fun _ => ()

/-- A context is made unless the suite is newer than the version, which has nothing to do with the key. -/
theorem Provider.evenhanded_standard : standard.Evenhanded := by
  have hcreate (params : SecurityParameters) (key : Bytes) (sender : Role) (h : KeysAlike (some params.key) (some key)) :
      (Protection.create { params with key := key } sender).map (fun _ => ()) =
        (Protection.create params sender).map fun _ => () := by
    cases h with | known hkey hother
    by_cases hversion : params.version < params.suite.minimumVersion
    · simp only [Protection.create, if_pos hversion]
      rfl
    · have hminimum := UInt16.not_lt.mp hversion
      obtain ⟨context, hcontext⟩ := Protection.exists_create hminimum (Nat.lt_succ_of_le hkey) sender
      obtain ⟨other, hother⟩ :=
        @Protection.exists_create { params with key := key } hminimum (Nat.lt_succ_of_le hother) sender
      rw [hcontext, hother]
      rfl
  exact ⟨hcreate, hcreate⟩

/-! ### Sessions -/

namespace Session

/-- The session with another key, or with none. -/
def rekeyed (key : Option Bytes) (session : Session κ) : Session κ :=
  { session with key := key }

variable {session : Session κ} {key : Option Bytes}

theorem not_hasContext (hencrypter : session.encrypter = none) (hdecrypter : session.decrypter = none) :
    ¬ session.HasContext := by
  rw [HasContext, hencrypter, hdecrypter]
  exact not_or_intro Bool.false_ne_true Bool.false_ne_true

theorem encrypter_eq_none (h : ¬ session.HasContext) : session.encrypter = none :=
  Option.not_isSome_iff_eq_none.mp fun hsome => h (.inl hsome)

theorem decrypter_eq_none (h : ¬ session.HasContext) : session.decrypter = none :=
  Option.not_isSome_iff_eq_none.mp fun hsome => h (.inr hsome)

theorem encrypt_of_clear (h : ¬ session.HasContext) (typeCode : UInt8) (plaintext : Bytes) (entropy : Entropy) :
    session.encrypt typeCode plaintext entropy = (.ok plaintext, session, entropy) := by
  rw [encrypt, encrypter_eq_none h]

theorem decrypt_of_clear (h : ¬ session.HasContext) (typeCode : UInt8) (version : UInt16) (fragment : Bytes) :
    session.decrypt typeCode version fragment = (.ok fragment, session) := by
  rw [decrypt, decrypter_eq_none h]

theorem verifyData_of_clear (h : ¬ session.HasContext) (sender : Role) :
    session.verifyData sender = .error .internalError := by
  rw [verifyData, encrypter_eq_none h, decrypter_eq_none h]
  cases session.transcript <;> rfl

theorem applyExtension_rekeyed (session : Session κ) (key : Option Bytes) (type : UInt16) (data : Bytes) :
    (session.rekeyed key).applyExtension type data = (session.applyExtension type data).map (·.rekeyed key) := by
  rw [applyExtension, applyExtension]
  split
  · rfl
  · cases MaxFragmentLength.ofBytes data <;> rfl
  · split <;> rfl
  · split <;> rfl

theorem applyExtensions_rekeyed (session : Session κ) (key : Option Bytes) (entries : List (UInt16 × Bytes)) :
    (session.rekeyed key).applyExtensions entries =
      ((session.applyExtensions entries).1, (session.applyExtensions entries).2.rekeyed key) := by
  induction entries generalizing session with
  | nil => rfl
  | cons entry rest ih =>
    obtain ⟨type, data⟩ := entry
    rw [applyExtensions, applyExtensions, applyExtension_rekeyed]
    cases session.applyExtension type data with
    | error alert => rfl
    | ok after => exact ih after

theorem applyServerHello_rekeyed (session : Session κ) (key : Option Bytes) (answer : ServerHello) :
    (session.rekeyed key).applyServerHello answer =
      ((session.applyServerHello answer).1, (session.applyServerHello answer).2.rekeyed key) := by
  rw [applyServerHello, applyServerHello, applyExtensions_rekeyed]
  cases Version.ofCode? answer.version with
  | none => rfl
  | some version =>
    cases CipherSuite.ofCode? answer.suite with
    | none => rfl
    | some suite => rcases session.applyExtensions answer.extensions.entries with ⟨_ | _, after⟩ <;> rfl

theorem hasContext_applyServerHello {answer : ServerHello} (h : ¬ session.HasContext) :
    ¬ (session.applyServerHello answer).2.HasContext := by
  obtain ⟨terms, hafter, -⟩ := session.applyServerHello_eq answer
  rw [hafter]
  exact h

/-- What keys are made of is known of both sessions or of neither. -/
theorem securityParameters?_rekeyed (session : Session κ) (hkey : KeysAlike session.key key) :
    (session.securityParameters? = none ∧ (session.rekeyed key).securityParameters? = none) ∨
      ∃ params other, KeysAlike (some params.key) (some other) ∧ session.securityParameters? = some params ∧
        (session.rekeyed key).securityParameters? = some { params with key := other } := by
  rw [securityParameters?, securityParameters?, rekeyed]
  generalize session.key = own at hkey
  cases session.suite with
  | none => exact .inl ⟨rfl, rfl⟩
  | some suite =>
    cases session.clientRandom with
    | none => exact .inl ⟨rfl, rfl⟩
    | some clientRandom =>
      cases session.serverRandom with
      | none => exact .inl ⟨rfl, rfl⟩
      | some serverRandom =>
        cases hkey with
        | missing => exact .inl ⟨rfl, rfl⟩
        | known h hother => exact .inr ⟨_, _, .known h hother, rfl, rfl⟩

/-- Makes a context of what is agreed on, and stores it. -/
def settle (create : SecurityParameters → Except AlertDescription κ) (store : κ → Session κ) (session : Session κ) :
    Except AlertDescription Unit × Session κ :=
  match session.securityParameters? with
  | none => (.error .internalError, session)
  | some params =>
    match create params with
    | .error alert => (.error alert, session)
    | .ok context => (.ok (), store context)

theorem createEncrypter_of_clear (h : ¬ session.HasContext) (sender : Role) : session.createEncrypter sender =
    session.settle (session.provider.createEncoder · sender) fun context => { session with encrypter := some context } := by
  rw [createEncrypter, encrypter_eq_none h, settle]
  cases session.securityParameters? <;> rfl

theorem createDecrypter_of_clear (h : ¬ session.HasContext) (sender : Role) : session.createDecrypter sender =
    session.settle (session.provider.createDecoder · sender) fun context => { session with decrypter := some context } := by
  rw [createDecrypter, decrypter_eq_none h, settle]
  cases session.securityParameters? <;> rfl

/-- Two sessions behind work that makes a context of both keys, or of neither and for the same reason. -/
def SettlesAlike (session : Session κ) (key : Option Bytes) (outcome other : Except AlertDescription Unit × Session κ) : Prop :=
  Opens outcome ∧ Opens other ∨
    ∃ alert, outcome = (.error alert, session) ∧ other = (.error alert, session.rekeyed key)

theorem settle_rekeyed (hkey : KeysAlike session.key key) {create : SecurityParameters → Except AlertDescription κ}
    (hcreate : ∀ params other, KeysAlike (some params.key) (some other) →
      (create { params with key := other }).map (fun _ => ()) = (create params).map fun _ => ())
    {store store' : κ → Session κ} (hstore : ∀ context, (store context).HasContext)
    (hstore' : ∀ context, (store' context).HasContext) :
    session.SettlesAlike key (session.settle create store) ((session.rekeyed key).settle create store') := by
  rw [settle, settle]
  rcases session.securityParameters?_rekeyed hkey with ⟨hparams, hparams'⟩ | ⟨params, other, halike, hparams, hparams'⟩
  · rw [hparams, hparams']
    exact .inr ⟨_, rfl, rfl⟩
  · have hmade := hcreate params other halike
    rw [hparams, hparams']
    dsimp only
    cases hown : create params with
    | error alert =>
      cases hother : create { params with key := other } with
      | error alert' =>
        rw [hown, hother] at hmade
        cases hmade
        exact .inr ⟨_, rfl, rfl⟩
      | ok context =>
        rw [hown, hother] at hmade
        cases hmade
    | ok context =>
      cases hother : create { params with key := other } with
      | error alert =>
        rw [hown, hother] at hmade
        cases hmade
      | ok context' => exact .inl ⟨⟨rfl, hstore context⟩, rfl, hstore' context'⟩

section

variable (hclear : ¬ session.HasContext) (hkey : KeysAlike session.key key)
  (hprovider : session.provider.Evenhanded) (sender : Role)
include hclear hkey hprovider

theorem createEncrypter_rekeyed : session.SettlesAlike key (session.createEncrypter sender)
    ((session.rekeyed key).createEncrypter sender) := by
  rw [createEncrypter_of_clear hclear, createEncrypter_of_clear (show ¬ (session.rekeyed key).HasContext from hclear)]
  exact settle_rekeyed hkey (fun params other => hprovider.createEncoder params other sender) (fun _ => .inl rfl) fun _ => .inl rfl

theorem createDecrypter_rekeyed : session.SettlesAlike key (session.createDecrypter sender)
    ((session.rekeyed key).createDecrypter sender) := by
  rw [createDecrypter_of_clear hclear, createDecrypter_of_clear (show ¬ (session.rekeyed key).HasContext from hclear)]
  exact settle_rekeyed hkey (fun params other => hprovider.createDecoder params other sender) (fun _ => .inr rfl) fun _ => .inr rfl

end

end Session

/-! ### Endpoints -/

/-- Two sides that differ in the keys of the same identities at most. -/
inductive Side.Twins : Side → Side → Prop
  | client (offer : ClientOffer) : Twins (.client offer) (.client offer)
  | server (policy : ServerPolicy) {resolve : Bytes → Option Bytes}
      (h : ∀ identity, KeysAlike (policy.resolve identity) (resolve identity)) :
      Twins (.server policy) (.server { policy with resolve := resolve })

theorem Side.Twins.role_eq {side side' : Side} (h : side.Twins side') : side'.role = side.role := by
  cases h <;> rfl

namespace Endpoint

/-- The endpoint with another side and another key. -/
def twin (side : Side) (key : Option Bytes) (endpoint : Endpoint κ) : Endpoint κ :=
  { endpoint with side := side, session := endpoint.session.rekeyed key }

/-- Two endpoints that differ in their keys at most, and have made no contexts of them. -/
inductive Twins (provider : Provider κ) (endpoint : Endpoint κ) : Endpoint κ → Prop
  | intro (side : Side) (key : Option Bytes) (hside : endpoint.side.Twins side) (hkey : KeysAlike endpoint.session.key key)
      (hclear : ¬ endpoint.session.HasContext) (hprovider : endpoint.session.provider = provider) :
      Twins provider endpoint (endpoint.twin side key)

variable {provider : Provider κ} {endpoint endpoint' : Endpoint κ}

/-! ### Steps that end alike

At twins these steps end alike and leave twins. -/

/-- Steps that end alike at twins and leave twins. -/
abbrev Agree (provider : Provider κ) (step step' : Step κ α) : Prop :=
  Corresponds (Twins provider) step step'

namespace Agree

theorem refuse (alert : AlertDescription) : Agree provider (refuse alert : Step κ α) (refuse alert) :=
  Corresponds.throw _

theorem accept (result : Except AlertDescription α) : Agree provider (accept result) (accept result) := by
  cases result with
  | ok value => exact Corresponds.pure value
  | error alert => exact refuse alert

theorem readBody (value : Option α) : Agree provider (readBody value) (readBody value) := by
  cases value with
  | some body => exact Corresponds.pure body
  | none => exact refuse _

theorem guard {condition : Prop} [Decidable condition] {alert : AlertDescription} {next next' : PUnit → Step κ α}
    (h : Agree provider (next ⟨⟩) (next' ⟨⟩)) :
    Agree provider (if condition then Endpoint.refuse alert >>= next else next ⟨⟩)
      (if condition then Endpoint.refuse alert >>= next' else next' ⟨⟩) := by
  split
  · exact fun _ endpoint' htwins => ⟨endpoint', rfl, htwins⟩
  · exact h

theorem forM_refuse (fault : Option AlertDescription) :
    Agree provider (fault.forM Endpoint.refuse : Step κ Unit) (fault.forM Endpoint.refuse) := by
  cases fault with
  | none => exact Corresponds.pure _
  | some alert => exact refuse alert

end Agree

theorem agree_enter (phase : Phase) : Agree provider (enter phase) (enter phase) := by
  refine Corresponds.modify ?_
  rintro endpoint _ ⟨side, key, hside, hkey, hclear, hprovider⟩
  exact .intro _ _ hside hkey hclear hprovider

theorem agree_remember (message : HandshakeMessage) : Agree provider (remember message) (remember message) := by
  refine Corresponds.modify ?_
  rintro endpoint _ ⟨side, key, hside, hkey, hclear, hprovider⟩
  exact .intro _ _ hside hkey hclear hprovider

theorem agree_withClientRandom (random : HelloRandom) :
    Agree provider (updateSession (·.withClientRandom random)) (updateSession (·.withClientRandom random)) := by
  refine Corresponds.modify ?_
  rintro endpoint _ ⟨side, key, hside, hkey, hclear, hprovider⟩
  exact .intro _ _ hside hkey hclear hprovider

theorem agree_finished : Agree provider (updateSession (·.finish)) (updateSession (·.finish)) := by
  refine Corresponds.modify ?_
  rintro endpoint _ ⟨side, key, hside, hkey, hclear, hprovider⟩
  exact .intro _ _ hside hkey hclear hprovider

theorem agree_applyServerHello (answer : ServerHello) :
    Agree provider (onSession (·.applyServerHello answer)) (onSession (·.applyServerHello answer)) := by
  refine Corresponds.get_bind ?_
  rintro endpoint _ ⟨side, key, hside, hkey, hclear, hprovider⟩
  have hinherits : endpoint.session.Inherits (endpoint.session.applyServerHello answer).2 :=
    Session.Inherits.applyServerHello ⟨rfl, rfl⟩ answer
  obtain ⟨terms, hafter, -⟩ := endpoint.session.applyServerHello_eq answer
  have hkey' : KeysAlike (endpoint.session.applyServerHello answer).2.key key := by
    rw [hafter]
    exact hkey
  have hclear' : ¬ (endpoint.session.applyServerHello answer).2.HasContext :=
    Session.hasContext_applyServerHello hclear
  have htwin : (endpoint.twin side key).session.applyServerHello answer = _ :=
    endpoint.session.applyServerHello_rekeyed key answer
  dsimp only
  rw [htwin]
  exact Corresponds.bind (Corresponds.set (.intro _ _ hside hkey' hclear' (hinherits.provider.trans hprovider)))
    fun _ => Agree.accept _

/-! ### Sending -/

/-- In the clear a plaintext is sent as it is. -/
theorem agree_sendRecord (type : ContentType) (plaintext : Bytes) :
    Agree provider (sendRecord type plaintext) (sendRecord type plaintext) := by
  rw [sendRecord]
  refine Corresponds.get_bind ?_
  rintro endpoint _ ⟨side, key, hside, hkey, hclear, hprovider⟩
  refine Agree.guard ?_
  rw [Session.encrypt_of_clear hclear, Session.encrypt_of_clear (show ¬ (endpoint.twin side key).session.HasContext from hclear)]
  refine Corresponds.bind (Corresponds.set (.intro _ _ hside hkey hclear hprovider)) fun _ => ?_
  refine Corresponds.bind (Agree.accept _) fun fragment => Corresponds.bind (Agree.accept _) fun record => ?_
  refine Corresponds.modify ?_
  rintro endpoint _ ⟨side, key, hside, hkey, hclear, hprovider⟩
  exact .intro _ _ hside hkey hclear hprovider

theorem agree_sendFragmented (type : ContentType) (b : Bytes) :
    Agree provider (sendFragmented type b) (sendFragmented type b) := by
  refine Corresponds.get_bind ?_
  rintro endpoint _ ⟨side, key, -, -, -, -⟩
  exact Corresponds.forM (agree_sendRecord type) _

theorem agree_sendMessage (message : HandshakeMessage) : Agree provider (sendMessage message) (sendMessage message) := by
  refine Corresponds.bind (Agree.accept _) fun framed => Corresponds.bind (Corresponds.modify ?_) fun _ =>
    agree_sendFragmented .handshake framed
  rintro endpoint _ ⟨side, key, hside, hkey, hclear, hprovider⟩
  exact .intro _ _ hside hkey hclear hprovider

/-- Without contexts there is no verify data. -/
theorem agree_compute (htwins : Twins provider endpoint endpoint') (sender sender' : Role) :
    Agree provider (Deed.compute endpoint.session sender).step (Deed.compute endpoint'.session sender').step := by
  obtain ⟨side, key, -, -, hclear, -⟩ := htwins
  have hclear' : ¬ (endpoint.twin side key).session.HasContext := hclear
  rw [Deed.step_compute, Deed.step_compute, Session.verifyData_of_clear hclear, Session.verifyData_of_clear hclear']
  exact Agree.refuse _

theorem agree_decrypt (typeCode : UInt8) (version : UInt16) (fragment : Bytes) :
    Agree provider (onSession (·.decrypt typeCode version fragment)) (onSession (·.decrypt typeCode version fragment)) := by
  refine Corresponds.get_bind ?_
  rintro endpoint _ ⟨side, key, hside, hkey, hclear, hprovider⟩
  dsimp only
  rw [Session.decrypt_of_clear hclear, Session.decrypt_of_clear (show ¬ (endpoint.twin side key).session.HasContext from hclear)]
  exact Corresponds.bind (Corresponds.set (.intro _ _ hside hkey hclear hprovider)) fun _ => Agree.accept _

theorem agree_receiveApplicationData (plaintext : Bytes) :
    Agree provider (receiveApplicationData plaintext) (receiveApplicationData plaintext) := by
  refine Corresponds.get_bind ?_
  rintro endpoint _ ⟨side, key, hside, hkey, hclear, hprovider⟩
  exact Agree.guard (Corresponds.set (.intro _ _ hside hkey hclear hprovider))

/-! ### Work that ends alike

At twins that have made no context this ends alike and leaves twins that have made none. -/

/-- Two endpoints that differ in their keys at most, with the notes that no context was made. -/
def Unkeyed (provider : Provider κ) (state state' : Endpoint κ × Option (Endpoint κ)) : Prop :=
  state.1.Twins provider state'.1 ∧ state.2 = none ∧ state'.2 = none

abbrev Concur (provider : Provider κ) (work work' : Watched κ α) : Prop :=
  Corresponds (Unkeyed provider) work work'

namespace Concur

theorem step {step step' : Step κ α} (h : Agree provider step step') :
    Concur provider (Endpoint.step step) (Endpoint.step step') := by
  rintro ⟨endpoint, _⟩ ⟨endpoint', _⟩ ⟨htwins, rfl, rfl⟩
  rw [Noted.ends_step, Noted.run_step]
  refine (h endpoint endpoint' htwins).mono ?_ ?_
  · rintro value after ⟨after', hrun, hafter⟩
    rw [hrun]
    exact ⟨_, rfl, hafter, rfl, rfl⟩
  · rintro failure after ⟨after', hrun, hafter⟩
    rw [hrun]
    exact ⟨_, rfl, hafter, rfl, rfl⟩

/-- A deed that makes no context leaves no note of one. -/
theorem perform {deed deed' : Deed κ α} (h : Agree provider deed.step deed'.step) (hquiet : deed.makesContext = false)
    (hquiet' : deed'.makesContext = false) : Concur provider (Endpoint.perform deed) (Endpoint.perform deed') := by
  rintro ⟨endpoint, _⟩ ⟨endpoint', _⟩ ⟨htwins, rfl, rfl⟩
  rw [Noted.ends_perform, Noted.run_perform]
  refine (h endpoint endpoint' htwins).mono ?_ ?_
  · rintro value after ⟨after', hrun, hafter⟩
    rw [hrun]
    exact ⟨_, rfl, hafter, Watched.deed_of_quiet hquiet _ _ _, Watched.deed_of_quiet hquiet' _ _ _⟩
  · rintro failure after ⟨after', hrun, hafter⟩
    rw [hrun]
    exact ⟨_, rfl, hafter, rfl, rfl⟩

theorem get_bind {next next' : Endpoint κ → Watched κ α}
    (h : ∀ endpoint endpoint', Twins provider endpoint endpoint' → Concur provider (next endpoint) (next' endpoint')) :
    Concur provider (Endpoint.step get >>= next) (Endpoint.step get >>= next') :=
  fun state state' hunkeyed => h state.1 state'.1 hunkeyed.1 state state' hunkeyed

theorem guard {condition : Prop} [Decidable condition] {alert : AlertDescription} {next next' : PUnit → Watched κ α}
    (h : Concur provider (next ⟨⟩) (next' ⟨⟩)) :
    Concur provider (if condition then Endpoint.step (Endpoint.refuse alert) >>= next else next ⟨⟩)
      (if condition then Endpoint.step (Endpoint.refuse alert) >>= next' else next' ⟨⟩) := by
  split
  · exact fun _ state' hunkeyed => ⟨state', rfl, hunkeyed⟩
  · exact h

end Concur

theorem concur_enter (phase : Phase) :
    Concur provider (Endpoint.perform (.enter phase)) (Endpoint.perform (.enter phase)) :=
  Concur.perform (agree_enter phase) rfl rfl

theorem concur_send (message : HandshakeMessage) :
    Concur provider (Endpoint.perform (.send message)) (Endpoint.perform (.send message)) :=
  Concur.perform (agree_sendMessage message) rfl rfl

theorem concur_remember (message : HandshakeMessage) :
    Concur provider (Endpoint.step (remember message)) (Endpoint.step (remember message)) :=
  Concur.step (agree_remember message)

theorem concur_finish : Concur (κ := κ) provider finish finish :=
  Corresponds.bind (Concur.perform agree_finished rfl rfl) fun _ => concur_enter _

theorem concur_sendFinished : Concur (κ := κ) provider sendFinished sendFinished :=
  Concur.get_bind fun _ _ htwins =>
    Corresponds.bind (Concur.perform (agree_compute htwins _ _) rfl rfl) fun _ => concur_send _

/-! ### Handshake messages -/

theorem concur_receiveFinished (message : HandshakeMessage) :
    Concur (κ := κ) provider (receiveFinished message) (receiveFinished message) := by
  refine Corresponds.bind (Concur.step (Agree.readBody _)) fun verifyData => ?_
  refine Concur.get_bind fun endpoint endpoint' htwins => ?_
  refine Corresponds.bind (Concur.perform (agree_compute htwins _ _) rfl rfl) fun expected => ?_
  exact Concur.guard (concur_remember message)

theorem concur_sendClientHello (offer : ClientOffer) :
    Concur (κ := κ) provider (sendClientHello offer) (sendClientHello offer) := by
  refine Concur.get_bind ?_
  rintro endpoint _ ⟨side, key, hside, hkey, hclear, hprovider⟩
  refine Corresponds.bind (Concur.step (Corresponds.set (.intro _ _ hside hkey hclear hprovider))) fun _ => ?_
  refine Corresponds.bind (Concur.step (Agree.accept _)) fun body => ?_
  refine Corresponds.bind (Concur.step (agree_withClientRandom _)) fun _ => ?_
  exact Corresponds.bind (concur_send _) fun _ => concur_enter _

theorem concur_receiveServerHello (offer : ClientOffer) (message : HandshakeMessage) :
    Concur (κ := κ) provider (receiveServerHello offer message) (receiveServerHello offer message) :=
  Corresponds.bind (Concur.step (Agree.readBody _)) fun answer => Corresponds.bind (concur_remember message) fun _ =>
    Corresponds.bind (Concur.step (Agree.accept _)) fun _ =>
      Corresponds.bind (Concur.step (agree_applyServerHello answer)) fun _ => concur_enter _

theorem concur_receiveIdentityHint (message : HandshakeMessage) :
    Concur (κ := κ) provider (receiveIdentityHint message) (receiveIdentityHint message) :=
  Corresponds.bind (Concur.step (Agree.readBody _)) fun _ => Corresponds.bind (concur_remember message) fun _ =>
    concur_enter _

/-- A server does not look up keys to answer a hello. -/
theorem concur_receiveClientHello (policy : ServerPolicy) (resolve : Bytes → Option Bytes) (message : HandshakeMessage) :
    Concur (κ := κ) provider (receiveClientHello policy message)
      (receiveClientHello { policy with resolve := resolve } message) := by
  refine Corresponds.bind (Concur.step (Agree.readBody _)) fun hello => ?_
  refine Corresponds.bind (concur_remember message) fun _ => Concur.get_bind ?_
  rintro endpoint _ ⟨side, key, hside, hkey, hclear, hprovider⟩
  refine Corresponds.bind (Concur.step (Agree.accept (policy.answer hello endpoint.entropy))) fun (answer, entropy) => ?_
  refine Corresponds.bind (Concur.step (Corresponds.set (.intro _ _ hside hkey hclear hprovider))) fun _ => ?_
  refine Corresponds.bind (Concur.step (agree_withClientRandom _)) fun _ => ?_
  refine Corresponds.bind (Concur.step (agree_applyServerHello answer)) fun _ => ?_
  refine Corresponds.bind (Concur.step (Agree.accept _)) fun _ => Corresponds.bind (concur_send _) fun _ => ?_
  refine Corresponds.bind (Concur.step (Agree.accept _)) fun _ => Corresponds.bind (concur_send _) fun _ => ?_
  exact Corresponds.bind (concur_send _) fun _ => concur_enter _

/-- The key of an identity is only stored. -/
theorem concur_receiveIdentity (policy : ServerPolicy) {resolve : Bytes → Option Bytes}
    (hresolve : ∀ identity, KeysAlike (policy.resolve identity) (resolve identity)) (message : HandshakeMessage) :
    Concur (κ := κ) provider (receiveIdentity policy message)
      (receiveIdentity { policy with resolve := resolve } message) := by
  refine Corresponds.bind (Concur.step (Agree.readBody _)) fun identity => ?_
  refine Corresponds.bind (concur_remember message) fun _ => ?_
  have hkeys := hresolve identity
  dsimp only
  generalize policy.resolve identity = key, resolve identity = other at hkeys
  cases hkeys with
  | missing => exact Concur.step (Agree.refuse _)
  | known h hother =>
    refine Corresponds.bind (Concur.step (Corresponds.modify ?_)) fun _ => concur_enter _
    rintro endpoint _ ⟨side, -, hside, -, hclear, hprovider⟩
    exact .intro _ _ hside (.known h hother) hclear hprovider

/-! ### Records -/

theorem concur_forM_refuse (fault : Option AlertDescription) :
    Concur (κ := κ) provider (Endpoint.step (fault.forM refuse)) (Endpoint.step (fault.forM refuse)) :=
  Concur.step (Agree.forM_refuse fault)

theorem concur_take (message : HandshakeMessage) :
    Concur (κ := κ) provider (Endpoint.perform (.take message)) (Endpoint.perform (.take message)) := by
  refine Concur.perform (Corresponds.modify ?_) rfl rfl
  rintro endpoint _ ⟨side, key, hside, hkey, hclear, hprovider⟩
  exact .intro _ _ hside hkey hclear hprovider

theorem concur_receiveAlert (plaintext : Bytes) :
    Concur (κ := κ) provider (receiveAlert plaintext) (receiveAlert plaintext) := by
  refine Corresponds.bind (Concur.step (Agree.readBody _)) fun alert => ?_
  refine Corresponds.bind (Concur.step (Corresponds.modify ?_)) fun _ =>
    Corresponds.bind (concur_enter _) fun _ => Concur.step (Corresponds.throw _)
  rintro endpoint _ ⟨side, key, hside, hkey, hclear, hprovider⟩
  exact .intro _ _ hside hkey hclear hprovider

/-! ### Work that makes a context

At twins this ends alike and leaves twins, or it makes a context at both, and up to there they are twins. -/

/-- At both a context is made, and where that is done they are twins. -/
def OpenAlike (provider : Provider κ) (work work' : Watched κ α) (state state' : Endpoint κ × Option (Endpoint κ)) : Prop :=
  ∃ before before' : Endpoint κ, before.Twins provider before' ∧
    Ends work state (fun _ => before.Opened) (fun _ => before.Opened) ∧
      Ends work' state' (fun _ => before'.Opened) fun _ => before'.Opened

/-- Both end alike, and leave twins. -/
def EndsAlike (provider : Provider κ) (work work' : Watched κ α) (state state' : Endpoint κ × Option (Endpoint κ)) : Prop :=
  Ends work state (fun value after => ∃ after', work'.run state' = .ok value after' ∧ Unkeyed provider after after')
    fun failure after => ∃ after', work'.run state' = .error failure after' ∧ Unkeyed provider after after'

def Parallel (provider : Provider κ) (work work' : Watched κ α) : Prop :=
  ∀ state state', Unkeyed provider state state' →
    EndsAlike provider work work' state state' ∨ OpenAlike provider work work' state state'

theorem Concur.parallel {work work' : Watched κ α} (h : Concur provider work work') : Parallel provider work work' :=
  fun state state' hunkeyed => .inl (h state state' hunkeyed)

namespace Parallel

theorem get_bind {next next' : Endpoint κ → Watched κ α}
    (h : ∀ endpoint endpoint', Twins provider endpoint endpoint' → Parallel provider (next endpoint) (next' endpoint')) :
    Parallel provider (Endpoint.step get >>= next) (Endpoint.step get >>= next') :=
  fun state state' hunkeyed => h state.1 state'.1 hunkeyed.1 state state' hunkeyed

theorem guard {condition : Prop} [Decidable condition] {alert : AlertDescription} {next next' : PUnit → Watched κ α}
    (h : Parallel provider (next ⟨⟩) (next' ⟨⟩)) :
    Parallel provider (if condition then Endpoint.step (Endpoint.refuse alert) >>= next else next ⟨⟩)
      (if condition then Endpoint.step (Endpoint.refuse alert) >>= next' else next' ⟨⟩) := by
  split
  · exact fun _ state' hunkeyed => .inl ⟨state', rfl, hunkeyed⟩
  · exact h

/-- Where the first works end alike, the rest goes on from twins. -/
theorem bind_of_ends {work work' : Watched κ α} {next next' : α → Watched κ β}
    {state state' : Endpoint κ × Option (Endpoint κ)}
    (hends : EndsAlike provider work work' state state') (hnext : ∀ value, Parallel provider (next value) (next' value)) :
    EndsAlike provider (work >>= next) (work' >>= next') state state' ∨
      OpenAlike provider (work >>= next) (work' >>= next') state state' := by
  rw [EndsAlike, Ends] at hends
  cases hrun : work.run state with
  | ok value after =>
    rw [hrun] at hends
    obtain ⟨after', hrun', hunkeyed⟩ := hends
    simp only [EndsAlike, OpenAlike, Ends, run_bind_of_ok hrun, run_bind_of_ok hrun']
    exact hnext value after after' hunkeyed
  | error failure after =>
    rw [hrun] at hends
    obtain ⟨after', hrun', hunkeyed⟩ := hends
    rw [EndsAlike, Ends, run_bind_of_error hrun, run_bind_of_error hrun']
    exact .inl ⟨after', rfl, hunkeyed⟩

/-- What comes behind a context that was made does not matter, as long as it keeps it. -/
theorem bind {work work' : Watched κ α} {next next' : α → Watched κ β} (hwork : Parallel provider work work')
    (hnext : ∀ value, Parallel provider (next value) (next' value)) (hkeeps : ∀ value, KeepsOpened (next value))
    (hkeeps' : ∀ value, KeepsOpened (next' value)) : Parallel provider (work >>= next) (work' >>= next') := by
  intro state state' hunkeyed
  rcases hwork state state' hunkeyed with hends | ⟨before, before', htwins, hopened, hopened'⟩
  · exact bind_of_ends hends hnext
  · refine .inr ⟨before, before', htwins, ends_bind.mpr (hopened.mono ?_ fun _ _ => id),
      ends_bind.mpr (hopened'.mono ?_ fun _ _ => id)⟩
    · exact fun value after => hkeeps value before after
    · exact fun value after => hkeeps' value before' after

/-- Before a context is made there is nothing to keep. -/
theorem bind_concur {work work' : Watched κ α} {next next' : α → Watched κ β} (hwork : Concur provider work work')
    (hnext : ∀ value, Parallel provider (next value) (next' value)) :
    Parallel provider (work >>= next) (work' >>= next') :=
  fun state state' hunkeyed => bind_of_ends (hwork state state' hunkeyed) hnext

theorem forM {work : β → Watched κ PUnit} (h : ∀ item, Parallel provider (work item) (work item))
    (hkeeps : ∀ item, KeepsOpened (work item)) (items : List β) :
    Parallel provider (items.forM work) (items.forM work) := by
  have hrest (rest : List β) : KeepsOpened (rest.forM work) :=
    fun before => Keeps.forM (fun item => hkeeps item before) rest
  induction items with
  | nil => exact Concur.parallel (Corresponds.pure _)
  | cons item rest ih => exact bind (h item) (fun _ => ih) (fun _ => hrest rest) fun _ => hrest rest

theorem attend (message : HandshakeMessage) {work work' : Watched κ Unit} (h : Parallel provider work work') :
    Parallel provider (Endpoint.attend message work) (Endpoint.attend message work') := by
  have hkeeps : KeepsOpened (modify fun state => (state.1, Notes.accepted (κ := κ) message state.2) : Watched κ PUnit) :=
    fun _ => Keeps.modify fun _ hopened => hopened
  exact bind h (fun _ => Concur.parallel (Corresponds.modify fun _ _ hunkeyed => hunkeyed)) (fun _ => hkeeps)
    fun _ => hkeeps

/-- A deed that makes a context of both keys, or of neither and for the same reason. -/
theorem create {deed deed' : Deed κ Unit} {work work' : Session κ → Except AlertDescription Unit × Session κ}
    (hdeed : deed.step = onSession work) (hdeed' : deed'.step = onSession work') (hmakes : deed.makesContext = true)
    (hmakes' : deed'.makesContext = true)
    (h : ∀ (session : Session κ) (key : Option Bytes), ¬ session.HasContext → KeysAlike session.key key → session.provider = provider →
      session.SettlesAlike key (work session) (work' (session.rekeyed key))) :
    Parallel provider (Endpoint.perform deed) (Endpoint.perform deed') := by
  rintro ⟨endpoint, _⟩ ⟨_, _⟩ ⟨⟨side, key, hside, hkey, hclear, hprovider⟩, rfl, rfl⟩
  rcases h endpoint.session key hclear hkey hprovider with ⟨hopens, hopens'⟩ | ⟨alert, hfailed, hfailed'⟩
  · refine .inr ⟨endpoint, endpoint.twin side key, .intro _ _ hside hkey hclear hprovider, ?_, ?_⟩
    · exact opened_perform hdeed hmakes hopens
    · exact opened_perform hdeed' hmakes' hopens'
  · refine .inl ?_
    have hrun : (onSession work).run endpoint = .error (.sentAlert alert) endpoint := by
      rw [run_onSession, hfailed]
      rfl
    have hrun' : (onSession work').run (endpoint.twin side key) = .error (.sentAlert alert) (endpoint.twin side key) := by
      rw [run_onSession, show work' (endpoint.twin side key).session = _ from hfailed']
      rfl
    have hperform' : (Endpoint.perform deed' : Watched κ Unit).run (endpoint.twin side key, none) =
        .error (.sentAlert alert) (endpoint.twin side key, none) := by
      rw [Noted.run_perform, hdeed', hrun']
    rw [EndsAlike, Noted.ends_perform, hdeed, Ends, hrun]
    exact ⟨_, hperform', .intro _ _ hside hkey hclear hprovider, rfl, rfl⟩

end Parallel

section

variable (hprovider : provider.Evenhanded)
include hprovider

theorem parallel_sendChangeCipherSpec : Parallel (κ := κ) provider sendChangeCipherSpec sendChangeCipherSpec := by
  refine .bind_concur (Concur.step (agree_sendRecord _ _)) fun _ => .get_bind ?_
  rintro endpoint _ ⟨side, key, hside, -, -, -⟩
  refine .create (Deed.step_createEncrypter _) (Deed.step_createEncrypter _) rfl rfl
    fun session key hclear hkey hsession => ?_
  rw [show (endpoint.twin side _).role = endpoint.role from hside.role_eq]
  exact Session.createEncrypter_rekeyed hclear hkey (hsession ▸ hprovider) _

/-- ChangeCipherSpec and Finished, and what the sender does then. -/
theorem parallel_switch {next : Watched κ Unit} (hnext : Concur provider next next) (hkeeps : KeepsOpened next) :
    Parallel provider (sendChangeCipherSpec >>= fun _ => sendFinished >>= fun _ => next)
      (sendChangeCipherSpec >>= fun _ => sendFinished >>= fun _ => next) := by
  have hbehind : KeepsOpened (sendFinished >>= fun _ => next) :=
    fun before => Keeps.bind (keepsOpened_sendFinished before) fun _ => hkeeps before
  exact .bind (parallel_sendChangeCipherSpec hprovider)
    (fun _ => Concur.parallel (Corresponds.bind concur_sendFinished fun _ => hnext)) (fun _ => hbehind) fun _ => hbehind

theorem parallel_receiveServerHelloDone (message : HandshakeMessage) :
    Parallel (κ := κ) provider (receiveServerHelloDone message) (receiveServerHelloDone message) := by
  rw [receiveServerHelloDone]
  refine .guard (.bind_concur (concur_remember message) fun _ => .get_bind ?_)
  rintro endpoint _ ⟨side, key, -, -, -, -⟩
  refine .bind_concur (Concur.step (Agree.accept _)) fun body => .bind_concur (concur_send _) fun _ => ?_
  exact parallel_switch hprovider (concur_enter _) (keepsOpened_enter _)

theorem parallel_receiveMessage (message : HandshakeMessage) :
    Parallel (κ := κ) provider (receiveMessage message) (receiveMessage message) := by
  refine .get_bind ?_
  rintro endpoint _ ⟨side', key, hside, -, -, -⟩
  dsimp only [twin]
  generalize endpoint.side = side at hside
  generalize endpoint.phase = phase, message.type = type
  split
  · cases hside
    exact (concur_receiveServerHello _ message).parallel
  · cases hside
    exact (concur_receiveIdentityHint message).parallel
  · cases hside
    exact parallel_receiveServerHelloDone hprovider message
  · cases hside
    exact parallel_receiveServerHelloDone hprovider message
  · cases hside
    exact Concur.parallel (Corresponds.bind (concur_receiveFinished message) fun _ => concur_finish)
  · cases hside
    exact (concur_receiveClientHello _ _ message).parallel
  · cases hside with
    | server _ hresolve => exact (concur_receiveIdentity _ hresolve message).parallel
  · cases hside
    exact .bind_concur (concur_receiveFinished message) fun _ =>
      parallel_switch hprovider concur_finish keepsOpened_finish
  · -- What is not awaited at one of the twins is not awaited at the other.
    have hrefused : Parallel (α := Unit) provider (Endpoint.step (refuse .unexpectedMessage))
      (Endpoint.step (refuse .unexpectedMessage)) := (Concur.step (Agree.refuse _)).parallel
    cases hside <;> simp_all

theorem parallel_takeMessage (message : HandshakeMessage) :
    Parallel (κ := κ) provider (takeMessage message) (takeMessage message) :=
  .bind_concur (concur_take message) fun _ => .attend message (parallel_receiveMessage hprovider message)

theorem parallel_receiveHandshake (plaintext : Bytes) :
    Parallel (κ := κ) provider (receiveHandshake plaintext) (receiveHandshake plaintext) := by
  rw [receiveHandshake]
  refine .guard (.get_bind ?_)
  rintro endpoint _ ⟨side, key, hside, hkey, hclear, hstandard⟩
  refine .bind_concur (Concur.step (Corresponds.set (.intro _ _ hside hkey hclear hstandard))) fun _ => ?_
  exact .bind (.forM (parallel_takeMessage hprovider) keepsOpened_takeMessage _)
    (fun _ => (concur_forM_refuse _).parallel) (fun _ => keepsOpened_forM_refuse _) fun _ => keepsOpened_forM_refuse _

theorem parallel_receiveChangeCipherSpec (plaintext : Bytes) :
    Parallel (κ := κ) provider (receiveChangeCipherSpec plaintext) (receiveChangeCipherSpec plaintext) := by
  rw [receiveChangeCipherSpec]
  refine .guard (.get_bind ?_)
  rintro endpoint _ ⟨side, key, hside, -, -, -⟩
  have hcreates : Parallel provider (Endpoint.perform (.createDecrypter endpoint.role.peer))
      (Endpoint.perform (.createDecrypter (endpoint.twin side key).role.peer)) := by
    refine .create (Deed.step_createDecrypter _) (Deed.step_createDecrypter _) rfl rfl
      fun session other hclear hkey hsession => ?_
    rw [show (endpoint.twin side key).role = endpoint.role from hside.role_eq]
    exact Session.createDecrypter_rekeyed hclear hkey (hsession ▸ hprovider) _
  exact .guard (.guard (.bind hcreates (fun _ => (concur_enter _).parallel) (fun _ => keepsOpened_enter _)
    fun _ => keepsOpened_enter _))

theorem parallel_receiveRecord (record : Record) :
    Parallel (κ := κ) provider (receiveRecord record) (receiveRecord record) := by
  rw [receiveRecord]
  refine .bind_concur (Concur.perform (agree_decrypt _ _ _) rfl rfl) fun plaintext => .get_bind ?_
  rintro endpoint _ ⟨side, key, -, -, -, -⟩
  refine .guard ?_
  split
  · exact parallel_receiveHandshake hprovider plaintext
  · exact parallel_receiveChangeCipherSpec hprovider plaintext
  · exact (Concur.step (agree_receiveApplicationData plaintext)).parallel
  · exact (concur_receiveAlert plaintext).parallel
  · exact (Concur.step (Agree.refuse _)).parallel

theorem parallel_receiveRecords (records : Cut Record) :
    Parallel (κ := κ) provider (receiveRecords records) (receiveRecords records) :=
  .bind (.forM (parallel_receiveRecord hprovider) keepsOpened_receiveRecord _)
    (fun _ => (concur_forM_refuse _).parallel) (fun _ => keepsOpened_forM_refuse _) fun _ => keepsOpened_forM_refuse _

end

end Endpoint

end PresharedTls
