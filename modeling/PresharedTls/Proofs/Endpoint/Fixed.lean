import PresharedTls.Proofs.Steps

/-!
# What no step changes

Side, provider and the limit on ciphertexts are given to an endpoint when it is made and stay. Its
phase moves, but a step that succeeds enters none in which an endpoint takes no input.
-/

namespace PresharedTls

def Phase.TakesInput (phase : Phase) : Prop :=
  phase ≠ .idle ∧ phase.isOver = false

theorem Phase.isOver_of_not_takesInput {phase : Phase} (h : ¬ phase.TakesInput) (hidle : phase ≠ .idle) :
    phase.isOver = true := by
  simpa [TakesInput, hidle] using h

/-- A session with the provider and the limit of another. -/
structure Session.Inherits {κ : Type} (ancestor session : Session κ) : Prop where
  provider : session.provider = ancestor.provider
  ciphertextLimit : session.ciphertextLimit = ancestor.ciphertextLimit

namespace Session

variable {κ : Type} {ancestor : Session κ}

theorem Inherits.applyExtension {session after : Session κ} {type : UInt16} {data : Bytes}
    (h : Inherits ancestor session) (hrun : session.applyExtension type data = .ok after) :
    Inherits ancestor after := by
  rw [Session.applyExtension] at hrun
  split at hrun
  · cases hrun
    exact h
  · cases hlength : MaxFragmentLength.ofBytes data with
    | error alert => simp [hlength, Except.map] at hrun
    | ok length =>
      simp only [hlength, Except.map, Except.ok.injEq] at hrun
      subst hrun
      exact ⟨h.provider, h.ciphertextLimit⟩
  all_goals
    split at hrun
    · cases hrun
      exact ⟨h.provider, h.ciphertextLimit⟩
    · cases hrun

theorem Inherits.applyExtensions {session : Session κ} (h : Inherits ancestor session)
    (entries : List (UInt16 × Bytes)) : Inherits ancestor (session.applyExtensions entries).2 := by
  induction entries generalizing session with
  | nil => exact h
  | cons entry rest ih =>
    rw [Session.applyExtensions]
    split
    · exact h
    · next hrun => exact ih (h.applyExtension hrun)

theorem Inherits.applyServerHello {session : Session κ} (h : Inherits ancestor session) (hello : ServerHello) :
    Inherits ancestor (session.applyServerHello hello).2 := by
  have hextensions := h.applyExtensions hello.extensions.entries
  rw [Session.applyServerHello]
  split
  · exact h
  · split
    · exact h
    · split
      · next hrun => simpa [hrun] using hextensions
      · next hrun =>
        rw [hrun] at hextensions
        exact ⟨hextensions.provider, hextensions.ciphertextLimit⟩

theorem Inherits.createEncrypter {session : Session κ} (h : Inherits ancestor session) (sender : Role) :
    Inherits ancestor (session.createEncrypter sender).2 := by
  rw [Session.createEncrypter]
  repeat' split
  · exact h
  · exact ⟨h.provider, h.ciphertextLimit⟩
  · exact h

theorem Inherits.createDecrypter {session : Session κ} (h : Inherits ancestor session) (sender : Role) :
    Inherits ancestor (session.createDecrypter sender).2 := by
  rw [Session.createDecrypter]
  repeat' split
  · exact h
  · exact ⟨h.provider, h.ciphertextLimit⟩
  · exact h

theorem Inherits.encrypt {session : Session κ} (h : Inherits ancestor session) (typeCode : UInt8)
    (plaintext : Bytes) (entropy : Entropy) : Inherits ancestor (session.encrypt typeCode plaintext entropy).2.1 := by
  rw [Session.encrypt]
  split
  · exact h
  · exact ⟨h.provider, h.ciphertextLimit⟩

theorem Inherits.decrypt {session : Session κ} (h : Inherits ancestor session) (typeCode : UInt8)
    (version : UInt16) (fragment : Bytes) : Inherits ancestor (session.decrypt typeCode version fragment).2 := by
  rw [Session.decrypt]
  split
  · exact h
  · exact ⟨h.provider, h.ciphertextLimit⟩

end Session

namespace Endpoint

variable {κ α : Type} {origin : Endpoint κ} {live : Phase → Prop}

/-- An endpoint that has what `origin` was made with, in a phase that is `live`. -/
structure Fixed (origin : Endpoint κ) (live : Phase → Prop) (endpoint : Endpoint κ) : Prop where
  side : endpoint.side = origin.side
  session : origin.session.Inherits endpoint.session
  phase : live endpoint.phase

/-- A step that keeps what an endpoint was made with, and enters only live phases if it succeeds. -/
abbrev KeepsFixed (origin : Endpoint κ) (live : Phase → Prop) (step : Step κ α) : Prop :=
  Keeps (Fixed origin live) (Fixed origin fun _ => True) step

theorem Fixed.forget {endpoint : Endpoint κ} (h : Fixed origin live endpoint) :
    Fixed origin (fun _ => True) endpoint :=
  ⟨h.side, h.session, trivial⟩

theorem keepsFixed_refuse (alert : AlertDescription) : KeepsFixed origin live (refuse alert : Step κ α) :=
  Keeps.throw fun _ => Fixed.forget

theorem keepsFixed_accept (result : Except AlertDescription α) : KeepsFixed origin live (accept result : Step κ α) := by
  cases result with
  | ok value => exact Keeps.pure value
  | error alert => exact keepsFixed_refuse alert

theorem keepsFixed_readBody (value : Option α) : KeepsFixed origin live (readBody value : Step κ α) := by
  cases value with
  | none => exact keepsFixed_refuse .decodeError
  | some value => exact Keeps.pure value

theorem keepsFixed_updateSession {update : Session κ → Session κ}
    (h : ∀ session, origin.session.Inherits session → origin.session.Inherits (update session)) :
    KeepsFixed origin live (updateSession update) :=
  Keeps.modify fun _ hfixed => ⟨hfixed.side, h _ hfixed.session, hfixed.phase⟩

theorem keepsFixed_onSession {work : Session κ → Except AlertDescription α × Session κ}
    (h : ∀ session, origin.session.Inherits session → origin.session.Inherits (work session).2) :
    KeepsFixed origin live (onSession work) :=
  Keeps.get_bind fun _ hfixed => Keeps.bind (Keeps.set ⟨hfixed.side, h _ hfixed.session, hfixed.phase⟩) fun _ =>
    keepsFixed_accept _

theorem keepsFixed_enter {phase : Phase} (h : live phase) : KeepsFixed origin live (enter phase : Step κ Unit) :=
  Keeps.modify fun _ hfixed => ⟨hfixed.side, hfixed.session, h⟩

theorem keepsFixed_guard {condition : Prop} [Decidable condition] {alert : AlertDescription} {next : PUnit → Step κ α}
    (h : KeepsFixed origin live (next ⟨⟩)) :
    KeepsFixed origin live (if condition then refuse alert >>= next else next ⟨⟩) :=
  Keeps.ite (fun _ => Keeps.bind (keepsFixed_refuse alert) fun _ => h) fun _ => h

/-! ### Sending -/

theorem keepsFixed_sendRecord (type : ContentType) (plaintext : Bytes) :
    KeepsFixed origin live (sendRecord (κ := κ) type plaintext) := by
  rw [sendRecord]
  refine Keeps.get_bind fun endpoint hfixed => keepsFixed_guard ?_
  apply Keeps.bind (Keeps.set ⟨hfixed.side, hfixed.session.encrypt _ _ _, hfixed.phase⟩)
  intro _
  apply Keeps.bind (keepsFixed_accept _)
  intro _
  apply Keeps.bind (keepsFixed_accept _)
  intro _
  exact Keeps.modify fun _ h => ⟨h.side, h.session, h.phase⟩

theorem keepsFixed_sendFragmented (type : ContentType) (b : Bytes) :
    KeepsFixed origin live (sendFragmented (κ := κ) type b) :=
  Keeps.get_bind fun _ _ => Keeps.forM (keepsFixed_sendRecord type) _

theorem keepsFixed_sendMessage (message : HandshakeMessage) :
    KeepsFixed origin live (sendMessage (κ := κ) message) :=
  Keeps.bind (keepsFixed_accept _) fun _ =>
    Keeps.bind (keepsFixed_updateSession fun _ h => ⟨h.provider, h.ciphertextLimit⟩) fun _ =>
      keepsFixed_sendFragmented _ _

theorem keepsFixed_sendChangeCipherSpec : KeepsFixed origin live (sendChangeCipherSpec (κ := κ)) :=
  Keeps.bind (keepsFixed_sendRecord _ _) fun _ => Keeps.get_bind fun _ _ =>
    keepsFixed_onSession fun _ h => h.createEncrypter _

theorem keepsFixed_sendFinished : KeepsFixed origin live (sendFinished (κ := κ)) :=
  Keeps.get_bind fun _ _ => Keeps.bind (keepsFixed_accept _) fun _ => keepsFixed_sendMessage _

/-! ### Handshake messages -/

theorem keepsFixed_remember (message : HandshakeMessage) : KeepsFixed origin live (remember (κ := κ) message) :=
  keepsFixed_updateSession fun _ h => ⟨h.provider, h.ciphertextLimit⟩

theorem keepsFixed_receiveFinished (message : HandshakeMessage) :
    KeepsFixed origin live (receiveFinished (κ := κ) message) :=
  Keeps.bind (keepsFixed_readBody _) fun _ => Keeps.get_bind fun _ _ =>
    Keeps.bind (keepsFixed_accept _) fun _ => keepsFixed_guard (keepsFixed_remember message)

theorem keepsFixed_finish (hlive : live .connected) : KeepsFixed origin live (finish (κ := κ)) :=
  Keeps.bind (keepsFixed_updateSession fun _ h => ⟨h.provider, h.ciphertextLimit⟩) fun _ => keepsFixed_enter hlive

theorem keepsFixed_sendClientHello (hlive : live .waitHello) (offer : ClientOffer) :
    KeepsFixed origin live (sendClientHello (κ := κ) offer) :=
  Keeps.get_bind fun _ h =>
    Keeps.bind (Keeps.set ⟨h.side, h.session, h.phase⟩) fun _ =>
      Keeps.bind (keepsFixed_accept _) fun _ =>
        Keeps.bind (keepsFixed_updateSession fun _ h => ⟨h.provider, h.ciphertextLimit⟩) fun _ =>
          Keeps.bind (keepsFixed_sendMessage _) fun _ => keepsFixed_enter hlive

theorem keepsFixed_receiveServerHello (hlive : live .waitKeyExchange) (offer : ClientOffer)
    (message : HandshakeMessage) : KeepsFixed origin live (receiveServerHello (κ := κ) offer message) :=
  Keeps.bind (keepsFixed_readBody _) fun _ =>
    Keeps.bind (keepsFixed_remember message) fun _ =>
      Keeps.bind (keepsFixed_accept _) fun _ =>
        Keeps.bind (keepsFixed_onSession fun _ h => h.applyServerHello _) fun _ => keepsFixed_enter hlive

theorem keepsFixed_receiveIdentityHint (hlive : live .waitHelloDone) (message : HandshakeMessage) :
    KeepsFixed origin live (receiveIdentityHint (κ := κ) message) :=
  Keeps.bind (keepsFixed_readBody _) fun _ =>
    Keeps.bind (keepsFixed_remember message) fun _ => keepsFixed_enter hlive

theorem keepsFixed_receiveServerHelloDone (hlive : live .waitChangeCipher) (message : HandshakeMessage) :
    KeepsFixed origin live (receiveServerHelloDone (κ := κ) message) := by
  rw [receiveServerHelloDone]
  refine keepsFixed_guard (Keeps.bind (keepsFixed_remember message) fun _ => Keeps.get_bind fun endpoint _ => ?_)
  apply Keeps.bind (keepsFixed_accept _)
  intro _
  apply Keeps.bind (keepsFixed_sendMessage _)
  intro _
  apply Keeps.bind keepsFixed_sendChangeCipherSpec
  intro _
  apply Keeps.bind keepsFixed_sendFinished
  intro _
  exact keepsFixed_enter hlive

theorem keepsFixed_receiveClientHello (hlive : live .waitKeyExchange) (policy : ServerPolicy)
    (message : HandshakeMessage) : KeepsFixed origin live (receiveClientHello (κ := κ) policy message) := by
  rw [receiveClientHello]
  apply Keeps.bind (keepsFixed_readBody _)
  intro hello
  apply Keeps.bind (keepsFixed_remember message)
  intro _
  apply Keeps.get_bind
  intro endpoint hfixed
  apply Keeps.bind (keepsFixed_accept _)
  intro answer
  apply Keeps.bind (Keeps.set ⟨hfixed.side, hfixed.session, hfixed.phase⟩)
  intro _
  refine Keeps.bind (keepsFixed_updateSession fun _ h => ⟨h.provider, h.ciphertextLimit⟩) fun _ => ?_
  apply Keeps.bind (keepsFixed_onSession fun _ h => h.applyServerHello _)
  intro _
  apply Keeps.bind (keepsFixed_accept _)
  intro _
  apply Keeps.bind (keepsFixed_sendMessage _)
  intro _
  apply Keeps.bind (keepsFixed_accept _)
  intro _
  apply Keeps.bind (keepsFixed_sendMessage _)
  intro _
  exact Keeps.bind (keepsFixed_sendMessage ⟨.serverHelloDone, []⟩) fun _ => keepsFixed_enter hlive

theorem keepsFixed_receiveIdentity (hlive : live .waitChangeCipher) (policy : ServerPolicy)
    (message : HandshakeMessage) : KeepsFixed origin live (receiveIdentity (κ := κ) policy message) := by
  rw [receiveIdentity]
  apply Keeps.bind (keepsFixed_readBody _)
  intro identity
  apply Keeps.bind (keepsFixed_remember message)
  intro _
  split
  · exact keepsFixed_refuse _
  · exact Keeps.bind (keepsFixed_updateSession fun _ h => ⟨h.provider, h.ciphertextLimit⟩) fun _ =>
      keepsFixed_enter hlive

theorem keepsFixed_receiveMessage (hlive : ∀ phase : Phase, phase.TakesInput → live phase) (message : HandshakeMessage) :
    KeepsFixed origin live (receiveMessage (κ := κ) message) := by
  rw [receiveMessage]
  apply Keeps.get_bind
  intro endpoint _
  have hentered : live .waitKeyExchange ∧ live .waitHelloDone ∧ live .waitChangeCipher ∧ live .connected := by
    refine ⟨hlive _ ?_, hlive _ ?_, hlive _ ?_, hlive _ ?_⟩ <;> exact ⟨by decide, by decide⟩
  obtain ⟨hkey, hdone, hcipher, hconnected⟩ := hentered
  split
  · exact keepsFixed_receiveServerHello hkey _ message
  · exact keepsFixed_receiveIdentityHint hdone message
  · exact keepsFixed_receiveServerHelloDone hcipher message
  · exact keepsFixed_receiveServerHelloDone hcipher message
  · exact Keeps.bind (keepsFixed_receiveFinished message) fun _ => keepsFixed_finish hconnected
  · exact keepsFixed_receiveClientHello hkey _ message
  · exact keepsFixed_receiveIdentity hcipher _ message
  · exact Keeps.bind (keepsFixed_receiveFinished message) fun _ =>
      Keeps.bind keepsFixed_sendChangeCipherSpec fun _ =>
        Keeps.bind keepsFixed_sendFinished fun _ => keepsFixed_finish hconnected
  · exact keepsFixed_refuse _

/-! ### Records -/

theorem keepsFixed_forM_refuse (fault : Option AlertDescription) :
    KeepsFixed origin live (fault.forM refuse : Step κ Unit) := by
  cases fault with
  | none => exact Keeps.pure _
  | some alert => exact keepsFixed_refuse alert

theorem keepsFixed_takeMessage (hlive : ∀ phase : Phase, phase.TakesInput → live phase) (message : HandshakeMessage) :
    KeepsFixed origin live (takeMessage (κ := κ) message) :=
  Keeps.bind (Keeps.modify fun _ h => ⟨h.side, h.session, h.phase⟩) fun _ => keepsFixed_receiveMessage hlive message

theorem keepsFixed_receiveHandshake (hlive : ∀ phase : Phase, phase.TakesInput → live phase) (plaintext : Bytes) :
    KeepsFixed origin live (receiveHandshake (κ := κ) plaintext) := by
  rw [receiveHandshake]
  refine keepsFixed_guard (Keeps.get_bind fun endpoint h => ?_)
  apply Keeps.bind (Keeps.set ⟨h.side, h.session, h.phase⟩)
  intro _
  exact Keeps.bind (Keeps.forM (keepsFixed_takeMessage hlive) _) fun _ => keepsFixed_forM_refuse _

theorem keepsFixed_receiveChangeCipherSpec (hlive : live .waitFinished) (plaintext : Bytes) :
    KeepsFixed origin live (receiveChangeCipherSpec (κ := κ) plaintext) := by
  rw [receiveChangeCipherSpec]
  refine keepsFixed_guard (Keeps.get_bind fun endpoint _ => keepsFixed_guard (keepsFixed_guard ?_))
  exact Keeps.bind (keepsFixed_onSession fun _ h => h.createDecrypter _) fun _ => keepsFixed_enter hlive

theorem keepsFixed_receiveApplicationData (plaintext : Bytes) :
    KeepsFixed origin live (receiveApplicationData (κ := κ) plaintext) := by
  rw [receiveApplicationData]
  exact Keeps.get_bind fun endpoint h => keepsFixed_guard (Keeps.set ⟨h.side, h.session, h.phase⟩)

/-- An alert always ends in a failure, so it may enter a phase that is not live. -/
theorem keepsFixed_receiveAlert (plaintext : Bytes) : KeepsFixed origin live (receiveAlert (κ := κ) plaintext) :=
  Keeps.bind (keepsFixed_readBody _) fun _ _ h => ⟨h.side, h.session, trivial⟩

theorem keepsFixed_receiveRecord (hlive : ∀ phase : Phase, phase.TakesInput → live phase) (record : Record) :
    KeepsFixed origin live (receiveRecord (κ := κ) record) := by
  rw [receiveRecord]
  apply Keeps.bind (keepsFixed_onSession fun _ h => h.decrypt _ _ _)
  intro plaintext
  refine Keeps.get_bind fun endpoint _ => keepsFixed_guard ?_
  split
  · exact keepsFixed_receiveHandshake hlive plaintext
  · exact keepsFixed_receiveChangeCipherSpec (hlive _ ⟨by decide, by decide⟩) plaintext
  · exact keepsFixed_receiveApplicationData plaintext
  · exact keepsFixed_receiveAlert plaintext
  · exact keepsFixed_refuse _

theorem keepsFixed_receiveRecords (hlive : ∀ phase : Phase, phase.TakesInput → live phase) (records : Cut Record) :
    KeepsFixed origin live (receiveRecords (κ := κ) records) :=
  Keeps.bind (Keeps.forM (keepsFixed_receiveRecord hlive) _) fun _ => keepsFixed_forM_refuse _

end Endpoint

end PresharedTls
