import PresharedTls.Proofs.Endpoint.Outline

/-!
# What an endpoint hears with

The decrypter is made when the peer switches, and each record that it meets moves it on. Nothing else
touches it: handshake messages, whatever they do to an endpoint, leave the part of it that listens alone.
-/

namespace PresharedTls.Endpoint

variable {κ α : Type} {hearing : Hearing κ}

/-- A step that leaves the part that listens as it is, if it succeeds. -/
abbrev KeepsHearing (hearing : Hearing κ) (step : Step κ α) : Prop :=
  Keeps (fun endpoint => endpoint.outline.toHearing = hearing) (fun _ => True) step

theorem keepsHearing_of_keepsOutline {step : Step κ α} (h : ∀ outline : Outline κ, KeepsOutline outline step) :
    KeepsHearing hearing step := by
  intro endpoint hendpoint
  exact (h endpoint.outline endpoint rfl).mono (fun _ _ hafter => hafter ▸ hendpoint) fun _ _ _ => trivial

theorem keepsHearing_refuse (alert : AlertDescription) : KeepsHearing hearing (refuse alert : Step κ α) :=
  Keeps.throw fun _ _ => trivial

theorem keepsHearing_accept (result : Except AlertDescription α) : KeepsHearing hearing (accept result : Step κ α) :=
  keepsHearing_of_keepsOutline fun _ => keepsOutline_accept result

theorem keepsHearing_readBody (value : Option α) : KeepsHearing hearing (readBody value : Step κ α) :=
  fun _ h => ends_readBody (fun _ _ => h) trivial

theorem keepsHearing_updateSession {update : Session κ → Session κ}
    (h : ∀ session, (update session).provider = session.provider ∧ (update session).decrypter = session.decrypter) :
    KeepsHearing hearing (updateSession update) := by
  refine Keeps.modify fun endpoint hendpoint => Eq.trans ?_ hendpoint
  simp only [outline, (h endpoint.session).1, (h endpoint.session).2]
  rfl

theorem keepsHearing_enter (phase : Phase) : KeepsHearing hearing (enter phase : Step κ Unit) :=
  Keeps.modify fun _ h => h

theorem keepsHearing_guard {condition : Prop} [Decidable condition] {alert : AlertDescription} {next : PUnit → Step κ α}
    (h : KeepsHearing hearing (next ⟨⟩)) :
    KeepsHearing hearing (if condition then refuse alert >>= next else next ⟨⟩) :=
  fun _ hendpoint => ends_guard (fun _ => trivial) fun _ => h _ hendpoint

theorem keepsHearing_remember (message : HandshakeMessage) : KeepsHearing hearing (remember (κ := κ) message) :=
  keepsHearing_of_keepsOutline fun _ => keepsOutline_remember message

theorem keepsHearing_applyServerHello (answer : ServerHello) :
    KeepsHearing hearing (onSession (κ := κ) (·.applyServerHello answer)) := by
  intro endpoint h
  obtain ⟨terms, hsession, -⟩ := endpoint.session.applyServerHello_eq answer
  refine ends_onSession (fun _ _ => ?_) fun _ _ => trivial
  rw [hsession]
  exact h

/-! ### Sending -/

theorem keepsHearing_sendMessage (message : HandshakeMessage) : KeepsHearing hearing (sendMessage (κ := κ) message) :=
  keepsHearing_of_keepsOutline fun _ => keepsOutline_sendMessage message

theorem keepsHearing_sendChangeCipherSpec : KeepsHearing hearing (sendChangeCipherSpec (κ := κ)) := by
  intro endpoint h
  refine (ends_sendChangeCipherSpec endpoint).mono ?_ fun _ _ _ => trivial
  rintro _ after ⟨-, hafter⟩
  rwa [hafter]

theorem keepsHearing_sendFinished : KeepsHearing hearing (sendFinished (κ := κ)) :=
  keepsHearing_of_keepsOutline fun _ => keepsOutline_sendFinished

/-! ### Handshake messages -/

theorem keepsHearing_receiveFinished (message : HandshakeMessage) :
    KeepsHearing hearing (receiveFinished (κ := κ) message) :=
  keepsHearing_of_keepsOutline fun _ => keepsOutline_receiveFinished message

theorem keepsHearing_finish : KeepsHearing hearing (finish (κ := κ)) :=
  Keeps.bind (keepsHearing_updateSession fun _ => ⟨rfl, rfl⟩) fun _ => keepsHearing_enter .connected

theorem keepsHearing_sendClientHello (offer : ClientOffer) : KeepsHearing hearing (sendClientHello (κ := κ) offer) :=
  Keeps.get_bind fun _ h => Keeps.bind (Keeps.set h) fun _ => Keeps.bind (keepsHearing_accept _) fun _ =>
    Keeps.bind (keepsHearing_updateSession fun _ => ⟨rfl, rfl⟩) fun _ =>
      Keeps.bind (keepsHearing_sendMessage _) fun _ => keepsHearing_enter _

theorem keepsHearing_receiveServerHello (offer : ClientOffer) (message : HandshakeMessage) :
    KeepsHearing hearing (receiveServerHello (κ := κ) offer message) :=
  Keeps.bind (keepsHearing_readBody _) fun _ => Keeps.bind (keepsHearing_remember message) fun _ =>
    Keeps.bind (keepsHearing_accept _) fun _ => Keeps.bind (keepsHearing_applyServerHello _) fun _ =>
      keepsHearing_enter _

theorem keepsHearing_receiveIdentityHint (message : HandshakeMessage) :
    KeepsHearing hearing (receiveIdentityHint (κ := κ) message) :=
  Keeps.bind (keepsHearing_readBody _) fun _ => Keeps.bind (keepsHearing_remember message) fun _ => keepsHearing_enter _

theorem keepsHearing_receiveServerHelloDone (message : HandshakeMessage) :
    KeepsHearing hearing (receiveServerHelloDone (κ := κ) message) := by
  rw [receiveServerHelloDone]
  refine keepsHearing_guard (Keeps.bind (keepsHearing_remember message) fun _ => Keeps.get_bind fun _ _ => ?_)
  refine Keeps.bind (keepsHearing_accept _) fun _ => Keeps.bind (keepsHearing_sendMessage _) fun _ => ?_
  refine Keeps.bind keepsHearing_sendChangeCipherSpec fun _ => Keeps.bind keepsHearing_sendFinished fun _ => ?_
  exact keepsHearing_enter _

theorem keepsHearing_receiveClientHello (policy : ServerPolicy) (message : HandshakeMessage) :
    KeepsHearing hearing (receiveClientHello (κ := κ) policy message) := by
  rw [receiveClientHello]
  refine Keeps.bind (keepsHearing_readBody _) fun hello => Keeps.bind (keepsHearing_remember message) fun _ => ?_
  refine Keeps.get_bind fun endpoint h => Keeps.bind (keepsHearing_accept _) fun answer => ?_
  have hdrawn : { endpoint with entropy := answer.2 }.outline.toHearing = hearing := h
  refine Keeps.bind (@Keeps.set _ _ (fun other : Endpoint κ => other.outline.toHearing = hearing) _ _ hdrawn) fun _ => ?_
  refine Keeps.bind (keepsHearing_updateSession fun _ => ⟨rfl, rfl⟩) fun _ => ?_
  refine Keeps.bind (keepsHearing_applyServerHello _) fun _ => ?_
  refine Keeps.bind (keepsHearing_accept _) fun _ => Keeps.bind (keepsHearing_sendMessage _) fun _ => ?_
  refine Keeps.bind (keepsHearing_accept _) fun _ => Keeps.bind (keepsHearing_sendMessage _) fun _ => ?_
  exact Keeps.bind (keepsHearing_sendMessage ⟨.serverHelloDone, []⟩) fun _ => keepsHearing_enter _

theorem keepsHearing_receiveIdentity (policy : ServerPolicy) (message : HandshakeMessage) :
    KeepsHearing hearing (receiveIdentity (κ := κ) policy message) := by
  rw [receiveIdentity]
  refine Keeps.bind (keepsHearing_readBody _) fun identity => Keeps.bind (keepsHearing_remember message) fun _ => ?_
  split
  · exact keepsHearing_refuse _
  · exact Keeps.bind (keepsHearing_updateSession fun _ => ⟨rfl, rfl⟩) fun _ => keepsHearing_enter _

theorem keepsHearing_receiveMessage (message : HandshakeMessage) :
    KeepsHearing hearing (receiveMessage (κ := κ) message) := by
  rw [receiveMessage]
  refine Keeps.get_bind fun endpoint _ => ?_
  split
  · exact keepsHearing_receiveServerHello _ message
  · exact keepsHearing_receiveIdentityHint message
  · exact keepsHearing_receiveServerHelloDone message
  · exact keepsHearing_receiveServerHelloDone message
  · exact Keeps.bind (keepsHearing_receiveFinished message) fun _ => keepsHearing_finish
  · exact keepsHearing_receiveClientHello _ message
  · exact keepsHearing_receiveIdentity _ message
  · exact Keeps.bind (keepsHearing_receiveFinished message) fun _ => Keeps.bind keepsHearing_sendChangeCipherSpec fun _ =>
      Keeps.bind keepsHearing_sendFinished fun _ => keepsHearing_finish
  · exact keepsHearing_refuse _

theorem keepsHearing_takeMessage (message : HandshakeMessage) : KeepsHearing hearing (takeMessage (κ := κ) message) :=
  Keeps.bind (Keeps.modify fun _ h => h) fun _ => keepsHearing_receiveMessage message

theorem keepsHearing_receiveHandshake (plaintext : Bytes) :
    KeepsHearing hearing (receiveHandshake (κ := κ) plaintext) := by
  rw [receiveHandshake]
  refine keepsHearing_guard (Keeps.get_bind fun endpoint h => Keeps.bind (Keeps.set h) fun _ => ?_)
  refine Keeps.bind (Keeps.forM keepsHearing_takeMessage _) fun _ => ?_
  cases (HandshakeMessage.framing.cut (endpoint.handshake ++ plaintext)).fault with
  | none => exact Keeps.pure _
  | some alert => exact keepsHearing_refuse alert

/-! ### Records -/

/-- What a record that is handled well does to a decrypter: it opens the record, or is made where there was
none and the record is a ChangeCipherSpec. -/
inductive Hears (provider : Provider κ) (record : Record) : (before after : Option κ) → Prop where
  | clear (htype : record.typeCode ≠ ContentType.changeCipherSpec.code) : Hears provider record none none
  | switched (htype : record.typeCode = ContentType.changeCipherSpec.code) {params : SecurityParameters} {sender : Role}
      {context : κ} (hmade : provider.createDecoder params sender = .ok context) :
      Hears provider record none (some context)
  | opened {context later : κ} {plaintext : Bytes}
      (hopened : provider.unprotect context record.typeCode record.version record.fragment = (.ok plaintext, later)) :
      Hears provider record (some context) (some later)

theorem hears_receiveChangeCipherSpec (plaintext : Bytes) (endpoint : Endpoint κ) :
    Ends (receiveChangeCipherSpec plaintext) endpoint
      (fun _ after => after.session.provider = endpoint.session.provider ∧ endpoint.session.decrypter = none ∧
        ∃ params sender context, endpoint.session.provider.createDecoder params sender = .ok context ∧
          after.session.decrypter = some context) fun _ _ => True := by
  rw [receiveChangeCipherSpec]
  refine ends_guard (fun _ => trivial) fun _ => ?_
  rw [step_eq, ends_get_bind]
  refine ends_guard (fun _ => trivial) fun _ => ends_guard (fun _ => trivial) fun _ => ?_
  rw [ends_bind, perform_eq, Deed.step_createDecrypter]
  refine ends_onSession (fun _ hok => ?_) fun _ _ => trivial
  rcases endpoint.session.createDecrypter_cases endpoint.role.peer with
    ⟨params, context, hnone, -, hcontext, hcreated⟩ | ⟨alert, hfailed⟩
  · rw [hcreated]
    exact ⟨rfl, hnone, params, _, context, hcontext, rfl⟩
  · rw [hfailed] at hok
    cases hok

/-- A record that is opened leaves the decrypter that has opened it. -/
theorem decrypter_of_decrypt {session opened : Session κ} {typeCode : UInt8} {version : UInt16} {fragment plaintext : Bytes}
    (h : session.decrypt typeCode version fragment = (.ok plaintext, opened)) :
    opened.provider = session.provider ∧
      (session.decrypter = none ∧ opened.decrypter = none ∨ ∃ context later, session.decrypter = some context ∧
        session.provider.unprotect context typeCode version fragment = (.ok plaintext, later) ∧
          opened.decrypter = some later) := by
  rw [Session.decrypt] at h
  split at h
  · next hnone =>
    cases h
    exact ⟨rfl, .inl ⟨hnone, hnone⟩⟩
  · next context hcontext =>
    rcases hunprotect : session.provider.unprotect context typeCode version fragment with ⟨result, later⟩
    rw [hunprotect] at h
    cases h
    exact ⟨rfl, .inr ⟨context, later, hcontext, hunprotect, rfl⟩⟩

theorem hears_receiveRecord (record : Record) (endpoint : Endpoint κ) :
    Ends (receiveRecord record) endpoint
      (fun _ after => after.session.provider = endpoint.session.provider ∧
        Hears endpoint.session.provider record endpoint.session.decrypter after.session.decrypter)
      fun _ _ => True := by
  rw [receiveRecord, ends_bind, perform_eq, Deed.step_unprotect]
  refine ends_onSession (fun plaintext hplaintext => ?_) fun _ _ => trivial
  rcases hopened : endpoint.session.decrypt record.typeCode record.version record.fragment with ⟨result, session⟩
  rw [hopened] at hplaintext
  obtain rfl : result = .ok plaintext := hplaintext
  obtain ⟨hprovider, hdecrypter⟩ := decrypter_of_decrypt hopened
  have hheard (htype : record.typeCode ≠ ContentType.changeCipherSpec.code) :
      Hears endpoint.session.provider record endpoint.session.decrypter session.decrypter := by
    rcases hdecrypter with ⟨hnone, hafter⟩ | ⟨context, later, hcontext, hunprotect, hafter⟩
    · rw [hnone, hafter]
      exact .clear htype
    · rw [hcontext, hafter]
      exact .opened hunprotect
  rw [step_eq, ends_get_bind]
  refine ends_guard (fun _ => trivial) fun _ => ?_
  split
  · next htype =>
    refine (keepsHearing_receiveHandshake plaintext { endpoint with session := session } rfl).mono ?_ fun _ _ => id
    intro _ after hafter
    have hsame : after.session.decrypter = session.decrypter := congrArg Hearing.decrypter hafter
    exact ⟨(congrArg Hearing.provider hafter).trans hprovider, hsame ▸ hheard (ContentType.code_of_ofCode? htype ▸ by decide)⟩
  · next htype =>
    refine (hears_receiveChangeCipherSpec plaintext { endpoint with session := session }).mono ?_ fun _ _ => id
    rintro _ after ⟨hafter, hnone, params, sender, context, hmade, hcontext⟩
    rcases hdecrypter with ⟨hbefore, -⟩ | ⟨_, _, -, -, hsome⟩
    · rw [hbefore, hcontext]
      exact ⟨hafter.trans hprovider, .switched (ContentType.code_of_ofCode? htype).symm (hprovider ▸ hmade)⟩
    · cases hnone.symm.trans hsome
  · next htype =>
    rw [step_eq, receiveApplicationData, ends_get_bind]
    refine ends_guard (fun _ => trivial) fun _ => ?_
    exact ⟨hprovider, hheard (ContentType.code_of_ofCode? htype ▸ by decide)⟩
  · rw [receiveAlert, ends_bind]
    exact ends_readBody (fun _ _ => trivial) trivial
  · trivial

end PresharedTls.Endpoint
