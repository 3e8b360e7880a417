import PresharedTls.Proofs.Endpoint.Rules

/-!
# What is sent behind ChangeCipherSpec

An endpoint announces protection and then makes the context that protects. Every record queued after
that is what the context makes of a plaintext, alerts and close_notify included. The context can
fail to be made, by a client that has no key or one too long, or that was answered with a suite too
new for its version; then all that follows the announcement is the alert that says so, and there is
nothing to protect that with. A server has made the context of its peer from the same parameters
before, so this does not happen to it.
-/

namespace PresharedTls

variable {κ α : Type} {taken now : List Record}

/-- Where the context for what one end sends can be made, that for its peer can be made as well. -/
def Provider.Paired (provider : Provider κ) : Prop :=
  ∀ params sender context, provider.createDecoder params sender = .ok context →
    ∃ own, provider.createEncoder params sender.peer = .ok own

/-- The records that a context has made, one after the other, since it was `initial`. A protection that
fails, or comes to more than a record holds, leaves its mark on the context and makes no record. -/
inductive Provider.Protects (provider : Provider κ) (initial : κ) : List Record → κ → Prop where
  | created : Protects provider initial [] initial
  | sealed {records : List Record} {context later : κ} (h : Protects provider initial records context)
      (record : Record) {plaintext : Bytes} {entropy entropy' : Entropy}
      (hprotect : provider.protect context record.typeCode record.version plaintext entropy =
        (.ok record.fragment, later, entropy')) : Protects provider initial (records ++ [record]) later
  | spent {records : List Record} {context : κ} (h : Protects provider initial records context) (typeCode : UInt8)
      (version : UInt16) (plaintext : Bytes) (entropy : Entropy) :
      Protects provider initial records (provider.protect context typeCode version plaintext entropy).2.1

/-- None of the records is a ChangeCipherSpec. -/
def Unswitched (records : List Record) : Prop :=
  ∀ record ∈ records, record.typeCode ≠ ContentType.changeCipherSpec.code

theorem Unswitched.concat {records : List Record} (h : Unswitched records) {record : Record}
    (hrecord : record.typeCode ≠ ContentType.changeCipherSpec.code) : Unswitched (records ++ [record]) := by
  intro other hmem
  rcases List.mem_append.mp hmem with hbefore | hlast
  · exact h other hbefore
  · rw [List.mem_singleton.mp hlast]
    exact hrecord

/-- The first ChangeCipherSpec is behind `front` and in front of `rear`. -/
def SwitchedAt (records front rear : List Record) : Prop :=
  Unswitched front ∧ ∃ announced : Record,
    announced.typeCode = ContentType.changeCipherSpec.code ∧ records = front ++ announced :: rear

theorem SwitchedAt.concat {records front rear : List Record} (h : SwitchedAt (taken ++ records) front rear)
    (record : Record) : SwitchedAt (taken ++ (records ++ [record])) front (rear ++ [record]) := by
  obtain ⟨hfront, announced, hannounced, hrecords⟩ := h
  exact ⟨hfront, announced, hannounced, by rw [← List.append_assoc, hrecords, List.append_assoc, List.cons_append]⟩

/-- Sessions that send in the same way. -/
structure Session.SendsAs (session other : Session κ) : Prop where
  encrypter : other.encrypter = session.encrypter
  provider : other.provider = session.provider

/-- The encrypter is made if there are keys to make it of. -/
theorem Session.createEncrypter_cases {session : Session κ} (hclear : session.encrypter = none) (sender : Role) :
    (∃ params context, session.securityParameters? = some params ∧
      session.provider.createEncoder params sender = .ok context ∧
      session.createEncrypter sender = (.ok (), { session with encrypter := some context })) ∨
    ∃ alert, (∀ params context, session.securityParameters? = some params →
        session.provider.createEncoder params sender ≠ .ok context) ∧
      session.createEncrypter sender = (.error alert, session) := by
  rw [createEncrypter, hclear]
  cases hparams : session.securityParameters? with
  | none => exact .inr ⟨_, fun _ _ h => (Option.some_ne_none _ h.symm).elim, rfl⟩
  | some params =>
    cases hcreated : session.provider.createEncoder params sender with
    | error alert =>
      refine .inr ⟨alert, fun other context hother hcontext => ?_, by simp only [hcreated]⟩
      cases Option.some.inj hother
      cases hcreated.symm.trans hcontext
    | ok context => exact .inl ⟨params, context, rfl, hcreated, by simp only [hcreated]⟩

theorem Record.eq_of_make {type : ContentType} {version : UInt16} {fragment : Bytes} {record : Record}
    (h : make type version fragment = .ok record) : record = ⟨type.code, version, fragment⟩ := by
  rw [make, RecordHeader.make] at h
  split at h
  · cases h
    rfl
  · cases h

theorem Record.fits_of_make {type : ContentType} {version : UInt16} {fragment : Bytes} {record : Record}
    (h : make type version fragment = .ok record) : fragment.length < 65536 := by
  rw [make, RecordHeader.make] at h
  split at h
  · next hfits => exact hfits
  · cases h

namespace Endpoint

/-! ### How a record is sent -/

section

variable {endpoint : Endpoint κ} {good : Unit → Endpoint κ → Prop} {bad : ConnectionError → Endpoint κ → Prop}
  {type : ContentType} {plaintext : Bytes}

/-- A plaintext within the limit is encrypted, which changes the session, and then what came of it fits a
record or not. -/
theorem ends_sendRecord_of_limit
    (hgood : ∀ fragment session entropy, plaintext.length ≤ endpoint.session.plaintextLimit → fragment.length < 65536 →
      endpoint.session.encrypt type.code plaintext endpoint.entropy = (.ok fragment, session, entropy) →
      good () { endpoint with
        session := session
        entropy := entropy
        outgoing := endpoint.outgoing ++ [⟨type.code, session.version.code, fragment⟩] })
    (hspent : ∀ failure, plaintext.length ≤ endpoint.session.plaintextLimit →
      (∀ fragment, (endpoint.session.encrypt type.code plaintext endpoint.entropy).1 = .ok fragment →
        ¬ fragment.length < 65536) →
      bad failure { endpoint with
        session := (endpoint.session.encrypt type.code plaintext endpoint.entropy).2.1
        entropy := (endpoint.session.encrypt type.code plaintext endpoint.entropy).2.2 })
    (hrefused : endpoint.session.plaintextLimit < plaintext.length → bad (.sentAlert .internalError) endpoint) :
    Ends (sendRecord type plaintext) endpoint good bad := by
  rw [sendRecord, ends_get_bind]
  refine ends_guard hrefused fun hlength => ?_
  rw [Nat.not_lt] at hlength
  rcases hencrypt : endpoint.session.encrypt type.code plaintext endpoint.entropy with ⟨result, session, entropy⟩
  rw [hencrypt] at hspent
  rw [ends_bind]
  show Ends (accept result >>= _) _ _ _
  rw [ends_bind]
  refine ends_accept (fun fragment hfragment => ?_) fun alert halert =>
    hspent _ hlength fun fragment hfragment => by cases halert.symm.trans hfragment
  rw [ends_bind]
  refine ends_accept (fun record hrecord => ?_) fun alert halert => hspent _ hlength fun other hother hfits => ?_
  · rw [Record.eq_of_make hrecord]
    exact hgood fragment session entropy hlength (Record.fits_of_make hrecord) (by rw [hencrypt, hfragment])
  · obtain rfl := Except.ok.inj (hfragment.symm.trans hother)
    rw [Record.make, RecordHeader.make, if_pos hfits] at halert
    cases halert

/-- A record is sent once its plaintext is encrypted, and the session has changed by then. -/
theorem ends_sendRecord
    (hgood : ∀ fragment session entropy,
      endpoint.session.encrypt type.code plaintext endpoint.entropy = (.ok fragment, session, entropy) →
      good () { endpoint with
        session := session
        entropy := entropy
        outgoing := endpoint.outgoing ++ [⟨type.code, session.version.code, fragment⟩] })
    (hspent : ∀ failure, bad failure { endpoint with
      session := (endpoint.session.encrypt type.code plaintext endpoint.entropy).2.1
      entropy := (endpoint.session.encrypt type.code plaintext endpoint.entropy).2.2 })
    (hrefused : ∀ failure, bad failure endpoint) : Ends (sendRecord type plaintext) endpoint good bad :=
  ends_sendRecord_of_limit (fun _ _ _ _ _ => hgood _ _ _) (fun _ _ _ => hspent _) fun _ => hrefused _

end

/-! ### What was sent so far

`taken` are the records that were taken from the endpoint. -/

/-- Nothing but records in the clear, none of them a ChangeCipherSpec. -/
def Before (taken : List Record) (endpoint : Endpoint κ) : Prop :=
  endpoint.session.encrypter = none ∧ Unswitched (taken ++ endpoint.outgoing)

/-- All behind the ChangeCipherSpec was made by the encrypter. -/
def Guarded (taken : List Record) (endpoint : Endpoint κ) : Prop :=
  ∃ front rear params initial context, SwitchedAt (taken ++ endpoint.outgoing) front rear ∧
    endpoint.session.provider.createEncoder params endpoint.role = .ok initial ∧
    endpoint.session.encrypter = some context ∧ endpoint.session.provider.Protects initial rear context

/-- The encrypter can be made. -/
def Ready (endpoint : Endpoint κ) : Prop :=
  ∃ params context, endpoint.session.securityParameters? = some params ∧
    endpoint.session.provider.createEncoder params endpoint.role = .ok context

/-- The encrypter could not be made, and `rear` was sent behind the ChangeCipherSpec. -/
def Exposed (taken rear : List Record) (endpoint : Endpoint κ) : Prop :=
  ¬ endpoint.Ready ∧ endpoint.session.encrypter = none ∧ ∃ front, SwitchedAt (taken ++ endpoint.outgoing) front rear

def Intact (taken : List Record) (endpoint : Endpoint κ) : Prop :=
  endpoint.Before taken ∨ endpoint.Guarded taken

/-- Where a failed step leaves an endpoint. -/
def Marred (taken : List Record) (endpoint : Endpoint κ) : Prop :=
  endpoint.Intact taken ∨ endpoint.role = .client ∧ endpoint.Exposed taken []

variable {endpoint other : Endpoint κ}

/-- What an endpoint has sent is judged by its sending half. -/
theorem Intact.of_same (h : endpoint.Intact taken) (hside : other.side = endpoint.side)
    (hsession : endpoint.session.SendsAs other.session) (hsent : now ++ other.outgoing = taken ++ endpoint.outgoing) :
    other.Intact now := by
  rcases h with ⟨hclear, hunswitched⟩ | ⟨front, rear, params, initial, context, hswitched, hinitial, hcontext, hprotects⟩
  · left
    rw [Before, hsession.encrypter, hsent]
    exact ⟨hclear, hunswitched⟩
  · right
    refine ⟨front, rear, params, initial, context, ?_⟩
    rw [role, hside, hsession.encrypter, hsession.provider, hsent]
    exact ⟨hswitched, hinitial, hcontext, hprotects⟩

abbrev KeepsIntact (taken : List Record) (step : Step κ α) : Prop :=
  Keeps (Intact taken) (Intact taken) step

theorem keepsIntact_refuse (alert : AlertDescription) : KeepsIntact taken (refuse alert : Step κ α) :=
  Keeps.throw fun _ h => h

theorem keepsIntact_accept (result : Except AlertDescription α) : KeepsIntact taken (accept result : Step κ α) := by
  cases result with
  | ok value => exact Keeps.pure value
  | error alert => exact keepsIntact_refuse alert

theorem keepsIntact_readBody (value : Option α) : KeepsIntact taken (readBody value : Step κ α) := by
  cases value with
  | none => exact keepsIntact_refuse .decodeError
  | some value => exact Keeps.pure value

theorem keepsIntact_updateSession {update : Session κ → Session κ} (h : ∀ session : Session κ, session.SendsAs (update session)) :
    KeepsIntact taken (updateSession update) :=
  Keeps.modify fun _ hintact => hintact.of_same rfl (h _) rfl

theorem keepsIntact_onSession {work : Session κ → Except AlertDescription α × Session κ}
    (h : ∀ session : Session κ, session.SendsAs (work session).2) : KeepsIntact taken (onSession work) :=
  Keeps.get_bind fun _ hintact => Keeps.bind (Keeps.set (hintact.of_same rfl (h _) rfl)) fun _ => keepsIntact_accept _

theorem keepsIntact_enter (phase : Phase) : KeepsIntact taken (enter phase : Step κ Unit) :=
  Keeps.modify fun _ hintact => hintact.of_same rfl ⟨rfl, rfl⟩ rfl

/-! ### Sending -/

/-- Before the ChangeCipherSpec a record of another type is one more in the clear. -/
theorem Before.ends_sendRecord (h : endpoint.Before taken) {type : ContentType} (htype : type ≠ .changeCipherSpec)
    (plaintext : Bytes) :
    Ends (sendRecord type plaintext) endpoint (fun _ => Before taken) fun _ => Before taken := by
  obtain ⟨hclear, hunswitched⟩ := h
  have hencrypt : endpoint.session.encrypt type.code plaintext endpoint.entropy =
      (.ok plaintext, endpoint.session, endpoint.entropy) := by
    rw [Session.encrypt, hclear]
  refine Endpoint.ends_sendRecord (fun fragment session entropy hsealed => ?_) (fun _ => ?_) fun _ => ⟨hclear, hunswitched⟩
  · cases hencrypt.symm.trans hsealed
    refine ⟨hclear, ?_⟩
    rw [← List.append_assoc]
    apply hunswitched.concat
    show type.code ≠ ContentType.changeCipherSpec.code
    revert htype
    cases type <;> decide
  · rw [hencrypt]
    exact ⟨hclear, hunswitched⟩

/-- Behind it a record of whatever type is one more from the encrypter. -/
theorem Guarded.ends_sendRecord (h : endpoint.Guarded taken) (type : ContentType) (plaintext : Bytes) :
    Ends (sendRecord type plaintext) endpoint (fun _ => Guarded taken) fun _ => Guarded taken := by
  obtain ⟨front, rear, params, initial, context, hswitched, hinitial, hcontext, hprotects⟩ := h
  rcases hprotect : endpoint.session.provider.protect context type.code endpoint.session.version.code plaintext
    endpoint.entropy with ⟨result, later, entropy⟩
  have hencrypt : endpoint.session.encrypt type.code plaintext endpoint.entropy =
      (result, { endpoint.session with encrypter := some later }, entropy) := by
    rw [Session.encrypt, hcontext]
    simp only [hprotect]
  refine Endpoint.ends_sendRecord (fun fragment session entropy' hsealed => ?_) (fun _ => ?_) fun _ =>
    ⟨front, rear, params, initial, context, hswitched, hinitial, hcontext, hprotects⟩
  · cases hencrypt.symm.trans hsealed
    exact ⟨front, _, params, initial, later, hswitched.concat _, hinitial, rfl,
      hprotects.sealed ⟨type.code, endpoint.session.version.code, fragment⟩ hprotect⟩
  · have hspent := hprotects.spent type.code endpoint.session.version.code plaintext endpoint.entropy
    rw [hprotect] at hspent
    rw [hencrypt]
    exact ⟨front, rear, params, initial, later, hswitched, hinitial, rfl, hspent⟩

theorem keepsIntact_sendRecord {type : ContentType} (htype : type ≠ .changeCipherSpec) (plaintext : Bytes) :
    KeepsIntact taken (sendRecord (κ := κ) type plaintext) := by
  rintro endpoint (hbefore | hguarded)
  · exact (hbefore.ends_sendRecord htype plaintext).mono (fun _ _ => .inl) fun _ _ => .inl
  · exact (hguarded.ends_sendRecord type plaintext).mono (fun _ _ => .inr) fun _ _ => .inr

theorem keepsIntact_closeNotify :
    KeepsIntact taken (sendRecord (κ := κ) .alert (Alert.warning .closeNotify).bytes) :=
  keepsIntact_sendRecord (by decide) _

theorem keepsIntact_sendFragmented {type : ContentType} (htype : type ≠ .changeCipherSpec) (b : Bytes) :
    KeepsIntact taken (sendFragmented (κ := κ) type b) :=
  Keeps.get_bind fun _ _ => Keeps.forM (keepsIntact_sendRecord htype) _

theorem keepsIntact_sendMessage (message : HandshakeMessage) : KeepsIntact taken (sendMessage (κ := κ) message) :=
  Keeps.bind (keepsIntact_accept _) fun _ =>
    Keeps.bind (keepsIntact_updateSession fun _ => ⟨rfl, rfl⟩) fun _ => keepsIntact_sendFragmented (by decide) _

theorem keepsIntact_sendFinished : KeepsIntact taken (sendFinished (κ := κ)) :=
  Keeps.get_bind fun _ _ => Keeps.bind (keepsIntact_accept _) fun _ => keepsIntact_sendMessage _

/-- Behind the announcement the encrypter is made, or nothing changes. -/
theorem ends_createEncrypter (hclear : endpoint.session.encrypter = none) {front : List Record}
    (hswitched : SwitchedAt (taken ++ endpoint.outgoing) front []) :
    Ends (onSession (·.createEncrypter endpoint.role)) endpoint (fun _ => Guarded taken) fun _ after =>
      ¬ endpoint.Ready ∧ after.role = endpoint.role ∧ after.Exposed taken [] := by
  rcases Session.createEncrypter_cases hclear endpoint.role with
    ⟨params, context, _, hcontext, hcreated⟩ | ⟨alert, hnone, hfailed⟩
  · refine ends_onSession (fun _ _ => ?_) fun alert herror => ?_
    · rw [hcreated]
      exact ⟨front, [], params, context, context, hswitched, hcontext, rfl, .created⟩
    · rw [hcreated] at herror
      cases herror
  · refine ends_onSession (fun _ hok => ?_) fun _ _ => ?_
    · rw [hfailed] at hok
      cases hok
    · have hunready : ¬ endpoint.Ready := by
        rintro ⟨params, context, hparams, hcontext⟩
        exact hnone params context hparams hcontext
      rw [hfailed]
      exact ⟨hunready, rfl, hunready, hclear, front, hswitched⟩

/-- The announcement is all that was sent where the encrypter could not be made behind it. -/
theorem Intact.ends_sendChangeCipherSpec (h : endpoint.Intact taken) :
    Ends sendChangeCipherSpec endpoint (fun _ => Intact taken) fun _ after =>
      after.Intact taken ∨ ¬ endpoint.Ready ∧ after.role = endpoint.role ∧ after.Exposed taken [] := by
  rw [sendChangeCipherSpec, ends_bind]
  rcases h with hbefore | hguarded
  · obtain ⟨hclear, hunswitched⟩ := hbefore
    have hencrypt : endpoint.session.encrypt ContentType.changeCipherSpec.code changeCipherSpecBody endpoint.entropy =
        (.ok changeCipherSpecBody, endpoint.session, endpoint.entropy) := by
      rw [Session.encrypt, hclear]
    refine Endpoint.ends_sendRecord (fun fragment session entropy hsealed => ?_) (fun _ => ?_) fun _ =>
      .inl (.inl ⟨hclear, hunswitched⟩)
    · cases hencrypt.symm.trans hsealed
      have hcreated := @ends_createEncrypter κ taken { endpoint with outgoing := endpoint.outgoing ++
        [⟨ContentType.changeCipherSpec.code, endpoint.session.version.code, changeCipherSpecBody⟩] } hclear
        (taken ++ endpoint.outgoing) ⟨hunswitched, _, rfl, (List.append_assoc ..).symm⟩
      exact hcreated.mono (fun _ _ h => .inr h) fun _ _ h => .inr h
    · rw [hencrypt]
      exact .inl (.inl ⟨hclear, hunswitched⟩)
  · refine (hguarded.ends_sendRecord .changeCipherSpec changeCipherSpecBody).mono (fun _ after hafter => ?_)
      fun _ _ hafter => .inl (.inr hafter)
    obtain ⟨_, _, _, _, context, _, _, hcontext, _⟩ := id hafter
    have hsecond : after.session.createEncrypter after.role = (.error .internalError, after.session) := by
      rw [Session.createEncrypter, hcontext]
    rw [step_eq, ends_get_bind, perform_eq, Deed.step_createEncrypter]
    refine ends_onSession (fun _ hok => ?_) fun alert _ => ?_
    · rw [hsecond] at hok
      cases hok
    · rw [hsecond]
      exact .inl (.inr hafter)

/-! ### Handshake messages -/

theorem keepsIntact_remember (message : HandshakeMessage) : KeepsIntact taken (remember (κ := κ) message) :=
  keepsIntact_updateSession fun _ => ⟨rfl, rfl⟩

/-- A Finished enters the transcript if it is right, and changes nothing otherwise. -/
theorem ends_receiveFinished {message : HandshakeMessage} {good : Unit → Endpoint κ → Prop}
    {bad : ConnectionError → Endpoint κ → Prop}
    (hgood : good () { endpoint with session := endpoint.session.addToTranscript message.bytes })
    (hbad : ∀ failure, bad failure endpoint) : Ends (receiveFinished message) endpoint good bad := by
  rw [receiveFinished, ends_bind]
  refine ends_readBody (fun verifyData _ => ?_) (hbad _)
  rw [step_eq, ends_get_bind, ends_bind]
  refine ends_accept (fun expected _ => ?_) fun alert _ => hbad _
  exact ends_guard (fun _ => hbad _) fun _ => hgood

theorem keepsIntact_receiveFinished (message : HandshakeMessage) :
    KeepsIntact taken (receiveFinished (κ := κ) message) :=
  fun _ h => ends_receiveFinished (h.of_same rfl ⟨rfl, rfl⟩ rfl) fun _ => h

theorem keepsIntact_finish : KeepsIntact taken (finish (κ := κ)) :=
  Keeps.bind (keepsIntact_updateSession fun _ => ⟨rfl, rfl⟩) fun _ => keepsIntact_enter _

theorem keepsIntact_sendClientHello (offer : ClientOffer) : KeepsIntact taken (sendClientHello (κ := κ) offer) :=
  Keeps.get_bind fun _ h => Keeps.bind (Keeps.set (h.of_same rfl ⟨rfl, rfl⟩ rfl)) fun _ =>
    Keeps.bind (keepsIntact_accept _) fun _ => Keeps.bind (keepsIntact_updateSession fun _ => ⟨rfl, rfl⟩) fun _ =>
      Keeps.bind (keepsIntact_sendMessage _) fun _ => keepsIntact_enter _

theorem sendsAs_applyServerHello (session : Session κ) (answer : ServerHello) :
    session.SendsAs (session.applyServerHello answer).2 := by
  obtain ⟨terms, hafter, -⟩ := session.applyServerHello_eq answer
  rw [hafter]
  exact ⟨rfl, rfl⟩

theorem keepsIntact_receiveServerHello (offer : ClientOffer) (message : HandshakeMessage) :
    KeepsIntact taken (receiveServerHello (κ := κ) offer message) :=
  Keeps.bind (keepsIntact_readBody _) fun _ =>
    Keeps.bind (keepsIntact_remember message) fun _ =>
      Keeps.bind (keepsIntact_accept _) fun _ =>
        Keeps.bind (keepsIntact_onSession fun session => sendsAs_applyServerHello session _) fun _ => keepsIntact_enter _

theorem keepsIntact_receiveIdentityHint (message : HandshakeMessage) :
    KeepsIntact taken (receiveIdentityHint (κ := κ) message) :=
  Keeps.bind (keepsIntact_readBody _) fun _ =>
    Keeps.bind (keepsIntact_remember message) fun _ => keepsIntact_enter _

theorem keepsIntact_receiveClientHello (policy : ServerPolicy) (message : HandshakeMessage) :
    KeepsIntact taken (receiveClientHello (κ := κ) policy message) := by
  rw [receiveClientHello]
  apply Keeps.bind (keepsIntact_readBody _)
  intro hello
  apply Keeps.bind (keepsIntact_remember message)
  intro _
  apply Keeps.get_bind
  intro endpoint hintact
  apply Keeps.bind (keepsIntact_accept _)
  rintro ⟨answer, entropy⟩
  refine Keeps.bind (Keeps.set ?_) fun _ => ?_
  · exact hintact.of_same rfl ⟨rfl, rfl⟩ rfl
  refine Keeps.bind (keepsIntact_updateSession fun _ => ⟨rfl, rfl⟩) fun _ => ?_
  apply Keeps.bind (keepsIntact_onSession fun session => sendsAs_applyServerHello session _)
  intro _
  apply Keeps.bind (keepsIntact_accept _)
  intro _
  apply Keeps.bind (keepsIntact_sendMessage _)
  intro _
  apply Keeps.bind (keepsIntact_accept _)
  intro _
  apply Keeps.bind (keepsIntact_sendMessage _)
  intro _
  exact Keeps.bind (keepsIntact_sendMessage ⟨.serverHelloDone, []⟩) fun _ => keepsIntact_enter _

theorem keepsIntact_receiveIdentity (policy : ServerPolicy) (message : HandshakeMessage) :
    KeepsIntact taken (receiveIdentity (κ := κ) policy message) := by
  rw [receiveIdentity]
  apply Keeps.bind (keepsIntact_readBody _)
  intro identity
  apply Keeps.bind (keepsIntact_remember message)
  intro _
  split
  · exact keepsIntact_refuse _
  · exact Keeps.bind (keepsIntact_updateSession fun _ => ⟨rfl, rfl⟩) fun _ => keepsIntact_enter _

/-! ### Where the encrypter can be made -/

/-- A server that waits for a Finished has keys for what it sends, as it has them for what it receives. -/
structure Keyed (endpoint : Endpoint κ) : Prop where
  paired : endpoint.session.provider.Paired
  ready : endpoint.role = .server → endpoint.phase = .waitFinished → endpoint.Ready

variable {origin : Endpoint κ} {live : Phase → Prop}

theorem Fixed.keyed_of_client (h : Fixed origin live endpoint) (hpaired : origin.session.provider.Paired)
    (hrole : origin.role = .client) : endpoint.Keyed := by
  refine ⟨h.session.provider ▸ hpaired, fun hserver => ?_⟩
  rw [role, h.side] at hserver
  cases hrole.symm.trans hserver

theorem Fixed.keyed (h : Fixed origin (· ≠ .waitFinished) endpoint) (hpaired : origin.session.provider.Paired) :
    endpoint.Keyed :=
  ⟨h.session.provider ▸ hpaired, fun _ hphase => absurd hphase h.phase⟩

theorem KeepsIntact.fixed {step : Step κ α} (h : KeepsIntact taken step) (hfixed : KeepsFixed origin live step) :
    Keeps (fun endpoint => endpoint.Intact taken ∧ Fixed origin live endpoint) (Marred taken) step :=
  (h.and hfixed).weaken fun _ hboth => .inl hboth.1

/-- A client announces protection before it knows whether it has keys. -/
theorem keeps_receiveServerHelloDone (hclient : origin.role = .client) (message : HandshakeMessage) :
    Keeps (fun endpoint => endpoint.Intact taken ∧ Fixed origin (fun _ => True) endpoint) (Marred taken)
      (receiveServerHelloDone (κ := κ) message) := by
  rw [receiveServerHelloDone]
  refine fun state h => ends_guard (fun _ => .inl h.1) fun _ => ?_
  revert state
  apply Keeps.bind ((keepsIntact_remember message).fixed (keepsFixed_remember message))
  intro _
  apply Keeps.get_bind
  intro endpoint _
  apply Keeps.bind ((keepsIntact_accept _).fixed (keepsFixed_accept _))
  intro body
  apply Keeps.bind ((keepsIntact_sendMessage _).fixed (keepsFixed_sendMessage _))
  intro _
  refine Keeps.bind (fun state h => ?_) fun _ => ?_
  · refine (h.1.ends_sendChangeCipherSpec.and (keepsFixed_sendChangeCipherSpec state h.2)).mono (fun _ _ => id) ?_
    rintro _ after ⟨hintact | ⟨-, -, hexposed⟩, hfixed⟩
    · exact .inl hintact
    · exact .inr ⟨by rw [role, hfixed.side, ← role, hclient], hexposed⟩
  · exact Keeps.bind (keepsIntact_sendFinished.fixed keepsFixed_sendFinished) fun _ =>
      (keepsIntact_enter _).fixed (keepsFixed_enter trivial)

/-- A server that has keys announces protection and protects its Finished. -/
theorem Intact.ends_finishing (h : endpoint.Intact taken) (hready : endpoint.Ready) (message : HandshakeMessage) :
    Ends (do receiveFinished message; sendChangeCipherSpec; sendFinished; finish) endpoint
      (fun _ after => after.Intact taken ∧ after.phase = .connected) fun _ => Intact taken := by
  rw [ends_bind]
  refine ends_receiveFinished ?_ fun _ => h
  obtain ⟨remembered, hremembered⟩ : ∃ remembered, remembered =
      { endpoint with session := endpoint.session.addToTranscript message.bytes } := ⟨_, rfl⟩
  have hintact : remembered.Intact taken := hremembered ▸ h.of_same rfl ⟨rfl, rfl⟩ rfl
  have hstill : remembered.Ready := hremembered ▸ hready
  rw [← hremembered, ends_bind]
  refine hintact.ends_sendChangeCipherSpec.mono (fun _ after hafter => ?_) fun _ after hafter => ?_
  · rw [ends_bind]
    refine (keepsIntact_sendFinished after hafter).mono (fun _ later hlater => ?_) fun _ _ => id
    exact ⟨hlater.of_same rfl ⟨rfl, rfl⟩ rfl, rfl⟩
  · exact hafter.resolve_right fun hexposed => hexposed.1 hstill

/-- The state in which an endpoint handles what arrives. -/
def Kept (taken : List Record) (endpoint : Endpoint κ) : Prop :=
  endpoint.Intact taken ∧ endpoint.Keyed

theorem keeps_receiveMessage (message : HandshakeMessage) :
    Keeps (Kept taken) (Marred taken) (receiveMessage (κ := κ) message) := by
  rintro endpoint ⟨hintact, hkeyed⟩
  have hclient {step : Step κ Unit} (hside : endpoint.role = .client)
      (hstep : Keeps (fun other => other.Intact taken ∧ Fixed endpoint (fun _ => True) other) (Marred taken) step) :
      Ends step endpoint (fun _ => Kept taken) fun _ => Marred taken :=
    (hstep endpoint ⟨hintact, rfl, ⟨rfl, rfl⟩, trivial⟩).mono
      (fun _ _ h => ⟨h.1, h.2.keyed_of_client hkeyed.paired hside⟩) fun _ _ => id
  have hearly {step : Step κ Unit} (hphase : endpoint.phase ≠ .waitFinished)
      (hstep : Keeps (fun other => other.Intact taken ∧ Fixed endpoint (· ≠ .waitFinished) other) (Marred taken) step) :
      Ends step endpoint (fun _ => Kept taken) fun _ => Marred taken :=
    (hstep endpoint ⟨hintact, rfl, ⟨rfl, rfl⟩, hphase⟩).mono
      (fun _ _ h => ⟨h.1, h.2.keyed hkeyed.paired⟩) fun _ _ => id
  rw [receiveMessage, step_eq, ends_get_bind]
  split
  · next hside _ _ =>
    exact hclient (by rw [role, hside]; rfl)
      ((keepsIntact_receiveServerHello _ message).fixed (keepsFixed_receiveServerHello trivial _ message))
  · next hside _ _ =>
    exact hclient (by rw [role, hside]; rfl)
      ((keepsIntact_receiveIdentityHint message).fixed (keepsFixed_receiveIdentityHint trivial message))
  · next hside _ _ =>
    have hrole : endpoint.role = .client := by rw [role, hside]; rfl
    exact hclient hrole (keeps_receiveServerHelloDone hrole message)
  · next hside _ _ =>
    have hrole : endpoint.role = .client := by rw [role, hside]; rfl
    exact hclient hrole (keeps_receiveServerHelloDone hrole message)
  · next hside _ _ =>
    exact hclient (by rw [role, hside]; rfl)
      (KeepsIntact.fixed (Keeps.bind (keepsIntact_receiveFinished message) fun _ => keepsIntact_finish)
        (Keeps.bind (keepsFixed_receiveFinished message) fun _ => keepsFixed_finish trivial))
  · next hphase _ =>
    exact hearly (by rw [hphase]; decide)
      ((keepsIntact_receiveClientHello _ message).fixed (keepsFixed_receiveClientHello (by decide) _ message))
  · next hphase _ =>
    exact hearly (by rw [hphase]; decide)
      ((keepsIntact_receiveIdentity _ message).fixed (keepsFixed_receiveIdentity (by decide) _ message))
  · next hside hphase _ =>
    have hready : endpoint.Ready := hkeyed.ready (by rw [role, hside]; rfl) hphase
    have hfixed : KeepsFixed endpoint (fun _ => True)
        (do receiveFinished message; sendChangeCipherSpec; sendFinished; finish) :=
      Keeps.bind (keepsFixed_receiveFinished message) fun _ =>
        Keeps.bind keepsFixed_sendChangeCipherSpec fun _ =>
          Keeps.bind keepsFixed_sendFinished fun _ => keepsFixed_finish trivial
    refine ((hintact.ends_finishing hready message).and (hfixed endpoint ⟨rfl, ⟨rfl, rfl⟩, trivial⟩)).mono ?_ ?_
    · rintro _ after ⟨⟨hafter, hconnected⟩, hsame⟩
      refine ⟨hafter, hsame.session.provider ▸ hkeyed.paired, fun _ hwaiting => ?_⟩
      cases hconnected.symm.trans hwaiting
    · exact fun _ _ h => .inl h.1
  · exact .inl hintact

/-! ### Records -/

theorem Kept.of_same (h : endpoint.Kept taken) (hside : other.side = endpoint.side) (hphase : other.phase = endpoint.phase)
    (hsession : endpoint.session.SendsAs other.session)
    (hparams : other.session.securityParameters? = endpoint.session.securityParameters?)
    (hsent : now ++ other.outgoing = taken ++ endpoint.outgoing) : other.Kept now := by
  refine ⟨h.1.of_same hside hsession hsent, hsession.provider ▸ h.2.paired, fun hserver hwaiting => ?_⟩
  have hrole : other.role = endpoint.role := by rw [role, hside, role]
  obtain ⟨params, context, hknown, hcontext⟩ := h.2.ready (hrole ▸ hserver) (hphase ▸ hwaiting)
  exact ⟨params, context, hparams.trans hknown, by rw [hsession.provider, hrole, hcontext]⟩

theorem keeps_takeMessage (message : HandshakeMessage) :
    Keeps (Kept taken) (Marred taken) (takeMessage (κ := κ) message) :=
  Keeps.bind (Keeps.modify fun _ h => h.of_same rfl rfl ⟨rfl, rfl⟩ rfl rfl) fun _ => keeps_receiveMessage message

theorem keeps_receiveHandshake (plaintext : Bytes) :
    Keeps (Kept taken) (Marred taken) (receiveHandshake (κ := κ) plaintext) := by
  rw [receiveHandshake]
  refine fun state h => ends_guard (fun _ => .inl h.1) fun _ => ?_
  revert state
  refine Keeps.get_bind fun endpoint h => Keeps.bind (Keeps.set ?_) fun _ => ?_
  · exact h.of_same rfl rfl ⟨rfl, rfl⟩ rfl rfl
  · refine Keeps.bind (Keeps.forM keeps_takeMessage _) fun _ => ?_
    cases (HandshakeMessage.framing.cut (endpoint.handshake ++ plaintext)).fault with
    | none => exact Keeps.pure _
    | some alert => exact fun _ h => .inl h.1

/-- A server's decrypter is the witness that it has keys. -/
theorem keeps_receiveChangeCipherSpec (plaintext : Bytes) :
    Keeps (Kept taken) (Marred taken) (receiveChangeCipherSpec (κ := κ) plaintext) := by
  intro endpoint h
  rw [receiveChangeCipherSpec]
  refine ends_guard (fun _ => .inl h.1) fun _ => ?_
  rw [step_eq, ends_get_bind]
  refine ends_guard (fun _ => .inl h.1) fun _ => ends_guard (fun _ => .inl h.1) fun _ => ?_
  rw [ends_bind, perform_eq, Deed.step_createDecrypter]
  rcases endpoint.session.createDecrypter_cases endpoint.role.peer with
    ⟨params, context, _, hparams, hcontext, hcreated⟩ | ⟨alert, hfailed⟩
  · refine ends_onSession (fun _ _ => ?_) fun _ herror => ?_
    · obtain ⟨own, hown⟩ := h.2.paired params endpoint.role.peer context hcontext
      rw [Role.peer_peer] at hown
      rw [hcreated]
      exact ⟨h.1.of_same rfl ⟨rfl, rfl⟩ rfl, h.2.paired, fun _ _ => ⟨params, own, hparams, hown⟩⟩
    · rw [hcreated] at herror
      cases herror
  · refine ends_onSession (fun _ hok => ?_) fun _ _ => ?_
    · rw [hfailed] at hok
      cases hok
    · rw [hfailed]
      exact .inl h.1

theorem keeps_receiveApplicationData (plaintext : Bytes) :
    Keeps (Kept taken) (Marred taken) (receiveApplicationData (κ := κ) plaintext) :=
  Keeps.get_bind fun _ h _ h' => ends_guard (fun _ => .inl h'.1) fun _ => h.of_same rfl rfl ⟨rfl, rfl⟩ rfl rfl

theorem keeps_receiveAlert (plaintext : Bytes) :
    Keeps (Kept taken) (Marred taken) (receiveAlert (κ := κ) plaintext) := by
  intro endpoint h
  rw [receiveAlert, ends_bind]
  exact ends_readBody (fun alert _ => .inl (h.1.of_same rfl ⟨rfl, rfl⟩ rfl)) (.inl h.1)

theorem Kept.decrypt (h : endpoint.Kept taken) (typeCode : UInt8) (version : UInt16) (fragment : Bytes) :
    { endpoint with session := (endpoint.session.decrypt typeCode version fragment).2 }.Kept taken := by
  rw [Session.decrypt]
  split
  · exact h
  · exact h.of_same rfl rfl ⟨rfl, rfl⟩ rfl rfl

theorem keeps_receiveRecord (record : Record) :
    Keeps (Kept taken) (Marred taken) (receiveRecord (κ := κ) record) := by
  rw [receiveRecord]
  refine Keeps.bind (fun endpoint h => ?_) fun plaintext => ?_
  · rw [perform_eq, Deed.step_unprotect]
    exact ends_onSession (fun _ _ => h.decrypt _ _ _) fun _ _ => .inl (h.decrypt _ _ _).1
  refine Keeps.get_bind fun _ _ state h => ends_guard (fun _ => .inl h.1) fun _ => ?_
  revert state
  split
  · exact keeps_receiveHandshake plaintext
  · exact keeps_receiveChangeCipherSpec plaintext
  · exact keeps_receiveApplicationData plaintext
  · exact keeps_receiveAlert plaintext
  · exact fun _ h => .inl h.1

theorem keeps_receiveRecords (records : Cut Record) :
    Keeps (Kept taken) (Marred taken) (receiveRecords (κ := κ) records) := by
  refine Keeps.bind (Keeps.forM keeps_receiveRecord _) fun _ => ?_
  cases records.fault with
  | none => exact Keeps.pure _
  | some alert => exact fun _ h => .inl h.1

/-! ### What the application asks for -/

theorem keeps_sendClientHello (offer : ClientOffer) (h : endpoint.Kept taken) (hidle : endpoint.phase = .idle) :
    Ends (sendClientHello offer) endpoint (fun _ => Kept taken) fun _ => Marred taken := by
  have hlive : endpoint.phase ≠ .waitFinished := by
    rw [hidle]
    decide
  exact ((keepsIntact_sendClientHello offer).fixed (keepsFixed_sendClientHello (by decide) offer) endpoint
    ⟨h.1, rfl, ⟨rfl, rfl⟩, hlive⟩).mono (fun _ _ hafter => ⟨hafter.1, hafter.2.keyed h.2.paired⟩) fun _ _ => id

theorem Keyed.onlySent (h : endpoint.Keyed) (hsent : OnlySent endpoint other) : other.Keyed := by
  obtain ⟨encrypter, outgoing, entropy, rfl⟩ := hsent
  exact ⟨h.paired, h.ready⟩

theorem Kept.ends_sendFragmented (h : endpoint.Kept taken) {type : ContentType} (htype : type ≠ .changeCipherSpec)
    (b : Bytes) : Ends (sendFragmented type b) endpoint (fun _ => Kept taken) fun _ => Marred taken :=
  ((keepsIntact_sendFragmented htype b endpoint h.1).and
    (keepsOnlySent_sendFragmented type b endpoint (.refl endpoint))).mono
    (fun _ _ hafter => ⟨hafter.1, h.2.onlySent hafter.2⟩) fun _ _ hafter => .inl hafter.1

/-! ### The end -/

/-- What was sent when all is over: at most one alert in the clear behind a ChangeCipherSpec, and only by
a client that could not make the encrypter. -/
def Concluded (taken : List Record) (endpoint : Endpoint κ) : Prop :=
  endpoint.Intact taken ∨ endpoint.role = .client ∧ ∃ rear, endpoint.Exposed taken rear ∧
    (rear = [] ∨ ∃ version alert, rear = [⟨ContentType.alert.code, version, (Alert.fatal alert).bytes⟩])

/-- The alert that says why an endpoint fails is one more from the encrypter if there is one. -/
theorem Marred.announce (h : endpoint.Marred taken) (alert : AlertDescription) :
    (endpoint.announce alert).Concluded taken := by
  rcases h with hintact | ⟨hclient, hexposed⟩
  · exact .inl (keepsIntact_sendRecord (by decide) _ endpoint hintact).after
  · obtain ⟨hunready, hclear, front, hswitched⟩ := id hexposed
    have hencrypt : endpoint.session.encrypt ContentType.alert.code (Alert.fatal alert).bytes endpoint.entropy =
        (.ok (Alert.fatal alert).bytes, endpoint.session, endpoint.entropy) := by
      rw [Session.encrypt, hclear]
    refine Ends.after (ends_sendRecord (fun fragment session entropy hsealed => ?_) (fun _ => ?_) fun _ =>
      .inr ⟨hclient, [], hexposed, .inl rfl⟩)
    · cases hencrypt.symm.trans hsealed
      exact .inr ⟨hclient, _, ⟨hunready, hclear, front, hswitched.concat _⟩, .inr ⟨_, alert, rfl⟩⟩
    · rw [hencrypt]
      exact .inr ⟨hclient, [], hexposed, .inl rfl⟩

theorem Concluded.of_same (h : endpoint.Concluded taken) (hside : other.side = endpoint.side)
    (hsession : other.session = endpoint.session) (hsent : now ++ other.outgoing = taken ++ endpoint.outgoing) :
    other.Concluded now := by
  rcases h with hintact | ⟨hclient, rear, hexposed, hrear⟩
  · exact .inl (hintact.of_same hside (hsession ▸ ⟨rfl, rfl⟩) hsent)
  · refine .inr ⟨by rw [role, hside, ← role, hclient], rear, ?_, hrear⟩
    rw [Exposed, Ready, role, hside, hsession, hsent]
    exact hexposed

theorem Marred.fail (h : endpoint.Marred taken) (failure : ConnectionError) : (endpoint.fail failure).Concluded taken := by
  cases failure with
  | sentAlert alert => exact (h.announce alert).of_same rfl rfl rfl
  | _ => 
    rcases h with hintact | ⟨hclient, hexposed⟩
    · exact .inl (hintact.of_same rfl ⟨rfl, rfl⟩ rfl)
    · exact .inr ⟨hclient, [], hexposed, .inl rfl⟩

end Endpoint

end PresharedTls
