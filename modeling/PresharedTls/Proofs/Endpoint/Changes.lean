import Mathlib.Logic.Relation
import PresharedTls.Proofs.Endpoint.Guarded

/-!
# What a step can change

Every step is a sequence of small changes, however it ends, and there are not many kinds of these.
They are listed once, with what each of them presupposes, and each step is shown to be made of them.
A property of an endpoint that every change keeps is kept by all that can happen to it.
-/

namespace PresharedTls

/-- The type of a record that is not an alert. -/
def ContentType.IsRoutine (type : ContentType) : Prop :=
  type ≠ .alert

instance : DecidablePred ContentType.IsRoutine :=
  fun type => inferInstanceAs (Decidable (type ≠ .alert))

namespace Endpoint

variable {κ α : Type} {sends : ContentType → Prop} {origin : Endpoint κ}

/-- One change of an endpoint, where the records that it may queue are of the types in `sends`. -/
inductive Change (sends : ContentType → Prop) (endpoint : Endpoint κ) : Endpoint κ → Prop where
  /-- A record was protected and queued. -/
  | sent {type : ContentType} (htype : sends type) {plaintext fragment : Bytes} {session : Session κ} {entropy : Entropy}
      (hsealed : endpoint.session.encrypt type.code plaintext endpoint.entropy = (.ok fragment, session, entropy))
      (hlength : plaintext.length ≤ endpoint.session.plaintextLimit) (hfits : fragment.length < 65536) :
      Change sends endpoint { endpoint with
        session := session
        entropy := entropy
        outgoing := endpoint.outgoing ++ [⟨type.code, session.version.code, fragment⟩] }
  /-- Protecting a plaintext failed, or came to more than a record holds. -/
  | spent (typeCode : UInt8) (plaintext : Bytes) (hlength : plaintext.length ≤ endpoint.session.plaintextLimit)
      (hfailed : ∀ fragment, (endpoint.session.encrypt typeCode plaintext endpoint.entropy).1 = .ok fragment →
        ¬ fragment.length < 65536) : Change sends endpoint { endpoint with
      session := (endpoint.session.encrypt typeCode plaintext endpoint.entropy).2.1
      entropy := (endpoint.session.encrypt typeCode plaintext endpoint.entropy).2.2 }
  /-- A record was opened, or failed to open. -/
  | opened (typeCode : UInt8) (version : UInt16) (fragment : Bytes) : Change sends endpoint { endpoint with
      session := (endpoint.session.decrypt typeCode version fragment).2 }
  /-- A record was opened, and its plaintext is for the application. -/
  | taken {version : UInt16} {fragment data : Bytes} {session : Session κ}
      (hopened : endpoint.session.decrypt ContentType.applicationData.code version fragment = (.ok data, session))
      (hdone : session.handshakeDone = true) : Change sends endpoint { endpoint with
        session := session
        received := endpoint.received ++ [data] }
  | said (message : Bytes) : Change sends endpoint { endpoint with session := endpoint.session.addToTranscript message }
  | greeted (random : HelloRandom) : Change sends endpoint { endpoint with
      session := endpoint.session.withClientRandom random }
  | answered (answer : ServerHello) : Change sends endpoint { endpoint with
      session := (endpoint.session.applyServerHello answer).2 }
  | keyed (identity key : Bytes) : Change sends endpoint { endpoint with session := endpoint.session.withKey identity key }
  /-- The encrypter was made behind a ChangeCipherSpec, or could not be made. -/
  | armed (hannounced : ∃ record ∈ endpoint.outgoing.getLast?, record.typeCode = ContentType.changeCipherSpec.code)
      (sender : Role) : Change sends endpoint { endpoint with session := (endpoint.session.createEncrypter sender).2 }
  /-- The decrypter was made, or could not be made. -/
  | switched (sender : Role) : Change sends endpoint { endpoint with
      session := (endpoint.session.createDecrypter sender).2 }
  | finished : Change sends endpoint { endpoint with session := endpoint.session.finish }
  | entered (phase : Phase) : Change sends endpoint { endpoint with phase := phase }
  | gathered (handshake : Bytes) : Change sends endpoint { endpoint with handshake := handshake }
  | warned (peerClosed : Bool) : Change sends endpoint { endpoint with peerClosed := peerClosed }
  | drew (entropy : Entropy) : Change sends endpoint { endpoint with entropy := entropy }

/-- An endpoint that has come from `origin` by changes. -/
abbrev Changes (sends : ContentType → Prop) (origin endpoint : Endpoint κ) : Prop :=
  Relation.ReflTransGen (Change sends) origin endpoint

theorem Change.mono {sends' : ContentType → Prop} (h : ∀ type, sends type → sends' type) {endpoint after : Endpoint κ}
    (hchange : Change sends endpoint after) : Change sends' endpoint after := by
  cases hchange with
  | sent htype hsealed hlength hfits => exact .sent (h _ htype) hsealed hlength hfits
  | spent typeCode plaintext hlength hfailed => exact .spent typeCode plaintext hlength hfailed
  | opened typeCode version fragment => exact .opened typeCode version fragment
  | taken hopened hdone => exact .taken hopened hdone
  | said message => exact .said message
  | greeted random => exact .greeted random
  | answered answer => exact .answered answer
  | keyed identity key => exact .keyed identity key
  | armed hannounced sender => exact .armed hannounced sender
  | switched sender => exact .switched sender
  | finished => exact .finished
  | entered phase => exact .entered phase
  | gathered handshake => exact .gathered handshake
  | warned peerClosed => exact .warned peerClosed
  | drew entropy => exact .drew entropy

/-- What every change keeps is kept by all changes. -/
theorem Changes.keep {P : Endpoint κ → Prop}
    (hP : ∀ endpoint after, Change sends endpoint after → P endpoint → P after) {endpoint : Endpoint κ}
    (h : Changes sends origin endpoint) (horigin : P origin) : P endpoint := by
  induction h with
  | refl => exact horigin
  | tail _ hchange ih => exact hP _ _ hchange ih

theorem Changes.mono {sends' : ContentType → Prop} (h : ∀ type, sends type → sends' type) {endpoint : Endpoint κ}
    (hchanges : Changes sends origin endpoint) : Changes sends' origin endpoint :=
  hchanges.keep (fun _ _ hchange hafter => hafter.tail (hchange.mono h)) .refl

/-- A step that is made of changes and queues no alert. -/
abbrev KeepsChanges (origin : Endpoint κ) (step : Step κ α) : Prop :=
  Keeps (Changes ContentType.IsRoutine origin) (Changes ContentType.IsRoutine origin) step

/-! ### The parts of steps -/

theorem keepsChanges_refuse (alert : AlertDescription) : KeepsChanges origin (refuse alert : Step κ α) :=
  Keeps.throw fun _ => id

theorem keepsChanges_accept (result : Except AlertDescription α) : KeepsChanges origin (accept result : Step κ α) :=
  fun _ h => ends_accept (fun _ _ => h) fun _ _ => h

theorem keepsChanges_readBody (value : Option α) : KeepsChanges origin (readBody value : Step κ α) :=
  fun _ h => ends_readBody (fun _ _ => h) h

theorem keepsChanges_updateSession {update : Session κ → Session κ}
    (h : ∀ endpoint : Endpoint κ, Change ContentType.IsRoutine endpoint { endpoint with session := update endpoint.session }) :
    KeepsChanges origin (updateSession update) :=
  Keeps.modify fun endpoint hchanges => hchanges.tail (h endpoint)

theorem keepsChanges_onSession {work : Session κ → Except AlertDescription α × Session κ}
    (h : ∀ endpoint : Endpoint κ, Change ContentType.IsRoutine endpoint { endpoint with session := (work endpoint.session).2 }) :
    KeepsChanges origin (onSession work) :=
  fun endpoint hchanges => ends_onSession (fun _ _ => hchanges.tail (h endpoint)) fun _ _ => hchanges.tail (h endpoint)

theorem keepsChanges_enter (phase : Phase) : KeepsChanges origin (enter phase : Step κ Unit) :=
  Keeps.modify fun _ h => h.tail (.entered phase)

theorem keepsChanges_guard {condition : Prop} [Decidable condition] {alert : AlertDescription} {next : PUnit → Step κ α}
    (h : KeepsChanges origin (next ⟨⟩)) :
    KeepsChanges origin (if condition then refuse alert >>= next else next ⟨⟩) :=
  Keeps.ite (fun _ => Keeps.bind (keepsChanges_refuse alert) fun _ => h) fun _ => h

/-! ### Sending -/

/-- Sending is the same changes for all types of records. -/
theorem changes_sendRecord {type : ContentType} (htype : sends type) (plaintext : Bytes) :
    Keeps (Changes sends origin) (Changes sends origin) (sendRecord (κ := κ) type plaintext) :=
  fun _ h => ends_sendRecord_of_limit (fun _ _ _ hlength hfits hsealed => h.tail (.sent htype hsealed hlength hfits))
    (fun _ hlength hfailed => h.tail (.spent type.code plaintext hlength hfailed)) fun _ => h

theorem keepsChanges_sendFragmented {type : ContentType} (htype : type.IsRoutine) (b : Bytes) :
    KeepsChanges origin (sendFragmented (κ := κ) type b) :=
  Keeps.get_bind fun _ _ => Keeps.forM (changes_sendRecord htype) _

theorem keepsChanges_sendMessage (message : HandshakeMessage) : KeepsChanges origin (sendMessage (κ := κ) message) :=
  Keeps.bind (keepsChanges_accept _) fun _ => Keeps.bind (keepsChanges_updateSession fun _ => .said _) fun _ =>
    keepsChanges_sendFragmented (by decide) _

theorem keepsChanges_sendChangeCipherSpec : KeepsChanges origin (sendChangeCipherSpec (κ := κ)) := by
  intro endpoint h
  rw [sendChangeCipherSpec, ends_bind]
  -- The encrypter is made behind the record, so the two halves are not judged apart.
  refine ends_sendRecord_of_limit (fun _ _ _ hlength hfits hsealed => ?_)
    (fun _ hlength hfailed => h.tail (.spent _ _ hlength hfailed)) fun _ => h
  have hannounced := h.tail (.sent (by decide) hsealed hlength hfits)
  rw [step_eq, ends_get_bind, perform_eq, Deed.step_createEncrypter]
  exact ends_onSession (fun _ _ => hannounced.tail (.armed ⟨_, List.getLast?_concat, rfl⟩ _))
    fun _ _ => hannounced.tail (.armed ⟨_, List.getLast?_concat, rfl⟩ _)

theorem keepsChanges_sendFinished : KeepsChanges origin (sendFinished (κ := κ)) :=
  Keeps.get_bind fun _ _ => Keeps.bind (keepsChanges_accept _) fun _ => keepsChanges_sendMessage _

/-! ### Handshake messages -/

theorem keepsChanges_remember (message : HandshakeMessage) : KeepsChanges origin (remember (κ := κ) message) :=
  keepsChanges_updateSession fun _ => .said _

theorem keepsChanges_receiveFinished (message : HandshakeMessage) :
    KeepsChanges origin (receiveFinished (κ := κ) message) :=
  Keeps.bind (keepsChanges_readBody _) fun _ => Keeps.get_bind fun _ _ =>
    Keeps.bind (keepsChanges_accept _) fun _ => keepsChanges_guard (keepsChanges_remember message)

theorem keepsChanges_finish : KeepsChanges origin (finish (κ := κ)) :=
  Keeps.bind (keepsChanges_updateSession fun _ => .finished) fun _ => keepsChanges_enter .connected

theorem keepsChanges_sendClientHello (offer : ClientOffer) : KeepsChanges origin (sendClientHello (κ := κ) offer) :=
  Keeps.get_bind fun _ h => Keeps.bind (Keeps.set (h.tail (.drew _))) fun _ =>
    Keeps.bind (keepsChanges_accept _) fun _ => Keeps.bind (keepsChanges_updateSession fun _ => .greeted _) fun _ =>
      Keeps.bind (keepsChanges_sendMessage _) fun _ => keepsChanges_enter _

theorem keepsChanges_receiveServerHello (offer : ClientOffer) (message : HandshakeMessage) :
    KeepsChanges origin (receiveServerHello (κ := κ) offer message) :=
  Keeps.bind (keepsChanges_readBody _) fun _ => Keeps.bind (keepsChanges_remember message) fun _ =>
    Keeps.bind (keepsChanges_accept _) fun _ => Keeps.bind (keepsChanges_onSession fun _ => .answered _) fun _ =>
      keepsChanges_enter _

theorem keepsChanges_receiveIdentityHint (message : HandshakeMessage) :
    KeepsChanges origin (receiveIdentityHint (κ := κ) message) :=
  Keeps.bind (keepsChanges_readBody _) fun _ => Keeps.bind (keepsChanges_remember message) fun _ => keepsChanges_enter _

theorem keepsChanges_receiveServerHelloDone (message : HandshakeMessage) :
    KeepsChanges origin (receiveServerHelloDone (κ := κ) message) := by
  rw [receiveServerHelloDone]
  refine keepsChanges_guard (Keeps.bind (keepsChanges_remember message) fun _ => Keeps.get_bind fun _ _ => ?_)
  refine Keeps.bind (keepsChanges_accept _) fun _ => Keeps.bind (keepsChanges_sendMessage _) fun _ => ?_
  refine Keeps.bind keepsChanges_sendChangeCipherSpec fun _ => Keeps.bind keepsChanges_sendFinished fun _ => ?_
  exact keepsChanges_enter _

theorem keepsChanges_receiveClientHello (policy : ServerPolicy) (message : HandshakeMessage) :
    KeepsChanges origin (receiveClientHello (κ := κ) policy message) := by
  rw [receiveClientHello]
  refine Keeps.bind (keepsChanges_readBody _) fun hello => Keeps.bind (keepsChanges_remember message) fun _ => ?_
  refine Keeps.get_bind fun endpoint h => Keeps.bind (keepsChanges_accept _) fun answer => ?_
  apply Keeps.bind (Keeps.set (h.tail (.drew _)))
  intro _
  refine Keeps.bind (keepsChanges_updateSession fun _ => .greeted _) fun _ => ?_
  refine Keeps.bind (keepsChanges_onSession fun _ => .answered _) fun _ => ?_
  refine Keeps.bind (keepsChanges_accept _) fun _ => Keeps.bind (keepsChanges_sendMessage _) fun _ => ?_
  refine Keeps.bind (keepsChanges_accept _) fun _ => Keeps.bind (keepsChanges_sendMessage _) fun _ => ?_
  exact Keeps.bind (keepsChanges_sendMessage ⟨.serverHelloDone, []⟩) fun _ => keepsChanges_enter _

theorem keepsChanges_receiveIdentity (policy : ServerPolicy) (message : HandshakeMessage) :
    KeepsChanges origin (receiveIdentity (κ := κ) policy message) := by
  rw [receiveIdentity]
  refine Keeps.bind (keepsChanges_readBody _) fun identity => Keeps.bind (keepsChanges_remember message) fun _ => ?_
  split
  · exact keepsChanges_refuse _
  · exact Keeps.bind (keepsChanges_updateSession fun _ => .keyed _ _) fun _ => keepsChanges_enter _

theorem keepsChanges_receiveMessage (message : HandshakeMessage) :
    KeepsChanges origin (receiveMessage (κ := κ) message) := by
  rw [receiveMessage]
  refine Keeps.get_bind fun endpoint _ => ?_
  split
  · exact keepsChanges_receiveServerHello _ message
  · exact keepsChanges_receiveIdentityHint message
  · exact keepsChanges_receiveServerHelloDone message
  · exact keepsChanges_receiveServerHelloDone message
  · exact Keeps.bind (keepsChanges_receiveFinished message) fun _ => keepsChanges_finish
  · exact keepsChanges_receiveClientHello _ message
  · exact keepsChanges_receiveIdentity _ message
  · exact Keeps.bind (keepsChanges_receiveFinished message) fun _ => Keeps.bind keepsChanges_sendChangeCipherSpec fun _ =>
      Keeps.bind keepsChanges_sendFinished fun _ => keepsChanges_finish
  · exact keepsChanges_refuse _

/-! ### Records -/

theorem keepsChanges_takeMessage (message : HandshakeMessage) : KeepsChanges origin (takeMessage (κ := κ) message) :=
  Keeps.bind (Keeps.modify fun _ h => h.tail (.gathered _)) fun _ => keepsChanges_receiveMessage message

theorem keepsChanges_receiveHandshake (plaintext : Bytes) :
    KeepsChanges origin (receiveHandshake (κ := κ) plaintext) := by
  rw [receiveHandshake]
  refine keepsChanges_guard (Keeps.get_bind fun endpoint h => Keeps.bind (Keeps.set (h.tail (.gathered _))) fun _ => ?_)
  refine Keeps.bind (Keeps.forM keepsChanges_takeMessage _) fun _ => ?_
  cases (HandshakeMessage.framing.cut (endpoint.handshake ++ plaintext)).fault with
  | none => exact Keeps.pure _
  | some alert => exact keepsChanges_refuse alert

theorem keepsChanges_receiveChangeCipherSpec (plaintext : Bytes) :
    KeepsChanges origin (receiveChangeCipherSpec (κ := κ) plaintext) := by
  rw [receiveChangeCipherSpec]
  refine keepsChanges_guard (Keeps.get_bind fun _ _ => keepsChanges_guard (keepsChanges_guard ?_))
  rw [perform_eq, Deed.step_createDecrypter]
  exact Keeps.bind (keepsChanges_onSession fun _ => .switched _) fun _ => keepsChanges_enter _

theorem keepsChanges_receiveAlert (plaintext : Bytes) : KeepsChanges origin (receiveAlert (κ := κ) plaintext) :=
  Keeps.bind (keepsChanges_readBody _) fun _ _ h => (h.tail (.warned _)).tail (.entered .error)

/-- Application data is what came out of the record, so the two are one change. -/
theorem keepsChanges_receiveRecord (record : Record) : KeepsChanges origin (receiveRecord (κ := κ) record) := by
  intro endpoint h
  rcases hopened : endpoint.session.decrypt record.typeCode record.version record.fragment with ⟨result, session⟩
  have hnext : Changes ContentType.IsRoutine origin { endpoint with session := session } := by
    have hchange : Change ContentType.IsRoutine endpoint { endpoint with
        session := (endpoint.session.decrypt record.typeCode record.version record.fragment).2 } := .opened _ _ _
    rw [hopened] at hchange
    exact h.tail hchange
  rw [receiveRecord, ends_bind, perform_eq, Deed.step_unprotect]
  refine ends_onSession (fun plaintext hplaintext => ?_) fun _ _ => by rwa [hopened]
  rw [hopened] at hplaintext ⊢
  obtain rfl : result = .ok plaintext := hplaintext
  rw [step_eq, ends_get_bind]
  refine ends_guard (fun _ => hnext) fun _ => ?_
  split
  · exact keepsChanges_receiveHandshake plaintext _ hnext
  · exact keepsChanges_receiveChangeCipherSpec plaintext _ hnext
  · next htype =>
    rw [step_eq, receiveApplicationData, ends_get_bind]
    refine ends_guard (fun _ => hnext) fun hdone => ?_
    rw [← ContentType.code_of_ofCode? htype] at hopened
    exact h.tail (.taken hopened (Decidable.not_not.mp hdone))
  · exact keepsChanges_receiveAlert plaintext _ hnext
  · exact hnext

theorem keepsChanges_receiveRecords (records : Cut Record) : KeepsChanges origin (receiveRecords (κ := κ) records) := by
  refine Keeps.bind (Keeps.forM keepsChanges_receiveRecord _) fun _ => ?_
  cases records.fault with
  | none => exact Keeps.pure _
  | some alert => exact keepsChanges_refuse alert

end Endpoint

end PresharedTls
