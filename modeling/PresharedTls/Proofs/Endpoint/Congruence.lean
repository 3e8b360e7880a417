import PresharedTls.Endpoint.Receive

/-!
# Handling in two monads

Messages and records are handled in any monad that has the steps and the deeds of an endpoint. So a relation
between the work of two such monads holds of a handler in both as soon as sequencing, steps and deeds keep it. A
property of the work in one monad is the case of a relation that does not look at the other side.
-/

namespace PresharedTls.Endpoint

variable {κ α β : Type} {m n : Type → Type} [Monad m] [Handling κ m] [Monad n] [Handling κ n]

/-- A relation between the work in two monads, closed under all that handling is made of. -/
structure Congruence (κ : Type) (m n : Type → Type) [Monad m] [Handling κ m] [Monad n] [Handling κ n] where
  Rel {α : Type} : m α → n α → Prop
  pure {α : Type} (value : α) : Rel (Pure.pure value) (Pure.pure value)
  bind {α β : Type} {work : m α} {other : n α} {next : α → m β} {next' : α → n β} :
    Rel work other → (∀ value, Rel (next value) (next' value)) → Rel (work >>= next) (other >>= next')
  step {α : Type} (step : Step κ α) : Rel (Handling.step step) (Handling.step step)
  perform {α : Type} (deed : Deed κ α) : Rel (Handling.perform deed) (Handling.perform deed)
  attend (message : HandshakeMessage) {work : m Unit} {other : n Unit} :
    Rel work other → Rel (Handling.attend message work) (Handling.attend message other)

namespace Congruence

variable (R : Congruence κ m n)

theorem guard {condition : Prop} [Decidable condition] {alert : AlertDescription} {next : PUnit → m α}
    {next' : PUnit → n α}
    (h : R.Rel (next ⟨⟩) (next' ⟨⟩)) :
    R.Rel (if condition then Handling.step (refuse alert) >>= next else next ⟨⟩)
      (if condition then Handling.step (refuse alert) >>= next' else next' ⟨⟩) := by
  split
  · exact R.bind (R.step _) fun _ => h
  · exact h

theorem forM {work : β → m PUnit} {work' : β → n PUnit} (h : ∀ item, R.Rel (work item) (work' item)) (items : List β) :
    R.Rel (items.forM work) (items.forM work') := by
  induction items with
  | nil => exact R.pure _
  | cons item rest ih => exact R.bind (h item) fun _ => ih

/-! ### Handshake messages -/

theorem sendChangeCipherSpec : R.Rel sendChangeCipherSpec sendChangeCipherSpec := by
  apply R.bind (R.step _)
  intro _
  exact R.bind (R.step _) fun endpoint => R.perform _

theorem sendFinished : R.Rel sendFinished sendFinished := by
  apply R.bind (R.step _)
  intro endpoint
  exact R.bind (R.perform _) fun verifyData => R.perform _

theorem receiveFinished (message : HandshakeMessage) : R.Rel (receiveFinished message) (receiveFinished message) := by
  apply R.bind (R.step _)
  intro verifyData
  apply R.bind (R.step _)
  intro endpoint
  exact R.bind (R.perform _) fun expected => R.guard (R.step _)

theorem finish : R.Rel finish finish :=
  R.bind (R.perform _) fun _ => R.perform _

theorem sendClientHello (offer : ClientOffer) : R.Rel (sendClientHello offer) (sendClientHello offer) := by
  apply R.bind (R.step _)
  intro endpoint
  apply R.bind (R.step _)
  intro _
  apply R.bind (R.step _)
  intro body
  apply R.bind (R.step _)
  intro _
  exact R.bind (R.perform _) fun _ => R.perform _

theorem receiveServerHello (offer : ClientOffer) (message : HandshakeMessage) :
    R.Rel (receiveServerHello offer message) (receiveServerHello offer message) := by
  apply R.bind (R.step _)
  intro answer
  apply R.bind (R.step _)
  intro _
  apply R.bind (R.step _)
  intro _
  exact R.bind (R.step _) fun _ => R.perform _

theorem receiveIdentityHint (message : HandshakeMessage) :
    R.Rel (receiveIdentityHint message) (receiveIdentityHint message) := by
  apply R.bind (R.step _)
  intro hint
  exact R.bind (R.step _) fun _ => R.perform _

theorem receiveServerHelloDone (message : HandshakeMessage) :
    R.Rel (receiveServerHelloDone message) (receiveServerHelloDone message) := by
  rw [Endpoint.receiveServerHelloDone, Endpoint.receiveServerHelloDone]
  apply R.guard
  apply R.bind (R.step _)
  intro _
  apply R.bind (R.step _)
  intro endpoint
  apply R.bind (R.step _)
  intro body
  apply R.bind (R.perform _)
  intro _
  apply R.bind R.sendChangeCipherSpec
  intro _
  exact R.bind R.sendFinished fun _ => R.perform _

theorem receiveClientHello (policy : ServerPolicy) (message : HandshakeMessage) :
    R.Rel (receiveClientHello policy message) (receiveClientHello policy message) := by
  apply R.bind (R.step _)
  intro hello
  apply R.bind (R.step _)
  intro _
  apply R.bind (R.step _)
  intro endpoint
  apply R.bind (R.step _)
  intro answer
  apply R.bind (R.step _)
  intro _
  apply R.bind (R.step _)
  intro _
  apply R.bind (R.step _)
  intro _
  apply R.bind (R.step _)
  intro answerBody
  apply R.bind (R.perform _)
  intro _
  apply R.bind (R.step _)
  intro hintBody
  apply R.bind (R.perform _)
  intro _
  exact R.bind (R.perform _) fun _ => R.perform _

theorem receiveIdentity (policy : ServerPolicy) (message : HandshakeMessage) :
    R.Rel (receiveIdentity policy message) (receiveIdentity policy message) := by
  apply R.bind (R.step _)
  intro identity
  apply R.bind (R.step _)
  intro _
  cases policy.resolve identity with
  | none => exact R.step _
  | some key => exact R.bind (R.step _) fun _ => R.perform _

theorem receiveMessage (message : HandshakeMessage) : R.Rel (receiveMessage message) (receiveMessage message) := by
  apply R.bind (R.step _)
  intro endpoint
  split
  · exact R.receiveServerHello _ message
  · exact R.receiveIdentityHint message
  · exact R.receiveServerHelloDone message
  · exact R.receiveServerHelloDone message
  · exact R.bind (R.receiveFinished message) fun _ => R.finish
  · exact R.receiveClientHello _ message
  · exact R.receiveIdentity _ message
  · apply R.bind (R.receiveFinished message)
    intro _
    apply R.bind R.sendChangeCipherSpec
    intro _
    exact R.bind R.sendFinished fun _ => R.finish
  · exact R.step _

theorem takeMessage (message : HandshakeMessage) : R.Rel (takeMessage message) (takeMessage message) :=
  R.bind (R.perform _) fun _ => R.attend message (R.receiveMessage message)

theorem takeMessages (messages : Cut HandshakeMessage) : R.Rel (takeMessages messages) (takeMessages messages) :=
  R.bind (R.forM R.takeMessage _) fun _ => R.step _

/-! ### Records -/

theorem receiveHandshake (plaintext : Bytes) : R.Rel (receiveHandshake plaintext) (receiveHandshake plaintext) := by
  rw [Endpoint.receiveHandshake, Endpoint.receiveHandshake]
  apply R.guard
  apply R.bind (R.step _)
  intro endpoint
  exact R.bind (R.step _) fun _ => R.takeMessages _

theorem receiveChangeCipherSpec (plaintext : Bytes) :
    R.Rel (receiveChangeCipherSpec plaintext) (receiveChangeCipherSpec plaintext) := by
  rw [Endpoint.receiveChangeCipherSpec, Endpoint.receiveChangeCipherSpec]
  apply R.guard
  apply R.bind (R.step _)
  intro endpoint
  exact R.guard (R.guard (R.bind (R.perform _) fun _ => R.perform _))

theorem receiveAlert (plaintext : Bytes) : R.Rel (receiveAlert plaintext) (receiveAlert plaintext) := by
  apply R.bind (R.step _)
  intro alert
  apply R.bind (R.step _)
  intro _
  exact R.bind (R.perform _) fun _ => R.step _

theorem receiveRecord (record : Record) : R.Rel (receiveRecord record) (receiveRecord record) := by
  apply R.bind (R.perform _)
  intro plaintext
  apply R.bind (R.step _)
  intro endpoint
  apply R.guard
  split
  · exact R.receiveHandshake plaintext
  · exact R.receiveChangeCipherSpec plaintext
  · exact R.step _
  · exact R.receiveAlert plaintext
  · exact R.step _

theorem receiveRecords (records : Cut Record) : R.Rel (receiveRecords records) (receiveRecords records) :=
  R.bind (R.forM R.receiveRecord _) fun _ => R.step _

end Congruence

end PresharedTls.Endpoint
