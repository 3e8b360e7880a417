import PresharedTls.Proofs.Notes

/-!
# What happens on a connection

An endpoint keeps no record of what happened to it, and gives up its transcript when the handshake
is done. To speak of the order in which messages came and went, the deeds of an endpoint are noted in a list of
events. That changes nothing of what is done, so the events of a run are a function of the run.
-/

namespace PresharedTls

open Endpoint (Step Deed)

inductive Event where
  /-- A record gave a plaintext. It is `sealed` if a decrypter opened it. -/
  | opened (typeCode : UInt8) (plaintext : Bytes) (sealed : Bool)
  /-- The next handshake message was taken off the incoming handshake bytes. -/
  | received (message : HandshakeMessage)
  | accepted (message : HandshakeMessage)
  /-- The peer's ChangeCipherSpec was accepted. -/
  | switched
  | sent (message : HandshakeMessage)
  /-- The verify data of `sender` was computed over a transcript. -/
  | computed (sender : Role) (transcript : Bytes) (verifyData : VerifyData)

/-- The events with the one that a deed is, if it is one. -/
def Event.deed {κ α : Type} (deed : Deed κ α) (before : Endpoint κ) (value : α) (events : List Event) : List Event :=
  match deed, value with
  | .unprotect record, plaintext => events ++ [.opened record.typeCode plaintext before.session.decrypter.isSome]
  | .take message, _ => events ++ [.received message]
  | .createDecrypter _, _ => events ++ [.switched]
  | .send message, _ => events ++ [.sent message]
  | .compute session sender, verifyData => events ++ [.computed sender (session.transcript.getD []) verifyData]
  | .enter _, _ | .finish, _ | .createEncrypter _, _ => events

instance {κ : Type} : Notes κ (List Event) where
  deed := Event.deed
  accepted message events := events ++ [.accepted message]

/-- Work at an endpoint that notes events. -/
abbrev Recorded (κ : Type) : Type → Type :=
  Noted κ (List Event)

namespace Recorded

variable {κ : Type}

/-- Events are not taken back. -/
def keepsPrefix (early : List Event) : Endpoint.Congruence κ (Recorded κ) (Recorded κ) :=
  Noted.keeps (early <+: ·)
    (fun deed _ _ events h => by cases deed <;> first | exact h | exact h.trans (List.prefix_append _ _))
    fun _ _ h => h.trans (List.prefix_append _ _)

end Recorded

namespace Connection

variable {κ : Type}

/-- The events of a sequence of operations. -/
def events (connection : Connection κ) (operations : List Operation) : List Event :=
  (operations.foldl observe (connection, [])).2

theorem prefix_observeStep {work : Recorded κ Unit} {events : List Event}
    (h : Keeps (fun state => events <+: state.2) (fun state => events <+: state.2) work) (connection : Connection κ) :
    events <+: (observeStep work connection events).2 :=
  holds_observeStep (P := fun state => events <+: state.2) (h (connection.toEndpoint, events) List.prefix_rfl)

theorem prefix_observe (state : Connection κ × List Event) (operation : Operation) :
    state.2 <+: (observe state operation).2 := by
  cases operation with
  | start =>
    rw [observe]
    split
    · split
      · exact prefix_observeStep ((Recorded.keepsPrefix _).sendClientHello _) _
      · exact prefix_observeStep ((Recorded.keepsPrefix _).perform _) _
    · exact List.prefix_rfl
  | receive b =>
    rw [observe]
    split
    · exact List.prefix_rfl
    · exact prefix_observeStep ((Recorded.keepsPrefix _).receiveRecords _) _
  | _ => exact List.prefix_rfl

/-- The events of a run go on with those of a longer one. -/
theorem prefix_events (connection : Connection κ) (operations more : List Operation) :
    connection.events operations <+: connection.events (operations ++ more) := by
  have hmore (state : Connection κ × List Event) : state.2 <+: (more.foldl observe state).2 := by
    induction more generalizing state with
    | nil => exact List.prefix_rfl
    | cons operation rest ih => exact (prefix_observe state operation).trans (ih _)
  rw [events, events, List.foldl_append]
  exact hmore _

end Connection

end PresharedTls
