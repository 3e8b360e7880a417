import Mathlib
import PresharedTls.Proofs.Endpoint.Bargain
import PresharedTls.Proofs.Reachable
import PresharedTls.Proofs.History

/-!
# Negotiation within the settings

Whatever bytes come in, what a connection has settled lies within its settings, and on the server's side
within the one hello that was heard too, which is the first message that came.
-/

namespace PresharedTls

variable {κ α : Type}

namespace Event

/-- The first handshake message that came in, whatever became of it. -/
def firstMessage (events : List Event) : Option HandshakeMessage :=
  (events.filterMap received?).head?

theorem firstMessage_append (events more : List Event) :
    firstMessage (events ++ more) = (firstMessage events).or (firstMessage more) := by
  rw [firstMessage, List.filterMap_append, List.head?_append]
  rfl

theorem firstMessage_of_prefix {events later : List Event} {message : HandshakeMessage}
    (h : events ++ [.received message] <+: later) : firstMessage later = (firstMessage events).or (some message) := by
  obtain ⟨more, rfl⟩ := h
  have hmessage : firstMessage [.received message] = some message := rfl
  rw [firstMessage_append, firstMessage_append, hmessage]
  cases firstMessage events <;> rfl

theorem firstMessage_concat {events : List Event} {event : Event} (h : event.received? = none) :
    firstMessage (events ++ [event]) = firstMessage events := by
  have hnone : firstMessage [event] = none := by simp [firstMessage, h]
  rw [firstMessage_append, hnone, Option.or_none]

end Event

open Event (firstMessage)

namespace Recorded

/-- The bargain is allowed by what came first. -/
def Settled (state : Endpoint κ × List Event) : Prop :=
  state.1.bargain.Allowed (firstMessage state.2)

/-- An endpoint that goes on: what came first is still to come if it is a server that waits for it. -/
structure Standing (state : Endpoint κ × List Event) : Prop where
  settled : Settled state
  pending : state.1.Pending (firstMessage state.2)

/-- A step that goes on with all in its place, or fails and leaves a bargain that is allowed. -/
abbrev KeepsStanding (work : Recorded κ α) : Prop :=
  Keeps Standing Settled work

variable {endpoint after : Endpoint κ} {events : List Event}

/-- Contexts and queues do not matter. -/
theorem Standing.of_same (h : Standing (endpoint, events)) (hbargain : after.bargain = endpoint.bargain)
    (hphase : after.phase = endpoint.phase) : Standing (after, events) := by
  have hrole : after.role = endpoint.role := congrArg (fun bargain : Bargain => bargain.side.role) hbargain
  obtain ⟨hsettled, hpending⟩ := h
  rw [Settled, ← hbargain] at hsettled
  rw [Endpoint.Pending, ← hbargain, ← hphase, ← hrole] at hpending
  exact ⟨hsettled, hpending⟩

theorem Standing.noted (h : Standing (endpoint, events)) {event : Event} (hquiet : event.received? = none) :
    Standing (endpoint, events ++ [event]) := by
  obtain ⟨hsettled, hpending⟩ := h
  have hfirst : firstMessage (events ++ [event]) = firstMessage events := Event.firstMessage_concat hquiet
  refine ⟨?_, ?_⟩
  · rw [Settled, hfirst]
    exact hsettled
  · show endpoint.Pending (firstMessage (events ++ [event]))
    rw [hfirst]
    exact hpending

theorem standing_of_agreed (h : Settled (endpoint, events)) (hphase : endpoint.phase.isAgreed = true) :
    Standing (endpoint, events) :=
  ⟨h, fun _ hearly => nomatch hphase.symm.trans hearly⟩

theorem keepsStanding_takeMessage (message : HandshakeMessage) :
    KeepsStanding (Endpoint.takeMessage message : Recorded κ Unit) := by
  rintro ⟨endpoint, events⟩ ⟨hsettled, hpending⟩
  have hsettles : Endpoint.Settles _ (Endpoint.receiveMessage message)
      (endpoint.after (Endpoint.Deed.take message).step) :=
    Endpoint.settles_receiveMessage message hsettled hpending
  -- The prefix law speaks of the events behind the note, so the note is taken off first.
  show Ends (Endpoint.attend message (Endpoint.receiveMessage message)) (_, events ++ [.received message]) _ _
  refine (Noted.ends_of_erases (Noted.erases.attend message (Noted.erases.receiveMessage message))
    ((keepsPrefix _).attend message ((keepsPrefix _).receiveMessage message)) List.prefix_rfl hsettles).mono ?_ ?_
  · rintro _ ⟨after, log⟩ ⟨⟨hallowed, hagreed⟩, hlog⟩
    rw [← Event.firstMessage_of_prefix hlog] at hallowed
    exact standing_of_agreed hallowed hagreed
  · rintro _ ⟨after, log⟩ ⟨hallowed, hlog⟩
    rw [← Event.firstMessage_of_prefix hlog] at hallowed
    exact hallowed

theorem keepsStanding_fault (fault : Option AlertDescription) :
    KeepsStanding (Endpoint.step (fault.forM Endpoint.refuse) : Recorded κ PUnit) := by
  cases fault with
  | none => exact fun _ h => h
  | some alert => exact fun _ h => h.settled

theorem keepsStanding_receiveHandshake (plaintext : Bytes) :
    KeepsStanding (Endpoint.receiveHandshake plaintext : Recorded κ Unit) := by
  rintro ⟨endpoint, events⟩ h
  rw [Endpoint.receiveHandshake]
  refine Noted.ends_guard (fun _ => h.settled) fun _ => ?_
  rw [Noted.ends_get_bind, Noted.ends_set_bind]
  have hgathered : Standing ({ endpoint with handshake := endpoint.handshake ++ plaintext }, events) := h.of_same rfl rfl
  exact Keeps.bind (Keeps.forM keepsStanding_takeMessage _) (fun _ => keepsStanding_fault _) _ hgathered

/-- The peer can switch in one phase only, and that is behind the hello messages. -/
theorem keepsStanding_receiveChangeCipherSpec (plaintext : Bytes) :
    KeepsStanding (Endpoint.receiveChangeCipherSpec plaintext : Recorded κ Unit) := by
  rintro ⟨endpoint, events⟩ h
  have hdecrypter (decrypter : Option κ) : Settled ({ endpoint with
      session := { endpoint.session with decrypter := decrypter } }, events) := h.settled
  have hsession : Settled ({ endpoint with
      session := (endpoint.session.createDecrypter endpoint.role.peer).2 }, events) := by
    rcases endpoint.session.createDecrypter_cases endpoint.role.peer with ⟨_, context, -, -, -, hcreated⟩ | ⟨alert, hfailed⟩
    · rw [hcreated]
      exact hdecrypter (some context)
    · rw [hfailed]
      exact h.settled
  rw [Endpoint.receiveChangeCipherSpec]
  refine Noted.ends_guard (fun _ => h.settled) fun _ => ?_
  rw [Noted.ends_get_bind]
  refine Noted.ends_guard (fun _ => h.settled) fun _ => Noted.ends_guard (fun _ => h.settled) fun _ => ?_
  rw [ends_bind, Noted.ends_perform, Endpoint.Deed.step_createDecrypter]
  refine Endpoint.ends_onSession (fun _ _ => ?_) fun _ _ => hsession
  have hentered : Standing (Endpoint.entering .waitFinished { endpoint with
      session := (endpoint.session.createDecrypter endpoint.role.peer).2 }, events) := standing_of_agreed hsession rfl
  exact hentered.noted rfl

theorem keepsStanding_receiveRecord (record : Record) :
    KeepsStanding (Endpoint.receiveRecord record : Recorded κ Unit) := by
  rintro ⟨endpoint, events⟩ h
  have hdecrypted : Standing ({ endpoint with
      session := (endpoint.session.decrypt record.typeCode record.version record.fragment).2 }, events) := by
    rw [Session.decrypt_snd]
    exact h.of_same rfl rfl
  rw [Endpoint.receiveRecord, ends_bind, Noted.ends_perform, Endpoint.Deed.step_unprotect]
  refine Endpoint.ends_onSession (fun plaintext _ => ?_) fun _ _ => hdecrypted.settled
  have hquiet : (Event.opened record.typeCode plaintext endpoint.session.decrypter.isSome).received? = none := rfl
  have hopened := hdecrypted.noted hquiet
  show Ends _ (_, events ++ [.opened record.typeCode plaintext endpoint.session.decrypter.isSome]) _ _
  rw [Noted.ends_get_bind]
  refine Noted.ends_guard (fun _ => hopened.settled) fun _ => ?_
  split
  · exact keepsStanding_receiveHandshake plaintext _ hopened
  · exact keepsStanding_receiveChangeCipherSpec plaintext _ hopened
  · rw [Noted.ends_step, Endpoint.receiveApplicationData, ends_get_bind]
    exact Endpoint.ends_guard (fun _ => hopened.settled) fun _ => hopened.of_same rfl rfl
  · rw [Endpoint.receiveAlert, ends_bind, Noted.ends_step]
    exact Endpoint.ends_readBody (fun _ _ => hopened.settled) hopened.settled
  · exact hopened.settled

theorem keepsStanding_receiveRecords (records : Cut Record) :
    KeepsStanding (Endpoint.receiveRecords records : Recorded κ Unit) :=
  Keeps.bind (Keeps.forM keepsStanding_receiveRecord _) fun _ => keepsStanding_fault _

end Recorded

/-! ### Connections -/

namespace Connection

variable {connection : Connection κ} {events : List Event}

/-- The bargain is allowed, whether the connection is over or not. -/
structure Bargains (connection : Connection κ) (events : List Event) : Prop where
  settled : Recorded.Settled (connection.toEndpoint, events)
  standing : connection.phase.isOver = false → Recorded.Standing (connection.toEndpoint, events)

theorem bargains_of_standing (h : Recorded.Standing (connection.toEndpoint, events)) : connection.Bargains events :=
  ⟨h.settled, fun _ => h⟩

/-- A connection that is over has nothing to wait for. -/
theorem bargains_of_isOver (h : Recorded.Settled (connection.toEndpoint, events)) (hover : connection.phase.isOver = true) :
    connection.Bargains events :=
  ⟨h, fun hgoes => nomatch hover.symm.trans hgoes⟩

theorem bargains_fail {endpoint : Endpoint κ} (h : Recorded.Settled (endpoint, events)) (failure : ConnectionError)
    (incoming : Bytes) : Bargains ⟨endpoint.fail failure, incoming⟩ events := by
  obtain ⟨encrypter, outgoing, entropy, hfail⟩ := Endpoint.fail_eq failure endpoint
  rw [hfail]
  exact bargains_of_isOver h rfl

theorem bargains_observeStep {work : Recorded κ Unit}
    (h : Ends work (connection.toEndpoint, events) (fun _ => Recorded.Standing) fun _ => Recorded.Settled) :
    (observeStep work connection events).1.Bargains (observeStep work connection events).2 := by
  refine holds_observeStep (P := fun state => state.1.Bargains state.2) (h.mono (fun _ state hstands => ?_) ?_)
  · exact bargains_of_standing hstands
  · exact fun failure state hsettled => bargains_fail hsettled failure []

/-- A client settles nothing by its hello but its own random value, which no offer speaks of. -/
theorem standing_sendClientHello {endpoint : Endpoint κ} {offer : ClientOffer}
    (h : Recorded.Settled (endpoint, events)) (hside : endpoint.side = .client offer) :
    Ends (Endpoint.sendClientHello offer : Recorded κ Unit) (endpoint, events) (fun _ => Recorded.Standing)
      fun _ => Recorded.Settled := by
  have hallowed {after : Endpoint κ} (hbargain : after.bargain.side = .client offer)
      (hallows : offer.Allows after.bargain.terms) (log : List Event) : Recorded.Settled (after, log) :=
    (Bargain.allowed_client hbargain).mpr hallows
  have hstands {after : Endpoint κ} {log : List Event} (hbargain : after.bargain.side = .client offer)
      (hsettled : Recorded.Settled (after, log)) : Recorded.Standing (after, log) := by
    refine ⟨hsettled, fun hserver => ?_⟩
    rw [Endpoint.role, show after.side = .client offer from hbargain] at hserver
    cases hserver
  have hoffer : offer.Allows endpoint.bargain.terms := (Bargain.allowed_client hside).mp h
  have hended : Ends (Endpoint.sendClientHello offer) endpoint
      (fun _ after => after.bargain.side = .client offer ∧ offer.Allows after.bargain.terms)
      fun _ after => after.bargain.side = .client offer ∧ offer.Allows after.bargain.terms := by
    rw [Endpoint.sendClientHello, Endpoint.step_eq, ends_get_bind, ends_bind]
    show Ends (Endpoint.accept _ >>= _) _ _ _
    rw [ends_bind]
    refine Endpoint.ends_accept (fun body _ => ?_) fun _ _ => ⟨hside, hoffer⟩
    rw [Endpoint.step_eq, Endpoint.ends_updateSession_bind, ends_bind]
    refine (Endpoint.keepsBargain_sendMessage _ _ rfl).mono (fun _ after hafter => ?_) fun _ after hafter => ?_
    · show after.bargain.side = _ ∧ offer.Allows after.bargain.terms
      rw [hafter]
      exact ⟨hside, hoffer.version, hoffer.suite, hoffer.parameters⟩
    · rw [hafter]
      exact ⟨hside, hoffer.version, hoffer.suite, hoffer.parameters⟩
  refine (Noted.ends_of_erases (Noted.erases.sendClientHello offer) ((Recorded.keepsPrefix events).sendClientHello offer)
    List.prefix_rfl hended).mono ?_ ?_
  · rintro _ ⟨after, log⟩ ⟨⟨hafter, hallows⟩, -⟩
    exact hstands hafter (hallowed hafter hallows log)
  · rintro _ ⟨after, log⟩ ⟨⟨hafter, hallows⟩, -⟩
    exact hallowed hafter hallows log

theorem Bargains.start (h : connection.Bargains events) :
    (observe (connection, events) .start).1.Bargains (observe (connection, events) .start).2 := by
  by_cases hidle : connection.phase = .idle
  · have hstands := h.standing (by rw [hidle]; rfl)
    cases hside : connection.side with
    | client offer =>
      rw [observe_start_of_client hidle hside]
      exact bargains_observeStep (standing_sendClientHello h.settled hside)
    | server policy =>
      have hpending := hstands.pending (by rw [Endpoint.role, hside]; rfl) (by rw [hidle]; rfl)
      rw [observe_start_of_server hidle hside]
      exact bargains_observeStep (Recorded.ends_enter ⟨h.settled, fun _ _ => hpending⟩)
  · rw [observe_start_of_not_idle hidle]
    exact h

theorem Bargains.receive (h : connection.Bargains events) (b : Bytes) :
    (observe (connection, events) (.receive b)).1.Bargains (observe (connection, events) (.receive b)).2 := by
  by_cases hready : connection.phase.TakesInput
  · rw [observe_receive_of_takesInput hready]
    exact bargains_observeStep (Recorded.keepsStanding_receiveRecords _ _ (h.standing hready.2))
  · rw [observe_receive_of_not_takesInput hready]
    exact h

theorem Bargains.send (h : connection.Bargains events) (data : Bytes) : (connection.send data).2.Bargains events := by
  rw [Connection.send]
  split
  · exact h
  next hgoes =>
  split
  · exact h
  · have hstands := h.standing (by simpa using hgoes)
    have hsent : Ends (Endpoint.sendFragmented .applicationData data) connection.toEndpoint
        (fun _ after => Recorded.Standing (after, events)) fun _ after => Recorded.Settled (after, events) :=
      Endpoint.ends_of_onlySent (Endpoint.keepsOnlySent_sendFragmented _ _)
        (fun _ _ _ _ => hstands.of_same rfl rfl) fun _ _ _ _ => h.settled
    refine holds_perform (P := fun after => after.Bargains events) (hsent.mono (fun _ _ hafter => ?_) ?_)
    · exact bargains_of_standing hafter
    · exact fun failure _ hsettled => bargains_fail hsettled failure []

theorem Bargains.close (h : connection.Bargains events) : connection.close.Bargains events := by
  rw [Connection.close]
  split
  · exact bargains_of_isOver h.settled rfl
  · obtain ⟨encrypter, outgoing, entropy, hafter⟩ := Endpoint.OnlySent.after
      (Endpoint.keepsOnlySent_sendRecord connection.toEndpoint .alert (Alert.warning .closeNotify).bytes)
    refine bargains_of_isOver ?_ rfl
    rw [hafter]
    exact h.settled

theorem Bargains.observe (h : connection.Bargains events) (operation : Operation) :
    (observe (connection, events) operation).1.Bargains (observe (connection, events) operation).2 := by
  cases operation with
  | start => exact h.start
  | receive b => exact h.receive b
  | send data => exact h.send data
  | takeOutgoing => exact ⟨h.settled, fun hgoes => (h.standing hgoes).of_same rfl rfl⟩
  | read =>
    show connection.read.2.Bargains events
    rw [Connection.read]
    split
    · exact h
    · exact ⟨h.settled, fun hgoes => (h.standing hgoes).of_same rfl rfl⟩
  | close => exact h.close
  | abandon => exact bargains_of_isOver h.settled rfl
  | reseed entropy => exact ⟨h.settled, fun hgoes => (h.standing hgoes).of_same rfl rfl⟩

theorem Bargains.run (h : connection.Bargains []) (operations : List Operation) :
    (connection.run operations).Bargains (connection.events operations) := by
  have hall (operations : List Operation) : ∀ (connection : Connection κ) (events : List Event),
      connection.Bargains events →
      (operations.foldl Connection.observe (connection, events)).1.Bargains
        (operations.foldl Connection.observe (connection, events)).2 := by
    induction operations with
    | nil => exact fun _ _ h => h
    | cons operation rest ih => exact fun connection events h => ih _ _ (h.observe operation)
  have hend := hall operations connection [] h
  rw [fst_foldl_observe] at hend
  exact hend

end Connection

/-! ### Settings -/

/-- A session within the settings of a client. -/
structure ClientSettings.Permits (settings : ClientSettings κ) (session : Session κ) : Prop where
  version : session.version = settings.version
  suite : ∀ suite, session.suite = some suite → suite ∈ settings.suites
  plaintextLimit : session.plaintextLimit = maximumPlaintext ∨
    ∃ length, settings.maxFragmentLength = some length ∧ session.plaintextLimit = length.limit
  encryptThenMac : session.encryptThenMac = true → settings.encryptThenMac = true
  truncatedHmac : session.truncatedHmac = true → settings.truncatedHmac = true

/-- The entries that a client sends are those its settings ask for. -/
theorem ClientSettings.mem_extensions {settings : ClientSettings κ} {type : ExtensionType} {data : Bytes}
    (h : (type.code, data) ∈ settings.extensions.entries) :
    match type with
    | .maxFragmentLength => ∃ length, settings.maxFragmentLength = some length ∧ data = [length.code]
    | .encryptThenMac => settings.encryptThenMac = true
    | .truncatedHmac => settings.truncatedHmac = true := by
  have hmem := ExtensionMap.mem_ofList h
  rw [List.mem_append, List.mem_append, List.mem_map] at hmem
  dsimp only at hmem
  rcases hmem with (⟨length, hlength, hentry⟩ | hencrypt) | htruncated
  · obtain ⟨hcode, hdata⟩ := Prod.mk.inj hentry
    obtain rfl := ExtensionType.code_injective hcode
    exact ⟨length, Option.mem_toList.mp hlength, hdata.symm⟩
  · split at hencrypt
    · next hasked =>
      obtain ⟨hcode, -⟩ := Prod.mk.inj (List.mem_singleton.mp hencrypt)
      obtain rfl := ExtensionType.code_injective hcode
      exact hasked
    · cases hencrypt
  · split at htruncated
    · next hasked =>
      obtain ⟨hcode, -⟩ := Prod.mk.inj (List.mem_singleton.mp htruncated)
      obtain rfl := ExtensionType.code_injective hcode
      exact hasked
    · cases htruncated

theorem ClientSettings.permits_of_allows {settings : ClientSettings κ} {session : Session κ}
    (h : settings.offer.Allows session.terms) : settings.Permits session where
  version := h.version
  suite := h.suite
  plaintextLimit := by
    refine h.parameters.plaintextLimit.imp_right ?_
    rintro ⟨data, length, hmem, hread, hlimit⟩
    obtain ⟨asked, hasked, rfl⟩ := mem_extensions hmem
    have hsame : MaxFragmentLength.ofBytes [asked.code] = .ok asked := by cases asked <;> rfl
    obtain rfl := Except.ok.inj (hsame.symm.trans hread)
    exact ⟨asked, hasked, hlimit⟩
  encryptThenMac hactive := by
    obtain ⟨data, hmem⟩ := h.parameters.encryptThenMac hactive
    exact mem_extensions hmem
  truncatedHmac hactive := by
    obtain ⟨data, hmem⟩ := h.parameters.truncatedHmac hactive
    exact mem_extensions hmem

/-- A connection that is made has settled nothing but what its settings say. -/
theorem Configuration.bargains {configuration : Configuration κ} {entropy : Entropy} {connection : Connection κ}
    (hmade : configuration.connection entropy = .ok connection) : connection.Bargains [] := by
  cases configuration with
  | client settings =>
    obtain rfl := Except.ok.inj hmade
    have hfresh (session : Session κ) (hversion : session.version = settings.version) (hsuite : session.suite = none)
        (hparameters : session.parameters = .start) :
        (Connection.fresh (.client settings.offer) session entropy).Bargains [] := by
      refine Connection.bargains_of_standing ⟨⟨hversion, fun suite hsome => ?_, ?_⟩, fun hserver => by cases hserver⟩
      · cases hsuite.symm.trans hsome
      · show session.parameters.Within _
        rw [hparameters]
        exact Parameters.within_start _
    rw [ClientSettings.connection]
    split
    · exact hfresh _ rfl rfl rfl
    · exact hfresh _ rfl rfl rfl
  | server settings =>
    simp only [Configuration.connection, ServerSettings.connection] at hmade
    split at hmade
    · cases hmade
    · obtain rfl := Except.ok.inj hmade
      refine Connection.bargains_of_standing ⟨⟨fun _ hsome => ?_, fun _ hsome => ?_⟩, fun _ _ => ⟨rfl, rfl, rfl⟩⟩
      · cases hsome
      · cases hsome

/-- **Negotiation stays within the settings.** Whatever is done to a client and whatever comes in, its session is
one its settings permit. A server's session has a suite only behind a first message that is a hello, and is
then one that its policy allows with that hello; a key is the one that the resolver has for the identity. -/
theorem Configuration.bargain_run {configuration : Configuration κ} {entropy : Entropy} {connection : Connection κ}
    (hmade : configuration.connection entropy = .ok connection) (operations : List Operation) :
    match configuration with
    | .client settings => settings.Permits (connection.run operations).session
    | .server settings =>
      (∀ key, (connection.run operations).session.key = some key →
        settings.resolve (connection.run operations).session.identity = some key) ∧
      ∀ suite, (connection.run operations).session.suite = some suite →
        ∃ message hello, firstMessage (connection.events operations) = some message ∧
          message.type = .clientHello ∧ ClientHello.ofBytes? message.body = some hello ∧
          settings.policy.Allows hello suite (connection.run operations).session.terms := by
  have hsettled := ((bargains hmade).run operations).settled
  have hside := (Connection.fixed_run connection operations).side
  cases configuration with
  | client settings =>
    have hmade : connection.side = .client settings.offer := by
      obtain rfl := Except.ok.inj hmade
      rw [ClientSettings.connection]
      split <;> rfl
    exact settings.permits_of_allows ((Bargain.allowed_client (hside.trans hmade)).mp hsettled)
  | server settings =>
    have hmade : connection.side = .server settings.policy := by
      simp only [Configuration.connection, ServerSettings.connection] at hmade
      split at hmade
      · cases hmade
      · obtain rfl := Except.ok.inj hmade
        rfl
    exact (Bargain.allowed_server (hside.trans hmade)).mp hsettled

/-- A server that speaks two suites, the older of them only since TLS 1.2. -/
def choosyServer : ServerSettings Protection where
  provider := .standard
  suites := [.aes128CbcSha, .nullSha256]
  suites_ne_nil := List.cons_ne_nil _ _

/-- A ClientHello that goes up to TLS 1.2 and asks for small records and for encryption before the MAC. -/
def askingHello : Bytes :=
  [22, 3, 1, 0, 58, 1, 0, 0, 54, 3, 3] ++ List.replicate 32 9 ++
    [0, 0, 4, 0, 0xB0, 0, 0x8C, 1, 0, 0, 9, 0, 1, 0, 1, 2, 0, 22, 0, 0]

def choosyRun : List Operation :=
  [.start, .receive askingHello]

/-- It takes the client's first suite, and has nothing to encrypt before the MAC then. -/
theorem Configuration.bargain_run_choosy :
    ∃ connection message hello, choosyServer.connection ⟨fun _ => 7, 0⟩ = .ok connection ∧
      firstMessage (connection.events choosyRun) = some message ∧ ClientHello.ofBytes? message.body = some hello ∧
      choosyServer.policy.Allows hello .nullSha256 (connection.run choosyRun).session.terms := by
  have hmade : (Configuration.server choosyServer).connection ⟨fun _ => 7, 0⟩ = .ok
    (Connection.fresh (.server choosyServer.policy) (Session.fresh .tls12 18432 .standard) ⟨fun _ => 7, 0⟩) := rfl
  obtain ⟨-, hsuite⟩ := Configuration.bargain_run hmade choosyRun
  obtain ⟨message, hello, hfirst, -, hread, hallows⟩ := hsuite .nullSha256 (by cbv)
  exact ⟨_, message, hello, hmade, hfirst, hread, hallows⟩

end PresharedTls
