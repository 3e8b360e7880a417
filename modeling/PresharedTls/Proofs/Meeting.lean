import PresharedTls.Proofs.Flights
import PresharedTls.Proofs.Network

/-!
# Two ends that mean well

A client and a server with a key in common, on a network that cuts and delays what they send but does
not change it. If their settings allow a version and a suite, the handshake completes and both ends hold
the same terms and the same keys. If they do not, or the server does not know the identity, both ends
end in an error that one of them has told the other.
-/

namespace PresharedTls

open Standing (fresh hint helloDone keyExchange)

/-! ### How it may end -/

namespace Network

/-- Both ends are connected, with the same terms and each other's keys. -/
structure Agreed (network : Network Protection) (terms : Terms) : Prop where
  phase : ∀ role, (network.connection role).phase = .connected
  handshakeDone : ∀ role, (network.connection role).session.handshakeDone = true
  failure : ∀ role, network.failure role = none
  terms : ∀ role, (network.connection role).session.terms = terms
  /-- What protects the next record of one end opens it at the other one. -/
  contexts : ∀ role, ∃ context, (network.connection role).session.encrypter = some context ∧
    (network.connection role.peer).session.decrypter = some context

/-- The end in `role` has refused and told the other one why, and neither is connected. -/
structure Failed (network : Network Protection) (role : Role) (alert : AlertDescription) : Prop where
  phase : ∀ other, (network.connection other).phase = .error
  handshakeDone : ∀ other, (network.connection other).session.handshakeDone = false
  sent : network.failure role = some (.sentAlert alert)
  received : network.failure role.peer = some (.receivedAlert alert)

end Network

/-- A client with credentials and a server, whose messages are not too long to be accepted. -/
structure Meets (client : ClientSettings Protection) (server : ServerSettings Protection) (entropy : Entropy)
    (identity key : Bytes) : Prop where
  clientProvider : client.provider = .standard
  serverProvider : server.provider = .standard
  credentials : client.credentials = some (identity, key)
  hello : ∃ body, (client.offer.hello entropy).1.bytes = .ok body ∧ body.length ≤ HandshakeHeader.maximumLength
  identityLength : 2 + identity.length ≤ HandshakeHeader.maximumLength
  hintLength : 2 + server.identityHint.length ≤ HandshakeHeader.maximumLength
  keyLength : key.length < 65536

/-! ### Where they begin -/

def ClientSettings.opening (client : ClientSettings Protection) (entropy : Entropy) (identity key body : Bytes) : Standing :=
  (((fresh (.client client.offer) client.version identity (some key) (effectiveCiphertextLimit client.ciphertextSetting)
    entropy).settle ((Terms.start client.version identity).withClientRandom (client.offer.hello entropy).1.random)
      (client.offer.hello entropy).2).tell ⟨.clientHello, body⟩).reach .waitHello

def ServerSettings.awaiting (server : ServerSettings Protection) (entropy : Entropy) : Standing :=
  (fresh (.server server.policy) server.maximumVersion [] none (effectiveCiphertextLimit server.ciphertextSetting)
    entropy).reach .waitHello

theorem waitHello_takesInput : Phase.waitHello.TakesInput :=
  ⟨by decide, rfl⟩

theorem waitKeyExchange_takesInput : Phase.waitKeyExchange.TakesInput :=
  ⟨by decide, rfl⟩

theorem waitChangeCipher_takesInput : Phase.waitChangeCipher.TakesInput :=
  ⟨by decide, rfl⟩

theorem maximumPlaintext_le_effectiveCiphertextLimit (setting : UInt16) :
    maximumPlaintext ≤ effectiveCiphertextLimit setting :=
  Nat.le_max_right _ _

section

variable {client : ClientSettings Protection} {server : ServerSettings Protection} {clientEntropy serverEntropy : Entropy}
  {identity key : Bytes}

theorem Meets.start_client (h : Meets client server clientEntropy identity key) {body : Bytes}
    (hbytes : (client.offer.hello clientEntropy).1.bytes = .ok body)
    (hbody : body.length ≤ HandshakeHeader.maximumLength) :
    (client.connection clientEntropy).start = (.ok (), (client.opening clientEntropy identity key body).connection) := by
  have hmade : client.connection clientEntropy = (fresh (.client client.offer) client.version identity (some key)
      (effectiveCiphertextLimit client.ciphertextSetting) clientEntropy).connection := by
    simp only [ClientSettings.connection, h.credentials, h.clientProvider]
    rfl
  have hsent := Standing.run_sendMessage ((fresh (.client client.offer) client.version identity (some key)
    (effectiveCiphertextLimit client.ciphertextSetting) clientEntropy).settle
      ((Terms.start client.version identity).withClientRandom (client.offer.hello clientEntropy).1.random)
        (client.offer.hello clientEntropy).2) rfl Parameters.sensible_start ⟨.clientHello, body⟩ hbody
  have hstarted : (Endpoint.sendClientHello client.offer).run (client.connection clientEntropy).toEndpoint =
      .ok () (client.opening clientEntropy identity key body).endpoint := by
    rw [hmade, Endpoint.sendClientHello]
    apply (run_bind_of_ok (EStateM.run_get _)).trans
    apply (run_bind_of_ok (EStateM.run_set _ _)).trans
    show EStateM.run (Endpoint.accept (client.offer.hello clientEntropy).1.bytes >>= _) _ = _
    rw [hbytes]
    apply (run_bind_of_ok (Endpoint.run_accept_ok _ _)).trans
    apply (run_bind_of_ok (Endpoint.run_updateSession _ _)).trans
    exact run_bind_of_ok hsent
  rw [Connection.start_of_client (by rw [hmade]; rfl) (by rw [hmade]; rfl), Connection.perform_of_ok hstarted, hmade]
  rfl

theorem Meets.start_server (h : Meets client server clientEntropy identity key) {connection : Connection Protection}
    (hmade : server.connection serverEntropy = .ok connection) :
    server.minimumVersion ≤ server.maximumVersion ∧
      connection.start = (.ok (), (server.awaiting serverEntropy).connection) := by
  simp only [ServerSettings.connection] at hmade
  split at hmade
  · cases hmade
  · next hrange =>
    obtain rfl := Except.ok.inj hmade
    rw [h.serverProvider]
    exact ⟨Version.not_lt.mp hrange, rfl⟩

theorem Meets.opened_eq (h : Meets client server clientEntropy identity key) {connection : Connection Protection}
    (hmade : server.connection serverEntropy = .ok connection) {body : Bytes}
    (hbytes : (client.offer.hello clientEntropy).1.bytes = .ok body)
    (hbody : body.length ≤ HandshakeHeader.maximumLength) :
    Network.opened (client.connection clientEntropy) connection =
      .between .server (server.awaiting serverEntropy).connection (client.opening clientEntropy identity key body).connection
        none none := by
  simp only [Network.opened, h.start_client hbytes hbody, (h.start_server hmade).2, Network.between, Network.mk.injEq]
  refine ⟨?_, trivial, ?_⟩
  all_goals
    funext role
    cases role <;> rfl

theorem Meets.begins (h : Meets client server clientEntropy identity key) {connection : Connection Protection}
    (hmade : server.connection serverEntropy = .ok connection) :
    (Network.opened (client.connection clientEntropy) connection).Begins := by
  obtain ⟨body, hbytes, hbody⟩ := h.hello
  rw [h.opened_eq hmade hbytes hbody]
  refine ⟨fun role => ?_, fun role => ?_, fun _ => rfl, fun role => ?_⟩
  · cases role <;> exact waitHello_takesInput
  · cases role <;> exact Connection.waits_of_incoming_nil rfl
  · cases role <;> rfl

end

/-! ### Turns -/

namespace Standing

variable {near after : Standing} (far : Standing)

theorem leads_turn (role : Role) (nearFailure farFailure : Option ConnectionError) {records : List Record}
    (hsent : far.outgoing = records) {result : Except ConnectionError Unit}
    (hreceive : near.connection.receive (records.flatMap Record.bytes) = (result, after.connection)) :
    (Network.between role near.connection far.connection nearFailure farFailure).Leads
      (.between role.peer far.drained.connection after.connection farFailure (nearFailure.or (failureOf result))) := by
  subst hsent
  exact Network.leads_turn role nearFailure farFailure hreceive

/-- Where an end has refused, the other one is told and nothing more happens. -/
theorem settles_failed {network : Network Protection} (hbegins : network.Begins) (role : Role) {alert : AlertDescription}
    (hleads : network.Leads
      (.between role.peer far.drained.connection (near.refused alert).connection none (some (.sentAlert alert))))
    (houtgoing : near.outgoing = []) (hlimit : maximumPlaintext ≤ far.ciphertextLimit) (hready : far.phase.TakesInput)
    (hopen : far.decrypter = none) (hsensible : far.terms.parameters.Sensible)
    (hnamed : AlertDescription.ofCode alert.code = alert) (hfailure : alert ≠ .closeNotify) (hfar : far.done = false)
    (hnear : near.done = false) : network.Settles (·.Failed role alert) := by
  have hrefused : (near.refused alert).outgoing = [alertRecord alert near.terms.version] := by
    simp only [refused, reach, queue, houtgoing, List.nil_append]
  have htold := leads_turn (near.refused alert) role.peer none (some (.sentAlert alert)) hrefused
    (receive_alert far.drained hlimit hready hopen hsensible hnamed hfailure near.terms.version)
  rw [Role.peer_peer] at htold
  have hpeer := role.peer_ne
  apply hbegins.settles (hleads.trans htold)
  · intro other
    by_cases hother : other = role
    · subst hother
      exact ⟨rfl, by simp [Network.between, connection, endpoint, drained]⟩
    · exact ⟨rfl, by simp [Network.between, hother, connection, endpoint, drained, reach]⟩
  · refine ⟨fun other => ?_, fun other => ?_, ?_, ?_⟩
    · by_cases hother : other = role
      · simp [Network.between, hother, connection, endpoint, drained, refused, reach]
      · simp [Network.between, hother, connection, endpoint, drained, reach]
    · by_cases hother : other = role
      · simp [Network.between, hother, connection, endpoint, session, drained, refused, reach, queue, hnear]
      · simp [Network.between, hother, connection, endpoint, session, drained, reach, hfar]
    · simp [Network.between]
    · simp [Network.between, hpeer, failureOf]

end Standing

/-! ### The server's answer -/

/-- The answer of a server to a hello, with the version and the suite it has chosen. -/
structure Answer (server : ServerSettings Protection) (hello : ClientHello) (version : Version) (suite : CipherSuite) where
  random : HelloRandom
  /-- The source of random bytes once the answer is drawn. -/
  entropy : Entropy
  body : Bytes
  bytes_eq : (server.policy.answering hello version suite random).bytes = .ok body
  length_le : body.length ≤ HandshakeHeader.maximumLength

namespace Answer

variable {server : ServerSettings Protection} {hello : ClientHello} {version : Version} {suite : CipherSuite}
  (answer : Answer server hello version suite)

/-- The terms of the server. -/
def terms : Terms :=
  ((Terms.start server.maximumVersion []).withClientRandom hello.random).answering server.policy hello version suite
    answer.random

theorem sensible_terms : answer.terms.parameters.Sensible :=
  Terms.sensible_answering Parameters.sensible_start _ _ _ _ _

/-- What keys are derived from, for a client with this key. -/
def params (key : Bytes) : SecurityParameters where
  version := version
  suite := suite
  clientRandom := hello.random
  serverRandom := answer.random
  key := key
  encryptThenMac := answer.terms.parameters.encryptThenMac
  truncatedHmac := answer.terms.parameters.truncatedHmac

theorem exists_create {offered : List CipherSuite} (hsuite : offered.find? (server.policy.accepts version) = some suite)
    {key : Bytes} (hkey : key.length < 65536) (sender : Role) :
    ∃ context, Protection.create (answer.params key) sender = .ok context :=
  Protection.exists_create (ServerPolicy.minimumVersion_le hsuite) hkey sender

/-- A server that has answered and waits for an identity. -/
def asking (entropy : Entropy) (helloBody : Bytes) : Standing :=
  (server.awaiting entropy).answering ⟨.clientHello, helloBody⟩ answer.terms answer.entropy answer.body server.identityHint

/-- What is said up to the identity of the client. -/
def said (helloBody identity : Bytes) : Bytes :=
  (HandshakeMessage.mk .clientHello helloBody).bytes ++ (HandshakeMessage.mk .serverHello answer.body).bytes ++
    (hint server.identityHint).bytes ++ helloDone.bytes ++ (keyExchange identity).bytes

end Answer

namespace Meets

variable {client : ClientSettings Protection} {server : ServerSettings Protection} {clientEntropy serverEntropy : Entropy}
  {identity key : Bytes} {connection : Connection Protection} {body : Bytes}

section

variable (h : Meets client server clientEntropy identity key) (hmade : server.connection serverEntropy = .ok connection)
  (hbytes : (client.offer.hello clientEntropy).1.bytes = .ok body)
  (hbody : body.length ≤ HandshakeHeader.maximumLength)
include h hmade hbytes hbody

theorem settles_failed_of_answer {alert : AlertDescription}
    (hanswer : server.policy.answer (client.offer.hello clientEntropy).1 serverEntropy = .error alert)
    (hnamed : AlertDescription.ofCode alert.code = alert) (hfailure : alert ≠ .closeNotify) :
    (Network.opened (client.connection clientEntropy) connection).Settles (·.Failed .server alert) := by
  have hread : ClientHello.ofBytes? (HandshakeMessage.mk .clientHello body).body = some (client.offer.hello clientEntropy).1 :=
    ClientHello.ofBytes?_bytes hbytes
  have hmessage : (Endpoint.receiveMessage ⟨.clientHello, body⟩).run (server.awaiting serverEntropy).endpoint = _ :=
    Standing.run_receiveClientHello_of_error (server.awaiting serverEntropy) hread hanswer
  have hrefused := Standing.receive_of_refusal (server.awaiting serverEntropy)
    (maximumPlaintext_le_effectiveCiphertextLimit _) waitHello_takesInput rfl hbody Parameters.sensible_start
    (Nat.le_refl _) client.version hmessage rfl Parameters.sensible_start [] fun _ hmem => nomatch hmem
  rw [List.append_nil] at hrefused
  have hturn := Standing.leads_turn (client.opening clientEntropy identity key body) .server none none rfl hrefused
  rw [← h.opened_eq hmade hbytes hbody] at hturn
  exact Standing.settles_failed _ (h.begins hmade) .server hturn rfl (maximumPlaintext_le_effectiveCiphertextLimit _)
    waitHello_takesInput rfl Parameters.sensible_start hnamed hfailure rfl rfl

theorem exists_leads_answer {version : Version} {suite : CipherSuite}
    (hversion : server.policy.chooseVersion client.version.code = .ok version)
    (hsuite : client.suites.find? (server.policy.accepts version) = some suite) :
    ∃ answer : Answer server (client.offer.hello clientEntropy).1 version suite,
      (Network.opened (client.connection clientEntropy) connection).Leads
        (.between .client (client.opening clientEntropy identity key body).drained.connection
          (answer.asking serverEntropy body).connection none none) := by
  have hread : ClientHello.ofBytes? (HandshakeMessage.mk .clientHello body).body = some (client.offer.hello clientEntropy).1 :=
    ClientHello.ofBytes?_bytes hbytes
  have hanswer := server.policy.answer_of_chosen (client.offer.hello clientEntropy).1 hversion hsuite serverEntropy
  obtain ⟨answerBody, hanswerBody, hlength⟩ :=
    server.policy.exists_bytes_answering version suite hbytes (serverEntropy.draw 32).1
  have hfits := Nat.le_trans hlength hbody
  have hmessage := Standing.run_receiveClientHello (server.awaiting serverEntropy) rfl Parameters.sensible_start hread
    (fun _ => ClientSettings.wellFormed_of_mem_extensions) hanswer hanswerBody hfits h.hintLength rfl
  have hreceived := Standing.receive_clientHello (server.awaiting serverEntropy)
    (maximumPlaintext_le_effectiveCiphertextLimit _) rfl rfl rfl hbody Parameters.sensible_start (Nat.le_refl _)
    client.version hmessage
  have hturn := Standing.leads_turn (client.opening clientEntropy identity key body) .server none none rfl hreceived
  rw [← h.opened_eq hmade hbytes hbody] at hturn
  exact ⟨⟨_, _, answerBody, hanswerBody, hfits⟩, hturn⟩

end

end Meets

end PresharedTls
