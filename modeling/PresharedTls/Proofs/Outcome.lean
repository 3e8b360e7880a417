import PresharedTls.Proofs.Meeting

/-!
# How a handshake ends

Between a client and a server that mean well everything is settled in advance by their settings. The
version and the suite decide whether they come to terms, and the server has to know the identity. Who
has its turn when, and how the bytes are cut, makes no difference.
-/

namespace PresharedTls

open Standing (hint helloDone keyExchange finished changeCipherSpec)

/-- How a handshake completes. The server has `asked` for an identity and the client has `shown` it. Once it
is `known`, the server has `concluded`, and so the client has `completed`. -/
structure Completes (network : Network Protection) (terms : Terms) (said : Bytes)
    (asked shown known concluded completed : Standing) (showing leaving : List Record) : Prop where
  leads : network.Leads (.between .server asked.connection shown.connection none none)
  ready : asked.phase.TakesInput
  outgoing : shown.outgoing = showing ++ leaving
  knows : asked.connection.receive (showing.flatMap Record.bytes) = (.ok (), known.connection)
  concludes : known.connection.receive (leaving.flatMap Record.bytes) = (.ok (), concluded.connection)
  completes : shown.drained.connection.receive (concluded.outgoing.flatMap Record.bytes) = (.ok (), completed.connection)
  /-- The client's Finished is the last that it has said, -/
  shown : shown.phase = .waitChangeCipher ∧ ∃ data, shown.transcript = some (said ++ (finished data).bytes)
  /-- and what came before that is what the server knows. -/
  known : known.phase = .waitChangeCipher ∧ known.transcript = some said
  nothing : completed.outgoing = []
  sensible : terms.parameters.Sensible
  agreed : (Network.between .server concluded.drained.connection completed.connection none none).Agreed terms
  begun : ∀ role, ∃ context params, ((Network.between .server concluded.drained.connection completed.connection none
    none).connection role).session.encrypter = some context ∧ ((Network.between .server concluded.drained.connection
    completed.connection none none).connection role).session.securityParameters? = some params ∧ context.Begun params role

section

variable {network : Network Protection} {terms : Terms} {said : Bytes} {asked shown known concluded completed : Standing}
  {showing leaving : List Record}
  (h : Completes network terms said asked shown known concluded completed showing leaving)
include h

theorem Completes.leads_end :
    network.Leads (.between .server concluded.drained.connection completed.connection none none) := by
  have hreceived : asked.connection.receive ((showing ++ leaving).flatMap Record.bytes) = (.ok (), concluded.connection) := by
    rw [List.flatMap_append, Connection.receive_append h.ready, h.knows]
    exact h.concludes
  have htold := Standing.leads_turn shown .server none none h.outgoing hreceived
  have hdone := Standing.leads_turn concluded .client none none rfl h.completes
  exact h.leads.trans (htold.trans hdone)

theorem Completes.quiet : (Network.between .server concluded.drained.connection completed.connection none none).Quiet := by
  intro role
  cases role with
  | client => exact ⟨rfl, h.nothing⟩
  | server => exact ⟨rfl, rfl⟩

theorem Completes.settles (hbegins : network.Begins) : network.Settles (·.Agreed terms) :=
  hbegins.settles h.leads_end h.quiet h.agreed

end

/-- There is a suite that both ends allow, in the client's version, which is one of the server's. -/
structure ClientSettings.Suits (client : ClientSettings Protection) (server : ServerSettings Protection) : Prop where
  minimum : server.minimumVersion ≤ client.version
  maximum : client.version ≤ server.maximumVersion
  suite : ∃ suite ∈ client.suites, suite ∈ server.suites ∧ suite.minimumVersion ≤ client.version

namespace ClientSettings

variable {client : ClientSettings Protection} {server : ServerSettings Protection}

theorem Suits.of_find? (hminimum : server.minimumVersion ≤ client.version) (hmaximum : client.version ≤ server.maximumVersion)
    {suite : CipherSuite} (h : client.suites.find? (server.policy.accepts client.version) = some suite) :
    client.Suits server := by
  have haccepted := List.find?_some h
  rw [ServerPolicy.accepts, Bool.and_eq_true, decide_eq_true_eq, List.contains_iff_mem] at haccepted
  exact ⟨hminimum, hmaximum, suite, List.mem_of_find?_eq_some h, haccepted.1, haccepted.2⟩

theorem Suits.exists_suite (h : client.Suits server) : ∃ suite,
    server.policy.chooseVersion client.version.code = .ok client.version ∧
      client.suites.find? (server.policy.accepts client.version) = some suite := by
  have hversion : server.policy.chooseVersion client.version.code = .ok client.version :=
    ServerPolicy.chooseVersion_of_inRange h.minimum h.maximum
  obtain ⟨suite, hoffered, hsupported, hold⟩ := h.suite
  have haccepted : server.policy.accepts client.version suite = true := by
    rw [ServerPolicy.accepts, Bool.and_eq_true, decide_eq_true_eq, List.contains_iff_mem]
    exact ⟨hsupported, hold⟩
  have hsome : (client.suites.find? (server.policy.accepts client.version)).isSome :=
    List.find?_isSome.mpr ⟨suite, hoffered, haccepted⟩
  obtain ⟨chosen, hchosen⟩ := Option.isSome_iff_exists.mp hsome
  exact ⟨chosen, hversion, hchosen⟩

end ClientSettings

/-- The leave of a client that shows its identity. -/
structure Leave {server : ServerSettings Protection} {hello : ClientHello} {version : Version} {suite : CipherSuite}
    (answer : Answer server hello version suite) (helloBody identity key : Bytes) where
  context : Protection
  /-- What the context has become by the Finished. -/
  later : Protection
  entropy : Entropy
  data : VerifyData
  fragment : Bytes
  create_eq : Protection.create (answer.params key) .client = .ok context
  data_eq : data = context.verifyData .client (answer.said helloBody identity)
  length_le : fragment.length ≤ 96
  unprotect_eq : context.unprotect ContentType.handshake.code version.code fragment = (.ok (finished data).bytes, later)

namespace Leave

variable {client : ClientSettings Protection} {server : ServerSettings Protection} {clientEntropy : Entropy}
  {version : Version} {suite : CipherSuite} {answer : Answer server (client.offer.hello clientEntropy).1 version suite}
  {helloBody identity key : Bytes} (leave : Leave answer helloBody identity key)

/-- The client once it has shown its identity. -/
def shown : Standing :=
  (client.opening clientEntropy identity key helloBody).drained.leaving (answer.terms.withIdentity identity)
    (answer.said helloBody identity ++ (finished leave.data).bytes) leave.later
    ((keyExchange identity).records version.code answer.terms.parameters.plaintextLimit ++
      [changeCipherSpec version, ⟨ContentType.handshake.code, version.code, leave.fragment⟩]) leave.entropy

end Leave

namespace Meets

variable {client : ClientSettings Protection} {server : ServerSettings Protection} {clientEntropy serverEntropy : Entropy}
  {identity key : Bytes} {connection : Connection Protection} {body : Bytes}

section

variable (h : Meets client server clientEntropy identity key) (hmade : server.connection serverEntropy = .ok connection)
  (hbytes : (client.offer.hello clientEntropy).1.bytes = .ok body)
  (hbody : body.length ≤ HandshakeHeader.maximumLength)
include h hmade hbytes hbody

/-! ### The client's answer -/

/-- An answer of the client's own version, after which the client shows its identity and takes leave. -/
theorem exists_leads_leave {suite : CipherSuite}
    (hversion : server.policy.chooseVersion client.version.code = .ok client.version)
    (hsuite : client.suites.find? (server.policy.accepts client.version) = some suite) :
    ∃ (answer : Answer server (client.offer.hello clientEntropy).1 client.version suite)
      (leave : Leave answer body identity key),
      (Network.opened (client.connection clientEntropy) connection).Leads
        (.between .server (answer.asking serverEntropy body).drained.connection leave.shown.connection none none) := by
  obtain ⟨answer, hturn⟩ := h.exists_leads_answer hmade hbytes hbody hversion hsuite
  have hcheck : client.offer.check (server.policy.answering (client.offer.hello clientEntropy).1 client.version suite
      answer.random) = .ok () := by
    rw [ClientOffer.check_answering rfl (List.mem_of_find?_eq_some hsuite)]
    exact if_pos rfl
  obtain ⟨context, hcontext⟩ := answer.exists_create hsuite h.keyLength .client
  have hsaid : (client.opening clientEntropy identity key body).drained.transcript =
      some (HandshakeMessage.mk .clientHello body).bytes := rfl
  have hterms : answer.terms.withIdentity identity =
      (client.opening clientEntropy identity key body).drained.terms.answering server.policy
        (client.offer.hello clientEntropy).1 client.version suite answer.random := rfl
  have hparams : ((client.opening clientEntropy identity key body).drained.settle (answer.terms.withIdentity identity)
      (client.opening clientEntropy identity key body).entropy).session.securityParameters? = some (answer.params key) := rfl
  obtain ⟨fragment, later, entropy, data, hdata, hreceived, hfragment, hunprotect⟩ :=
    Standing.exists_receive_serverHello (client.opening clientEntropy identity key body).drained
      (maximumPlaintext_le_effectiveCiphertextLimit _) rfl rfl rfl answer.bytes_eq answer.length_le hcheck
      (fun _ => ClientSettings.wellFormed_of_mem_extensions) h.hintLength hterms answer.sensible_terms
      answer.sensible_terms.2 rfl rfl hsaid h.identityLength hparams hcontext
  have htold := Standing.leads_turn (answer.asking serverEntropy body) .client none none
    (Standing.outgoing_answering _ rfl _ _ _ _) hreceived
  exact ⟨answer, ⟨context, later, entropy, data, fragment, hcontext, hdata, hfragment, hunprotect⟩, hturn.trans htold⟩

/-! ### Refusals after the answer -/

theorem settles_failed_of_version {version : Version} {suite : CipherSuite}
    (hversion : server.policy.chooseVersion client.version.code = .ok version)
    (hsuite : client.suites.find? (server.policy.accepts version) = some suite) (hother : version ≠ client.version) :
    (Network.opened (client.connection clientEntropy) connection).Settles (·.Failed .client .protocolVersion) := by
  obtain ⟨answer, hturn⟩ := h.exists_leads_answer hmade hbytes hbody hversion hsuite
  have hread : ServerHello.ofBytes? (HandshakeMessage.mk .serverHello answer.body).body = some
      (server.policy.answering (client.offer.hello clientEntropy).1 version suite answer.random) :=
    ServerHello.ofBytes?_bytes answer.bytes_eq
  have hcheck : client.offer.check (server.policy.answering (client.offer.hello clientEntropy).1 version suite
      answer.random) = .error .protocolVersion := by
    rw [ClientOffer.check_answering rfl (List.mem_of_find?_eq_some hsuite)]
    exact if_neg hother
  have hmessage : (Endpoint.receiveMessage ⟨.serverHello, answer.body⟩).run
      (client.opening clientEntropy identity key body).drained.endpoint = _ :=
    Standing.run_receiveServerHello_of_error (client.opening clientEntropy identity key body).drained hread hcheck
  have hfit := Standing.fit_append
    (Standing.fit_records answer.sensible_terms (hint server.identityHint) version)
    (Standing.fit_records answer.sensible_terms helloDone version)
  have hrefused := Standing.receive_of_refusal (client.opening clientEntropy identity key body).drained
    (maximumPlaintext_le_effectiveCiphertextLimit _) waitHello_takesInput rfl answer.length_le answer.sensible_terms
    answer.sensible_terms.2 version hmessage rfl Parameters.sensible_start _ hfit
  have htold := Standing.leads_turn (answer.asking serverEntropy body) .client none none
    (Standing.outgoing_answering _ rfl _ _ _ _) hrefused
  exact Standing.settles_failed _ (h.begins hmade) .client (hturn.trans htold) rfl
    (maximumPlaintext_le_effectiveCiphertextLimit _) waitKeyExchange_takesInput rfl answer.sensible_terms rfl (by decide)
    rfl rfl

theorem settles_failed_of_unknown {suite : CipherSuite}
    (hversion : server.policy.chooseVersion client.version.code = .ok client.version)
    (hsuite : client.suites.find? (server.policy.accepts client.version) = some suite)
    (hunknown : server.policy.resolve identity = none) :
    (Network.opened (client.connection clientEntropy) connection).Settles (·.Failed .server .illegalParameter) := by
  obtain ⟨answer, leave, hturn⟩ := h.exists_leads_leave hmade hbytes hbody hversion hsuite
  have hlength : (keyExchange identity).body.length ≤ HandshakeHeader.maximumLength :=
    Standing.length_identityBody_le h.identityLength
  have hread : KeyIdentity.ofBody? (keyExchange identity).body = some identity :=
    Standing.ofBody?_identityBody h.identityLength
  have hmessage : (Endpoint.receiveMessage (keyExchange identity)).run (answer.asking serverEntropy body).drained.endpoint =
      _ := Standing.run_receiveIdentity_of_unknown (answer.asking serverEntropy body).drained hread hunknown
  have hrefused := Standing.receive_of_refusal (answer.asking serverEntropy body).drained
    (maximumPlaintext_le_effectiveCiphertextLimit _) waitKeyExchange_takesInput rfl hlength answer.sensible_terms
    (Nat.le_refl _) client.version hmessage rfl answer.sensible_terms _
    (Standing.fit_conclusion client.version leave.length_le)
  have htold := Standing.leads_turn leave.shown .server none none rfl hrefused
  exact Standing.settles_failed _ (h.begins hmade) .server (hturn.trans htold) rfl
    (maximumPlaintext_le_effectiveCiphertextLimit _) waitChangeCipher_takesInput rfl answer.sensible_terms rfl (by decide)
    rfl rfl

/-! ### The server's leave -/

/-- Where the settings suit and the key is known, all flights are answered. -/
theorem exists_completes {suite : CipherSuite}
    (hversion : server.policy.chooseVersion client.version.code = .ok client.version)
    (hsuite : client.suites.find? (server.policy.accepts client.version) = some suite)
    (hkey : server.policy.resolve identity = some key) :
    ∃ terms : Terms, (terms.version = client.version ∧ terms.suite = some suite ∧ terms.identity = identity ∧
        terms.parameters = (server.policy.chooseExtensions suite client.extensions).entries.foldl .extended .start) ∧
      ∃ said asked shown known concluded completed showing leaving,
        Completes (Network.opened (client.connection clientEntropy) connection) terms said asked shown known concluded
          completed showing leaving := by
  obtain ⟨answer, leave, hturn⟩ := h.exists_leads_leave hmade hbytes hbody hversion hsuite
  obtain ⟨own, hown⟩ := answer.exists_create hsuite h.keyLength .server
  have hknows := Standing.receive_keyExchange (answer.asking serverEntropy body).drained
    (maximumPlaintext_le_effectiveCiphertextLimit _) rfl rfl rfl answer.sensible_terms h.identityLength hkey client.version
  have hknownSaid : ((((answer.asking serverEntropy body).drained.say (keyExchange identity).bytes).identify identity
      key).reach .waitChangeCipher).transcript = some (answer.said body identity) := rfl
  obtain ⟨reply, last, entropy, data, hdata, hconcludes, hreply, hopened⟩ :=
    Standing.exists_receive_conclusion
      ((((answer.asking serverEntropy body).drained.say (keyExchange identity).bytes).identify identity key).reach
        .waitChangeCipher)
      (maximumPlaintext_le_effectiveCiphertextLimit _) rfl rfl rfl rfl rfl answer.sensible_terms hknownSaid rfl rfl
      leave.create_eq hown leave.data_eq leave.length_le leave.unprotect_eq
  have hcompletes := Standing.receive_conclusion leave.shown.drained (maximumPlaintext_le_effectiveCiphertextLimit _) rfl rfl
    rfl answer.sensible_terms rfl rfl hown hdata hreply hopened
  refine ⟨answer.terms.withIdentity identity, ⟨rfl, rfl, rfl, rfl⟩, answer.said body identity, _, _, _, _, _, _, _, hturn,
    waitKeyExchange_takesInput, rfl, hknows, hconcludes, hcompletes, ⟨rfl, leave.data, rfl⟩, ⟨rfl, rfl⟩, rfl,
    answer.sensible_terms, ?_, fun role => ?_⟩
  case refine_2 =>
    cases role with
    | client => exact ⟨leave.later, answer.params key, rfl, rfl, .opened leave.create_eq leave.unprotect_eq⟩
    | server => exact ⟨last, answer.params key, rfl, rfl, .opened hown hopened⟩
  constructor
  case contexts =>
    intro role
    cases role with
    | client => exact ⟨leave.later, rfl, rfl⟩
    | server => exact ⟨last, rfl, rfl⟩
  all_goals
    intro role
    cases role <;> rfl

end

/-! ### The outcome -/

section

variable (h : Meets client server clientEntropy identity key) (hmade : server.connection serverEntropy = .ok connection)
include h hmade

theorem settles_failed_of_not_suits (hsuits : ¬ client.Suits server) :
    ∃ role alert, (alert = .protocolVersion ∨ alert = .illegalParameter) ∧
      (Network.opened (client.connection clientEntropy) connection).Settles (·.Failed role alert) := by
  obtain ⟨body, hbytes, hbody⟩ := h.hello
  have hrange := (h.start_server hmade).1
  have hnone {version : Version} (hversion : server.policy.chooseVersion client.version.code = .ok version)
      (hsuite : client.suites.find? (server.policy.accepts version) = none) :
      (Network.opened (client.connection clientEntropy) connection).Settles (·.Failed .server .illegalParameter) :=
    h.settles_failed_of_answer hmade hbytes hbody (ServerPolicy.answer_of_no_suite hversion hsuite _) rfl (by decide)
  by_cases hminimum : server.minimumVersion ≤ client.version
  · by_cases hmaximum : client.version ≤ server.maximumVersion
    · have hversion : server.policy.chooseVersion client.version.code = .ok client.version :=
        ServerPolicy.chooseVersion_of_inRange hminimum hmaximum
      cases hsuite : client.suites.find? (server.policy.accepts client.version) with
      | none => exact ⟨_, _, Or.inr rfl, hnone hversion hsuite⟩
      | some suite => exact absurd (ClientSettings.Suits.of_find? hminimum hmaximum hsuite) hsuits
    · have hversion : server.policy.chooseVersion client.version.code = .ok server.maximumVersion :=
        ServerPolicy.chooseVersion_of_above hrange hmaximum
      cases hsuite : client.suites.find? (server.policy.accepts server.maximumVersion) with
      | none => exact ⟨_, _, Or.inr rfl, hnone hversion hsuite⟩
      | some suite =>
        have hother : server.maximumVersion ≠ client.version := fun heq => hmaximum (heq ▸ UInt16.le_refl _)
        exact ⟨_, _, Or.inl rfl, h.settles_failed_of_version hmade hbytes hbody hversion hsuite hother⟩
  · have hversion : server.policy.chooseVersion client.version.code = .error .protocolVersion :=
      ServerPolicy.chooseVersion_of_below hrange hminimum
    exact ⟨_, _, Or.inl rfl, h.settles_failed_of_answer hmade hbytes hbody
      (ServerPolicy.answer_of_no_version hversion _) rfl (by decide)⟩

theorem exists_completes_of_suits (hsuits : client.Suits server) (hkey : server.resolve identity = some key) :
    ∃ terms : Terms, (terms.version = client.version ∧ terms.identity = identity ∧
        terms.suite = client.suites.find? (server.policy.accepts client.version)) ∧
      ∃ said asked shown known concluded completed showing leaving,
        Completes (Network.opened (client.connection clientEntropy) connection) terms said asked shown known concluded
          completed showing leaving := by
  obtain ⟨body, hbytes, hbody⟩ := h.hello
  obtain ⟨suite, hversion, hsuite⟩ := hsuits.exists_suite
  obtain ⟨terms, ⟨hagreed, hchosen, hshown, -⟩, hcompletes⟩ := h.exists_completes hmade hbytes hbody hversion hsuite hkey
  exact ⟨terms, ⟨hagreed, hshown, hchosen.trans hsuite.symm⟩, hcompletes⟩

end

end Meets

/-! ### The usual settings -/

def usualClient (identity key : Bytes) : ClientSettings Protection where
  provider := .standard
  credentials := some (identity, key)

/-- A server with the default settings that knows one identity. -/
def usualServer (identity key : Bytes) : ServerSettings Protection where
  provider := .standard
  keys := KeyTable.empty.insert identity key

theorem usual_suits (identity key other otherKey : Bytes) : (usualClient identity key).Suits (usualServer other otherKey) where
  minimum := (by decide : Version.tls10 ≤ Version.tls12)
  maximum := (by decide : Version.tls12 ≤ Version.tls12)
  suite := ⟨.aes128CbcSha, (by decide : _ ∈ CipherSuite.all), (by decide : _ ∈ CipherSuite.all),
    (by decide : CipherSuite.aes128CbcSha.minimumVersion ≤ Version.tls12)⟩

theorem usual_meets (entropy : Entropy) {identity key other otherKey : Bytes}
    (hidentity : 2 + identity.length ≤ HandshakeHeader.maximumLength) (hkey : key.length < 65536) :
    Meets (usualClient identity key) (usualServer other otherKey) entropy identity key where
  clientProvider := rfl
  serverProvider := rfl
  credentials := rfl
  hello := by
    refine ⟨_, rfl, ?_⟩
    simp only [List.length_append, FixedBytes.length_bytes]
    exact (by decide : 2 + 32 + 1 + 2 + (CipherSuite.all.flatMap fun suite => bigEndian 2 suite.code.toNat).length + 2 + 0 ≤
      HandshakeHeader.maximumLength)
  identityLength := hidentity
  hintLength := (by decide : 2 + 0 ≤ HandshakeHeader.maximumLength)
  keyLength := hkey

theorem exists_usual_completes (clientEntropy serverEntropy : Entropy) {identity key : Bytes}
    (hidentity : 2 + identity.length ≤ HandshakeHeader.maximumLength) (hkey : key.length < 65536) :
    ∃ connection terms said asked shown known concluded completed showing leaving,
      (usualServer identity key).connection serverEntropy = .ok connection ∧
      Completes (Network.opened ((usualClient identity key).connection clientEntropy) connection) terms said asked shown
        known concluded completed showing leaving := by
  have hknown : (usualServer identity key).resolve identity = some key := by
    rw [ServerSettings.resolve]
    exact (KeyTable.resolve_insert .empty identity key identity).trans (if_pos rfl)
  have hmade : (usualServer identity key).connection serverEntropy = .ok _ := rfl
  obtain ⟨terms, -, said, asked, shown, known, concluded, completed, showing, leaving, hcompletes⟩ :=
    (usual_meets clientEntropy hidentity hkey).exists_completes_of_suits hmade (usual_suits identity key identity key) hknown
  exact ⟨_, terms, said, asked, shown, known, concluded, completed, showing, leaving, hmade, hcompletes⟩

/-! ### How any handshake ends -/

namespace Meets

variable {client : ClientSettings Protection} {server : ServerSettings Protection} {clientEntropy serverEntropy : Entropy}
  {identity key : Bytes} {connection : Connection Protection}

/-- If the settings of both ends suit each other and the server knows the client's key, the handshake
completes and both ends are agreed on the client's version and its first suite that the server accepts.
If the settings do not suit or the identity is unknown, it fails at both ends. How the bytes are cut and
in what order they are delivered makes no difference. -/
theorem handshake_outcome (h : Meets client server clientEntropy identity key)
    (hmade : server.connection serverEntropy = .ok connection) :
    (client.Suits server ∧ server.resolve identity = some key →
      ∃ terms : Terms, (terms.version = client.version ∧ terms.identity = identity ∧
          terms.suite = client.suites.find? (server.policy.accepts client.version)) ∧
        (Network.opened (client.connection clientEntropy) connection).Settles (·.Agreed terms)) ∧
    (¬ client.Suits server ∨ server.resolve identity = none →
      ∃ role alert, (alert = .protocolVersion ∨ alert = .illegalParameter) ∧
        (Network.opened (client.connection clientEntropy) connection).Settles (·.Failed role alert)) := by
  constructor
  · rintro ⟨hsuits, hkey⟩
    obtain ⟨terms, hagreed, said, asked, shown, known, concluded, completed, showing, leaving, hcompletes⟩ :=
      h.exists_completes_of_suits hmade hsuits hkey
    exact ⟨terms, hagreed, hcompletes.settles (h.begins hmade)⟩
  · intro hfails
    by_cases hsuits : client.Suits server
    · obtain ⟨body, hbytes, hbody⟩ := h.hello
      obtain ⟨suite, hversion, hsuite⟩ := hsuits.exists_suite
      have hunknown : server.resolve identity = none := hfails.resolve_left (not_not_intro hsuits)
      exact ⟨_, _, Or.inr rfl, h.settles_failed_of_unknown hmade hbytes hbody hversion hsuite hunknown⟩
    · exact h.settles_failed_of_not_suits hmade hsuits

/-- The server knows the identity of the client, or another one. -/
theorem handshake_outcome_usual :
    (∃ connection terms, (usualServer [1] [2]).connection (.ofSeed 2) = .ok connection ∧
      (Network.opened ((usualClient [1] [2]).connection (.ofSeed 1)) connection).Settles (·.Agreed terms)) ∧
    ∃ connection role alert, (usualServer [3] [2]).connection (.ofSeed 2) = .ok connection ∧
      (Network.opened ((usualClient [1] [2]).connection (.ofSeed 1)) connection).Settles (·.Failed role alert) := by
  constructor
  · have hmade : (usualServer [1] [2]).connection (.ofSeed 2) = .ok _ := rfl
    have houtcome := (@usual_meets (.ofSeed 1) [1] [2] [1] [2] (by decide) (by decide)).handshake_outcome hmade
    obtain ⟨terms, -, hsettles⟩ := houtcome.1 ⟨usual_suits [1] [2] [1] [2], rfl⟩
    exact ⟨_, terms, hmade, hsettles⟩
  · have hmade : (usualServer [3] [2]).connection (.ofSeed 2) = .ok _ := rfl
    have houtcome := (@usual_meets (.ofSeed 1) [1] [2] [3] [2] (by decide) (by decide)).handshake_outcome hmade
    obtain ⟨role, alert, -, hsettles⟩ := houtcome.2 (Or.inr rfl)
    exact ⟨_, role, alert, hmade, hsettles⟩

end Meets

end PresharedTls
