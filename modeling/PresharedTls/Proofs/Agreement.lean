import PresharedTls.Proofs.Observed
import PresharedTls.Proofs.Outcome

/-!
# The transcript determines the terms

Two runs that have nothing to do with each other, a client's and a server's, fed with whatever bytes
somebody chose. If the client's Finished is computed over the same transcript at both ends, both ends
hold the same terms, for each of them holds the terms that the transcript sets. So terms can only be
mixed up, or a version be talked down, where verify data collides.
-/

namespace PresharedTls.Connection

variable {κ κ' : Type}

theorem setBy_of_computed {configuration : Configuration κ} {entropy : Entropy} {connection : Connection κ}
    (hmade : configuration.connection entropy = .ok connection) (operations : List Operation) {said : Bytes}
    {verifyData : VerifyData} (hcomputed : .computed .client said verifyData ∈ connection.events operations) :
    SetBy said (connection.run operations).session.terms :=
  (sound_run hmade operations).toOver.sets said verifyData hcomputed

/-! ### Where the client's verify data is computed -/

variable {entropy : Entropy} {connection : Connection κ} {operations : List Operation}

theorem talk_of_phase {configuration : Configuration κ} (hmade : configuration.connection entropy = .ok connection)
    {phase : Phase} (hphase : (connection.run operations).phase = phase) (hover : phase.isOver = false) :
    Talk configuration.role phase (Event.spoken (connection.events operations))
      (connection.run operations).session.terms := by
  subst hphase
  have hlive := (sound_run hmade operations).live hover
  rw [← (configured_run hmade operations).1]
  exact hlive.talk

/-- A client that waits for the switch has computed its verify data over all but the Finished that it sent. -/
theorem computed_of_client {settings : ClientSettings κ}
    (hphase : ((settings.connection entropy).run operations).phase = .waitChangeCipher) :
    ∃ said own, .computed .client said own ∈ (settings.connection entropy).events operations ∧
      ((settings.connection entropy).run operations).session.transcript =
        some (said ++ (HandshakeMessage.mk .finished own.bytes).bytes) := by
  have hmade : (Configuration.client settings).connection entropy = .ok (settings.connection entropy) := rfl
  have hlive := (sound_run hmade operations).live (by rw [hphase]; rfl)
  have htalk := talk_of_phase hmade hphase rfl
  obtain ⟨said, own, hown, hsaid⟩ := htalk.computed_of_client
  rw [Event.transcript_spoken] at hsaid
  refine ⟨said, own, (Event.mem_spoken _ rfl).mp hown, ?_⟩
  rw [hlive.transcript (by rw [hphase]; decide), hsaid]

/-- A server that is connected has computed the client's verify data over its transcript when it waited for
the switch. -/
theorem computed_of_server {settings : ServerSettings κ} (hmade : settings.connection entropy = .ok connection)
    (hphase : (connection.run operations).phase = .waitChangeCipher) {said : Bytes}
    (hsaid : (connection.run operations).session.transcript = some said) {more : List Operation}
    (hconnected : (connection.run (operations ++ more)).phase = .connected) :
    ∃ expected, .computed .client said expected ∈ connection.events (operations ++ more) := by
  have hmade : (Configuration.server settings).connection entropy = .ok connection := hmade
  have hlive := (sound_run hmade operations).live (by rw [hphase]; rfl)
  have htalk := talk_of_phase hmade hphase rfl
  have hlater := talk_of_phase hmade hconnected rfl
  obtain ⟨expected, hexpected⟩ :=
    hlater.computed_of_server htalk ((connection.prefix_events operations more).filter _)
  have htranscript : Event.transcript (connection.events operations) = said :=
    Option.some.inj ((hlive.transcript (by rw [hphase]; decide)).symm.trans hsaid)
  rw [Event.transcript_spoken, htranscript] at hexpected
  exact ⟨expected, (Event.mem_spoken _ rfl).mp hexpected⟩

end PresharedTls.Connection

namespace PresharedTls

/-- Ends that complete their handshake compute the client's verify data over the same transcript. -/
theorem Completes.exists_computed {clientSettings : ClientSettings Protection} {serverSettings : ServerSettings Protection}
    {clientEntropy serverEntropy : Entropy} {server : Connection Protection}
    (hserver : serverSettings.connection serverEntropy = .ok server) {terms : Terms} {said : Bytes}
    {asked shown known concluded completed : Standing} {showing leaving : List Record}
    (h : Completes (Network.opened (clientSettings.connection clientEntropy) server) terms said asked shown known concluded
      completed showing leaving) :
    ∃ clientOperations serverOperations own expected,
      .computed .client said own ∈ (clientSettings.connection clientEntropy).events clientOperations ∧
      .computed .client said expected ∈ server.events serverOperations := by
  obtain ⟨clientOperations, hclient⟩ := h.leads.exists_operations_client
  obtain ⟨serverOperations, hserver'⟩ := h.leads.exists_operations_server
  have hshown : (clientSettings.connection clientEntropy).run clientOperations = shown.connection := hclient.symm
  have hasked : server.run serverOperations = asked.connection := hserver'.symm
  have hknown : server.run (serverOperations ++ [.receive (showing.flatMap Record.bytes)]) = known.connection := by
    rw [Connection.run_append, hasked]
    exact congrArg Prod.snd h.knows
  have hconcluded : server.run (serverOperations ++ [.receive (showing.flatMap Record.bytes)] ++
      [.receive (leaving.flatMap Record.bytes)]) = concluded.connection := by
    rw [Connection.run_append, hknown]
    exact congrArg Prod.snd h.concludes
  obtain ⟨hphase, data, hdata⟩ := h.shown
  obtain ⟨said', own, hown, hsaid⟩ := Connection.computed_of_client (by rw [hshown]; exact hphase)
  have hsame : said' = said := by
    rw [hshown] at hsaid
    have hboth := Option.some.inj (hsaid.symm.trans hdata)
    exact (List.append_inj' hboth (by rw [Standing.length_bytes_finished]; exact Standing.length_bytes_finished own)).1
  obtain ⟨expected, hexpected⟩ := Connection.computed_of_server hserver (by rw [hknown]; exact h.known.1)
    (by rw [hknown]; exact h.known.2) (by rw [hconcluded]; exact h.agreed.phase .server)
  exact ⟨clientOperations, _, own, expected, hsame ▸ hown, hexpected⟩

/-! ### The terms -/

namespace Connection

variable {κ κ' : Type}

/-- A client and a server that compute the client's verify data over the same transcript hold the same
version, suite, random values, identity and parameters, whatever came in between them. -/
theorem terms_eq_of_same_transcript {clientSettings : ClientSettings κ} {serverSettings : ServerSettings κ'}
    {clientEntropy serverEntropy : Entropy} {server : Connection κ'}
    (hserver : serverSettings.connection serverEntropy = .ok server) (clientOperations serverOperations : List Operation)
    {said : Bytes} {own expected : VerifyData}
    (hown : .computed .client said own ∈ (clientSettings.connection clientEntropy).events clientOperations)
    (hexpected : .computed .client said expected ∈ server.events serverOperations) :
    ((clientSettings.connection clientEntropy).run clientOperations).session.terms =
      (server.run serverOperations).session.terms := by
  have hclientMade : (Configuration.client clientSettings).connection clientEntropy =
      .ok (clientSettings.connection clientEntropy) := rfl
  have hserverMade : (Configuration.server serverSettings).connection serverEntropy = .ok server := hserver
  have hclientSet := setBy_of_computed hclientMade clientOperations hown
  have hserverSet := setBy_of_computed hserverMade serverOperations hexpected
  exact hclientSet.unique hserverSet

/-- So they do without anyone between them. -/
theorem terms_eq_of_same_transcript_usual : ∃ connection clientOperations serverOperations said own expected,
    (usualServer [1] [2]).connection (.ofSeed 2) = .ok connection ∧
      .computed .client said own ∈ ((usualClient [1] [2]).connection (.ofSeed 1)).events clientOperations ∧
      .computed .client said expected ∈ connection.events serverOperations ∧
      (((usualClient [1] [2]).connection (.ofSeed 1)).run clientOperations).session.terms =
        (connection.run serverOperations).session.terms := by
  obtain ⟨connection, terms, said, asked, shown, known, concluded, completed, showing, leaving, hmade, hcompletes⟩ :=
    @exists_usual_completes (.ofSeed 1) (.ofSeed 2) [1] [2] (by decide) (by decide)
  obtain ⟨clientOperations, serverOperations, own, expected, hown, hexpected⟩ := hcompletes.exists_computed hmade
  refine ⟨connection, clientOperations, serverOperations, said, own, expected, hmade, hown, hexpected, ?_⟩
  exact terms_eq_of_same_transcript hmade clientOperations serverOperations hown hexpected

end Connection

end PresharedTls
