import PresharedTls.Proofs.Assertions
import PresharedTls.Proofs.Endpoint.Faults
import PresharedTls.Proofs.Outcome

/-!
# No fault of its own

A connection made from settings that fit never fails by itself, whatever is done to it and whatever arrives: an
alert that it raises tells of a fault of the peer's, that alert goes out, and no assertion fails on the way
(`Configuration.faultless_run`). It has numbers for fewer than `2 ^ 64` records each way, and as long as they
last it can send and open whatever it has to.
-/

namespace PresharedTls

/-! ### Settings that fit -/

/-- A client with a key, whose identity, key and suites fit the fields that they go into. -/
structure ClientSettings.Fits (settings : ClientSettings Protection) : Prop where
  provider : settings.provider = .standard
  credentials : ∃ identity key, settings.credentials = some (identity, key) ∧ identity.length ≤ 65535 ∧ key.length ≤ 65535
  suites : settings.suites.length ≤ 32767

/-- A server whose hint and keys fit the fields that they go into. -/
structure ServerSettings.Fits (settings : ServerSettings Protection) : Prop where
  provider : settings.provider = .standard
  identityHint : settings.identityHint.length ≤ 65535
  keys : ∀ identity key, settings.resolve identity = some key → key.length ≤ 65535

def Configuration.Fits : Configuration Protection → Prop
  | client settings => settings.Fits
  | server settings => settings.Fits

namespace Configuration

variable {configuration : Configuration Protection} {entropy : Entropy} {connection : Connection Protection}

theorem Fits.provider (h : configuration.Fits) : configuration.provider = .standard := by
  cases configuration with
  | client settings => exact ClientSettings.Fits.provider h
  | server settings => exact ServerSettings.Fits.provider h

theorem Fits.equipped (h : configuration.Fits) (hmade : configuration.connection entropy = .ok connection) :
    connection.toEndpoint.Equipped := by
  cases configuration with
  | client settings =>
    obtain ⟨-, ⟨identity, key, hcredentials, hidentity, hkey⟩, hsuites⟩ : settings.Fits := h
    obtain rfl := Except.ok.inj hmade
    have hoffer : settings.offer.Fits :=
      ⟨settings.suites_ne_nil, Nat.lt_succ_of_le hsuites, settings.exists_bytes_extensions⟩
    rw [ClientSettings.connection, hcredentials]
    refine ⟨hoffer, Nat.lt_succ_of_le hidentity, ?_, fun _ => rfl⟩
    intro other hother
    obtain rfl : key = other := Option.some.inj hother
    exact Nat.lt_succ_of_le hkey
  | server settings =>
    obtain ⟨-, hhint, hkeys⟩ : settings.Fits := h
    have hpolicy : settings.policy.Fits :=
      ⟨Nat.lt_succ_of_le hhint, fun identity key hkey => Nat.lt_succ_of_le (hkeys identity key hkey)⟩
    simp only [Configuration.connection, ServerSettings.connection] at hmade
    split at hmade
    · cases hmade
    · obtain rfl := Except.ok.inj hmade
      refine ⟨hpolicy, (by decide : 0 < 65536), fun _ hkey => ?_, fun hkeyed => ?_⟩
      · cases hkey
      · cases hkeyed

end Configuration

/-! ### The steps of operations -/

namespace Connection

variable {κ : Type}

/-- The step that an operation runs on a connection that lets it. -/
inductive Runs (connection : Connection κ) : Operation → Endpoint.Step κ Unit → Prop
  | hello {offer : ClientOffer} (hidle : connection.phase = .idle) (hside : connection.side = .client offer) :
      Runs connection .start (Endpoint.sendClientHello offer)
  | wait {policy : ServerPolicy} (hidle : connection.phase = .idle) (hside : connection.side = .server policy) :
      Runs connection .start (Endpoint.enter .waitHello)
  | receive (b : Bytes) (hready : connection.phase.TakesInput) :
      Runs connection (.receive b) (Endpoint.receiveRecords (connection.arriving b))
  | send (data : Bytes) (hlive : connection.phase.isOver = false) (hdone : connection.session.handshakeDone = true) :
      Runs connection (.send data) (Endpoint.sendFragmented .applicationData data)

variable {connection : Connection κ} {operation : Operation} {step : Endpoint.Step κ Unit}

namespace Runs

variable (h : connection.Runs operation step)
include h

/-- An operation comes to what its step does, up to the bytes that wait for more. -/
theorem exists_outcome : ∃ incoming, connection.outcome operation = perform step { connection with incoming := incoming } := by
  cases h with
  | hello hidle hside => exact ⟨connection.incoming, start_of_client hidle hside⟩
  | wait hidle hside => exact ⟨connection.incoming, start_of_server hidle hside⟩
  | receive b hready => exact ⟨(connection.arriving b).rest, receive_of_takesInput hready b⟩
  | send data hlive hdone =>
    refine ⟨connection.incoming, ?_⟩
    rw [outcome, Connection.send, if_neg (by simp [hlive]), if_neg (not_not_intro hdone)]

theorem live : connection.phase.isOver = false := by
  cases h with
  | hello hidle _ => rw [hidle]; rfl
  | wait hidle _ => rw [hidle]; rfl
  | receive _ hready => exact hready.2
  | send _ hlive _ => exact hlive

theorem keepsChanges (origin : Endpoint κ) : Endpoint.KeepsChanges origin step := by
  cases h with
  | hello => exact Endpoint.keepsChanges_sendClientHello _
  | wait => exact Endpoint.keepsChanges_enter _
  | receive => exact Endpoint.keepsChanges_receiveRecords _
  | send => exact Endpoint.keepsChanges_sendFragmented (by decide) _

end Runs

/-- An operation that fails with no alert, and that leaves an endpoint which goes on as it is in phase and bargain. -/
structure Harmless (connection : Connection κ) (operation : Operation) : Prop where
  result : ∀ alert, (connection.outcome operation).1 ≠ .error (.sentAlert alert)
  same : (connection.operate operation).phase.isOver = false →
    (connection.operate operation).bargain = connection.bargain ∧ (connection.operate operation).phase = connection.phase

/-- An operation that is refused changes nothing, and is not refused with an alert. -/
theorem harmless_of_refused {failure : ConnectionError} (h : connection.outcome operation = (.error failure, connection))
    (hfailure : failure ∈ [.closed, .alreadyStarted, .notStarted, .notConnected]) : connection.Harmless operation := by
  have hoperate : connection.operate operation = connection :=
    (connection.outcome_snd operation).symm.trans (congrArg Prod.snd h)
  refine ⟨fun alert halert => ?_, fun _ => by rw [hoperate]; exact ⟨rfl, rfl⟩⟩
  rw [h] at halert
  obtain rfl := Except.error.inj halert
  simp at hfailure

theorem harmless_of_ok (h : (connection.outcome operation).1 = .ok ())
    (hsame : (connection.operate operation).phase.isOver = false →
      (connection.operate operation).bargain = connection.bargain ∧ (connection.operate operation).phase = connection.phase) :
    connection.Harmless operation := by
  refine ⟨fun _ halert => ?_, hsame⟩
  cases h.symm.trans halert

/-- What runs no step is refused, or is about the queues, the random bytes or the end. -/
theorem harmless_of_not_runs (h : ∀ step, ¬ connection.Runs operation step) : connection.Harmless operation := by
  cases operation with
  | start =>
    have hidle : connection.phase ≠ .idle := by
      intro hidle
      cases hside : connection.side with
      | client offer => exact h _ (.hello hidle hside)
      | server policy => exact h _ (.wait hidle hside)
    by_cases hover : connection.phase.isOver = true
    · exact harmless_of_refused (start_of_isOver hover) (by decide)
    · have hrefused : connection.start = (.error .alreadyStarted, connection) := by
        rw [Connection.start, if_neg hover, if_pos hidle]
      exact harmless_of_refused hrefused (by decide)
  | receive b =>
    by_cases hover : connection.phase.isOver = true
    · exact harmless_of_refused (receive_of_isOver hover b) (by decide)
    · have hidle : connection.phase = .idle := by
        by_contra hidle
        exact h _ (.receive b ⟨hidle, Bool.eq_false_iff.mpr hover⟩)
      exact harmless_of_refused (receive_of_idle hidle b) (by decide)
  | send data =>
    by_cases hover : connection.phase.isOver = true
    · exact harmless_of_refused (send_of_isOver hover data) (by decide)
    · have hdone : ¬ connection.session.handshakeDone = true := fun hdone =>
        h _ (.send data (Bool.eq_false_iff.mpr hover) hdone)
      have hrefused : connection.send data = (.error .notConnected, connection) := by
        rw [Connection.send, if_neg hover, if_pos hdone]
      exact harmless_of_refused hrefused (by decide)
  | takeOutgoing => exact harmless_of_ok rfl fun _ => ⟨rfl, rfl⟩
  | read =>
    refine harmless_of_ok rfl fun _ => ?_
    rw [operate, Connection.read]
    split <;> exact ⟨rfl, rfl⟩
  | close =>
    refine harmless_of_ok rfl fun hlive => ?_
    cases hlive.symm.trans (congrArg Phase.isOver (phase_close connection))
  | abandon =>
    refine harmless_of_ok rfl fun hlive => ?_
    cases hlive
  | reseed entropy => exact harmless_of_ok rfl fun _ => ⟨rfl, rfl⟩

theorem exists_runs_of_alert {alert : AlertDescription} (h : (connection.outcome operation).1 = .error (.sentAlert alert)) :
    ∃ step, connection.Runs operation step := by
  by_contra hnone
  exact (harmless_of_not_runs (not_exists.mp hnone)).result alert h

end Connection

/-! ### A connection that goes on -/

namespace Connection

variable {connection : Connection Protection} {data : List Bytes} {operation : Operation}

/-- A step of a sturdy connection that fails has an excuse, or met a record for which there was no number. -/
theorem Runs.bears {step : Endpoint.Step Protection Unit} (hruns : connection.Runs operation step)
    (h : connection.toEndpoint.Sturdy data) :
    Ends step connection.toEndpoint (fun _ after => after.Equipped) fun failure after =>
      Endpoint.Excused failure after ∨ ∃ met ∈ connection.handles operation, met.1.Deaf := by
  cases hruns with
  | hello _ hside => exact (Endpoint.bears_sendClientHello h hside).mono (fun _ _ => id) fun _ _ => .inl
  | wait _ hside =>
    have hrole : connection.role = .server := congrArg Side.role hside
    refine Endpoint.bears_enter h.equipped fun hkeyed => ?_
    rw [hrole] at hkeyed
    cases hkeyed
  | receive b hready =>
    have htakes : ¬ (connection.phase.isOver = true ∨ connection.phase = .idle) := by
      simp [hready.1, hready.2]
    rw [handles, if_neg htakes]
    exact (Endpoint.sturdy_receiveRecords h).mono (fun _ _ hafter => hafter.equipped) fun _ _ => id
  | send b =>
    exact (Endpoint.ends_sendFragmented_of_sealing h.sealing .applicationData b).mono
      (fun _ _ hafter => hafter.equipped h.equipped) fun _ _ hmute => .inl (.inr hmute)

theorem equipped_operate (h : connection.toEndpoint.Sturdy data)
    (hlive : (connection.operate operation).phase.isOver = false) :
    (connection.operate operation).toEndpoint.Equipped := by
  by_cases hruns : ∃ step, connection.Runs operation step
  · obtain ⟨step, hruns⟩ := hruns
    obtain ⟨incoming, houtcome⟩ := hruns.exists_outcome
    have hends := hruns.bears h
    rw [← outcome_snd, houtcome] at hlive ⊢
    cases hrun : step.run connection.toEndpoint with
    | ok value after =>
      rw [Ends, hrun] at hends
      rw [@perform_of_ok _ _ { connection with incoming := incoming } after hrun]
      exact hends
    | error failure after =>
      rw [@perform_of_error _ _ { connection with incoming := incoming } after failure hrun] at hlive
      cases hlive
  · obtain ⟨hbargain, hphase⟩ := (harmless_of_not_runs (not_exists.mp hruns)).same hlive
    exact h.equipped.of_bargain hbargain hphase

end Connection

/-! ### Numbers that last -/

namespace Endpoint

variable {endpoint after : Endpoint Protection} {sends : ContentType → Prop}

/-- Numbers that are used up do not come back. -/
theorem Change.mute (hchange : Change sends endpoint after) (hsealing : endpoint.session.Sealing) (h : endpoint.Mute) :
    after.Mute := by
  obtain ⟨context, hcontext, hexhausted⟩ := h
  cases hchange.speaks hsealing with
  | same hencrypter _ => exact ⟨context, hencrypter.trans hcontext, hexhausted⟩
  | clear _ _ hbefore _ _ => cases hbefore.symm.trans hcontext
  | armed _ hbefore _ _ _ => cases hbefore.symm.trans hcontext
  | sealed record _ hprotect hbefore _ _ =>
    cases hbefore.symm.trans hcontext
    exact absurd hexhausted (Nat.not_le.mpr (Protection.sequence_of_protect hprotect).1)

theorem mute_fail (hsealing : endpoint.session.Sealing) (h : endpoint.Mute) (failure : ConnectionError) :
    (endpoint.fail failure).Mute :=
  (@Changes.keep _ _ endpoint (fun endpoint => endpoint.session.Sealing ∧ endpoint.Mute)
    (fun _ _ hchange hbefore => ⟨sealing_of_change hchange hbefore.1, hchange.mute hbefore.1 hbefore.2⟩)
    _ (changes_fail failure endpoint) ⟨hsealing, h⟩).2

/-- To use up its numbers an endpoint has to send one record more than there are, for there is a ChangeCipherSpec
ahead of them. -/
theorem length_of_mute {log : List Record} (h : endpoint.session.Counts [] log) (hmute : endpoint.Mute) :
    2 ^ 64 ≤ log.length := by
  obtain ⟨context, hcontext, hexhausted⟩ := hmute
  obtain ⟨clear, sealed, rfl, -, ⟨announced, hlast, -⟩, hsequence⟩ := h.counted context hcontext
  have hclear : 0 < clear.length := List.length_pos_of_mem (List.mem_of_getLast? hlast)
  have hbound : 2 ^ 64 - 1 ≤ sealed.length := hsequence ▸ hexhausted
  rw [List.length_append]
  omega

end Endpoint

namespace Configuration

variable {configuration : Configuration Protection} {entropy : Entropy} {connection : Connection Protection}

theorem not_mute_run (hprovider : configuration.provider = .standard) (hmade : configuration.connection entropy = .ok connection)
    {operations : List Operation} (hsent : (connection.log operations).length < 2 ^ 64) :
    ¬ (connection.run operations).toEndpoint.Mute :=
  fun hmute => absurd (Endpoint.length_of_mute (counts_run hprovider hmade operations) hmute) (Nat.not_le.mpr hsent)

theorem not_deaf_of_mem_meetings (hprovider : configuration.provider = .standard)
    (hmade : configuration.connection entropy = .ok connection) {operations : List Operation}
    (hmet : (connection.meetings operations).length < 2 ^ 64) {met : Endpoint Protection × Record}
    (hmem : met ∈ connection.meetings operations) : ¬ met.1.Deaf := by
  obtain ⟨endpoint, record⟩ := met
  rintro ⟨context, hcontext, hexhausted⟩
  have hopening : (context, record) ∈ openings (connection.meetings operations) :=
    List.mem_filterMap.mpr ⟨(endpoint, record), hmem, congrArg (Option.map (·, record)) hcontext⟩
  have hnumber : context.sequence ∈ (openings (connection.meetings operations)).map (·.1.sequence) :=
    List.mem_map_of_mem hopening
  rw [(attends_run hprovider hmade operations).inSequence.numbers, List.mem_range] at hnumber
  have hopenings : (openings (connection.meetings operations)).length ≤ (connection.meetings operations).length :=
    List.length_filterMap_le _ _
  have hbound : 2 ^ 64 - 1 ≤ context.sequence := hexhausted
  omega

/-- A connection made from settings that fit is sturdy as long as it goes on. -/
theorem sturdy_run (hfits : configuration.Fits) (hmade : configuration.connection entropy = .ok connection)
    (operations : List Operation) (hlive : (connection.run operations).phase.isOver = false) :
    (connection.run operations).toEndpoint.Sturdy (connection.delivered operations) := by
  have hordered (operations : List Operation) := (orderly hmade).run operations
  have hsealing (operations : List Operation) := (counts_run hfits.provider hmade operations).toSealing
  refine ⟨(hordered operations).inOrder hlive, hsealing operations, ?_⟩
  induction operations using List.reverseRecOn with
  | nil => exact hfits.equipped hmade
  | append_singleton early operation ih =>
    rw [Connection.run_append] at hlive ⊢
    have hbefore : (connection.run early).phase.isOver = false := by
      by_contra hover
      rw [Bool.not_eq_false] at hover
      cases hlive.symm.trans ((Connection.rests_of_isOver hover operation).isOver hover)
    exact Connection.equipped_operate ⟨(hordered early).inOrder hbefore, hsealing early, ih hbefore⟩ hlive

end Configuration

/-! ### Alerts -/

/-- An operation that fails with an alert, which is the last record in the queue then. -/
def Connection.Announces {κ : Type} (connection : Connection κ) (operation : Operation) (alert : AlertDescription) : Prop :=
  ∃ step failed sent record, connection.Runs operation step ∧
    step.run connection.toEndpoint = .error (.sentAlert alert) failed ∧
    (Endpoint.sendRecord .alert (Alert.fatal alert).bytes).run failed = .ok () sent ∧
    record.typeCode = ContentType.alert.code ∧ sent.outgoing = failed.outgoing ++ [record] ∧
    connection.operate operation = ⟨{ sent with phase := .error }, []⟩

/-- A connection that never fails by itself. -/
structure Connection.Faultless (connection : Connection Protection) (operations : List Operation) : Prop where
  /-- An operation that fails with an alert fails for a fault of the peer's, and the alert goes out. -/
  alerts : ∀ early operation late alert, operations = early ++ operation :: late →
    ((connection.run early).outcome operation).1 = .error (.sentAlert alert) →
    alert ≠ .internalError ∧ alert ∈ peerFaults ∧ (connection.run early).Announces operation alert
  /-- Where assertions are checked, the run is the same. -/
  asserted : connection.runAsserted operations = some (connection.results operations, connection.run operations)

namespace Endpoint

/-- An alert goes out while there are numbers. -/
theorem exists_sendRecord_alert {endpoint : Endpoint Protection} (h : endpoint.session.Sealing) (hnumbers : ¬ endpoint.Mute)
    (alert : AlertDescription) :
    ∃ sent record, (sendRecord .alert (Alert.fatal alert).bytes).run endpoint = .ok () sent ∧
      record.typeCode = ContentType.alert.code ∧ sent.outgoing = endpoint.outgoing ++ [record] := by
  have hlength : (Alert.fatal alert).bytes.length ≤ endpoint.session.plaintextLimit :=
    Nat.le_trans (by decide : 2 ≤ 512) (le_of_mem_plaintextLimits h.limited.plaintext)
  have hqueued : Ends (sendRecord .alert (Alert.fatal alert).bytes) endpoint
      (fun _ sent => ∃ record : Record, record.typeCode = ContentType.alert.code ∧ sent.outgoing = endpoint.outgoing ++ [record])
      fun _ _ => True :=
    ends_sendRecord (fun _ _ _ _ => ⟨_, rfl, rfl⟩) (fun _ => trivial) fun _ => trivial
  have hsent := (ends_sendRecord_of_sealing h .alert hlength).and hqueued
  cases hrun : (sendRecord .alert (Alert.fatal alert).bytes).run endpoint with
  | ok value sent =>
    rw [Ends, hrun] at hsent
    obtain ⟨-, record, htype, houtgoing⟩ := hsent
    exact ⟨sent, record, rfl, htype, houtgoing⟩
  | error failure failed =>
    rw [Ends, hrun] at hsent
    exact absurd hsent.1.1 hnumbers

end Endpoint

namespace Connection

variable {connection : Connection Protection} {data : List Bytes} {operation : Operation} {alert : AlertDescription}

/-- As long as there are numbers, a sturdy connection fails for faults of the peer's only, and can say so. -/
theorem blames_and_announces (h : connection.toEndpoint.Sturdy data) {step : Endpoint.Step Protection Unit}
    (hruns : connection.Runs operation step) (hresult : (connection.outcome operation).1 = .error (.sentAlert alert))
    (hnumbers : ¬ (connection.operate operation).toEndpoint.Mute) (hheard : ∀ met ∈ connection.handles operation, ¬ met.1.Deaf) :
    alert ∈ peerFaults ∧ connection.Announces operation alert := by
  obtain ⟨incoming, houtcome⟩ := hruns.exists_outcome
  have hoperate := (connection.outcome_snd operation).symm.trans (congrArg Prod.snd houtcome)
  have hends := hruns.bears h
  rw [houtcome] at hresult
  cases hrun : step.run connection.toEndpoint with
  | ok value after =>
    rw [@perform_of_ok _ _ { connection with incoming := incoming } after hrun] at hresult
    cases hresult
  | error failure failed =>
    rw [@perform_of_error _ _ { connection with incoming := incoming } failed failure hrun] at hresult hoperate
    obtain rfl : failure = .sentAlert alert := Except.error.inj hresult
    rw [Ends, hrun] at hends
    have hsealing := Endpoint.sealing_of_changes ((hruns.keepsChanges _).of_error hrun .refl) h.sealing
    have hspeaks : ¬ failed.Mute := by
      intro hmute
      rw [hoperate] at hnumbers
      exact hnumbers (Endpoint.mute_fail hsealing hmute _)
    constructor
    · rcases hends with (hblames | hmute) | ⟨met, hmem, hdeaf⟩
      · exact hblames alert rfl
      · exact absurd hmute hspeaks
      · exact absurd hdeaf (hheard met hmem)
    · obtain ⟨sent, record, hsent, htype, houtgoing⟩ := Endpoint.exists_sendRecord_alert hsealing hspeaks alert
      refine ⟨step, failed, sent, record, hruns, hrun, hsent, htype, houtgoing, ?_⟩
      rw [hoperate, Endpoint.fail, Endpoint.announce, Endpoint.after, hsent]

end Connection

/-- **A connection never fails by itself.** Made from settings that fit, and with fewer than `2 ^ 64` records each way,
whatever is done to it and whatever arrives, it raises alerts for faults of the peer's only, each of them goes out, and
no assertion fails. -/
theorem Configuration.faultless_run {configuration : Configuration Protection} (hfits : configuration.Fits) {entropy : Entropy}
    {connection : Connection Protection} (hmade : configuration.connection entropy = .ok connection)
    {operations : List Operation} (hsent : (connection.log operations).length < 2 ^ 64)
    (hmet : (connection.meetings operations).length < 2 ^ 64) : connection.Faultless operations := by
  refine ⟨?_, runAsserted_eq hmade operations⟩
  intro early operation late alert hsplit hresult
  obtain rfl : operations = (early ++ [operation]) ++ late := by rw [hsplit, List.append_cons]
  obtain ⟨step, hruns⟩ := Connection.exists_runs_of_alert hresult
  have hsturdy := sturdy_run hfits hmade early hruns.live
  have hnow : (connection.log (early ++ [operation])).length < 2 ^ 64 :=
    Nat.lt_of_le_of_lt (connection.log_prefix_append _ late).length_le hsent
  have hmute := not_mute_run hfits.provider hmade hnow
  rw [Connection.run_append] at hmute
  have hdeaf : ∀ met ∈ (connection.run early).handles operation, ¬ met.1.Deaf := by
    intro met hmem
    refine not_deaf_of_mem_meetings hfits.provider hmade hmet ?_
    rw [Connection.meetings_append, Connection.meetings_append]
    refine List.mem_append_left _ (List.mem_append_right _ ?_)
    rw [Connection.meetings, Connection.meetings, List.append_nil]
    exact hmem
  obtain ⟨hblamed, hannounced⟩ := Connection.blames_and_announces hsturdy hruns hresult hmute hdeaf
  exact ⟨fun hinternal => internalError_not_mem_peerFaults (hinternal ▸ hblamed), hblamed, hannounced⟩

/-- A handshake record with nothing in it ends a client with an alert. -/
theorem Configuration.faultless_run_empty :
    ((usualClient [1] [2]).connection (.ofSeed 1)).Faultless [.start, .receive [22, 3, 3, 0, 0]] ∧
      ((usualClient [1] [2]).connection (.ofSeed 1)).results [.start, .receive [22, 3, 3, 0, 0]] =
        [.ok (), .error (.sentAlert .unexpectedMessage)] := by
  have hfits : Fits (.client (usualClient [1] [2])) :=
    ⟨rfl, ⟨[1], [2], rfl, (by decide : 1 ≤ 65535), (by decide : 1 ≤ 65535)⟩, (by decide : CipherSuite.all.length ≤ 32767)⟩
  have hsent : (((usualClient [1] [2]).connection (.ofSeed 1)).log [.start, .receive [22, 3, 3, 0, 0]]).length < 2 ^ 64 := by
    cbv
  have hmet : (((usualClient [1] [2]).connection (.ofSeed 1)).meetings [.start, .receive [22, 3, 3, 0, 0]]).length < 2 ^ 64 := by
    cbv
  exact ⟨Configuration.faultless_run hfits rfl hsent hmet, by cbv⟩

end PresharedTls
