import PresharedTls.Proofs.Endpoint.Rejections
import PresharedTls.Proofs.Faultless

/-!
# Rejections along a run

A connection comes by more endpoints than are left between its operations: the bytes that arrive at once
may hold several handshake messages, and each of them meets what those before it have left. At all of these
endpoints a message that is rejected leaves everything as it was, and what its failure adds is one record,
the fatal alert (`Configuration.turnsAway_run`).
-/

namespace PresharedTls

/-! ### What is met -/

section

variable {ε σ β : Type} {work : β → EStateM ε σ PUnit} {state : σ} {items : List β} {met : σ × β}

/-- The items that work comes to, up to the first that fails, each with the state that it meets. -/
def encounters (work : β → EStateM ε σ PUnit) (state : σ) : List β → List (σ × β)
  | [] => []
  | item :: rest =>
    (state, item) ::
      match (work item).run state with
      | .ok _ after => encounters work after rest
      | .error _ _ => []

/-- What fails where it is met is how all of the work fails. -/
theorem run_forM_of_mem_encounters (hmem : met ∈ encounters work state items) {failure : ε} {after : σ}
    (hrun : (work met.2).run met.1 = .error failure after) : (items.forM work).run state = .error failure after := by
  induction items generalizing state with
  | nil => exact absurd hmem List.not_mem_nil
  | cons item rest ih =>
    rw [encounters] at hmem
    rcases List.mem_cons.mp hmem with rfl | hrest
    · exact run_bind_of_error hrun
    · cases hitem : (work item).run state with
      | ok value between =>
        rw [hitem] at hrest
        exact (run_bind_of_ok hitem).trans (ih hrest)
      | error other between =>
        rw [hitem] at hrest
        exact absurd hrest List.not_mem_nil

theorem holds_of_mem_encounters {P Q : σ → Prop} (hwork : ∀ item, Keeps P Q (work item)) (h : P state)
    (hmem : met ∈ encounters work state items) : P met.1 := by
  induction items generalizing state with
  | nil => exact absurd hmem List.not_mem_nil
  | cons item rest ih =>
    rw [encounters] at hmem
    rcases List.mem_cons.mp hmem with rfl | hrest
    · exact h
    · cases hitem : (work item).run state with
      | ok value between =>
        rw [hitem] at hrest
        exact ih ((hwork item).of_ok hitem h) hrest
      | error other between =>
        rw [hitem] at hrest
        exact absurd hrest List.not_mem_nil

end

namespace Endpoint

variable {κ : Type} {endpoint met : Endpoint κ} {record : Record} {message : HandshakeMessage}

theorem meetings_eq_encounters (endpoint : Endpoint κ) (records : List Record) :
    endpoint.meetings records = encounters receiveRecord endpoint records := by
  induction records generalizing endpoint with
  | nil => rfl
  | cons record rest ih =>
    rw [meetings, encounters]
    cases (receiveRecord record).run endpoint with
    | ok value after => exact congrArg _ (ih after)
    | error failure after => rfl

/-- The handshake messages that a record completes, each with the endpoint that it meets, which has taken it off the
handshake bytes. A record that does not open, is too long or is no handshake record comes to none. -/
def dispatches (endpoint : Endpoint κ) (record : Record) : List (Endpoint κ × HandshakeMessage) :=
  match endpoint.session.decrypt record.typeCode record.version record.fragment with
  | (.error _, _) => []
  | (.ok plaintext, session) =>
    if session.plaintextLimit < plaintext.length ∨ ContentType.ofCode? record.typeCode ≠ some .handshake ∨
      plaintext.isEmpty then []
    else
      let handshake := endpoint.handshake ++ plaintext
      (encounters takeMessage { endpoint with session := session, handshake := handshake }
        (HandshakeMessage.framing.cut handshake).items).map
        fun (before, message) => (before.after (Deed.take message).step, message)

theorem run_takeMessage (message : HandshakeMessage) (endpoint : Endpoint κ) :
    (takeMessage message).run endpoint = (receiveMessage message).run (endpoint.after (Deed.take message).step) := rfl

/-- A handshake record is opened and added to the bytes before it, and then its messages are taken. -/
theorem exists_of_mem_dispatches (hmem : (met, message) ∈ endpoint.dispatches record) :
    ∃ plaintext session messages before,
      endpoint.session.decrypt record.typeCode record.version record.fragment = (.ok plaintext, session) ∧
      (before, message) ∈
        encounters takeMessage { endpoint with session := session, handshake := endpoint.handshake ++ plaintext }
          messages ∧
      met = before.after (Deed.take message).step ∧
      ∀ failure failed,
        (messages.forM takeMessage).run
          { endpoint with session := session, handshake := endpoint.handshake ++ plaintext } = .error failure failed →
        (receiveRecord record).run endpoint = .error failure failed := by
  rw [dispatches] at hmem
  split at hmem
  · exact absurd hmem List.not_mem_nil
  · next plaintext session hopened =>
    split at hmem
    · exact absurd hmem List.not_mem_nil
    · next hpasses =>
      rw [not_or, not_or, not_not] at hpasses
      obtain ⟨hlimit, htype, hempty⟩ := hpasses
      obtain ⟨⟨before, taken⟩, hbefore, htaken⟩ := List.mem_map.mp hmem
      cases htaken
      refine ⟨plaintext, session, _, before, hopened, hbefore, rfl, fun failure failed hrun => ?_⟩
      have hplaintext : (onSession (·.decrypt record.typeCode record.version record.fragment)).run endpoint =
          .ok plaintext { endpoint with session := session } := by
        rw [run_onSession, hopened]
        rfl
      rw [receiveRecord, perform_eq, Deed.step_unprotect, run_bind_of_ok hplaintext]
      show EStateM.run (if session.plaintextLimit < plaintext.length then _ else _) _ = _
      rw [if_neg hlimit]
      simp only [htype]
      show (receiveHandshake plaintext).run _ = _
      rw [receiveHandshake, if_neg hempty]
      show EStateM.run (List.forM _ takeMessage >>= fun _ => Option.forM _ refuse) _ = _
      exact run_bind_of_error hrun

theorem changes_of_mem_dispatches {origin : Endpoint κ} (h : Changes ContentType.IsRoutine origin endpoint)
    (hmem : (met, message) ∈ endpoint.dispatches record) : Changes ContentType.IsRoutine origin met := by
  obtain ⟨plaintext, session, messages, before, hopened, hbefore, rfl, -⟩ := exists_of_mem_dispatches hmem
  have hchange : Change ContentType.IsRoutine endpoint { endpoint with
      session := (endpoint.session.decrypt record.typeCode record.version record.fragment).2 } := .opened _ _ _
  rw [hopened] at hchange
  have hchanges := holds_of_mem_encounters keepsChanges_takeMessage ((h.tail hchange).tail (.gathered _)) hbefore
  exact hchanges.tail (.gathered _)

end Endpoint

namespace Connection

variable {κ : Type} {connection : Connection κ} {operation : Operation} {endpoint : Endpoint κ} {message : HandshakeMessage}

/-- The handshake messages that an operation hands on, each with the endpoint that it meets. -/
def dispatches (connection : Connection κ) (operation : Operation) : List (Endpoint κ × HandshakeMessage) :=
  (connection.handles operation).flatMap fun (endpoint, record) => endpoint.dispatches record

/-- An endpoint that the connection is, or that a handshake message meets in an operation on it. -/
def ComesBy (connection : Connection κ) (endpoint : Endpoint κ) : Prop :=
  endpoint = connection.toEndpoint ∨ ∃ operation message, (endpoint, message) ∈ connection.dispatches operation

theorem exists_of_mem_handles {met : Endpoint κ × Record} (hmem : met ∈ connection.handles operation) :
    ∃ b, operation = .receive b ∧ connection.phase.TakesInput ∧
      met ∈ encounters Endpoint.receiveRecord connection.toEndpoint (connection.arriving b).items := by
  cases operation with
  | receive b =>
    rw [handles] at hmem
    split at hmem
    · exact absurd hmem List.not_mem_nil
    · next hready =>
      rw [not_or, Bool.not_eq_true] at hready
      exact ⟨b, rfl, ⟨hready.2, hready.1⟩, Endpoint.meetings_eq_encounters _ _ ▸ hmem⟩
  | _ => exact absurd hmem List.not_mem_nil

theorem changes_of_comesBy (h : connection.ComesBy endpoint) :
    Endpoint.Changes ContentType.IsRoutine connection.toEndpoint endpoint := by
  obtain rfl | ⟨operation, message, hmem⟩ := h
  · exact .refl
  · obtain ⟨met, hhandled, hdispatched⟩ := List.mem_flatMap.mp hmem
    obtain ⟨b, -, -, hmet⟩ := exists_of_mem_handles hhandled
    exact Endpoint.changes_of_mem_dispatches
      (holds_of_mem_encounters Endpoint.keepsChanges_receiveRecord .refl hmet) hdispatched

/-- A message that fails ends the operation that has brought it. -/
theorem outcome_of_mem_dispatches (hmem : (endpoint, message) ∈ connection.dispatches operation)
    {failure : ConnectionError} {failed : Endpoint κ}
    (hrun : (Endpoint.receiveMessage message).run endpoint = .error failure failed) :
    connection.outcome operation = (.error failure, ⟨failed.fail failure, []⟩) := by
  obtain ⟨⟨met, record⟩, hhandled, hdispatched⟩ := List.mem_flatMap.mp hmem
  obtain ⟨b, rfl, hready, hmet⟩ := exists_of_mem_handles hhandled
  obtain ⟨plaintext, session, messages, before, -, hbefore, rfl, hrecord⟩ := Endpoint.exists_of_mem_dispatches hdispatched
  have hmessages := run_forM_of_mem_encounters hbefore ((Endpoint.run_takeMessage message before).trans hrun)
  have hrecords := run_forM_of_mem_encounters hmet (hrecord failure failed hmessages)
  refine receive_of_error hready ?_
  rw [Endpoint.run_receiveRecords, hrecords]

end Connection

/-! ### The alert -/

namespace Endpoint

variable {endpoint : Endpoint Protection}

/-- Another endpoint is what this one becomes by telling the peer of `alert`: over, and with one record more, which is
the fatal alert as the session protects it. -/
def Tells (endpoint : Endpoint Protection) (alert : AlertDescription) (after : Endpoint Protection) : Prop :=
  ∃ fragment session entropy,
    endpoint.session.encrypt ContentType.alert.code (Alert.fatal alert).bytes endpoint.entropy = (.ok fragment, session, entropy) ∧
    after = { endpoint with
      phase := .error
      session := session
      entropy := entropy
      outgoing := endpoint.outgoing ++ [⟨ContentType.alert.code, session.version.code, fragment⟩] }

/-- An alert is queued as one record, unless there are no numbers left. -/
theorem tells_fail (h : endpoint.session.Sealing) (alert : AlertDescription) :
    endpoint.Tells alert (endpoint.fail (.sentAlert alert)) ∨
      endpoint.Mute ∧ endpoint.fail (.sentAlert alert) = { endpoint with phase := .error } := by
  have hlength : (Alert.fatal alert).bytes.length ≤ endpoint.session.plaintextLimit :=
    Nat.le_trans (by decide : 2 ≤ 512) (le_of_mem_plaintextLimits h.limited.plaintext)
  have hsent : Ends (sendRecord .alert (Alert.fatal alert).bytes) endpoint
      (fun _ sent => endpoint.Tells alert { sent with phase := .error })
      fun _ sent => endpoint.Mute ∧ { sent with phase := .error } = { endpoint with phase := .error } := by
    refine ends_sendRecord_of_limit (fun fragment session entropy _ _ hsealed => ⟨fragment, session, entropy, hsealed, rfl⟩)
      (fun _ _ hfailed => ?_) fun hover => absurd hlength (Nat.not_le.mpr hover)
    cases hcontext : endpoint.session.encrypter with
    | none =>
      have hshort : (Alert.fatal alert).bytes.length < 65536 := by
        rw [show (Alert.fatal alert).bytes.length = 2 from rfl]
        decide
      exact absurd hshort (hfailed _ (by rw [Session.encrypt, hcontext]))
    | some context =>
      rcases h.encrypt_cases hcontext ContentType.alert.code endpoint.entropy hlength with
        ⟨fragment, later, entropy, -, hfits, hencrypt⟩ | ⟨hexhausted, hencrypt⟩
      · exact absurd hfits (hfailed fragment (by rw [hencrypt]))
      · rw [hencrypt]
        exact ⟨⟨context, hcontext, hexhausted⟩, rfl⟩
  rw [Ends] at hsent
  rw [fail, announce, after]
  split at hsent
  · next hrun =>
    rw [hrun]
    exact .inl hsent
  · next hrun =>
    rw [hrun]
    exact .inr hsent

end Endpoint

/-! ### Runs -/

/-- A connection that turns messages away, where `taken` are the records that were taken from it. -/
structure Connection.TurnsAway (taken : List Record) (connection : Connection Protection) : Prop where
  /-- A rejection leaves the endpoint as it was, whatever the message is. -/
  unchanged : ∀ endpoint, connection.ComesBy endpoint → ∀ (message : HandshakeMessage) alert failed, alert ∈ rejections →
    (Endpoint.receiveMessage message).run endpoint = .error (.sentAlert alert) failed → failed = endpoint
  /-- The alert is the one record that the failure adds. There is none only once all numbers are used up. -/
  announced : ∀ endpoint, connection.ComesBy endpoint → ∀ alert,
    endpoint.Tells alert (endpoint.fail (.sentAlert alert)) ∨
      2 ^ 64 ≤ (taken ++ endpoint.outgoing).length ∧ endpoint.fail (.sentAlert alert) = { endpoint with phase := .error }
  /-- The operation that has brought the message ends with its failure. -/
  ended : ∀ operation endpoint message alert failed, (endpoint, message) ∈ connection.dispatches operation →
    (Endpoint.receiveMessage message).run endpoint = .error (.sentAlert alert) failed →
    connection.outcome operation = (.error (.sentAlert alert), ⟨failed.fail (.sentAlert alert), []⟩)

/-- **A rejected message changes nothing.** Whatever was done to a connection and whatever has arrived, a handshake
message that is rejected leaves all as it was, up to the fatal alert that says so. -/
theorem Configuration.turnsAway_run {configuration : Configuration Protection} (hprovider : configuration.provider = .standard)
    {entropy : Entropy} {connection : Connection Protection} (hmade : configuration.connection entropy = .ok connection)
    (operations : List Operation) : (connection.run operations).TurnsAway (connection.departed operations) := by
  have hcounts := counts_run hprovider hmade operations
  have hcounts' {endpoint : Endpoint Protection} (h : (connection.run operations).ComesBy endpoint) :
      endpoint.session.Counts [] (connection.departed operations ++ endpoint.outgoing) :=
    @Endpoint.Changes.keep _ _ (connection.run operations).toEndpoint
      (fun endpoint => endpoint.session.Counts [] (connection.departed operations ++ endpoint.outgoing))
      (fun _ _ hchange => hchange.counts) _ (Connection.changes_of_comesBy h) hcounts
  refine ⟨fun endpoint h message alert failed halert hrun => ?_, fun endpoint h alert => ?_,
    fun operation endpoint message alert failed hmem hrun => Connection.outcome_of_mem_dispatches hmem hrun⟩
  · exact Endpoint.eq_of_rejected ((hcounts' h).provider ▸ Provider.lenient_standard) halert hrun
  · exact (Endpoint.tells_fail (hcounts' h).toSealing alert).imp id
      fun ⟨hmute, hfail⟩ => ⟨Endpoint.length_of_mute (hcounts' h) hmute, hfail⟩

/-- A client that has just begun does not await the end of the server's hello messages. -/
theorem Configuration.turnsAway_run_early :
    (((usualClient [1] [2]).connection (.ofSeed 1)).run [.start]).TurnsAway [] ∧
      ((((usualClient [1] [2]).connection (.ofSeed 1)).run [.start]).dispatches
        (.receive [22, 3, 3, 0, 4, 14, 0, 0, 0])).map Prod.snd = [⟨.serverHelloDone, []⟩] ∧
      ((usualClient [1] [2]).connection (.ofSeed 1)).results [.start, .receive [22, 3, 3, 0, 4, 14, 0, 0, 0]] =
        [.ok (), .error (.sentAlert .unexpectedMessage)] :=
  ⟨@Configuration.turnsAway_run (.client (usualClient [1] [2])) rfl (.ofSeed 1) _ rfl [.start], by cbv, by cbv⟩

end PresharedTls
