import PresharedTls.Proofs.Ending
import PresharedTls.Proofs.Endpoint.Outline
import PresharedTls.Proofs.Sound

/-!
# Phase and session

Whatever is done to a connection, its session is what its phase says: which contexts there are, what was
agreed on, whether the handshake is done. That a session only grows, in its contexts and in the limits
that it can come to, is seen from the changes that operations are made of.
-/

namespace PresharedTls

variable {κ : Type}

/-- A context that has protected records since it was another. -/
inductive Provider.Spent (provider : Provider κ) (context : κ) : κ → Prop
  | refl : Spent provider context context
  | sealed {later : κ} (typeCode : UInt8) (version : UInt16) (plaintext : Bytes) (entropy : Entropy) :
      Spent provider context later →
      Spent provider context (provider.protect later typeCode version plaintext entropy).2.1

/-- The limits on plaintexts that can be agreed on. -/
def plaintextLimits : List Nat :=
  [512, 1024, 2048, 4096, maximumPlaintext]

theorem le_maximumPlaintext_of_mem {limit : Nat} (h : limit ∈ plaintextLimits) : limit ≤ maximumPlaintext := by
  revert limit
  decide

theorem le_of_mem_plaintextLimits {limit : Nat} (h : limit ∈ plaintextLimits) : 512 ≤ limit := by
  revert limit
  decide

theorem MaxFragmentLength.limit_mem (length : MaxFragmentLength) : length.limit ∈ plaintextLimits := by
  cases length <;> decide

namespace Session

variable {origin session : Session κ}

/-- A session whose limits leave room for one another. -/
structure Limited (session : Session κ) : Prop where
  plaintext : session.plaintextLimit ∈ plaintextLimits
  ciphertext : maximumPlaintext ≤ session.ciphertextLimit

theorem limited_applyExtensions (h : session.Limited) (entries : List (UInt16 × Bytes)) :
    (session.applyExtensions entries).2.Limited := by
  induction entries generalizing session with
  | nil => exact h
  | cons entry rest ih =>
    obtain ⟨type, data⟩ := entry
    rw [applyExtensions]
    split
    · exact h
    · next after happly =>
      obtain rfl := applyExtension_of_ok happly
      refine ih ⟨?_, h.ciphertext⟩
      show (session.parameters.extended (type, data)).plaintextLimit ∈ _
      rw [Parameters.extended]
      split
      · next length _ _ => exact length.limit_mem
      · exact h.plaintext
      · exact h.plaintext
      · exact h.plaintext

theorem limited_applyServerHello (h : session.Limited) (answer : ServerHello) :
    (session.applyServerHello answer).2.Limited := by
  have hextensions := limited_applyExtensions h answer.extensions.entries
  rw [applyServerHello]
  split
  · exact h
  · split
    · exact h
    · split
      · next hrun => rwa [hrun] at hextensions
      · next hrun =>
        rw [hrun] at hextensions
        exact ⟨hextensions.plaintext, hextensions.ciphertext⟩

/-- A session that has the contexts of `origin` still, used or not. -/
structure Continues (origin session : Session κ) : Prop where
  provider : session.provider = origin.provider
  encrypter : ∀ context, origin.encrypter = some context →
    ∃ later, session.encrypter = some later ∧ origin.provider.Spent context later
  decrypter : ∀ context, origin.decrypter = some context →
    ∃ later, session.decrypter = some later ∧ origin.provider.Used context later

theorem Continues.refl (session : Session κ) : session.Continues session :=
  ⟨rfl, fun context h => ⟨context, h, .refl⟩, fun context h => ⟨context, h, .refl⟩⟩

theorem Continues.of_same {after : Session κ} (h : origin.Continues session) (hprovider : after.provider = session.provider)
    (hencrypter : after.encrypter = session.encrypter) (hdecrypter : after.decrypter = session.decrypter) :
    origin.Continues after := by
  refine ⟨hprovider.trans h.provider, ?_, ?_⟩
  · rw [hencrypter]
    exact h.encrypter
  · rw [hdecrypter]
    exact h.decrypter

theorem Continues.encrypt (h : origin.Continues session) (typeCode : UInt8) (plaintext : Bytes) (entropy : Entropy) :
    origin.Continues (session.encrypt typeCode plaintext entropy).2.1 := by
  rw [Session.encrypt]
  split
  · exact h
  · next context hcontext =>
    refine ⟨h.provider, fun initial hinitial => ?_, h.decrypter⟩
    obtain ⟨later, hlater, hspent⟩ := h.encrypter initial hinitial
    obtain rfl := Option.some.inj (hcontext.symm.trans hlater)
    exact ⟨_, rfl, h.provider ▸ (h.provider.symm ▸ hspent).sealed typeCode session.version.code plaintext entropy⟩

theorem Continues.decrypt (h : origin.Continues session) (typeCode : UInt8) (version : UInt16) (fragment : Bytes) :
    origin.Continues (session.decrypt typeCode version fragment).2 := by
  rw [Session.decrypt]
  split
  · exact h
  · next context hcontext =>
    refine ⟨h.provider, h.encrypter, fun initial hinitial => ?_⟩
    obtain ⟨later, hlater, hused⟩ := h.decrypter initial hinitial
    obtain rfl := Option.some.inj (hcontext.symm.trans hlater)
    exact ⟨_, rfl, h.provider ▸ (h.provider.symm ▸ hused).opened typeCode version fragment⟩

/-- There is no second context in the place of the first. -/
theorem Continues.createEncrypter (h : origin.Continues session) (sender : Role) :
    origin.Continues (session.createEncrypter sender).2 := by
  cases hcontext : session.encrypter with
  | some context =>
    rw [Session.createEncrypter, hcontext]
    exact h
  | none =>
    rcases Session.createEncrypter_cases hcontext sender with ⟨params, context, -, -, hcreated⟩ | ⟨alert, -, hfailed⟩
    · rw [hcreated]
      refine ⟨h.provider, fun initial hinitial => ?_, h.decrypter⟩
      obtain ⟨later, hlater, -⟩ := h.encrypter initial hinitial
      cases hcontext.symm.trans hlater
    · rw [hfailed]
      exact h

theorem Continues.createDecrypter (h : origin.Continues session) (sender : Role) :
    origin.Continues (session.createDecrypter sender).2 := by
  rcases session.createDecrypter_cases sender with ⟨params, context, hnone, -, -, hcreated⟩ | ⟨alert, hfailed⟩
  · rw [hcreated]
    refine ⟨h.provider, h.encrypter, fun initial hinitial => ?_⟩
    obtain ⟨later, hlater, -⟩ := h.decrypter initial hinitial
    cases hnone.symm.trans hlater
  · rw [hfailed]
    exact h

end Session

namespace Endpoint

variable {origin : Session κ} {endpoint after : Endpoint κ} {sends : ContentType → Prop}

theorem Change.continues (hchange : Change sends endpoint after) (h : origin.Continues endpoint.session) :
    origin.Continues after.session := by
  cases hchange with
  | @sent type _ plaintext _ _ _ hsealed _ _ =>
    have hencrypted := h.encrypt type.code plaintext endpoint.entropy
    rwa [hsealed] at hencrypted
  | spent typeCode plaintext _ _ => exact h.encrypt typeCode plaintext endpoint.entropy
  | opened typeCode version fragment => exact h.decrypt typeCode version fragment
  | @taken version fragment _ _ hopened _ =>
    have hdecrypted := h.decrypt ContentType.applicationData.code version fragment
    rwa [hopened] at hdecrypted
  | answered answer =>
    obtain ⟨terms, hafter, -⟩ := endpoint.session.applyServerHello_eq answer
    rw [hafter]
    exact h.of_same rfl rfl rfl
  | armed _ sender => exact h.createEncrypter sender
  | switched sender => exact h.createDecrypter sender
  | _ => exact h.of_same rfl rfl rfl

theorem Change.limited (hchange : Change sends endpoint after) (h : endpoint.session.Limited) : after.session.Limited := by
  have hsame {session : Session κ} (hplaintext : session.plaintextLimit = endpoint.session.plaintextLimit)
      (hciphertext : session.ciphertextLimit = endpoint.session.ciphertextLimit) : session.Limited :=
    ⟨hplaintext ▸ h.plaintext, hciphertext ▸ h.ciphertext⟩
  have hencrypt (typeCode : UInt8) (plaintext : Bytes) :
      (endpoint.session.encrypt typeCode plaintext endpoint.entropy).2.1.Limited := by
    obtain ⟨encrypter, -, hsession⟩ := endpoint.session.encrypt_eq typeCode plaintext endpoint.entropy
    rw [hsession]
    exact hsame rfl rfl
  have hdecrypt (typeCode : UInt8) (version : UInt16) (fragment : Bytes) :
      (endpoint.session.decrypt typeCode version fragment).2.Limited := by
    rw [Session.decrypt]
    split
    · exact h
    · exact hsame rfl rfl
  cases hchange with
  | @sent type _ plaintext _ _ _ hsealed _ _ =>
    have hencrypted := hencrypt type.code plaintext
    rwa [hsealed] at hencrypted
  | spent typeCode plaintext _ _ => exact hencrypt typeCode plaintext
  | opened typeCode version fragment => exact hdecrypt typeCode version fragment
  | @taken version fragment _ _ hopened _ =>
    have hdecrypted := hdecrypt ContentType.applicationData.code version fragment
    rwa [hopened] at hdecrypted
  | answered answer => exact Session.limited_applyServerHello h answer
  | armed _ sender =>
    rw [Session.createEncrypter]
    repeat' split
    · exact h
    · exact hsame rfl rfl
    · exact h
  | switched sender =>
    rw [Session.createDecrypter]
    repeat' split
    · exact h
    · exact hsame rfl rfl
    · exact h
  | _ => exact hsame rfl rfl

theorem changes_fail (failure : ConnectionError) (endpoint : Endpoint κ) :
    Changes (fun _ => True) endpoint (endpoint.fail failure) := by
  cases failure with
  | sentAlert alert =>
    have hannounced : Changes (fun _ => True) endpoint (endpoint.announce alert) :=
      (changes_sendRecord trivial (Alert.fatal alert).bytes endpoint .refl).after
    exact hannounced.tail (.entered .error)
  | _ => exact .single (.entered .error)

end Endpoint

namespace Connection

variable {connection : Connection κ}

/-- What a connection performs is made of changes, and so is its failure. -/
theorem changes_perform {step : Endpoint.Step κ Unit} (hstep : Endpoint.KeepsChanges connection.toEndpoint step) :
    Endpoint.Changes (fun _ => True) connection.toEndpoint (connection.perform step).2.toEndpoint := by
  have hany {endpoint : Endpoint κ} (h : Endpoint.Changes ContentType.IsRoutine connection.toEndpoint endpoint) :
      Endpoint.Changes (fun _ => True) connection.toEndpoint endpoint := Endpoint.Changes.mono (fun _ _ => trivial) h
  refine holds_perform (P := fun after => Endpoint.Changes _ connection.toEndpoint after.toEndpoint) ?_
  exact (hstep _ .refl).mono (fun _ _ => hany) fun failure endpoint h => (hany h).trans (endpoint.changes_fail failure)

/-- What every change keeps of a session and of all that was sent is kept by every operation, for all else it
does is to take from the queues. -/
theorem sent_operate {P : Session κ → List Record → Prop}
    (hP : ∀ (taken : List Record) (endpoint after : Endpoint κ), Endpoint.Change (fun _ => True) endpoint after →
      P endpoint.session (taken ++ endpoint.outgoing) → P after.session (taken ++ after.outgoing))
    {taken : List Record} (h : P connection.session (taken ++ connection.outgoing)) (operation : Operation) :
    P (connection.operate operation).session
      (taken ++ connection.records operation ++ (connection.operate operation).outgoing) := by
  have hchanges {endpoint : Endpoint κ} (hchanges : Endpoint.Changes (fun _ => True) connection.toEndpoint endpoint) :
      P endpoint.session (taken ++ [] ++ endpoint.outgoing) := by
    rw [List.append_nil]
    exact hchanges.keep (hP taken) h
  have hsame : P connection.session (taken ++ [] ++ connection.outgoing) := hchanges .refl
  cases operation with
  | takeOutgoing =>
    show P connection.session (taken ++ connection.outgoing ++ [])
    rwa [List.append_nil]
  | start =>
    simp only [operate, Connection.start]
    repeat' split
    · exact hsame
    · exact hsame
    · exact hchanges (changes_perform (Endpoint.keepsChanges_sendClientHello _))
    · exact hchanges (changes_perform (Endpoint.keepsChanges_enter _))
  | receive b =>
    simp only [operate, Connection.receive]
    repeat' split
    · exact hsame
    · exact hsame
    · exact hchanges (@changes_perform _ { connection with incoming := (connection.arriving b).rest } _
        (Endpoint.keepsChanges_receiveRecords _))
  | send data =>
    simp only [operate, Connection.send]
    repeat' split
    · exact hsame
    · exact hsame
    · exact hchanges (changes_perform (Endpoint.keepsChanges_sendFragmented (by decide) _))
  | read =>
    simp only [operate, Connection.read]
    split <;> exact hsame
  | close =>
    simp only [operate, Connection.close]
    split
    · exact hsame
    · have hsent : Endpoint.Changes (fun _ => True) connection.toEndpoint
          (connection.toEndpoint.after (Endpoint.sendRecord .alert (Alert.warning .closeNotify).bytes)) :=
        (Endpoint.changes_sendRecord trivial _ _ .refl).after
      have hclosed := hchanges hsent
      exact hclosed
  | _ => exact hsame

theorem sent_run {P : Session κ → List Record → Prop}
    (hP : ∀ (taken : List Record) (endpoint after : Endpoint κ), Endpoint.Change (fun _ => True) endpoint after →
      P endpoint.session (taken ++ endpoint.outgoing) → P after.session (taken ++ after.outgoing))
    {taken : List Record} (h : P connection.session (taken ++ connection.outgoing)) (operations : List Operation) :
    P (connection.run operations).session (taken ++ connection.log operations) := by
  induction operations generalizing connection taken with
  | nil => exact h
  | cons operation rest ih =>
    have hlog : connection.log (operation :: rest) =
        connection.records operation ++ (connection.operate operation).log rest := by
      rw [log, departed, List.append_assoc]
      rfl
    rw [hlog, ← List.append_assoc]
    exact ih (sent_operate hP h operation)

/-- What was sent stays what was sent, whatever is done next. -/
theorem log_prefix_append (connection : Connection κ) (operations more : List Operation) :
    connection.log operations <+: connection.log (operations ++ more) := by
  rw [log_append]
  refine @sent_run _ (connection.run operations) (fun _ log => connection.log operations <+: log) ?_
    (connection.departed operations) List.prefix_rfl more
  intro taken endpoint after hchange h
  cases hchange with
  | sent htype hsealed hlength hfits =>
    rw [← List.append_assoc]
    exact h.trans (List.prefix_append _ _)
  | _ => exact h

/-- What every change keeps of a session is kept by a run. -/
theorem session_run {P : Session κ → Prop}
    (hP : ∀ endpoint after : Endpoint κ, Endpoint.Change (fun _ => True) endpoint after → P endpoint.session → P after.session)
    (h : P connection.session) (operations : List Operation) : P (connection.run operations).session :=
  @sent_run _ connection (fun session _ => P session) (fun _ => hP) [] h operations

/-! ### Phases -/

variable {data : List Bytes}

/-- A connection that goes on is in order, and one that is over consistent. -/
structure Orderly (data : List Bytes) (connection : Connection κ) : Prop where
  consistent : connection.outline.Consistent data
  inOrder : connection.phase.isOver = false → connection.outline.InOrder data

theorem orderly_of_inOrder (h : connection.outline.InOrder data) : connection.Orderly data :=
  ⟨h.toConsistent, fun _ => h⟩

theorem orderly_perform {step : Endpoint.Step κ Unit} (h : Endpoint.Orders data step connection.toEndpoint) :
    (connection.perform step).2.Orderly data := by
  refine holds_perform (P := fun after => after.Orderly data) (Ends.mono h (fun _ endpoint hafter => ?_) ?_)
  · exact orderly_of_inOrder hafter
  · exact fun failure _ hconsistent => ⟨Endpoint.consistent_fail hconsistent failure, fun hsome => by cases hsome⟩

theorem Orderly.start (h : connection.Orderly data) : connection.start.2.Orderly data := by
  by_cases hidle : connection.phase = .idle
  · have hinOrder := h.inOrder (by rw [hidle]; rfl)
    cases hside : connection.side with
    | client offer =>
      have hrole : connection.role = .client := congrArg Side.role hside
      rw [start_of_client hidle hside]
      exact orderly_perform (Endpoint.orders_sendClientHello hinOrder hrole hidle)
    | server policy =>
      have hrole : connection.role = .server := congrArg Side.role hside
      rw [start_of_server hidle hside]
      refine orderly_perform (Endpoint.orders_enter ?_)
      obtain ⟨hconsistent, hencrypts, hdecrypts, hdone, hrecording, hsuite, hclient, hserver⟩ := hinOrder
      simp only [Endpoint.outline, hrole, hidle] at *
      exact ⟨hconsistent.of_same rfl rfl rfl rfl, hencrypts, hdecrypts, hdone, hrecording, hsuite, hclient, hserver⟩
  · rw [start_of_not_idle hidle]
    exact h

theorem Orderly.receive (h : connection.Orderly data) (b : Bytes) : (connection.receive b).2.Orderly data := by
  by_cases hready : connection.phase.TakesInput
  · rw [receive_of_takesInput hready]
    exact orderly_perform (Endpoint.orders_receiveRecords _ _ (h.inOrder hready.2))
  · rw [receive_of_not_takesInput hready]
    exact h

theorem Orderly.send (h : connection.Orderly data) (b : Bytes) : (connection.send b).2.Orderly data := by
  rw [Connection.send]
  split
  · exact h
  · next hlive =>
    split
    · exact h
    · have hinOrder := h.inOrder (Bool.eq_false_iff.mpr hlive)
      refine orderly_perform ?_
      exact (Endpoint.keepsOutline_sendFragmented .applicationData b connection.toEndpoint rfl).mono
        (fun _ _ hafter => hafter ▸ hinOrder) fun _ _ hafter => hafter ▸ hinOrder.toConsistent

theorem orderly_abandon (h : connection.outline.Consistent data) : connection.abandon.Orderly data :=
  ⟨h.of_same rfl rfl rfl rfl, nofun⟩

theorem Orderly.close (h : connection.Orderly data) : connection.close.Orderly data := by
  rw [Connection.close]
  split
  · exact orderly_abandon h.consistent
  · have hsent : (connection.toEndpoint.after (Endpoint.sendRecord .alert (Alert.warning .closeNotify).bytes)).outline =
        connection.outline := Endpoint.outline_after_sendRecord _ _ _
    exact @orderly_abandon _ ⟨_, connection.incoming⟩ _ (hsent.symm ▸ h.consistent)

/-- What is read is no longer in the queue, but it came out of the decrypter as before. -/
theorem Orderly.read (h : connection.Orderly data) :
    connection.read.2.Orderly (data ++ connection.read.1.toList) := by
  rw [Connection.read]
  split
  · rw [Option.toList_none, List.append_nil]
    exact h
  · next first rest hreceived =>
    have hall : data ++ [first] ++ rest = data ++ connection.outline.received := by
      rw [show connection.outline.received = first :: rest from hreceived, List.append_assoc]
      rfl
    have hconsistent (hbefore : connection.outline.Consistent data) :
        Outline.Consistent (data ++ [first]) { connection.outline with received := rest } := by
      obtain ⟨hdone, hkeyed, hearly, hsourced⟩ := hbefore
      rw [← hall] at hearly
      rw [Hearing.Sourced, ← hall] at hsourced
      exact ⟨hdone, hkeyed, hearly, hsourced⟩
    refine ⟨hconsistent h.consistent, fun hlive => ?_⟩
    obtain ⟨hbefore, hencrypts, hdecrypts, hdone, hrecording, hsuite, hclient, hserver⟩ := h.inOrder hlive
    exact ⟨hconsistent hbefore, hencrypts, hdecrypts, hdone, hrecording, hsuite, hclient, hserver⟩

theorem Orderly.operate (h : connection.Orderly data) (operation : Operation) :
    (connection.operate operation).Orderly (data ++ connection.data operation) := by
  cases operation with
  | read => exact h.read
  | start => exact (List.append_nil data).symm ▸ h.start
  | receive b => exact (List.append_nil data).symm ▸ h.receive b
  | send b => exact (List.append_nil data).symm ▸ h.send b
  | takeOutgoing => exact (List.append_nil data).symm ▸ ⟨h.consistent, h.inOrder⟩
  | close => exact (List.append_nil data).symm ▸ h.close
  | abandon => exact (List.append_nil data).symm ▸ orderly_abandon h.consistent
  | reseed entropy => exact (List.append_nil data).symm ▸ ⟨h.consistent, h.inOrder⟩

theorem Orderly.run (h : connection.Orderly data) (operations : List Operation) :
    (connection.run operations).Orderly (data ++ connection.delivered operations) := by
  induction operations generalizing data connection with
  | nil => exact (List.append_nil data).symm ▸ h
  | cons operation rest ih =>
    rw [delivered, ← List.append_assoc]
    exact ih (h.operate operation)

end Connection

namespace Configuration

variable {configuration : Configuration κ} {entropy : Entropy} {connection : Connection κ}

theorem orderly (hmade : configuration.connection entropy = .ok connection) : connection.Orderly [] := by
  obtain ⟨side, version, setting, session, rfl, hsession⟩ := exists_fresh hmade
  have hnone : ¬ (false = true ∨ (none : Option κ).isSome = true) := by simp
  refine Connection.orderly_of_inOrder ?_
  rcases hsession with rfl | ⟨identity, key, rfl⟩ <;> cases side <;>
    exact ⟨⟨nofun, fun hsome => absurd hsome hnone, fun _ => rfl, rfl⟩, rfl, rfl, rfl, rfl, rfl, rfl, rfl⟩

theorem limited (hmade : configuration.connection entropy = .ok connection) : connection.session.Limited := by
  obtain ⟨side, version, setting, session, rfl, hsession⟩ := exists_fresh hmade
  have hroom : maximumPlaintext ≤ effectiveCiphertextLimit setting := Nat.le_max_right _ _
  have hmost : maximumPlaintext ∈ plaintextLimits := by decide
  rcases hsession with rfl | ⟨identity, key, rfl⟩ <;> exact ⟨hmost, hroom⟩

end Configuration

/-- A connection whose session is what its phase says. `data` is what was read of it before. -/
structure Connection.Coherent (data : List Bytes) (connection : Connection κ) : Prop where
  encrypter : connection.phase.isOver = false →
    connection.session.encrypter.isSome = connection.role.encrypts connection.phase
  decrypter : connection.phase.isOver = false → connection.session.decrypter.isSome = connection.phase.decrypts
  agreed : connection.phase.isAgreed = true → connection.session.suite.isSome = true ∧
    connection.session.clientRandom.isSome = true ∧ connection.session.serverRandom.isSome = true
  keyed : connection.session.encrypter.isSome = true ∨ connection.session.decrypter.isSome = true →
    connection.session.key.isSome = true
  /-- The handshake is done in the last phase of those in which it goes on. The transcript is given up then. -/
  connected : connection.phase = .connected →
    connection.session.handshakeDone = true ∧ connection.session.transcript = none
  early : connection.phase.isOver = false → connection.phase ≠ .connected →
    connection.session.handshakeDone = false ∧ connection.session.transcript.isSome = true
  /-- A handshake that was done has both contexts, also when all is over. -/
  done : connection.session.handshakeDone = true →
    connection.session.encrypter.isSome = true ∧ connection.session.decrypter.isSome = true
  /-- Application data came out of the decrypter, behind the end of the handshake. -/
  received : data ++ connection.received ≠ [] → connection.session.handshakeDone = true ∧
    ∃ params initial context, connection.session.decrypter = some context ∧
      connection.session.provider.createDecoder params connection.role.peer = .ok initial ∧
      connection.session.provider.Opens initial (data ++ connection.received) context
  limit : connection.session.plaintextLimit ∈ plaintextLimits ∧
    connection.session.plaintextLimit ≤ connection.session.ciphertextLimit
  /-- Whatever is done next, the contexts are the same, but for the use that is made of them. -/
  lasting : ∀ more, connection.session.Continues (connection.run more).session

theorem Connection.Orderly.coherent {data : List Bytes} {connection : Connection κ} (h : connection.Orderly data)
    (hlimited : connection.session.Limited) : connection.Coherent data := by
  refine
    { encrypter := fun hgoes => (h.inOrder hgoes).encrypts_eq
      decrypter := fun hgoes => (h.inOrder hgoes).decrypts_eq
      agreed := fun hagreed => ?_
      keyed := h.consistent.keyed
      connected := fun hconnected => ?_
      early := fun hgoes hphase => ?_
      done := h.consistent.done
      received := fun hsome => ?_
      limit := ⟨hlimited.plaintext, (le_maximumPlaintext_of_mem hlimited.plaintext).trans hlimited.ciphertext⟩
      lasting := Connection.session_run (fun _ _ => Endpoint.Change.continues) (.refl _) }
  · have hgoes : connection.phase.isOver = false := by
      revert hagreed
      cases connection.phase <;> decide
    have hinOrder := h.inOrder hgoes
    have hclient : connection.role.hasClientRandom connection.phase = true :=
      Role.hasClientRandom_of_isAgreed connection.role hagreed
    exact ⟨hinOrder.hasSuite_eq.trans hagreed, hinOrder.hasClientRandom_eq.trans hclient,
      hinOrder.hasServerRandom_eq.trans hagreed⟩
  · have hinOrder := h.inOrder (by rw [hconnected]; rfl)
    have hrecording : connection.session.transcript.isSome = false :=
      hinOrder.recording_eq.trans (by simp [Endpoint.outline, hconnected])
    exact ⟨hinOrder.done_eq.trans (decide_eq_true hconnected), Option.not_isSome_iff_eq_none.mp (by simp [hrecording])⟩
  · have hinOrder := h.inOrder hgoes
    exact ⟨hinOrder.done_eq.trans (decide_eq_false hphase), hinOrder.recording_eq.trans (decide_eq_true hphase)⟩
  · have hdone : connection.session.handshakeDone = true := by
      by_contra hnot
      exact hsome (h.consistent.early (Bool.eq_false_iff.mpr hnot))
    obtain ⟨context, hcontext⟩ := Option.isSome_iff_exists.mp (h.consistent.done hdone).2
    have hsourced := h.consistent.sourced
    rw [Hearing.Sourced, hcontext] at hsourced
    obtain ⟨params, initial, hinitial, hopens⟩ := hsourced
    exact ⟨hdone, params, initial, context, hcontext, hinitial, hopens⟩

/-- **Phase and session agree.** Behind any operations, of any connection that can be made, the contexts,
what was agreed on, the transcript and the queue of received data are what the phase says, and no context
is ever put in the place of another. -/
theorem Configuration.coherent_run {configuration : Configuration κ} {entropy : Entropy} {connection : Connection κ}
    (hmade : configuration.connection entropy = .ok connection) (operations : List Operation) :
    (connection.run operations).Coherent (connection.delivered operations) :=
  ((orderly hmade).run operations).coherent
    (Connection.session_run (fun _ _ => Endpoint.Change.limited) (limited hmade) operations)

/-- A client that has its greeting and no key is coherent where it ends. -/
theorem Configuration.coherent_run_keyless :
    ((keylessClient.connection ⟨fun _ => 7, 0⟩).run keylessRun).Coherent [] :=
  @Configuration.coherent_run _ (.client keylessClient) ⟨fun _ => 7, 0⟩ _ rfl keylessRun

end PresharedTls
