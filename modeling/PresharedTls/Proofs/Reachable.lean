import PresharedTls.Proofs.Endpoint.Fixed
import PresharedTls.Settings

/-!
# Reachable connections

What an application can do to a connection, and the connections it can bring about by doing so. The
source of random bytes is not the connection's own, so it may turn into any other at any time.
-/

namespace PresharedTls

variable {κ : Type}

inductive Configuration (κ : Type) where
  | client (settings : ClientSettings κ)
  | server (settings : ServerSettings κ)

namespace Configuration

def role : Configuration κ → Role
  | client _ => .client
  | server _ => .server

def provider : Configuration κ → Provider κ
  | client settings => settings.provider
  | server settings => settings.provider

def connection (entropy : Entropy) : Configuration κ → Except SettingsError (Connection κ)
  | client settings => .ok (settings.connection entropy)
  | server settings => settings.connection entropy

end Configuration

inductive Operation where
  | start
  | receive (b : Bytes)
  | send (data : Bytes)
  | takeOutgoing
  | read
  | close
  | abandon
  | reseed (entropy : Entropy)

namespace Connection

/-- The connection behind an operation, whatever its result. -/
def operate (connection : Connection κ) : Operation → Connection κ
  | .start => connection.start.2
  | .receive b => (connection.receive b).2
  | .send data => (connection.send data).2
  | .takeOutgoing => connection.takeOutgoing.2
  | .read => connection.read.2
  | .close => connection.close
  | .abandon => connection.abandon
  | .reseed entropy => connection.withEntropy entropy

/-- The connection behind a sequence of operations. -/
def run (connection : Connection κ) (operations : List Operation) : Connection κ :=
  operations.foldl operate connection

theorem run_append (connection : Connection κ) (operations more : List Operation) :
    connection.run (operations ++ more) = (connection.run operations).run more :=
  List.foldl_append

end Connection

inductive Reachable : Connection κ → Prop
  | opened {configuration : Configuration κ} {entropy : Entropy} {connection : Connection κ} :
      configuration.connection entropy = .ok connection → Reachable connection
  | operated {connection : Connection κ} (operation : Operation) :
      Reachable connection → Reachable (connection.operate operation)

theorem Reachable.run {connection : Connection κ} (h : Reachable connection) (operations : List Operation) :
    Reachable (connection.run operations) := by
  induction operations generalizing connection with
  | nil => exact h
  | cons operation rest ih => exact ih (h.operated operation)

/-! ### Steps that a connection performs -/

/-- A fault behind the records is raised once they are handled. -/
theorem Endpoint.run_receiveRecords (records : Cut Record) (endpoint : Endpoint κ) :
    (Endpoint.receiveRecords records).run endpoint =
      match (records.items.forM Endpoint.receiveRecord).run endpoint, records.fault with
      | .ok () endpoint, none => .ok () endpoint
      | .ok () endpoint, some alert => .error (.sentAlert alert) endpoint
      | .error failure endpoint, _ => .error failure endpoint := by
  rw [Endpoint.receiveRecords, EStateM.run_bind]
  cases (records.items.forM Endpoint.receiveRecord).run endpoint <;> cases records.fault <;> rfl

theorem Endpoint.fault_of_receiveRecords {records : Cut Record} {endpoint after : Endpoint κ}
    (h : (Endpoint.receiveRecords records).run endpoint = .ok () after) : records.fault = none := by
  rw [Endpoint.run_receiveRecords] at h
  split at h <;> simp_all

theorem Endpoint.forM_of_receiveRecords {records : Cut Record} {endpoint after : Endpoint κ}
    (h : (Endpoint.receiveRecords records).run endpoint = .ok () after) :
    (records.items.forM Endpoint.receiveRecord).run endpoint = .ok () after := by
  rw [Endpoint.run_receiveRecords] at h
  split at h <;> simp_all

namespace Connection

variable {step : Endpoint.Step κ Unit} {connection : Connection κ}

theorem perform_of_ok {endpoint : Endpoint κ} (h : step.run connection.toEndpoint = .ok () endpoint) :
    connection.perform step = (.ok (), ⟨endpoint, connection.incoming⟩) := by
  simp only [perform, h]

theorem perform_of_error {endpoint : Endpoint κ} {failure : ConnectionError}
    (h : step.run connection.toEndpoint = .error failure endpoint) :
    connection.perform step = (.error failure, ⟨endpoint.fail failure, []⟩) := by
  simp only [perform, h]

/-- What holds behind a step holds of the connection that performs it, which fails where the step does. -/
theorem holds_perform {P : Connection κ → Prop}
    (h : Ends step connection.toEndpoint (fun _ endpoint => P ⟨endpoint, connection.incoming⟩)
      fun failure endpoint => P ⟨endpoint.fail failure, []⟩) :
    P (connection.perform step).2 := by
  rw [Ends] at h
  cases hrun : step.run connection.toEndpoint with
  | ok value endpoint =>
    rw [hrun] at h
    rwa [perform_of_ok hrun]
  | error failure endpoint =>
    rw [hrun] at h
    rwa [perform_of_error hrun]

theorem start_of_client {offer : ClientOffer} (hidle : connection.phase = .idle) (hside : connection.side = .client offer) :
    connection.start = connection.perform (Endpoint.sendClientHello offer) := by
  rw [Connection.start, if_neg (by rw [hidle]; decide), if_neg (by simp [hidle]), hside]

theorem start_of_server {policy : ServerPolicy} (hidle : connection.phase = .idle)
    (hside : connection.side = .server policy) :
    connection.start = connection.perform (Endpoint.enter .waitHello) := by
  rw [Connection.start, if_neg (by rw [hidle]; decide), if_neg (by simp [hidle]), hside]

theorem start_of_not_idle (h : connection.phase ≠ .idle) : connection.start.2 = connection := by
  rw [Connection.start]
  split
  · rfl
  · rfl

def arriving (connection : Connection κ) (b : Bytes) : Cut Record :=
  (Record.framing connection.session.ciphertextLimit).cut (connection.incoming ++ b)

theorem receive_of_takesInput (hready : connection.phase.TakesInput) (b : Bytes) :
    connection.receive b = perform (Endpoint.receiveRecords (connection.arriving b))
      { connection with incoming := (connection.arriving b).rest } := by
  rw [Connection.receive, if_neg (by simp [hready.2]), if_neg hready.1]
  rfl

theorem receive_of_ok {b : Bytes} {endpoint : Endpoint κ} (hready : connection.phase.TakesInput)
    (h : (Endpoint.receiveRecords (connection.arriving b)).run connection.toEndpoint = .ok () endpoint) :
    connection.receive b = (.ok (), ⟨endpoint, (connection.arriving b).rest⟩) := by
  rw [receive_of_takesInput hready]
  exact perform_of_ok h

theorem receive_of_error {b : Bytes} {endpoint : Endpoint κ} {failure : ConnectionError}
    (hready : connection.phase.TakesInput)
    (h : (Endpoint.receiveRecords (connection.arriving b)).run connection.toEndpoint = .error failure endpoint) :
    connection.receive b = (.error failure, ⟨endpoint.fail failure, []⟩) := by
  rw [receive_of_takesInput hready]
  exact perform_of_error h

theorem receive_of_isOver (h : connection.phase.isOver = true) (b : Bytes) :
    connection.receive b = (.error .closed, connection) := by
  rw [Connection.receive, if_pos h]

theorem receive_of_idle (h : connection.phase = .idle) (b : Bytes) :
    connection.receive b = (.error .notStarted, connection) := by
  rw [Connection.receive, if_neg (by rw [h]; decide), if_pos h]

/-- Bytes that come at the wrong time are refused and change nothing. -/
theorem receive_of_not_takesInput {b : Bytes} (h : ¬ connection.phase.TakesInput) :
    (connection.receive b).2 = connection := by
  by_cases hidle : connection.phase = .idle
  · rw [receive_of_idle hidle]
  · rw [receive_of_isOver (Phase.isOver_of_not_takesInput h hidle)]

/-- Only a connection that takes input says anything but that it does not. -/
theorem takesInput_of_result {b : Bytes} {result : Except ConnectionError Unit} (h : (connection.receive b).1 = result)
    (hstarted : result ≠ .error .notStarted) (hclosed : result ≠ .error .closed) : connection.phase.TakesInput := by
  subst h
  constructor
  · intro hidle
    exact hstarted (congrArg Prod.fst (receive_of_idle hidle b))
  · cases hphase : connection.phase.isOver with
    | false => rfl
    | true => exact absurd (congrArg Prod.fst (receive_of_isOver hphase b)) hclosed

end Connection

/-! ### Incoming bytes -/

namespace Connection

/-- What arrived does not contain a whole record, nor the header of one that is refused. -/
def Waits (connection : Connection κ) : Prop :=
  (Record.framing connection.session.ciphertextLimit).next connection.incoming = .ok none

theorem waits_of_incoming_nil {connection : Connection κ} (h : connection.incoming = []) : connection.Waits := by
  rw [Waits, h]
  rfl

variable {connection : Connection κ}

theorem Waits.perform {step : Endpoint.Step κ Unit} (h : connection.Waits)
    (hstep : Endpoint.KeepsFixed connection.toEndpoint (fun _ => True) step) :
    (connection.perform step).2.Waits := by
  have hends := hstep connection.toEndpoint ⟨rfl, ⟨rfl, rfl⟩, trivial⟩
  refine holds_perform (hends.mono (fun _ endpoint hfixed => ?_) fun _ _ _ => waits_of_incoming_nil rfl)
  simpa only [Waits, hfixed.session.ciphertextLimit] using h

theorem Waits.start (h : connection.Waits) : connection.start.2.Waits := by
  rw [Connection.start]
  split
  · exact h
  · split
    · exact h
    · split
      · exact h.perform (Endpoint.keepsFixed_sendClientHello trivial _)
      · exact h.perform (Endpoint.keepsFixed_enter trivial)

theorem Waits.send (h : connection.Waits) (data : Bytes) : (connection.send data).2.Waits := by
  rw [Connection.send]
  split
  · exact h
  · split
    · exact h
    · exact h.perform (Endpoint.keepsFixed_sendFragmented _ _)

/-- A success has handled all whole records, and a failure drops all bytes. -/
theorem Waits.receive (h : connection.Waits) (b : Bytes) : (connection.receive b).2.Waits := by
  by_cases hready : connection.phase.TakesInput
  · have hkeeps : Endpoint.KeepsFixed connection.toEndpoint (fun _ => True)
        (Endpoint.receiveRecords (connection.arriving b)) :=
      Endpoint.keepsFixed_receiveRecords (fun _ _ => trivial) _
    cases hrun : (Endpoint.receiveRecords (connection.arriving b)).run connection.toEndpoint with
    | ok value endpoint =>
      have hfixed := hkeeps.of_ok hrun ⟨rfl, ⟨rfl, rfl⟩, trivial⟩
      rw [receive_of_ok hready hrun]
      have hrest : (Record.framing connection.session.ciphertextLimit).next (connection.arriving b).rest = .ok none :=
        Framing.next_rest_of_cut _ _ (Endpoint.fault_of_receiveRecords hrun)
      simpa only [Waits, hfixed.session.ciphertextLimit] using hrest
    | error failure endpoint =>
      rw [receive_of_error hready hrun]
      exact waits_of_incoming_nil rfl
  · rw [receive_of_not_takesInput hready]
    exact h

/-- Closing drops all bytes, and other than that an operation on the queues changes none. -/
theorem Waits.operate (h : connection.Waits) (operation : Operation) : (connection.operate operation).Waits := by
  cases operation with
  | start => exact h.start
  | receive b => exact h.receive b
  | send data => exact h.send data
  | takeOutgoing => exact h
  | read =>
    simp only [Connection.operate, Connection.read]
    split <;> exact h
  | close =>
    simp only [Connection.operate, Connection.close]
    split <;> exact waits_of_incoming_nil rfl
  | abandon => exact waits_of_incoming_nil rfl
  | reseed entropy => exact h

end Connection

/-- A connection is made with a session that has agreed on nothing, and may have a key. -/
theorem Configuration.exists_fresh {configuration : Configuration κ} {entropy : Entropy} {connection : Connection κ}
    (h : configuration.connection entropy = .ok connection) :
    ∃ side version setting session, connection = Connection.fresh side session entropy ∧
      (session = Session.fresh version (effectiveCiphertextLimit setting) configuration.provider ∨
        ∃ identity key, session =
          (Session.fresh version (effectiveCiphertextLimit setting) configuration.provider).withKey identity key) := by
  cases configuration with
  | client settings =>
    obtain rfl := Except.ok.inj h
    refine ⟨_, settings.version, settings.ciphertextSetting, _, rfl, ?_⟩
    split
    · exact .inl rfl
    · next identity key _ => exact .inr ⟨identity, key, rfl⟩
  | server settings =>
    simp only [Configuration.connection, ServerSettings.connection] at h
    split at h
    · cases h
    · obtain rfl := Except.ok.inj h
      exact ⟨_, settings.maximumVersion, settings.ciphertextSetting, _, rfl, .inl rfl⟩

theorem Configuration.incoming_connection {configuration : Configuration κ} {entropy : Entropy}
    {connection : Connection κ} (h : configuration.connection entropy = .ok connection) : connection.incoming = [] := by
  cases configuration with
  | client settings =>
    cases h
    rfl
  | server settings =>
    simp only [Configuration.connection, ServerSettings.connection] at h
    split at h
    · cases h
    · cases h
      rfl

theorem Reachable.waits {connection : Connection κ} (h : Reachable connection) : connection.Waits := by
  induction h with
  | opened hmade => exact Connection.waits_of_incoming_nil (Configuration.incoming_connection hmade)
  | operated operation _ ih => exact ih.operate operation

/-! ### What stays -/

namespace Endpoint

variable {origin endpoint : Endpoint κ}

theorem Fixed.after {α : Type} {step : Step κ α} (h : Fixed origin (fun _ => True) endpoint)
    (hstep : KeepsFixed origin (fun _ => True) step) : Fixed origin (fun _ => True) (endpoint.after step) :=
  (hstep endpoint h).after

theorem Fixed.fail (h : Fixed origin (fun _ => True) endpoint) (failure : ConnectionError) :
    Fixed origin (fun _ => True) (endpoint.fail failure) := by
  unfold Endpoint.fail
  split
  · next alert =>
    have hannounced := h.after (keepsFixed_sendRecord .alert (Alert.fatal alert).bytes)
    exact ⟨hannounced.side, hannounced.session, trivial⟩
  · exact ⟨h.side, h.session, trivial⟩

end Endpoint

namespace Connection

variable {origin : Endpoint κ} {connection : Connection κ}

theorem fixed_perform (h : origin.Fixed (fun _ => True) connection.toEndpoint) {step : Endpoint.Step κ Unit}
    (hstep : Endpoint.KeepsFixed origin (fun _ => True) step) :
    origin.Fixed (fun _ => True) (connection.perform step).2.toEndpoint :=
  holds_perform (P := fun after => origin.Fixed (fun _ => True) after.toEndpoint)
    ((hstep _ h).mono (fun _ _ => id) fun failure _ hfixed => hfixed.fail failure)

theorem fixed_operate (h : origin.Fixed (fun _ => True) connection.toEndpoint) (operation : Operation) :
    origin.Fixed (fun _ => True) (connection.operate operation).toEndpoint := by
  cases operation with
  | start =>
    simp only [operate, Connection.start]
    repeat' split
    · exact h
    · exact h
    · exact fixed_perform h (Endpoint.keepsFixed_sendClientHello trivial _)
    · exact fixed_perform h (Endpoint.keepsFixed_enter trivial)
  | receive b =>
    simp only [operate, Connection.receive]
    repeat' split
    · exact h
    · exact h
    · have harrived : origin.Fixed (fun _ => True) ({ connection with
          incoming := (connection.arriving b).rest } : Connection κ).toEndpoint := h
      exact fixed_perform harrived (Endpoint.keepsFixed_receiveRecords (fun _ _ => trivial) _)
  | send data =>
    simp only [operate, Connection.send]
    repeat' split
    · exact h
    · exact h
    · exact fixed_perform h (Endpoint.keepsFixed_sendFragmented _ _)
  | takeOutgoing => exact ⟨h.side, h.session, trivial⟩
  | read =>
    simp only [operate, Connection.read]
    split
    · exact h
    · exact ⟨h.side, h.session, trivial⟩
  | close =>
    simp only [operate, Connection.close]
    split
    · exact ⟨h.side, h.session, trivial⟩
    · have hsent := h.after (Endpoint.keepsFixed_sendRecord .alert (Alert.warning .closeNotify).bytes)
      exact ⟨hsent.side, hsent.session, trivial⟩
  | abandon => exact ⟨h.side, h.session, trivial⟩
  | reseed entropy => exact ⟨h.side, h.session, trivial⟩

/-- A run leaves side and provider as they were made. -/
theorem fixed_run (connection : Connection κ) (operations : List Operation) :
    connection.toEndpoint.Fixed (fun _ => True) (connection.run operations).toEndpoint := by
  have hall (operations : List Operation) : ∀ other : Connection κ,
      connection.toEndpoint.Fixed (fun _ => True) other.toEndpoint →
      connection.toEndpoint.Fixed (fun _ => True) (other.run operations).toEndpoint := by
    induction operations with
    | nil => exact fun _ h => h
    | cons operation rest ih => exact fun other h => ih _ (fixed_operate h operation)
  exact hall operations connection ⟨rfl, ⟨rfl, rfl⟩, trivial⟩

theorem configured_run {configuration : Configuration κ} {entropy : Entropy} {connection : Connection κ}
    (h : configuration.connection entropy = .ok connection) (operations : List Operation) :
    (connection.run operations).side.role = configuration.role ∧
      (connection.run operations).session.provider = configuration.provider := by
  have hfixed := fixed_run connection operations
  rw [hfixed.side, hfixed.session.provider]
  cases configuration with
  | client settings =>
    obtain rfl := Except.ok.inj h
    refine ⟨rfl, ?_⟩
    simp only [ClientSettings.connection]
    split <;> rfl
  | server settings =>
    simp only [Configuration.connection, ServerSettings.connection] at h
    split at h
    · cases h
    · obtain rfl := Except.ok.inj h
      exact ⟨rfl, rfl⟩

end Connection

end PresharedTls
