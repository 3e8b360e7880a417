import PresharedTls.Proofs.Coherence
import PresharedTls.Proofs.Endpoint.Assertions

/-!
# Assertions along a run

The operations on a connection are written down once more, as they go where assertions are checked. An
operation in which one does not hold comes to nothing. Of a connection that can be made all of them hold, whatever
is done to it and whatever arrives (`Configuration.runAsserted_eq`).
-/

namespace PresharedTls

variable {κ : Type}

namespace Connection

/-- An operation as its caller sees it: what it says of its success, and the connection behind it. -/
def outcome (connection : Connection κ) : Operation → Except ConnectionError Unit × Connection κ
  | .start => connection.start
  | .receive b => connection.receive b
  | .send data => connection.send data
  | operation => (.ok (), connection.operate operation)

theorem outcome_snd (connection : Connection κ) (operation : Operation) :
    (connection.outcome operation).2 = connection.operate operation := by
  cases operation <;> rfl

/-- What the operations of a run say of their success. -/
def results (connection : Connection κ) : List Operation → List (Except ConnectionError Unit)
  | [] => []
  | operation :: rest => (connection.outcome operation).1 :: (connection.operate operation).results rest

/-! ### The operations, with their assertions -/

/-- Runs a step, and the end that its failure is. -/
def attempt (asserted : Asserted κ Unit) (connection : Connection κ) : Option (Except ConnectionError Unit × Connection κ) :=
  match asserted.run connection.toEndpoint with
  | .ok () endpoint => some (.ok (), ⟨endpoint, connection.incoming⟩)
  | .error none _ => none
  | .error (some failure) endpoint =>
    match (Asserted.fail failure).run endpoint with
    | .ok () after => some (.error failure, ⟨after, []⟩)
    | .error _ _ => none

def abandonAsserted (connection : Connection κ) : Option (Connection κ) :=
  match (Asserted.ensure .closed).run connection.toEndpoint with
  | .ok () endpoint => some ⟨{ endpoint with handshake := [] }, []⟩
  | .error _ _ => none

def closeAsserted (connection : Connection κ) : Option (Connection κ) :=
  if connection.phase.isOver ∨ connection.phase = .idle then connection.abandonAsserted
  else
    let endpoint := connection.toEndpoint.after (Endpoint.sendRecord .alert (Alert.warning .closeNotify).bytes)
    abandonAsserted ⟨endpoint, connection.incoming⟩

def operateAsserted (connection : Connection κ) : Operation → Option (Except ConnectionError Unit × Connection κ)
  | .start =>
    if connection.phase.isOver then some (.error .closed, connection)
    else if connection.phase ≠ .idle then some (.error .alreadyStarted, connection)
    else
      match connection.side with
      | .client offer => connection.attempt (Endpoint.sendClientHello offer)
      | .server _ => connection.attempt (Endpoint.perform (.enter .waitHello))
  | .receive b =>
    if connection.phase.isOver then some (.error .closed, connection)
    else if connection.phase = .idle then some (.error .notStarted, connection)
    else
      attempt (Endpoint.receiveRecords (connection.arriving b)) { connection with incoming := (connection.arriving b).rest }
  | .send data =>
    if connection.phase.isOver then some (.error .closed, connection)
    else if ¬ connection.session.handshakeDone then some (.error .notConnected, connection)
    else connection.attempt (Endpoint.step (Endpoint.sendFragmented .applicationData data))
  | .close => connection.closeAsserted.map (.ok (), ·)
  | .abandon => connection.abandonAsserted.map (.ok (), ·)
  | operation => some (connection.outcome operation)

/-- A run with what its operations say, unless an assertion fails. -/
def runAsserted (connection : Connection κ) : List Operation → Option (List (Except ConnectionError Unit) × Connection κ)
  | [] => some ([], connection)
  | operation :: rest => do
    let (result, after) ← connection.operateAsserted operation
    let (results, final) ← after.runAsserted rest
    return (result :: results, final)

/-! ### All assertions hold -/

variable {connection : Connection κ} {data : List Bytes}

theorem attempt_of_agrees {P : Endpoint κ → Prop} {asserted : Asserted κ Unit} {step : Endpoint.Step κ Unit}
    (h : Asserted.Agrees P asserted step) (hendpoint : P connection.toEndpoint) :
    connection.attempt asserted = some (connection.perform step) := by
  rw [attempt, h connection.toEndpoint hendpoint, Asserted.run_lift]
  cases hstep : step.run connection.toEndpoint with
  | ok value endpoint => exact congrArg some (perform_of_ok hstep).symm
  | error failure endpoint =>
    simp only [Asserted.run_fail]
    exact congrArg some (perform_of_error hstep).symm

theorem abandonAsserted_eq (connection : Connection κ) : connection.abandonAsserted = some connection.abandon := by
  rw [abandonAsserted, Asserted.run_ensure]
  rfl

theorem closeAsserted_eq (connection : Connection κ) : connection.closeAsserted = some connection.close := by
  rw [closeAsserted, Connection.close]
  split <;> exact abandonAsserted_eq _

theorem operateAsserted_start (h : connection.Orderly data) : connection.operateAsserted .start = some connection.start := by
  rw [operateAsserted, Connection.start]
  split
  · rfl
  · next hlive =>
    split
    · rfl
    · next hidle =>
      have hinOrder := h.inOrder (Bool.eq_false_iff.mpr hlive)
      have hat : Asserted.At .idle connection.toEndpoint :=
        Asserted.at_of_inOrder hinOrder (Decidable.not_not.mp hidle) (by decide)
      cases connection.side with
      | client offer => exact attempt_of_agrees (Asserted.agrees_sendClientHello offer) hat
      | server policy => exact attempt_of_agrees (Asserted.agrees_enter_at (by decide)) hat

theorem operateAsserted_receive (h : connection.Orderly data) (b : Bytes) :
    connection.operateAsserted (.receive b) = some (connection.receive b) := by
  rw [operateAsserted, Connection.receive]
  split
  · rfl
  · next hlive =>
    split
    · rfl
    · next hidle =>
      have hgoes : connection.phase.isOver = false := Bool.eq_false_iff.mpr hlive
      have hall : Asserted.Live data connection.toEndpoint := ⟨h.inOrder hgoes, hidle, hgoes⟩
      exact @attempt_of_agrees _ { connection with incoming := _ } _ _ _ (Asserted.agrees_receiveRecords _) hall

theorem operateAsserted_send (connection : Connection κ) (b : Bytes) :
    connection.operateAsserted (.send b) = some (connection.send b) := by
  rw [operateAsserted, Connection.send]
  split
  · rfl
  · split
    · rfl
    · exact @attempt_of_agrees _ _ (fun _ => True) _ _ (Asserted.agrees_step _) trivial

/-- What is done to a connection in order is the same with assertions and without. -/
theorem operateAsserted_eq (h : connection.Orderly data) (operation : Operation) :
    connection.operateAsserted operation = some (connection.outcome operation) := by
  cases operation with
  | start => exact operateAsserted_start h
  | receive b => exact operateAsserted_receive h b
  | send b => exact operateAsserted_send connection b
  | close =>
    rw [operateAsserted, closeAsserted_eq]
    rfl
  | abandon =>
    rw [operateAsserted, abandonAsserted_eq]
    rfl
  | _ => rfl

theorem Orderly.runAsserted_eq (h : connection.Orderly data) (operations : List Operation) :
    connection.runAsserted operations = some (connection.results operations, connection.run operations) := by
  induction operations generalizing connection data with
  | nil => rfl
  | cons operation rest ih =>
    have hrest := ih (h.operate operation)
    rw [runAsserted, operateAsserted_eq h operation]
    show (((connection.outcome operation).2.runAsserted rest).bind fun _ => _) = _
    rw [outcome_snd, hrest]
    rfl

end Connection

/-- **No assertion fails.** Whatever is done to a connection and whatever arrives, no operation enters the phase that
the connection is in, and none finishes the handshake twice. -/
theorem Configuration.runAsserted_eq {configuration : Configuration κ} {entropy : Entropy} {connection : Connection κ}
    (hmade : configuration.connection entropy = .ok connection) (operations : List Operation) :
    connection.runAsserted operations = some (connection.results operations, connection.run operations) :=
  (orderly hmade).runAsserted_eq operations

end PresharedTls
