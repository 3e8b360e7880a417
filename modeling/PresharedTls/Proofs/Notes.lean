import PresharedTls.Proofs.Endpoint.Congruence
import PresharedTls.Proofs.Reachable

/-!
# Notes on what is done

What is done at an endpoint can be noted while it is done. The notes are kept beside the endpoint, and what is
handled is handled by the same program, in a monad whose deeds take notes. Nothing looks at the notes, so what
becomes of the endpoint is what becomes of it without them (`erases`), and the notes of a run are a function of
the run.
-/

namespace PresharedTls

open Endpoint (Step Deed Handling Congruence)

/-- Work at an endpoint that takes notes. -/
abbrev Noted (κ ν : Type) : Type → Type := EStateM ConnectionError (Endpoint κ × ν)

/-- What is noted of a deed that succeeds, and of a message that was handled. -/
class Notes (κ ν : Type) where
  deed {α : Type} : Deed κ α → (before : Endpoint κ) → (value : α) → ν → ν
  accepted : HandshakeMessage → ν → ν

namespace Noted

variable {κ ν α β : Type}

/-- A step of which nothing is noted. -/
def lift (step : Step κ α) : Noted κ ν α := fun state =>
  match step.run state.1 with
  | .ok value endpoint => .ok value (endpoint, state.2)
  | .error failure endpoint => .error failure (endpoint, state.2)

/-- A deed with its note. -/
def perform [Notes κ ν] (deed : Deed κ α) : Noted κ ν α := fun state =>
  match deed.step.run state.1 with
  | .ok value endpoint => .ok value (endpoint, Notes.deed deed state.1 value state.2)
  | .error failure endpoint => .error failure (endpoint, state.2)

instance [Notes κ ν] : Handling κ (Noted κ ν) where
  step := lift
  perform := perform
  attend message work := do
    work
    modify fun state => (state.1, Notes.accepted (κ := κ) message state.2)

/-! ### How it ends -/

section

variable {endpoint : Endpoint κ} {notes : ν} {good : α → Endpoint κ × ν → Prop}
  {bad : ConnectionError → Endpoint κ × ν → Prop}

theorem run_lift (step : Step κ α) (endpoint : Endpoint κ) (notes : ν) : (lift step).run (endpoint, notes) =
    match step.run endpoint with
    | .ok value after => .ok value (after, notes)
    | .error failure after => .error failure (after, notes) :=
  rfl

theorem ends_lift {step : Step κ α} : Ends (lift step) (endpoint, notes) good bad ↔
    Ends step endpoint (fun value after => good value (after, notes))
      fun failure after => bad failure (after, notes) := by
  unfold Ends
  rw [run_lift]
  cases step.run endpoint <;> rfl

variable [Notes κ ν]

theorem run_step (step : Step κ α) (endpoint : Endpoint κ) (notes : ν) :
    (Endpoint.step step : Noted κ ν α).run (endpoint, notes) =
      match step.run endpoint with
      | .ok value after => .ok value (after, notes)
      | .error failure after => .error failure (after, notes) :=
  rfl

theorem run_perform (deed : Deed κ α) (endpoint : Endpoint κ) (notes : ν) :
    (Endpoint.perform deed : Noted κ ν α).run (endpoint, notes) =
      match deed.step.run endpoint with
      | .ok value after => .ok value (after, Notes.deed deed endpoint value notes)
      | .error failure after => .error failure (after, notes) :=
  rfl

theorem ends_step {step : Step κ α} : Ends (Endpoint.step step : Noted κ ν α) (endpoint, notes) good bad ↔
    Ends step endpoint (fun value after => good value (after, notes)) fun failure after => bad failure (after, notes) :=
  ends_lift

theorem ends_perform {deed : Deed κ α} : Ends (Endpoint.perform deed : Noted κ ν α) (endpoint, notes) good bad ↔
    Ends deed.step endpoint (fun value after => good value (after, Notes.deed deed endpoint value notes))
      fun failure after => bad failure (after, notes) := by
  unfold Ends
  rw [run_perform]
  cases deed.step.run endpoint <;> rfl

theorem ends_get_bind {next : Endpoint κ → Noted κ ν α} :
    Ends (Endpoint.step get >>= next) (endpoint, notes) good bad ↔ Ends (next endpoint) (endpoint, notes) good bad :=
  Iff.rfl

theorem ends_set_bind {after : Endpoint κ} {next : PUnit → Noted κ ν α} :
    Ends (Endpoint.step (set after) >>= next) (endpoint, notes) good bad ↔ Ends (next ⟨⟩) (after, notes) good bad :=
  Iff.rfl

theorem ends_updateSession_bind {update : Session κ → Session κ} {next : PUnit → Noted κ ν α} :
    Ends (Endpoint.step (Endpoint.updateSession update) >>= next) (endpoint, notes) good bad ↔
      Ends (next ⟨⟩) ({ endpoint with session := update endpoint.session }, notes) good bad :=
  Iff.rfl

theorem ends_attend {message : HandshakeMessage} {work : Noted κ ν Unit} {good : Unit → Endpoint κ × ν → Prop} :
    Ends (Endpoint.attend message work) (endpoint, notes) good bad ↔
      Ends work (endpoint, notes) (fun _ state => good () (state.1, Notes.accepted (κ := κ) message state.2)) bad :=
  ends_bind

theorem ends_guard {condition : Prop} [Decidable condition] {alert : AlertDescription} {next : PUnit → Noted κ ν α}
    (hrefused : condition → bad (.sentAlert alert) (endpoint, notes))
    (hnext : ¬ condition → Ends (next ⟨⟩) (endpoint, notes) good bad) :
    Ends (if condition then Endpoint.step (Endpoint.refuse alert) >>= next else next ⟨⟩) (endpoint, notes) good bad := by
  split
  · exact hrefused ‹_›
  · exact hnext ‹_›

end

/-! ### Notes change nothing -/

/-- Work with notes does to the endpoint what the step does. -/
abbrev Erases (work : Noted κ ν α) (step : Step κ α) : Prop :=
  Corresponds (fun state endpoint => state.1 = endpoint) work step

theorem erases_lift (step : Step κ α) : Erases (ν := ν) (lift step) step := by
  rintro ⟨endpoint, notes⟩ _ rfl
  rw [ends_lift, Ends]
  cases step.run endpoint with
  | ok value after => exact ⟨after, rfl, rfl⟩
  | error failure after => exact ⟨after, rfl, rfl⟩

variable [Notes κ ν]

theorem erases_perform (deed : Deed κ α) : Erases (ν := ν) (perform deed) deed.step := by
  rintro ⟨endpoint, notes⟩ _ rfl
  refine ends_perform.mpr ?_
  rw [Ends]
  cases deed.step.run endpoint with
  | ok value after => exact ⟨after, rfl, rfl⟩
  | error failure after => exact ⟨after, rfl, rfl⟩

theorem erases_attend (message : HandshakeMessage) {work : Noted κ ν Unit} {step : Step κ Unit} (h : Erases work step) :
    Erases (Endpoint.attend message work) step := by
  rintro ⟨endpoint, notes⟩ _ rfl
  rw [ends_attend]
  exact (h _ _ rfl).mono (fun _ _ hafter => hafter) fun _ _ => id

/-- **Notes change nothing** of what is handled. -/
def erases : Congruence κ (Noted κ ν) (Step κ) where
  Rel := Erases
  pure := Corresponds.pure
  bind := Corresponds.bind
  step := erases_lift
  perform := erases_perform
  attend := erases_attend

/-- What is taken down stays as `P` says, whatever is done. -/
def keeps (P : ν → Prop)
    (hdeed : ∀ {α : Type} (deed : Deed κ α) (before : Endpoint κ) (value : α) (notes : ν), P notes →
      P (Notes.deed deed before value notes))
    (haccepted : ∀ (message : HandshakeMessage) (notes : ν), P notes → P (Notes.accepted (κ := κ) message notes)) :
    Congruence κ (Noted κ ν) (Noted κ ν) where
  Rel work _ := Keeps (fun state => P state.2) (fun state => P state.2) work
  pure := Keeps.pure
  bind := Keeps.bind
  step step := by
    rintro ⟨endpoint, notes⟩ h
    rw [ends_step, Ends]
    cases step.run endpoint <;> exact h
  perform deed := by
    rintro ⟨endpoint, notes⟩ h
    rw [ends_perform, Ends]
    cases deed.step.run endpoint with
    | ok value after => exact hdeed deed endpoint value notes h
    | error failure after => exact h
  attend message work _ hwork := by
    rintro ⟨endpoint, notes⟩ h
    rw [ends_attend]
    exact (hwork _ h).mono (fun _ state => haccepted message state.2) fun _ _ => id

omit [Notes κ ν] in
/-- Where the step ends well, the work does, with notes that are as what is done keeps them. -/
theorem ends_of_erases {work : Noted κ ν α} {step : Step κ α} {P : ν → Prop} {endpoint : Endpoint κ} {notes : ν}
    {good : α → Endpoint κ → Prop} {bad : ConnectionError → Endpoint κ → Prop} (herases : Erases work step)
    (hkeeps : Keeps (fun state => P state.2) (fun state => P state.2) work) (hnotes : P notes)
    (h : Ends step endpoint good bad) :
    Ends work (endpoint, notes) (fun value state => good value state.1 ∧ P state.2)
      fun failure state => bad failure state.1 ∧ P state.2 := by
  refine ((herases (endpoint, notes) endpoint rfl).and (hkeeps (endpoint, notes) hnotes)).mono ?_ ?_
  · rintro value ⟨after, later⟩ ⟨⟨_, hrun, rfl⟩, hlater⟩
    rw [Ends, hrun] at h
    exact ⟨h, hlater⟩
  · rintro failure ⟨after, later⟩ ⟨⟨_, hrun, rfl⟩, hlater⟩
    rw [Ends, hrun] at h
    exact ⟨h, hlater⟩

end Noted

/-! ### Runs with their notes -/

namespace Connection

variable {κ ν : Type}

def observeStep (work : Noted κ ν Unit) (connection : Connection κ) (notes : ν) : Connection κ × ν :=
  match work.run (connection.toEndpoint, notes) with
  | .ok () (endpoint, notes) => (⟨endpoint, connection.incoming⟩, notes)
  | .error failure (endpoint, notes) => (⟨endpoint.fail failure, []⟩, notes)

variable [Notes κ ν]

def observe (state : Connection κ × ν) : Operation → Connection κ × ν
  | .start =>
    if state.1.phase = .idle then
      match state.1.side with
      | .client offer => observeStep (Endpoint.sendClientHello offer) state.1 state.2
      | .server _ => observeStep (Endpoint.perform (.enter .waitHello)) state.1 state.2
    else state
  | .receive b =>
    if state.1.phase.isOver ∨ state.1.phase = .idle then state
    else
      observeStep (Endpoint.receiveRecords (state.1.arriving b))
        { state.1 with incoming := (state.1.arriving b).rest } state.2
  | operation => (state.1.operate operation, state.2)

omit [Notes κ ν] in
theorem observeStep_fst {work : Noted κ ν Unit} {step : Step κ Unit} (h : work.Erases step)
    (connection : Connection κ) (notes : ν) :
    (observeStep work connection notes).1 = (connection.perform step).2 := by
  rw [observeStep]
  cases hrun : work.run (connection.toEndpoint, notes) with
  | ok value state =>
    obtain ⟨_, hstep, rfl⟩ := h.of_ok hrun rfl
    rw [perform_of_ok hstep]
  | error failure state =>
    obtain ⟨_, hstep, rfl⟩ := h.of_error hrun rfl
    rw [perform_of_error hstep]

variable {connection : Connection κ}

omit [Notes κ ν] in
/-- What holds behind the work holds of the observed connection, which fails where the work does. -/
theorem holds_observeStep {work : Noted κ ν Unit} {notes : ν} {P : Connection κ × ν → Prop}
    (h : Ends work (connection.toEndpoint, notes) (fun _ state => P (⟨state.1, connection.incoming⟩, state.2))
      fun failure state => P (⟨state.1.fail failure, []⟩, state.2)) :
    P (observeStep work connection notes) := by
  rw [Ends] at h
  rw [observeStep]
  cases hrun : work.run (connection.toEndpoint, notes) with
  | ok value state =>
    rw [hrun] at h
    exact h
  | error failure state =>
    rw [hrun] at h
    exact h

theorem observe_start_of_client {offer : ClientOffer} (hidle : connection.phase = .idle)
    (hside : connection.side = .client offer) (notes : ν) :
    observe (connection, notes) .start = observeStep (Endpoint.sendClientHello offer) connection notes := by
  simp only [observe, hidle, if_true, hside]

theorem observe_start_of_server {policy : ServerPolicy} (hidle : connection.phase = .idle)
    (hside : connection.side = .server policy) (notes : ν) :
    observe (connection, notes) .start = observeStep (Endpoint.perform (.enter .waitHello)) connection notes := by
  simp only [observe, hidle, if_true, hside]

theorem observe_start_of_not_idle (h : connection.phase ≠ .idle) (notes : ν) :
    observe (connection, notes) .start = (connection, notes) := by
  simp only [observe, h, if_false]

theorem observe_receive_of_takesInput (hready : connection.phase.TakesInput) (b : Bytes) (notes : ν) :
    observe (connection, notes) (.receive b) = observeStep (Endpoint.receiveRecords (connection.arriving b))
      { connection with incoming := (connection.arriving b).rest } notes := by
  simp only [observe, hready.2, hready.1, if_false, Bool.false_eq_true, false_or]

theorem observe_receive_of_not_takesInput (h : ¬ connection.phase.TakesInput) (b : Bytes) (notes : ν) :
    observe (connection, notes) (.receive b) = (connection, notes) := by
  have hends : connection.phase.isOver = true ∨ connection.phase = .idle := by
    by_cases hidle : connection.phase = .idle
    · exact .inr hidle
    · exact .inl (Phase.isOver_of_not_takesInput h hidle)
  simp only [observe, hends, if_true]

/-- Observing a connection does not change what an operation does to it. -/
theorem observe_fst (state : Connection κ × ν) (operation : Operation) :
    (observe state operation).1 = state.1.operate operation := by
  obtain ⟨connection, notes⟩ := state
  cases operation with
  | start =>
    by_cases hidle : connection.phase = .idle
    · cases hside : connection.side with
      | client offer =>
        rw [observe_start_of_client hidle hside, operate, start_of_client hidle hside]
        exact observeStep_fst (Noted.erases.sendClientHello offer) connection notes
      | server policy =>
        rw [observe_start_of_server hidle hside, operate, start_of_server hidle hside]
        exact observeStep_fst (Noted.erases_perform _) connection notes
    · rw [observe_start_of_not_idle hidle, operate, start_of_not_idle hidle]
  | receive b =>
    by_cases hready : connection.phase.TakesInput
    · rw [observe_receive_of_takesInput hready, operate, receive_of_takesInput hready]
      exact observeStep_fst (Noted.erases.receiveRecords _) _ notes
    · rw [observe_receive_of_not_takesInput hready, operate, receive_of_not_takesInput hready]
  | _ => rfl

theorem fst_foldl_observe (connection : Connection κ) (notes : ν) (operations : List Operation) :
    (operations.foldl observe (connection, notes)).1 = connection.run operations := by
  induction operations generalizing connection notes with
  | nil => rfl
  | cons operation rest ih =>
    rw [List.foldl_cons, run, List.foldl_cons, ← observe_fst (connection, notes)]
    exact ih _ _

end Connection

end PresharedTls
