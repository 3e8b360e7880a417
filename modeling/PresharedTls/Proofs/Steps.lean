import PresharedTls.Endpoint.Receive

/-!
# Reasoning about steps

Steps are computations on a state that may fail. Two judgements about them are enough for all that
follows. `Keeps` is about one step: what holds before it holds after it, with a weaker condition
where it fails. `Corresponds` is about two steps on different kinds of state, which end alike and
leave related states. Both pass through sequencing, so each step is judged once, from the steps it
is made of.
-/

namespace PresharedTls

section Steps

variable {ε σ τ α β : Type}

/-- How a computation ends from a state: with a value as `good` says, or with a failure as `bad` says. -/
def Ends (step : EStateM ε σ α) (state : σ) (good : α → σ → Prop) (bad : ε → σ → Prop) : Prop :=
  match step.run state with
  | .ok value after => good value after
  | .error failure after => bad failure after

theorem ends_bind {step : EStateM ε σ α} {next : α → EStateM ε σ β} {state : σ} {good : β → σ → Prop}
    {bad : ε → σ → Prop} :
    Ends (step >>= next) state good bad ↔ Ends step state (fun value after => Ends (next value) after good bad) bad := by
  unfold Ends
  rw [EStateM.run_bind]
  cases step.run state <;> rfl

theorem Ends.mono {step : EStateM ε σ α} {state : σ} {good good' : α → σ → Prop} {bad bad' : ε → σ → Prop}
    (h : Ends step state good bad) (hgood : ∀ value after, good value after → good' value after)
    (hbad : ∀ failure after, bad failure after → bad' failure after) : Ends step state good' bad' := by
  rw [Ends] at h ⊢
  split <;> simp_all

theorem Ends.and {step : EStateM ε σ α} {state : σ} {good good' : α → σ → Prop} {bad bad' : ε → σ → Prop}
    (h : Ends step state good bad) (h' : Ends step state good' bad') :
    Ends step state (fun value after => good value after ∧ good' value after)
      fun failure after => bad failure after ∧ bad' failure after := by
  rw [Ends] at h h' ⊢
  split <;> simp_all

/-- What each item keeps is kept by all, up to the first that fails. -/
theorem ends_forM {work : β → EStateM ε σ PUnit} {P : σ → Prop} {bad : ε → σ → Prop} {items : List β}
    (hwork : ∀ item ∈ items, ∀ state, P state → Ends (work item) state (fun _ => P) bad) {state : σ} (h : P state) :
    Ends (items.forM work) state (fun _ => P) bad := by
  induction items generalizing state with
  | nil => exact h
  | cons item rest ih =>
    have hrest {after : σ} (hafter : P after) : Ends (rest.forM work) after (fun _ => P) bad :=
      ih (fun other hmem => hwork other (List.mem_cons_of_mem item hmem)) hafter
    exact ends_bind.mpr ((hwork item List.mem_cons_self state h).mono (fun _ _ => hrest) fun _ _ => id)

theorem run_bind_of_ok {step : EStateM ε σ α} {next : α → EStateM ε σ β} {state after : σ} {value : α}
    (h : step.run state = .ok value after) : (step >>= next).run state = (next value).run after := by
  rw [EStateM.run_bind, h]

theorem run_bind_of_error {step : EStateM ε σ α} {next : α → EStateM ε σ β} {state after : σ} {failure : ε}
    (h : step.run state = .error failure after) : (step >>= next).run state = .error failure after := by
  rw [EStateM.run_bind, h]

theorem run_forM_append (work : β → EStateM ε σ PUnit) (first second : List β) (state : σ) :
    ((first ++ second).forM work).run state =
      match (first.forM work).run state with
      | .ok _ state => (second.forM work).run state
      | .error failure state => .error failure state := by
  induction first generalizing state with
  | nil => rfl
  | cons item rest ih =>
    have hcons (items : List β) : (item :: items).forM work = work item >>= fun _ => items.forM work := rfl
    rw [List.cons_append, hcons, hcons, EStateM.run_bind, EStateM.run_bind]
    cases (work item).run state with
    | ok value after => exact ih after
    | error failure after => rfl

/-- A step keeps `P`, and where it fails it leaves `Q`. -/
def Keeps (P Q : σ → Prop) (step : EStateM ε σ α) : Prop :=
  ∀ state, P state → Ends step state (fun _ => P) (fun _ => Q)

namespace Keeps

variable {P Q : σ → Prop}

theorem of_ok {step : EStateM ε σ α} {state after : σ} {value : α} (hstep : Keeps P Q step)
    (hrun : step.run state = .ok value after) (h : P state) : P after := by
  simpa only [Ends, hrun] using hstep state h

theorem of_error {step : EStateM ε σ α} {state after : σ} {failure : ε} (hstep : Keeps P Q step)
    (hrun : step.run state = .error failure after) (h : P state) : Q after := by
  simpa only [Ends, hrun] using hstep state h

theorem weaken {Q' : σ → Prop} {step : EStateM ε σ α} (hstep : Keeps P Q step) (h : ∀ state, Q state → Q' state) :
    Keeps P Q' step :=
  fun state hstate => (hstep state hstate).mono (fun _ _ => id) fun _ after => h after

theorem and {P' Q' : σ → Prop} {step : EStateM ε σ α} (hstep : Keeps P Q step) (hstep' : Keeps P' Q' step) :
    Keeps (fun state => P state ∧ P' state) (fun state => Q state ∧ Q' state) step := by
  rintro state ⟨h, h'⟩
  exact (hstep state h).and (hstep' state h')

theorem pure (value : α) : Keeps P Q (Pure.pure value : EStateM ε σ α) :=
  fun _ h => h

theorem bind {step : EStateM ε σ α} {next : α → EStateM ε σ β} (hstep : Keeps P Q step)
    (hnext : ∀ value, Keeps P Q (next value)) : Keeps P Q (step >>= next) := by
  intro state h
  rw [ends_bind]
  exact (hstep state h).mono (fun value after => hnext value after) fun _ _ => id

theorem get_bind {next : σ → EStateM ε σ β} (hnext : ∀ state, P state → Keeps P Q (next state)) :
    Keeps P Q (get >>= next) :=
  fun state h => ends_bind.mpr (hnext state h state h)

theorem set {state : σ} (h : P state) : Keeps P Q (MonadStateOf.set state : EStateM ε σ PUnit) :=
  fun _ _ => h

theorem modify {change : σ → σ} (h : ∀ state, P state → P (change state)) :
    Keeps P Q (modify change : EStateM ε σ PUnit) :=
  h

theorem throw {failure : ε} (h : ∀ state, P state → Q state) :
    Keeps P Q (MonadExcept.throw failure : EStateM ε σ α) :=
  h

theorem ite {c : Prop} [Decidable c] {step other : EStateM ε σ α} (hstep : c → Keeps P Q step)
    (hother : ¬ c → Keeps P Q other) : Keeps P Q (if c then step else other) := by
  split
  · exact hstep ‹_›
  · exact hother ‹_›

theorem forM {work : β → EStateM ε σ PUnit} (h : ∀ item, Keeps P Q (work item)) (items : List β) :
    Keeps P Q (items.forM work) :=
  fun _ hstate => ends_forM (fun item _ => h item) hstate

end Keeps

/-- Two steps on related states end alike and leave related states. -/
def Corresponds (R : σ → τ → Prop) (step : EStateM ε σ α) (other : EStateM ε τ α) : Prop :=
  ∀ state state', R state state' →
    Ends step state (fun value after => ∃ after', other.run state' = .ok value after' ∧ R after after')
      (fun failure after => ∃ after', other.run state' = .error failure after' ∧ R after after')

namespace Corresponds

variable {R : σ → τ → Prop}

theorem of_ok {step : EStateM ε σ α} {other : EStateM ε τ α} {state after : σ} {state' : τ} {value : α}
    (hstep : Corresponds R step other) (hrun : step.run state = .ok value after) (h : R state state') :
    ∃ after', other.run state' = .ok value after' ∧ R after after' := by
  simpa only [Ends, hrun] using hstep state state' h

theorem of_error {step : EStateM ε σ α} {other : EStateM ε τ α} {state after : σ} {state' : τ} {failure : ε}
    (hstep : Corresponds R step other) (hrun : step.run state = .error failure after) (h : R state state') :
    ∃ after', other.run state' = .error failure after' ∧ R after after' := by
  simpa only [Ends, hrun] using hstep state state' h

theorem pure (value : α) :
    Corresponds R (Pure.pure value : EStateM ε σ α) (Pure.pure value : EStateM ε τ α) :=
  fun _ state' h => ⟨state', rfl, h⟩

theorem bind {step : EStateM ε σ α} {other : EStateM ε τ α} {next : α → EStateM ε σ β}
    {next' : α → EStateM ε τ β} (hstep : Corresponds R step other)
    (hnext : ∀ value, Corresponds R (next value) (next' value)) :
    Corresponds R (step >>= next) (other >>= next') := by
  intro state state' h
  rw [ends_bind]
  refine (hstep state state' h).mono ?_ ?_
  · rintro value after ⟨after', hother, hafter⟩
    rw [EStateM.run_bind, hother]
    exact hnext value after after' hafter
  · rintro failure after ⟨after', hother, hafter⟩
    exact ⟨after', by rw [EStateM.run_bind, hother], hafter⟩

theorem get_bind {next : σ → EStateM ε σ β} {next' : τ → EStateM ε τ β}
    (hnext : ∀ state state', R state state' → Corresponds R (next state) (next' state')) :
    Corresponds R (get >>= next) (get >>= next') := by
  intro state state' h
  rw [ends_bind]
  exact hnext state state' h state state' h

theorem set {state : σ} {state' : τ} (h : R state state') :
    Corresponds R (MonadStateOf.set state : EStateM ε σ PUnit) (MonadStateOf.set state' : EStateM ε τ PUnit) :=
  fun _ _ _ => ⟨state', rfl, h⟩

theorem throw (failure : ε) :
    Corresponds R (MonadExcept.throw failure : EStateM ε σ α) (MonadExcept.throw failure : EStateM ε τ α) :=
  fun _ state' h => ⟨state', rfl, h⟩

theorem modify {change : σ → σ} {change' : τ → τ} (h : ∀ state state', R state state' → R (change state) (change' state')) :
    Corresponds R (modify change : EStateM ε σ PUnit) (modify change' : EStateM ε τ PUnit) :=
  fun state state' related => ⟨change' state', rfl, h state state' related⟩

theorem ite {c : Prop} [Decidable c] {step₁ step₂ : EStateM ε σ α} {other₁ other₂ : EStateM ε τ α}
    (h₁ : Corresponds R step₁ other₁) (h₂ : Corresponds R step₂ other₂) :
    Corresponds R (if c then step₁ else step₂) (if c then other₁ else other₂) := by
  split
  · exact h₁
  · exact h₂

theorem forM {work : β → EStateM ε σ PUnit} {work' : β → EStateM ε τ PUnit}
    (h : ∀ item, Corresponds R (work item) (work' item)) (items : List β) :
    Corresponds R (items.forM work) (items.forM work') := by
  induction items with
  | nil => exact pure _
  | cons item rest ih => exact bind (h item) fun _ => ih

end Corresponds

end Steps

/-- What a step leaves in either case holds of the endpoint behind it. -/
theorem Ends.after {κ α : Type} {step : Endpoint.Step κ α} {endpoint : Endpoint κ} {P : Endpoint κ → Prop}
    (h : Ends step endpoint (fun _ => P) fun _ => P) : P (endpoint.after step) := by
  rw [Ends] at h
  rw [Endpoint.after]
  split at h <;> simp_all

end PresharedTls
