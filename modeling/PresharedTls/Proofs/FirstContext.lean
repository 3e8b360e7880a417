import PresharedTls.Proofs.Coherence

/-!
# The first context

An endpoint makes its first context in the middle of an operation. To speak of what the operation has done by then,
the endpoint is noted as it is when a deed makes the first context. What it has queued up to there went into records
in the clear, and these stay in front of all that the operation queues behind them.
-/

namespace PresharedTls

open Endpoint (Step Deed Congruence)

variable {κ α : Type}

namespace Session

/-- A session with a protection context. -/
def HasContext (session : Session κ) : Prop :=
  session.encrypter.isSome = true ∨ session.decrypter.isSome = true

theorem Continues.hasContext {origin session : Session κ} (h : origin.Continues session) (horigin : origin.HasContext) :
    session.HasContext := by
  rcases horigin with hencrypter | hdecrypter
  · obtain ⟨context, hcontext⟩ := Option.isSome_iff_exists.mp hencrypter
    obtain ⟨later, hlater, -⟩ := h.encrypter context hcontext
    exact .inl (hlater ▸ rfl)
  · obtain ⟨context, hcontext⟩ := Option.isSome_iff_exists.mp hdecrypter
    obtain ⟨later, hlater, -⟩ := h.decrypter context hcontext
    exact .inr (hlater ▸ rfl)

/-- A context was made. -/
def Opens (outcome : Except AlertDescription Unit × Session κ) : Prop :=
  outcome.1 = .ok () ∧ outcome.2.HasContext

end Session

/-! ### The note -/

def Endpoint.Deed.makesContext : Deed κ α → Bool
  | .createEncrypter _ | .createDecrypter _ => true
  | _ => false

/-- The endpoint as it is where its first context is made. -/
instance : Notes κ (Option (Endpoint κ)) where
  deed deed before _ noted := if deed.makesContext then noted.or (some before) else noted
  accepted _ noted := noted

/-- Work at an endpoint that notes where the first context is made. -/
abbrev Watched (κ : Type) : Type → Type :=
  Noted κ (Option (Endpoint κ))

namespace Watched

/-- What makes no context leaves the note as it is. -/
theorem deed_of_quiet {deed : Deed κ α} (h : deed.makesContext = false) (before : Endpoint κ) (value : α)
    (noted : Option (Endpoint κ)) : Notes.deed deed before value noted = noted :=
  if_neg (Bool.eq_false_iff.mp h)

/-- The first note stays. -/
def keepsNote (before : Endpoint κ) : Congruence κ (Watched κ) (Watched κ) :=
  Noted.keeps (· = some before)
    (fun deed other value noted h => by
      subst h
      show (if deed.makesContext then (some before).or (some other) else some before) = some before
      split <;> rfl)
    fun _ _ h => h

end Watched

namespace Endpoint

variable {before endpoint after : Endpoint κ} {noted : Option (Endpoint κ)}

/-- A first context was made where the endpoint was `before`, and what was queued there is in front. -/
structure Opened (before : Endpoint κ) (state : Endpoint κ × Option (Endpoint κ)) : Prop where
  noted : state.2 = some before
  context : state.1.session.HasContext
  queued : before.outgoing <+: state.1.outgoing

theorem Change.outgoing {sends : ContentType → Prop} (h : Change sends endpoint after) :
    endpoint.outgoing <+: after.outgoing := by
  cases h with
  | sent => exact List.prefix_append _ _
  | _ => exact List.prefix_rfl

theorem Opened.of_changes {sends : ContentType → Prop} (h : before.Opened (endpoint, noted))
    (hchanges : Changes sends endpoint after) : before.Opened (after, noted) :=
  hchanges.keep (P := fun endpoint => before.Opened (endpoint, noted))
    (fun _ _ hchange hopened => ⟨hopened.noted, (hchange.continues (.refl _)).hasContext hopened.context,
      hopened.queued.trans hchange.outgoing⟩) h

/-- Work that changes nothing of a first context which was made. -/
abbrev KeepsOpened (work : Watched κ α) : Prop :=
  ∀ before, Keeps (Opened before) (Opened before) work

theorem keepsOpened_of_keepsChanges {work : Watched κ α} {step : Step κ α} (herases : work.Erases step)
    (hnoted : ∀ before, Keeps (fun state => state.2 = some before) (fun state => state.2 = some before) work)
    (hchanges : ∀ origin, KeepsChanges origin step) : KeepsOpened work := by
  rintro before ⟨endpoint, noted⟩ h
  have hends := Noted.ends_of_erases (P := (· = some before)) herases (hnoted before) h.noted
    (hchanges endpoint endpoint .refl)
  refine hends.mono ?_ ?_
  · rintro _ ⟨after, later⟩ ⟨hafter, hlater⟩
    obtain rfl : noted = later := h.noted.trans hlater.symm
    exact h.of_changes hafter
  · rintro _ ⟨after, later⟩ ⟨hafter, hlater⟩
    obtain rfl : noted = later := h.noted.trans hlater.symm
    exact h.of_changes hafter

theorem keepsOpened_enter (phase : Phase) : KeepsOpened (κ := κ) (Endpoint.perform (.enter phase)) :=
  keepsOpened_of_keepsChanges (Noted.erases.perform _) (fun before => (Watched.keepsNote before).perform _)
    fun _ => keepsChanges_enter phase

theorem keepsOpened_sendFinished : KeepsOpened (κ := κ) sendFinished :=
  keepsOpened_of_keepsChanges Noted.erases.sendFinished (fun before => (Watched.keepsNote before).sendFinished)
    fun _ => keepsChanges_sendFinished

theorem keepsOpened_finish : KeepsOpened (κ := κ) finish :=
  keepsOpened_of_keepsChanges Noted.erases.finish (fun before => (Watched.keepsNote before).finish)
    fun _ => keepsChanges_finish

theorem keepsOpened_takeMessage (message : HandshakeMessage) : KeepsOpened (κ := κ) (takeMessage message) :=
  keepsOpened_of_keepsChanges (Noted.erases.takeMessage message)
    (fun before => (Watched.keepsNote before).takeMessage message) fun _ => keepsChanges_takeMessage message

theorem keepsOpened_receiveRecord (record : Record) : KeepsOpened (κ := κ) (receiveRecord record) :=
  keepsOpened_of_keepsChanges (Noted.erases.receiveRecord record)
    (fun before => (Watched.keepsNote before).receiveRecord record) fun _ => keepsChanges_receiveRecord record

theorem keepsOpened_forM_refuse (fault : Option AlertDescription) :
    KeepsOpened (κ := κ) (Endpoint.step (fault.forM refuse)) := by
  cases fault with
  | none => exact fun _ => Keeps.pure _
  | some alert => exact fun _ _ h => h

/-- Where a deed makes a context for an endpoint without a note, that is the first one. -/
theorem opened_perform {deed : Deed κ Unit} {work : Session κ → Except AlertDescription Unit × Session κ}
    (hdeed : deed.step = onSession work) (hmakes : deed.makesContext = true) (h : Session.Opens (work endpoint.session)) :
    Ends (Endpoint.perform deed : Watched κ Unit) (endpoint, none) (fun _ => endpoint.Opened)
      fun _ => endpoint.Opened := by
  rw [Noted.ends_perform, hdeed]
  refine ends_onSession (fun value _ => ⟨if_pos hmakes, h.2, List.prefix_rfl⟩) fun alert herror => ?_
  cases h.1.symm.trans herror

end Endpoint

namespace Connection

/-- A run, with the endpoint as it was when its first context was made of it, if one was made. -/
def watched (connection : Connection κ) (operations : List Operation) : Connection κ × Option (Endpoint κ) :=
  operations.foldl observe (connection, none)

theorem watched_fst (connection : Connection κ) (operations : List Operation) :
    (connection.watched operations).1 = connection.run operations :=
  fst_foldl_observe connection none operations

theorem watched_concat {connection : Connection κ} {earlier : List Operation} (h : (connection.watched earlier).2 = none)
    (operation : Operation) :
    connection.watched (earlier ++ [operation]) = observe (connection.run earlier, none) operation := by
  have hearlier : earlier.foldl observe (connection, none) = (connection.run earlier, none) :=
    Prod.ext (connection.watched_fst earlier) h
  rw [watched, List.foldl_append, hearlier]
  rfl

end Connection

end PresharedTls
