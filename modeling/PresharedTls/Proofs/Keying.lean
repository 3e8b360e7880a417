import PresharedTls.Proofs.Assertions
import PresharedTls.Proofs.Endpoint.Keying
import PresharedTls.Proofs.Outcome
import PresharedTls.Proofs.Streaming

/-!
# Nothing depends on the key before there are contexts

Two connections that are made from the same settings but for the keys, and to which the same is done, give
the same back and are in the same state, but for the keys, until one of them makes its first context. The
other makes its first in the same operation, and also in that one all is the same up to where the context is
made (`Configuration.alike_run`). So nothing that is sent before, a client's identity and ChangeCipherSpec
included, says anything of the key.
-/

namespace PresharedTls

variable {κ : Type} {provider : Provider κ}

/-- What an operation gives back to its caller. -/
inductive Reply where
  | done (result : Except ConnectionError Unit)
  | bytes (b : Bytes)
  | data (data : Option Bytes)

namespace Connection

def reply (connection : Connection κ) : Operation → Reply
  | .takeOutgoing => .bytes connection.takeOutgoing.1
  | .read => .data connection.read.1
  | operation => .done (connection.outcome operation).1

/-- What the operations of a run give back, one after the other. -/
def replies (connection : Connection κ) : List Operation → List Reply
  | [] => []
  | operation :: rest => connection.reply operation :: (connection.operate operation).replies rest

theorem replies_concat (connection : Connection κ) (operations : List Operation) (operation : Operation) :
    connection.replies (operations ++ [operation]) =
      connection.replies operations ++ [(connection.run operations).reply operation] := by
  induction operations generalizing connection with
  | nil => rfl
  | cons first rest ih =>
    rw [List.cons_append, replies, ih, replies]
    rfl

/-- Two connections that differ in their keys at most, and have made no contexts of them. -/
structure Twins (provider : Provider κ) (connection connection' : Connection κ) : Prop where
  endpoint : connection.toEndpoint.Twins provider connection'.toEndpoint
  incoming : connection'.incoming = connection.incoming

/-! ### Operations -/

/-- Two observed connections without contexts that differ in their keys at most. -/
def Unkeyed (provider : Provider κ) (state state' : Connection κ × Option (Endpoint κ)) : Prop :=
  state.1.Twins provider state'.1 ∧ state.2 = none ∧ state'.2 = none

/-- Two observed connections that have made their first contexts. Where each made it they differed in their keys at
most, and what they had queued there is in front. -/
def OpenAlike (provider : Provider κ) (state state' : Connection κ × Option (Endpoint κ)) : Prop :=
  ∃ before before' : Endpoint κ, before.Twins provider before' ∧
    before.Opened (state.1.toEndpoint, state.2) ∧ before'.Opened (state'.1.toEndpoint, state'.2)

/-- Two replies and what is behind them: the same but for the keys, or two first contexts. -/
def Alike (provider : Provider κ) (reply reply' : Reply) (state state' : Connection κ × Option (Endpoint κ)) : Prop :=
  reply' = reply ∧ Unkeyed provider state state' ∨ OpenAlike provider state state'

variable {connection connection' : Connection κ}

theorem OpenAlike.hasContext {state state' : Connection κ × Option (Endpoint κ)} (h : OpenAlike provider state state') :
    state.1.session.HasContext ∧ state'.1.session.HasContext := by
  obtain ⟨before, before', -, hopened, hopened'⟩ := h
  exact ⟨hopened.context, hopened'.context⟩

end Connection

namespace Endpoint

variable {endpoint endpoint' : Endpoint κ}

theorem Twins.after {step step' : Step κ Unit} (htwins : endpoint.Twins provider endpoint') (hstep : Agree provider step step') :
    (endpoint.after step).Twins provider (endpoint'.after step') := by
  have hends := hstep endpoint endpoint' htwins
  rw [Ends] at hends
  rw [Endpoint.after, Endpoint.after]
  cases hrun : step.run endpoint with
  | ok value between =>
    rw [hrun] at hends
    obtain ⟨between', hrun', htwins'⟩ := hends
    rwa [hrun']
  | error failure failed =>
    rw [hrun] at hends
    obtain ⟨failed', hrun', htwins'⟩ := hends
    rwa [hrun']

theorem Twins.entering (htwins : endpoint.Twins provider endpoint') (phase : Phase) :
    Twins provider { endpoint with phase := phase } { endpoint' with phase := phase } := by
  obtain ⟨side, key, hside, hkey, hclear, hprovider⟩ := htwins
  exact .intro _ _ hside hkey hclear hprovider

theorem Twins.fail (htwins : endpoint.Twins provider endpoint') (failure : ConnectionError) :
    (endpoint.fail failure).Twins provider (endpoint'.fail failure) := by
  cases failure with
  | sentAlert alert => exact (htwins.after (agree_sendRecord .alert (Alert.fatal alert).bytes)).entering .error
  | _ => exact htwins.entering .error

end Endpoint

namespace Connection

variable {connection connection' : Connection κ}

theorem opened_observeStep {work : Watched κ Unit} {before : Endpoint κ} {noted : Option (Endpoint κ)}
    (h : Ends work (connection.toEndpoint, noted) (fun _ => before.Opened) fun _ => before.Opened) :
    before.Opened ((observeStep work connection noted).1.toEndpoint, (observeStep work connection noted).2) := by
  refine holds_observeStep (P := fun state => before.Opened (state.1.toEndpoint, state.2)) (h.mono (fun _ _ => id) ?_)
  exact fun failure state hopened => Endpoint.Opened.of_changes hopened (state.1.changes_fail failure)

theorem alike_observeStep {work work' : Watched κ Unit} {step step' : Endpoint.Step κ Unit} (hstep : work.Erases step)
    (hstep' : work'.Erases step') (htwins : connection.Twins provider connection')
    (hwork : Endpoint.Parallel provider work work') :
    Alike provider (.done (connection.perform step).1) (.done (connection'.perform step').1)
      (observeStep work connection none) (observeStep work' connection' none) := by
  rcases hwork (connection.toEndpoint, none) (connection'.toEndpoint, none) ⟨htwins.endpoint, rfl, rfl⟩ with
    hends | ⟨before, before', hbefore, hopened, hopened'⟩
  · rw [Endpoint.EndsAlike, Ends] at hends
    cases hrun : work.run (connection.toEndpoint, none) with
    | ok value state =>
      rw [hrun] at hends
      obtain ⟨state', hrun', hafter, hnone, hnone'⟩ := hends
      obtain ⟨_, hplain, -⟩ := hstep.of_ok hrun rfl
      obtain ⟨_, hplain', -⟩ := hstep'.of_ok hrun' rfl
      rw [perform_of_ok hplain, perform_of_ok hplain', observeStep, observeStep, hrun, hrun']
      exact .inl ⟨rfl, ⟨hafter, htwins.incoming⟩, hnone, hnone'⟩
    | error failure state =>
      rw [hrun] at hends
      obtain ⟨state', hrun', hafter, hnone, hnone'⟩ := hends
      obtain ⟨_, hplain, -⟩ := hstep.of_error hrun rfl
      obtain ⟨_, hplain', -⟩ := hstep'.of_error hrun' rfl
      rw [perform_of_error hplain, perform_of_error hplain', observeStep, observeStep, hrun, hrun']
      exact .inl ⟨rfl, ⟨hafter.fail failure, rfl⟩, hnone, hnone'⟩
  · exact .inr ⟨before, before', hbefore, opened_observeStep hopened, opened_observeStep hopened'⟩

/-- A context that was made stays, whatever is done next. -/
theorem hasContext_run (h : connection.session.HasContext) (operations : List Operation) :
    (connection.run operations).session.HasContext :=
  (connection.session_run (fun _ _ => Endpoint.Change.continues) (.refl _) operations).hasContext h

section

variable (htwins : connection.Twins provider connection')
include htwins

theorem Twins.eq : ∃ side key, connection.side.Twins side ∧ KeysAlike connection.session.key key ∧
    ¬ connection.session.HasContext ∧ connection.session.provider = provider ∧
    connection' = ⟨connection.toEndpoint.twin side key, connection.incoming⟩ := by
  obtain ⟨endpoint', incoming'⟩ := connection'
  obtain ⟨⟨side, key, hside, hkey, hclear, hprovider⟩, hincoming⟩ := htwins
  obtain rfl : incoming' = connection.incoming := hincoming
  exact ⟨side, key, hside, hkey, hclear, hprovider, rfl⟩

theorem Twins.phase : connection'.phase = connection.phase := by
  obtain ⟨side, key, -, -, -, -, rfl⟩ := htwins.eq
  rfl

theorem Twins.side : connection.side.Twins connection'.side := by
  obtain ⟨side, key, hside, -, -, -, rfl⟩ := htwins.eq
  exact hside

theorem Twins.handshakeDone : connection'.session.handshakeDone = connection.session.handshakeDone := by
  obtain ⟨side, key, -, -, -, -, rfl⟩ := htwins.eq
  rfl

theorem Twins.arriving (b : Bytes) : connection'.arriving b = connection.arriving b := by
  obtain ⟨side, key, -, -, -, -, rfl⟩ := htwins.eq
  rfl

theorem Twins.perform {step step' : Endpoint.Step κ Unit} (hstep : Endpoint.Agree provider step step') :
    (connection'.perform step').1 = (connection.perform step).1 ∧
      (connection.perform step).2.Twins provider (connection'.perform step').2 := by
  have hends := hstep _ _ htwins.endpoint
  rw [Ends] at hends
  cases hrun : step.run connection.toEndpoint with
  | ok value endpoint =>
    rw [hrun] at hends
    obtain ⟨endpoint', hrun', hafter⟩ := hends
    rw [perform_of_ok hrun, perform_of_ok hrun']
    exact ⟨rfl, hafter, htwins.incoming⟩
  | error failure endpoint =>
    rw [hrun] at hends
    obtain ⟨endpoint', hrun', hafter⟩ := hends
    rw [perform_of_error hrun, perform_of_error hrun']
    exact ⟨rfl, hafter.fail failure, rfl⟩

theorem alike_start : Alike provider (.done connection.start.1) (.done connection'.start.1)
    (observe (connection, none) .start) (observe (connection', none) .start) := by
  by_cases hidle : connection.phase = .idle
  · have hidle' : connection'.phase = .idle := htwins.phase.trans hidle
    have hside := htwins.side
    cases hown : connection.side with
    | client offer =>
      rw [hown] at hside
      generalize hother : connection'.side = side at hside
      cases hside
      rw [start_of_client hidle hown, start_of_client hidle' hother,
        observe_start_of_client hidle hown, observe_start_of_client hidle' hother]
      exact alike_observeStep (Noted.erases.sendClientHello offer) (Noted.erases.sendClientHello offer) htwins
        (Endpoint.concur_sendClientHello offer).parallel
    | server policy =>
      rw [hown] at hside
      generalize hother : connection'.side = side at hside
      cases hside
      rw [start_of_server hidle hown, start_of_server hidle' hother,
        observe_start_of_server hidle hown, observe_start_of_server hidle' hother]
      exact alike_observeStep (Noted.erases.perform _) (Noted.erases.perform _) htwins
        (Endpoint.concur_enter .waitHello).parallel
  · have hidle' : ¬ connection'.phase = .idle := htwins.phase ▸ hidle
    have hresult : connection'.start.1 = connection.start.1 := by
      rw [Connection.start, Connection.start, htwins.phase, if_pos hidle, if_pos hidle]
      split <;> rfl
    rw [observe_start_of_not_idle hidle, observe_start_of_not_idle hidle']
    exact .inl ⟨congrArg Reply.done hresult, htwins, rfl, rfl⟩

theorem alike_receive (heven : provider.Evenhanded) (b : Bytes) :
    Alike provider (.done (connection.receive b).1) (.done (connection'.receive b).1)
      (observe (connection, none) (.receive b)) (observe (connection', none) (.receive b)) := by
  by_cases hready : connection.phase.TakesInput
  · have hready' : connection'.phase.TakesInput := htwins.phase ▸ hready
    rw [receive_of_takesInput hready, receive_of_takesInput hready',
      observe_receive_of_takesInput hready, observe_receive_of_takesInput hready', htwins.arriving]
    exact alike_observeStep (Noted.erases.receiveRecords _) (Noted.erases.receiveRecords _) ⟨htwins.endpoint, rfl⟩
      (Endpoint.parallel_receiveRecords heven _)
  · have hready' : ¬ connection'.phase.TakesInput := htwins.phase ▸ hready
    have hresult : (connection'.receive b).1 = (connection.receive b).1 := by
      by_cases hidle : connection.phase = .idle
      · rw [receive_of_idle hidle, receive_of_idle (htwins.phase.trans hidle)]
      · have hover := Phase.isOver_of_not_takesInput hready hidle
        rw [receive_of_isOver hover, receive_of_isOver (htwins.phase ▸ hover)]
    rw [observe_receive_of_not_takesInput hready, observe_receive_of_not_takesInput hready']
    exact .inl ⟨congrArg Reply.done hresult, htwins, rfl, rfl⟩

theorem Twins.send (data : Bytes) : (connection'.send data).1 = (connection.send data).1 ∧
    (connection.send data).2.Twins provider (connection'.send data).2 := by
  rw [Connection.send, Connection.send, htwins.phase, htwins.handshakeDone]
  by_cases hover : connection.phase.isOver = true
  · rw [if_pos hover, if_pos hover]
    exact ⟨rfl, htwins⟩
  rw [if_neg hover, if_neg hover]
  by_cases hdone : connection.session.handshakeDone = true
  · rw [if_neg (not_not_intro hdone), if_neg (not_not_intro hdone)]
    exact htwins.perform (Endpoint.agree_sendFragmented .applicationData data)
  · rw [if_pos hdone, if_pos hdone]
    exact ⟨rfl, htwins⟩

theorem Twins.abandon : connection.abandon.Twins provider connection'.abandon := by
  obtain ⟨side, key, hside, hkey, hclear, hprovider, rfl⟩ := htwins.eq
  exact ⟨.intro _ _ hside hkey hclear hprovider, rfl⟩

theorem Twins.close : connection.close.Twins provider connection'.close := by
  have hsent := htwins.endpoint.after (Endpoint.agree_sendRecord .alert (Alert.warning .closeNotify).bytes)
  have habandoned := @Twins.abandon _ _ ⟨_, connection.incoming⟩ ⟨_, connection.incoming⟩ ⟨hsent, rfl⟩
  obtain ⟨side, key, -, -, -, -, rfl⟩ := htwins.eq
  show Twins provider (if connection.phase.isOver = true ∨ connection.phase = .idle then _ else _)
    (if connection.phase.isOver = true ∨ connection.phase = .idle then _ else _)
  split
  · exact htwins.abandon
  · exact habandoned

theorem Twins.read : connection'.read.1 = connection.read.1 ∧ connection.read.2.Twins provider connection'.read.2 := by
  obtain ⟨side, key, hside, hkey, hclear, hprovider, rfl⟩ := htwins.eq
  rw [Connection.read, Connection.read]
  dsimp only [Endpoint.twin]
  split
  · exact ⟨rfl, htwins⟩
  · exact ⟨rfl, .intro _ _ hside hkey hclear hprovider, rfl⟩

/-- An operation gives the same back at both and leaves them twins, or it makes a context at both. -/
theorem Twins.operate (heven : provider.Evenhanded) (operation : Operation) :
    Alike provider (connection.reply operation) (connection'.reply operation)
      (observe (connection, none) operation) (observe (connection', none) operation) := by
  cases operation with
  | start => exact alike_start htwins
  | receive b => exact alike_receive htwins heven b
  | send data => exact .inl ⟨congrArg Reply.done (htwins.send data).1, (htwins.send data).2, rfl, rfl⟩
  | read => exact .inl ⟨congrArg Reply.data htwins.read.1, htwins.read.2, rfl, rfl⟩
  | close => exact .inl ⟨rfl, htwins.close, rfl, rfl⟩
  | abandon => exact .inl ⟨rfl, htwins.abandon, rfl, rfl⟩
  | takeOutgoing =>
    obtain ⟨side, key, hside, hkey, hclear, hprovider, rfl⟩ := htwins.eq
    exact .inl ⟨rfl, ⟨.intro _ _ hside hkey hclear hprovider, rfl⟩, rfl, rfl⟩
  | reseed entropy =>
    obtain ⟨side, key, hside, hkey, hclear, hprovider, rfl⟩ := htwins.eq
    exact .inl ⟨rfl, ⟨.intro _ _ hside hkey hclear hprovider, rfl⟩, rfl, rfl⟩

/-! ### Runs -/

/-- A run leaves twins that have noted nothing, or a context at both. -/
theorem Twins.run (heven : provider.Evenhanded) (operations : List Operation) :
    (connection'.replies operations = connection.replies operations ∧
      Unkeyed provider (connection.watched operations) (connection'.watched operations)) ∨
    (connection.run operations).session.HasContext ∧ (connection'.run operations).session.HasContext := by
  induction operations using List.reverseRecOn with
  | nil => exact .inl ⟨rfl, htwins, rfl, rfl⟩
  | append_singleton earlier operation ih =>
    rcases ih with ⟨hreplies, hunkeyed, hnone, hnone'⟩ | ⟨hcontext, hcontext'⟩
    · rw [watched_fst, watched_fst] at hunkeyed
      have halike := hunkeyed.operate heven operation
      rw [← watched_concat hnone, ← watched_concat hnone'] at halike
      rcases halike with ⟨hreply, hafter⟩ | hopen
      · rw [replies_concat, replies_concat, hreply, hreplies]
        exact .inl ⟨rfl, hafter⟩
      · rw [← watched_fst, ← watched_fst]
        exact .inr hopen.hasContext
    · rw [run_append, run_append]
      exact .inr ⟨hasContext_run hcontext [operation], hasContext_run hcontext' [operation]⟩

/-- In the operation that makes the first contexts all is the same up to where they are made. -/
theorem Twins.opened (heven : provider.Evenhanded) {earlier : List Operation} {operation : Operation}
    (hclear : ¬ (connection.run earlier).session.HasContext)
    (hcontext : (connection.run (earlier ++ [operation])).session.HasContext) :
    OpenAlike provider (connection.watched (earlier ++ [operation])) (connection'.watched (earlier ++ [operation])) := by
  rcases htwins.run heven earlier with ⟨-, hunkeyed, hnone, hnone'⟩ | ⟨hearly, -⟩
  · rw [watched_fst, watched_fst] at hunkeyed
    have halike := hunkeyed.operate heven operation
    rw [← watched_concat hnone, ← watched_concat hnone'] at halike
    rcases halike with ⟨-, hstill, -⟩ | hopen
    · obtain ⟨side, key, -, -, hnever, -, -⟩ := hstill.eq
      rw [watched_fst] at hnever
      exact absurd hcontext hnever
    · exact hopen
  · exact absurd hearly hclear

end

end Connection

/-! ### Settings -/

/-- Credentials for the same identity, or none. -/
inductive CredentialsAlike : Option (Bytes × Bytes) → Option (Bytes × Bytes) → Prop
  | none : CredentialsAlike none none
  | some (identity : Bytes) {key other : Bytes} (h : key.length ≤ 65535) (hother : other.length ≤ 65535) :
    CredentialsAlike (some (identity, key)) (some (identity, other))

/-- Two configurations that differ in the bytes of keys only: a client's for the same identity, or a server's for the
same identities, wherever it looks them up. -/
inductive Configuration.SameButKeys : Configuration κ → Configuration κ → Prop
  | client (settings : ClientSettings κ) {credentials : Option (Bytes × Bytes)}
      (h : CredentialsAlike settings.credentials credentials) :
      SameButKeys (.client settings) (.client { settings with credentials := credentials })
  | server (settings : ServerSettings κ) {keys : KeyTable} {resolver : Option (Bytes → Option Bytes)}
      (h : ∀ identity, KeysAlike (settings.resolve identity)
        ({ settings with keys := keys, resolver := resolver }.resolve identity)) :
      SameButKeys (.server settings) (.server { settings with keys := keys, resolver := resolver })

/-- What is the same of two connections as long as there are no contexts, when `operations` are done to both. -/
structure Connection.AlikeUntilKeyed (provider : Provider κ) (operations : List Operation)
    (connection connection' : Connection κ) : Prop where
  /-- The same operation makes the first context of each. -/
  together : (connection.run operations).session.HasContext ↔ (connection'.run operations).session.HasContext
  replies : ¬ (connection.run operations).session.HasContext → connection'.replies operations = connection.replies operations
  /-- Phases, queues, sessions and all else are the same, but for the keys. -/
  twins : ¬ (connection.run operations).session.HasContext →
    (connection.run operations).Twins provider (connection'.run operations)
  /-- So are they within the operation that makes the first contexts, up to where it makes them. What is queued there,
  in the clear, stays in front of all that the operation queues. -/
  opened : ∀ earlier operation, operations = earlier ++ [operation] → ¬ (connection.run earlier).session.HasContext →
    (connection.run operations).session.HasContext →
      Connection.OpenAlike provider (connection.watched operations) (connection'.watched operations)

theorem Configuration.SameButKeys.exists_twins {configuration configuration' : Configuration κ}
    (hsame : configuration.SameButKeys configuration') {entropy : Entropy} {connection : Connection κ}
    (hmade : configuration.connection entropy = .ok connection) :
    ∃ connection', configuration'.connection entropy = .ok connection' ∧ connection.Twins configuration.provider connection' := by
  cases hsame with
  | client settings h =>
    obtain rfl := Except.ok.inj hmade
    refine ⟨_, rfl, ?_, rfl⟩
    obtain ⟨provider, credentials, suites, suites_ne_nil, version⟩ := settings
    cases h with
    | none => exact .intro _ _ (.client _) .missing (Session.not_hasContext rfl rfl) rfl
    | some identity hkey hother => exact .intro _ _ (.client _) (.known hkey hother) (Session.not_hasContext rfl rfl) rfl
  | server settings h =>
    simp only [Configuration.connection, ServerSettings.connection] at hmade ⊢
    split at hmade
    · cases hmade
    · next hrange =>
      obtain rfl := Except.ok.inj hmade
      rw [if_neg hrange]
      exact ⟨_, rfl, .intro _ _ (.server _ h) .missing (Session.not_hasContext rfl rfl) rfl, rfl⟩

/-- **Before there are contexts nothing depends on the key.** -/
theorem Configuration.alike_run {configuration configuration' : Configuration κ} (hsame : configuration.SameButKeys configuration')
    (heven : configuration.provider.Evenhanded) {entropy : Entropy} {connection : Connection κ}
    (hmade : configuration.connection entropy = .ok connection) :
    ∃ connection', configuration'.connection entropy = .ok connection' ∧
      ∀ operations, connection.AlikeUntilKeyed configuration.provider operations connection' := by
  obtain ⟨connection', hmade', htwins⟩ := hsame.exists_twins hmade
  refine ⟨connection', hmade', fun operations => ?_⟩
  have hopened (earlier : List Operation) (operation : Operation) (hlast : operations = earlier ++ [operation])
      (hclear : ¬ (connection.run earlier).session.HasContext)
      (hcontext : (connection.run operations).session.HasContext) :
      Connection.OpenAlike configuration.provider (connection.watched operations) (connection'.watched operations) := by
    subst hlast
    exact htwins.opened heven hclear hcontext
  rcases htwins.run heven operations with ⟨hreplies, hafter, -⟩ | ⟨hcontext, hcontext'⟩
  · rw [Connection.watched_fst, Connection.watched_fst] at hafter
    obtain ⟨side, key, -, -, hclear, -, hrun⟩ := hafter.eq
    exact ⟨by rw [hrun]; rfl, fun _ => hreplies, fun _ => hafter, hopened⟩
  · exact ⟨⟨fun _ => hcontext', fun _ => hcontext⟩, fun hclear => absurd hcontext hclear,
      fun hclear => absurd hcontext hclear, hopened⟩

open SecureStream (transparent transparentClient plainClient)

/-- Two clients that show the same identity with different keys do the same at least up to the server's hello. Where
records are left as they are, the identity and ChangeCipherSpec are queued when the first context is made. -/
theorem Configuration.alike_run_usual :
    (∃ connection', (Configuration.client (usualClient [1] [3])).connection (.ofSeed 1) = .ok connection' ∧
      ∀ operations, ((usualClient [1] [2]).connection (.ofSeed 1)).AlikeUntilKeyed .standard operations connection') ∧
    ¬ (((usualClient [1] [2]).connection (.ofSeed 1)).run
      [.start, .takeOutgoing, .receive (usualGreeting.take 47)]).session.HasContext ∧
    (∃ connection', (Configuration.client { transparentClient with credentials := some ([1], [3]) }).connection
        ⟨fun _ => 7, 0⟩ = .ok connection' ∧ ∀ operations, plainClient.AlikeUntilKeyed transparent operations connection') ∧
    (plainClient.watched [.start, .takeOutgoing, .receive usualGreeting]).2.map (·.outgoing) =
      some [⟨22, 0x0303, [16, 0, 0, 3, 0, 1, 1]⟩, ⟨20, 0x0303, [1]⟩] := by
  have hsame : (Configuration.client (usualClient [1] [2])).SameButKeys (.client (usualClient [1] [3])) :=
    .client (usualClient [1] [2]) (.some [1] (by decide) (by decide))
  have hplain : (Configuration.client transparentClient).SameButKeys
      (.client { transparentClient with credentials := some ([1], [3]) }) :=
    .client transparentClient (.some [1] (by decide) (by decide))
  refine ⟨Configuration.alike_run hsame Provider.evenhanded_standard rfl, Session.not_hasContext ?_ ?_,
    Configuration.alike_run hplain ⟨fun _ _ _ _ => rfl, fun _ _ _ _ => rfl⟩ rfl, ?_⟩
  · cbv
  · cbv
  · cbv

end PresharedTls
