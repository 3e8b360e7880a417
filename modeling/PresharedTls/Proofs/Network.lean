import Mathlib.Data.List.Infix
import Mathlib.Logic.Function.Basic
import PresharedTls.Proofs.Chunking

/-!
# Two connections and the bytes between them

A network carries what each of two connections sends to the other one. Nothing is lost or reordered,
but how much arrives at a time is left open, and so is which end has its turn. It makes no difference
in the end: two runs after which nothing is on its way any more are in the same place. What an end has
sent only depends on the bytes that reached it, and more of them never take anything back. So the bytes
that reached an end by some run are always a prefix of those that reach it by a run that comes to rest.
-/

namespace PresharedTls

variable {κ : Type}

/-- The error of an operation that has failed. -/
def failureOf : Except ConnectionError Unit → Option ConnectionError
  | .ok () => none
  | .error failure => some failure

theorem failureOf_eq_none {result : Except ConnectionError Unit} : failureOf result = none ↔ result = .ok () := by
  cases result <;> simp [failureOf]

structure Network (κ : Type) where
  connection : Role → Connection κ
  /-- The bytes on their way to an end. -/
  arriving : Role → Bytes
  /-- The first error that an end has met. -/
  failure : Role → Option ConnectionError

inductive Move where
  /-- An end hands over what it has queued. -/
  | flush (role : Role)
  /-- At most `count` of the bytes on their way reach an end. -/
  | deliver (role : Role) (count : Nat)

namespace Network

/-- Both ends have been started. -/
def opened (client server : Connection κ) : Network κ where
  connection
    | .client => client.start.2
    | .server => server.start.2
  arriving _ := []
  failure
    | .client => failureOf client.start.1
    | .server => failureOf server.start.1

def step (network : Network κ) : Move → Network κ
  | .flush role =>
    { network with
      connection := Function.update network.connection role (network.connection role).takeOutgoing.2
      arriving := Function.update network.arriving role.peer
        (network.arriving role.peer ++ (network.connection role).takeOutgoing.1) }
  | .deliver role count =>
    let (result, connection) := (network.connection role).receive ((network.arriving role).take count)
    { connection := Function.update network.connection role connection
      arriving := Function.update network.arriving role ((network.arriving role).drop count)
      failure := Function.update network.failure role ((network.failure role).or (failureOf result)) }

def run (network : Network κ) (moves : List Move) : Network κ :=
  moves.foldl step network

/-- Nothing is on its way and nothing is queued. -/
def Quiet (network : Network κ) : Prop :=
  ∀ role, network.arriving role = [] ∧ (network.connection role).outgoing = []

theorem run_append (network : Network κ) (moves more : List Move) :
    network.run (moves ++ more) = (network.run moves).run more :=
  List.foldl_append

end Network

/-! ### What an end has sent -/

namespace Connection

variable {connection : Connection κ}

theorem isOver_of_receive {b : Bytes} {failure : ConnectionError} (hready : connection.phase.TakesInput)
    (h : (connection.receive b).1 = .error failure) : (connection.receive b).2.phase.isOver = true := by
  cases hrun : (Endpoint.receiveRecords (connection.arriving b)).run connection.toEndpoint with
  | ok value endpoint =>
    rw [receive_of_ok hready hrun] at h
    cases h
  | error other endpoint =>
    rw [receive_of_error hready hrun]
    rfl

/-- Bytes handed in one piece after the other, also behind a failure. -/
theorem receive_receive (hready : connection.phase.TakesInput) (first second : Bytes) :
    ((connection.receive first).2.receive second).2 = (connection.receive (first ++ second)).2 ∧
      (failureOf (connection.receive first).1).or
        (failureOf ((connection.receive first).2.receive second).1) = failureOf (connection.receive (first ++ second)).1 := by
  rw [receive_append hready]
  rcases hfirst : connection.receive first with ⟨_ | _, after⟩
  · next failure =>
    have hover : after.phase.isOver = true := by
      have h := isOver_of_receive (b := first) hready (by rw [hfirst])
      rwa [hfirst] at h
    rw [receive_of_isOver hover]
    exact ⟨rfl, rfl⟩
  · exact ⟨rfl, rfl⟩

theorem behind_emptied (connection : Connection κ) :
    connection.emptied.behind connection.outgoing connection.received = connection := by
  simp [behind, Endpoint.behind, emptied]

/-- What is queued stays, and what bytes bring about is queued behind it. -/
theorem outgoing_receive (connection : Connection κ) (b : Bytes) :
    connection.outgoing <+: (connection.receive b).2.outgoing := by
  have hreceive := receive_behind connection.outgoing connection.received connection.emptied b
  rw [behind_emptied] at hreceive
  rw [hreceive]
  exact List.prefix_append _ _

/-- What waits for the reader stays, and what bytes bring is behind it. -/
theorem received_receive (connection : Connection κ) (b : Bytes) :
    connection.received <+: (connection.receive b).2.received := by
  have hreceive := receive_behind connection.outgoing connection.received connection.emptied b
  rw [behind_emptied] at hreceive
  rw [hreceive]
  exact List.prefix_append _ _

/-- All that a connection has queued once the bytes `b` have reached it. -/
def output (connection : Connection κ) (b : Bytes) : Bytes :=
  (connection.receive b).2.outgoing.flatMap Record.bytes

theorem output_mono (hready : connection.phase.TakesInput) {b b' : Bytes} (h : b <+: b') :
    connection.output b <+: connection.output b' := by
  obtain ⟨more, rfl⟩ := h
  have hqueued := outgoing_receive (connection.receive b).2 more
  rw [(receive_receive hready b more).1] at hqueued
  exact hqueued.flatMap _

end Connection

/-! ### The bytes that have reached an end -/

namespace Network

variable {origin : Role → Connection κ} {network : Network κ} {heard : Role → Bytes}

/-- Two streams, each of them all that is sent by an end that has received the other one. -/
def Balanced (origin : Role → Connection κ) (streams : Role → Bytes) : Prop :=
  ∀ role, streams role.peer = (origin role).output (streams role)

/-- How a network stands that began with the ends `origin`, once the bytes `heard` have reached them. -/
structure Stands (origin : Role → Connection κ) (heard : Role → Bytes) (network : Network κ) : Prop where
  connection : ∀ role, ∃ taken,
    (network.connection role).behind taken [] = ((origin role).receive (heard role)).2 ∧
      taken.flatMap Record.bytes = heard role.peer ++ network.arriving role.peer
  failure : ∀ role, network.failure role = failureOf ((origin role).receive (heard role)).1
  within : ∀ streams, Balanced origin streams → ∀ role, heard role <+: streams role

theorem Stands.refl (hready : ∀ role, (network.connection role).phase.TakesInput)
    (hwaits : ∀ role, (network.connection role).Waits) (harriving : ∀ role, network.arriving role = [])
    (hfailure : ∀ role, network.failure role = none) : Stands network.connection (fun _ => []) network where
  connection role := by
    refine ⟨[], ?_, ?_⟩
    · rw [Connection.receive_nil (hwaits role) (hready role)]
      rfl
    · rw [harriving]
      rfl
  failure role := by
    rw [Connection.receive_nil (hwaits role) (hready role), hfailure]
    rfl
  within _ _ _ := List.nil_prefix

theorem Stands.flush (h : Stands origin heard network) (role : Role) :
    Stands origin heard (network.step (.flush role)) where
  connection other := by
    obtain ⟨taken, hconnection, htaken⟩ := h.connection other
    by_cases hother : other = role
    · subst hother
      refine ⟨taken ++ (network.connection other).outgoing, ?_, ?_⟩
      · rw [← hconnection]
        simp [step, Connection.behind, Endpoint.behind, Connection.takeOutgoing]
      · simp [step, htaken, Connection.takeOutgoing]
    · refine ⟨taken, ?_, ?_⟩
      · simpa [step, hother] using hconnection
      · have hpeer : other.peer ≠ role.peer := by
          rw [Role.eq_peer_of_ne hother, Role.peer_peer]
          exact fun heq => role.peer_ne heq.symm
        simpa [step, hpeer] using htaken
  failure := h.failure
  within := h.within

theorem Stands.deliver (hready : ∀ role, (origin role).phase.TakesInput) (h : Stands origin heard network) (role : Role)
    (count : Nat) :
    Stands origin (Function.update heard role (heard role ++ (network.arriving role).take count))
      (network.step (.deliver role count)) where
  connection other := by
    obtain ⟨taken, hconnection, htaken⟩ := h.connection other
    by_cases hother : other = role
    · subst hother
      refine ⟨taken, ?_, ?_⟩
      · have hreceive := Connection.receive_behind taken [] (network.connection other)
          ((network.arriving other).take count)
        have hboth := (Connection.receive_receive (hready other) (heard other)
          ((network.arriving other).take count)).1
        rw [← hconnection, hreceive] at hboth
        simpa [step] using hboth
      · simpa [step, other.peer_ne] using htaken
    · refine ⟨taken, ?_, ?_⟩
      · simpa [step, hother] using hconnection
      · obtain rfl := Role.eq_peer_of_ne hother
        rw [Role.peer_peer] at htaken ⊢
        simp [step, htaken]
  failure other := by
    by_cases hother : other = role
    · subst hother
      obtain ⟨taken, hconnection, -⟩ := h.connection other
      have hreceive := Connection.receive_behind taken [] (network.connection other)
        ((network.arriving other).take count)
      have hboth := (Connection.receive_receive (hready other) (heard other)
        ((network.arriving other).take count)).2
      rw [← hconnection, hreceive, ← h.failure] at hboth
      simpa [step] using hboth
    · simpa [step, hother] using h.failure other
  within streams hstreams other := by
    by_cases hother : other = role
    · subst hother
      -- What reaches this end was sent by the other one, and that is a prefix of what the other one sends.
      obtain ⟨taken, hconnection, htaken⟩ := h.connection other.peer
      have hsent : taken <+: ((origin other.peer).receive (heard other.peer)).2.outgoing := by
        rw [← hconnection]
        exact List.prefix_append _ _
      have houtput : taken.flatMap Record.bytes <+: (origin other.peer).output (heard other.peer) := hsent.flatMap _
      have hmono := Connection.output_mono (hready other.peer) (h.within streams hstreams other.peer)
      have hstream : streams other = (origin other.peer).output (streams other.peer) := by
        rw [← hstreams other.peer, Role.peer_peer]
      rw [Role.peer_peer] at htaken
      rw [Function.update_self, hstream]
      refine List.IsPrefix.trans ?_ (houtput.trans hmono)
      have htake := List.take_prefix count (network.arriving other)
      rw [htaken]
      exact (List.prefix_append_right_inj _).mpr htake
    · simpa [hother] using h.within streams hstreams other

theorem Stands.run (hready : ∀ role, (origin role).phase.TakesInput) (h : Stands origin heard network)
    (moves : List Move) : ∃ heard', Stands origin heard' (network.run moves) := by
  induction moves generalizing network heard with
  | nil => exact ⟨heard, h⟩
  | cons move rest ih =>
    cases move with
    | flush role => exact ih (h.flush role)
    | deliver role count => exact ih (h.deliver hready role count)

/-! ### Networks at rest -/

theorem Stands.balanced (h : Stands origin heard network) (hquiet : network.Quiet) : Balanced origin heard := by
  intro role
  obtain ⟨taken, hconnection, htaken⟩ := h.connection role
  have hall : ((origin role).receive (heard role)).2.outgoing = taken := by
    rw [← hconnection, Connection.behind, Endpoint.behind, (hquiet role).2, List.append_nil]
  rw [Connection.output, hall, htaken, (hquiet role.peer).1, List.append_nil]

theorem Stands.eq_of_quiet {other : Network κ} (h : Stands origin heard network) (hother : Stands origin heard other)
    (hquiet : network.Quiet) (hquiet' : other.Quiet) : network = other := by
  have hconnection : network.connection = other.connection := by
    funext role
    obtain ⟨taken, hbehind, -⟩ := h.connection role
    obtain ⟨taken', hbehind', -⟩ := hother.connection role
    have hboth := hbehind.trans hbehind'.symm
    have hnone := (hquiet role).2
    have hnone' := (hquiet' role).2
    revert hboth hnone hnone'
    generalize network.connection role = connection
    generalize other.connection role = connection'
    obtain ⟨⟨phase, side, session, handshake, outgoing, received, peerClosed, entropy⟩, incoming⟩ := connection
    obtain ⟨⟨phase', side', session', handshake', outgoing', received', peerClosed', entropy'⟩, incoming'⟩ := connection'
    intro hboth hnone hnone'
    simp only [Connection.behind, Endpoint.behind] at hboth hnone hnone'
    simp_all
  have harriving : network.arriving = other.arriving := by
    funext role
    rw [(hquiet role).1, (hquiet' role).1]
  have hfailure : network.failure = other.failure := by
    funext role
    rw [h.failure, hother.failure]
  cases network
  cases other
  simp_all

/-- Streams of bytes of which none has more than the other one. -/
theorem eq_of_prefix {heard' : Role → Bytes} (h : ∀ role, heard role <+: heard' role)
    (h' : ∀ role, heard' role <+: heard role) : heard = heard' := by
  funext role
  exact (h role).eq_of_length (Nat.le_antisymm (h role).length_le (h' role).length_le)

/-- Before the first byte is on its way. -/
structure Begins (network : Network κ) : Prop where
  ready : ∀ role, (network.connection role).phase.TakesInput
  waits : ∀ role, (network.connection role).Waits
  arriving : ∀ role, network.arriving role = []
  failure : ∀ role, network.failure role = none

/-- However the bytes are cut and in whatever order they are delivered, a network comes to rest in
one way. -/
theorem Begins.run_eq_of_quiet (h : network.Begins) {moves others : List Move} (hquiet : (network.run moves).Quiet)
    (hquiet' : (network.run others).Quiet) : network.run moves = network.run others := by
  have hstands := Stands.refl h.ready h.waits h.arriving h.failure
  obtain ⟨heard, hmoves⟩ := hstands.run h.ready moves
  obtain ⟨heard', hothers⟩ := hstands.run h.ready others
  obtain rfl : heard = heard' :=
    eq_of_prefix (hmoves.within _ (hothers.balanced hquiet')) (hothers.within _ (hmoves.balanced hquiet))
  exact hmoves.eq_of_quiet hothers hquiet hquiet'

/-- The number of bytes in both streams. -/
def total (streams : Role → Bytes) : Nat :=
  (streams .client).length + (streams .server).length

theorem total_update (streams : Role → Bytes) (role : Role) (more : Bytes) :
    total (Function.update streams role (streams role ++ more)) = total streams + more.length := by
  cases role with
  | client =>
    have hother : Role.server ≠ .client := by decide
    simp only [total, Function.update_self, Function.update_of_ne hother, List.length_append]
    omega
  | server =>
    have hother : Role.client ≠ .server := by decide
    simp only [total, Function.update_self, Function.update_of_ne hother, List.length_append]
    omega

/-- Handing over what both ends have queued. -/
def flushed (network : Network κ) : Network κ :=
  network.run [.flush .client, .flush .server]

theorem outgoing_flushed (network : Network κ) (role : Role) : (network.flushed.connection role).outgoing = [] := by
  cases role <;> simp [flushed, run, step, Connection.takeOutgoing]

theorem Stands.flushed (h : Stands origin heard network) : Stands origin heard network.flushed :=
  (h.flush .client).flush .server

/-- Every delivery brings an end closer to streams that are balanced, so in time nothing is left. -/
theorem Stands.exists_quiet (hready : ∀ role, (origin role).phase.TakesInput) {streams : Role → Bytes}
    (hstreams : Balanced origin streams) {heard : Role → Bytes} {network : Network κ}
    (h : Stands origin heard network) : ∃ more, (network.run more).Quiet := by
  by_cases hquiet : ∀ role, network.flushed.arriving role = []
  · exact ⟨[.flush .client, .flush .server], fun role => ⟨hquiet role, network.outgoing_flushed role⟩⟩
  · obtain ⟨role, harriving⟩ := not_forall.mp hquiet
    have hdelivered := h.flushed.deliver hready role (network.flushed.arriving role).length
    rw [List.take_length] at hdelivered
    have hclient := (hdelivered.within streams hstreams .client).length_le
    have hserver := (hdelivered.within streams hstreams .server).length_le
    have htotal := total_update heard role (network.flushed.arriving role)
    have hmore := List.length_pos_iff.mpr harriving
    obtain ⟨more, hrest⟩ := hdelivered.exists_quiet hready hstreams
    refine ⟨[.flush .client, .flush .server] ++ .deliver role (network.flushed.arriving role).length :: more, ?_⟩
    rw [run_append]
    exact hrest
termination_by total streams - total heard
decreasing_by
  simp only [total] at htotal ⊢
  omega

/-- If there is a way to come to rest, every run can be carried on until it is at rest. -/
theorem Begins.exists_quiet (h : network.Begins) {moves : List Move} (hquiet : (network.run moves).Quiet)
    (others : List Move) : ∃ more, (network.run (others ++ more)).Quiet := by
  have hstands := Stands.refl h.ready h.waits h.arriving h.failure
  obtain ⟨heard, hmoves⟩ := hstands.run h.ready moves
  obtain ⟨heard', hothers⟩ := hstands.run h.ready others
  obtain ⟨more, hmore⟩ := hothers.exists_quiet h.ready (hmoves.balanced hquiet)
  exact ⟨more, by rw [run_append]; exact hmore⟩

/-- However it is run, the network can come to rest, and where it does it is as `result` says. -/
def Settles (network : Network κ) (result : Network κ → Prop) : Prop :=
  (∀ moves, (network.run moves).Quiet → result (network.run moves)) ∧
    ∀ moves, ∃ more, (network.run (moves ++ more)).Quiet

/-- Some run leads from one network to the other. -/
def Leads (network after : Network κ) : Prop :=
  ∃ moves, network.run moves = after

theorem Begins.settles (h : network.Begins) {after : Network κ} (hleads : network.Leads after) (hquiet : after.Quiet)
    {result : Network κ → Prop} (hresult : result after) : network.Settles result := by
  obtain ⟨moves, rfl⟩ := hleads
  refine ⟨fun others hothers => ?_, h.exists_quiet hquiet⟩
  rw [← h.run_eq_of_quiet hquiet hothers]
  exact hresult

/-! ### What moves do to an end -/

theorem exists_operations_step (network : Network κ) (move : Move) (role : Role) :
    ∃ operations, (network.step move).connection role = (network.connection role).run operations := by
  cases move with
  | flush other =>
    by_cases hrole : role = other
    · subst hrole
      exact ⟨[.takeOutgoing], Function.update_self _ _ _⟩
    · exact ⟨[], Function.update_of_ne hrole _ _⟩
  | deliver other count =>
    by_cases hrole : role = other
    · subst hrole
      exact ⟨[.receive ((network.arriving role).take count)], Function.update_self _ _ _⟩
    · exact ⟨[], Function.update_of_ne hrole _ _⟩

/-- Each end of a network is as some operations on it alone make it. -/
theorem Leads.exists_operations {after : Network κ} (h : network.Leads after) (role : Role) :
    ∃ operations, after.connection role = (network.connection role).run operations := by
  obtain ⟨moves, rfl⟩ := h
  induction moves generalizing network with
  | nil => exact ⟨[], rfl⟩
  | cons move rest ih =>
    obtain ⟨operations, hstep⟩ := network.exists_operations_step move role
    obtain ⟨more, hrest⟩ := @ih (network.step move)
    refine ⟨operations ++ more, ?_⟩
    rw [Connection.run_append, ← hstep]
    exact hrest

theorem Leads.exists_operations_client {client server : Connection κ} {after : Network κ}
    (h : (opened client server).Leads after) : ∃ operations, after.connection .client = client.run operations := by
  obtain ⟨operations, hrun⟩ := h.exists_operations .client
  exact ⟨.start :: operations, hrun⟩

theorem Leads.exists_operations_server {client server : Connection κ} {after : Network κ}
    (h : (opened client server).Leads after) : ∃ operations, after.connection .server = server.run operations := by
  obtain ⟨operations, hrun⟩ := h.exists_operations .server
  exact ⟨.start :: operations, hrun⟩

/-! ### Taking turns -/

theorem Leads.trans {after last : Network κ} (h : network.Leads after) (h' : after.Leads last) : network.Leads last := by
  obtain ⟨moves, rfl⟩ := h
  obtain ⟨more, rfl⟩ := h'
  exact ⟨moves ++ more, network.run_append moves more⟩

/-- Two ends between which nothing is on its way: the one in `role`, and the other one. -/
def between (role : Role) (near far : Connection κ) (nearFailure farFailure : Option ConnectionError) : Network κ where
  connection other := if other = role then near else far
  arriving _ := []
  failure other := if other = role then nearFailure else farFailure

/-- One end receives all that the other one has queued, and then it is the other one's turn. -/
theorem leads_turn (role : Role) {near far after : Connection κ} (nearFailure farFailure : Option ConnectionError)
    {result : Except ConnectionError Unit} (h : near.receive far.takeOutgoing.1 = (result, after)) :
    (between role near far nearFailure farFailure).Leads
      (between role.peer far.takeOutgoing.2 after farFailure (nearFailure.or (failureOf result))) := by
  refine ⟨[.flush role.peer, .deliver role far.takeOutgoing.1.length], ?_⟩
  have hfar := role.peer_ne
  have hnear := role.peer_ne.symm
  simp only [run, List.foldl_cons, List.foldl_nil, step, between, if_neg hfar, if_true, Role.peer_peer,
    Function.update_self, Function.update_of_ne hnear, List.nil_append, List.take_length, List.drop_length, h,
    Network.mk.injEq]
  refine ⟨?_, ?_, ?_⟩
  all_goals
    funext other
    by_cases hother : other = role
    · subst hother
      simp [hnear]
    · obtain rfl := Role.eq_peer_of_ne hother
      simp [hfar]

end Network

end PresharedTls
