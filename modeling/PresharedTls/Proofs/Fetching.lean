import PresharedTls.Proofs.Streaming

/-!
# What a stream fetches and what its reader gets

A stream reads its transport only when it has nothing else for its reader, and how often it has to is up to
the reader. Take the reader away: then each read of the transport adds to the queue what the connection
accepts of the bytes that arrived. A reader gets the data of that queue in order, however much it asks for at
a time, and it gets the end only behind the peer's announcement.
-/

namespace PresharedTls

/-- It is by the announcement, and by nothing else, that a connection knows of the peer's end. -/
theorem Connection.peerClosed_receive {κ : Type} (connection : Connection κ) (b : Bytes) :
    (connection.receive b).2.peerClosed = true ↔
      connection.peerClosed = true ∨ (connection.receive b).1 = .error (.receivedAlert .closeNotify) := by
  by_cases hready : connection.phase.TakesInput
  · have hends := Endpoint.explains_receiveRecords (connection.arriving b)
      (rfl : connection.toEndpoint.peerClosed = connection.peerClosed)
    cases hrun : (Endpoint.receiveRecords (connection.arriving b)).run connection.toEndpoint with
    | ok value endpoint =>
      rw [receive_of_ok hready hrun]
      simp only [Ends, hrun] at hends
      simp [hends]
    | error failure endpoint =>
      rw [receive_of_error hready hrun]
      simp only [Ends, hrun] at hends
      have hfail : (endpoint.fail failure).peerClosed = endpoint.peerClosed := by
        obtain ⟨encrypter, outgoing, entropy, hfail⟩ := Endpoint.fail_eq failure endpoint
        rw [hfail]
        rfl
      cases hends with
      | refused hclosed => simp [hfail, hclosed]
      | told hclosed => simp [hfail, hclosed]
  · rw [receive_of_not_takesInput hready]
    exact ⟨.inl, fun h => h.resolve_right fun htold => hready (takesInput_of_told (Prod.ext htold rfl))⟩

namespace SecureStream

variable {κ τ ε α : Type} {stream origin : SecureStream κ τ} {count limit patience : Nat} {returned : Bytes}

/-- What a stream has for its reader without another read of its transport. -/
def unread (stream : SecureStream κ τ) : Bytes :=
  stream.pending ++ stream.connection.received.flatten

/-- The stream with nothing left in its queue. -/
def drained (stream : SecureStream κ τ) : SecureStream κ τ :=
  { stream with connection := { stream.connection with received := [] } }

theorem unread_drained (hnone : stream.unread = []) : stream.drained.unread = [] := by
  rw [unread, show stream.drained.pending = [] from (List.append_eq_nil_iff.mp hnone).1]
  rfl

variable [Transport τ ε]

/-- A read of the transport is nothing to what the reader has in hand. -/
theorem pending_receiveSome (stream : SecureStream κ τ) : (perform receiveSome stream).2.pending = stream.pending := by
  rcases perform_receiveSome_cases stream with
    ⟨fault, transport, entropy, hfault⟩ | ⟨b, transport, entropy, received, connection, hread, hreceive, hreceived⟩
  · rw [hfault]
  · obtain ⟨⟨_, _, hused⟩, -⟩ := used_flushOutgoing ⟨connection, transport, stream.pending⟩
    rw [hreceived, hused]

theorem peerClosed_receiveSome (stream : SecureStream κ τ) :
    (perform receiveSome stream).2.connection.peerClosed = true ↔ stream.connection.peerClosed = true ∨
      (perform receiveSome stream).1 = .error (.connection (.receivedAlert .closeNotify)) := by
  rcases perform_receiveSome_cases stream with
    ⟨fault, transport, entropy, hfault⟩ | ⟨b, transport, entropy, received, connection, hread, hreceive, hreceived⟩
  · rw [hfault]
    simp [Connection.withEntropy]
  · have hheard := (stream.connection.withEntropy entropy).peerClosed_receive b
    obtain ⟨⟨_, _, hused⟩, hother⟩ := used_flushOutgoing ⟨connection, transport, stream.pending⟩
    rw [hreceive] at hheard
    rw [hreceived, hused]
    refine hheard.trans (or_congr_right ?_)
    cases received with
    | ok value => exact iff_of_false nofun (hother _)
    | error failure => simp [Except.mapError, Except.bind]

/-! ### A stream without a reader -/

/-- The stream after `count` more reads of its transport, if nobody reads from it. -/
def fetched (stream : SecureStream κ τ) : (count : Nat) → SecureStream κ τ
  | 0 => stream
  | count + 1 => (perform receiveSome (stream.fetched count)).2

/-- What came of a read of the transport with `count` reads before it. -/
def fetch (stream : SecureStream κ τ) (count : Nat) : Except (StreamError ε) Unit :=
  (perform receiveSome (stream.fetched count)).1

/-- The application data that was accepted within `count` reads of the transport, a piece for each record. -/
def accepted (stream : SecureStream κ τ) (count : Nat) : List Bytes :=
  (stream.fetched count).connection.received

/-- Within `count` reads of the transport the peer announced its end. -/
def Announced (stream : SecureStream κ τ) (count : Nat) : Prop :=
  ∃ earlier < count, stream.fetch earlier = .error (.connection (.receivedAlert .closeNotify))

/-- At a read with `count` reads before it the transport has come to its end. -/
def EndsAt (stream : SecureStream κ τ) (count : Nat) : Prop :=
  ∃ transport entropy, Transport.read readSize (stream.fetched count).transport
    (stream.fetched count).connection.entropy = (.ok [], transport, entropy)

theorem fetch_of_endsAt (h : stream.EndsAt count) : stream.fetch count = .error (.transport .unexpectedEof) := by
  obtain ⟨transport, entropy, hread⟩ := h
  rw [fetch, perform_receiveSome_of_nil hread]

/-- What waits in the queue is still there after a read of the transport. -/
theorem received_receiveSome (stream : SecureStream κ τ) :
    stream.connection.received <+: (perform receiveSome stream).2.connection.received := by
  have hbeside : Beside Eq stream.connection.received (fun _ _ => True) stream.drained stream :=
    ⟨by simp [Connection.behind, Endpoint.behind, drained], rfl, trivial⟩
  obtain ⟨_, hafter⟩ := perform_of_corresponds (corresponds_receiveSome Transport.alike_eq) hbeside
  rw [hafter.connection]
  exact List.prefix_append _ _

theorem accepted_mono (stream : SecureStream κ τ) {more : Nat} (h : count ≤ more) :
    (stream.accepted count).flatten <+: (stream.accepted more).flatten := by
  induction h with
  | refl => exact List.prefix_refl _
  | @step more _ ih =>
    obtain ⟨rest, hrest⟩ := received_receiveSome (stream.fetched more)
    have happend : (stream.accepted (more + 1)).flatten = (stream.accepted more).flatten ++ rest.flatten := by
      rw [accepted, fetched, ← hrest, List.flatten_append]
      rfl
    exact ih.trans (happend ▸ List.prefix_append _ _)

theorem announced_succ : stream.Announced (count + 1) ↔
    stream.Announced count ∨ stream.fetch count = .error (.connection (.receivedAlert .closeNotify)) := by
  constructor
  · rintro ⟨earlier, hearlier, htold⟩
    rcases Nat.eq_or_lt_of_le (Nat.le_of_lt_succ hearlier) with rfl | hbefore
    · exact .inr htold
    · exact .inl ⟨earlier, hbefore, htold⟩
  · rintro (⟨earlier, hearlier, htold⟩ | htold)
    · exact ⟨earlier, by omega, htold⟩
    · exact ⟨count, by omega, htold⟩

theorem peerClosed_fetched (stream : SecureStream κ τ) (count : Nat) :
    (stream.fetched count).connection.peerClosed = true ↔ stream.connection.peerClosed = true ∨ stream.Announced count := by
  induction count with
  | zero => simp [fetched, Announced]
  | succ count ih => rw [fetched, peerClosed_receiveSome, ih, announced_succ, or_assoc, fetch]

/-! ### A reader beside it -/

/-- `stream` is `origin` after `count` reads of the transport and with a reader that was given `returned`. The
reader has taken data out, and it makes no other difference. -/
structure Reading (origin : SecureStream κ τ) (count : Nat) (returned : Bytes) (stream : SecureStream κ τ) : Prop where
  connection : ∃ popped, (origin.fetched count).connection = stream.connection.behind [] popped ∧
    origin.pending ++ popped.flatten = returned ++ stream.pending
  transport : (origin.fetched count).transport = stream.transport

theorem Reading.begin (origin : SecureStream κ τ) : Reading origin 0 [] origin :=
  ⟨⟨[], rfl, List.append_nil _⟩, rfl⟩

theorem Reading.accounts (h : Reading origin count returned stream) :
    origin.pending ++ (origin.accepted count).flatten = returned ++ stream.unread := by
  obtain ⟨popped, hpopped, hflatten⟩ := h.connection
  rw [accepted, hpopped, unread, ← List.append_assoc, ← hflatten, List.append_assoc]
  exact congrArg (origin.pending ++ ·) List.flatten_append

/-- A read of the transport is the same for the stream that has a reader. -/
theorem Reading.advance (h : Reading origin count returned stream) :
    (perform receiveSome stream).1 = origin.fetch count ∧
      Reading origin (count + 1) returned (perform receiveSome stream).2 := by
  obtain ⟨popped, hpopped, hflatten⟩ := h.connection
  have hbeside : Beside Eq popped (fun _ _ => True) stream (origin.fetched count) :=
    ⟨hpopped, h.transport.symm, trivial⟩
  obtain ⟨hresult, hafter⟩ := perform_of_corresponds (corresponds_receiveSome Transport.alike_eq) hbeside
  refine ⟨hresult.symm, ⟨popped, hafter.connection, ?_⟩, hafter.transport.symm⟩
  rw [pending_receiveSome, hflatten]

theorem Reading.announced (h : Reading origin count returned stream) :
    stream.connection.peerClosed = true ↔ origin.connection.peerClosed = true ∨ origin.Announced count := by
  obtain ⟨popped, hpopped, _⟩ := h.connection
  rw [← peerClosed_fetched, hpopped]
  rfl

/-- A stream as a handshake leaves it: no end was announced, and nothing handed to a reader. -/
structure Begins (stream : SecureStream κ τ) : Prop where
  listens : stream.connection.peerClosed = false
  pending : stream.pending = []

theorem Reading.accounts_of_begins (h : Reading origin count returned stream) (hbegins : origin.Begins) :
    (origin.accepted count).flatten = returned ++ stream.unread := by
  rw [← h.accounts, hbegins.pending, List.nil_append]

theorem Reading.unread_eq_nil_iff (h : Reading origin count returned stream) (hbegins : origin.Begins) :
    stream.unread = [] ↔ (origin.accepted count).flatten = returned := by
  rw [h.accounts_of_begins hbegins, List.append_right_eq_self]

theorem Reading.announced_of_begins (h : Reading origin count returned stream) (hbegins : origin.Begins) :
    stream.connection.peerClosed = true ↔ origin.Announced count := by
  rw [h.announced, hbegins.listens]
  simp

/-- With nothing for the reader, all that the queue can hold is empty data. -/
theorem Reading.drain (h : Reading origin count returned stream) (hnone : stream.unread = []) :
    Reading origin count returned stream.drained := by
  obtain ⟨popped, hpopped, hflatten⟩ := h.connection
  obtain ⟨hpending, hreceived⟩ := List.append_eq_nil_iff.mp hnone
  refine ⟨⟨popped ++ stream.connection.received, ?_, ?_⟩, h.transport⟩
  · rw [hpopped]
    simp [Connection.behind, Endpoint.behind, SecureStream.drained]
  · rw [List.flatten_append, hreceived, List.append_nil, hflatten]
    rfl

/-! ### One call -/

theorem read_of_pending (hpending : stream.pending ≠ []) (patience limit : Nat) :
    stream.read patience limit = (.ok (stream.pending.take limit), { stream with pending := stream.pending.drop limit }) := by
  rw [read, awaitData.eq_def, perform_get_bind, if_pos (by simpa using hpending)]
  rfl

theorem read_of_received {data : Bytes} {rest : List Bytes} (hpending : stream.pending = [])
    (hreceived : stream.connection.received.dropWhile List.isEmpty = data :: rest) (patience limit : Nat) :
    stream.read patience limit = (.ok (data.take limit),
      ⟨{ stream.connection with received := rest }, stream.transport, data.drop limit⟩) := by
  rw [read, awaitData.eq_def, perform_get_bind, if_neg (by simp [hpending]), hreceived]
  rfl

/-- With nothing to read the queue is emptied, and what comes then is the end or a read of the transport. -/
theorem read_of_unread_nil (hnone : stream.unread = []) (patience limit : Nat) :
    stream.read patience limit =
      perform (if stream.connection.peerClosed then pure []
        else match patience with
          | 0 => throw .stalled
          | patience + 1 => do
            match ← attempt receiveSome with
            | .ok () => awaitData limit patience
            | .error (.connection (.receivedAlert .closeNotify)) => awaitData limit patience
            | .error error => throw error) stream.drained := by
  obtain ⟨hpending, hreceived⟩ := List.append_eq_nil_iff.mp hnone
  have hskipped : stream.connection.received.dropWhile List.isEmpty = [] := by
    rw [List.dropWhile_eq_nil_iff]
    exact fun data hmem => List.isEmpty_iff.mpr (List.flatten_eq_nil_iff.mp hreceived data hmem)
  rw [read, awaitData.eq_def, perform_get_bind, if_neg (by simp [hpending]), hskipped]
  cases patience <;> rfl

theorem read_of_peerClosed (hnone : stream.unread = []) (hclosed : stream.connection.peerClosed = true)
    (patience limit : Nat) : stream.read patience limit = (.ok [], stream.drained) := by
  rw [read_of_unread_nil hnone, if_pos hclosed]
  rfl

theorem read_zero (hnone : stream.unread = []) (hopen : stream.connection.peerClosed = false) (limit : Nat) :
    stream.read 0 limit = (.error .stalled, stream.drained) := by
  rw [read_of_unread_nil hnone, if_neg (by simp [hopen])]
  rfl

/-- Data and the announcement of the end alike let the reader go on. -/
theorem read_succ_of_heard (hnone : stream.unread = []) (hopen : stream.connection.peerClosed = false)
    (hheard : (perform receiveSome stream.drained).1 = .ok () ∨
      (perform receiveSome stream.drained).1 = .error (.connection (.receivedAlert .closeNotify))) (patience limit : Nat) :
    stream.read (patience + 1) limit = (perform receiveSome stream.drained).2.read patience limit := by
  rw [read_of_unread_nil hnone, if_neg (by simp [hopen]), perform_bind_of_ok (perform_attempt _ _)]
  rcases hheard with hok | hnotify
  · rw [hok]
    rfl
  · rw [hnotify]
    rfl

theorem read_succ_of_failed {failure : StreamError ε} (hnone : stream.unread = [])
    (hopen : stream.connection.peerClosed = false) (hfailed : (perform receiveSome stream.drained).1 = .error failure)
    (hother : failure ≠ .connection (.receivedAlert .closeNotify)) (patience limit : Nat) :
    stream.read (patience + 1) limit = (.error failure, (perform receiveSome stream.drained).2) := by
  rw [read_of_unread_nil hnone, if_neg (by simp [hopen]), perform_bind_of_ok (perform_attempt _ _), hfailed]
  split
  · contradiction
  · next hnotify => exact absurd (Except.error.inj hnotify) hother
  · next heq =>
    rw [Except.error.inj heq]
    rfl

/-- Where there is something to read, it is read, and the transport is not. -/
theorem Reading.read_of_unread (h : Reading origin count returned stream) (hunread : stream.unread ≠ []) (limit : Nat) :
    ∃ chunk after, (∀ patience, stream.read patience limit = (.ok chunk, after)) ∧ (0 < limit → chunk ≠ []) ∧
      chunk.length ≤ limit ∧ Reading origin count (returned ++ chunk) after := by
  obtain ⟨popped, hpopped, hflatten⟩ := h.connection
  have hsome {data : Bytes} (hdata : data ≠ []) (hlimit : 0 < limit) : data.take limit ≠ [] := fun hnil =>
    (List.take_eq_nil_iff.mp hnil).elim (fun hzero => by omega) hdata
  by_cases hpending : stream.pending = []
  · have hreceived : stream.connection.received.flatten ≠ [] := by simpa [unread, hpending] using hunread
    have hsplit := List.takeWhile_append_dropWhile (p := List.isEmpty) (l := stream.connection.received)
    have hempty : (stream.connection.received.takeWhile List.isEmpty).flatten = [] :=
      List.flatten_eq_nil_iff.mpr fun _ hmem => List.isEmpty_iff.mp (List.mem_takeWhile_imp hmem)
    cases hqueue : stream.connection.received.dropWhile List.isEmpty with
    | nil =>
      rw [hqueue, List.append_nil] at hsplit
      exact absurd (hsplit ▸ hempty) hreceived
    | cons data rest =>
      have hdata : data ≠ [] := by
        have hfirst := List.head_dropWhile_not List.isEmpty (List.ne_nil_of_mem (hqueue ▸ List.mem_cons_self))
        simpa [hqueue] using hfirst
      rw [hqueue] at hsplit
      refine ⟨_, _, fun patience => read_of_received hpending hqueue patience limit, hsome hdata, List.length_take_le _ _,
        ⟨popped ++ stream.connection.received.takeWhile List.isEmpty ++ [data], ?_, ?_⟩, h.transport⟩
      · rw [hpopped]
        rw [Connection.behind, Connection.behind, Endpoint.behind, Endpoint.behind]
        simp only [List.nil_append, List.append_assoc, List.singleton_append, hsplit]
      · rw [List.flatten_append, List.flatten_append, hempty, List.append_nil, ← List.append_assoc, hflatten, hpending,
          List.flatten_singleton, List.append_nil, List.append_assoc, List.take_append_drop]
  · refine ⟨_, _, fun patience => read_of_pending hpending patience limit, hsome hpending, List.length_take_le _ _,
      ⟨popped, hpopped, ?_⟩, h.transport⟩
    rw [hflatten, List.append_assoc, List.take_append_drop]

/-- What a call for at most `limit` bytes comes to for a reader that was given `returned`. -/
inductive Outcome (origin : SecureStream κ τ) (returned : Bytes) (limit : Nat) :
    Except (StreamError ε) Bytes → SecureStream κ τ → Prop
  | data {chunk : Bytes} {reached : Nat} {after : SecureStream κ τ} (some : 0 < limit → chunk ≠ [])
      (room : chunk.length ≤ limit) (reading : Reading origin reached (returned ++ chunk) after) :
      Outcome origin returned limit (.ok chunk) after
  | finished {reached : Nat} {after : SecureStream κ τ}
      (announced : origin.connection.peerClosed = true ∨ origin.Announced reached)
      (reading : Reading origin reached returned after) (nothing : after.unread = []) :
      Outcome origin returned limit (.ok []) after
  | stalled {reached : Nat} {after : SecureStream κ τ} (reading : Reading origin reached returned after) :
      Outcome origin returned limit (.error .stalled) after
  | failed {failure : StreamError ε} {last : Nat} {after : SecureStream κ τ} (failed : origin.fetch last = .error failure)
      (reading : Reading origin (last + 1) returned after) : Outcome origin returned limit (.error failure) after

theorem Reading.outcome_of_ready (h : Reading origin count returned stream)
    (hready : stream.unread = [] → stream.connection.peerClosed = true) (limit patience : Nat) :
    Outcome origin returned limit (stream.read patience limit).1 (stream.read patience limit).2 := by
  by_cases hnone : stream.unread = []
  · rw [read_of_peerClosed hnone (hready hnone)]
    exact .finished (h.announced.mp (hready hnone)) (h.drain hnone) (unread_drained hnone)
  · obtain ⟨chunk, after, hread, hsome, hroom, hreading⟩ := h.read_of_unread hnone limit
    rw [hread]
    exact .data hsome hroom hreading

theorem Reading.outcome (h : Reading origin count returned stream) (limit patience : Nat) :
    Outcome origin returned limit (stream.read patience limit).1 (stream.read patience limit).2 := by
  induction patience generalizing count stream with
  | zero =>
    by_cases hready : stream.unread = [] → stream.connection.peerClosed = true
    · exact h.outcome_of_ready hready limit 0
    · simp only [Classical.not_imp, Bool.not_eq_true] at hready
      rw [read_zero hready.1 hready.2]
      exact .stalled (h.drain hready.1)
  | succ patience ih =>
    by_cases hready : stream.unread = [] → stream.connection.peerClosed = true
    · exact h.outcome_of_ready hready limit (patience + 1)
    simp only [Classical.not_imp, Bool.not_eq_true] at hready
    obtain ⟨hnone, hopen⟩ := hready
    obtain ⟨hfetch, hreading⟩ := (h.drain hnone).advance
    by_cases hheard : (perform receiveSome stream.drained).1 = .ok () ∨
        (perform receiveSome stream.drained).1 = .error (.connection (.receivedAlert .closeNotify))
    · rw [read_succ_of_heard hnone hopen hheard]
      exact ih hreading
    · rw [not_or] at hheard
      cases hresult : (perform receiveSome stream.drained).1 with
      | ok value => exact absurd hresult hheard.1
      | error failure =>
        rw [read_succ_of_failed hnone hopen hresult fun hnotify => hheard.2 (hnotify ▸ hresult)]
        exact .failed (hfetch.symm.trans hresult) hreading

/-- With `count` reads of the transport behind it, `gap` more bring nothing for a reader that was given `returned`:
the peer announces no end, nothing fails, and no data is added. -/
structure Quiet (origin : SecureStream κ τ) (count gap : Nat) (returned : Bytes) : Prop where
  listens : ¬ origin.Announced count
  heard : ∀ earlier, count ≤ earlier → earlier < count + gap → origin.fetch earlier = .ok ()
  nothing : (origin.accepted (count + gap)).flatten = returned

theorem Quiet.fetch {gap : Nat} (h : Quiet origin count (gap + 1) returned) : origin.fetch count = .ok () :=
  h.heard count le_rfl (by omega)

theorem Quiet.next {gap : Nat} (h : Quiet origin count (gap + 1) returned) : Quiet origin (count + 1) gap returned where
  listens := by
    rw [announced_succ, h.fetch]
    simp [h.listens]
  heard earlier hearlier hbefore := h.heard earlier (by omega) (by omega)
  nothing := by
    rw [Nat.add_right_comm]
    exact h.nothing

theorem Reading.silent_of_quiet {gap : Nat} (h : Reading origin count returned stream) (hbegins : origin.Begins)
    (hquiet : Quiet origin count gap returned) : stream.unread = [] ∧ stream.connection.peerClosed = false := by
  refine ⟨?_, Bool.eq_false_iff.mpr fun hclosed => hquiet.listens ((h.announced_of_begins hbegins).mp hclosed)⟩
  have hlength := (accepted_mono origin (Nat.le_add_right count gap)).length_le
  rw [h.accounts_of_begins hbegins, hquiet.nothing, List.length_append] at hlength
  exact List.length_eq_zero_iff.mp (by omega)

/-- A call passes over reads of the transport that bring nothing. -/
theorem Reading.read_of_quiet {gap : Nat} (h : Reading origin count returned stream) (hbegins : origin.Begins)
    (hquiet : Quiet origin count gap returned) :
    ∃ later, Reading origin (count + gap) returned later ∧ later.unread = [] ∧ later.connection.peerClosed = false ∧
      ∀ patience limit, stream.read (gap + patience) limit = later.read patience limit := by
  obtain ⟨hnone, hopen⟩ := h.silent_of_quiet hbegins hquiet
  induction gap generalizing count stream with
  | zero => exact ⟨stream, h, hnone, hopen, fun patience limit => by rw [Nat.zero_add]⟩
  | succ gap ih =>
    obtain ⟨hfetch, hreading⟩ := (h.drain hnone).advance
    obtain ⟨hstill, hlistens⟩ := hreading.silent_of_quiet hbegins hquiet.next
    obtain ⟨later, hlater, hlaterNone, hlaterOpen, hread⟩ := ih hreading hquiet.next hstill hlistens
    refine ⟨later, by rwa [Nat.add_right_comm] at hlater, hlaterNone, hlaterOpen, fun patience limit => ?_⟩
    rw [Nat.add_right_comm, read_succ_of_heard hnone hopen (.inl (hfetch.trans hquiet.fetch)), hread]

/-- What the reader hears of is the first read of the transport that fails. -/
theorem Reading.read_of_failed {gap : Nat} (h : Reading origin count returned stream) (hbegins : origin.Begins)
    (hquiet : Quiet origin count gap returned) {failure : StreamError ε}
    (hfailed : origin.fetch (count + gap) = .error failure) (hother : failure ≠ .connection (.receivedAlert .closeNotify))
    (patience limit : Nat) : (stream.read (gap + (patience + 1)) limit).1 = .error failure := by
  obtain ⟨later, hlater, hnone, hopen, hread⟩ := h.read_of_quiet hbegins hquiet
  rw [hread, read_succ_of_failed hnone hopen ((hlater.drain hnone).advance.1.trans hfailed) hother]

/-- Where the next read of the transport does not fail, the reader hears of what it brought. -/
theorem Reading.read_of_heard {gap : Nat} (h : Reading origin count returned stream) (hbegins : origin.Begins)
    (hquiet : Quiet origin count gap returned) (hheard : origin.fetch (count + gap) = .ok () ∨
      origin.fetch (count + gap) = .error (.connection (.receivedAlert .closeNotify))) :
    ∃ later, Reading origin (count + gap + 1) returned later ∧
      ∀ patience limit, stream.read (gap + (patience + 1)) limit = later.read patience limit := by
  obtain ⟨later, hlater, hnone, hopen, hread⟩ := h.read_of_quiet hbegins hquiet
  obtain ⟨hfetch, hreading⟩ := (hlater.drain hnone).advance
  refine ⟨_, hreading, fun patience limit => ?_⟩
  rw [hread, read_succ_of_heard hnone hopen (hheard.imp hfetch.trans hfetch.trans)]

/-! ### All calls -/

/-- A call of a reader, which has room for `limit` bytes and waits for `patience` reads of the transport. -/
structure Request where
  limit : Nat
  positive : 0 < limit
  patience : Nat

/-- The bytes that calls one after the other give, and the stream behind them. A call that fails gives none. -/
def readAll (stream : SecureStream κ τ) : (requests : List Request) → Bytes × SecureStream κ τ
  | [] => ([], stream)
  | request :: rest =>
    let (result, after) := stream.read request.patience request.limit
    let (more, last) := after.readAll rest
    (result.toOption.getD [] ++ more, last)

theorem Reading.readAll (h : Reading origin count returned stream) (requests : List Request) :
    ∃ reached, Reading origin reached (returned ++ (stream.readAll requests).1) (stream.readAll requests).2 := by
  induction requests generalizing count returned stream with
  | nil => exact ⟨count, by simpa [SecureStream.readAll] using h⟩
  | cons request rest ih =>
    have houtcome := h.outcome request.limit request.patience
    obtain ⟨reached, hreached⟩ : ∃ reached, Reading origin reached
        (returned ++ (stream.read request.patience request.limit).1.toOption.getD [])
        (stream.read request.patience request.limit).2 := by
      generalize (stream.read request.patience request.limit).1 = result at houtcome ⊢
      cases houtcome with
      | data some room reading => exact ⟨_, reading⟩
      | finished announced reading nothing => exact ⟨_, by simpa [Except.toOption] using reading⟩
      | stalled reading => exact ⟨_, by simpa [Except.toOption] using reading⟩
      | failed failed reading => exact ⟨_, by simpa [Except.toOption] using reading⟩
    obtain ⟨last, hlast⟩ := ih hreached
    rw [List.append_assoc] at hlast
    exact ⟨last, hlast⟩

theorem keepsBegins_flushOutgoing : Keeps (Begins (κ := κ) (τ := τ)) (fun _ => True) flushOutgoing := by
  refine keeps_of_perform fun stream value h _ => ?_
  obtain ⟨⟨entropy, transport, hused⟩, -⟩ := used_flushOutgoing stream
  rw [hused]
  exact ⟨h.listens, h.pending⟩

theorem keepsBegins_receiveSome : Keeps (Begins (κ := κ) (τ := τ)) (fun _ => True) receiveSome := by
  refine keeps_of_perform fun stream value h hvalue => ?_
  refine ⟨?_, (pending_receiveSome stream).trans h.pending⟩
  rw [Bool.eq_false_iff, Ne, peerClosed_receiveSome, hvalue]
  simp [h.listens]

theorem keepsBegins_exchange (patience : Nat) : Keeps (Begins (κ := κ) (τ := τ)) (fun _ => True) (exchange patience) := by
  induction patience with
  | zero =>
    rw [exchange]
    refine .bind keepsBegins_flushOutgoing fun _ => .get_bind fun stream _ => ?_
    exact .ite (fun _ => .throw fun _ _ => trivial) fun _ => .pure _
  | succ patience ih =>
    rw [exchange]
    refine .bind keepsBegins_flushOutgoing fun _ => .get_bind fun stream _ => ?_
    exact .ite (fun _ => .bind keepsBegins_receiveSome fun _ => ih) fun _ => .pure _

theorem begins_of_handshake {configuration : Configuration κ} {entropy : Entropy} {connection : Connection κ}
    {transport : τ} (hmade : configuration.connection entropy = .ok connection)
    (hopened : handshake patience connection transport = (.ok (), origin)) : origin.Begins := by
  obtain ⟨⟨error | _, opened⟩, hstart⟩ : ∃ outcome, connection.start = outcome := ⟨_, rfl⟩
  · rw [handshake, perform_onConnection_bind_of_error hstart] at hopened
    cases hopened
  · rw [handshake_of_start hstart, perform] at hopened
    cases hrun : (exchange patience).run (⟨opened, transport, []⟩ : SecureStream κ τ) with
    | ok value after =>
      rw [hrun] at hopened
      cases hopened
      exact (keepsBegins_exchange patience).of_ok hrun ⟨(Configuration.unheard_start hmade hstart).listens, rfl⟩
    | error error after =>
      rw [hrun] at hopened
      cases hopened

/-- What a reader can rely on that was given `returned` by calls of its own, `stream` being what they and
`count` reads of the transport made of `origin`. -/
structure Answers (origin : SecureStream κ τ) (count : Nat) (returned : Bytes) (stream : SecureStream κ τ) : Prop where
  reading : Reading origin count returned stream
  /-- All that was accepted it was given or can still read. -/
  accounts : (origin.accepted count).flatten = returned ++ stream.unread
  /-- What was accepted can be read, whatever failed since. -/
  readable : stream.unread ≠ [] → ∀ request : Request, ∃ chunk after,
    stream.read request.patience request.limit = (.ok chunk, after) ∧ chunk ≠ [] ∧ chunk.length ≤ request.limit ∧
      stream.unread = chunk ++ after.unread
  /-- It is told of the end when the peer announced it and all that was accepted was given. -/
  ended : ∀ (request : Request) (after : SecureStream κ τ), stream.read request.patience request.limit = (.ok [], after) →
    ∃ reached, Reading origin reached returned after ∧ origin.Announced reached ∧
      (origin.accepted reached).flatten = returned
  finished : origin.Announced count → (origin.accepted count).flatten = returned → ∀ request : Request,
    (stream.read request.patience request.limit).1 = .ok []
  /-- Records may come that bring nothing, such as empty ones. They are passed over, up to the announcement or the
  first data, and there is no end but at an announcement without data. -/
  arrives : ∀ (request : Request) (gap : Nat), gap < request.patience → Quiet origin count gap returned →
    origin.fetch (count + gap) = .error (.connection (.receivedAlert .closeNotify)) ∨
      origin.fetch (count + gap) = .ok () ∧ (origin.accepted (count + gap + 1)).flatten ≠ returned →
    ∃ chunk, (stream.read request.patience request.limit).1 = .ok chunk ∧
      (chunk = [] ↔ (origin.accepted (count + gap + 1)).flatten = returned)
  /-- Or up to the first failure, which may come with data and is told before it. -/
  fails : ∀ (request : Request) (gap : Nat), gap < request.patience → Quiet origin count gap returned →
    ∀ failure, origin.fetch (count + gap) = .error failure → failure ≠ .connection (.receivedAlert .closeNotify) →
      (stream.read request.patience request.limit).1 = .error failure
  /-- That the transport ends there is a failure. -/
  missing : ∀ (request : Request) (gap : Nat), gap < request.patience → Quiet origin count gap returned →
    origin.EndsAt (count + gap) → (stream.read request.patience request.limit).1 = .error (.transport .unexpectedEof)

theorem Reading.fails (h : Reading origin count returned stream) (hbegins : origin.Begins) {request : Request} {gap : Nat}
    (hgap : gap < request.patience) (hquiet : Quiet origin count gap returned) {failure : StreamError ε}
    (hfailed : origin.fetch (count + gap) = .error failure) (hother : failure ≠ .connection (.receivedAlert .closeNotify)) :
    (stream.read request.patience request.limit).1 = .error failure := by
  obtain ⟨patience, hpatience⟩ := Nat.exists_eq_add_of_lt hgap
  rw [hpatience]
  exact h.read_of_failed hbegins hquiet hfailed hother patience request.limit

theorem Reading.arrives (h : Reading origin count returned stream) (hbegins : origin.Begins) {request : Request} {gap : Nat}
    (hgap : gap < request.patience) (hquiet : Quiet origin count gap returned)
    (hheard : origin.fetch (count + gap) = .error (.connection (.receivedAlert .closeNotify)) ∨
      origin.fetch (count + gap) = .ok () ∧ (origin.accepted (count + gap + 1)).flatten ≠ returned) :
    ∃ chunk, (stream.read request.patience request.limit).1 = .ok chunk ∧
      (chunk = [] ↔ (origin.accepted (count + gap + 1)).flatten = returned) := by
  obtain ⟨patience, hpatience⟩ := Nat.exists_eq_add_of_lt hgap
  obtain ⟨later, hlater, hread⟩ := h.read_of_heard hbegins hquiet (hheard.symm.imp_left And.left)
  rw [hpatience, show gap + patience + 1 = gap + (patience + 1) from rfl, hread]
  by_cases hnone : (origin.accepted (count + gap + 1)).flatten = returned
  · have htold := hheard.resolve_right fun harrived => harrived.2 hnone
    have hclosed := (hlater.announced_of_begins hbegins).mpr (announced_succ.mpr (.inr htold))
    rw [read_of_peerClosed ((hlater.unread_eq_nil_iff hbegins).mpr hnone) hclosed]
    exact ⟨[], rfl, iff_of_true rfl hnone⟩
  · obtain ⟨chunk, after, hchunk, hsome, -, -⟩ :=
      hlater.read_of_unread (mt (hlater.unread_eq_nil_iff hbegins).mp hnone) request.limit
    rw [hchunk]
    exact ⟨chunk, rfl, iff_of_false (hsome request.positive) hnone⟩

theorem Reading.answers (h : Reading origin count returned stream) (hbegins : origin.Begins) :
    Answers origin count returned stream where
  reading := h
  accounts := h.accounts_of_begins hbegins
  readable hunread request := by
    obtain ⟨chunk, after, hread, hsome, hroom, hreading⟩ := h.read_of_unread hunread request.limit
    have hboth := h.accounts.symm.trans hreading.accounts
    rw [List.append_assoc] at hboth
    exact ⟨chunk, after, hread request.patience, hsome request.positive, hroom, List.append_cancel_left hboth⟩
  ended request after hread := by
    have houtcome := h.outcome request.limit request.patience
    rw [hread] at houtcome
    cases houtcome with
    | data some room reading => exact absurd rfl (some request.positive)
    | finished announced reading nothing =>
      exact ⟨_, reading, announced.resolve_left (by simp [hbegins.listens]),
        (reading.unread_eq_nil_iff hbegins).mp nothing⟩
  finished hannounced hgiven request := by
    rw [read_of_peerClosed ((h.unread_eq_nil_iff hbegins).mpr hgiven) ((h.announced_of_begins hbegins).mpr hannounced)]
  arrives _ _ hgap hquiet := h.arrives hbegins hgap hquiet
  fails _ _ hgap hquiet _ := h.fails hbegins hgap hquiet
  missing _ _ hgap hquiet hends := h.fails hbegins hgap hquiet (fetch_of_endsAt hends) nofun

/-- **A reader gets the data that was accepted, in order, and the end only where the peer announced it.** This is
so for every stream that a handshake opened, over any transport, and for any calls. By how many bytes at a
time the reader asks makes no difference: of any two readers one gets the front of what the other gets. -/
theorem readAll_accepted {configuration : Configuration κ} {entropy : Entropy} {connection : Connection κ}
    {transport : τ} (hmade : configuration.connection entropy = .ok connection)
    (hopened : handshake patience connection transport = (.ok (), origin)) :
    (∀ requests, ∃ count, Answers origin count (origin.readAll requests).1 (origin.readAll requests).2) ∧
      ∀ requests others, (origin.readAll requests).1 <+: (origin.readAll others).1 ∨
        (origin.readAll others).1 <+: (origin.readAll requests).1 := by
  have hbegins := begins_of_handshake hmade hopened
  have hall (requests : List Request) := (Reading.begin origin).readAll requests
  have hgiven {requests : List Request} {count more : Nat} (hmore : count ≤ more)
      (h : Reading origin count ([] ++ (origin.readAll requests).1) (origin.readAll requests).2) :
      (origin.readAll requests).1 <+: (origin.accepted more).flatten :=
    (h.accounts_of_begins hbegins ▸ List.prefix_append _ _).trans (accepted_mono origin hmore)
  refine ⟨fun requests => ?_, fun requests others => ?_⟩
  · obtain ⟨count, hreading⟩ := hall requests
    exact ⟨count, hreading.answers hbegins⟩
  · obtain ⟨count, hreading⟩ := hall requests
    obtain ⟨other, hother⟩ := hall others
    exact List.prefix_or_prefix_of_prefix (hgiven (Nat.le_max_left count other) hreading)
      (hgiven (Nat.le_max_right count other) hother)

/-- The handshake, an empty record and five bytes of application data. The end is missing. -/
def plainTruncated : Tape :=
  ⟨[usualGreeting, plainFinish, [23, 3, 3, 0, 0], [23, 3, 3, 0, 5, 104, 101, 108, 108, 111]], by decide⟩

/-- A reader that asks for three bytes and for four gets all five, and then hears of the missing end. -/
theorem readAll_accepted_truncated :
    ∃ stream, handshake 2 plainClient plainTruncated = (.ok (), stream) ∧
      (∃ count, Answers stream count [104, 101, 108, 108, 111]
        (stream.readAll [⟨3, by decide, 2⟩, ⟨4, by decide, 2⟩]).2) ∧
      ((stream.readAll [⟨3, by decide, 2⟩, ⟨4, by decide, 2⟩]).2.read 1 1).1 = .error (.transport .unexpectedEof) := by
  have hmade : (Configuration.client transparentClient).connection ⟨fun _ => 7, 0⟩ = .ok plainClient := rfl
  have hopened : handshake 2 plainClient plainTruncated = (.ok (), (handshake 2 plainClient plainTruncated).2) :=
    Prod.ext (by cbv) rfl
  have hgiven : ((handshake 2 plainClient plainTruncated).2.readAll [⟨3, by decide, 2⟩, ⟨4, by decide, 2⟩]).1 =
      [104, 101, 108, 108, 111] := by cbv
  obtain ⟨count, hanswers⟩ := (readAll_accepted hmade hopened).1 [⟨3, by decide, 2⟩, ⟨4, by decide, 2⟩]
  rw [hgiven] at hanswers
  exact ⟨_, hopened, ⟨count, hanswers⟩, by cbv⟩

end SecureStream

end PresharedTls
