import PresharedTls.Proofs.Ending
import PresharedTls.Proofs.Fetching

/-!
# The alert behind a failure

A connection that finds a fault queues an alert for its peer. Whether the peer is ever told is up to the stream.
What is found in bytes that arrived is told: all that was queued by then is written before the failure is
reported. A hello that cannot be written and data that cannot be protected fail before the stream comes to
writing anything, and there the alert stays in the queue.
-/

namespace PresharedTls

/-- A transport that takes at least one byte of all that it is offered. -/
def Transport.Writes (τ : Type) {ε : Type} [Transport τ ε] : Prop :=
  ∀ {b : Bytes}, b ≠ [] → ∀ (transport : τ) (entropy : Entropy), ∃ count after entropy',
    Transport.write b transport entropy = (.ok count, after, entropy') ∧ 0 < count

/-- The bytes of the record by which an endpoint announces an alert, if it can. -/
def Endpoint.alarm {κ : Type} (alert : AlertDescription) (endpoint : Endpoint κ) : Bytes :=
  ((endpoint.announce alert).outgoing.drop endpoint.outgoing.length).flatMap Record.bytes

namespace Connection

variable {κ : Type} {connection failed : Connection κ} {alert : AlertDescription}

/-- A failure that the peer is to be told of has its alert behind all else that is queued. -/
theorem takeOutgoing_of_fail {endpoint : Endpoint κ} (h : failed.toEndpoint = endpoint.fail (.sentAlert alert)) :
    failed.takeOutgoing.1 = endpoint.outgoing.flatMap Record.bytes ++ endpoint.alarm alert := by
  obtain ⟨record, hrecord⟩ := Endpoint.outgoing_after_sendRecord .alert (Alert.fatal alert).bytes endpoint
  have houtgoing : failed.outgoing = (endpoint.announce alert).outgoing :=
    (congrArg Endpoint.outgoing h).trans rfl
  rw [takeOutgoing, houtgoing, Endpoint.alarm, Endpoint.announce, hrecord, List.drop_left, List.flatMap_append]

theorem exists_of_perform {step : Endpoint.Step κ Unit} (h : connection.perform step = (.error (.sentAlert alert), failed)) :
    ∃ endpoint, step.run connection.toEndpoint = .error (.sentAlert alert) endpoint ∧
      failed.toEndpoint = endpoint.fail (.sentAlert alert) := by
  cases hrun : step.run connection.toEndpoint with
  | ok value endpoint =>
    rw [perform_of_ok hrun] at h
    cases h
  | error failure endpoint =>
    rw [perform_of_error hrun] at h
    cases h
    exact ⟨endpoint, rfl, rfl⟩

theorem exists_of_receive {b : Bytes} (h : connection.receive b = (.error (.sentAlert alert), failed)) :
    ∃ endpoint, (Endpoint.receiveRecords (connection.arriving b)).run connection.toEndpoint =
        .error (.sentAlert alert) endpoint ∧ failed.toEndpoint = endpoint.fail (.sentAlert alert) := by
  rw [receive] at h
  split at h
  · cases h
  split at h
  · cases h
  obtain ⟨endpoint, hrun, hfail⟩ := exists_of_perform h
  exact ⟨endpoint, hrun, hfail⟩

theorem exists_of_start (h : connection.start = (.error (.sentAlert alert), failed)) :
    ∃ endpoint : Endpoint κ, failed.toEndpoint = endpoint.fail (.sentAlert alert) := by
  rw [start] at h
  split at h
  · cases h
  split at h
  · cases h
  split at h
  all_goals
    obtain ⟨endpoint, -, hfail⟩ := exists_of_perform h
    exact ⟨endpoint, hfail⟩

theorem exists_of_send {data : Bytes} (h : connection.send data = (.error (.sentAlert alert), failed)) :
    ∃ endpoint : Endpoint κ, failed.toEndpoint = endpoint.fail (.sentAlert alert) := by
  rw [send] at h
  split at h
  · cases h
  split at h
  · cases h
  obtain ⟨endpoint, -, hfail⟩ := exists_of_perform h
  exact ⟨endpoint, hfail⟩

end Connection

namespace SecureStream

variable {κ τ ε : Type} [Transport τ ε] {alert : AlertDescription} {patience : Nat}

/-! ### What is written -/

theorem run_writeAll_logged (hwrites : Transport.Writes τ) (b : Bytes) (stream : SecureStream κ (Logged τ)) :
    ∃ entropy transport, (writeAll b).run stream =
      .ok () ⟨stream.connection.withEntropy entropy, ⟨transport, stream.transport.taken ++ b⟩, stream.pending⟩ := by
  induction hlength : b.length using Nat.strongRecOn generalizing b stream with
  | ind length ih =>
    rw [writeAll]
    by_cases hempty : b = []
    · subst hempty
      exact ⟨stream.connection.entropy, stream.transport.transport, by rw [List.append_nil]; rfl⟩
    obtain ⟨count, after, entropy, hwrite, hcount⟩ := hwrites hempty stream.transport.transport stream.connection.entropy
    have hlogged : Transport.write b stream.transport stream.connection.entropy =
        (.ok count, ⟨after, stream.transport.taken ++ b.take count⟩, entropy) := by
      show stream.transport.write b stream.connection.entropy = _
      rw [Logged.write, hwrite]
    have hrun : (onTransport (Transport.write b)).run stream =
        .ok count ⟨stream.connection.withEntropy entropy, ⟨after, stream.transport.taken ++ b.take count⟩,
          stream.pending⟩ := by
      rw [run_onTransport, hlogged]
      rfl
    obtain ⟨entropy', transport', hrest⟩ := ih _ (hlength ▸ length_drop_lt hempty hcount.ne') (b.drop count)
      ⟨stream.connection.withEntropy entropy, ⟨after, stream.transport.taken ++ b.take count⟩, stream.pending⟩ rfl
    refine ⟨entropy', transport', ?_⟩
    rw [if_neg (by simpa using hempty), run_bind_of_ok hrun, if_neg (by omega), hrest, List.append_assoc,
      List.take_append_drop]
    rfl

/-- Flushing writes all that is queued, though it can still fail. -/
theorem flushOutgoing_logged (hwrites : Transport.Writes τ) (stream : SecureStream κ (Logged τ)) :
    (perform flushOutgoing stream).2.transport.taken = stream.transport.taken ++ stream.connection.takeOutgoing.1 := by
  rw [perform, run_flushOutgoing_eq]
  by_cases hnothing : stream.connection.takeOutgoing.1 = []
  · rw [if_neg (by simp [hnothing]), hnothing, List.append_nil]
    rfl
  · obtain ⟨entropy, transport, hwrite⟩ := run_writeAll_logged hwrites stream.connection.takeOutgoing.1
      ⟨stream.connection.takeOutgoing.2, stream.transport, stream.pending⟩
    rw [if_pos (by simpa using hnothing), run_bind_of_ok hwrite, run_onTransport]
    dsimp only [Transport.flush, Logged.flush]
    cases (Transport.flush transport (stream.connection.takeOutgoing.2.withEntropy entropy).entropy).1 with
    | ok value => rfl
    | error fault => rfl

/-- A failure that was told: in bytes that a read of the transport brought, with some number of such reads behind
it since `begun`, the connection found what fails with `alert`. By the end all that it had queued is written,
the alert last. -/
structure Told (begun : SecureStream κ (Logged τ)) (alert : AlertDescription) (after : SecureStream κ (Logged τ)) : Prop where
  written : ∃ count b transport entropy endpoint,
    Transport.read readSize (begun.fetched count).transport (begun.fetched count).connection.entropy =
      (.ok b, transport, entropy) ∧
    (Endpoint.receiveRecords (((begun.fetched count).connection.withEntropy entropy).arriving b)).run
      ((begun.fetched count).connection.withEntropy entropy).toEndpoint = .error (.sentAlert alert) endpoint ∧
    after.transport.taken =
      (begun.fetched count).transport.taken ++ (endpoint.outgoing.flatMap Record.bytes ++ endpoint.alarm alert)
  nothing : after.connection.outgoing = []

theorem told_of_fetch (hwrites : Transport.Writes τ) {begun : SecureStream κ (Logged τ)} {count : Nat}
    (h : begun.fetch count = .error (.connection (.sentAlert alert))) : Told begun alert (begun.fetched (count + 1)) := by
  rw [fetched]
  rw [fetch] at h
  rcases perform_receiveSome_cases (begun.fetched count) with
    ⟨fault, transport, entropy, hfault⟩ | ⟨b, transport, entropy, received, connection, hread, hreceive, hreceived⟩
  · rw [hfault] at h
    cases h
  obtain ⟨⟨_, _, hused⟩, hother⟩ := used_flushOutgoing ⟨connection, transport, (begun.fetched count).pending⟩
  rw [hreceived] at h ⊢
  cases received with
  | ok value => exact absurd h (hother _)
  | error failure =>
    obtain rfl : failure = .sentAlert alert := by simpa [Except.mapError, Except.bind] using h
    obtain ⟨endpoint, hrun, hfail⟩ := Connection.exists_of_receive hreceive
    have hsame : transport.taken = (begun.fetched count).transport.taken :=
      (congrArg (fun outcome => outcome.2.1.taken) hread).symm
    refine ⟨⟨count, b, transport, entropy, endpoint, hread, hrun, ?_⟩, ?_⟩
    · rw [flushOutgoing_logged hwrites, Connection.takeOutgoing_of_fail hfail, hsame]
    · rw [hused]
      rfl

/-! ### Reading and shaking hands -/

theorem told_of_read (hwrites : Transport.Writes τ) {stream after : SecureStream κ (Logged τ)} {limit : Nat}
    (h : stream.read patience limit = (.error (.connection (.sentAlert alert)), after)) : Told stream alert after := by
  have houtcome := (Reading.begin stream).outcome limit patience
  rw [h] at houtcome
  cases houtcome with
  | failed failed reading =>
    obtain ⟨hwritten, hnothing⟩ := told_of_fetch hwrites failed
    obtain ⟨popped, hpopped, -⟩ := reading.connection
    rw [reading.transport] at hwritten
    rw [hpopped] at hnothing
    exact ⟨hwritten, hnothing⟩

theorem fetched_receiveSome (stream : SecureStream κ τ) (count : Nat) :
    (perform receiveSome stream).2.fetched count = stream.fetched (count + 1) := by
  induction count with
  | zero => rfl
  | succ count ih => rw [fetched, ih]; rfl

theorem fetch_receiveSome (stream : SecureStream κ τ) (count : Nat) :
    (perform receiveSome stream).2.fetch count = stream.fetch (count + 1) := by
  rw [fetch, fetched_receiveSome, fetch]

/-- An exchange that fails does so in its first writing, or in a read of the transport, or it is stalled. -/
theorem exchange_failed {stream after : SecureStream κ τ} {failure : StreamError ε}
    (h : perform (exchange patience) stream = (.error failure, after)) :
    (perform flushOutgoing stream).1 = .error failure ∨ failure = .stalled ∨
      ∃ count, (perform flushOutgoing stream).2.fetch count = .error failure ∧
        after = (perform flushOutgoing stream).2.fetched (count + 1) := by
  induction patience generalizing stream with
  | zero =>
    obtain ⟨⟨error | _, begun⟩, hflush⟩ : ∃ outcome, perform flushOutgoing stream = outcome := ⟨_, rfl⟩
    · rw [exchange, perform_bind_of_error hflush] at h
      exact .inl (hflush ▸ congrArg Prod.fst h)
    · rw [exchange, perform_bind_of_ok hflush, perform_get_bind] at h
      split at h <;> cases h
      exact .inr (.inl rfl)
  | succ patience ih =>
    obtain ⟨⟨error | _, begun⟩, hflush⟩ : ∃ outcome, perform flushOutgoing stream = outcome := ⟨_, rfl⟩
    · rw [exchange, perform_bind_of_error hflush] at h
      exact .inl (hflush ▸ congrArg Prod.fst h)
    · rw [exchange, perform_bind_of_ok hflush, perform_get_bind] at h
      rw [hflush]
      split at h
      · obtain ⟨⟨error | _, next⟩, hreceive⟩ : ∃ outcome, perform receiveSome begun = outcome := ⟨_, rfl⟩
        · rw [perform_bind_of_error hreceive] at h
          cases h
          exact .inr (.inr ⟨0, congrArg Prod.fst hreceive, (congrArg Prod.snd hreceive).symm⟩)
        · -- Nothing is queued behind a read that succeeded, so the next writing does nothing.
          rw [perform_bind_of_ok hreceive] at h
          have hnothing : next.connection.outgoing = [] := by
            simpa only [hreceive] using outgoing_receiveSome (congrArg Prod.fst hreceive)
          have hnext := ih h
          rw [perform_flushOutgoing_of_nothing hnothing] at hnext
          rcases hnext with hok | hstalled | ⟨count, hfetch, hafter⟩
          · cases hok
          · exact .inr (.inl hstalled)
          · have hstep : (perform receiveSome begun).2 = next := congrArg Prod.snd hreceive
            rw [← hstep, fetch_receiveSome] at hfetch
            rw [← hstep, fetched_receiveSome] at hafter
            exact .inr (.inr ⟨count + 1, hfetch, hafter⟩)
      · cases h

theorem told_of_handshake (hwrites : Transport.Writes τ) {connection opened : Connection κ} {transport : Logged τ}
    {after : SecureStream κ (Logged τ)} (hstart : connection.start = (.ok (), opened))
    (h : handshake patience connection transport = (.error (.connection (.sentAlert alert)), after)) :
    Told (perform flushOutgoing ⟨opened, transport, []⟩).2 alert after := by
  rw [handshake_of_start hstart] at h
  rcases exchange_failed h with hflush | hstalled | ⟨count, hfetch, rfl⟩
  · exact absurd hflush ((used_flushOutgoing ⟨opened, transport, []⟩).2 _)
  · cases hstalled
  · exact told_of_fetch hwrites hfetch

/-! ### Before there is anything to write -/

/-- A failure that was not told: a call of the connection came to it, and of what is queued by then, the alert
included, nothing is written. -/
structure Untold (before : Logged τ) (alert : AlertDescription) (call : Except ConnectionError Unit × Connection κ)
    (after : SecureStream κ (Logged τ)) : Prop where
  failed : call = (.error (.sentAlert alert), after.connection)
  queued : ∃ endpoint : Endpoint κ, after.connection.toEndpoint = endpoint.fail (.sentAlert alert)
  transport : after.transport = before

theorem untold_of_handshake {connection failed : Connection κ} {failure : ConnectionError} {transport : Logged τ}
    {after : SecureStream κ (Logged τ)} (hstart : connection.start = (.error failure, failed))
    (h : handshake patience connection transport = (.error (.connection (.sentAlert alert)), after)) :
    Untold transport alert connection.start after := by
  rw [handshake, perform_onConnection_bind_of_error hstart] at h
  cases h
  exact ⟨hstart, Connection.exists_of_start hstart, rfl⟩

theorem untold_of_write {stream after : SecureStream κ (Logged τ)} {data : Bytes}
    (h : stream.write data = (.error (.connection (.sentAlert alert)), after)) :
    Untold stream.transport alert (stream.connection.send data) after := by
  obtain ⟨⟨failure | _, sent⟩, hsend⟩ : ∃ outcome, stream.connection.send data = outcome := ⟨_, rfl⟩
  · rw [write, perform_onConnection_bind_of_error hsend] at h
    cases h
    exact ⟨hsend, Connection.exists_of_send hsend, rfl⟩
  · rw [write, perform_onConnection_bind_of_ok hsend] at h
    obtain ⟨⟨error | _, flushed⟩, hflush⟩ :
        ∃ outcome, perform flushOutgoing ⟨sent, stream.transport, stream.pending⟩ = outcome := ⟨_, rfl⟩
    · rw [perform_bind_of_error hflush] at h
      cases h
      exact absurd (congrArg Prod.fst hflush) ((used_flushOutgoing _).2 _)
    · rw [perform_bind_of_ok hflush] at h
      cases h

/-! ### Beside the stream itself -/

theorem read_logged (stream : SecureStream κ τ) (taken : Bytes) (patience limit : Nat) :
    ∃ more, (stream.logged taken).read patience limit =
      ((stream.read patience limit).1, (stream.read patience limit).2.logged more) :=
  Loggable.perform (corresponds_awaitData Logged.alike limit patience) stream taken

theorem handshake_logged (patience : Nat) (connection : Connection κ) (transport : τ) (taken : Bytes) :
    ∃ more, handshake patience connection (⟨transport, taken⟩ : Logged τ) =
      ((handshake patience connection transport).1, (handshake patience connection transport).2.logged more) :=
  Loggable.perform (.bind (corresponds_onConnection fun _ => rfl) fun _ => corresponds_exchange Logged.alike patience)
    ⟨connection, transport, []⟩ taken

theorem write_logged (stream : SecureStream κ τ) (data taken : Bytes) :
    ∃ more, (stream.logged taken).write data = ((stream.write data).1, (stream.write data).2.logged more) :=
  Loggable.perform (.bind (corresponds_onConnection fun _ => rfl) fun _ =>
    .bind (corresponds_flushOutgoing Logged.alike) fun _ => .pure _) stream taken

/-- **An alert that a stream reports is written, where it comes from bytes that the stream read.** Over a transport
that takes what it is offered, this is so of all reading, and of a handshake once it has begun. A handshake that
cannot begin, and a writing that fails in the connection, leave the alert unwritten. What is written is seen in a
log beside the transport, which makes no difference to the stream. -/
theorem told_before_failure (hwrites : Transport.Writes τ) (taken : Bytes) :
    (∀ (stream after : SecureStream κ τ) (limit patience : Nat) (alert : AlertDescription),
      stream.read patience limit = (.error (.connection (.sentAlert alert)), after) →
      ∃ more, (stream.logged taken).read patience limit = (.error (.connection (.sentAlert alert)), after.logged more) ∧
        Told (stream.logged taken) alert (after.logged more)) ∧
    (∀ (connection : Connection κ) (transport : τ) (after : SecureStream κ τ) (patience : Nat) (alert : AlertDescription),
      handshake patience connection transport = (.error (.connection (.sentAlert alert)), after) →
      ∃ more, handshake patience connection (⟨transport, taken⟩ : Logged τ) =
          (.error (.connection (.sentAlert alert)), after.logged more) ∧
        (Untold ⟨transport, taken⟩ alert connection.start (after.logged more) ∨
          ∃ opened, connection.start = (.ok (), opened) ∧
            Told (perform flushOutgoing ⟨opened, ⟨transport, taken⟩, []⟩).2 alert (after.logged more))) ∧
    ∀ (stream after : SecureStream κ τ) (data : Bytes) (alert : AlertDescription),
      stream.write data = (.error (.connection (.sentAlert alert)), after) →
      ∃ more, (stream.logged taken).write data = (.error (.connection (.sentAlert alert)), after.logged more) ∧
        Untold ⟨stream.transport, taken⟩ alert (stream.connection.send data) (after.logged more) := by
  refine ⟨fun stream after limit patience alert h => ?_, fun connection transport after patience alert h => ?_,
    fun stream after data alert h => ?_⟩
  · obtain ⟨more, hlogged⟩ := read_logged stream taken patience limit
    rw [h] at hlogged
    exact ⟨more, hlogged, told_of_read hwrites hlogged⟩
  · obtain ⟨more, hlogged⟩ := handshake_logged patience connection transport taken
    rw [h] at hlogged
    refine ⟨more, hlogged, ?_⟩
    obtain ⟨⟨failure | _, opened⟩, hstart⟩ : ∃ outcome, connection.start = outcome := ⟨_, rfl⟩
    · exact .inl (untold_of_handshake hstart hlogged)
    · exact .inr ⟨opened, hstart, told_of_handshake hwrites hstart hlogged⟩
  · obtain ⟨more, hlogged⟩ := write_logged stream data taken
    rw [h] at hlogged
    exact ⟨more, hlogged, untold_of_write hlogged⟩

theorem writes_tape : Transport.Writes Tape := fun {b} hb tape entropy =>
  ⟨b.length, tape, entropy, rfl, List.length_pos_iff.mpr hb⟩

/-- A handshake message of a type that there is not. -/
def plainNonsense : Tape :=
  ⟨[[22, 3, 3, 0, 4, 99, 0, 0, 0]], by decide⟩

/-- A provider that leaves records as they are and refuses to protect application data. -/
def taciturn : Provider Unit :=
  { transparent with
    protect := fun _ typeCode _ plaintext entropy =>
      if typeCode = ContentType.applicationData.code then (.error .internalError, (), entropy)
      else (.ok plaintext, (), entropy) }

/-- A client's stream behind a handshake, to which nothing can be written. -/
def taciturnStream : SecureStream Unit Tape :=
  (handshake 2 (ClientSettings.connection { transparentClient with provider := taciturn } ⟨fun _ => 7, 0⟩)
    (⟨[usualGreeting, plainFinish], by decide⟩ : Tape)).2

/-- A client that hears nonsense tells the server, and one that cannot send keeps its alert to itself. -/
theorem told_before_failure_plain :
    (∃ after more, handshake 1 plainClient plainNonsense = (.error (.connection (.sentAlert .unexpectedMessage)), after) ∧
      Told (perform flushOutgoing ⟨plainClient.start.2, ⟨plainNonsense, []⟩, []⟩).2 .unexpectedMessage (after.logged more)) ∧
    ∃ after, taciturnStream.write [1] = (.error (.connection (.sentAlert .internalError)), after) ∧
      Untold ⟨taciturnStream.transport, []⟩ .internalError (taciturnStream.connection.send [1]) (after.logged []) ∧
      after.connection.takeOutgoing.1 = [21, 3, 3, 0, 2, 2, 80] := by
  obtain ⟨-, hhandshake, hwrite⟩ := told_before_failure (κ := Unit) writes_tape []
  constructor
  · have hfailed : handshake 1 plainClient plainNonsense =
        (.error (.connection (.sentAlert .unexpectedMessage)), _) := Prod.ext (by cbv) rfl
    have hstart : plainClient.start = (.ok (), plainClient.start.2) := Prod.ext (by cbv) rfl
    obtain ⟨more, -, huntold | ⟨opened, hopened, htold⟩⟩ := hhandshake _ _ _ _ _ hfailed
    · cases hstart.symm.trans huntold.failed
    · cases hstart.symm.trans hopened
      exact ⟨_, more, hfailed, htold⟩
  · have hfailed : taciturnStream.write [1] = (.error (.connection (.sentAlert .internalError)), _) :=
      Prod.ext (by cbv) rfl
    obtain ⟨more, -, huntold⟩ := hwrite _ _ _ _ hfailed
    obtain rfl : more = [] := congrArg Logged.taken huntold.transport
    exact ⟨_, hfailed, huntold, by cbv⟩

end SecureStream

end PresharedTls
