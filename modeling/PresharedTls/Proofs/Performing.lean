import PresharedTls.Proofs.Steps
import PresharedTls.SecureStream

/-!
# Performing the steps of a stream

What performing a step comes to is put together from what its parts come to. Two parts are put together here for
all that follows: flushing, which empties the queue of a connection whatever the transport does, and one read of
the transport, which fails with the transport or hands in what arrived and flushes.
-/

namespace PresharedTls.SecureStream

variable {κ τ ε α : Type} {stream : SecureStream κ τ}

theorem run_onTransport (call : τ → Entropy → Except (TransportFault ε) α × τ × Entropy) (stream : SecureStream κ τ) :
    (onTransport call).run stream =
      (accept ((call stream.transport stream.connection.entropy).1.mapError .transport)).run
        ⟨stream.connection.withEntropy (call stream.transport stream.connection.entropy).2.2,
          (call stream.transport stream.connection.entropy).2.1, stream.pending⟩ := rfl

theorem run_attempt (step : Step κ τ ε α) (stream : SecureStream κ τ) :
    (attempt step).run stream =
      match step.run stream with
      | .ok value after => .ok (.ok value) after
      | .error error after => .ok (.error error) after := rfl

theorem run_eq_of_perform {step other : Step κ τ ε α} {stream after : SecureStream κ τ}
    (h : perform step stream = perform other after) : step.run stream = other.run after := by
  rw [perform, perform] at h
  cases hstep : step.run stream <;> cases hother : other.run after <;> rw [hstep, hother] at h <;> cases h <;> rfl

theorem perform_bind_of_ok {β : Type} {step : Step κ τ ε α} {next : α → Step κ τ ε β}
    {stream after : SecureStream κ τ} {value : α}
    (h : perform step stream = (.ok value, after)) : perform (step >>= next) stream = perform (next value) after := by
  rw [perform] at h
  cases hrun : step.run stream with
  | ok other behind =>
    rw [hrun] at h
    cases h
    rw [perform, run_bind_of_ok hrun, perform]
  | error error behind =>
    rw [hrun] at h
    cases h

theorem perform_bind_of_error {β : Type} {step : Step κ τ ε α} {next : α → Step κ τ ε β} {stream after : SecureStream κ τ}
    {error : StreamError ε} (h : perform step stream = (.error error, after)) :
    perform (step >>= next) stream = (.error error, after) := by
  rw [perform] at h
  cases hrun : step.run stream with
  | ok value behind =>
    rw [hrun] at h
    cases h
  | error other behind =>
    rw [hrun] at h
    cases h
    rw [perform, run_bind_of_error hrun]

theorem perform_get_bind {next : SecureStream κ τ → Step κ τ ε α} (stream : SecureStream κ τ) :
    perform (get >>= next) stream = perform (next stream) stream := rfl

theorem perform_attempt (step : Step κ τ ε α) (stream : SecureStream κ τ) :
    perform (attempt step) stream = (.ok (perform step stream).1, (perform step stream).2) := by
  rw [perform, run_attempt, perform]
  cases step.run stream <;> rfl

theorem perform_accept (result : Except (StreamError ε) α) (stream : SecureStream κ τ) :
    perform (accept result) stream = (result, stream) := by
  cases result <;> rfl

theorem perform_onTransport (call : τ → Entropy → Except (TransportFault ε) α × τ × Entropy) (stream : SecureStream κ τ) :
    perform (onTransport call) stream =
      ((call stream.transport stream.connection.entropy).1.mapError .transport,
        ⟨stream.connection.withEntropy (call stream.transport stream.connection.entropy).2.2,
          (call stream.transport stream.connection.entropy).2.1, stream.pending⟩) := by
  rw [← perform_accept, perform, run_onTransport, perform]

theorem perform_onConnection (work : Connection κ → Except ConnectionError α × Connection κ) (stream : SecureStream κ τ) :
    perform (onConnection work : Step κ τ ε α) stream =
      ((work stream.connection).1.mapError .connection,
        ⟨(work stream.connection).2, stream.transport, stream.pending⟩) := by
  rw [← perform_accept, perform, run_onConnection, perform]

theorem perform_onConnection_bind_of_ok {β : Type} {work : Connection κ → Except ConnectionError α × Connection κ}
    {next : α → Step κ τ ε β} {stream : SecureStream κ τ} {value : α} {after : Connection κ}
    (h : work stream.connection = (.ok value, after)) :
    perform (onConnection work >>= next) stream = perform (next value) ⟨after, stream.transport, stream.pending⟩ := by
  refine perform_bind_of_ok ?_
  rw [perform_onConnection, h]
  rfl

theorem perform_onConnection_bind_of_error {β : Type} {work : Connection κ → Except ConnectionError α × Connection κ}
    {next : α → Step κ τ ε β} {stream : SecureStream κ τ} {failure : ConnectionError} {failed : Connection κ}
    (h : work stream.connection = (.error failure, failed)) :
    perform (onConnection work >>= next) stream =
      (.error (.connection failure), ⟨failed, stream.transport, stream.pending⟩) := by
  refine perform_bind_of_error ?_
  rw [perform_onConnection, h]
  rfl

theorem keeps_of_perform {P : SecureStream κ τ → Prop} {step : Step κ τ ε α}
    (h : ∀ stream value, P stream → (perform step stream).1 = .ok value → P (perform step stream).2) :
    Keeps P (fun _ => True) step := by
  intro stream hstream
  rw [Ends]
  cases hrun : step.run stream with
  | ok value after =>
    have hafter := h stream value hstream
    rw [perform, hrun] at hafter
    exact hafter rfl
  | error error after => trivial

/-- Nothing of a stream but its transport was used. -/
def Used (before after : SecureStream κ τ) : Prop :=
  ∃ entropy transport, after = ⟨before.connection.withEntropy entropy, transport, before.pending⟩

/-- A step that does nothing to a stream but use its transport. If it fails, it is not by the connection. -/
def UsesTransport (before : SecureStream κ τ) (step : Step κ τ ε α) : Prop :=
  ∀ stream, before.Used stream → Ends step stream (fun _ => before.Used) fun failure after =>
    before.Used after ∧ ∀ error, failure ≠ .connection error

namespace UsesTransport

variable {before : SecureStream κ τ}

theorem pure (value : α) : before.UsesTransport (Pure.pure value : Step κ τ ε α) :=
  fun _ h => h

theorem throw (fault : TransportFault ε) :
    before.UsesTransport (MonadExcept.throw (StreamError.transport fault) : Step κ τ ε α) :=
  fun _ h => ⟨h, fun _ => nofun⟩

theorem bind {β : Type} {step : Step κ τ ε α} {next : α → Step κ τ ε β} (hstep : before.UsesTransport step)
    (hnext : ∀ value, before.UsesTransport (next value)) : before.UsesTransport (step >>= next) := by
  intro stream h
  rw [ends_bind]
  exact (hstep stream h).mono (fun value after => hnext value after) fun _ _ => id

theorem onTransport (call : τ → Entropy → Except (TransportFault ε) α × τ × Entropy) :
    before.UsesTransport (SecureStream.onTransport call) := by
  rintro _ ⟨entropy, transport, rfl⟩
  rw [Ends, run_onTransport]
  dsimp only
  cases (call transport (before.connection.withEntropy entropy).entropy).1 with
  | ok value => exact ⟨_, _, rfl⟩
  | error fault => exact ⟨⟨_, _, rfl⟩, fun _ h => by cases h⟩

theorem perform {step : Step κ τ ε α} (hstep : before.UsesTransport step) :
    before.Used (SecureStream.perform step before).2 ∧
      ∀ error, (SecureStream.perform step before).1 ≠ .error (.connection error) := by
  have hends := hstep before ⟨_, _, rfl⟩
  rw [Ends] at hends
  rw [SecureStream.perform]
  cases hrun : step.run before with
  | ok value after =>
    rw [hrun] at hends
    exact ⟨hends, fun _ h => by cases h⟩
  | error failure after =>
    rw [hrun] at hends
    exact ⟨hends.1, fun error h => hends.2 error (Except.error.inj h)⟩

end UsesTransport

/-! ### Flushing -/

variable [Transport τ ε]

/-- What is left to write gets less. -/
theorem length_drop_lt {b : Bytes} {count : Nat} (hb : b ≠ []) (hcount : count ≠ 0) : (b.drop count).length < b.length := by
  have := List.length_pos_iff.mpr hb
  rw [List.length_drop]
  omega

theorem usesTransport_writeAll (before : SecureStream κ τ) (b : Bytes) : before.UsesTransport (writeAll b) := by
  induction hlength : b.length using Nat.strongRecOn generalizing b with
  | ind length ih =>
    rw [writeAll]
    split
    · exact .pure _
    · next hempty =>
      refine .bind (.onTransport _) fun count => ?_
      split
      · exact .throw _
      · next hcount =>
        exact ih _ (hlength ▸ length_drop_lt (mt List.isEmpty_iff.mpr hempty) hcount) _ rfl

/-- The queue is empty before the first of it is written. -/
theorem run_flushOutgoing_eq (stream : SecureStream κ τ) :
    flushOutgoing.run stream =
      EStateM.run (if ¬ stream.connection.takeOutgoing.1.isEmpty then do
          writeAll stream.connection.takeOutgoing.1
          onTransport Transport.flush
        else pure ()) ⟨stream.connection.takeOutgoing.2, stream.transport, stream.pending⟩ := rfl

/-- Flushing empties the queue, whether the transport takes all of it or not. -/
theorem used_flushOutgoing (stream : SecureStream κ τ) :
    Used ⟨stream.connection.takeOutgoing.2, stream.transport, stream.pending⟩ (perform flushOutgoing stream).2 ∧
      ∀ error, (perform flushOutgoing stream).1 ≠ .error (.connection error) := by
  rw [perform, run_flushOutgoing_eq]
  refine UsesTransport.perform ?_
  split
  · exact .bind (usesTransport_writeAll _ _) fun _ => .onTransport _
  · exact .pure _

theorem perform_flushOutgoing_of_nothing {stream : SecureStream κ τ} (h : stream.connection.outgoing = []) :
    perform flushOutgoing stream = (.ok (), stream) := by
  obtain ⟨⟨⟨phase, side, session, handshake, outgoing, received, peerClosed, entropy⟩, incoming⟩, transport, pending⟩ :=
    stream
  subst h
  rfl

/-! ### One read of the transport -/

theorem perform_receiveSome_of_fault {fault : TransportFault ε} {transport : τ} {entropy : Entropy}
    (hread : Transport.read readSize stream.transport stream.connection.entropy = (.error fault, transport, entropy)) :
    perform receiveSome stream =
      (.error (.transport fault), ⟨stream.connection.withEntropy entropy, transport, stream.pending⟩) := by
  refine perform_bind_of_error ?_
  rw [perform_onTransport, hread]
  rfl

theorem perform_read_of_ok {b : Bytes} {transport : τ} {entropy : Entropy}
    (hread : Transport.read readSize stream.transport stream.connection.entropy = (.ok b, transport, entropy)) :
    perform (onTransport (Transport.read readSize)) stream =
      (.ok b, ⟨stream.connection.withEntropy entropy, transport, stream.pending⟩) := by
  rw [perform_onTransport, hread]
  rfl

/-- Where no more bytes arrive the peer's end is not announced, it is missing. -/
theorem perform_receiveSome_of_nil {transport : τ} {entropy : Entropy}
    (hread : Transport.read readSize stream.transport stream.connection.entropy = (.ok [], transport, entropy)) :
    perform receiveSome stream =
      (.error (.transport .unexpectedEof), ⟨stream.connection.withEntropy entropy, transport, stream.pending⟩) := by
  rw [receiveSome, perform_bind_of_ok (perform_read_of_ok hread)]
  rfl

/-- What arrives is handed in, and then all that is queued is written, whether the connection goes on or
not. -/
theorem perform_receiveSome_of_ok {b : Bytes} {transport : τ} {entropy : Entropy}
    (hread : Transport.read readSize stream.transport stream.connection.entropy = (.ok b, transport, entropy))
    (hsome : b ≠ []) {received : Except ConnectionError Unit} {connection : Connection κ}
    (hreceive : (stream.connection.withEntropy entropy).receive b = (received, connection)) :
    perform receiveSome stream =
      ((received.mapError .connection).bind fun _ => (perform flushOutgoing ⟨connection, transport, stream.pending⟩).1,
        (perform flushOutgoing ⟨connection, transport, stream.pending⟩).2) := by
  rw [receiveSome, perform_bind_of_ok (perform_read_of_ok hread), if_neg (by simpa using hsome),
    perform_bind_of_ok (perform_attempt _ _), perform_onConnection, hreceive, perform_bind_of_ok (perform_attempt _ _)]
  cases received with
  | ok value => exact (perform_bind_of_ok (perform_accept _ _)).trans (perform_accept _ _)
  | error failure => exact perform_bind_of_error (perform_accept _ _)

/-- A read of the transport fails with a fault of the transport, or it brings bytes that are handed in. -/
theorem perform_receiveSome_cases (stream : SecureStream κ τ) :
    (∃ fault transport entropy, perform receiveSome stream =
      (.error (.transport fault), ⟨stream.connection.withEntropy entropy, transport, stream.pending⟩)) ∨
    ∃ b transport entropy received connection,
      Transport.read readSize stream.transport stream.connection.entropy = (.ok b, transport, entropy) ∧
      (stream.connection.withEntropy entropy).receive b = (received, connection) ∧
      perform receiveSome stream =
        ((received.mapError .connection).bind fun _ => (perform flushOutgoing ⟨connection, transport, stream.pending⟩).1,
          (perform flushOutgoing ⟨connection, transport, stream.pending⟩).2) := by
  obtain ⟨⟨fault | b, transport, entropy⟩, hread⟩ :
      ∃ outcome, Transport.read readSize stream.transport stream.connection.entropy = outcome := ⟨_, rfl⟩
  · exact .inl ⟨fault, transport, entropy, perform_receiveSome_of_fault hread⟩
  by_cases hsome : b = []
  · subst hsome
    exact .inl ⟨_, transport, entropy, perform_receiveSome_of_nil hread⟩
  · obtain ⟨⟨received, connection⟩, hreceive⟩ :
        ∃ outcome, (stream.connection.withEntropy entropy).receive b = outcome := ⟨_, rfl⟩
    exact .inr ⟨b, transport, entropy, received, connection, hread, hreceive,
      perform_receiveSome_of_ok hread hsome hreceive⟩

/-- Nothing is queued behind a read that succeeded. -/
theorem outgoing_receiveSome {stream : SecureStream κ τ} (h : (perform receiveSome stream).1 = .ok ()) :
    (perform receiveSome stream).2.connection.outgoing = [] := by
  rcases perform_receiveSome_cases stream with
    ⟨fault, transport, entropy, hfault⟩ | ⟨b, transport, entropy, received, connection, hread, hreceive, hreceived⟩
  · rw [hfault] at h
    cases h
  · obtain ⟨⟨_, _, hused⟩, -⟩ := used_flushOutgoing ⟨connection, transport, stream.pending⟩
    rw [hreceived, hused]
    rfl

end PresharedTls.SecureStream
