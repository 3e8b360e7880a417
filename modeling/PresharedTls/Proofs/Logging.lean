import PresharedTls.Proofs.Chunking
import PresharedTls.Proofs.Performing

/-!
# Streams that run alike

A stream does with its transport what the transport's answers make it do. Two streams whose transports answer
alike therefore run alike, and what waits for a reader makes no difference as long as no reader asks for it.
This is what makes it safe to put a log of the bytes taken beside a transport: the stream does not notice.
-/

namespace PresharedTls

variable {κ τ τ' ε α : Type}

/-- The same outcome of a call, with transports behind it that are related. -/
structure Transport.SameOutcome (related : τ → τ' → Prop) (outcome : Except (TransportFault ε) α × τ × Entropy)
    (other : Except (TransportFault ε) α × τ' × Entropy) : Prop where
  result : other.1 = outcome.1
  transport : related outcome.2.1 other.2.1
  entropy : other.2.2 = outcome.2.2

/-- Related transports answer every call alike. -/
structure Transport.Alike [Transport τ ε] [Transport τ' ε] (related : τ → τ' → Prop) : Prop where
  read : ∀ {transport other}, related transport other → ∀ (limit : Nat) (entropy : Entropy),
    SameOutcome related (Transport.read limit transport entropy) (Transport.read limit other entropy)
  write : ∀ {transport other}, related transport other → ∀ (b : Bytes) (entropy : Entropy),
    SameOutcome related (Transport.write b transport entropy) (Transport.write b other entropy)
  flush : ∀ {transport other}, related transport other → ∀ entropy : Entropy,
    SameOutcome related (Transport.flush transport entropy) (Transport.flush other entropy)

theorem Transport.alike_eq [Transport τ ε] : Transport.Alike (Eq (α := τ)) where
  read := by
    rintro _ _ rfl limit entropy
    exact ⟨rfl, rfl, rfl⟩
  write := by
    rintro _ _ rfl b entropy
    exact ⟨rfl, rfl, rfl⟩
  flush := by
    rintro _ _ rfl entropy
    exact ⟨rfl, rfl, rfl⟩

theorem Connection.behind_nil (connection : Connection κ) : connection.behind [] [] = connection := rfl

namespace SecureStream

variable {related : τ → τ' → Prop} {data : List Bytes} {held : Bytes → Bytes → Prop}

/-- A stream beside another one: their transports are related, and its connection has `data` more in front
of what waits for the reader. -/
structure Beside (related : τ → τ' → Prop) (data : List Bytes) (held : Bytes → Bytes → Prop)
    (stream : SecureStream κ τ) (other : SecureStream κ τ') : Prop where
  connection : other.connection = stream.connection.behind [] data
  transport : related stream.transport other.transport
  pending : held stream.pending other.pending

theorem corresponds_accept (result : Except (StreamError ε) α) :
    Corresponds (Beside (κ := κ) related data held) (accept result) (accept result) := by
  cases result with
  | ok value => exact .pure value
  | error error => exact .throw error

/-- Nothing is asked of what would come behind a failure. -/
theorem corresponds_throw_bind {β : Type} (error : StreamError ε) (next : α → Step κ τ ε β) (next' : α → Step κ τ' ε β) :
    Corresponds (Beside related data held) (throw error >>= next) (throw error >>= next') :=
  fun _ other h => ⟨other, rfl, h⟩

/-- Work on a connection that does not look at what waits for the reader. -/
theorem corresponds_onConnection {work : Connection κ → Except ConnectionError α × Connection κ}
    (hwork : ∀ connection, work (connection.behind [] data) = ((work connection).1, (work connection).2.behind [] data)) :
    Corresponds (Beside related data held) (onConnection work : Step κ τ ε α) (onConnection work : Step κ τ' ε α) := by
  rw [onConnection, onConnection]
  refine .get_bind fun stream other h => ?_
  rw [h.connection, hwork]
  exact .bind (.set ⟨rfl, h.transport, h.pending⟩) fun _ => corresponds_accept _

theorem corresponds_onTransport {call : τ → Entropy → Except (TransportFault ε) α × τ × Entropy}
    {call' : τ' → Entropy → Except (TransportFault ε) α × τ' × Entropy}
    (hcall : ∀ {transport other}, related transport other → ∀ entropy,
      Transport.SameOutcome related (call transport entropy) (call' other entropy)) :
    Corresponds (Beside (κ := κ) related data held) (onTransport call) (onTransport call') := by
  rw [onTransport, onTransport]
  refine .get_bind fun stream other h => ?_
  have hentropy : other.connection.entropy = stream.connection.entropy := by rw [h.connection]; rfl
  obtain ⟨hresult, htransport, hafter⟩ := hcall h.transport stream.connection.entropy
  rw [hentropy, h.connection]
  generalize call stream.transport stream.connection.entropy = outcome at hresult htransport hafter
  generalize call' other.transport stream.connection.entropy = outcome' at hresult htransport hafter
  obtain ⟨result, transport, entropy⟩ := outcome
  obtain ⟨result', transport', entropy'⟩ := outcome'
  subst hresult hafter
  exact .bind (.set ⟨rfl, htransport, h.pending⟩) fun _ => corresponds_accept _

theorem corresponds_attempt {step : Step κ τ ε α} {step' : Step κ τ' ε α}
    (h : Corresponds (Beside related data held) step step') :
    Corresponds (Beside related data held) (attempt step) (attempt step') := by
  intro stream other hbeside
  have hends := h stream other hbeside
  rw [Ends] at hends ⊢
  rw [run_attempt]
  cases hstep : step.run stream with
  | ok value after =>
    rw [hstep] at hends
    obtain ⟨after', hother, hafter⟩ := hends
    exact ⟨after', by rw [run_attempt, hother], hafter⟩
  | error error after =>
    rw [hstep] at hends
    obtain ⟨after', hother, hafter⟩ := hends
    exact ⟨after', by rw [run_attempt, hother], hafter⟩

theorem corresponds_takePending (limit : Nat) :
    Corresponds (Beside related [] Eq) (takePending limit : Step κ τ ε Bytes)
      (takePending limit : Step κ τ' ε Bytes) := by
  rw [takePending, takePending]
  refine .get_bind fun stream other h => ?_
  rw [← h.pending]
  exact .bind (.set ⟨h.connection, h.transport, rfl⟩) fun _ => .pure _

/-- Steps that correspond have the same result, and what they leave is related. -/
theorem perform_of_corresponds {R : SecureStream κ τ → SecureStream κ τ' → Prop} {step : Step κ τ ε α}
    {step' : Step κ τ' ε α}
    (hstep : Corresponds R step step') {stream : SecureStream κ τ} {other : SecureStream κ τ'} (h : R stream other) :
    (perform step' other).1 = (perform step stream).1 ∧ R (perform step stream).2 (perform step' other).2 := by
  rw [perform, perform]
  cases hrun : step.run stream with
  | ok value after =>
    obtain ⟨after', hother, hafter⟩ := hstep.of_ok hrun h
    rw [hother]
    exact ⟨rfl, hafter⟩
  | error error after =>
    obtain ⟨after', hother, hafter⟩ := hstep.of_error hrun h
    rw [hother]
    exact ⟨rfl, hafter⟩

/-! ### Moving bytes -/

variable [Transport τ ε] [Transport τ' ε]

theorem corresponds_writeAll (halike : Transport.Alike related) (b : Bytes) :
    Corresponds (Beside (κ := κ) related data held) (writeAll b) (writeAll b) := by
  induction hlength : b.length using Nat.strongRecOn generalizing b with
  | ind length ih =>
    rw [writeAll, writeAll]
    by_cases hempty : b.isEmpty = true
    · rw [if_pos hempty, if_pos hempty]
      exact .pure _
    rw [if_neg hempty, if_neg hempty]
    refine .bind (corresponds_onTransport fun h => halike.write h b) fun count => ?_
    by_cases hnone : count = 0
    · rw [if_pos hnone, if_pos hnone]
      exact .throw _
    · rw [if_neg hnone, if_neg hnone]
      exact ih _ (hlength ▸ length_drop_lt (mt List.isEmpty_iff.mpr hempty) hnone) _ rfl

theorem corresponds_flushOutgoing (halike : Transport.Alike related) :
    Corresponds (Beside (κ := κ) related data held) flushOutgoing flushOutgoing := by
  rw [flushOutgoing, flushOutgoing]
  refine .bind (corresponds_onConnection fun _ => rfl) fun queued => .ite (.bind ?_ fun _ => ?_) (.pure _)
  · exact corresponds_writeAll halike queued
  · exact corresponds_onTransport fun h => halike.flush h

theorem corresponds_receiveSome (halike : Transport.Alike related) :
    Corresponds (Beside (κ := κ) related data held) receiveSome receiveSome := by
  rw [receiveSome, receiveSome]
  refine .bind (corresponds_onTransport fun h => halike.read h readSize) fun b => .ite ?_ ?_
  · exact corresponds_throw_bind _ _ _
  · refine .bind (corresponds_attempt (corresponds_onConnection fun connection => ?_)) fun received => ?_
    · exact connection.receive_behind [] data b
    · refine .bind (corresponds_attempt (corresponds_flushOutgoing halike)) fun flushed => ?_
      exact .bind (corresponds_accept received) fun _ => corresponds_accept flushed

/-! ### Whole operations -/

theorem corresponds_exchange (halike : Transport.Alike related) (patience : Nat) :
    Corresponds (Beside (κ := κ) related data held) (exchange patience) (exchange patience) := by
  induction patience with
  | zero =>
    rw [exchange, exchange]
    refine .bind (corresponds_flushOutgoing halike) fun _ => .get_bind fun stream other h => ?_
    rw [h.connection]
    exact .ite (.throw _) (.pure _)
  | succ patience ih =>
    rw [exchange, exchange]
    refine .bind (corresponds_flushOutgoing halike) fun _ => .get_bind fun stream other h => ?_
    rw [h.connection]
    exact .ite (.bind (corresponds_receiveSome halike) fun _ => ih) (.pure _)

theorem corresponds_awaitData (halike : Transport.Alike related) (limit patience : Nat) :
    Corresponds (Beside (κ := κ) related [] Eq) (awaitData limit patience) (awaitData limit patience) := by
  induction patience with
  | zero =>
    rw [awaitData, awaitData]
    refine .get_bind fun stream other h => ?_
    rw [h.connection, Connection.behind_nil, ← h.pending]
    refine .ite (corresponds_takePending limit) ?_
    split
    · exact .bind (.set ⟨rfl, h.transport, rfl⟩) fun _ => corresponds_takePending limit
    · exact .bind (.set ⟨rfl, h.transport, rfl⟩) fun _ => .ite (.pure _) (.throw _)
  | succ patience ih =>
    rw [awaitData, awaitData]
    refine .get_bind fun stream other h => ?_
    rw [h.connection, Connection.behind_nil, ← h.pending]
    refine .ite (corresponds_takePending limit) ?_
    split
    · exact .bind (.set ⟨rfl, h.transport, rfl⟩) fun _ => corresponds_takePending limit
    · refine .bind (.set ⟨rfl, h.transport, rfl⟩) fun _ => .ite (.pure _) ?_
      refine .bind (corresponds_attempt (corresponds_receiveSome halike)) fun result => ?_
      split
      · exact ih
      · exact ih
      · exact .throw _

end SecureStream

/-! ### A log of the bytes taken -/

/-- A transport and all the bytes that it has taken. -/
structure Logged (τ : Type) where
  transport : τ
  taken : Bytes

namespace Logged

variable [Transport τ ε]

def read (limit : Nat) (logged : Logged τ) (entropy : Entropy) :
    Except (TransportFault ε) Bytes × Logged τ × Entropy :=
  let (result, transport, entropy) := Transport.read limit logged.transport entropy
  (result, ⟨transport, logged.taken⟩, entropy)

def write (b : Bytes) (logged : Logged τ) (entropy : Entropy) :
    Except (TransportFault ε) Nat × Logged τ × Entropy :=
  let (result, transport, entropy) := Transport.write b logged.transport entropy
  match result with
  | .ok count => (.ok count, ⟨transport, logged.taken ++ b.take count⟩, entropy)
  | .error fault => (.error fault, ⟨transport, logged.taken⟩, entropy)

def flush (logged : Logged τ) (entropy : Entropy) : Except (TransportFault ε) Unit × Logged τ × Entropy :=
  let (result, transport, entropy) := Transport.flush logged.transport entropy
  (result, ⟨transport, logged.taken⟩, entropy)

instance : Transport (Logged τ) ε where
  read := read
  write := write
  flush := flush

theorem alike : Transport.Alike fun (transport : τ) (logged : Logged τ) => logged.transport = transport where
  read := by
    rintro _ logged rfl limit entropy
    exact ⟨rfl, rfl, rfl⟩
  write := by
    rintro _ logged rfl b entropy
    show Transport.SameOutcome _ _ (logged.write b entropy)
    rw [write]
    generalize Transport.write b logged.transport entropy = outcome
    obtain ⟨count | fault, transport, entropy⟩ := outcome <;> exact ⟨rfl, rfl, rfl⟩
  flush := by
    rintro _ logged rfl entropy
    exact ⟨rfl, rfl, rfl⟩

end Logged

namespace SecureStream

/-- The stream with a log put beside its transport, in which `taken` is written already. -/
def logged (taken : Bytes) (stream : SecureStream κ τ) : SecureStream κ (Logged τ) :=
  ⟨stream.connection, ⟨stream.transport, taken⟩, stream.pending⟩

/-- A step that does what another one does beside a log. -/
def Loggable (step : Step κ τ ε α) (logging : Step κ (Logged τ) ε α) : Prop :=
  Corresponds (Beside (fun transport logged => logged.transport = transport) [] Eq) step logging

theorem eq_logged_of_beside {stream : SecureStream κ τ} {other : SecureStream κ (Logged τ)}
    (h : Beside (fun transport logged => logged.transport = transport) [] Eq stream other) :
    other = stream.logged other.transport.taken := by
  obtain ⟨connection, transport, pending⟩ := stream
  obtain ⟨connection', ⟨transport', taken⟩, pending'⟩ := other
  obtain ⟨hconnection, htransport, hpending⟩ := h
  rw [Connection.behind_nil] at hconnection
  dsimp only at hconnection htransport hpending
  rw [hconnection, htransport, ← hpending]
  rfl

/-- A stream runs beside a log as it runs without. -/
theorem Loggable.perform {step : Step κ τ ε α} {logging : Step κ (Logged τ) ε α} (h : Loggable step logging)
    (stream : SecureStream κ τ) (taken : Bytes) :
    ∃ more, SecureStream.perform logging (stream.logged taken) =
      ((SecureStream.perform step stream).1, (SecureStream.perform step stream).2.logged more) := by
  have hbeside : Beside (fun transport logged => logged.transport = transport) [] Eq stream (stream.logged taken) :=
    ⟨rfl, rfl, rfl⟩
  obtain ⟨hresult, hafter⟩ := perform_of_corresponds h hbeside
  exact ⟨_, Prod.ext hresult (eq_logged_of_beside hafter)⟩

end SecureStream

end PresharedTls
