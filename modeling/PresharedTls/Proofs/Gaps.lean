import PresharedTls.Proofs.Acts
import PresharedTls.Proofs.Observed

/-!
# Gaps in what a stream writes

Only a writing can lose what is missed later. If the transport fails under it, what was not taken of its records is
gone, the connection goes on, and the next records are written behind the gap. So what a transport has taken is a
front of all that was queued as long as no writing has failed in the transport, and behind a writing that has lost
something every further byte is written out of place.
-/

namespace PresharedTls

namespace SecureStream

variable {κ τ ε : Type} [Transport τ ε] {stream : SecureStream κ (Logged τ)}

/-! ### Calls -/

/-- What the owner of a stream can ask of it. -/
inductive Call where
  | read (patience limit : Nat)
  | write (data : Bytes)
  | flush
  | close

/-- What came of a call, but for the data, and the stream behind it. -/
def call (stream : SecureStream κ τ) : Call → Except (StreamError ε) Unit × SecureStream κ τ
  | .read patience limit => Prod.map (Except.map fun _ => ()) id (stream.read patience limit)
  | .write data => Prod.map (Except.map fun _ => ()) id (stream.write data)
  | .flush => stream.flush
  | .close => stream.close

/-- The stream behind a sequence of calls. -/
def callAll (stream : SecureStream κ τ) (calls : List Call) : SecureStream κ τ :=
  calls.foldl (fun stream call => (stream.call call).2) stream

def callActs (stream : SecureStream κ (Logged τ)) : Call → List Act
  | .read patience _ => awaitActs patience stream
  | .write data => ⟨.send data, 0⟩ ::
    match stream.connection.send data with
    | (.ok (), sent) => flushActs ⟨sent, stream.transport, stream.pending⟩
    | (.error _, _) => []
  | .flush => stream.flushActs ++
    match perform flushOutgoing stream with
    | (.ok (), flushed) => [⟨.reseed (Transport.flush flushed.transport flushed.connection.entropy).2.2, 0⟩]
    | (.error _, _) => []
  | .close => ⟨.close, 0⟩ :: flushActs ⟨stream.connection.close, stream.transport, stream.pending⟩

def journal (stream : SecureStream κ (Logged τ)) : (calls : List Call) → List Act
  | [] => []
  | call :: rest => stream.callActs call ++ (stream.call call).2.journal rest

/-- Not all that a call takes from the connection comes to be written. -/
def Loses (stream : SecureStream κ (Logged τ)) (call : Call) : Prop :=
  ¬ stream.connection.Whole (stream.callActs call)

theorem callAll_append (stream : SecureStream κ τ) (early late : List Call) :
    stream.callAll (early ++ late) = (stream.callAll early).callAll late :=
  List.foldl_append

theorem journal_append (stream : SecureStream κ (Logged τ)) (early late : List Call) :
    stream.journal (early ++ late) = stream.journal early ++ (stream.callAll early).journal late := by
  induction early generalizing stream with
  | nil => rfl
  | cons call rest ih =>
    rw [List.cons_append, journal, ih, journal, List.append_assoc]
    rfl

/-- A writing leaves a stream at rest, with the front of its records written, and all of them unless the transport
fails. -/
theorem amounts_write (data : Bytes) (hrest : stream.connection.AtRest) :
    Amounts stream (stream.callActs (.write data)) (stream.write data).2 ∧
      stream.connection.Gapless (stream.callActs (.write data)) ∧ (stream.write data).2.connection.AtRest ∧
      (stream.Loses (.write data) → ∃ fault, (stream.write data).1 = .error (.transport fault)) := by
  rw [Loses, callActs]
  have hsent : stream.connection.Whole [⟨.send data, 0⟩] := Connection.whole_singleton rfl 0
  obtain ⟨⟨failure | _, sent⟩, hsend⟩ : ∃ outcome, stream.connection.send data = outcome := ⟨_, rfl⟩
  · rw [write, perform_onConnection_bind_of_error hsend, hsend]
    exact ⟨amounts_operation (congrArg Prod.snd hsend).symm rfl, hsent.gapless, hrest.send_failed hsend,
      fun hloses => absurd hsent hloses⟩
  · have hbegin : Amounts stream [⟨.send data, 0⟩] ⟨sent, stream.transport, stream.pending⟩ :=
      amounts_operation (congrArg Prod.snd hsend).symm rfl
    obtain ⟨hflush, hfate⟩ := amounts_flush (⟨sent, stream.transport, stream.pending⟩ : SecureStream κ (Logged τ))
    have hconnected := (phase_flush (⟨sent, stream.transport, stream.pending⟩ : SecureStream κ (Logged τ))).trans
      (hrest.phase_send hsend)
    have hnothing := outgoing_flush (⟨sent, stream.transport, stream.pending⟩ : SecureStream κ (Logged τ))
    have hgapless := gapless_flush (⟨sent, stream.transport, stream.pending⟩ : SecureStream κ (Logged τ))
    have hwrite : stream.write data =
        ((perform flushOutgoing ⟨sent, stream.transport, stream.pending⟩).1.map fun _ => data.length,
          (perform flushOutgoing ⟨sent, stream.transport, stream.pending⟩).2) := by
      rw [write, perform_onConnection_bind_of_ok hsend]
      obtain ⟨⟨error | _, flushed⟩, houtcome⟩ :
          ∃ outcome, perform flushOutgoing ⟨sent, stream.transport, stream.pending⟩ = outcome := ⟨_, rfl⟩
      · rw [perform_bind_of_error houtcome, houtcome]
        rfl
      · rw [perform_bind_of_ok houtcome, houtcome]
        rfl
    rw [hwrite, hsend]
    have hall := hbegin.append hflush
    have hfollow : stream.connection.follow [⟨.send data, 0⟩] = sent := hbegin.connection.symm
    refine ⟨hall, .append_of_whole hsent (hfollow.symm ▸ hgapless), .inl ⟨hconnected, hnothing⟩, fun hloses => ?_⟩
    rcases hfate with hwhole | ⟨fault, hfault⟩
    · exact absurd (Connection.whole_append.mpr ⟨hsent, hfollow.symm ▸ hwhole⟩) hloses
    · exact ⟨fault, by rw [hfault]; rfl⟩

/-- Of all calls only a writing can lose what is missed later. -/
theorem seamless_call {call : Call} (hrest : stream.connection.AtRest)
    (hsafe : ∀ data, call = .write data → ¬ stream.Loses call) :
    Seamless stream (stream.callActs call) (stream.call call).2 := by
  cases call with
  | read patience limit => exact seamless_read patience limit hrest
  | write data =>
    obtain ⟨hamounts, -, hstill, -⟩ := amounts_write data hrest
    exact ⟨hamounts, (not_not.mp (hsafe data rfl)).unbroken, hstill⟩
  | flush =>
    have hflush := seamless_flush hrest
    obtain ⟨⟨error | _, flushed⟩, houtcome⟩ : ∃ outcome, perform flushOutgoing stream = outcome := ⟨_, rfl⟩
    · rw [call, callActs, SecureStream.flush, perform_bind_of_error houtcome, houtcome, List.append_nil]
      rwa [houtcome] at hflush
    · rw [call, callActs, SecureStream.flush, perform_bind_of_ok houtcome, houtcome, perform_onTransport]
      rw [houtcome] at hflush
      exact hflush.append ⟨amounts_operation rfl rfl, (Connection.whole_singleton rfl 0).unbroken, hflush.atRest⟩
  | close =>
    have hover : stream.connection.close.AtRest := .inr stream.connection.isOver_close
    have hclosed : Seamless stream [⟨.close, 0⟩] ⟨stream.connection.close, stream.transport, stream.pending⟩ :=
      ⟨amounts_operation rfl rfl, (Connection.whole_singleton rfl 0).unbroken, hover⟩
    exact hclosed.append (seamless_flush hover)

theorem amounts_call (hrest : stream.connection.AtRest) (call : Call) :
    Amounts stream (stream.callActs call) (stream.call call).2 ∧ (stream.call call).2.connection.AtRest := by
  by_cases hwrite : ∃ data, call = .write data
  · obtain ⟨data, rfl⟩ := hwrite
    obtain ⟨hamounts, -, hstill, -⟩ := amounts_write data hrest
    exact ⟨hamounts, hstill⟩
  · have hsafe := seamless_call hrest fun data hdata => absurd ⟨data, hdata⟩ hwrite
    exact ⟨hsafe.toAmounts, hsafe.atRest⟩

theorem amounts_journal (hrest : stream.connection.AtRest) (calls : List Call) :
    Amounts stream (stream.journal calls) (stream.callAll calls) ∧ (stream.callAll calls).connection.AtRest := by
  induction calls generalizing stream with
  | nil => exact ⟨.nil rfl rfl, hrest⟩
  | cons call rest ih =>
    obtain ⟨hcall, hstill⟩ := amounts_call hrest call
    obtain ⟨hmore, hend⟩ := ih hstill
    exact ⟨hcall.append hmore, hend⟩

/-- There is a gap where a writing has lost something and anything is written behind it, and nowhere else. -/
theorem gapless_journal_iff (hrest : stream.connection.AtRest) (calls : List Call) :
    stream.connection.Gapless (stream.journal calls) ↔ ∀ early data late, calls = early ++ .write data :: late →
      (stream.callAll early).Loses (.write data) →
      (stream.callAll calls).transport.taken = (stream.callAll (early ++ [.write data])).transport.taken := by
  constructor
  · rintro h early data late rfl hloses
    have hsplit : early ++ .write data :: late = (early ++ [.write data]) ++ late := List.append_cons ..
    rw [hsplit, journal_append] at h
    obtain ⟨hfirst, hstill⟩ := amounts_journal hrest (early ++ [.write data])
    obtain ⟨hmore, -⟩ := amounts_journal hstill late
    have hnothing : (stream.connection.follow (stream.journal (early ++ [.write data]))).written
        ((stream.callAll (early ++ [.write data])).journal late) = [] := by
      by_contra hwritten
      -- What is written behind the writing would have to wait for all of it.
      have hwhole := h _ _ rfl hwritten
      rw [journal_append, Connection.whole_append, ← (amounts_journal hrest early).1.connection, journal, journal,
        List.append_nil] at hwhole
      exact hloses hwhole.2
    rw [← hfirst.connection] at hnothing
    rw [hsplit, callAll_append, hmore.taken, hnothing, List.append_nil]
  · intro h
    induction calls generalizing stream with
    | nil => exact (show stream.connection.Whole [] from rfl).gapless
    | cons call rest ih =>
      obtain ⟨hcall, hstill⟩ := amounts_call hrest call
      have hrests : (stream.call call).2.connection.Gapless ((stream.call call).2.journal rest) := by
        refine ih hstill fun early data late hsplit hloses => ?_
        exact h (call :: early) data late (congrArg (call :: ·) hsplit) hloses
      rw [hcall.connection] at hrests
      rw [journal]
      by_cases hloses : ∃ data, call = .write data ∧ stream.Loses call
      · obtain ⟨data, rfl, hloses⟩ := hloses
        obtain ⟨-, hgapless, -⟩ := amounts_write data hrest
        have hend := h [] data rest rfl hloses
        refine hgapless.append_of_nothing ?_
        rw [← hcall.connection]
        exact List.append_right_eq_self.mp ((amounts_journal hstill rest).1.taken.symm.trans hend)
      · have hseamless := seamless_call hrest fun data hdata hlost => hloses ⟨data, hdata, hlost⟩
        exact hseamless.unbroken.append_gapless hrests

/-! ### Beside the stream itself -/

theorem flush_logged (stream : SecureStream κ τ) (taken : Bytes) :
    ∃ more, (stream.logged taken).flush = (stream.flush.1, stream.flush.2.logged more) :=
  Loggable.perform (.bind (corresponds_flushOutgoing Logged.alike) fun _ => corresponds_onTransport fun h => Logged.alike.flush h)
    stream taken

theorem close_logged (stream : SecureStream κ τ) (taken : Bytes) :
    ∃ more, (stream.logged taken).close = (stream.close.1, stream.close.2.logged more) :=
  Loggable.perform (.bind (corresponds_onConnection fun _ => rfl) fun _ => corresponds_flushOutgoing Logged.alike) stream taken

theorem call_logged (stream : SecureStream κ τ) (taken : Bytes) (call : Call) :
    ∃ more, (stream.logged taken).call call = ((stream.call call).1, (stream.call call).2.logged more) := by
  cases call with
  | read patience limit =>
    obtain ⟨more, hread⟩ := read_logged stream taken patience limit
    exact ⟨more, by rw [SecureStream.call, hread]; rfl⟩
  | write data =>
    obtain ⟨more, hwrite⟩ := write_logged stream data taken
    exact ⟨more, by rw [SecureStream.call, hwrite]; rfl⟩
  | flush => exact flush_logged stream taken
  | close => exact close_logged stream taken

theorem callAll_logged (stream : SecureStream κ τ) (taken : Bytes) (calls : List Call) :
    ∃ more, (stream.logged taken).callAll calls = (stream.callAll calls).logged more := by
  induction calls generalizing stream taken with
  | nil => exact ⟨taken, rfl⟩
  | cons call rest ih =>
    obtain ⟨more, hcall⟩ := call_logged stream taken call
    obtain ⟨last, hrest⟩ := ih (stream.call call).2 more
    refine ⟨last, ?_⟩
    rw [callAll, List.foldl_cons, hcall]
    exact hrest

/-- What the log beside the transport of a stream says about the `calls`, where `acts` is all that was done to the
connection since it was `origin`. -/
structure Ledger (origin : Connection κ) (acts : List Act) (bare : SecureStream κ τ) (stream : SecureStream κ (Logged τ))
    (calls : List Call) : Prop where
  beside : ∃ taken, stream.callAll calls = (bare.callAll calls).logged taken
  connection : (stream.callAll calls).connection = origin.follow acts
  taken : (stream.callAll calls).transport.taken = origin.written acts
  /-- There is no gap if and only if nothing is written behind any writing that has lost something. -/
  gapless_iff : origin.Gapless acts ↔ ∀ early data late, calls = early ++ .write data :: late →
    (stream.callAll early).Loses (.write data) →
    (stream.callAll calls).transport.taken = (stream.callAll (early ++ [.write data])).transport.taken
  /-- A writing that loses something fails with the fault of the transport. -/
  told : ∀ early data late, calls = early ++ .write data :: late → (stream.callAll early).Loses (.write data) →
    ∃ fault, ((bare.callAll early).call (.write data)).1 = .error (.transport fault)
  front : origin.Gapless acts →
    (stream.callAll calls).transport.taken <+: (origin.log (acts.map Act.operation)).flatMap Record.bytes
  /-- So there is none as long as no writing but the last call has failed in the transport. -/
  untilFault : (∀ early data late, calls = early ++ .write data :: late → late ≠ [] →
      ∀ fault, ((bare.callAll early).call (.write data)).1 ≠ .error (.transport fault)) → origin.Gapless acts

/-- **What a stream loses it does not write later, and goes on.** For every transport and every sequence of calls on a
stream behind its handshake, what the transport has taken is a front of all records that were queued, as long as
nothing is written behind a writing that has lost something. Such a writing fails with the fault of the transport, and
whatever is written after it is written behind a gap. -/
theorem gapless_unless_lost {configuration : Configuration κ} {entropy : Entropy} {connection : Connection κ}
    (hmade : configuration.connection entropy = .ok connection) {patience : Nat} {transport : τ} {bare : SecureStream κ τ}
    (hok : handshake patience connection transport = (.ok (), bare)) (calls : List Call) :
    ∃ stream, handshake patience connection (⟨transport, []⟩ : Logged τ) = (.ok (), stream) ∧
      Ledger connection (handshakeActs patience connection (⟨transport, []⟩ : Logged τ) ++ stream.journal calls) bare stream
        calls := by
  obtain ⟨taken, hlogged⟩ := handshake_logged patience connection transport []
  rw [hok] at hlogged
  refine ⟨_, hlogged, ?_⟩
  generalize hstream : bare.logged taken = stream at hlogged
  obtain ⟨hbegin, hwhole, hnothing, hdone⟩ := amounts_handshake hlogged
  have hrest : stream.connection.AtRest := by
    cases hover : stream.connection.phase.isOver with
    | true => exact .inr hover
    | false =>
      rw [hbegin.connection] at hdone hover
      refine .inl ⟨?_, hnothing⟩
      rw [hbegin.connection]
      exact Connection.connected_of_handshakeDone hmade _ hover hdone
  have hall := hbegin.append (amounts_journal hrest calls).1
  have hjournal := gapless_journal_iff hrest calls
  rw [hbegin.connection, ← Connection.gapless_append_iff hwhole] at hjournal
  have htold : ∀ early data late, calls = early ++ .write data :: late → (stream.callAll early).Loses (.write data) →
      ∃ fault, ((bare.callAll early).call (.write data)).1 = .error (.transport fault) := by
    rintro early data late - hloses
    obtain ⟨-, -, -, hfault⟩ := amounts_write data (amounts_journal hrest early).2
    obtain ⟨fault, hfault⟩ := hfault hloses
    refine ⟨fault, ?_⟩
    subst hstream
    obtain ⟨more, hearly⟩ := callAll_logged bare taken early
    obtain ⟨last, hwrite⟩ := call_logged (bare.callAll early) more (.write data)
    rw [hearly] at hfault
    rw [← congrArg Prod.fst hwrite, call, Prod.map_fst, hfault]
    rfl
  refine ⟨hstream ▸ callAll_logged bare taken calls, hall.connection, hall.taken, hjournal, htold, fun hgapless => ?_,
    fun huntil => hjournal.mpr fun early data late hsplit hloses => ?_⟩
  · rw [hall.taken, ← Connection.stream_append_takeOutgoing]
    exact hgapless.written_prefix.trans (List.prefix_append _ _)
  · obtain ⟨fault, hfault⟩ := htold early data late hsplit hloses
    by_cases hlast : late = []
    · rw [hsplit, hlast]
    · exact absurd hfault (huntil early data late hsplit hlast fault)

end SecureStream

/-! ### A grudging transport -/

/-- A tape that answers writes with what was recorded for them, and takes all it is offered once the answers have come
to an end. -/
structure Grudging where
  tape : Tape
  answers : List (Except TransportFault Nat)

namespace Grudging

def write (b : Bytes) (entropy : Entropy) : Grudging → Except TransportFault Nat × Grudging × Entropy
  | ⟨tape, []⟩ => (.ok b.length, ⟨tape, []⟩, entropy)
  | ⟨tape, answer :: rest⟩ => (answer, ⟨tape, rest⟩, entropy)

instance : Transport Grudging Empty where
  read limit grudging entropy :=
    let (result, tape, entropy) := grudging.tape.read limit entropy
    (result, ⟨tape, grudging.answers⟩, entropy)
  write b grudging entropy := grudging.write b entropy
  flush grudging entropy := (.ok (), grudging, entropy)

end Grudging

namespace SecureStream

/-- A server's side of a handshake. -/
def plainReplies : List Bytes :=
  [usualGreeting, plainFinish]

/-- A transport that takes a client's side of the handshake in three pieces. Of what comes next it takes three bytes,
and then it times out once. -/
def plainGrudge : Grudging :=
  ⟨⟨plainReplies, by decide⟩, [.ok 3, .ok 1000, .ok 1000, .ok 3, .error .timedOut]⟩

def grudgingStream : SecureStream Unit (Logged Grudging) :=
  (handshake 2 plainClient (⟨plainGrudge, []⟩ : Logged Grudging)).2

/-- Two bytes, each of them written by itself. -/
def plainWrites : List Call :=
  [.write [1], .write [2]]

theorem loses_grudgingStream : grudgingStream.Loses (.write [1]) := by
  have hgiven : grudgingStream.connection.given (grudgingStream.callActs (.write [1])) = [23, 3, 3, 0, 1, 1] := by cbv
  have hwritten : grudgingStream.connection.written (grudgingStream.callActs (.write [1])) = [23, 3, 3] := by cbv
  rw [Loses, Connection.Whole, hgiven, hwritten]
  decide

/-- The first of two writings times out in the middle of its record, and the second is behind a gap. -/
theorem gapless_unless_lost_plain : ∃ bare stream acts, handshake 2 plainClient plainGrudge = (.ok (), bare) ∧
    Ledger plainClient acts bare stream plainWrites ∧ ¬ plainClient.Gapless acts ∧
    (stream.callAll plainWrites).transport.taken = stream.transport.taken ++ ([23, 3, 3] ++ [23, 3, 3, 0, 1, 2]) ∧
    (plainClient.log (acts.map Act.operation)).flatMap Record.bytes =
      stream.transport.taken ++ ([23, 3, 3, 0, 1, 1] ++ [23, 3, 3, 0, 1, 2]) := by
  have hok : handshake 2 plainClient plainGrudge = (.ok (), _) := Prod.ext (by cbv) rfl
  have hmade : (Configuration.client transparentClient).connection ⟨fun _ => 7, 0⟩ = .ok plainClient := rfl
  obtain ⟨stream, hstream, hledger⟩ := gapless_unless_lost hmade hok plainWrites
  obtain rfl : grudgingStream = stream := congrArg Prod.snd hstream
  refine ⟨_, _, _, hok, hledger, fun hgapless => ?_, by cbv, by cbv⟩
  have hnothing := hledger.gapless_iff.mp hgapless [] [1] [.write [2]] rfl loses_grudgingStream
  have hless : (grudgingStream.callAll [.write [1]]).transport.taken.length <
      (grudgingStream.callAll plainWrites).transport.taken.length := by
    cbv
  exact absurd (congrArg List.length hnothing) (Nat.ne_of_gt hless)

end SecureStream

end PresharedTls
