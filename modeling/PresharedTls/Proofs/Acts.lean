import PresharedTls.Proofs.Network
import PresharedTls.Proofs.Passage
import PresharedTls.Proofs.Telling

/-!
# What a stream does to its connection

A stream takes all that its connection has queued before it writes the first of it, and what a transport that
fails has not taken by then is gone. So the operations of a stream on its connection are written down here as
acts, each with the number of bytes that came to be written of what it took. A gap is where something is written
behind what was lost. A handshake that succeeds has lost nothing, and to read makes no gap, since all that is
sent meanwhile is the alert at the end of the connection.
-/

namespace PresharedTls

variable {κ : Type}

/-- An operation, and how many of the bytes that it takes from the connection come to be written. -/
structure Act where
  operation : Operation
  count : Nat

namespace Connection

variable {connection : Connection κ} {acts early late : List Act}

/-- The connection behind a sequence of acts. -/
def follow (connection : Connection κ) (acts : List Act) : Connection κ :=
  connection.run (acts.map Act.operation)

/-- The bytes that a sequence of acts takes from the connection. -/
def given (connection : Connection κ) (acts : List Act) : Bytes :=
  connection.stream (acts.map Act.operation)

/-- Those of them that are written. -/
def written (connection : Connection κ) : (acts : List Act) → Bytes
  | [] => []
  | act :: rest =>
    (connection.bytesTaken act.operation).take act.count ++ (connection.operate act.operation).written rest

/-- Nothing is lost. -/
def Whole (connection : Connection κ) (acts : List Act) : Prop :=
  connection.written acts = connection.given acts

/-- Nothing is written behind what is lost. -/
def Gapless (connection : Connection κ) (acts : List Act) : Prop :=
  ∀ early late, acts = early ++ late → (connection.follow early).written late ≠ [] → connection.Whole early

theorem follow_append (connection : Connection κ) (early late : List Act) :
    connection.follow (early ++ late) = (connection.follow early).follow late := by
  rw [follow, List.map_append, run_append, follow, follow]

theorem given_append (connection : Connection κ) (early late : List Act) :
    connection.given (early ++ late) = connection.given early ++ (connection.follow early).given late := by
  rw [given, List.map_append, stream_eq, departed_append, List.flatMap_append, ← stream_eq, ← stream_eq, given, given,
    follow]

theorem written_append (connection : Connection κ) (early late : List Act) :
    connection.written (early ++ late) = connection.written early ++ (connection.follow early).written late := by
  induction early generalizing connection with
  | nil => rfl
  | cons act rest ih =>
    rw [List.cons_append, written, ih, written, List.append_assoc]
    rfl

theorem length_written_le (connection : Connection κ) (acts : List Act) :
    (connection.written acts).length ≤ (connection.given acts).length := by
  induction acts generalizing connection with
  | nil => exact Nat.le_refl 0
  | cons act rest ih =>
    have hrest := ih (connection.operate act.operation)
    rw [written, List.length_append]
    rw [show connection.given (act :: rest) = connection.bytesTaken act.operation ++
      (connection.operate act.operation).given rest from rfl, List.length_append]
    exact Nat.add_le_add (List.length_take_le' ..) hrest

theorem written_of_given_nil (h : connection.given acts = []) : connection.written acts = [] := by
  have hlength := connection.length_written_le acts
  rw [h] at hlength
  exact List.length_eq_zero_iff.mp (Nat.le_zero.mp hlength)

theorem whole_append : connection.Whole (early ++ late) ↔
    connection.Whole early ∧ (connection.follow early).Whole late := by
  rw [Whole, written_append, given_append]
  constructor
  · intro h
    have hearly := connection.length_written_le early
    have hlate := (connection.follow early).length_written_le late
    have hlength := congrArg List.length h
    rw [List.length_append, List.length_append] at hlength
    exact List.append_inj h (by omega)
  · rintro ⟨hearly, hlate⟩
    rw [hearly, hlate]

theorem Whole.gapless (h : connection.Whole acts) : connection.Gapless acts := by
  rintro early late rfl -
  exact (whole_append.mp h).1

theorem gapless_singleton (act : Act) : connection.Gapless [act] := by
  intro early late hsplit hwritten
  rcases List.append_eq_singleton_iff.mp hsplit.symm with ⟨rfl, -⟩ | ⟨-, rfl⟩
  · exact rfl
  · exact absurd rfl hwritten

/-- Behind what is whole, a gap is a gap of what comes next. -/
theorem Gapless.append_of_whole (hearly : connection.Whole early) (hlate : (connection.follow early).Gapless late) :
    connection.Gapless (early ++ late) := by
  intro front rear hsplit hwritten
  rcases List.append_eq_append_iff.mp hsplit with ⟨middle, rfl, rfl⟩ | ⟨middle, rfl, rfl⟩
  · rw [follow_append] at hwritten
    exact whole_append.mpr ⟨hearly, hlate _ _ rfl hwritten⟩
  · exact (whole_append.mp hearly).1

theorem gapless_append_iff (hearly : connection.Whole early) :
    connection.Gapless (early ++ late) ↔ (connection.follow early).Gapless late := by
  refine ⟨fun h front rear hsplit hwritten => ?_, .append_of_whole hearly⟩
  have hwhole := h (early ++ front) rear (by rw [hsplit, List.append_assoc]) (by rwa [follow_append])
  exact (whole_append.mp hwhole).2

/-- Where nothing is written, no gap comes about. -/
theorem Gapless.append_of_nothing (hearly : connection.Gapless early) (hlate : (connection.follow early).written late = []) :
    connection.Gapless (early ++ late) := by
  intro front rear hsplit hwritten
  rcases List.append_eq_append_iff.mp hsplit with ⟨middle, rfl, rfl⟩ | ⟨middle, rfl, rfl⟩
  · rw [written_append] at hlate
    rw [follow_append] at hwritten
    exact absurd (List.append_eq_nil_iff.mp hlate).2 hwritten
  · refine hearly _ _ rfl fun hnothing => hwritten ?_
    rw [written_append, hnothing, ← follow_append, hlate]
    rfl

theorem Gapless.left (h : connection.Gapless (early ++ late)) : connection.Gapless early := by
  rintro front middle rfl hwritten
  refine h front (middle ++ late) (List.append_assoc ..) fun hnothing => hwritten ?_
  rw [written_append] at hnothing
  exact (List.append_eq_nil_iff.mp hnothing).1

/-- Where there is no gap, what is written is the front of what was given. -/
theorem Gapless.written_prefix (h : connection.Gapless acts) : connection.written acts <+: connection.given acts := by
  induction acts using List.reverseRecOn with
  | nil => exact List.prefix_rfl
  | append_singleton early act ih =>
    rw [written_append, given_append]
    by_cases hnothing : (connection.follow early).written [act] = []
    · rw [hnothing, List.append_nil]
      exact (ih h.left).trans (List.prefix_append _ _)
    · rw [show connection.written early = connection.given early from h early [act] rfl hnothing,
        List.prefix_append_right_inj, written, written, List.append_nil]
      exact (List.take_prefix _ _).trans (List.prefix_append _ _)

/-- There is no gap, and none can come about by what is written next: nothing is lost, or nothing is left to write. -/
structure Unbroken (connection : Connection κ) (acts : List Act) : Prop where
  gapless : connection.Gapless acts
  settled : connection.Whole acts ∨ (connection.follow acts).phase.isOver = true ∧ (connection.follow acts).outgoing = []

theorem Whole.unbroken (h : connection.Whole acts) : connection.Unbroken acts :=
  ⟨h.gapless, .inl h⟩

theorem isOver_run (h : connection.phase.isOver = true) (operations : List Operation) :
    (connection.run operations).phase.isOver = true := by
  induction operations generalizing connection with
  | nil => exact h
  | cons operation rest ih => exact ih ((rests_of_isOver h operation).isOver h)

/-- Nothing comes of a connection that is over and has nothing in its queue. -/
theorem spent_follow (hover : connection.phase.isOver = true) (hnothing : connection.outgoing = []) (acts : List Act) :
    connection.written acts = [] ∧ (connection.follow acts).phase.isOver = true ∧ (connection.follow acts).outgoing = [] := by
  have hlog := (log_of_isOver hover (acts.map Act.operation)).trans hnothing
  obtain ⟨hdeparted, houtgoing⟩ := List.append_eq_nil_iff.mp hlog
  refine ⟨?_, isOver_run hover _, houtgoing⟩
  exact written_of_given_nil (by rw [given, stream_eq, hdeparted]; rfl)

theorem Unbroken.append_gapless (hearly : connection.Unbroken early) (hlate : (connection.follow early).Gapless late) :
    connection.Gapless (early ++ late) := by
  rcases hearly.settled with hwhole | ⟨hover, hnothing⟩
  · exact .append_of_whole hwhole hlate
  · exact hearly.gapless.append_of_nothing (spent_follow hover hnothing late).1

theorem Unbroken.append (hearly : connection.Unbroken early) (hlate : (connection.follow early).Unbroken late) :
    connection.Unbroken (early ++ late) := by
  refine ⟨hearly.append_gapless hlate.gapless, ?_⟩
  rw [follow_append]
  rcases hearly.settled with hwhole | ⟨hover, hnothing⟩
  · exact hlate.settled.imp_left fun hrest => whole_append.mpr ⟨hwhole, hrest⟩
  · exact .inr (spent_follow hover hnothing late).2

/-- An act that takes nothing loses nothing. -/
theorem whole_singleton {operation : Operation} (h : connection.bytesTaken operation = []) (count : Nat) :
    connection.Whole [⟨operation, count⟩] := by
  show (connection.bytesTaken operation).take count ++ [] = connection.bytesTaken operation ++ []
  rw [h, List.take_nil]

/-! ### Connections at rest -/

/-- A connection behind its handshake with nothing to send, or one that is over. -/
def AtRest (connection : Connection κ) : Prop :=
  connection.phase = .connected ∧ connection.outgoing = [] ∨ connection.phase.isOver = true

/-- What arrives leaves a connection at rest, with an alert to send if it is over. -/
theorem AtRest.receive (h : connection.AtRest) (b : Bytes) : (connection.receive b).2.AtRest := by
  rcases h with ⟨hphase, hnothing⟩ | hover
  · have hready : connection.phase.TakesInput := by
      rw [hphase]
      exact ⟨by decide, by decide⟩
    obtain ⟨⟨failure | _, after⟩, hreceive⟩ : ∃ outcome, connection.receive b = outcome := ⟨_, rfl⟩
    · exact .inr (isOver_of_receive hready (congrArg Prod.fst hreceive))
    · obtain ⟨hconnected, houtgoing, -⟩ := ok_receive_of_connected hphase hreceive
      rw [hreceive]
      exact .inl ⟨hconnected, houtgoing.trans hnothing⟩
  · rw [receive_of_isOver hover]
    exact .inr hover

/-- Where data cannot be sent, nothing is left to send, unless the connection is over. -/
theorem AtRest.send_failed (h : connection.AtRest) {data : Bytes} {failure : ConnectionError} {failed : Connection κ}
    (hsend : connection.send data = (.error failure, failed)) : failed.AtRest := by
  rw [Connection.send] at hsend
  split at hsend
  · cases hsend
    exact h
  split at hsend
  · cases hsend
    exact h
  cases hrun : (Endpoint.sendFragmented .applicationData data).run connection.toEndpoint with
  | ok value endpoint =>
    rw [perform_of_ok hrun] at hsend
    cases hsend
  | error other endpoint =>
    rw [perform_of_error hrun] at hsend
    cases hsend
    exact .inr rfl

theorem AtRest.phase_send (h : connection.AtRest) {data : Bytes} {sent : Connection κ}
    (hsend : connection.send data = (.ok (), sent)) : sent.phase = .connected := by
  rw [Connection.send] at hsend
  split at hsend
  · cases hsend
  · next hlive =>
    split at hsend
    · cases hsend
    cases hrun : (Endpoint.sendFragmented .applicationData data).run connection.toEndpoint with
    | ok value endpoint =>
      rw [perform_of_ok hrun] at hsend
      cases hsend
      have hphase : connection.phase = .connected := (h.resolve_right hlive).1
      have hkeeps : Endpoint.KeepsFixed connection.toEndpoint (· = .connected)
          (Endpoint.sendFragmented .applicationData data) := Endpoint.keepsFixed_sendFragmented _ _
      exact (hkeeps.of_ok hrun ⟨rfl, ⟨rfl, rfl⟩, hphase⟩).phase
    | error other endpoint =>
      rw [perform_of_error hrun] at hsend
      cases hsend

theorem isOver_close (connection : Connection κ) : connection.close.phase.isOver = true := by
  rw [phase_close]
  rfl

end Connection

namespace SecureStream

variable {τ ε α : Type} {stream middle after : SecureStream κ (Logged τ)} {acts more : List Act}

/-! ### What a stream does to its connection -/

/-- A stream behind some acts, with what they write in the log. -/
structure Amounts (stream : SecureStream κ (Logged τ)) (acts : List Act) (after : SecureStream κ (Logged τ)) : Prop where
  connection : after.connection = stream.connection.follow acts
  taken : after.transport.taken = stream.transport.taken ++ stream.connection.written acts

theorem Amounts.nil (hconnection : after.connection = stream.connection)
    (htaken : after.transport.taken = stream.transport.taken) : Amounts stream [] after :=
  ⟨hconnection, htaken.trans (List.append_nil _).symm⟩

theorem Amounts.append (h : Amounts stream acts middle) (hmore : Amounts middle more after) :
    Amounts stream (acts ++ more) after := by
  obtain ⟨hconnection, htaken⟩ := hmore
  rw [h.connection] at hconnection htaken
  refine ⟨?_, ?_⟩
  · rw [hconnection, Connection.follow_append]
  · rw [htaken, h.taken, Connection.written_append, List.append_assoc]

theorem amounts_operation {operation : Operation} (hconnection : after.connection = stream.connection.operate operation)
    (htaken : after.transport.taken = stream.transport.taken) : Amounts stream [⟨operation, 0⟩] after := by
  refine ⟨hconnection, ?_⟩
  rw [htaken]
  exact (List.append_nil _).symm

theorem amounts_handed {b : Bytes} {transport : Logged τ} {entropy : Entropy} {received : Except ConnectionError Unit}
    {connection : Connection κ} (htaken : transport.taken = stream.transport.taken)
    (hreceive : (stream.connection.withEntropy entropy).receive b = (received, connection)) :
    Amounts stream [⟨.reseed entropy, 0⟩, ⟨.receive b, 0⟩] ⟨connection, transport, stream.pending⟩ :=
  ⟨(congrArg Prod.snd hreceive).symm, htaken.trans (List.append_nil _).symm⟩

/-- Acts on a stream at rest that make no gap and leave it at rest. -/
structure Seamless (stream : SecureStream κ (Logged τ)) (acts : List Act) (after : SecureStream κ (Logged τ)) : Prop
    extends Amounts stream acts after where
  unbroken : stream.connection.Unbroken acts
  atRest : after.connection.AtRest

theorem Seamless.append (h : Seamless stream acts middle) (hmore : Seamless middle more after) :
    Seamless stream (acts ++ more) after :=
  ⟨h.toAmounts.append hmore.toAmounts, h.unbroken.append (h.connection ▸ hmore.unbroken), hmore.atRest⟩

/-- Data is read off the front of the queue, and nothing is sent for it. -/
theorem seamless_reads {front left : List Bytes} (h : stream.connection.received = front ++ left)
    (hrest : stream.connection.AtRest) (hconnection : after.connection = { stream.connection with received := left })
    (htaken : after.transport.taken = stream.transport.taken) :
    Seamless stream (List.replicate front.length ⟨.read, 0⟩) after := by
  induction front generalizing stream with
  | nil =>
    obtain rfl : stream.connection.received = left := h
    have hsame : after.connection = stream.connection := hconnection
    exact ⟨.nil hsame htaken, Connection.Whole.unbroken rfl, hsame ▸ hrest⟩
  | cons data front ih =>
    let next : SecureStream κ (Logged τ) :=
      ⟨{ stream.connection with received := front ++ left }, stream.transport, stream.pending⟩
    have hread : stream.connection.operate .read = next.connection := by
      rw [Connection.operate, Connection.read, h]
      rfl
    have hfirst : Seamless stream [⟨.read, 0⟩] next :=
      ⟨amounts_operation hread.symm rfl, (Connection.whole_singleton rfl 0).unbroken, hrest⟩
    exact hfirst.append (@ih next rfl hrest hconnection htaken)

/-- With nothing in hand, data is taken off the queue of the connection, up to the first that is not empty. -/
def popActs (stream : SecureStream κ (Logged τ)) : List Act :=
  if stream.pending.isEmpty then
    List.replicate (stream.connection.received.length - (stream.connection.received.dropWhile List.isEmpty).tail.length)
      ⟨.read, 0⟩
  else []

/-- With nothing to read, the queue is emptied. -/
theorem seamless_drained (hnone : stream.unread = []) (hrest : stream.connection.AtRest) :
    Seamless stream stream.popActs stream.drained := by
  obtain ⟨hpending, hreceived⟩ := List.append_eq_nil_iff.mp hnone
  have hskipped : stream.connection.received.dropWhile List.isEmpty = [] := by
    rw [List.dropWhile_eq_nil_iff]
    exact fun data hmem => List.isEmpty_iff.mpr (List.flatten_eq_nil_iff.mp hreceived data hmem)
  rw [popActs, if_pos (by simp [hpending]), hskipped]
  exact seamless_reads (List.append_nil _).symm hrest rfl rfl

variable [Transport τ ε]

/-- The queue is taken, the transport takes some of it, and leaves other random bytes. -/
def flushActs (stream : SecureStream κ (Logged τ)) : List Act :=
  let flushed := (perform flushOutgoing stream).2
  [⟨.takeOutgoing, flushed.transport.taken.length - stream.transport.taken.length⟩,
    ⟨.reseed flushed.connection.entropy, 0⟩]

def receiveActs (stream : SecureStream κ (Logged τ)) : List Act :=
  match Transport.read readSize stream.transport stream.connection.entropy with
  | (.ok (first :: rest), transport, entropy) =>
    ⟨.reseed entropy, 0⟩ :: ⟨.receive (first :: rest), 0⟩ ::
      flushActs ⟨((stream.connection.withEntropy entropy).receive (first :: rest)).2, transport, stream.pending⟩
  | (_, _, entropy) => [⟨.reseed entropy, 0⟩]

def exchangeActs : (patience : Nat) → (stream : SecureStream κ (Logged τ)) → List Act
  | 0, stream => stream.flushActs
  | patience + 1, stream => stream.flushActs ++
    match perform flushOutgoing stream with
    | (.ok (), flushed) =>
      if flushed.connection.session.handshakeDone then []
      else flushed.receiveActs ++
        match perform receiveSome flushed with
        | (.ok (), next) => exchangeActs patience next
        | (.error _, _) => []
    | (.error _, _) => []

/-- Whether a failure is what a reader takes for the peer's end. -/
def isCloseNotify : StreamError ε → Bool
  | .connection (.receivedAlert .closeNotify) => true
  | _ => false

omit [Transport τ ε] in
theorem isCloseNotify_eq_true {failure : StreamError ε} :
    isCloseNotify failure = true ↔ failure = .connection (.receivedAlert .closeNotify) := by
  constructor
  · intro h
    rw [isCloseNotify.eq_def] at h
    split at h
    · rfl
    · cases h
  · rintro rfl
    rfl

def awaitActs : (patience : Nat) → (stream : SecureStream κ (Logged τ)) → List Act
  | 0, stream => stream.popActs
  | patience + 1, stream => stream.popActs ++
    if stream.unread ≠ [] ∨ stream.connection.peerClosed then []
    else stream.drained.receiveActs ++
      match perform receiveSome stream.drained with
      | (.ok (), next) => awaitActs patience next
      | (.error failure, next) => if isCloseNotify failure then awaitActs patience next else []

def handshakeActs (patience : Nat) (connection : Connection κ) (transport : Logged τ) : List Act :=
  ⟨.start, 0⟩ ::
    match connection.start with
    | (.ok (), opened) => exchangeActs patience ⟨opened, transport, []⟩
    | (.error _, _) => []

/-! ### Flushing -/

/-- What is written is the front of what there was to write, and less than all of it only if the transport fails. -/
theorem ends_writeAll (b : Bytes) (stream : SecureStream κ (Logged τ)) :
    Ends (writeAll b) stream (fun _ after => after.transport.taken = stream.transport.taken ++ b) fun failure after =>
      (∃ fault, failure = .transport fault) ∧
        ∃ count, after.transport.taken = stream.transport.taken ++ b.take count := by
  induction hlength : b.length using Nat.strongRecOn generalizing b stream with
  | ind length ih =>
    rw [writeAll]
    by_cases hempty : b = []
    · subst hempty
      exact (List.append_nil _).symm
    rw [if_neg (by simpa using hempty), ends_bind, Ends, run_onTransport]
    obtain ⟨⟨result, transport, entropy⟩, hwrite⟩ :
        ∃ outcome, Transport.write b stream.transport.transport stream.connection.entropy = outcome := ⟨_, rfl⟩
    have hlogged : Transport.write b stream.transport stream.connection.entropy = stream.transport.write b _ := rfl
    rw [hlogged, Logged.write, hwrite]
    cases result with
    | error fault => exact ⟨⟨fault, rfl⟩, 0, (List.append_nil _).symm⟩
    | ok count =>
      by_cases hnone : count = 0
      · subst hnone
        exact ⟨⟨.writeZero, rfl⟩, 0, rfl⟩
      · show Ends (if count = 0 then _ else _) _ _ _
        rw [if_neg hnone]
        refine (ih _ (hlength ▸ length_drop_lt hempty hnone) (b.drop count) _ rfl).mono ?_ ?_
        · rintro - after hafter
          rw [hafter, List.append_assoc, List.take_append_drop]
        · rintro failure after ⟨hfault, more, hafter⟩
          refine ⟨hfault, count + more, ?_⟩
          rw [hafter, List.append_assoc, List.take_add]

/-- A flush writes the front of the queue, and all of it unless the transport fails. -/
theorem taken_flushOutgoing (stream : SecureStream κ (Logged τ)) :
    ∃ count, (perform flushOutgoing stream).2.transport.taken =
        stream.transport.taken ++ stream.connection.takeOutgoing.1.take count ∧
      (stream.connection.takeOutgoing.1.length ≤ count ∨
        ∃ fault, (perform flushOutgoing stream).1 = .error (.transport fault)) := by
  let begun : SecureStream κ (Logged τ) := ⟨stream.connection.takeOutgoing.2, stream.transport, stream.pending⟩
  rw [perform, run_flushOutgoing_eq]
  by_cases hnothing : stream.connection.takeOutgoing.1 = []
  · rw [if_neg (by simp [hnothing]), hnothing]
    exact ⟨0, (List.append_nil _).symm, .inl (Nat.le_refl 0)⟩
  rw [if_pos (by simpa using hnothing)]
  have hwrite := ends_writeAll stream.connection.takeOutgoing.1 begun
  rw [Ends] at hwrite
  cases hrun : (writeAll stream.connection.takeOutgoing.1).run begun with
  | ok value after =>
    rw [hrun] at hwrite
    refine ⟨stream.connection.takeOutgoing.1.length, ?_, .inl (Nat.le_refl _)⟩
    rw [run_bind_of_ok hrun, run_onTransport, List.take_length]
    dsimp only [Transport.flush, Logged.flush]
    cases (Transport.flush after.transport.transport after.connection.entropy).1 <;> exact hwrite
  | error failure after =>
    rw [hrun] at hwrite
    obtain ⟨⟨fault, rfl⟩, count, hcount⟩ := hwrite
    rw [run_bind_of_error hrun]
    exact ⟨count, hcount, .inr ⟨fault, rfl⟩⟩

/-- A flush takes the whole queue, whatever comes of it. -/
theorem outgoing_flush (stream : SecureStream κ τ) : (perform flushOutgoing stream).2.connection.outgoing = [] := by
  obtain ⟨⟨_, _, hused⟩, -⟩ := used_flushOutgoing stream
  rw [hused]
  rfl

theorem phase_flush (stream : SecureStream κ τ) :
    (perform flushOutgoing stream).2.connection.phase = stream.connection.phase := by
  obtain ⟨⟨_, _, hused⟩, -⟩ := used_flushOutgoing stream
  rw [hused]
  rfl

theorem amounts_flush (stream : SecureStream κ (Logged τ)) :
    Amounts stream stream.flushActs (perform flushOutgoing stream).2 ∧
      (stream.connection.Whole stream.flushActs ∨ ∃ fault, (perform flushOutgoing stream).1 = .error (.transport fault)) := by
  obtain ⟨count, htaken, hall⟩ := taken_flushOutgoing stream
  obtain ⟨⟨entropy, transport, hused⟩, -⟩ := used_flushOutgoing stream
  -- The bytes that the log has more are those that the act counts.
  have hwritten : stream.connection.written stream.flushActs = stream.connection.takeOutgoing.1.take count := by
    show stream.connection.takeOutgoing.1.take
      ((perform flushOutgoing stream).2.transport.taken.length - stream.transport.taken.length) ++ [] = _
    rw [htaken, List.length_append, Nat.add_sub_cancel_left, List.append_nil, List.take_eq_take_iff, List.length_take]
    omega
  have hgiven : stream.connection.given stream.flushActs = stream.connection.takeOutgoing.1 := List.append_nil _
  have hfollow : stream.connection.follow stream.flushActs =
      stream.connection.takeOutgoing.2.withEntropy (perform flushOutgoing stream).2.connection.entropy := rfl
  refine ⟨⟨by rw [hfollow, hused]; rfl, by rw [htaken, hwritten]⟩, hall.imp_left fun hwhole => ?_⟩
  rw [Connection.Whole, hwritten, hgiven, List.take_of_length_le hwhole]

theorem gapless_flush (stream : SecureStream κ (Logged τ)) : stream.connection.Gapless stream.flushActs := by
  rw [flushActs, ← List.singleton_append]
  exact (Connection.gapless_singleton _).append_of_nothing rfl

/-- With nothing to send nothing is lost, and behind the end of a connection nothing is missed. -/
theorem seamless_flush (h : stream.connection.AtRest) : Seamless stream stream.flushActs (perform flushOutgoing stream).2 := by
  obtain ⟨hamounts, -⟩ := amounts_flush stream
  refine ⟨hamounts, ?_, ?_⟩
  · rcases h with ⟨-, hnothing⟩ | hover
    · have hgiven : stream.connection.given stream.flushActs = [] := by
        show stream.connection.outgoing.flatMap Record.bytes ++ [] = []
        rw [hnothing]
        rfl
      refine Connection.Whole.unbroken ?_
      rw [Connection.Whole, hgiven]
      exact Connection.written_of_given_nil hgiven
    · refine ⟨gapless_flush stream, .inr ?_⟩
      rw [← hamounts.connection, phase_flush]
      exact ⟨hover, outgoing_flush stream⟩
  · rw [Connection.AtRest, phase_flush, outgoing_flush]
    exact h.imp_left fun hconnected => ⟨hconnected.1, rfl⟩

/-! ### One read of the transport -/

/-- What a read of the transport comes to, and the acts that it consists in. -/
inductive Receives (stream : SecureStream κ (Logged τ)) :
    List Act → Except (StreamError ε) Unit × SecureStream κ (Logged τ) → Prop
  | failed {fault : TransportFault ε} {transport : Logged τ} {entropy : Entropy}
      (htaken : transport.taken = stream.transport.taken) :
      Receives stream [⟨.reseed entropy, 0⟩]
        (.error (.transport fault), ⟨stream.connection.withEntropy entropy, transport, stream.pending⟩)
  | handed {b : Bytes} {transport : Logged τ} {entropy : Entropy} {received : Except ConnectionError Unit}
      {connection : Connection κ} (htaken : transport.taken = stream.transport.taken)
      (hreceive : (stream.connection.withEntropy entropy).receive b = (received, connection)) :
      Receives stream ([⟨.reseed entropy, 0⟩, ⟨.receive b, 0⟩] ++ flushActs ⟨connection, transport, stream.pending⟩)
        ((received.mapError .connection).bind fun _ => (perform flushOutgoing ⟨connection, transport, stream.pending⟩).1,
          (perform flushOutgoing ⟨connection, transport, stream.pending⟩).2)

theorem receives (stream : SecureStream κ (Logged τ)) : Receives stream stream.receiveActs (perform receiveSome stream) := by
  obtain ⟨⟨result, transport, entropy⟩, hread⟩ :
      ∃ outcome, Transport.read readSize stream.transport stream.connection.entropy = outcome := ⟨_, rfl⟩
  have htaken : transport.taken = stream.transport.taken := (congrArg (fun outcome => outcome.2.1.taken) hread).symm
  rw [receiveActs, hread]
  rcases result with fault | _ | ⟨first, rest⟩
  · rw [perform_receiveSome_of_fault hread]
    exact .failed htaken
  · rw [perform_receiveSome_of_nil hread]
    exact .failed htaken
  · rw [perform_receiveSome_of_ok hread (List.cons_ne_nil first rest) rfl]
    exact .handed htaken rfl

variable {outcome : Except (StreamError ε) Unit × SecureStream κ (Logged τ)}

theorem Receives.amounts (h : Receives stream acts outcome) : Amounts stream acts outcome.2 := by
  cases h with
  | failed htaken => exact amounts_operation rfl htaken
  | handed htaken hreceive => exact (amounts_handed htaken hreceive).append (amounts_flush _).1

/-- A read of the transport that succeeds has lost nothing. -/
theorem Receives.whole (h : Receives stream acts outcome) (hok : outcome.1 = .ok ()) :
    stream.connection.Whole acts := by
  cases h with
  | failed _ => cases hok
  | @handed b transport entropy received connection htaken hreceive =>
    have hfollow : stream.connection.follow [⟨.reseed entropy, 0⟩, ⟨.receive b, 0⟩] = connection :=
      congrArg Prod.snd hreceive
    cases received with
    | error failure => cases hok
    | ok value =>
      refine Connection.whole_append.mpr ⟨rfl, ?_⟩
      rw [hfollow]
      refine (amounts_flush ⟨connection, transport, stream.pending⟩).2.resolve_right ?_
      rintro ⟨fault, hfault⟩
      cases hfault.symm.trans hok

/-- On a stream at rest a read of the transport makes no gap, whatever comes of it. -/
theorem Receives.seamless (h : Receives stream acts outcome) (hrest : stream.connection.AtRest) :
    Seamless stream acts outcome.2 := by
  cases h with
  | failed htaken => exact ⟨amounts_operation rfl htaken, (Connection.whole_singleton rfl 0).unbroken, hrest⟩
  | @handed b transport entropy received connection htaken hreceive =>
    have hstill : connection.AtRest := by
      have hreseeded : (stream.connection.withEntropy entropy).AtRest := hrest
      have hreceived := hreseeded.receive b
      rwa [hreceive] at hreceived
    have hhanded : Seamless stream [⟨.reseed entropy, 0⟩, ⟨.receive b, 0⟩] ⟨connection, transport, stream.pending⟩ :=
      ⟨amounts_handed htaken hreceive, Connection.Whole.unbroken rfl, hstill⟩
    exact hhanded.append (seamless_flush hstill)

/-! ### The handshake -/

/-- A flush that succeeds has written all there was. -/
theorem amounts_of_flushed (hflushed : perform flushOutgoing stream = (.ok (), after)) :
    Amounts stream stream.flushActs after ∧ stream.connection.Whole stream.flushActs ∧ after.connection.outgoing = [] := by
  obtain ⟨hamounts, hfate⟩ := amounts_flush stream
  have hnothing := outgoing_flush stream
  rw [hflushed] at hamounts hfate hnothing
  refine ⟨hamounts, hfate.resolve_right ?_, hnothing⟩
  rintro ⟨fault, hfault⟩
  cases hfault

theorem flushed_of_exchange {patience : Nat} (hok : perform (exchange patience) stream = (.ok (), after)) :
    ∃ begun, perform flushOutgoing stream = (.ok (), begun) := by
  obtain ⟨⟨error | _, begun⟩, hflush⟩ : ∃ outcome, perform flushOutgoing stream = outcome := ⟨_, rfl⟩
  · rw [exchange.eq_def, perform_bind_of_error hflush] at hok
    cases hok
  · exact ⟨begun, hflush⟩

/-- An exchange that succeeds loses nothing. -/
theorem amounts_exchange {patience : Nat} (hok : perform (exchange patience) stream = (.ok (), after)) :
    Amounts stream (exchangeActs patience stream) after ∧ stream.connection.Whole (exchangeActs patience stream) ∧
      after.connection.outgoing = [] ∧ after.connection.session.handshakeDone = true := by
  induction patience generalizing stream with
  | zero =>
    obtain ⟨begun, hflush⟩ := flushed_of_exchange hok
    obtain ⟨hamounts, hwhole, hnothing⟩ := amounts_of_flushed hflush
    rw [exchange, perform_bind_of_ok hflush, perform_get_bind] at hok
    split at hok
    · cases hok
    · next hdone =>
      cases hok
      exact ⟨hamounts, hwhole, hnothing, not_not.mp hdone⟩
  | succ patience ih =>
    obtain ⟨begun, hflush⟩ := flushed_of_exchange hok
    obtain ⟨hamounts, hwhole, hnothing⟩ := amounts_of_flushed hflush
    rw [exchange, perform_bind_of_ok hflush, perform_get_bind] at hok
    rw [exchangeActs, hflush]
    dsimp only
    by_cases hdone : begun.connection.session.handshakeDone = true
    · rw [if_neg (not_not.mpr hdone)] at hok
      cases hok
      rw [if_pos hdone, List.append_nil]
      exact ⟨hamounts, hwhole, hnothing, hdone⟩
    rw [if_pos hdone] at hok
    rw [if_neg hdone]
    obtain ⟨⟨error | _, next⟩, hreceive⟩ : ∃ outcome, perform receiveSome begun = outcome := ⟨_, rfl⟩
    · rw [perform_bind_of_error hreceive] at hok
      cases hok
    · rw [perform_bind_of_ok hreceive] at hok
      have hreceives := receives begun
      rw [hreceive] at hreceives ⊢
      obtain ⟨hmore, hmoreWhole, hend⟩ := ih hok
      refine ⟨hamounts.append (hreceives.amounts.append hmore), ?_, hend⟩
      rw [Connection.whole_append, ← hamounts.connection, Connection.whole_append, ← hreceives.amounts.connection]
      exact ⟨hwhole, hreceives.whole rfl, hmoreWhole⟩

/-- A handshake that succeeds loses nothing, and leaves nothing to send. -/
theorem amounts_handshake {patience : Nat} {connection : Connection κ} {transport : Logged τ}
    (hok : handshake patience connection transport = (.ok (), after)) :
    Amounts ⟨connection, transport, []⟩ (handshakeActs patience connection transport) after ∧
      connection.Whole (handshakeActs patience connection transport) ∧ after.connection.outgoing = [] ∧
      after.connection.session.handshakeDone = true := by
  obtain ⟨⟨failure | _, opened⟩, hstart⟩ : ∃ outcome, connection.start = outcome := ⟨_, rfl⟩
  · rw [handshake, perform_onConnection_bind_of_error hstart] at hok
    cases hok
  · rw [handshake_of_start hstart] at hok
    obtain ⟨hamounts, hwhole, hend⟩ := amounts_exchange hok
    have hbegin : Amounts ⟨connection, transport, []⟩ [⟨.start, 0⟩] ⟨opened, transport, []⟩ :=
      amounts_operation (congrArg Prod.snd hstart).symm rfl
    rw [handshakeActs, hstart, ← List.singleton_append]
    refine ⟨hbegin.append hamounts, Connection.whole_append.mpr ⟨Connection.whole_singleton rfl 0, ?_⟩, hend⟩
    rw [← hbegin.connection]
    exact hwhole

/-! ### Reading -/

/-- Where there is something to read, the transport is not used. -/
theorem seamless_read_of_unread (hunread : stream.unread ≠ []) (hrest : stream.connection.AtRest) (patience limit : Nat) :
    Seamless stream stream.popActs (stream.read patience limit).2 := by
  rw [popActs]
  by_cases hpending : stream.pending = []
  · rw [if_pos (by simp [hpending])]
    have hsplit := List.takeWhile_append_dropWhile (p := List.isEmpty) (l := stream.connection.received)
    cases hreceived : stream.connection.received.dropWhile List.isEmpty with
    | nil =>
      refine absurd ?_ hunread
      rw [unread, hpending, ← hsplit, hreceived, List.append_nil, List.nil_append, List.flatten_eq_nil_iff]
      exact fun data hmem => List.isEmpty_iff.mp (List.mem_takeWhile_imp hmem)
    | cons data rest =>
      rw [hreceived] at hsplit
      have hfront : stream.connection.received =
          (stream.connection.received.takeWhile List.isEmpty ++ [data]) ++ rest := by
        rw [List.append_assoc]
        exact hsplit.symm
      have hcount : stream.connection.received.length - rest.length =
          (stream.connection.received.takeWhile List.isEmpty ++ [data]).length := by
        rw [congrArg List.length hfront, List.length_append, Nat.add_sub_cancel]
      rw [List.tail_cons, hcount, read_of_received hpending hreceived]
      exact seamless_reads hfront hrest rfl rfl
  · rw [if_neg (by simpa using hpending), read_of_pending hpending]
    exact ⟨.nil rfl rfl, Connection.Whole.unbroken rfl, hrest⟩

/-- A read makes no gap, whatever comes of it. All it sends is the alert behind a failure, and that is the last. -/
theorem seamless_read (patience limit : Nat) (hrest : stream.connection.AtRest) :
    Seamless stream (awaitActs patience stream) (stream.read patience limit).2 := by
  induction patience generalizing stream with
  | zero =>
    rw [awaitActs]
    by_cases hunread : stream.unread = []
    · have hdrained := seamless_drained hunread hrest
      cases hclosed : stream.connection.peerClosed with
      | true => rwa [read_of_peerClosed hunread hclosed]
      | false => rwa [read_zero hunread hclosed]
    · exact seamless_read_of_unread hunread hrest 0 limit
  | succ patience ih =>
    rw [awaitActs]
    by_cases hunread : stream.unread = []
    · have hdrained := seamless_drained hunread hrest
      cases hclosed : stream.connection.peerClosed with
      | true =>
        rw [if_pos (.inr rfl), List.append_nil]
        rwa [read_of_peerClosed hunread hclosed]
      | false =>
        rw [if_neg (by simp [hunread])]
        have hreceived := (receives stream.drained).seamless hdrained.atRest
        obtain ⟨⟨failure | _, next⟩, houtcome⟩ : ∃ outcome, perform receiveSome stream.drained = outcome := ⟨_, rfl⟩
        · rw [houtcome] at hreceived
          rw [houtcome]
          dsimp only
          by_cases hnotify : failure = .connection (.receivedAlert .closeNotify)
          · subst hnotify
            rw [if_pos (isCloseNotify_eq_true.mpr rfl),
              read_succ_of_heard hunread hclosed (.inr (congrArg Prod.fst houtcome)),
              houtcome]
            exact hdrained.append (hreceived.append (ih hreceived.atRest))
          · rw [if_neg (mt isCloseNotify_eq_true.mp hnotify), List.append_nil,
              read_succ_of_failed hunread hclosed (congrArg Prod.fst houtcome) hnotify,
              houtcome]
            exact hdrained.append hreceived
        · rw [houtcome] at hreceived
          rw [houtcome, read_succ_of_heard hunread hclosed (.inl (congrArg Prod.fst houtcome)), houtcome]
          exact hdrained.append (hreceived.append (ih hreceived.atRest))
    · rw [if_pos (.inl hunread), List.append_nil]
      exact seamless_read_of_unread hunread hrest (patience + 1) limit

end SecureStream

end PresharedTls
