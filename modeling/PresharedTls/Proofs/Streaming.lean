import PresharedTls.Proofs.Farewell
import PresharedTls.Proofs.Guarded
import PresharedTls.Proofs.Logging
import PresharedTls.SecureStream

/-!
# Streams and the cuts of a transport

A transport delivers the peer's bytes in pieces of its own choosing, one a read. A stream hands them to its
connection and takes care of its output between reads. Once the handshake is over what its reader gets
is the same for all cuts, since an announcement that the peer sends no more is the end of the data. While
the handshake goes on the same announcement is a failure, even in one piece with the last message.
-/

namespace PresharedTls

/-- A transport that delivers the pieces of a script, one a read. What is written it takes, if not all
of it at once, and it draws no random bytes. -/
structure Transport.Plays {τ ε : Type} [Transport τ ε] (script : τ → List Bytes) : Prop where
  read : ∀ {transport : τ} {piece : Bytes} {rest : List Bytes}, script transport = piece :: rest →
    ∀ entropy, ∃ after, Transport.read SecureStream.readSize transport entropy = (.ok piece, after, entropy) ∧
      script after = rest
  write : ∀ {b : Bytes}, b ≠ [] → ∀ (transport : τ) (entropy : Entropy), ∃ count after,
    Transport.write b transport entropy = (.ok count, after, entropy) ∧ 0 < count ∧ script after = script transport
  flush : ∀ (transport : τ) (entropy : Entropy), ∃ after,
    Transport.flush transport entropy = (.ok (), after, entropy) ∧ script after = script transport

/-- A transport that will deliver `b` in at most `count` pieces, none of which is empty. -/
structure Transport.Cuts {τ : Type} (script : τ → List Bytes) (b : Bytes) (count : Nat) (transport : τ) : Prop where
  pieces : ∀ piece ∈ script transport, piece ≠ []
  flatten : (script transport).flatten = b
  length : (script transport).length ≤ count

namespace SecureStream

variable {κ τ ε α : Type} {connection : Connection κ} {transport : τ} {pending : Bytes} {script : τ → List Bytes}

/-- A stream that has `data` for its reader, in hand, in its connection's queue and in what its
transport delivers within `patience` reads, and behind that the announcement of the end. -/
structure Holds (script : τ → List Bytes) (patience : Nat) (data : Bytes) (stream : SecureStream κ τ) : Prop where
  pieces : ∀ piece ∈ script stream.transport, piece ≠ []
  patient : (script stream.transport).length ≤ patience
  data : ∃ rest, data = stream.pending ++ rest ∧
    stream.connection.Owes (script stream.transport).flatten rest

theorem Holds.mono {patience more : Nat} {data : Bytes} {stream : SecureStream κ τ}
    (h : stream.Holds script patience data) (hmore : patience ≤ more) : stream.Holds script more data :=
  ⟨h.pieces, Nat.le_trans h.patient hmore, h.data⟩

/-- With nothing in hand, the stream goes on with the first piece of its connection's queue that is
not empty. -/
theorem Holds.next {patience : Nat} {data piece : Bytes} {rest : List Bytes} {stream : SecureStream κ τ}
    (h : stream.Holds script patience data) (hpending : stream.pending = [])
    (hreceived : stream.connection.received.dropWhile List.isEmpty = piece :: rest) :
    Holds script patience data ⟨{ stream.connection with received := rest }, stream.transport, piece⟩ := by
  obtain ⟨more, rfl, howes⟩ := h.data
  rw [hpending, List.nil_append]
  have hskipped := howes.skip
  rw [hreceived] at hskipped
  obtain ⟨behind, rfl, hbehind⟩ := hskipped.drop (List.singleton_append (x := piece)).symm
  exact ⟨h.pieces, h.patient, behind, by simp, hbehind⟩

/-- With nothing in hand and nothing in the queue, all there is for the reader is still to come. -/
theorem Holds.owes {patience : Nat} {data : Bytes} {stream : SecureStream κ τ} (h : stream.Holds script patience data)
    (hpending : stream.pending = []) (hreceived : stream.connection.received.dropWhile List.isEmpty = []) :
    Connection.Owes { stream.connection with received := [] } (script stream.transport).flatten data := by
  obtain ⟨more, rfl, howes⟩ := h.data
  rw [hpending, List.nil_append]
  have hskipped := howes.skip
  rwa [hreceived] at hskipped

/-- A step that takes at most `limit` bytes off `data`, and none only where none are wanted or none
are left. -/
def Takes (script : τ → List Bytes) (patience limit : Nat) (data : Bytes) (step : Step κ τ ε Bytes)
    (stream : SecureStream κ τ) : Prop :=
  ∃ chunk rest after, data = chunk ++ rest ∧ chunk.length ≤ limit ∧ (chunk = [] → limit = 0 ∨ rest = []) ∧
    step.run stream = .ok chunk after ∧ after.Holds script patience rest

theorem takes_get_bind {patience limit : Nat} {data : Bytes} {next : SecureStream κ τ → Step κ τ ε Bytes}
    {stream : SecureStream κ τ} :
    Takes script patience limit data (get >>= next) stream ↔ Takes script patience limit data (next stream) stream :=
  Iff.rfl

theorem takes_set_bind {patience limit : Nat} {data : Bytes} {next : PUnit → Step κ τ ε Bytes}
    {stream state : SecureStream κ τ} :
    Takes script patience limit data (set state >>= next) stream ↔ Takes script patience limit data (next ⟨⟩) state :=
  Iff.rfl

theorem takes_bind_of_ok {patience limit : Nat} {data : Bytes} {step : Step κ τ ε α} {next : α → Step κ τ ε Bytes}
    {stream after : SecureStream κ τ} {value : α} (hrun : step.run stream = .ok value after)
    (h : Takes script patience limit data (next value) after) :
    Takes script patience limit data (step >>= next) stream := by
  rwa [Takes, run_bind_of_ok hrun]

theorem Takes.mono {patience more limit : Nat} {data : Bytes} {step : Step κ τ ε Bytes} {stream : SecureStream κ τ}
    (h : Takes script patience limit data step stream) (hmore : patience ≤ more) :
    Takes script more limit data step stream := by
  obtain ⟨chunk, rest, after, hdata, hlimit, hnone, hrun, hholds⟩ := h
  exact ⟨chunk, rest, after, hdata, hlimit, hnone, hrun, hholds.mono hmore⟩

theorem takes_takePending {patience : Nat} {data : Bytes} {stream : SecureStream κ τ}
    (h : stream.Holds script patience data) (hpending : stream.pending ≠ []) (limit : Nat) :
    Takes script patience limit data (takePending limit : Step κ τ ε Bytes) stream := by
  obtain ⟨more, rfl, howes⟩ := h.data
  have hsplit : stream.pending.take limit ++ (stream.pending.drop limit ++ more) = stream.pending ++ more := by
    rw [← List.append_assoc, List.take_append_drop]
  refine ⟨stream.pending.take limit, stream.pending.drop limit ++ more, _, hsplit.symm, List.length_take_le _ _, ?_, rfl,
    h.pieces, h.patient, more, rfl, howes⟩
  intro hnone
  exact .inl ((List.take_eq_nil_iff.mp hnone).resolve_right hpending)

/-! ### Moving bytes -/

theorem run_onTransport_of_ok {call : τ → Entropy → Except (TransportFault ε) α × τ × Entropy} {value : α} {after : τ}
    (h : call transport connection.entropy = (.ok value, after, connection.entropy)) :
    (onTransport call).run ⟨connection, transport, pending⟩ = .ok value ⟨connection, after, pending⟩ := by
  rw [run_onTransport, h]
  rfl

variable [Transport τ ε]

theorem run_writeAll (hplays : Transport.Plays script) (b : Bytes) (connection : Connection κ) (transport : τ)
    (pending : Bytes) : ∃ after, script after = script transport ∧
      (writeAll b).run ⟨connection, transport, pending⟩ = .ok () ⟨connection, after, pending⟩ := by
  induction hlength : b.length using Nat.strongRecOn generalizing b transport with
  | ind length ih =>
    rw [writeAll]
    by_cases hempty : b = []
    · subst hempty
      exact ⟨transport, rfl, rfl⟩
    obtain ⟨count, taken, hwrite, hcount, hscript⟩ := hplays.write hempty transport connection.entropy
    obtain ⟨after, hafter, hrest⟩ := ih _ (hlength ▸ length_drop_lt hempty hcount.ne') (b.drop count) taken rfl
    refine ⟨after, hafter.trans hscript, ?_⟩
    rw [if_neg (by simpa using hempty), run_bind_of_ok (run_onTransport_of_ok hwrite), if_neg (by omega)]
    exact hrest

/-- Flushing puts all that is queued on its way. -/
theorem run_flushOutgoing (hplays : Transport.Plays script) (connection : Connection κ) (transport : τ)
    (pending : Bytes) : ∃ after, script after = script transport ∧
      flushOutgoing.run ⟨connection, transport, pending⟩ = .ok () ⟨connection.takeOutgoing.2, after, pending⟩ := by
  rw [run_flushOutgoing_eq]
  dsimp only
  split
  · obtain ⟨written, hwritten, hwrite⟩ := run_writeAll hplays connection.takeOutgoing.1 connection.takeOutgoing.2
      transport pending
    obtain ⟨after, hflush, hafter⟩ := hplays.flush written connection.takeOutgoing.2.entropy
    refine ⟨after, hafter.trans hwritten, ?_⟩
    rw [run_bind_of_ok hwrite]
    exact run_onTransport_of_ok hflush
  · exact ⟨transport, rfl, rfl⟩

/-- One read hands in one piece, and all that is queued for it is on its way before a failure is
reported. -/
theorem run_receiveSome (hplays : Transport.Plays script) {piece : Bytes} {rest : List Bytes}
    (hscript : script transport = piece :: rest) (hpiece : piece ≠ []) :
    ∃ after, script after = rest ∧ receiveSome.run ⟨connection, transport, pending⟩ =
      (accept ((connection.receive piece).1.mapError .connection)).run
        ⟨(connection.receive piece).2.takeOutgoing.2, after, pending⟩ := by
  obtain ⟨read, hread, hrest⟩ := hplays.read hscript connection.entropy
  obtain ⟨after, hafter, hflush⟩ := run_flushOutgoing hplays (connection.receive piece).2 read pending
  refine ⟨after, hafter.trans hrest, run_eq_of_perform ?_⟩
  have hflushed : perform flushOutgoing ⟨(connection.receive piece).2, read, pending⟩ =
      (.ok (), ⟨(connection.receive piece).2.takeOutgoing.2, after, pending⟩) := by
    rw [perform, hflush]
  obtain ⟨⟨received, next⟩, hreceive⟩ : ∃ outcome, connection.receive piece = outcome := ⟨_, rfl⟩
  have hreceived : perform receiveSome ⟨connection, transport, pending⟩ = _ :=
    perform_receiveSome_of_ok hread hpiece hreceive
  rw [hreceive] at hflushed ⊢
  rw [perform_accept, hreceived, hflushed]
  cases received <;> rfl

/-! ### The handshake -/

/-- The handshake ends well if it is done where a piece ends. Otherwise the piece in which it is done
brings the end of the peer's data too, and the handshake fails with that. -/
theorem run_exchange (hplays : Transport.Plays script) {patience : Nat} {data : Bytes}
    (hears : connection.Hears (script transport).flatten data) (hpieces : ∀ piece ∈ script transport, piece ≠ [])
    (hpatience : (script transport).length ≤ patience) :
    (connection.SettlesWithin (script transport) ∧ ∃ after,
        (exchange patience).run ⟨connection, transport, []⟩ = .ok () after ∧ after.Holds script patience data) ∨
      ¬ connection.SettlesWithin (script transport) ∧ ∃ after,
        (exchange patience).run ⟨connection, transport, []⟩ =
          .error (.connection (.receivedAlert .closeNotify)) after := by
  induction patience generalizing connection transport with
  | zero =>
    have hnone : script transport = [] := List.length_eq_zero_iff.mp (Nat.le_zero.mp hpatience)
    exact absurd (by rw [hnone]; rfl) hears.ne_nil
  | succ patience ih =>
    obtain ⟨flushed, hflushed, hflush⟩ := run_flushOutgoing hplays connection transport []
    rw [exchange, run_bind_of_ok hflush, ← Connection.settlesWithin_takeOutgoing]
    have hthere := hears.takeOutgoing
    generalize connection.takeOutgoing.2 = connection at hthere
    rw [run_bind_of_ok (show (get : Step κ τ ε _).run ⟨connection, flushed, []⟩ = .ok _ _ from rfl)]
    by_cases hdone : connection.session.handshakeDone = true
    · rw [if_neg fun hundone => hundone hdone]
      refine .inl ⟨⟨[], _, connection, rfl, Connection.receive_nil hthere.waits hthere.ready, hdone⟩, _, rfl, ?_⟩
      rw [← hflushed] at hpieces hpatience hthere
      exact ⟨hpieces, hpatience, data, rfl, .inl hthere⟩
    rw [if_pos hdone]
    obtain ⟨piece, rest, hscript⟩ := List.exists_cons_of_ne_nil (mt (congrArg List.flatten) hears.ne_nil)
    rw [hscript] at hflushed hpieces hpatience hthere ⊢
    rw [Connection.settlesWithin_cons hthere.waits hthere.ready]
    have hpiece : piece ≠ [] := hpieces piece List.mem_cons_self
    obtain ⟨after, hafter, hreceive⟩ := run_receiveSome hplays hflushed hpiece
    rcases hthere.receive with ⟨next, hnext, hhears⟩ | ⟨final, hfinal, _⟩
    · rw [hnext] at hreceive
      rw [run_bind_of_ok hreceive]
      subst hafter
      have hsettles : (connection.session.handshakeDone = true ∨ ∃ next, connection.receive piece = (.ok (), next) ∧
          next.SettlesWithin (script after)) ↔ next.takeOutgoing.2.SettlesWithin (script after) := by
        simp [hdone, hnext, Connection.settlesWithin_takeOutgoing]
      rw [hsettles]
      refine (ih hhears.takeOutgoing (fun piece hmem => hpieces piece (List.mem_cons_of_mem _ hmem))
        (Nat.le_of_succ_le_succ hpatience)).imp_left fun hok => hok.imp_right ?_
      rintro ⟨after, hrun, hholds⟩
      exact ⟨after, hrun, hholds.mono (Nat.le_succ patience)⟩
    · rw [hfinal] at hreceive
      rw [run_bind_of_error hreceive]
      refine .inr ⟨?_, _, rfl⟩
      rintro (hdone' | ⟨next, hnext, _⟩)
      · exact hdone hdone'
      · rw [hfinal] at hnext
        cases hnext

/-! ### Reading -/

/-- Where there is something in hand or in the queue, or nothing to wait for, no read is needed. -/
theorem takes_awaitData_of_ready {patience : Nat} {data : Bytes} {stream : SecureStream κ τ}
    (h : stream.Holds script patience data) (limit : Nat)
    (hready : stream.pending = [] → stream.connection.received.dropWhile List.isEmpty = [] →
      stream.connection.peerClosed = true) :
    Takes script patience limit data (awaitData limit patience) stream := by
  unfold awaitData
  rw [takes_get_bind]
  by_cases hpending : stream.pending = []
  · rw [if_neg (by simp [hpending])]
    cases hreceived : stream.connection.received.dropWhile List.isEmpty with
    | cons piece rest =>
      have hpiece : piece ≠ [] := by
        have hfirst := List.head_dropWhile_not List.isEmpty (List.ne_nil_of_mem (hreceived ▸ List.mem_cons_self))
        simpa [hreceived] using hfirst
      exact takes_takePending (h.next hpending hreceived) hpiece limit
    | nil =>
      have hclosed := hready hpending hreceived
      have howes := h.owes hpending hreceived
      have hnone : data = [] := by
        rcases howes with hhears | ⟨_, hdata⟩
        · exact absurd (hclosed.symm.trans hhears.listens) (by decide)
        · exact hdata.symm
      subst hnone
      rw [takes_set_bind, if_pos hclosed]
      exact ⟨[], [], _, rfl, Nat.zero_le _, fun _ => .inr rfl, rfl, h.pieces, h.patient, [], by simp [hpending], howes⟩
  · rw [if_pos (by simpa using hpending)]
    exact takes_takePending h hpending limit

/-- With nothing in hand or in the queue and no end announced, the next piece is handed in, and whether
it brings the end or not, the stream has for its reader what it had before. -/
theorem run_receiveSome_of_hears (hplays : Transport.Plays script) {patience : Nat} {data : Bytes}
    (hpieces : ∀ piece ∈ script transport, piece ≠ []) (hpatience : (script transport).length ≤ patience + 1)
    (hhears : connection.Hears (script transport).flatten data) :
    ∃ result after, (attempt receiveSome).run ⟨connection, transport, []⟩ = .ok result after ∧
      (result = .ok () ∨ result = .error (.connection (.receivedAlert .closeNotify))) ∧
      after.Holds script patience data := by
  obtain ⟨piece, rest, hscript⟩ := List.exists_cons_of_ne_nil (mt (congrArg List.flatten) hhears.ne_nil)
  rw [hscript] at hpieces hpatience hhears
  obtain ⟨after, rfl, hreceive⟩ := run_receiveSome hplays hscript (hpieces piece List.mem_cons_self)
  have hpieces' : ∀ piece ∈ script after, piece ≠ [] := fun piece hmem => hpieces piece (List.mem_cons_of_mem _ hmem)
  have hpatience' : (script after).length ≤ patience := Nat.le_of_succ_le_succ hpatience
  rw [run_attempt, hreceive]
  rcases hhears.receive with ⟨next, hnext, hhears'⟩ | ⟨final, hfinal, hclosed, hdata⟩
  · rw [hnext]
    exact ⟨_, _, rfl, .inl rfl, hpieces', hpatience', data, rfl, .inl hhears'.takeOutgoing⟩
  · rw [hfinal]
    exact ⟨_, _, rfl, .inr rfl, hpieces', hpatience', data, rfl, .inr ⟨hclosed, hdata⟩⟩

/-- A reader waits until there is something for it or no more is coming. -/
theorem takes_awaitData (hplays : Transport.Plays script) {patience : Nat} {data : Bytes} {stream : SecureStream κ τ}
    (h : stream.Holds script patience data) (limit : Nat) :
    Takes script patience limit data (awaitData limit patience) stream := by
  induction patience generalizing data stream with
  | zero =>
    refine takes_awaitData_of_ready h limit fun hpending hreceived => ?_
    rcases h.owes hpending hreceived with hhears | ⟨hclosed, _⟩
    · have hnone : script stream.transport = [] := List.length_eq_zero_iff.mp (Nat.le_zero.mp h.patient)
      exact absurd (by rw [hnone]; rfl) hhears.ne_nil
    · exact hclosed
  | succ patience ih =>
    by_cases hready : stream.pending = [] → stream.connection.received.dropWhile List.isEmpty = [] →
        stream.connection.peerClosed = true
    · exact takes_awaitData_of_ready h limit hready
    simp only [Classical.not_imp, Bool.not_eq_true] at hready
    obtain ⟨hpending, hreceived, hopen⟩ := hready
    have hhears := (h.owes hpending hreceived).resolve_right fun hclosed => by simp [hopen] at hclosed
    obtain ⟨result, after, hrun, hresult, hafter⟩ := run_receiveSome_of_hears hplays h.pieces h.patient hhears
    have hrest := (ih hafter).mono (Nat.le_succ patience)
    unfold awaitData
    rw [takes_get_bind, if_neg (by simp [hpending]), hreceived]
    simp only
    rw [takes_set_bind, if_neg (by simp [hopen])]
    rw [← hpending] at hrun
    rcases hresult with rfl | rfl
    · exact takes_bind_of_ok hrun hrest
    · exact takes_bind_of_ok hrun hrest

/-! ### Reading to the end -/

/-- Reads once with each of the limits. -/
def readEach (patience : Nat) (stream : SecureStream κ τ) : (limits : List Nat) → Except (StreamError ε) (List Bytes)
  | [] => .ok []
  | limit :: limits =>
    match stream.read patience limit with
    | (.ok chunk, stream) => (stream.readEach patience limits).map (chunk :: ·)
    | (.error error, _) => .error error

/-- What reads with these limits give of `data`: the front of what is left of it, up to the limit,
and nothing only where nothing is wanted or nothing is left. -/
inductive Serves : (limits : List Nat) → (data : Bytes) → (chunks : List Bytes) → Prop
  | nil (data : Bytes) : Serves [] data []
  | cons {limit : Nat} {limits : List Nat} {chunk rest : Bytes} {chunks : List Bytes} (hlimit : chunk.length ≤ limit)
      (hnone : chunk = [] → limit = 0 ∨ rest = []) (hrest : Serves limits rest chunks) :
      Serves (limit :: limits) (chunk ++ rest) (chunk :: chunks)

theorem Serves.nil_of_nil {limits : List Nat} {data : Bytes} {chunks : List Bytes} (h : Serves limits data chunks)
    (hdata : data = []) : chunks = List.replicate limits.length [] := by
  induction h with
  | nil => rfl
  | cons _ _ _ ih =>
    obtain ⟨rfl, rfl⟩ := List.append_eq_nil_iff.mp hdata
    rw [ih rfl, List.length_cons, List.replicate_succ]

/-- With more reads than there are bytes, all of the data is read, and then its end. -/
theorem Serves.whole {limits : List Nat} {data : Bytes} {chunks : List Bytes} (h : Serves limits data chunks)
    (hwanted : ∀ limit ∈ limits, 0 < limit) (henough : data.length < limits.length) :
    chunks.flatten = data ∧ chunks.getLast? = some [] := by
  induction h with
  | nil => exact absurd henough (Nat.not_lt_zero _)
  | @cons limit limits chunk rest chunks hlimit hnone hrest ih =>
    have hwanted' := fun limit hmem => hwanted limit (List.mem_cons_of_mem _ hmem)
    by_cases hchunk : chunk = []
    · subst hchunk
      have hrest' := (hnone rfl).resolve_left (Nat.pos_iff_ne_zero.mp (hwanted limit List.mem_cons_self))
      rw [hrest.nil_of_nil hrest', hrest', ← List.replicate_succ]
      refine ⟨by simp, ?_⟩
      rw [List.getLast?_replicate, if_neg (Nat.succ_ne_zero _)]
    · have hpositive := List.length_pos_iff.mpr hchunk
      rw [List.length_append, List.length_cons] at henough
      obtain ⟨hflatten, hlast⟩ := ih hwanted' (by omega)
      refine ⟨by rw [List.flatten_cons, hflatten], ?_⟩
      rw [List.getLast?_cons, hlast]
      rfl

/-- The stream gives its reader `data`, in whatever portions it is read, and then the end. -/
structure Delivers (patience : Nat) (data : Bytes) (stream : SecureStream κ τ) : Prop where
  serves : ∀ limits, ∃ chunks, stream.readEach patience limits = .ok chunks ∧ Serves limits data chunks
  whole : ∀ limits, (∀ limit ∈ limits, 0 < limit) → data.length < limits.length →
    ∃ chunks, stream.readEach patience limits = .ok chunks ∧ chunks.flatten = data ∧ chunks.getLast? = some []

theorem Holds.serves (hplays : Transport.Plays script) {patience : Nat} {data : Bytes} {stream : SecureStream κ τ}
    (h : stream.Holds script patience data) (limits : List Nat) :
    ∃ chunks, stream.readEach patience limits = .ok chunks ∧ Serves limits data chunks := by
  induction limits generalizing data stream with
  | nil => exact ⟨[], rfl, .nil data⟩
  | cons limit limits ih =>
    obtain ⟨chunk, rest, after, rfl, hlimit, hnone, hrun, hholds⟩ := takes_awaitData hplays h limit
    obtain ⟨chunks, hchunks, hserves⟩ := ih hholds
    have hread : stream.read patience limit = (.ok chunk, after) := by
      rw [read, perform, hrun]
    refine ⟨chunk :: chunks, ?_, .cons hlimit hnone hserves⟩
    rw [readEach, hread]
    simp only [hchunks]
    rfl

theorem Holds.delivers (hplays : Transport.Plays script) {patience : Nat} {data : Bytes} {stream : SecureStream κ τ}
    (h : stream.Holds script patience data) : stream.Delivers patience data where
  serves := h.serves hplays
  whole limits hwanted henough := by
    obtain ⟨chunks, hchunks, hserves⟩ := h.serves hplays limits
    exact ⟨chunks, hchunks, hserves.whole hwanted henough⟩

theorem handshake_of_start {opened : Connection κ} (hstart : connection.start = (.ok (), opened)) (patience : Nat)
    (transport : τ) : handshake patience connection transport = perform (exchange patience) ⟨opened, transport, []⟩ := by
  rw [handshake, perform_onConnection_bind_of_ok hstart]

/-- **A handshake depends on how the transport cuts the bytes, and reading does not.** The peer's bytes
`b` take a connection to the announcement that no more is coming. If the handshake is done where one
of the pieces ends, it succeeds, and the stream gives its reader the data that came and then the end,
the same for all such cuts. If it is done in the same piece that brings the announcement, or not at all,
it fails with the announcement, and the data is lost. Whenever the handshake is done by the end there are
cuts of both kinds. -/
theorem handshake_of_cut {configuration : Configuration κ} {entropy : Entropy} {opened closed : Connection κ} {b : Bytes}
    (hmade : configuration.connection entropy = .ok connection) (hstart : connection.start = (.ok (), opened))
    (htold : opened.receive b = (.error (.receivedAlert .closeNotify), closed)) (hplays : Transport.Plays script) :
    (∀ patience transport, Transport.Cuts script b patience transport →
      (opened.SettlesWithin (script transport) → ∃ stream,
        handshake patience connection transport = (.ok (), stream) ∧ stream.Delivers patience closed.received.flatten) ∧
      (¬ opened.SettlesWithin (script transport) → ∃ stream,
        handshake patience connection transport = (.error (.connection (.receivedAlert .closeNotify)), stream))) ∧
    (closed.session.handshakeDone = true →
      opened.SettlesWithin (b.map fun byte => [byte]) ∧ ¬ opened.SettlesWithin [b]) := by
  have hwaits : opened.Waits := by simpa only [hstart] using (Reachable.opened hmade).waits.start
  have hready := Connection.takesInput_of_told htold
  have hunheard := Configuration.unheard_start hmade hstart
  refine ⟨fun patience transport hcut => ?_, fun hdone => ⟨Connection.settlesWithin_bytes hwaits hready htold hdone,
    Connection.not_settlesWithin_whole hwaits hready htold hunheard.undone⟩⟩
  rw [handshake_of_start hstart]
  have hhears : opened.Hears (script transport).flatten closed.received.flatten := by
    rw [hcut.flatten]
    exact ⟨hwaits, hready, hunheard.listens, closed, htold, rfl⟩
  rcases run_exchange hplays hhears hcut.pieces hcut.length with
    ⟨hsettles, after, hrun, hholds⟩ | ⟨hunsettled, after, hrun⟩
  · refine ⟨fun _ => ⟨after, ?_, hholds.delivers hplays⟩, fun hnot => absurd hsettles hnot⟩
    rw [perform, hrun]
  · refine ⟨fun hsettles => absurd hsettles hunsettled, fun _ => ⟨after, ?_⟩⟩
    rw [perform, hrun]

end SecureStream

/-! ### A tape -/

/-- Pieces that were recorded for a transport to deliver, each of them short enough for one read. -/
structure Tape where
  pieces : List Bytes
  short : ∀ piece ∈ pieces, piece.length ≤ SecureStream.readSize := by decide

namespace Tape

/-- The next piece, or its front if less is wanted. -/
def read (limit : Nat) (entropy : Entropy) : Tape → Except TransportFault Bytes × Tape × Entropy
  | ⟨[], short⟩ => (.ok [], ⟨[], short⟩, entropy)
  | ⟨piece :: rest, short⟩ =>
    if limit < piece.length then
      (.ok (piece.take limit), ⟨piece.drop limit :: rest, fun other hmem => by
        rcases List.mem_cons.mp hmem with rfl | hrest
        · exact Nat.le_trans (List.length_drop ▸ Nat.sub_le _ _) (short piece List.mem_cons_self)
        · exact short other (List.mem_cons_of_mem _ hrest)⟩, entropy)
    else (.ok piece, ⟨rest, fun other hmem => short other (List.mem_cons_of_mem _ hmem)⟩, entropy)

instance : Transport Tape Empty where
  read limit tape entropy := tape.read limit entropy
  write b tape entropy := (.ok b.length, tape, entropy)
  flush tape entropy := (.ok (), tape, entropy)

theorem plays : Transport.Plays Tape.pieces where
  read {tape piece rest} hpieces entropy := by
    obtain ⟨_, hshort⟩ := tape
    subst hpieces
    have hfits := hshort piece List.mem_cons_self
    refine ⟨⟨rest, fun other hmem => hshort other (List.mem_cons_of_mem _ hmem)⟩, ?_, rfl⟩
    exact if_neg (Nat.not_lt.mpr hfits)
  write {b} hb tape entropy := ⟨b.length, tape, rfl, List.length_pos_iff.mpr hb, rfl⟩
  flush tape entropy := ⟨tape, rfl, rfl⟩

end Tape

namespace SecureStream

/-- A provider that leaves records as they are. -/
def transparent : Provider Unit where
  createEncoder _ _ := .ok ()
  createDecoder _ _ := .ok ()
  protect _ _ _ plaintext entropy := (.ok plaintext, (), entropy)
  unprotect _ _ _ fragment := (.ok fragment, ())
  verifyData _ _ _ := .ok ⟨List.replicate 12 0, rfl⟩

def transparentClient : ClientSettings Unit where
  provider := transparent
  credentials := some ([1], [2])
  suites_ne_nil := CipherSuite.all_ne_nil

/-- What the peer's side of the handshake ends with, where records are left as they are. -/
def plainFinish : Bytes :=
  [20, 3, 3, 0, 1, 1] ++ [22, 3, 3, 0, 16, 20, 0, 0, 12] ++ List.replicate 12 0

/-- Five bytes of application data and the announcement that no more is coming. -/
def plainFarewell : Bytes :=
  [23, 3, 3, 0, 5, 104, 101, 108, 108, 111] ++ [21, 3, 3, 0, 2, 1, 0]

def plainClient : Connection Unit :=
  transparentClient.connection ⟨fun _ => 7, 0⟩

theorem receive_plainFarewell : (plainClient.start.2.receive (usualGreeting ++ plainFinish ++ plainFarewell)).1 =
      .error (.receivedAlert .closeNotify) ∧
    (plainClient.start.2.receive (usualGreeting ++ plainFinish ++ plainFarewell)).2.received.flatten =
      [104, 101, 108, 108, 111] := by
  constructor <;> cbv

theorem receive_plainFinish : (plainClient.start.2.receive (usualGreeting ++ plainFinish)).1 = .ok () ∧
    (plainClient.start.2.receive (usualGreeting ++ plainFinish)).2.session.handshakeDone = true := by
  constructor <;> cbv

theorem receive_usualGreeting : (plainClient.start.2.receive usualGreeting).2.session.handshakeDone = false := by
  cbv

/-- The same bytes, with the end of the handshake in a piece of its own and in one with the rest. -/
theorem handshake_of_cut_transparent :
    (∃ stream, handshake 3 plainClient (⟨[usualGreeting, plainFinish, plainFarewell], by decide⟩ : Tape) =
        (.ok (), stream) ∧ stream.Delivers 3 [104, 101, 108, 108, 111]) ∧
      ∃ stream, handshake 3 plainClient (⟨[usualGreeting, plainFinish ++ plainFarewell], by decide⟩ : Tape) =
        (.error (.connection (.receivedAlert .closeNotify)), stream) := by
  have hmade : (Configuration.client transparentClient).connection ⟨fun _ => 7, 0⟩ = .ok plainClient := rfl
  have hstart : plainClient.start = (.ok (), plainClient.start.2) := Prod.ext (by cbv) rfl
  have htold : plainClient.start.2.receive (usualGreeting ++ plainFinish ++ plainFarewell) =
      (.error (.receivedAlert .closeNotify), _) := Prod.ext receive_plainFarewell.1 rfl
  have hall := (handshake_of_cut hmade hstart htold Tape.plays).1
  rw [receive_plainFarewell.2] at hall
  constructor
  · refine (hall 3 ⟨[usualGreeting, plainFinish, plainFarewell], by decide⟩ ⟨?_, ?_, by decide⟩).1 ?_
    · decide
    · simp
    · refine ⟨[usualGreeting, plainFinish], [plainFarewell], _, rfl, ?_, receive_plainFinish.2⟩
      exact Prod.ext (by simpa using receive_plainFinish.1) (by simp)
  · refine (hall 3 ⟨[usualGreeting, plainFinish ++ plainFarewell], by decide⟩ ⟨?_, ?_, by decide⟩).2 ?_
    · decide
    · simp
    · rintro ⟨early, late, after, hsplit, hafter, hdone⟩
      rcases early with _ | ⟨first, _ | ⟨second, early⟩⟩
      · have hundone : (plainClient.start.2.receive []).2.session.handshakeDone = false := by cbv
        rw [List.flatten_nil] at hafter
        rw [hafter, hdone] at hundone
        cases hundone
      · obtain rfl : usualGreeting = first := (List.cons.inj hsplit).1
        have hundone := receive_usualGreeting
        rw [List.flatten_singleton] at hafter
        rw [hafter, hdone] at hundone
        cases hundone
      · obtain ⟨rfl, hrest⟩ := List.cons.inj hsplit
        obtain ⟨rfl, hnone⟩ := List.cons.inj hrest
        obtain ⟨rfl, -⟩ := List.append_eq_nil_iff.mp hnone.symm
        have hfailed := receive_plainFarewell.1
        simp only [List.flatten_cons, List.flatten_nil, List.append_nil, ← List.append_assoc] at hafter
        rw [hafter] at hfailed
        cases hfailed

end SecureStream

end PresharedTls
