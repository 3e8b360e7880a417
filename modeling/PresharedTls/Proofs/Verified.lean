import PresharedTls.Proofs.Observed
import PresharedTls.Proofs.Outcome

/-!
# What a handshake that is done has been through

An endpoint counts its handshake as done only if the messages it accepted came in the one order there
is, and the last of them was the verify data over all messages before it. Nothing of that last message
came in a record that was not opened by the decrypter.
-/

namespace PresharedTls

open Event (transcript receivedBytes handshakeBytes spoken)

/-- The peer's Finished, `late` events behind its ChangeCipherSpec, and `early` events before that. -/
structure Concludes (role : Role) (context : Protection) (early late after : List Event)
    (finished : HandshakeMessage) : Prop where
  /-- The messages that were accepted are those of a course, in its order, and no others. -/
  course : ∃ hinted : Bool,
    Event.milestones (early ++ .switched :: (late ++ .received finished :: after)) = role.course hinted ∧
      (Event.exchanged (early ++ late)).map (·.type) = role.conversation hinted
  type : finished.type = .finished
  /-- The body is the peer's verify data over the messages that were exchanged before. -/
  body : finished.body = (context.verifyData role.peer (transcript (early ++ late))).bytes
  /-- What came in before the ChangeCipherSpec was used up by the messages before it. -/
  boundary : handshakeBytes early = receivedBytes early
  /-- The records behind the ChangeCipherSpec brought the message, -/
  bytes : finished.bytes <+: handshakeBytes late
  /-- and the decrypter opened every one of them. -/
  isSealed : ∀ typeCode plaintext isSealed, .opened typeCode plaintext isSealed ∈ late → isSealed = true

theorem Protection.verifyData_of_used {context later : Protection} (h : Provider.standard.Used context later)
    (sender : Role) (said : Bytes) : later.verifyData sender said = context.verifyData sender said := by
  induction h with
  | refl => rfl
  | @opened later typeCode version fragment _ ih =>
    rw [← ih]
    exact later.verifyData_unprotect typeCode version fragment sender said

theorem Event.milestones_of_received {events : List Event} (h : ∀ event ∈ events, ∃ message, event = .received message) :
    Event.milestones events = [] := by
  induction events with
  | nil => rfl
  | cons event rest ih =>
    obtain ⟨message, rfl⟩ := h event List.mem_cons_self
    exact ih fun other hmem => h other (List.mem_cons_of_mem _ hmem)

theorem Over.split {κ : Type} {view : View κ} {events : List Event} (h : Over view events) (hdone : view.done = true) :
    ∃ (hinted : Bool) (early late after : List Event) (verifyData : VerifyData),
      events = early ++ .switched :: (late ++ .received ⟨.finished, verifyData.bytes⟩ :: after) ∧
      spoken late = [] ∧ .computed view.role.peer (transcript early) verifyData ∈ events ∧
      (Event.exchanged early).map (·.type) = view.role.conversation hinted ∧
      Event.milestones events = view.role.course hinted := by
  obtain ⟨talk, refused, hspoken, htalk, hrefused⟩ := h.done hdone
  obtain ⟨hinted, said, after, verifyData, rfl, htypes, hcourse⟩ := htalk.concluded
  have hmilestones : Event.milestones events = view.role.course hinted := by
    rw [← Event.milestones_spoken, hspoken, Event.milestones_append, hcourse, Event.milestones_of_received hrefused,
      List.append_nil]
  have hcomputed : .computed view.role.peer (transcript said) verifyData ∈ events := by
    rw [← Event.mem_spoken _ rfl, hspoken]
    simp
  rw [List.append_assoc, spoken, List.filter_eq_append_iff] at hspoken
  obtain ⟨opening, rest, rfl, hopening, hrest⟩ := hspoken
  obtain ⟨before, behind, rfl, hbefore, -, hbehind⟩ := List.filter_eq_cons_iff.mp hrest
  obtain ⟨late, ending, rfl, hlate, -, -⟩ := List.filter_eq_cons_iff.mp hbehind
  have hearly : spoken (opening ++ before) = said := by
    have hsilent : spoken before = [] := by
      rw [spoken, List.filter_eq_nil_iff]
      exact hbefore
    rw [Event.spoken_append, hsilent, List.append_nil]
    exact hopening
  refine ⟨hinted, opening ++ before, late, ending, verifyData, ?_, ?_, ?_, ?_, hmilestones⟩
  · rw [List.append_assoc]
  · rw [spoken, List.filter_eq_nil_iff]
    exact hlate
  · rw [← Event.transcript_spoken (opening ++ before), hearly]
    exact hcomputed
  · rw [← Event.exchanged_spoken, hearly]
    exact htypes

/-- The Finished and what came before it, in the past of an endpoint whose handshake is done. -/
theorem Over.concludes {view : View Protection} {events : List Event} (h : Over view events)
    (hprovider : view.provider = .standard) (hdone : view.done = true) :
    ∃ (context : Protection) (early late after : List Event) (finished : HandshakeMessage),
      view.decrypter = some context ∧ events = early ++ .switched :: (late ++ .received finished :: after) ∧
      Concludes view.role context early late after finished := by
  obtain ⟨hinted, early, late, after, verifyData, hevents, hlate, hcomputed, htypes, hcourse⟩ := h.split hdone
  obtain ⟨context, later, hdecrypter, hused, hverify⟩ := h.judged _ _ hcomputed
  rw [hprovider] at hused hverify
  have hdata : verifyData = later.verifyData view.role.peer (transcript early) := by
    rw [Protection.verifyData_of_used hused]
    exact (Except.ok.inj hverify).symm
  have hsaid : transcript (early ++ late) = transcript early := by
    rw [← Event.transcript_spoken, Event.spoken_append, hlate, List.append_nil, Event.transcript_spoken]
  have hexchanged : Event.exchanged (early ++ late) = Event.exchanged early := by
    rw [← Event.exchanged_spoken, Event.spoken_append, hlate, List.append_nil, Event.exchanged_spoken]
  have hboundary : handshakeBytes early = receivedBytes early := h.switched early _ hevents
  refine ⟨later, early, late, after, ⟨.finished, verifyData.bytes⟩, hdecrypter, hevents, ⟨hinted, ?_, ?_⟩, rfl, ?_,
    hboundary, ?_, ?_⟩
  · rw [← hevents]
    exact hcourse
  · rw [hexchanged]
    exact htypes
  · rw [hsaid, ← hdata]
  · have hprefix : early ++ .switched :: late ++ [.received ⟨.finished, verifyData.bytes⟩] <+: events := by
      rw [hevents]
      exact ⟨after, by simp⟩
    have hreceived : receivedBytes late = [] := by
      rw [← Event.receivedBytes_spoken, hlate]
      rfl
    have hbytes := h.received _ hprefix
    rw [Event.receivedBytes_concat, Event.handshakeBytes_concat, Event.receivedBytes_append, Event.handshakeBytes_append,
      hboundary, List.append_assoc, List.append_assoc, List.prefix_append_right_inj] at hbytes
    have hfront : receivedBytes (.switched :: late) = [] := hreceived
    have hbehind : handshakeBytes (.switched :: late) = handshakeBytes late := rfl
    rw [hfront, hbehind] at hbytes
    simpa [Event.received?, Event.handshakePart] using hbytes
  · intro typeCode plaintext isSealed hmem
    have hsealed := h.sealed
    rw [hevents, List.pairwise_append] at hsealed
    have hbehind := (List.pairwise_cons.mp hsealed.2.1).1 (.opened typeCode plaintext isSealed)
      (List.mem_append_left _ hmem)
    exact hbehind rfl typeCode plaintext isSealed rfl

/-- Whatever an application does with a connection, and whatever bytes arrive, the handshake is done only
by the right messages in the right order and a Finished that is verified. -/
theorem Connection.concludes_of_handshakeDone {configuration : Configuration Protection}
    (hprovider : configuration.provider = .standard) {entropy : Entropy} {connection : Connection Protection}
    (hmade : configuration.connection entropy = .ok connection) (operations : List Operation)
    (hdone : (connection.run operations).session.handshakeDone = true) :
    ∃ (context : Protection) (early late after : List Event) (finished : HandshakeMessage),
      (connection.run operations).session.decrypter = some context ∧
      connection.events operations = early ++ .switched :: (late ++ .received finished :: after) ∧
      Concludes configuration.role context early late after finished := by
  obtain ⟨hrole, hstandard⟩ := Connection.configured_run hmade operations
  rw [← hrole]
  apply (Connection.sound_run hmade operations).toOver.concludes
  · exact hstandard.trans hprovider
  · exact hdone

/-- The client's end of a handshake that completes. -/
theorem Connection.concludes_of_handshakeDone_usual :
    ∃ (operations : List Operation) (context : Protection) (early late after : List Event) (finished : HandshakeMessage),
      (((usualClient [1] [2]).connection (.ofSeed 1)).run operations).session.handshakeDone = true ∧
      (((usualClient [1] [2]).connection (.ofSeed 1)).run operations).session.decrypter = some context ∧
      ((usualClient [1] [2]).connection (.ofSeed 1)).events operations =
        early ++ .switched :: (late ++ .received finished :: after) ∧
      Concludes .client context early late after finished := by
  obtain ⟨connection, terms, said, asked, shown, known, concluded, completed, showing, leaving, -, hcompletes⟩ :=
    @exists_usual_completes (.ofSeed 1) (.ofSeed 2) [1] [2] (by decide) (by decide)
  obtain ⟨operations, hrun⟩ := hcompletes.leads_end.exists_operations_client
  have hdone : (((usualClient [1] [2]).connection (.ofSeed 1)).run operations).session.handshakeDone = true := by
    rw [← hrun]
    exact hcompletes.agreed.handshakeDone .client
  have hmade : (Configuration.client (usualClient [1] [2])).connection (.ofSeed 1) = .ok _ := rfl
  obtain ⟨context, early, late, after, finished, hdecrypter, hevents, hconcludes⟩ :=
    Connection.concludes_of_handshakeDone rfl hmade operations hdone
  exact ⟨operations, context, early, late, after, finished, hdone, hdecrypter, hevents, hconcludes⟩

end PresharedTls
