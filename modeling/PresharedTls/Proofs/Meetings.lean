import PresharedTls.Proofs.Endpoint.Flights
import PresharedTls.Proofs.Endpoint.Hearing
import PresharedTls.Proofs.Ending
import PresharedTls.Proofs.Protection.Numbers

/-!
# Records and the contexts that they meet

The records that a connection handles are noted, each with the endpoint that it meets. Those that meet a
decrypter are the records behind the first ChangeCipherSpec, and the first of them meets it with the number
zero, the next with one, and so on, whatever arrives and whatever is done to the connection in between
(`Configuration.attends_run`). What is handled are the first of the records that arrived, and all of them
while the connection goes on.
-/

namespace PresharedTls

variable {κ : Type}

/-! ### Behind the ChangeCipherSpec -/

/-- The records behind the first ChangeCipherSpec. -/
def behindSwitch (records : List Record) : List Record :=
  (records.dropWhile fun record => record.typeCode ≠ ContentType.changeCipherSpec.code).tail

section

variable {records front rear more : List Record} {record : Record}

theorem Unswitched.behindSwitch (h : Unswitched records) : behindSwitch records = [] := by
  rw [PresharedTls.behindSwitch, List.dropWhile_eq_nil_iff.mpr fun record hmem => decide_eq_true (h record hmem)]
  rfl

/-- A record that may be the ChangeCipherSpec is not behind it. -/
theorem Unswitched.behindSwitch_concat (h : Unswitched records) (record : Record) :
    PresharedTls.behindSwitch (records ++ [record]) = [] := by
  rw [PresharedTls.behindSwitch, List.dropWhile_append_of_pos fun record hmem => decide_eq_true (h record hmem)]
  simp only [List.dropWhile]
  split <;> rfl

theorem SwitchedAt.behindSwitch (h : SwitchedAt records front rear) : behindSwitch records = rear := by
  obtain ⟨hfront, announced, hannounced, rfl⟩ := h
  rw [PresharedTls.behindSwitch, List.dropWhile_append_of_pos fun record hmem => decide_eq_true (hfront record hmem),
    List.dropWhile_cons_of_neg (by simp [hannounced]), List.tail_cons]

theorem SwitchedAt.append (h : SwitchedAt records front rear) (more : List Record) :
    SwitchedAt (records ++ more) front (rear ++ more) := by
  obtain ⟨hfront, announced, hannounced, rfl⟩ := h
  exact ⟨hfront, announced, hannounced, by rw [List.append_assoc, List.cons_append]⟩

theorem Unswitched.switchedAt (h : Unswitched records) (hrecord : record.typeCode = ContentType.changeCipherSpec.code) :
    SwitchedAt (records ++ [record]) records [] :=
  ⟨h, record, hrecord, rfl⟩

theorem unswitched_or_switchedAt (records : List Record) :
    Unswitched records ∨ ∃ front rear, SwitchedAt records front rear := by
  induction records using List.reverseRecOn with
  | nil => exact .inl fun _ hmem => absurd hmem List.not_mem_nil
  | append_singleton records record ih =>
    rcases ih with hunswitched | ⟨front, rear, hswitched⟩
    · by_cases hrecord : record.typeCode = ContentType.changeCipherSpec.code
      · exact .inr ⟨_, _, hunswitched.switchedAt hrecord⟩
      · exact .inl (hunswitched.concat hrecord)
    · exact .inr ⟨_, _, hswitched.append [record]⟩

/-- More records add to what is behind the ChangeCipherSpec. -/
theorem behindSwitch_prefix (h : records <+: more) : behindSwitch records <+: behindSwitch more := by
  obtain ⟨rest, rfl⟩ := h
  rcases unswitched_or_switchedAt records with hunswitched | ⟨front, rear, hswitched⟩
  · rw [hunswitched.behindSwitch]
    exact List.nil_prefix
  · rw [hswitched.behindSwitch, (hswitched.append rest).behindSwitch]
    exact List.prefix_append rear rest

end

/-! ### Meetings -/

/-- Handles records up to the first that fails, and notes each with the endpoint that it meets. -/
def Endpoint.meetings (endpoint : Endpoint κ) : List Record → List (Endpoint κ × Record)
  | [] => []
  | record :: rest =>
    (endpoint, record) ::
      match (Endpoint.receiveRecord record).run endpoint with
      | .ok _ after => after.meetings rest
      | .error _ _ => []

namespace Connection

/-- The bytes that an operation hands to a connection which takes them. -/
def takes (connection : Connection κ) : Operation → Bytes
  | .receive b => if connection.phase.isOver ∨ connection.phase = .idle then [] else b
  | _ => []

/-- The records that an operation handles, each with the endpoint that it meets. -/
def handles (connection : Connection κ) : Operation → List (Endpoint κ × Record)
  | .receive b =>
    if connection.phase.isOver ∨ connection.phase = .idle then []
    else connection.toEndpoint.meetings (connection.arriving b).items
  | _ => []

/-- The bytes that a run hands to the connection. -/
def arrived (connection : Connection κ) : List Operation → Bytes
  | [] => []
  | operation :: rest => connection.takes operation ++ (connection.operate operation).arrived rest

/-- The records that a run handles, each with the endpoint that it meets. -/
def meetings (connection : Connection κ) : List Operation → List (Endpoint κ × Record)
  | [] => []
  | operation :: rest => connection.handles operation ++ (connection.operate operation).meetings rest

theorem meetings_append (connection : Connection κ) (operations more : List Operation) :
    connection.meetings (operations ++ more) =
      connection.meetings operations ++ (connection.run operations).meetings more := by
  induction operations generalizing connection with
  | nil => rfl
  | cons operation rest ih =>
    rw [List.cons_append, meetings, ih, meetings, List.append_assoc]
    rfl

end Connection

/-- The records that met a decrypter, each with the context that had to open it. -/
def openings (met : List (Endpoint κ × Record)) : List (κ × Record) :=
  met.filterMap fun (endpoint, record) => endpoint.session.decrypter.map (·, record)

theorem openings_concat (met : List (Endpoint κ × Record)) (endpoint : Endpoint κ) (record : Record) :
    openings (met ++ [(endpoint, record)]) =
      openings met ++ (endpoint.session.decrypter.map (·, record)).toList := by
  rw [openings, List.filterMap_append]
  rfl

/-! ### Numbers -/

variable {met : List (Endpoint Protection × Record)} {endpoint : Endpoint Protection}

/-- What was opened is what came behind the ChangeCipherSpec, with the numbers in order. -/
structure InSequence (met : List (Endpoint Protection × Record)) : Prop where
  records : (openings met).map Prod.snd = behindSwitch (met.map Prod.snd)
  numbers : (openings met).map (·.1.sequence) = List.range (openings met).length

/-- An endpoint whose decrypter is what the records that it met have made of it. -/
structure Heard (met : List (Endpoint Protection × Record)) (endpoint : Endpoint Protection) : Prop extends
    InSequence met where
  provider : endpoint.session.provider = .standard
  clear : endpoint.session.decrypter = none → Unswitched (met.map Prod.snd)
  switched : ∀ context, endpoint.session.decrypter = some context →
    context.sequence = (openings met).length ∧ ∃ front rear, SwitchedAt (met.map Prod.snd) front rear

theorem Heard.of_same (h : Heard met endpoint) {after : Endpoint Protection}
    (hprovider : after.session.provider = endpoint.session.provider)
    (hdecrypter : after.session.decrypter = endpoint.session.decrypter) : Heard met after := by
  refine ⟨h.toInSequence, hprovider.trans h.provider, ?_, ?_⟩
  · rw [hdecrypter]
    exact h.clear
  · rw [hdecrypter]
    exact h.switched

/-- The next record meets the decrypter with the next number, whatever comes of it. -/
theorem Heard.inSequence_concat (h : Heard met endpoint) (record : Record) : InSequence (met ++ [(endpoint, record)]) := by
  have hrecords := h.records
  cases hdecrypter : endpoint.session.decrypter with
  | none =>
    have hunswitched := h.clear hdecrypter
    rw [hunswitched.behindSwitch] at hrecords
    have hopenings : openings (met ++ [(endpoint, record)]) = [] := by
      rw [openings_concat, hdecrypter, List.map_eq_nil_iff.mp hrecords]
      rfl
    refine ⟨?_, by rw [hopenings]; rfl⟩
    rw [hopenings, List.map_append]
    exact (hunswitched.behindSwitch_concat record).symm
  | some context =>
    obtain ⟨hsequence, front, rear, hswitched⟩ := h.switched context hdecrypter
    have hopenings : openings (met ++ [(endpoint, record)]) = openings met ++ [(context, record)] := by
      rw [openings_concat, hdecrypter]
      rfl
    refine ⟨?_, ?_⟩
    · rw [hopenings, List.map_append, List.map_append, hrecords, hswitched.behindSwitch]
      exact (hswitched.append [record]).behindSwitch.symm
    · rw [hopenings, List.map_append, h.numbers, List.length_append, List.length_singleton, List.range_succ, ← hsequence]
      rfl

/-- A record that is handled well leaves the decrypter with the number for the next. -/
theorem Heard.concat (h : Heard met endpoint) {record : Record} {after : Endpoint Protection}
    (hprovider : after.session.provider = endpoint.session.provider)
    (hhears : Endpoint.Hears endpoint.session.provider record endpoint.session.decrypter after.session.decrypter) :
    Heard (met ++ [(endpoint, record)]) after := by
  have hopenings := openings_concat met endpoint record
  have hmet : (met ++ [(endpoint, record)]).map Prod.snd = met.map Prod.snd ++ [record] := by
    rw [List.map_append]
    rfl
  refine ⟨h.inSequence_concat record, hprovider.trans h.provider, fun hnone => ?_, fun later hlater => ?_⟩
  · rw [hnone] at hhears
    rw [hmet]
    generalize hbefore : endpoint.session.decrypter = before at hhears
    cases hhears with
    | clear htype => exact (h.clear hbefore).concat htype
  · rw [hlater, h.provider] at hhears
    rw [hmet, hopenings, List.length_append]
    generalize hbefore : endpoint.session.decrypter = before at hhears
    cases hhears with
    | switched htype hmade =>
      have hunswitched := h.clear hbefore
      have hrecords := h.records
      rw [hunswitched.behindSwitch] at hrecords
      obtain ⟨masterSecret, -, rfl⟩ := Protection.eq_of_create hmade
      exact ⟨by rw [List.map_eq_nil_iff.mp hrecords]; rfl, _, _, hunswitched.switchedAt htype⟩
    | @opened context _ _ hopened =>
      obtain ⟨hsequence, front, rear, hswitched⟩ := h.switched context hbefore
      refine ⟨?_, front, _, hswitched.append [record]⟩
      rw [Protection.sequence_of_unprotect hopened, hsequence]
      rfl

/-- What becomes of the numbers over the records that arrive at once. -/
theorem Heard.meetings (h : Heard met endpoint) (records : List Record) :
    InSequence (met ++ endpoint.meetings records) ∧ (endpoint.meetings records).map Prod.snd <+: records ∧
      ∀ after, (records.forM Endpoint.receiveRecord).run endpoint = .ok () after →
        Heard (met ++ endpoint.meetings records) after ∧ (endpoint.meetings records).map Prod.snd = records := by
  induction records generalizing met endpoint with
  | nil =>
    rw [Endpoint.meetings, List.append_nil]
    refine ⟨h.toInSequence, List.nil_prefix, fun after hafter => ?_⟩
    cases hafter
    exact ⟨h, rfl⟩
  | cons record rest ih =>
    have hhears := Endpoint.hears_receiveRecord record endpoint
    rw [Endpoint.meetings]
    cases hrun : (Endpoint.receiveRecord record).run endpoint with
    | ok value between =>
      simp only [Ends, hrun] at hhears
      obtain ⟨hinSequence, hprefix, hafter⟩ := ih (h.concat hhears.1 hhears.2)
      rw [List.append_assoc] at hinSequence
      refine ⟨hinSequence, (List.prefix_cons_inj record).mpr hprefix, fun after hok => ?_⟩
      obtain ⟨hheard, hall⟩ := hafter after ((run_bind_of_ok hrun).symm.trans hok)
      rw [List.append_assoc] at hheard
      exact ⟨hheard, congrArg (record :: ·) hall⟩
    | error failure between =>
      refine ⟨h.inSequence_concat record, (List.prefix_cons_inj record).mpr List.nil_prefix, fun after hok => ?_⟩
      cases (run_bind_of_error hrun).symm.trans hok

namespace Connection

variable {connection : Connection Protection} {fed : Bytes}

/-- What was handled is in sequence and the first of what arrived. While the connection goes on it is all but
the bytes that are not a whole record yet. -/
structure Attends (met : List (Endpoint Protection × Record)) (fed : Bytes) (connection : Connection Protection) : Prop where
  inSequence : InSequence met
  fits : ∀ record ∈ met.map Prod.snd, record.fragment.length < 65536
  bytes : (met.map Prod.snd).flatMap Record.bytes <+: fed
  live : connection.phase.isOver = false →
    Heard met connection.toEndpoint ∧ (met.map Prod.snd).flatMap Record.bytes ++ connection.incoming = fed

theorem Attends.of_over (h : connection.Attends met fed) {after : Connection Protection}
    (hover : after.phase.isOver = true) : after.Attends met fed :=
  ⟨h.inSequence, h.fits, h.bytes, fun hlive => nomatch hlive.symm.trans hover⟩

theorem Attends.of_same (h : connection.Attends met fed) {after : Connection Protection}
    (hphase : after.phase.isOver = false → connection.phase.isOver = false)
    (hprovider : after.session.provider = connection.session.provider)
    (hdecrypter : after.session.decrypter = connection.session.decrypter) (hincoming : after.incoming = connection.incoming) :
    after.Attends met fed := by
  refine ⟨h.inSequence, h.fits, h.bytes, fun hlive => ?_⟩
  obtain ⟨hheard, hfed⟩ := h.live (hphase hlive)
  exact ⟨hheard.of_same hprovider hdecrypter, hincoming ▸ hfed⟩

theorem Attends.perform (h : connection.Attends met fed) (hlive : connection.phase.isOver = false)
    {step : Endpoint.Step Protection Unit} (hstep : ∀ hearing : Hearing Protection, Endpoint.KeepsHearing hearing step) :
    (connection.perform step).2.Attends met fed := by
  refine holds_perform (P := fun after => after.Attends met fed) ((hstep _ _ rfl).mono (fun _ _ hhearing => ?_) ?_)
  · exact h.of_same (fun _ => hlive) (congrArg Hearing.provider hhearing) (congrArg Hearing.decrypter hhearing) rfl
  · exact fun _ _ _ => h.of_over rfl

theorem Attends.start (h : connection.Attends met fed) : connection.start.2.Attends met fed := by
  by_cases hidle : connection.phase = .idle
  · have hlive : connection.phase.isOver = false := by rw [hidle]; rfl
    cases hside : connection.side with
    | client offer =>
      rw [start_of_client hidle hside]
      exact h.perform hlive fun _ => Endpoint.keepsHearing_sendClientHello offer
    | server policy =>
      rw [start_of_server hidle hside]
      exact h.perform hlive fun _ => Endpoint.keepsHearing_enter .waitHello
  · rw [start_of_not_idle hidle]
    exact h

theorem Attends.send (h : connection.Attends met fed) (data : Bytes) : (connection.send data).2.Attends met fed := by
  rw [Connection.send]
  split
  · exact h
  · next hlive =>
    split
    · exact h
    · exact h.perform (Bool.eq_false_iff.mpr hlive) fun _ =>
        Endpoint.keepsHearing_of_keepsOutline fun _ => Endpoint.keepsOutline_sendFragmented .applicationData data

/-- Of the bytes that arrive the whole records are handled, up to the first that fails. -/
theorem Attends.receive (h : connection.Attends met fed) (b : Bytes) :
    (connection.receive b).2.Attends (met ++ connection.handles (.receive b)) (fed ++ connection.takes (.receive b)) := by
  rw [handles, takes]
  by_cases hready : connection.phase.isOver ∨ connection.phase = .idle
  · rw [if_pos hready, if_pos hready, List.append_nil, List.append_nil,
      receive_of_not_takesInput fun htakes => hready.elim (fun hover => nomatch hover.symm.trans htakes.2) htakes.1]
    exact h
  · rw [if_neg hready, if_neg hready]
    have htakes : connection.phase.TakesInput :=
      ⟨fun hidle => hready (.inr hidle), Bool.eq_false_iff.mpr fun hover => hready (.inl hover)⟩
    obtain ⟨hheard, hfed⟩ := h.live htakes.2
    obtain ⟨hinSequence, hprefix, hafter⟩ := hheard.meetings (connection.arriving b).items
    obtain ⟨hwhole, hfits⟩ := Record.flatMap_bytes_cut connection.session.ciphertextLimit (connection.incoming ++ b)
    have hbytes : (met.map Prod.snd).flatMap Record.bytes ++
        ((connection.arriving b).items.flatMap Record.bytes ++ (connection.arriving b).rest) = fed ++ b := by
      rw [← hfed, List.append_assoc, ← hwhole]
      rfl
    obtain ⟨others, hothers⟩ := hprefix
    have hmet : (met ++ connection.toEndpoint.meetings (connection.arriving b).items).map Prod.snd =
        met.map Prod.snd ++ (connection.toEndpoint.meetings (connection.arriving b).items).map Prod.snd := List.map_append
    have hfits' : ∀ record ∈ (met ++ connection.toEndpoint.meetings (connection.arriving b).items).map Prod.snd,
        record.fragment.length < 65536 := by
      rw [hmet]
      intro record hmem
      rcases List.mem_append.mp hmem with hbefore | hnow
      · exact h.fits record hbefore
      · exact hfits record (hothers ▸ List.mem_append_left others hnow)
    have hbytes' : ((met ++ connection.toEndpoint.meetings (connection.arriving b).items).map Prod.snd).flatMap Record.bytes <+:
        fed ++ b := by
      have hitems := congrArg (List.flatMap Record.bytes) hothers
      rw [List.flatMap_append] at hitems
      rw [hmet, List.flatMap_append, ← hbytes, ← hitems, List.append_assoc]
      exact (List.prefix_append_right_inj _).mpr (List.prefix_append _ _)
    cases hrun : (Endpoint.receiveRecords (connection.arriving b)).run connection.toEndpoint with
    | ok value endpoint =>
      rw [receive_of_ok htakes hrun]
      obtain ⟨hheard', hall⟩ := hafter endpoint (Endpoint.forM_of_receiveRecords hrun)
      refine ⟨hinSequence, hfits', hbytes', fun _ => ⟨hheard', ?_⟩⟩
      rw [hmet, hall, List.flatMap_append, List.append_assoc]
      exact hbytes
    | error failure endpoint =>
      rw [receive_of_error htakes hrun]
      exact ⟨hinSequence, hfits', hbytes', nofun⟩

theorem Attends.close (h : connection.Attends met fed) : connection.close.Attends met fed :=
  h.of_over (by rw [phase_close]; rfl)

theorem Attends.operate (h : connection.Attends met fed) (operation : Operation) :
    (connection.operate operation).Attends (met ++ connection.handles operation) (fed ++ connection.takes operation) := by
  have hnothing {after : Connection Protection} (hafter : after.Attends met fed) : after.Attends (met ++ []) (fed ++ []) := by
    rwa [List.append_nil, List.append_nil]
  cases operation with
  | receive b => exact h.receive b
  | start => exact hnothing h.start
  | send data => exact hnothing (h.send data)
  | takeOutgoing => exact hnothing (h.of_same id rfl rfl rfl)
  | read =>
    refine hnothing ?_
    show connection.read.2.Attends met fed
    rw [Connection.read]
    split
    · exact h
    · exact h.of_same id rfl rfl rfl
  | close => exact hnothing h.close
  | abandon => exact hnothing (h.of_over rfl)
  | reseed entropy => exact hnothing (h.of_same id rfl rfl rfl)

theorem Attends.run (h : connection.Attends met fed) (operations : List Operation) :
    (connection.run operations).Attends (met ++ connection.meetings operations) (fed ++ connection.arrived operations) := by
  induction operations generalizing connection met fed with
  | nil =>
    rw [meetings, arrived, List.append_nil, List.append_nil]
    exact h
  | cons operation rest ih =>
    rw [meetings, arrived, ← List.append_assoc, ← List.append_assoc]
    exact ih (h.operate operation)

/-- Of records that are delivered in order, those that meet a decrypter are the first behind the
ChangeCipherSpec. -/
theorem Attends.openings_prefix (h : connection.Attends met fed) {records : List Record}
    (hfits : ∀ record ∈ records, record.fragment.length < 65536) (hfed : fed <+: records.flatMap Record.bytes) :
    (openings met).map Prod.snd <+: behindSwitch records := by
  rw [h.inSequence.records]
  exact behindSwitch_prefix (Record.prefix_of_flatMap_bytes h.fits hfits (h.bytes.trans hfed))

/-- A connection that goes on has handled all that was delivered. -/
theorem Attends.openings_eq (h : connection.Attends met fed) (hwaits : connection.Waits)
    (hlive : connection.phase.isOver = false) {records : List Record}
    (hfits : ∀ record ∈ records, record.fragment.length < 65536) (hfed : fed = records.flatMap Record.bytes) :
    (openings met).map Prod.snd = behindSwitch records := by
  obtain ⟨rest, hrest⟩ := Record.prefix_of_flatMap_bytes h.fits hfits (hfed ▸ h.bytes)
  suffices hnil : rest = [] by
    rw [h.inSequence.records, ← hrest, hnil, List.append_nil]
  have hincoming : connection.incoming = rest.flatMap Record.bytes := by
    have hall := (h.live hlive).2
    rw [hfed, ← hrest, List.flatMap_append] at hall
    exact List.append_cancel_left hall
  cases rest with
  | nil => rfl
  | cons record behind =>
    have hlength : record.fragment.length < 65536 := hfits record (hrest ▸ List.mem_append_right _ List.mem_cons_self)
    rw [Waits, hincoming, List.flatMap_cons] at hwaits
    by_cases hlimit : record.fragment.length ≤ connection.session.ciphertextLimit
    · cases (Record.next_bytes hlength hlimit (behind.flatMap Record.bytes)).symm.trans hwaits
    · cases (Record.next_of_oversize hlength (Nat.lt_of_not_le hlimit) (behind.flatMap Record.bytes)).symm.trans hwaits

end Connection

/-- Whatever arrives, and whatever else is done, the records that meet the decrypter of a connection are those
behind the ChangeCipherSpec, and meet it with the numbers from zero on. -/
theorem Configuration.attends_run {configuration : Configuration Protection} (hprovider : configuration.provider = .standard)
    {entropy : Entropy} {connection : Connection Protection} (hmade : configuration.connection entropy = .ok connection)
    (operations : List Operation) :
    (connection.run operations).Attends (connection.meetings operations) (connection.arrived operations) := by
  obtain ⟨side, version, setting, session, hconnection, hsession⟩ := exists_fresh hmade
  have hsessions : session.provider = .standard ∧ session.decrypter = none := by
    rcases hsession with rfl | ⟨identity, key, rfl⟩ <;> exact ⟨hprovider, rfl⟩
  have hheard : Heard [] connection.toEndpoint := by
    subst hconnection
    exact ⟨⟨rfl, rfl⟩, hsessions.1, fun _ _ hmem => absurd hmem List.not_mem_nil,
      fun context hsome => nomatch hsome.symm.trans hsessions.2⟩
  have hfresh : connection.Attends [] [] :=
    ⟨⟨rfl, rfl⟩, fun _ hmem => absurd hmem List.not_mem_nil, List.nil_prefix,
      fun _ => ⟨hheard, incoming_connection hmade⟩⟩
  exact hfresh.run operations

end PresharedTls
