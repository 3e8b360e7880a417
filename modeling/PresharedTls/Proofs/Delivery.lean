import PresharedTls.Proofs.Dialogue
import PresharedTls.Proofs.Observed

/-!
# Delivery

Two applications talk over a handshake that completes. Whatever each of them sends the other one reads,
in order and cut into records, however the bytes are cut and whoever has its turn when. A dialogue is
known by its two ends, and a turn moves one of them.
-/

namespace PresharedTls

variable {κ : Type}

theorem flatten_of_cutInto {limit : Nat} {sent : List Bytes} {arrivals : List (List Bytes)}
    (h : List.Forall₂ (CutInto limit) sent arrivals) : arrivals.flatten.flatten = sent.flatten := by
  induction h with
  | nil => rfl
  | cons hfirst _ ih => rw [List.flatten_cons, List.flatten_append, hfirst.flatten, ih, List.flatten_cons]

namespace Dialogue

/-- Each application reads what the other one sends. -/
structure Delivers (limit : Nat) (dialogue : Dialogue κ) : Prop where
  /-- No delivery has failed, -/
  failure : ∀ role, dialogue.network.failure role = none
  /-- and both ends take more. -/
  takesInput : ∀ role, (dialogue.network.connection role).phase.TakesInput
  plaintextLimit : ∀ role, (dialogue.network.connection role).session.handshakeDone = true →
    (dialogue.network.connection role).session.plaintextLimit = limit
  /-- Each time something is sent it arrives in records of its own. -/
  records : ∀ role, ∃ arrivals, List.Forall₂ (CutInto limit) (dialogue.sent role.peer) arrivals ∧
    dialogue.read role ++ (dialogue.network.connection role).received <+: arrivals.flatten ∧
    (dialogue.network.Quiet → dialogue.read role ++ (dialogue.network.connection role).received = arrivals.flatten)
  bytes : ∀ role, (dialogue.read role).flatten <+: (dialogue.sent role.peer).flatten ∧
    (dialogue.network.Quiet →
      (dialogue.read role ++ (dialogue.network.connection role).received).flatten = (dialogue.sent role.peer).flatten)

/-- The records for all that was sent are within the limits of the ends they are for. -/
def Fits (limit : Nat) (sealedLength : Role → Nat → Nat) (room : Role → Nat) (dialogue : Dialogue κ) : Prop :=
  ∀ role, ∀ piece ∈ (dialogue.sent role).flatMap (pieces limit), sealedLength role piece.length ≤ room role.peer

/-! ### What is sent stays -/

theorem sent_step (dialogue : Dialogue κ) (turn : Turn) (role : Role) :
    dialogue.sent role <+: (dialogue.step turn).sent role := by
  cases turn with
  | move move => exact List.prefix_rfl
  | read other => exact List.prefix_rfl
  | send other data =>
    simp only [step]
    split
    · by_cases hrole : role = other
      · subst hrole
        rw [Function.update_self]
        exact List.prefix_append _ _
      · rw [Function.update_of_ne hrole]
    · exact List.prefix_rfl

theorem sent_run (dialogue : Dialogue κ) (turns : List Turn) (role : Role) :
    dialogue.sent role <+: (dialogue.run turns).sent role := by
  induction turns generalizing dialogue with
  | nil => exact List.prefix_rfl
  | cons turn rest ih => exact (dialogue.sent_step turn role).trans (ih _)

theorem Fits.of_run {limit : Nat} {sealedLength : Role → Nat → Nat} {room : Role → Nat} {dialogue : Dialogue κ}
    {turns : List Turn} (h : (dialogue.run turns).Fits limit sealedLength room) : dialogue.Fits limit sealedLength room :=
  fun role piece hmem => h role piece (((dialogue.sent_run turns role).flatMap _).subset hmem)

theorem run_append (dialogue : Dialogue κ) (turns more : List Turn) :
    dialogue.run (turns ++ more) = (dialogue.run turns).run more :=
  List.foldl_append

/-- As long as nothing is sent or read, a dialogue is its network. -/
theorem run_moves (dialogue : Dialogue κ) (moves : List Move) :
    dialogue.run (moves.map .move) = { dialogue with network := dialogue.network.run moves } := by
  induction moves generalizing dialogue with
  | nil => rfl
  | cons move rest ih => exact ih _

theorem sent_send_behind {network after : Network κ} {moves : List Move} (hmoves : network.run moves = after) {role : Role}
    (hdone : (after.connection role).session.handshakeDone = true) (data : Bytes) :
    ((fresh network).run (moves.map .move ++ [.send role data])).sent = Function.update (fun _ => []) role [data] := by
  have hrun : (fresh network).run (moves.map .move ++ [.send role data]) = (fresh after).step (.send role data) := by
    rw [run_append, run_moves, ← hmoves]
    rfl
  rw [hrun, step]
  simp only [fresh, hdone, if_true, List.nil_append]

/-! ### The two ends -/

/-- The dialogue of two ends of which none has failed. -/
def between (ends : Role → End) (arriving : Role → Bytes) : Dialogue Protection where
  network := ⟨fun role => (ends role).connection, arriving, fun _ => none⟩
  sent role := (ends role).sent
  read role := (ends role).read

theorem between_update (ends : Role → End) (arriving : Role → Bytes) (role : Role) (near : End) :
    between (Function.update ends role near) arriving =
      ⟨⟨Function.update (fun other => (ends other).connection) role near.connection, arriving, fun _ => none⟩,
        Function.update (fun other => (ends other).sent) role near.sent,
        Function.update (fun other => (ends other).read) role near.read⟩ := by
  rw [between]
  congr 2
  all_goals
    funext other
    by_cases hother : other = role
    · subst hother
      simp only [Function.update_self]
    · simp only [Function.update_of_ne hother]

/-! ### Turns of one end -/

theorem between_flush (ends : Role → End) (arriving : Role → Bytes) (role : Role) :
    (between ends arriving).step (.move (.flush role)) = between
      (Function.update ends role { ends role with
        connection := (ends role).connection.takeOutgoing.2
        taken := (ends role).taken ++ (ends role).connection.outgoing })
      (Function.update arriving role.peer (arriving role.peer ++ (ends role).connection.takeOutgoing.1)) := by
  rw [between_update, Function.update_eq_self, Function.update_eq_self]
  rfl

theorem between_send (ends : Role → End) (arriving : Role → Bytes) (role : Role) (data : Bytes) (outlet : Gate) :
    (between ends arriving).step (.send role data) = between
      (Function.update ends role { ends role with
        connection := ((ends role).connection.send data).2
        sent := if (ends role).connection.session.handshakeDone then (ends role).sent ++ [data] else (ends role).sent
        outlet := outlet })
      arriving := by
  rw [between_update, Function.update_eq_self]
  by_cases hdone : (ends role).connection.session.handshakeDone = true
  · simp [step, Network.withConnection, between, hdone]
  · simp [step, Network.withConnection, between, hdone]

end Dialogue

/-- What one end has handed over has reached the other one or is on its way, and so have its contexts. -/
structure End.Joined (near far : End) (way : Bytes) : Prop where
  bytes : near.taken.flatMap Record.bytes = far.heard ++ way
  reaches : near.outlet.Reaches far.inlet

theorem Gate.Reaches.data_eq {outlet inlet : Gate} (h : outlet.Reaches inlet) (hrecords : outlet.records = inlet.records) :
    inlet.data = outlet.data := by
  obtain ⟨pending, awaited, hall, hdata, hopened⟩ := h
  obtain rfl : pending = [] := List.self_eq_append_right.mp (hrecords.symm.trans hall)
  have hawaited : [] = awaited := (Prod.mk.inj (Except.ok.inj hopened)).1
  rw [hdata, ← hawaited, List.append_nil]

section

variable {origin : Role → Connection Protection} {streams : Role → Bytes} {context : Role → Protection} {limit : Nat}
  {near far : End} {role : Role}

/-- When nothing is on its way from a late end, the other one is late too and has opened all records. -/
theorem End.Joined.late {room : Nat} (h : far.Joined near []) (hfar : far.Late (streams role.peer) (streams role) limit room)
    (hnear : near.Placed origin streams context limit role)
    (hsound : far.outlet.Sound limit (origin role).session.ciphertextLimit (context role.peer))
    (hquiet : far.connection.outgoing = []) :
    near.Late (streams role) (streams role.peer) limit (origin role).session.ciphertextLimit ∧
      near.connection.incoming = [] ∧ far.outlet.records = near.inlet.records := by
  obtain ⟨pending, awaited, hrecords, hdata, hopened⟩ := h.reaches
  have hheard : near.heard = streams role ++ far.outlet.records.flatMap Record.bytes := by
    have htaken := hfar.taken
    rwa [hquiet, List.append_nil, h.bytes, List.append_nil] at htaken
  rcases hnear with hearly | hlate
  · -- An early end has not even heard all of the handshake.
    refine absurd (hearly.within.eq_of_length_le ?_) hearly.more
    rw [hheard, List.length_append]
    omega
  · rw [hlate.heard, hrecords, List.flatMap_append, List.append_cancel_left_eq, List.append_cancel_left_eq] at hheard
    cases pending with
    | nil => exact ⟨hlate, hheard, hrecords.trans (List.append_nil _)⟩
    | cons record rest =>
      have hcarries := hsound.carries record (hrecords ▸ List.mem_append_right _ List.mem_cons_self)
      have hwaits : _ = _ := hlate.waits
      rw [hheard, List.flatMap_cons, hlate.ciphertextLimit, hcarries.next] at hwaits
      cases hwaits

/-- When nothing is on its way, all data have arrived. -/
theorem End.Joined.data_eq (h : far.Joined near []) (hfar : far.Placed origin streams context limit role.peer)
    (hnear : near.Placed origin streams context limit role)
    (hsound : far.outlet.Sound limit (origin role).session.ciphertextLimit (context role.peer))
    (hquiet : far.connection.outgoing = []) : near.inlet.data = far.outlet.data := by
  refine h.reaches.data_eq ?_
  rcases hfar with hearly | hlate
  · obtain ⟨pending, awaited, hrecords, -⟩ := h.reaches
    rw [hearly.outlet] at hrecords ⊢
    exact (List.append_eq_nil_iff.mp hrecords.symm).1.symm
  · rw [Role.peer_peer] at hlate
    exact (h.late hlate hnear hsound hquiet).2.2

end

/-- Two ends between which nothing gets lost. -/
structure Converses (origin : Role → Connection Protection) (streams : Role → Bytes) (context : Role → Protection)
    (limit : Nat) (ends : Role → End) (arriving : Role → Bytes) : Prop where
  placed : ∀ role, (ends role).Placed origin streams context limit role
  sound : ∀ role, (ends role).outlet.Sound limit (origin role.peer).session.ciphertextLimit (context role)
  joined : ∀ role, (ends role).Joined (ends role.peer) (arriving role.peer)

/-- A dialogue in which nothing gets lost. -/
def Conversing (origin : Role → Connection Protection) (streams : Role → Bytes) (context : Role → Protection) (limit : Nat)
    (dialogue : Dialogue Protection) : Prop :=
  ∃ ends arriving, dialogue = .between ends arriving ∧ Converses origin streams context limit ends arriving

namespace Converses

variable {origin : Role → Connection Protection} {streams : Role → Bytes} {context : Role → Protection} {limit : Nat}
  {ends : Role → End} {arriving : Role → Bytes}

theorem joined_peer (h : Converses origin streams context limit ends arriving) (role : Role) :
    (ends role.peer).Joined (ends role) (arriving role) := by
  have hjoined := h.joined role.peer
  rwa [Role.peer_peer] at hjoined

theorem sound_peer (h : Converses origin streams context limit ends arriving) (role : Role) :
    (ends role.peer).outlet.Sound limit (origin role).session.ciphertextLimit (context role.peer) := by
  have hsound := h.sound role.peer
  rwa [Role.peer_peer] at hsound

/-- One end moves. -/
theorem update {later : Role → Bytes} (h : Converses origin streams context limit ends arriving) {role : Role} {near : End}
    (hplaced : near.Placed origin streams context limit role)
    (hsound : near.outlet.Sound limit (origin role.peer).session.ciphertextLimit (context role))
    (hout : near.Joined (ends role.peer) (later role.peer)) (hin : (ends role.peer).Joined near (later role)) :
    Converses origin streams context limit (Function.update ends role near) later where
  placed other := by
    by_cases hother : other = role
    · subst hother
      rw [Function.update_self]
      exact hplaced
    · rw [Function.update_of_ne hother]
      exact h.placed other
  sound other := by
    by_cases hother : other = role
    · subst hother
      rw [Function.update_self]
      exact hsound
    · rw [Function.update_of_ne hother]
      exact h.sound other
  joined other := by
    by_cases hother : other = role
    · subst hother
      rw [Function.update_self, Function.update_of_ne other.peer_ne]
      exact hout
    · obtain rfl := Role.eq_peer_of_ne hother
      rw [Function.update_of_ne role.peer_ne, Role.peer_peer, Function.update_self]
      exact hin

section

variable (hands : Handshaken origin streams context limit) (h : Converses origin streams context limit ends arriving)
include hands h

omit hands in
theorem flush (role : Role) :
    Conversing origin streams context limit ((Dialogue.between ends arriving).step (.move (.flush role))) := by
  refine ⟨_, _, Dialogue.between_flush ends arriving role, h.update (h.placed role).flush (h.sound role) ?_ ?_⟩
  · refine ⟨?_, (h.joined role).reaches⟩
    rw [Function.update_self, List.flatMap_append, (h.joined role).bytes, List.append_assoc]
    rfl
  · rw [Function.update_of_ne role.peer_ne.symm]
    exact ⟨(h.joined_peer role).bytes, (h.joined_peer role).reaches⟩

theorem deliver (role : Role) (count : Nat) :
    Conversing origin streams context limit ((Dialogue.between ends arriving).step (.move (.deliver role count))) := by
  have hin := h.joined_peer role
  obtain ⟨back, hback⟩ := (h.placed role.peer).exists_back hands
  rw [Role.peer_peer, hin.bytes, ← List.take_append_drop count (arriving role), ← List.append_assoc,
    List.append_assoc _ _ back] at hback
  obtain ⟨inlet, hok, hreaches, hplaced⟩ := (h.placed role).exists_hears hands (h.sound_peer role) hin.reaches hback
  refine ⟨_, Function.update arriving role ((arriving role).drop count), ?_, h.update hplaced (h.sound role) ?_ ?_⟩
  · rw [Dialogue.between_update]
    simp only [Dialogue.step, Network.step, Dialogue.between, End.hears, hok, failureOf, Option.or_none,
      Function.update_eq_self]
  · rw [Function.update_of_ne role.peer_ne]
    exact ⟨(h.joined role).bytes, (h.joined role).reaches⟩
  · refine ⟨?_, hreaches⟩
    rw [Function.update_self, hin.bytes, End.hears, List.append_assoc, List.take_append_drop]

theorem send (role : Role) {data : Bytes} (hfew : ((((Dialogue.between ends arriving).step (.send role data)).sent
    role).flatMap (pieces limit)).length < Protection.sequenceBound)
    (hfits : ((Dialogue.between ends arriving).step (.send role data)).Fits limit
      (fun role => (context role).cipher.sealedLength) fun role => (origin role).session.ciphertextLimit) :
    Conversing origin streams context limit ((Dialogue.between ends arriving).step (.send role data)) := by
  have hcount (hdone : (ends role).connection.session.handshakeDone = true) :
      (((ends role).sent ++ [data]).flatMap (pieces limit)).length < Protection.sequenceBound := by
    simpa [Dialogue.step, Dialogue.between, hdone] using hfew
  have hroom (hdone : (ends role).connection.session.handshakeDone = true) (piece : Bytes) (hmem : piece ∈ pieces limit data) :
      (context role).cipher.sealedLength piece.length ≤ (origin role.peer).session.ciphertextLimit := by
    refine hfits role piece ?_
    have hsent : ((Dialogue.between ends arriving).step (.send role data)).sent role = (ends role).sent ++ [data] := by
      simp [Dialogue.step, Dialogue.between, hdone]
    rw [hsent, List.flatMap_append, List.flatMap_singleton]
    exact List.mem_append_right _ hmem
  obtain ⟨outlet, hsound, hreaches, hplaced⟩ :=
    (h.placed role).exists_give hands (h.sound role) (h.joined role).reaches hcount hroom
  exact ⟨_, arriving, Dialogue.between_send ends arriving role data outlet, h.update hplaced hsound
    ⟨(h.joined role).bytes, hreaches⟩ ⟨(h.joined_peer role).bytes, (h.joined_peer role).reaches⟩⟩

theorem read (role : Role) :
    Conversing origin streams context limit ((Dialogue.between ends arriving).step (.read role)) := by
  refine ⟨_, arriving, ?_, h.update ((h.placed role).pop hands) (h.sound role)
    ⟨(h.joined role).bytes, (h.joined role).reaches⟩ ⟨(h.joined_peer role).bytes, (h.joined_peer role).reaches⟩⟩
  rw [Dialogue.between_update, Function.update_eq_self]
  rfl

end

theorem delivers (hands : Handshaken origin streams context limit)
    (h : Converses origin streams context limit ends arriving) : (Dialogue.between ends arriving).Delivers limit := by
  have hcut (role : Role) : List.Forall₂ (CutInto limit) (ends role).sent ((ends role).sent.map (pieces limit)) :=
    List.forall₂_map_right_iff.mpr (List.forall₂_same.mpr fun data _ => cutInto_pieces hands.positive data)
  have hsent (role : Role) : ((ends role).sent.map (pieces limit)).flatten = (ends role).outlet.data :=
    (h.placed role).sent_eq
  have hread (role : Role) : (ends role).read ++ (ends role).connection.received = (ends role).inlet.data :=
    (h.placed role).read_eq hands
  have hpart (role : Role) : (ends role).inlet.data <+: (ends role.peer).outlet.data := by
    obtain ⟨_, awaited, -, hdata, -⟩ := (h.joined_peer role).reaches
    exact ⟨awaited, hdata.symm⟩
  have hall (hquiet : (Dialogue.between ends arriving).network.Quiet) (role : Role) :
      (ends role).inlet.data = (ends role.peer).outlet.data := by
    have hjoined := h.joined_peer role
    rw [show arriving role = [] from (hquiet role).1] at hjoined
    exact hjoined.data_eq (h.placed role.peer) (h.placed role) (h.sound_peer role) (hquiet role.peer).2
  exact
    { failure := fun _ => rfl
      takesInput := fun role => (h.placed role).takesInput hands
      plaintextLimit := fun role => (h.placed role).plaintextLimit hands
      records := fun role => by
        refine ⟨_, hcut role.peer, ?_⟩
        rw [hsent]
        show (ends role).read ++ (ends role).connection.received <+: _ ∧
          (_ → (ends role).read ++ (ends role).connection.received = _)
        rw [hread]
        exact ⟨hpart role, fun hquiet => hall hquiet role⟩
      bytes := fun role => by
        have hjoin := flatten_of_cutInto (hcut role.peer)
        have hfirst : (ends role).read <+: (ends role).inlet.data := hread role ▸ List.prefix_append _ _
        rw [hsent] at hjoin
        show (ends role).read.flatten <+: (ends role.peer).sent.flatten ∧
          (_ → ((ends role).read ++ (ends role).connection.received).flatten = (ends role.peer).sent.flatten)
        rw [hread, ← hjoin]
        exact ⟨(hfirst.trans (hpart role)).flatten, fun hquiet => congrArg _ (hall hquiet role)⟩ }

end Converses

namespace Conversing

variable {origin : Role → Connection Protection} {streams : Role → Bytes} {context : Role → Protection} {limit : Nat}
  {dialogue : Dialogue Protection}

/-- No turn gets anything lost. -/
theorem step (hands : Handshaken origin streams context limit) (h : Conversing origin streams context limit dialogue)
    {turn : Turn} (hfew : ∀ role, (((dialogue.step turn).sent role).flatMap (pieces limit)).length <
      Protection.sequenceBound) (hfits : (dialogue.step turn).Fits limit (fun role => (context role).cipher.sealedLength)
      fun role => (origin role).session.ciphertextLimit) :
    Conversing origin streams context limit (dialogue.step turn) := by
  obtain ⟨ends, arriving, rfl, hconverses⟩ := h
  cases turn with
  | move move =>
    cases move with
    | flush role => exact hconverses.flush role
    | deliver role count => exact hconverses.deliver hands role count
  | send role data => exact hconverses.send hands role (hfew role) hfits
  | read role => exact hconverses.read hands role

theorem run (hands : Handshaken origin streams context limit) (h : Conversing origin streams context limit dialogue)
    {turns : List Turn} (hfew : ∀ role, (((dialogue.run turns).sent role).flatMap (pieces limit)).length <
      Protection.sequenceBound) (hfits : (dialogue.run turns).Fits limit (fun role => (context role).cipher.sealedLength)
      fun role => (origin role).session.ciphertextLimit) :
    Conversing origin streams context limit (dialogue.run turns) := by
  induction turns generalizing dialogue with
  | nil => exact h
  | cons turn rest ih =>
    -- What has been sent by now is part of what is sent in the end.
    refine ih (h.step hands (fun role => ?_) (Dialogue.Fits.of_run hfits)) hfew hfits
    exact Nat.lt_of_le_of_lt (((dialogue.step turn).sent_run rest role).flatMap _).length_le (hfew role)

end Conversing

/-! ### From the handshake on -/

namespace Handshaken

variable {origin : Role → Connection Protection} {streams : Role → Bytes} {context : Role → Protection} {limit : Nat}

theorem stream_ne_nil (h : Handshaken origin streams context limit) (role : Role) : [] ≠ streams role := by
  intro hnil
  have hphase := (h.talks role).phase
  rw [← hnil, Connection.receive_nil (h.waits role) (h.ready role)] at hphase
  exact h.unconnected role hphase

theorem sound_shut (h : Handshaken origin streams context limit) (room : Nat) (role : Role) :
    (Gate.shut (context role)).Sound limit room (context role) where
  carries _ hmem := absurd hmem List.not_mem_nil
  short _ hmem := absurd hmem List.not_mem_nil
  follows := by
    obtain ⟨_, hbegun⟩ := h.begun role
    exact .refl hbegun.invertible

theorem converses (h : Handshaken origin streams context limit) : Converses origin streams context limit
    (fun role => .fresh (origin role) (context role) (context role.peer)) fun _ => [] where
  placed role := by
    have hnothing := congrArg Prod.snd (Connection.receive_nil (h.waits role) (h.ready role))
    exact .inl ⟨List.nil_prefix, h.stream_ne_nil role, hnothing.symm, rfl, rfl, rfl, rfl⟩
  sound role := h.sound_shut _ role
  joined role := by
    refine ⟨rfl, ?_⟩
    rw [Role.peer_peer]
    exact .refl _

theorem conversing {network : Network Protection} (h : Handshaken network.connection streams context limit)
    (hbegins : network.Begins) {turns : List Turn} (hfew : ∀ role, ((((Dialogue.fresh network).run turns).sent
      role).flatMap (pieces limit)).length < Protection.sequenceBound)
    (hfits : ((Dialogue.fresh network).run turns).Fits limit (fun role => (context role).cipher.sealedLength)
      fun role => (network.connection role).session.ciphertextLimit) :
    Conversing network.connection streams context limit ((Dialogue.fresh network).run turns) := by
  have hnetwork : network = ⟨network.connection, fun _ => [], fun _ => none⟩ := by
    rw [← funext hbegins.arriving, ← funext hbegins.failure]
  have hfresh : Dialogue.fresh network = .between (fun role => .fresh (network.connection role) (context role)
      (context role.peer)) fun _ => [] := congrArg Dialogue.fresh hnetwork
  have hconversing : Conversing network.connection streams context limit (.fresh network) := ⟨_, _, hfresh, h.converses⟩
  exact hconversing.run h hfew hfits

end Handshaken

/-- A handshake behind which no record is too long for the other end. -/
structure Roomy (network : Network Protection) (streams : Role → Bytes) (context : Role → Protection) (limit : Nat) :
    Prop where
  hands : Handshaken network.connection streams context limit
  room : ∀ role length, length ≤ limit →
    (context role).cipher.sealedLength length ≤ (network.connection role.peer).session.ciphertextLimit

theorem Roomy.delivers {network : Network Protection} {streams : Role → Bytes} {context : Role → Protection} {limit : Nat}
    (h : Roomy network streams context limit) (hbegins : network.Begins) {turns : List Turn}
    (hfew : ∀ role, ((((Dialogue.fresh network).run turns).sent role).flatMap (pieces limit)).length <
      Protection.sequenceBound) : ((Dialogue.fresh network).run turns).Delivers limit := by
  obtain ⟨ends, arriving, hrun, hconverses⟩ := h.hands.conversing hbegins hfew fun role piece hmem => by
    obtain ⟨data, -, hpiece⟩ := List.mem_flatMap.mp hmem
    exact h.room role piece.length (length_le_of_mem_pieces h.hands.positive hpiece).2
  rw [hrun]
  exact hconverses.delivers h.hands

section

variable {network : Network Protection} {terms : Terms} {said : Bytes} {asked shown known concluded completed : Standing}
  {showing leaving : List Record}

section

variable (h : Completes network terms said asked shown known concluded completed showing leaving) (hbegins : network.Begins)
  (hunconnected : ∀ role, (network.connection role).phase ≠ .connected)
  (hconnected : ∀ role b, ((network.connection role).receive b).2.phase.isOver = false →
    ((network.connection role).receive b).2.session.handshakeDone = true →
      ((network.connection role).receive b).2.phase = .connected)
include h hbegins hunconnected hconnected

/-- A handshake that completes succeeds at both ends, with contexts that open what the other ones protect,
in fragments as long as the terms say. -/
theorem Completes.exists_sealed : ∃ streams context,
    Handshaken network.connection streams context terms.parameters.plaintextLimit ∧ terms.suite.isSome ∧
      ∀ role, (context role).cipher.sealedLength = terms.sealedLength := by
  obtain ⟨moves, hmoves⟩ := h.leads_end
  obtain ⟨streams, hstands⟩ :=
    (Network.Stands.refl hbegins.ready hbegins.waits hbegins.arriving hbegins.failure).run hbegins.ready moves
  rw [hmoves] at hstands
  choose context params hencrypter hparams hbegun using h.begun
  have hdecrypter (role : Role) : ((Network.between .server concluded.drained.connection completed.connection none
      none).connection role).session.decrypter = some (context role.peer) := by
    obtain ⟨other, hown, hother⟩ := h.agreed.contexts role.peer
    rw [Role.peer_peer] at hother
    rw [hother, ← hown, hencrypter]
  have htalks (role : Role) : ((Network.between .server concluded.drained.connection completed.connection none
      none).connection role).toEndpoint.Talks terms.parameters.plaintextLimit (context role) (context role.peer) :=
    { phase := h.agreed.phase role
      handshakeDone := h.agreed.handshakeDone role
      provider := by cases role <;> rfl
      plaintextLimit := congrArg (·.parameters.plaintextLimit) (h.agreed.terms role)
      encrypter := hencrypter role
      decrypter := hdecrypter role }
  have hsealed (role : Role) : terms.suite = some (params role).suite ∧
      (context role).cipher.sealedLength = terms.sealedLength := by
    obtain ⟨hsuite, hlength⟩ := Session.parameters_of_securityParameters (hparams role)
    rw [h.agreed.terms] at hsuite hlength
    exact ⟨hsuite, (hbegun role).reached.sealedLength_eq.trans hlength.symm⟩
  refine ⟨streams, context, ⟨hbegins.ready, hbegins.waits, hunconnected, hstands.balanced h.quiet, fun role => ?_,
    fun role => ?_, fun role => ?_, fun role => ?_, hconnected, fun role => ⟨params role, hbegun role⟩, h.sensible.positive,
    h.sensible.2⟩, Option.isSome_of_eq_some (hsealed .client).1, fun role => (hsealed role).2⟩
  · exact failureOf_eq_none.mp ((hstands.failure role).symm.trans (h.agreed.failure role))
  all_goals
    obtain ⟨taken, hconnection, -⟩ := hstands.connection role
    rw [← hconnection]
  · exact (htalks role).withQueues _ _
  · cases role <;> rfl
  · cases role <;> rfl

/-- The limits of both ends leave room for the longest fragment. -/
theorem Completes.exists_handshaken
    (hroom : ∀ role, maximumPlaintext + 80 ≤ (network.connection role).session.ciphertextLimit) :
    ∃ streams context, Roomy network streams context terms.parameters.plaintextLimit := by
  obtain ⟨streams, context, hands, hsuite, hsealed⟩ := h.exists_sealed hbegins hunconnected hconnected
  obtain ⟨suite, hsuite⟩ := Option.isSome_iff_exists.mp hsuite
  refine ⟨streams, context, hands, fun role length hlength => ?_⟩
  have hbound := (Terms.sealedLength_bounds hsuite length).2
  have hmaximum := h.sensible.2
  have hlimit := hroom role.peer
  rw [hsealed]
  omega

end

end

/-! ### Settings -/

/-- The limits on ciphertexts that the settings come to. -/
def ciphertextLimits (client : ClientSettings Protection) (server : ServerSettings Protection) : Role → Nat
  | .client => effectiveCiphertextLimit client.ciphertextSetting
  | .server => effectiveCiphertextLimit server.ciphertextSetting

namespace Meets

variable {client : ClientSettings Protection} {server : ServerSettings Protection} {clientEntropy serverEntropy : Entropy}
  {identity key : Bytes} {connection : Connection Protection}

section

variable (h : Meets client server clientEntropy identity key) (hmade : server.connection serverEntropy = .ok connection)
include h hmade

theorem unconnected_opened (role : Role) :
    ((Network.opened (client.connection clientEntropy) connection).connection role).phase ≠ .connected := by
  obtain ⟨body, hbytes, hbody⟩ := h.hello
  rw [h.opened_eq hmade hbytes hbody]
  cases role <;> exact (by decide : Phase.waitHello ≠ .connected)

theorem session_ciphertextLimit_opened (role : Role) :
    ((Network.opened (client.connection clientEntropy) connection).connection role).session.ciphertextLimit =
      ciphertextLimits client server role := by
  obtain ⟨body, hbytes, hbody⟩ := h.hello
  rw [h.opened_eq hmade hbytes hbody]
  cases role <;> rfl

theorem ciphertextLimit_opened (hclient : maximumPlaintext + 80 ≤ effectiveCiphertextLimit client.ciphertextSetting)
    (hserver : maximumPlaintext + 80 ≤ effectiveCiphertextLimit server.ciphertextSetting) (role : Role) :
    maximumPlaintext + 80 ≤
      ((Network.opened (client.connection clientEntropy) connection).connection role).session.ciphertextLimit := by
  rw [h.session_ciphertextLimit_opened hmade]
  cases role with
  | client => exact hclient
  | server => exact hserver

omit h in
theorem connected_opened (role : Role) (b : Bytes)
    (hover : (((Network.opened (client.connection clientEntropy) connection).connection role).receive b).2.phase.isOver = false)
    (hdone : (((Network.opened (client.connection clientEntropy) connection).connection role).receive
      b).2.session.handshakeDone = true) :
    (((Network.opened (client.connection clientEntropy) connection).connection role).receive b).2.phase = .connected := by
  have hmade' : (Configuration.client client).connection clientEntropy = .ok (client.connection clientEntropy) := rfl
  cases role with
  | client => exact Connection.connected_of_handshakeDone hmade' [.start, .receive b] hover hdone
  | server =>
    have hmade : (Configuration.server server).connection serverEntropy = .ok connection := hmade
    exact Connection.connected_of_handshakeDone hmade [.start, .receive b] hover hdone

/-- A handshake is not done where the settings do not suit. -/
theorem suits_of_handshakeDone {network : Network Protection}
    (hleads : (Network.opened (client.connection clientEntropy) connection).Leads network) (hquiet : network.Quiet)
    {role : Role} (hdone : (network.connection role).session.handshakeDone = true) : client.Suits server := by
  by_contra hsuits
  obtain ⟨_, _, -, hsettles, -⟩ := h.settles_failed_of_not_suits hmade hsuits
  obtain ⟨moves, rfl⟩ := hleads
  exact absurd hdone (Bool.eq_false_iff.mp ((hsettles moves hquiet).handshakeDone role))

/-- A client and a server that have the key in common and complete a handshake can talk from then on. What
an application sends the other one reads, in order and whole, as long as there are sequence numbers for
the records. -/
theorem dialogue_delivers (hkey : server.resolve identity = some key) {network : Network Protection}
    (hleads : (Network.opened (client.connection clientEntropy) connection).Leads network) (hquiet : network.Quiet)
    (hdone : ∀ role, (network.connection role).session.handshakeDone = true)
    (hclient : maximumPlaintext + 80 ≤ effectiveCiphertextLimit client.ciphertextSetting)
    (hserver : maximumPlaintext + 80 ≤ effectiveCiphertextLimit server.ciphertextSetting) {turns : List Turn}
    (hfew : ∀ role, ((((Dialogue.fresh (Network.opened (client.connection clientEntropy) connection)).run turns).sent
      role).flatMap (pieces (network.connection .client).session.plaintextLimit)).length < Protection.sequenceBound) :
    ((Dialogue.fresh (Network.opened (client.connection clientEntropy) connection)).run turns).Delivers
      (network.connection .client).session.plaintextLimit := by
  have hsuits := h.suits_of_handshakeDone hmade hleads hquiet (hdone .client)
  obtain ⟨terms, -, said, asked, shown, known, concluded, completed, showing, leaving, hcompletes⟩ :=
    h.exists_completes_of_suits hmade hsuits hkey
  have hbegins := h.begins hmade
  have hlimit : (network.connection .client).session.plaintextLimit = terms.parameters.plaintextLimit := by
    obtain ⟨moves, rfl⟩ := hleads
    have hagreed := (hcompletes.settles hbegins).1 moves hquiet
    exact congrArg (·.parameters.plaintextLimit) (hagreed.terms .client)
  obtain ⟨streams, context, hands⟩ := hcompletes.exists_handshaken hbegins (h.unconnected_opened hmade)
    (connected_opened hmade) (h.ciphertextLimit_opened hmade hclient hserver)
  rw [hlimit] at hfew ⊢
  exact hands.delivers hbegins hfew

end

/-- A client with the usual settings sends once its handshake is done. -/
theorem dialogue_delivers_usual : ∃ connection limit turns, (usualServer [1] [2]).connection (.ofSeed 2) = .ok connection ∧
    ((Dialogue.fresh (Network.opened ((usualClient [1] [2]).connection (.ofSeed 1)) connection)).run turns).sent .client =
      [[1, 2, 3]] ∧
    ((Dialogue.fresh (Network.opened ((usualClient [1] [2]).connection (.ofSeed 1)) connection)).run turns).Delivers
      limit := by
  have hmade : (usualServer [1] [2]).connection (.ofSeed 2) = .ok _ := rfl
  have hmeets := @usual_meets (.ofSeed 1) [1] [2] [1] [2] (by decide) (by decide)
  obtain ⟨terms, -, said, asked, shown, known, concluded, completed, showing, leaving, hcompletes⟩ :=
    hmeets.exists_completes_of_suits hmade (usual_suits [1] [2] [1] [2]) rfl
  obtain ⟨moves, hmoves⟩ := hcompletes.leads_end
  have hsent := Dialogue.sent_send_behind hmoves (hcompletes.agreed.handshakeDone .client) [1, 2, 3]
  have hlimit : ([1, 2, 3] : Bytes).length ≤ ((Network.between .server concluded.drained.connection completed.connection none
      none).connection .client).session.plaintextLimit := by
    have hparameters := congrArg (·.parameters.plaintextLimit) (hcompletes.agreed.terms .client)
    exact Nat.le_trans (by decide) (Nat.le_trans hcompletes.sensible.1 (Nat.le_of_eq hparameters.symm))
  refine ⟨_, _, moves.map .move ++ [.send .client [1, 2, 3]], hmade, by rw [hsent]; rfl,
    hmeets.dialogue_delivers hmade rfl ⟨moves, hmoves⟩ hcompletes.quiet hcompletes.agreed.handshakeDone (by decide)
      (by decide) fun role => ?_⟩
  rw [hsent]
  cases role with
  | client =>
    show (List.flatMap _ [([1, 2, 3] : Bytes)]).length < _
    rw [List.flatMap_singleton, pieces_of_length_le (by decide) hlimit]
    decide
  | server => exact (by decide : 0 < Protection.sequenceBound)

end Meets

end PresharedTls
