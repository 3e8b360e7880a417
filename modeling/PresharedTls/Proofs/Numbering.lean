import PresharedTls.Proofs.Coherence
import PresharedTls.Proofs.Meetings
import PresharedTls.Proofs.Verified

/-!
# Sequence numbers on the wire

Every way to queue a record behind the ChangeCipherSpec takes one number from the encrypter, and what
queues no record takes none: a plaintext over the limit is refused before it is protected, and what a
plaintext within the limit comes to always fits a record. So the records behind the ChangeCipherSpec have
the numbers from zero on, in the order in which they are sent, and where they are delivered in that order
they meet the peer's decrypter with the same numbers.
-/

namespace PresharedTls

namespace Endpoint

variable {endpoint after : Endpoint Protection} {sends : ContentType → Prop}

/-- What a change does to the encrypter and the queue: nothing, or one record is queued, which the encrypter
has protected if there is one, or the encrypter is made behind a ChangeCipherSpec. -/
inductive Speaks (endpoint after : Endpoint Protection) : Prop where
  | same (hencrypter : after.session.encrypter = endpoint.session.encrypter) (houtgoing : after.outgoing = endpoint.outgoing)
  | clear (record : Record) (hfits : record.fragment.length < 65536) (hbefore : endpoint.session.encrypter = none)
      (hafter : after.session.encrypter = none) (houtgoing : after.outgoing = endpoint.outgoing ++ [record])
  | armed {params : SecurityParameters} {sender : Role} {context : Protection}
      (hmade : Protection.create params sender = .ok context) (hbefore : endpoint.session.encrypter = none)
      (hafter : after.session.encrypter = some context) (houtgoing : after.outgoing = endpoint.outgoing)
      (hannounced : ∃ record ∈ endpoint.outgoing.getLast?, record.typeCode = ContentType.changeCipherSpec.code)
  | sealed (record : Record) (hfits : record.fragment.length < 65536) {context later : Protection} {plaintext : Bytes}
      {entropy entropy' : Entropy}
      (hprotect : context.protect record.typeCode record.version plaintext entropy =
        (.ok record.fragment, later, entropy'))
      (hbefore : endpoint.session.encrypter = some context) (hafter : after.session.encrypter = some later)
      (houtgoing : after.outgoing = endpoint.outgoing ++ [record])

end Endpoint

/-- A session that protects records itself, with room for what it makes of a plaintext. -/
structure Session.Sealing (session : Session Protection) : Prop where
  provider : session.provider = .standard
  limited : session.Limited
  invertible : ∀ context, session.encrypter = some context → context.cipher.Invertible

/-- Protecting a plaintext within the limit takes a number and makes a fragment that fits, unless there are no
numbers left. Then it changes nothing. -/
theorem Session.Sealing.encrypt_cases {session : Session Protection} (h : session.Sealing) {context : Protection}
    (hcontext : session.encrypter = some context) (typeCode : UInt8) {plaintext : Bytes} (entropy : Entropy)
    (hlength : plaintext.length ≤ session.plaintextLimit) :
    (∃ fragment later entropy', context.protect typeCode session.version.code plaintext entropy = (.ok fragment, later, entropy') ∧
      fragment.length < 65536 ∧
      session.encrypt typeCode plaintext entropy = (.ok fragment, { session with encrypter := some later }, entropy')) ∨
    Protection.sequenceBound ≤ context.sequence ∧
      session.encrypt typeCode plaintext entropy = (.error .internalError, session, entropy) := by
  have hencrypt : session.encrypt typeCode plaintext entropy =
      ((context.protect typeCode session.version.code plaintext entropy).1,
        { session with encrypter := some (context.protect typeCode session.version.code plaintext entropy).2.1 },
        (context.protect typeCode session.version.code plaintext entropy).2.2) := by
    rw [encrypt, hcontext]
    simp only [h.provider]
    rfl
  have hmaximum : plaintext.length ≤ maximumPlaintext := hlength.trans (le_maximumPlaintext_of_mem h.limited.plaintext)
  by_cases hsequence : context.sequence < Protection.sequenceBound
  · obtain ⟨fragment, later, entropy', hprotect, hfragment, -⟩ :=
      Protection.exists_protect (h.invertible context hcontext) hsequence typeCode session.version.code
        (hmaximum.trans (by decide)) entropy
    refine .inl ⟨fragment, later, entropy', hprotect, ?_, by rw [hencrypt, hprotect]⟩
    have hroom : maximumPlaintext + 80 < 65536 := by decide
    omega
  · have hspent : context.protect typeCode session.version.code plaintext entropy = (.error .internalError, context, entropy) := by
      rw [Protection.protect, if_pos (Nat.le_of_not_lt hsequence)]
    refine .inr ⟨Nat.le_of_not_lt hsequence, ?_⟩
    rw [hencrypt, hspent]
    exact congrArg (fun encrypter => (_, { session with encrypter := encrypter }, _)) hcontext.symm

namespace Endpoint

variable {endpoint after : Endpoint Protection} {sends : ContentType → Prop}

theorem Change.speaks (hchange : Change sends endpoint after) (h : endpoint.session.Sealing) : Speaks endpoint after := by
  cases hchange with
  | @sent type _ plaintext fragment session entropy hsealed hlength hfits =>
    cases hcontext : endpoint.session.encrypter with
    | none =>
      rw [Session.encrypt, hcontext] at hsealed
      cases hsealed
      exact .clear _ hfits hcontext hcontext rfl
    | some context =>
      rcases h.encrypt_cases hcontext type.code endpoint.entropy hlength with
        ⟨other, later, entropy', hprotect, -, hencrypt⟩ | ⟨-, hencrypt⟩
      · cases hencrypt.symm.trans hsealed
        exact .sealed ⟨type.code, endpoint.session.version.code, fragment⟩ hfits hprotect hcontext rfl rfl
      · cases hencrypt.symm.trans hsealed
  | spent typeCode plaintext hlength hfailed =>
    cases hcontext : endpoint.session.encrypter with
    | none =>
      refine .same ?_ rfl
      rw [Session.encrypt, hcontext]
      exact hcontext
    | some context =>
      rcases h.encrypt_cases hcontext typeCode endpoint.entropy hlength with
        ⟨other, later, entropy', hprotect, hfits, hencrypt⟩ | ⟨-, hencrypt⟩
      · exact absurd hfits (hfailed other (by rw [hencrypt]))
      · exact .same (by rw [hencrypt]) rfl
  | opened typeCode version fragment => exact .same (by rw [Session.decrypt_snd]) rfl
  | @taken version fragment _ session hopened _ =>
    have hsession := endpoint.session.decrypt_snd ContentType.applicationData.code version fragment
    rw [hopened] at hsession
    obtain rfl : session = _ := hsession
    exact .same rfl rfl
  | answered answer =>
    obtain ⟨terms, hafter, -⟩ := endpoint.session.applyServerHello_eq answer
    exact .same (by rw [hafter]; rfl) rfl
  | armed hannounced sender =>
    cases hcontext : endpoint.session.encrypter with
    | some context =>
      refine .same ?_ rfl
      rw [Session.createEncrypter, hcontext]
      exact hcontext
    | none =>
      rcases Session.createEncrypter_cases hcontext sender with ⟨params, context, -, hmade, hcreated⟩ | ⟨alert, -, hfailed⟩
      · rw [h.provider] at hmade
        exact .armed hmade hcontext (by rw [hcreated]) rfl hannounced
      · exact .same (by rw [hfailed]) rfl
  | switched sender =>
    rcases endpoint.session.createDecrypter_cases sender with ⟨params, context, -, -, -, hcreated⟩ | ⟨alert, hfailed⟩
    · exact .same (by rw [hcreated]) rfl
    · exact .same (by rw [hfailed]) rfl
  | _ => exact .same rfl rfl

theorem Speaks.sealing (hspeaks : Speaks endpoint after) (hchange : Change sends endpoint after)
    (h : endpoint.session.Sealing) : after.session.Sealing := by
  refine ⟨hchange.continues (.refl _) |>.provider.trans h.provider, hchange.limited h.limited, fun later hlater => ?_⟩
  cases hspeaks with
  | same hencrypter _ => exact h.invertible later (hencrypter.symm.trans hlater)
  | clear record _ _ hafter _ => cases hafter.symm.trans hlater
  | armed hmade _ hafter _ _ =>
    cases hafter.symm.trans hlater
    exact Protection.invertible_of_create hmade
  | @sealed record _ context _ plaintext entropy entropy' hprotect hbefore hafter _ =>
    cases hafter.symm.trans hlater
    have hcontinues := (context.protect_continues record.typeCode record.version plaintext entropy).2
    rw [hprotect] at hcontinues
    exact hcontinues.invertible (h.invertible context hbefore)

end Endpoint

/-! ### What was sent -/

/-- A session in which as many numbers are used up as records were sent since the encrypter was made, which was
behind a ChangeCipherSpec and behind `front`. -/
structure Session.Counts (front : List Record) (session : Session Protection) (log : List Record) : Prop extends
    session.Sealing where
  fits : ∀ record ∈ log, record.fragment.length < 65536
  behind : front <+: log
  counted : ∀ context, session.encrypter = some context → ∃ clear sealed, log = clear ++ sealed ∧ front <+: clear ∧
    (∃ announced ∈ clear.getLast?, announced.typeCode = ContentType.changeCipherSpec.code) ∧
      context.sequence = sealed.length

/-- A session whose encrypter has made all records behind `front` since it was `context`. -/
structure Session.Numbers (front : List Record) (context : Protection) (session : Session Protection)
    (log : List Record) : Prop extends session.Sealing where
  numbers : ∃ records later, log = front ++ records ∧ session.encrypter = some later ∧ context.Numbers records later

namespace Endpoint

variable {endpoint after : Endpoint Protection} {sends : ContentType → Prop} {front taken : List Record}

theorem Change.counts (hchange : Change sends endpoint after)
    (h : endpoint.session.Counts front (taken ++ endpoint.outgoing)) :
    after.session.Counts front (taken ++ after.outgoing) := by
  have hspeaks := hchange.speaks h.toSealing
  have hsealing := hspeaks.sealing hchange h.toSealing
  have hfits {record : Record} (hrecord : record.fragment.length < 65536)
      (houtgoing : after.outgoing = endpoint.outgoing ++ [record]) :
      ∀ other ∈ taken ++ after.outgoing, other.fragment.length < 65536 := by
    rw [houtgoing, ← List.append_assoc]
    intro other hmem
    rcases List.mem_append.mp hmem with hbefore | hlast
    · exact h.fits other hbefore
    · exact List.mem_singleton.mp hlast ▸ hrecord
  have hbehind {record : Record} (houtgoing : after.outgoing = endpoint.outgoing ++ [record]) :
      front <+: taken ++ after.outgoing := by
    rw [houtgoing, ← List.append_assoc]
    exact h.behind.trans (List.prefix_append _ _)
  cases hspeaks with
  | same hencrypter houtgoing => exact ⟨hsealing, houtgoing ▸ h.fits, houtgoing ▸ h.behind, hencrypter ▸ houtgoing ▸ h.counted⟩
  | clear record hrecord _ hafter houtgoing =>
    exact ⟨hsealing, hfits hrecord houtgoing, hbehind houtgoing, fun _ hsome => nomatch hafter.symm.trans hsome⟩
  | armed hmade _ hafter houtgoing hannounced =>
    refine ⟨hsealing, houtgoing ▸ h.fits, houtgoing ▸ h.behind, fun later hlater => ?_⟩
    cases hafter.symm.trans hlater
    obtain ⟨announced, hlast, htype⟩ := hannounced
    obtain ⟨masterSecret, -, rfl⟩ := Protection.eq_of_create hmade
    refine ⟨taken ++ endpoint.outgoing, [], by rw [houtgoing, List.append_nil], h.behind, ⟨announced, ?_, htype⟩, rfl⟩
    rw [List.getLast?_append, Option.mem_def.mp hlast]
    rfl
  | sealed record hrecord hprotect hbefore hafter houtgoing =>
    refine ⟨hsealing, hfits hrecord houtgoing, hbehind houtgoing, fun later hlater => ?_⟩
    cases hafter.symm.trans hlater
    obtain ⟨clear, sealed, hlog, hfront, hannounced, hsequence⟩ := h.counted _ hbefore
    refine ⟨clear, sealed ++ [record], ?_, hfront, hannounced, ?_⟩
    · rw [houtgoing, ← List.append_assoc, hlog, List.append_assoc]
    · rw [(Protection.sequence_of_protect hprotect).2, hsequence, List.length_append, List.length_singleton]

theorem Change.numbers {context : Protection} (hchange : Change sends endpoint after)
    (h : endpoint.session.Numbers front context (taken ++ endpoint.outgoing)) :
    after.session.Numbers front context (taken ++ after.outgoing) := by
  have hspeaks := hchange.speaks h.toSealing
  refine ⟨hspeaks.sealing hchange h.toSealing, ?_⟩
  obtain ⟨records, later, hlog, hlater, hnumbers⟩ := h.numbers
  cases hspeaks with
  | same hencrypter houtgoing => exact ⟨records, later, houtgoing ▸ hlog, hencrypter.trans hlater, hnumbers⟩
  | clear record _ hbefore _ _ => cases hbefore.symm.trans hlater
  | armed _ hbefore _ _ _ => cases hbefore.symm.trans hlater
  | sealed record _ hprotect hbefore hafter houtgoing =>
    cases hbefore.symm.trans hlater
    refine ⟨records ++ [record], _, ?_, hafter, hnumbers.next record hprotect⟩
    rw [houtgoing, ← List.append_assoc, hlog, List.append_assoc]

end Endpoint

/-! ### Numbers used up -/

section

variable {initial context : Protection} {records : List Record}

theorem Provider.Protects.length_le (h : Provider.standard.Protects initial records context) :
    initial.sequence + records.length ≤ context.sequence := by
  induction h with
  | created => exact Nat.le_refl _
  | sealed _ record hprotect ih =>
    rw [(Protection.sequence_of_protect hprotect).2, List.length_append, List.length_singleton]
    omega
  | @spent _ context _ typeCode version plaintext entropy ih =>
    rcases context.protect_uses_up typeCode version plaintext entropy with hsame | hmoved
    · exact ih.trans (congrArg Protection.sequence hsame).ge
    · exact ih.trans (hmoved ▸ Nat.le_succ _)

/-- A context that has used up no more numbers than it has made records has never failed in between. -/
theorem Provider.Protects.numbers (h : Provider.standard.Protects initial records context)
    (hcount : context.sequence = initial.sequence + records.length) : initial.Numbers records context := by
  induction h with
  | created => exact .made
  | sealed _ record hprotect ih =>
    refine (ih ?_).next record hprotect
    rw [(Protection.sequence_of_protect hprotect).2, List.length_append, List.length_singleton] at hcount
    omega
  | @spent _ context h typeCode version plaintext entropy ih =>
    have hle := h.length_le
    rcases context.protect_uses_up typeCode version plaintext entropy with hsame | hmoved
    · have hunchanged : (Provider.standard.protect context typeCode version plaintext entropy).2.1 = context := hsame
      rw [hunchanged] at hcount ⊢
      exact ih hcount
    · have hsequence : (Provider.standard.protect context typeCode version plaintext entropy).2.1.sequence =
          context.sequence + 1 := hmoved
      omega

end

/-- Where no more was sent behind the ChangeCipherSpec than there are numbers used up, the encrypter was made
behind it. -/
theorem Session.Counts.behindSwitch {session : Session Protection} {front log : List Record} (h : session.Counts front log)
    {context : Protection} (hcontext : session.encrypter = some context)
    (hle : (behindSwitch log).length ≤ context.sequence) :
    context.sequence = (PresharedTls.behindSwitch log).length ∧ PresharedTls.behindSwitch front = [] := by
  obtain ⟨clear, sealed, rfl, hfront, ⟨last, hlast, hlastType⟩, hsequence⟩ := h.counted context hcontext
  rcases unswitched_or_switchedAt clear with hunswitched | ⟨ahead, rear, hswitched⟩
  · exact absurd hlastType (hunswitched last (List.mem_of_getLast? hlast))
  · rw [(hswitched.append sealed).behindSwitch, List.length_append] at hle ⊢
    have hnone : rear.length = 0 := by omega
    refine ⟨by omega, ?_⟩
    have hprefix := behindSwitch_prefix hfront
    rwa [hswitched.behindSwitch, List.length_eq_zero_iff.mp hnone, List.prefix_nil] at hprefix

/-! ### Runs -/

namespace Connection

variable {connection : Connection Protection}

theorem counts_run {taken front : List Record} (h : connection.session.Counts front (taken ++ connection.outgoing))
    (operations : List Operation) :
    (connection.run operations).session.Counts front (taken ++ connection.log operations) :=
  sent_run (fun _ _ _ => Endpoint.Change.counts) h operations

/-- An encrypter is never replaced, and makes all that is sent after it. -/
theorem exists_numbers_run (h : connection.session.Sealing) {context : Protection}
    (hcontext : connection.session.encrypter = some context) (operations : List Operation) :
    ∃ records later, connection.log operations = connection.outgoing ++ records ∧
      (connection.run operations).session.encrypter = some later ∧ context.Numbers records later :=
  have hnow : connection.session.Numbers connection.outgoing context ([] ++ connection.outgoing) :=
    ⟨h, [], context, (List.append_nil _).symm, hcontext, .made⟩
  (sent_run (fun _ _ _ => Endpoint.Change.numbers) hnow operations).numbers

end Connection

namespace Configuration

variable {configuration : Configuration Protection} (hprovider : configuration.provider = .standard) {entropy : Entropy}
  {connection : Connection Protection} (hmade : configuration.connection entropy = .ok connection)
include hprovider hmade

theorem counts_run (operations : List Operation) :
    (connection.run operations).session.Counts [] (connection.log operations) := by
  obtain ⟨side, version, setting, session, hconnection, hsession⟩ := exists_fresh hmade
  have hsessions : session.provider = .standard ∧ session.encrypter = none := by
    rcases hsession with rfl | ⟨identity, key, rfl⟩ <;> exact ⟨hprovider, rfl⟩
  have hlimited := limited hmade
  subst hconnection
  have hnone {context : Protection} (hsome : session.encrypter = some context) : False :=
    nomatch hsome.symm.trans hsessions.2
  have hfresh : session.Counts [] ([] ++ []) := ⟨⟨hsessions.1, hlimited, fun _ hsome => (hnone hsome).elim⟩,
    fun _ hmem => absurd hmem List.not_mem_nil, List.nil_prefix, fun _ hsome => (hnone hsome).elim⟩
  exact @Connection.counts_run (Connection.fresh side session entropy) [] [] hfresh operations

theorem guarded_run (operations : List Operation) {context : Protection}
    (hcontext : (connection.run operations).session.encrypter = some context) :
    ∃ front params initial, SwitchedAt (connection.log operations) front (behindSwitch (connection.log operations)) ∧
      Protection.create params configuration.role = .ok initial ∧ initial.sequence = 0 ∧
      Provider.standard.Protects initial (behindSwitch (connection.log operations)) context := by
  have hpaired : configuration.provider.Paired := hprovider ▸ Provider.paired_standard
  obtain ⟨hrole, hstandard⟩ := Connection.configured_run hmade operations
  rw [hprovider] at hstandard
  rcases ((configuration.accounted hpaired hmade).run operations).concluded with
    (⟨hnone, -⟩ | ⟨front, rear, params, initial, other, hswitched, hinitial, hother, hprotects⟩) | ⟨-, -, ⟨-, hnone, -⟩, -⟩
  · cases hnone.symm.trans hcontext
  · obtain rfl := Option.some.inj (hother.symm.trans hcontext)
    rw [hstandard] at hinitial hprotects
    have hlog : SwitchedAt (connection.log operations) front rear := hswitched
    have hzero : initial.sequence = 0 := by
      obtain ⟨masterSecret, -, rfl⟩ := Protection.eq_of_create hinitial
      rfl
    rw [hlog.behindSwitch]
    exact ⟨front, params, initial, hlog, hrole ▸ hinitial, hzero, hprotects⟩
  · cases hnone.symm.trans hcontext

end Configuration

/-- What the encrypter of a connection has sent behind `operations`, and where that arrives. -/
structure Connection.Numbered (connection : Connection Protection) (operations : List Operation) (role : Role)
    (context : Protection) : Prop where
  switched : ∃ front, SwitchedAt (connection.log operations) front (behindSwitch (connection.log operations))
  /-- All records behind the ChangeCipherSpec came out of one context, which began in the keys of this end with the
  number zero, one after the other and with no failure in between. -/
  sealed : ∃ params initial, Protection.create params role = .ok initial ∧ initial.sequence = 0 ∧
    initial.Numbers (behindSwitch (connection.log operations)) context
  /-- Each of them was protected with the number of its place. -/
  numbered : ∀ (place : Nat) (record : Record), (behindSwitch (connection.log operations))[place]? = some record →
    ∃ (before : Protection) (plaintext : Bytes) (entropy : Entropy) (after : Protection) (entropy' : Entropy),
      before.sequence = place ∧
      before.protect record.typeCode record.version plaintext entropy = (.ok record.fragment, after, entropy')
  /-- None of them was queued before there was an encrypter. -/
  early : ∀ early more, operations = early ++ more → (connection.run early).session.encrypter = none →
    behindSwitch (connection.log early) = []
  /-- Whatever is done next, the encrypter makes all that is sent, and nothing is put in its place. -/
  lasting : ∀ more, ∃ records later, connection.log (operations ++ more) = connection.log operations ++ records ∧
    (connection.run (operations ++ more)).session.encrypter = some later ∧ context.Numbers records later
  /-- Under GCM the explicit parts of the nonces are the numbers, and no two are the same. -/
  explicit : ∀ cipher salt, context.cipher = .gcm cipher salt →
    (∀ (place : Nat) (record : Record), (behindSwitch (connection.log operations))[place]? = some record →
      ∃ plaintext, GcmRecords.protect cipher salt place record.typeCode record.version plaintext = some record.fragment) ∧
    ((behindSwitch (connection.log operations)).map fun record => record.fragment.take GcmRecords.explicitLength).Nodup
  /-- At a peer to which all that was sent is delivered in order, as far as it has come, those of the records that
  meet the decrypter are the first behind the ChangeCipherSpec, with the numbers from zero on, and they are all once
  all has come, unless the peer is over. -/
  heard : ∀ (configuration : Configuration Protection) (entropy : Entropy) (peer : Connection Protection),
    configuration.provider = .standard → configuration.connection entropy = .ok peer → ∀ arrivals : List Operation,
    peer.arrived arrivals <+: (connection.log operations).flatMap Record.bytes →
    (openings (peer.meetings arrivals)).map Prod.snd <+: behindSwitch (connection.log operations) ∧
    (openings (peer.meetings arrivals)).map (·.1.sequence) = List.range (openings (peer.meetings arrivals)).length ∧
    ((peer.run arrivals).phase.isOver = false →
      peer.arrived arrivals = (connection.log operations).flatMap Record.bytes →
      (openings (peer.meetings arrivals)).map Prod.snd = behindSwitch (connection.log operations))

/-- **No number is used twice.** Whatever is done to a connection and whatever arrives, its encrypter is one
context, and the records that are queued since there is one take its numbers from zero on without a gap. -/
theorem Configuration.numbered_run {configuration : Configuration Protection} (hprovider : configuration.provider = .standard)
    {entropy : Entropy} {connection : Connection Protection} (hmade : configuration.connection entropy = .ok connection)
    (operations : List Operation) {context : Protection}
    (hcontext : (connection.run operations).session.encrypter = some context) :
    connection.Numbered operations configuration.role context := by
  have hcounts := counts_run hprovider hmade operations
  obtain ⟨front, params, initial, hswitched, hinitial, hzero, hprotects⟩ := guarded_run hprovider hmade operations hcontext
  have hle : (behindSwitch (connection.log operations)).length ≤ context.sequence := by
    have hlength := hprotects.length_le
    omega
  have hnumbers : initial.Numbers (behindSwitch (connection.log operations)) context :=
    hprotects.numbers (by rw [hzero, Nat.zero_add]; exact (hcounts.behindSwitch hcontext hle).1)
  refine ⟨⟨front, hswitched⟩, ⟨params, initial, hinitial, hzero, hnumbers⟩, fun place record hplace => ?_,
    fun early more hsplit hnone => ?_, fun more => ?_, fun cipher salt hcipher => ?_, ?_⟩
  · obtain ⟨before, plaintext, entropy, after, entropy', hsequence, -, hprotect⟩ := hnumbers.exists_protect hplace
    rw [hzero, Nat.zero_add] at hsequence
    exact ⟨before, plaintext, entropy, after, entropy', hsequence, hprotect⟩
  · subst hsplit
    have hearly := counts_run hprovider hmade early
    have hstart : (connection.run early).session.Counts (connection.log early)
        (connection.departed early ++ (connection.run early).outgoing) :=
      ⟨hearly.toSealing, hearly.fits, List.prefix_rfl, fun _ hsome => nomatch hsome.symm.trans hnone⟩
    have hlater := Connection.counts_run hstart more
    rw [← Connection.log_append, ← Connection.run_append] at hlater
    exact (hlater.behindSwitch hcontext hle).2
  · obtain ⟨records, later, hlog, hlater, hmore⟩ := Connection.exists_numbers_run hcounts.toSealing hcontext more
    refine ⟨records, later, ?_, Connection.run_append connection operations more ▸ hlater, hmore⟩
    rw [Connection.log_append, hlog, ← List.append_assoc]
    rfl
  · have hgcm : initial.cipher = .gcm cipher salt := by
      have hcontinues := hnumbers.continues
      rw [hcipher] at hcontinues
      generalize initial.cipher = first at hcontinues
      cases hcontinues
      rfl
    refine ⟨fun place record hplace => ?_, hnumbers.nodup_explicit hgcm (hzero ▸ Nat.zero_le _)⟩
    obtain ⟨plaintext, hprotect⟩ := hnumbers.exists_protect_gcm hgcm hplace
    rw [hzero, Nat.zero_add] at hprotect
    exact ⟨plaintext, hprotect⟩
  · intro peerConfiguration peerEntropy peer hpeer hpeerMade arrivals harrived
    have hattends := attends_run hpeer hpeerMade arrivals
    have hwaits := ((Reachable.opened hpeerMade).run arrivals).waits
    exact ⟨hattends.openings_prefix hcounts.fits harrived, hattends.inSequence.numbers,
      fun hlive hall => hattends.openings_eq hwaits hlive hcounts.fits hall⟩

/-- The client's end of a handshake that completes. -/
theorem Configuration.numbered_run_usual : ∃ (operations : List Operation) (context : Protection),
    (((usualClient [1] [2]).connection (.ofSeed 1)).run operations).session.encrypter = some context ∧
      ((usualClient [1] [2]).connection (.ofSeed 1)).Numbered operations .client context := by
  obtain ⟨connection, terms, said, asked, shown, known, concluded, completed, showing, leaving, -, hcompletes⟩ :=
    @exists_usual_completes (.ofSeed 1) (.ofSeed 2) [1] [2] (by decide) (by decide)
  obtain ⟨operations, hrun⟩ := hcompletes.leads_end.exists_operations_client
  have hdone : (((usualClient [1] [2]).connection (.ofSeed 1)).run operations).session.handshakeDone = true := by
    rw [← hrun]
    exact hcompletes.agreed.handshakeDone .client
  have hmade : (Configuration.client (usualClient [1] [2])).connection (.ofSeed 1) = .ok _ := rfl
  obtain ⟨context, hcontext⟩ := Option.isSome_iff_exists.mp ((coherent_run hmade operations).done hdone).1
  exact ⟨operations, context, hcontext, Configuration.numbered_run rfl hmade operations hcontext⟩

end PresharedTls
