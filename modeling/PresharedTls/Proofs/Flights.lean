import PresharedTls.Proofs.Exchange

/-!
# Whole flights

What an endpoint makes of a flight that reaches it in one piece. Each of the four flights of a handshake
is as long as its sender's limit makes it, and is answered by the next one or by an alert.
-/

namespace PresharedTls.Standing

open Endpoint

def fresh (side : Side) (version : Version) (identity : Bytes) (key : Option Bytes) (ciphertextLimit : Nat)
    (entropy : Entropy) : Standing where
  phase := .idle
  side := side
  terms := .start version identity
  key := key
  ciphertextLimit := ciphertextLimit
  transcript := some []
  encrypter := none
  decrypter := none
  done := false
  outgoing := []
  entropy := entropy

/-- The transport has taken what was queued. -/
def drained (standing : Standing) : Standing :=
  { standing with outgoing := [] }

/-! ### Records in one piece -/

variable (standing : Standing) {after : Standing}

/-- Records that an endpoint with this limit takes. -/
def Fit (records : List Record) : Prop :=
  ∀ record ∈ records, record.fragment.length ≤ maximumPlaintext

theorem fit_append {records more : List Record} (h : Fit records) (hmore : Fit more) : Fit (records ++ more) := by
  intro record hmem
  obtain hfirst | hsecond := List.mem_append.mp hmem
  · exact h record hfirst
  · exact hmore record hsecond

theorem fit_records {parameters : Parameters} (h : parameters.Sensible) (message : HandshakeMessage) (version : Version) :
    Fit (message.records version.code parameters.plaintextLimit) := by
  intro record hmem
  exact Nat.le_trans (HandshakeMessage.length_of_mem_records h.positive hmem) h.2

theorem fit_conclusion (version : Version) {fragment : Bytes} (h : fragment.length ≤ 96) :
    Fit [changeCipherSpec version, ⟨ContentType.handshake.code, version.code, fragment⟩] := by
  intro record hmem
  simp only [List.mem_cons, List.not_mem_nil, or_false] at hmem
  obtain rfl | rfl := hmem
  · exact (by decide : 1 ≤ maximumPlaintext)
  · exact Nat.le_trans h (by decide)

section

variable {records : List Record} (hlimit : maximumPlaintext ≤ standing.ciphertextLimit) (hfit : Fit records)
include hlimit hfit

theorem arriving_records : standing.connection.arriving (records.flatMap Record.bytes) = ⟨records, [], none⟩ := by
  have hshort : ∀ record ∈ records, record.fragment.length < 65536 :=
    fun record hmem => Nat.lt_of_le_of_lt (hfit record hmem) (by decide)
  exact Connection.arriving_flight rfl (fun record hmem => Nat.le_trans (hfit record hmem) hlimit) hshort

variable (hready : standing.phase.TakesInput)
include hready

theorem receive_of_ok (hrun : (records.forM receiveRecord).run standing.endpoint = .ok () after.endpoint) :
    standing.connection.receive (records.flatMap Record.bytes) = (.ok (), after.connection) := by
  have harriving := arriving_records standing hlimit hfit
  have hrecords : (records.forM receiveRecord).run standing.connection.toEndpoint = .ok () after.endpoint := hrun
  have hreceived : (receiveRecords (standing.connection.arriving (records.flatMap Record.bytes))).run
      standing.connection.toEndpoint = .ok () after.endpoint := by
    rw [harriving, run_receiveRecords]
    simp only [hrecords]
  rw [Connection.receive_of_ok hready hreceived, harriving]
  rfl

theorem receive_of_error {failure : ConnectionError} {endpoint : Endpoint Protection}
    (hrun : (records.forM receiveRecord).run standing.endpoint = .error failure endpoint) :
    standing.connection.receive (records.flatMap Record.bytes) = (.error failure, ⟨endpoint.fail failure, []⟩) := by
  have hrecords : (records.forM receiveRecord).run standing.connection.toEndpoint = .error failure endpoint := hrun
  have hreceived : (receiveRecords (standing.connection.arriving (records.flatMap Record.bytes))).run
      standing.connection.toEndpoint = .error failure endpoint := by
    rw [arriving_records standing hlimit hfit, run_receiveRecords]
    simp only [hrecords]
  exact Connection.receive_of_error hready hreceived

end

/-! ### Refusals -/

/-- The alert by which an end refuses, before there is an encrypter. -/
def alertRecord (alert : AlertDescription) (version : Version) : Record :=
  ⟨ContentType.alert.code, version.code, (Alert.fatal alert).bytes⟩

def refused (alert : AlertDescription) (standing : Standing) : Standing :=
  (standing.queue [alertRecord alert standing.terms.version]).reach .error

theorem fail_endpoint (hclear : standing.encrypter = none) (hsensible : standing.terms.parameters.Sensible)
    (alert : AlertDescription) : standing.endpoint.fail (.sentAlert alert) = (standing.refused alert).endpoint := by
  have htwo : (Alert.fatal alert).bytes.length ≤ standing.terms.parameters.plaintextLimit :=
    Nat.le_trans (show 2 ≤ 512 by decide) hsensible.1
  have hsent := run_sendRecord_clear standing hclear hsensible.2 .alert htwo
  rw [fail, announce, Endpoint.after, hsent]
  rfl

/-- The peer of an end that has refused learns why. -/
theorem receive_alert (hlimit : maximumPlaintext ≤ standing.ciphertextLimit) (hready : standing.phase.TakesInput)
    (hopen : standing.decrypter = none) (hsensible : standing.terms.parameters.Sensible) {alert : AlertDescription}
    (hnamed : AlertDescription.ofCode alert.code = alert) (hfailure : alert ≠ .closeNotify) (version : Version) :
    standing.connection.receive ([alertRecord alert version].flatMap Record.bytes) =
      (.error (.receivedAlert alert), (standing.reach .error).connection) := by
  have hfit : Fit [alertRecord alert version] := by
    intro record hmem
    obtain rfl := List.mem_singleton.mp hmem
    exact (by decide : 2 ≤ maximumPlaintext)
  have htwo : (Alert.fatal alert).bytes.length ≤ standing.terms.parameters.plaintextLimit :=
    Nat.le_trans (show 2 ≤ 512 by decide) hsensible.1
  have hread : Alert.ofBytes? (Alert.fatal alert).bytes = some (.fatal alert) := by
    simp only [Alert.bytes, Alert.fatal, Alert.ofBytes?, hnamed]
    rfl
  have hrecord : (receiveRecord (alertRecord alert version)).run standing.endpoint =
      .error (.receivedAlert alert) (standing.reach .error).endpoint := by
    apply (run_receiveRecord_clear (by exact hopen) htwo).trans
    show (receiveAlert _).run _ = _
    rw [receiveAlert, hread]
    apply (run_bind_of_ok (run_readBody_some _ _)).trans
    have hopened : decide ((Alert.fatal alert).description = .closeNotify) = false := decide_eq_false hfailure
    simp only [EStateM.run_bind, hopened]
    rfl
  have hrun : ([alertRecord alert version].forM receiveRecord).run standing.endpoint =
      .error (.receivedAlert alert) (standing.reach .error).endpoint := run_bind_of_error hrecord
  rw [receive_of_error standing hlimit hfit hready hrun]
  rfl

/-! ### Messages in a flight -/

theorem run_forM_records_append (hopen : standing.decrypter = none) {message : HandshakeMessage}
    (hbody : message.body.length ≤ HandshakeHeader.maximumLength) {limit : Nat} (hpositive : 0 < limit)
    (hlimit : limit ≤ standing.terms.parameters.plaintextLimit) (version : UInt16)
    (hmessage : (receiveMessage message).run standing.endpoint = .ok () after.endpoint) (rest : List Record) :
    ((message.records version limit ++ rest).forM receiveRecord).run standing.endpoint =
      (rest.forM receiveRecord).run after.endpoint := by
  have hrecords := @run_forM_records _ standing.endpoint hopen rfl _ hbody _ hpositive hlimit version
  rw [run_forM_append, hrecords, hmessage]

theorem run_forM_records_append_of_error (hopen : standing.decrypter = none) {message : HandshakeMessage}
    (hbody : message.body.length ≤ HandshakeHeader.maximumLength) {limit : Nat} (hpositive : 0 < limit)
    (hlimit : limit ≤ standing.terms.parameters.plaintextLimit) (version : UInt16) {failure : ConnectionError}
    (hmessage : (receiveMessage message).run standing.endpoint = .error failure after.endpoint) (rest : List Record) :
    ((message.records version limit ++ rest).forM receiveRecord).run standing.endpoint =
      .error failure after.endpoint := by
  have hrecords := @run_forM_records _ standing.endpoint hopen rfl _ hbody _ hpositive hlimit version
  rw [run_forM_append, hrecords, hmessage]

theorem run_forM_cons {record : Record} (hrecord : (receiveRecord record).run standing.endpoint = .ok () after.endpoint)
    (rest : List Record) :
    ((record :: rest).forM receiveRecord).run standing.endpoint = (rest.forM receiveRecord).run after.endpoint :=
  run_bind_of_ok hrecord

theorem receive_of_refusal (hlimit : maximumPlaintext ≤ standing.ciphertextLimit) (hready : standing.phase.TakesInput)
    (hopen : standing.decrypter = none) {message : HandshakeMessage}
    (hbody : message.body.length ≤ HandshakeHeader.maximumLength) {parameters : Parameters} (hsender : parameters.Sensible)
    (hsmaller : parameters.plaintextLimit ≤ standing.terms.parameters.plaintextLimit) (version : Version)
    {alert : AlertDescription}
    (hmessage : (receiveMessage message).run standing.endpoint = .error (.sentAlert alert) after.endpoint)
    (hclear : after.encrypter = none) (hsensible : after.terms.parameters.Sensible) (rest : List Record)
    (hrest : Fit rest) :
    standing.connection.receive
        ((message.records version.code parameters.plaintextLimit ++ rest).flatMap Record.bytes) =
      (.error (.sentAlert alert), (after.refused alert).connection) := by
  have hfit := fit_append (fit_records hsender message version) hrest
  have hrun := run_forM_records_append_of_error standing hopen hbody hsender.positive hsmaller version.code hmessage rest
  rw [receive_of_error standing hlimit hfit hready hrun, fail_endpoint after hclear hsensible]
  rfl

/-! ### The four flights -/

/-- A client that has taken over the terms of a server. -/
def settled (terms : Terms) (answerBody : Bytes) (standing : Standing) : Standing :=
  ((standing.say (HandshakeMessage.mk .serverHello answerBody).bytes).settle terms standing.entropy).reach
    .waitKeyExchange

/-- A client that waits for the last hello message. -/
def greeted (terms : Terms) (answerBody identityHint : Bytes) (standing : Standing) : Standing :=
  ((standing.settled terms answerBody).say (hint identityHint).bytes).reach .waitHelloDone

/-- A client that has shown its identity and taken leave. -/
def leaving (terms : Terms) (said : Bytes) (context : Protection) (records : List Record) (entropy : Entropy)
    (standing : Standing) : Standing :=
  { standing with
    phase := .waitChangeCipher
    terms := terms
    transcript := some said
    encrypter := some context
    outgoing := records
    entropy := entropy }

/-- A server that is connected, with its leave yet to be sent. -/
def concluded (encrypter decrypter : Protection) (records : List Record) (entropy : Entropy) (standing : Standing) :
    Standing :=
  { standing with
    phase := .connected
    transcript := none
    encrypter := some encrypter
    decrypter := some decrypter
    done := true
    outgoing := records
    entropy := entropy }

theorem takesInput_of_phase {phase : Phase} (hphase : standing.phase = phase) (h : phase.TakesInput) :
    standing.phase.TakesInput := by
  rw [hphase]
  exact h

section

variable (hlimit : maximumPlaintext ≤ standing.ciphertextLimit) (hopen : standing.decrypter = none)
include hlimit hopen

theorem receive_clientHello {policy : ServerPolicy} (hside : standing.side = .server policy)
    (hphase : standing.phase = .waitHello) {body : Bytes} (hbody : body.length ≤ HandshakeHeader.maximumLength)
    {parameters : Parameters} (hsender : parameters.Sensible)
    (hsmaller : parameters.plaintextLimit ≤ standing.terms.parameters.plaintextLimit) (version : Version)
    (hmessage : (receiveClientHello policy ⟨.clientHello, body⟩).run standing.endpoint = .ok () after.endpoint) :
    standing.connection.receive
        (((HandshakeMessage.mk .clientHello body).records version.code parameters.plaintextLimit).flatMap Record.bytes) =
      (.ok (), after.connection) := by
  have hready := takesInput_of_phase standing hphase ⟨by decide, rfl⟩
  have hawaited : (receiveMessage ⟨.clientHello, body⟩).run standing.endpoint = .ok () after.endpoint := by
    rw [← hmessage]
    obtain ⟨phase, side, terms, key, limit, transcript, encrypter, decrypter, done, outgoing, entropy⟩ := standing
    subst hside hphase
    rfl
  have hrun := run_forM_records_append standing hopen hbody hsender.positive hsmaller version.code hawaited []
  rw [List.append_nil] at hrun
  exact receive_of_ok standing hlimit (fit_records hsender _ version) hready hrun

section

variable {offer : ClientOffer} (hside : standing.side = .client offer) (hphase : standing.phase = .waitHello)
  {policy : ServerPolicy} {hello : ClientHello} {version : Version} {suite : CipherSuite} {random : HelloRandom}
  {body : Bytes} (hbody : (policy.answering hello version suite random).bytes = .ok body)
  (hlength : body.length ≤ HandshakeHeader.maximumLength)
  (hcheck : offer.check (policy.answering hello version suite random) = .ok ())
  (hextensions : ∀ entry ∈ hello.extensions.entries, ExtensionMap.WellFormed entry)
  (hhint : 2 + policy.identityHint.length ≤ HandshakeHeader.maximumLength) {terms : Terms}
  (hterms : terms = standing.terms.answering policy hello version suite random)
  (hsensible : terms.parameters.Sensible)
  (hsmaller : terms.parameters.plaintextLimit ≤ standing.terms.parameters.plaintextLimit)
include hside hphase hbody hlength hcheck hextensions hhint hterms hsensible hsmaller

omit hlimit in
/-- The hello settles the terms, and the hint at an identity changes nothing. -/
theorem run_greeting (rest : List Record) :
    (((HandshakeMessage.mk .serverHello body).records version.code terms.parameters.plaintextLimit ++
      ((hint policy.identityHint).records version.code terms.parameters.plaintextLimit ++ rest)).forM receiveRecord).run
        standing.endpoint =
      (rest.forM receiveRecord).run (standing.greeted terms body policy.identityHint).endpoint := by
  have hread : ServerHello.ofBytes? (HandshakeMessage.mk .serverHello body).body =
      some (policy.answering hello version suite random) := ServerHello.ofBytes?_bytes hbody
  have hsettled : (receiveMessage ⟨.serverHello, body⟩).run standing.endpoint =
      .ok () (standing.settled terms body).endpoint := by
    rw [settled, ← run_receiveServerHello standing hread hcheck hextensions hterms]
    obtain ⟨phase, side, terms, key, limit, transcript, encrypter, decrypter, done, outgoing, entropy⟩ := standing
    subst hside hphase
    rfl
  have hgreeted : (receiveMessage (hint policy.identityHint)).run (standing.settled terms body).endpoint =
      .ok () (standing.greeted terms body policy.identityHint).endpoint := by
    rw [greeted, ← run_receiveIdentityHint _ (ofBody?_identityBody hhint)]
    obtain ⟨phase, side, terms, key, limit, transcript, encrypter, decrypter, done, outgoing, entropy⟩ := standing
    subst hside
    rfl
  rw [run_forM_records_append standing hopen hlength hsensible.positive hsmaller version.code hsettled]
  exact run_forM_records_append (standing.settled terms body) hopen (length_identityBody_le hhint) hsensible.positive (Nat.le_refl _)
    version.code hgreeted rest

theorem exists_receive_serverHello (hclear : standing.encrypter = none) (houtgoing : standing.outgoing = []) {said : Bytes}
    (hsaid : standing.transcript = some said) (hidentity : 2 + terms.identity.length ≤ HandshakeHeader.maximumLength)
    {params : SecurityParameters}
    (hparams : (standing.settle terms standing.entropy).session.securityParameters? = some params) {context : Protection}
    (hcontext : Protection.create params standing.side.role = .ok context) :
    ∃ fragment later entropy data,
      data = context.verifyData standing.side.role (said ++ (HandshakeMessage.mk .serverHello body).bytes ++
        (hint policy.identityHint).bytes ++ helloDone.bytes ++ (keyExchange terms.identity).bytes) ∧
      standing.connection.receive
          (((HandshakeMessage.mk .serverHello body).records version.code terms.parameters.plaintextLimit ++
            ((hint policy.identityHint).records version.code terms.parameters.plaintextLimit ++
              helloDone.records version.code terms.parameters.plaintextLimit)).flatMap Record.bytes) =
        (.ok (), (standing.leaving terms
          (said ++ (HandshakeMessage.mk .serverHello body).bytes ++ (hint policy.identityHint).bytes ++ helloDone.bytes ++
            (keyExchange terms.identity).bytes ++ (finished data).bytes) later
          ((keyExchange terms.identity).records version.code terms.parameters.plaintextLimit ++
            [changeCipherSpec version, ⟨ContentType.handshake.code, version.code, fragment⟩]) entropy).connection) ∧
      fragment.length ≤ 96 ∧
      context.unprotect ContentType.handshake.code version.code fragment = (.ok (finished data).bytes, later) := by
  have hready := takesInput_of_phase standing hphase ⟨by decide, rfl⟩
  have hversion : terms.version = version := by rw [hterms, Terms.answering]
  have hgreetedSaid : (standing.greeted terms body policy.identityHint).transcript =
      some (said ++ (HandshakeMessage.mk .serverHello body).bytes ++ (hint policy.identityHint).bytes) := by
    simp only [greeted, settled, reach, say, settle, hsaid, Option.map_some]
  obtain ⟨fragment, later, entropy, data, hdata, hdone, hfragment, hunprotect⟩ :=
    exists_receiveServerHelloDone (standing.greeted terms body policy.identityHint) hclear hopen hsensible hidentity hparams
      hcontext hgreetedSaid
  refine ⟨fragment, later, entropy, data, hdata, ?_, hfragment, hversion ▸ hunprotect⟩
  have hmessage : (receiveMessage helloDone).run (standing.greeted terms body policy.identityHint).endpoint =
      (receiveServerHelloDone helloDone).run (standing.greeted terms body policy.identityHint).endpoint := by
    obtain ⟨phase, side, terms, key, limit, transcript, encrypter, decrypter, done, outgoing, entropy⟩ := standing
    subst hside
    rfl
  have hfit (message : HandshakeMessage) : Fit (message.records version.code terms.parameters.plaintextLimit) :=
    fit_records hsensible message version
  have hlast := run_forM_records_append (standing.greeted terms body policy.identityHint) hopen (Nat.zero_le _)
    hsensible.positive (Nat.le_refl _) version.code (hmessage.trans hdone) []
  apply receive_of_ok standing hlimit (fit_append (hfit _) (fit_append (hfit _) (hfit _))) hready
  rw [run_greeting standing hopen hside hphase hbody hlength hcheck hextensions hhint hterms hsensible hsmaller]
  rw [List.append_nil] at hlast
  apply Eq.trans hlast
  obtain ⟨phase, side, terms, key, limit, transcript, encrypter, decrypter, done, outgoing, entropy⟩ := standing
  subst hversion houtgoing hsaid
  rfl

end

theorem receive_keyExchange {policy : ServerPolicy} (hside : standing.side = .server policy)
    (hphase : standing.phase = .waitKeyExchange) (hsensible : standing.terms.parameters.Sensible) {identity key : Bytes}
    (hidentity : 2 + identity.length ≤ HandshakeHeader.maximumLength) (hkey : policy.resolve identity = some key)
    (version : Version) :
    standing.connection.receive
        (((keyExchange identity).records version.code standing.terms.parameters.plaintextLimit).flatMap Record.bytes) =
      (.ok (), (((standing.say (keyExchange identity).bytes).identify identity key).reach .waitChangeCipher).connection) := by
  have hready := takesInput_of_phase standing hphase ⟨by decide, rfl⟩
  have hread : KeyIdentity.ofBody? (keyExchange identity).body = some identity := ofBody?_identityBody hidentity
  have hmessage : (receiveMessage (keyExchange identity)).run standing.endpoint =
      .ok () (((standing.say (keyExchange identity).bytes).identify identity key).reach .waitChangeCipher).endpoint := by
    rw [← run_receiveIdentity standing hread hkey]
    obtain ⟨phase, side, terms, key, limit, transcript, encrypter, decrypter, done, outgoing, entropy⟩ := standing
    subst hside hphase
    rfl
  have hrun := run_forM_records_append standing hopen (length_identityBody_le hidentity) hsensible.positive
    (Nat.le_refl _) version.code hmessage []
  rw [List.append_nil] at hrun
  exact receive_of_ok standing hlimit (fit_records hsensible _ version) hready hrun

theorem exists_receive_conclusion {policy : ServerPolicy} (hside : standing.side = .server policy)
    (hphase : standing.phase = .waitChangeCipher) (hclear : standing.encrypter = none) (houtgoing : standing.outgoing = [])
    (hsensible : standing.terms.parameters.Sensible) {said : Bytes} (hsaid : standing.transcript = some said)
    {version : Version} (hversion : standing.terms.version = version) {params : SecurityParameters}
    (hparams : standing.session.securityParameters? = some params) {context own : Protection}
    (hcontext : Protection.create params .client = .ok context) (hown : Protection.create params .server = .ok own)
    {data : VerifyData} (hdata : data = context.verifyData .client said) {fragment : Bytes} (hfragment : fragment.length ≤ 96)
    {later : Protection}
    (hunprotect : context.unprotect ContentType.handshake.code version.code fragment = (.ok (finished data).bytes, later)) :
    ∃ reply last entropy answer,
      answer = own.verifyData .server (said ++ (finished data).bytes) ∧
      standing.connection.receive
          ([changeCipherSpec version, ⟨ContentType.handshake.code, version.code, fragment⟩].flatMap Record.bytes) =
        (.ok (), (standing.concluded last later
          [changeCipherSpec version, ⟨ContentType.handshake.code, version.code, reply⟩] entropy).connection) ∧
      reply.length ≤ 96 ∧
      own.unprotect ContentType.handshake.code version.code reply = (.ok (finished answer).bytes, last) := by
  have hready := takesInput_of_phase standing hphase ⟨by decide, rfl⟩
  have hsame (sender : Role) (said : Bytes) : later.verifyData sender said = context.verifyData sender said := by
    have hopened := context.verifyData_unprotect ContentType.handshake.code version.code fragment sender said
    rwa [hunprotect] at hopened
  have hlength := length_bytes_finished data
  -- The keys are switched, and the Finished is opened under them.
  have hfirst : (receiveRecord (changeCipherSpec version)).run standing.endpoint =
      .ok () ((standing.withDecrypter context).reach .waitFinished).endpoint :=
    run_receiveChangeCipherSpec standing hphase hopen hsensible hparams (by rw [hside]; exact hcontext) version
  have hsecond : (receiveRecord ⟨ContentType.handshake.code, version.code, fragment⟩).run
      ((standing.withDecrypter context).reach .waitFinished).endpoint =
        (receiveMessage (finished data)).run ((standing.withDecrypter later).reach .waitFinished).endpoint :=
    run_receive_sealed ((standing.withDecrypter context).reach .waitFinished) rfl hunprotect
      (by rw [hlength]; exact Nat.le_trans (by decide) hsensible.1) (by rw [finished, FixedBytes.length_bytes]; decide)
  have hexpected : data = later.verifyData standing.side.role.peer said := by
    rw [hsame, hside]
    exact hdata
  have hownSide : Protection.create params standing.side.role = .ok own := by
    rw [hside]
    exact hown
  obtain ⟨reply, last, entropy, answer, hanswer, hrun, hreply, hopened⟩ :=
    exists_receiveMessage_finished ((standing.withDecrypter later).reach .waitFinished) rfl rfl hsaid hexpected hside hclear
      hsensible hparams hownSide
  have hanswered : answer = own.verifyData .server (said ++ (finished data).bytes) := by
    rw [hanswer, hsame, Protection.verifyData_of_create hcontext hown]
    show own.verifyData standing.side.role _ = _
    rw [hside, Side.role]
  refine ⟨reply, last, entropy, answer, hanswered, ?_, hreply, ?_⟩
  · apply receive_of_ok standing hlimit (fit_conclusion version hfragment) hready
    rw [run_forM_cons standing hfirst]
    show EStateM.run (receiveRecord _ >>= fun _ => pure PUnit.unit) _ = _
    rw [run_bind_of_ok (hsecond.trans hrun)]
    obtain ⟨phase, side, terms, key, limit, transcript, encrypter, decrypter, done, outgoing, entropy⟩ := standing
    subst houtgoing hversion hsaid
    rfl
  · rw [← hversion]
    exact hopened

theorem receive_conclusion {offer : ClientOffer} (hside : standing.side = .client offer)
    (hphase : standing.phase = .waitChangeCipher) (hsensible : standing.terms.parameters.Sensible) {said : Bytes}
    (hsaid : standing.transcript = some said) {version : Version} {params : SecurityParameters}
    (hparams : standing.session.securityParameters? = some params) {own : Protection}
    (hown : Protection.create params .server = .ok own) {answer : VerifyData}
    (hanswer : answer = own.verifyData .server said) {reply : Bytes} (hreply : reply.length ≤ 96) {last : Protection}
    (hunprotect : own.unprotect ContentType.handshake.code version.code reply = (.ok (finished answer).bytes, last)) :
    standing.connection.receive
        ([changeCipherSpec version, ⟨ContentType.handshake.code, version.code, reply⟩].flatMap Record.bytes) =
      (.ok (), (standing.withDecrypter last).complete.connection) := by
  have hready := takesInput_of_phase standing hphase ⟨by decide, rfl⟩
  have hlength := length_bytes_finished answer
  have hsame : last.verifyData .server said = own.verifyData .server said := by
    have hopened := own.verifyData_unprotect ContentType.handshake.code version.code reply .server said
    rwa [hunprotect] at hopened
  have hfirst : (receiveRecord (changeCipherSpec version)).run standing.endpoint =
      .ok () ((standing.withDecrypter own).reach .waitFinished).endpoint :=
    run_receiveChangeCipherSpec standing hphase hopen hsensible hparams (by rw [hside]; exact hown) version
  have hsecond : (receiveRecord ⟨ContentType.handshake.code, version.code, reply⟩).run
      ((standing.withDecrypter own).reach .waitFinished).endpoint =
        (receiveMessage (finished answer)).run ((standing.withDecrypter last).reach .waitFinished).endpoint :=
    run_receive_sealed ((standing.withDecrypter own).reach .waitFinished) rfl hunprotect
      (by rw [hlength]; exact Nat.le_trans (by decide) hsensible.1) (by rw [finished, FixedBytes.length_bytes]; decide)
  have hthird := run_receiveMessage_finished ((standing.withDecrypter last).reach .waitFinished) rfl rfl hsaid
    (by show answer = last.verifyData standing.side.role.peer said; rw [hside, hanswer]; exact hsame.symm) hside
  apply receive_of_ok standing hlimit (fit_conclusion version hreply) hready
  rw [run_forM_cons standing hfirst]
  show EStateM.run (receiveRecord _ >>= fun _ => pure PUnit.unit) _ = _
  rw [run_bind_of_ok (hsecond.trans hthird)]
  rfl

end

end PresharedTls.Standing
